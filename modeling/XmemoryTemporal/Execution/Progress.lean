import XmemoryTemporal.Execution.History
import XmemoryTemporal.Durable.Deadline

/-! # What a call can be brought to

The steps of a call leave it room: one that waits for an activity can be brought on by any output that an
attempt returns (`attempt_run`, `Ready.activity`), and one that sleeps by its timer (`timer_run`,
`Ready.timer`). `run_call` takes such steps to the workflow the call is of. Put together, a durable write can
be brought through any polls (`brought_through`): the answers of the client and the times are the
environment's. -/

namespace XmemoryTemporal.Execution.Progress

open XmemoryTemporal.Python.Time XmemoryTemporal.Config XmemoryTemporal.Lib.Retry XmemoryTemporal.Lib.Loop
open XmemoryTemporal.Dto XmemoryTemporal.Errors XmemoryTemporal.Activities
open XmemoryTemporal.Activities.Timeout XmemoryTemporal.WorkflowApi XmemoryTemporal.Execution
open XmemoryTemporal.Execution.AtMostOnce XmemoryTemporal.Execution.History

/-! ### One call -/

/-- Steps of one call. -/
abbrev CallRun (c : WriteCall) : CallState → CallState → Prop := Relation.ReflTransGen (CallStep c)

/-- The call is in memory, and all its commands have been answered. -/
structure Ready (c : WriteCall) (s : CallState) : Prop where
  memory : s.memory = some (replay c s.history)
  idle : s.commands.length = s.history.length

variable {c : WriteCall} {s t : CallState}

theorem mayAttempt_nil (p : RetryPolicy) : MayAttempt AttemptRecord.again (RetryPolicy.limit p) [] := by
  refine ⟨fun n hn => ?_, fun r hr => by simp at hr⟩
  unfold RetryPolicy.limit at hn
  split_ifs at hn with h
  have hmax : p.maximumAttempts = n := Option.some.inj hn
  simp only [List.length_nil]
  omega

theorem ready_of_idle (hidle : s.commands.length = s.history.length) :
    ∃ t, CallRun c s t ∧ Ready c t ∧ t.history = s.history :=
  ⟨_, Relation.ReflTransGen.single .recompute, ⟨rfl, hidle⟩, rfl⟩

theorem CallRun.ready (hrun : CallRun c s t) {ans : Answer} (hhistory : t.history = s.history ++ [ans])
    (hcommands : t.commands.length = s.history.length + 1) :
    ∃ u, CallRun c s u ∧ Ready c u ∧ u.history = s.history ++ [ans] := by
  have hidle : t.commands.length = t.history.length := by
    rw [hcommands, hhistory, List.length_append, List.length_singleton]
  obtain ⟨u, hrecompute, hready, hsame⟩ := ready_of_idle (c := c) hidle
  exact ⟨u, hrun.trans hrecompute, hready, hsame.trans hhistory⟩

/-- **An activity that may be attempted** can be answered with what the attempt returns, at any time. -/
theorem attempt_run {done : List Scheduled} {a : ExecuteActivity} {attempts : List AttemptRecord}
    (hcommands : s.commands = done ++ [.activity a attempts]) (hlen : done.length = s.history.length)
    (hmay : MayAttempt AttemptRecord.again (RetryPolicy.limit a.retryPolicy) attempts) (config : XmemoryConfig)
    (client : Client) (info : ActivityInfo) {o : Output}
    (hok : (runActivity config (some client) info a.request).outcome = .ok o) (now : Datetime) :
    ∃ t, CallRun c s t ∧ Ready c t ∧ t.history = s.history ++ [.completed o now] := by
  set r : AttemptRecord :=
    { bound := some client, info, attempt := runActivity config (some client) info a.request
      fate := .running }
  have hattempt := CallStep.attempt (c := c) config (some client) info hcommands hlen hmay
  have hends := CallStep.ends (c := c) (s := { s with commands := done ++ [.activity a (attempts ++ [r])] })
    .reported rfl hlen rfl
  have hanswers : Answers (attempts ++ [{ r with fate := .reported }]) (.completed o now) :=
    ⟨_, List.getLast?_concat, rfl, hok⟩
  have hdeliver := CallStep.deliver (c := c)
    (s := { s with commands := done ++ [.activity a (attempts ++ [{ r with fate := .reported }])] })
    rfl hlen hanswers
  refine CallRun.ready (((Relation.ReflTransGen.single hattempt).tail hends).tail hdeliver) rfl ?_
  rw [List.length_append, List.length_singleton, hlen]

theorem timer_run {done : List Scheduled} {d : Timedelta} (hcommands : s.commands = done ++ [.timer d])
    (hlen : done.length = s.history.length) (suggested : Bool) :
    ∃ t, CallRun c s t ∧ Ready c t ∧ t.history = s.history ++ [.fired suggested] := by
  have hfire := CallStep.fire (c := c) suggested hcommands hlen
  refine CallRun.ready (Relation.ReflTransGen.single hfire) rfl ?_
  show s.commands.length = _
  rw [hcommands, List.length_append, List.length_singleton, hlen]

theorem Ready.activity (h : Ready c s) {a : ExecuteActivity}
    (hnext : nextCommand c (replay c s.history) = some (.executeActivity a)) (config : XmemoryConfig)
    (client : Client) (info : ActivityInfo) {o : Output}
    (hok : (runActivity config (some client) info a.request).outcome = .ok o) (now : Datetime) :
    ∃ t, CallRun c s t ∧ Ready c t ∧ t.history = s.history ++ [.completed o now] := by
  have hschedule := CallStep.schedule h.memory hnext h.idle
  obtain ⟨t, hrun, hready, hhistory⟩ := attempt_run (c := c)
    (s := { s with commands := s.commands ++ [.activity a []] }) rfl h.idle (mayAttempt_nil a.retryPolicy)
    config client info hok now
  exact ⟨t, hrun.head hschedule, hready, hhistory⟩

theorem Ready.timer (h : Ready c s) {d : Timedelta}
    (hnext : nextCommand c (replay c s.history) = some (.sleep d)) (suggested : Bool) :
    ∃ t, CallRun c s t ∧ Ready c t ∧ t.history = s.history ++ [.fired suggested] := by
  have hschedule := CallStep.schedule h.memory hnext h.idle
  obtain ⟨t, hrun, hready, hhistory⟩ := timer_run (c := c)
    (s := { s with commands := s.commands ++ [.timer d] }) rfl h.idle suggested
  exact ⟨t, hrun.head hschedule, hready, hhistory⟩

/-! ### A durable write -/

/-- A client that answers an enqueue and a poll as it is told to. -/
def answering (start : WriteStartResult) (status : WriteStatusResult) : Client :=
  { idleClient with writeAsync := fun _ => .ok start, writeStatus := fun _ => .ok status }

theorem runActivity_answering (start : WriteStartResult) (status : WriteStatusResult) (req : Request) {o : Output}
    (ho : ∀ call, (answering start status).answer call req = .ok o) :
    (runActivity {} (some (answering start status)) (infoOf req (.ofSeconds 30 (by decide))) req).outcome =
      .ok o := by
  have hclose : closeTimeout (infoOf req (.ofSeconds 30 (by decide))) = some (.ofSeconds 30 (by decide)) :=
    closeTimeout_startToClose (by decide) rfl
  rw [runActivity_called rfl (clientTimeout_ok_iff.mpr ⟨_, hclose, rfl⟩), ho]
  rfl

section Durable
variable {x : WorkflowXmemory} {a : DurableArgs}

theorem brought_poll (p : Poll) {l : PollLoop} (h : Ready (.writeDurable x a) s)
    (hpolling : replay (.writeDurable x a) s.history = .polling l) :
    ∃ t, CallRun (.writeDurable x a) s t ∧ Ready (.writeDurable x a) t ∧
      t.history = s.history ++ [.completed (.writeStatus p.status) p.arrived] := by
  have hnext : nextCommand (.writeDurable x a) (replay (.writeDurable x a) s.history) =
      some (.executeActivity (writeStatus x l.writeId)) := by
    rw [hpolling]
    rfl
  have hok := runActivity_answering ⟨.missing⟩ p.result (writeStatus x l.writeId).request
    (o := .writeStatus p.status) fun call => rfl
  exact h.activity hnext {} _ _ hok p.arrived

theorem sleeps_of_again {l l' : PollLoop} {p : Poll} (h : (durableTurn x l p).2 = .again l') :
    afterStatus l p.arrived p.status = .sleep := by
  unfold durableTurn at h
  rcases hs : afterStatus l p.arrived p.status with status | e | _
  · simp [hs] at h
  · simp [hs] at h
  · rfl

theorem brought_turn (p : Poll) {l : PollLoop} (h : Ready (.writeDurable x a) s)
    (hpolling : replay (.writeDurable x a) s.history = .polling l) :
    ∃ t, CallRun (.writeDurable x a) s t ∧ Ready (.writeDurable x a) t ∧
      replay (.writeDurable x a) t.history = turnCoroutine (durableTurn x l p).2 ∧
      ∀ l', (durableTurn x l p).2 = .again l' → t.history = s.history ++ Poll.answers p := by
  set c : WriteCall := .writeDurable x a with hc
  obtain ⟨t, hrun, hready, hhistory⟩ := brought_poll p h hpolling
  have ht : replay c t.history = resume c (.polling l) (.completed (.writeStatus p.status) p.arrived) := by
    rw [hhistory, replay_concat, hpolling]
  rw [← resume_turn x a l p]
  by_cases hsleeps : afterStatus l p.arrived p.status = .sleep
  · -- the timer fires too
    have hsleeping : replay c t.history = .sleeping l := by
      rw [ht]
      simp only [resume, hsleeps]
    have hnext : nextCommand c (replay c t.history) = some (.sleep l.delay) := by
      rw [hsleeping]
      rfl
    obtain ⟨u, hrun', hready', hhistory'⟩ := hready.timer hnext p.continueAsNewSuggested
    refine ⟨u, hrun.trans hrun', hready', ?_, fun l' _ => ?_⟩
    · rw [hhistory', replay_concat, ht]
      rfl
    · rw [hhistory', hhistory, List.append_assoc]
      rfl
  · have hended : ∃ o, resume c (.polling l) (.completed (.writeStatus p.status) p.arrived) = .finished o := by
      rcases hs : afterStatus l p.arrived p.status with status | e | _
      · exact ⟨.returned (.writeStatus status), by simp only [resume, hs]⟩
      · exact ⟨.raised e, by simp only [resume, hs]⟩
      · exact absurd hs hsleeps
    obtain ⟨o, ho⟩ := hended
    refine ⟨t, hrun, hready, ?_, fun l' hl' => absurd (sleeps_of_again hl') hsleeps⟩
    show _ = resume c (resume c (.polling l) (.completed (.writeStatus p.status) p.arrived)) _
    rw [ht, ho]
    rfl

/-- **It can be brought through any polls**, to where they lead, and is told all answers if it goes on. -/
theorem brought_through (polls : List Poll) {l : PollLoop} (h : Ready (.writeDurable x a) s)
    (hpolling : replay (.writeDurable x a) s.history = .polling l) :
    ∃ t, CallRun (.writeDurable x a) s t ∧ Ready (.writeDurable x a) t ∧
      replay (.writeDurable x a) t.history =
        (polls.flatMap Poll.answers).foldl (resume (.writeDurable x a)) (.polling l) ∧
      (((durableLoop x).run l polls).2 = none → t.history = s.history ++ polls.flatMap Poll.answers) := by
  induction polls generalizing s l with
  | nil => exact ⟨s, .refl, h, hpolling, fun _ => (List.append_nil _).symm⟩
  | cons p polls ih =>
    rw [List.flatMap_cons, List.foldl_append, resume_turn]
    obtain ⟨t, hrun, hready, ht, hhistory⟩ := brought_turn p h hpolling
    rcases hturn : durableTurn x l p with ⟨rec, o | l'⟩
    · rw [hturn] at ht
      refine ⟨t, hrun, hready, ?_, fun hnone => ?_⟩
      · rw [ht]
        exact (resume_finished _ _ _).symm
      · rw [run_stop (L := durableLoop x) hturn] at hnone
        cases hnone
    · rw [hturn] at ht hhistory
      obtain ⟨u, hrun', hready', hu, hhistory'⟩ := ih hready ht
      refine ⟨u, hrun.trans hrun', hready', hu, fun hnone => ?_⟩
      rw [run_again (L := durableLoop x) hturn] at hnone
      rw [hhistory' hnone, hhistory l' rfl, List.append_assoc]

theorem brought_from_start (now : Datetime) (start : WriteStartResult) (polls : List Poll)
    (h : Ready (.writeDurable x a) s) (hnew : s.history = []) :
    ∃ t, CallRun (.writeDurable x a) s t ∧ Ready (.writeDurable x a) t ∧
      replay (.writeDurable x a) t.history = replay (.writeDurable x a)
        (.completed (.writeStart (projectWriteStart start)) now :: polls.flatMap Poll.answers) ∧
      ((writeDurable x a now (projectWriteStart start) polls).outcome = none → t.history =
        .completed (.writeStart (projectWriteStart start)) now :: polls.flatMap Poll.answers) := by
  set c : WriteCall := .writeDurable x a with hc
  have hnext : nextCommand c (replay c s.history) = some (.executeActivity c.command) := by
    rw [hnew]
    rfl
  have hok := runActivity_answering start ⟨.missing, .missing, .missing, .missing, .missing, .missing⟩
    c.command.request (o := .writeStart (projectWriteStart start)) fun call => rfl
  obtain ⟨t, hrun, hready, hhistory⟩ := h.activity hnext {} _ _ hok now
  rw [hnew, List.nil_append] at hhistory
  have ht : replay c t.history = afterEnqueue c (.writeStart (projectWriteStart start)) now := by
    rw [hhistory]
    rfl
  have hgoal : replay c (.completed (.writeStart (projectWriteStart start)) now :: polls.flatMap Poll.answers) =
      (polls.flatMap Poll.answers).foldl (resume c) (replay c t.history) := by
    rw [ht]
    rfl
  rw [hgoal]
  unfold writeDurable
  rcases hl : pollLoop a now (projectWriteStart start) with e | l
  · have hended : replay c t.history = .finished (.raised e) := by
      rw [ht]
      simp only [hc, afterEnqueue, hl]
    refine ⟨t, hrun, hready, ?_, fun hnone => by cases hnone⟩
    rw [hended]
    exact (resume_finished _ _ _).symm
  · have hpolling : replay c t.history = .polling l := by
      rw [ht]
      simp only [hc, afterEnqueue, hl]
    obtain ⟨u, hrun', hready', hu, hhistory'⟩ := brought_through polls hready hpolling
    refine ⟨u, hrun.trans hrun', hready', ?_, fun hnone => ?_⟩
    · rw [hpolling]
      exact hu
    · rw [hhistory' hnone, hhistory]
      rfl

end Durable

/-! ### A workflow -/

section Runs
variable {ι : Type} [DecidableEq ι] {calls : ι → WriteCall} {i : ι}

/-- **Steps of a call are steps of its workflow**, which leave the other calls alone. -/
theorem run_call {s : State ι} {t : CallState} (h : CallRun (calls i) (s i) t) :
    Relation.ReflTransGen (Step calls) s (Function.update s i t) := by
  induction h with
  | refl =>
    rw [Function.update_eq_self]
  | @tail u v _ hstep ih =>
    have hcall : CallStep (calls i) (Function.update s i u i) v := by
      rw [Function.update_self]
      exact hstep
    have hnext := ih.tail (Step.call hcall)
    rw [Function.update_idem] at hnext
    exact hnext

theorem reachable_of_callRun {P : CallState → Prop}
    (h : ∀ s, Ready (calls i) s → s.history = [] → ∃ t, CallRun (calls i) s t ∧ P t) :
    ∃ s : State ι, Reachable calls s ∧ P (s i) := by
  obtain ⟨s, hrun, hready, hnew⟩ := ready_of_idle (c := calls i) (s := initial ι i) rfl
  obtain ⟨t, hrun', ht⟩ := h s hready hnew
  refine ⟨Function.update (initial ι) i t, run_call (hrun.trans hrun'), ?_⟩
  rw [Function.update_self]
  exact ht

end Runs

end XmemoryTemporal.Execution.Progress
