import XmemoryTemporal.Execution.Recorded

/-! # A durable write can still be completed

Attempts are lost and workers crash. As long as the policy of the pending activity leaves it an attempt, the
one in progress can be lost (`lost_run`) and another made, which is answered by its client (`answer_run`). So
a durable write that has not ended can be brought to return a completed status from every state of a workflow,
and without another write if its enqueue was answered (`can_complete`). What the clients answer, and when, is
the environment's. -/

namespace XmemoryTemporal.Execution.Completion

open XmemoryTemporal.Python.Time XmemoryTemporal.Config XmemoryTemporal.Lib.Retry XmemoryTemporal.Dto
open XmemoryTemporal.Activities XmemoryTemporal.Activities.Timeout XmemoryTemporal.WorkflowApi
open XmemoryTemporal.Durable.Turn XmemoryTemporal.Durable.Outcome XmemoryTemporal.Durable.Deadline
open XmemoryTemporal.Execution
open XmemoryTemporal.Execution.AtMostOnce XmemoryTemporal.Execution.History
open XmemoryTemporal.Execution.Metadata XmemoryTemporal.Execution.Spec XmemoryTemporal.Execution.Progress
open XmemoryTemporal.Execution.Provenance XmemoryTemporal.Execution.Recorded

/-- The activity that is pending, if one is, may be attempted once more when the attempt in progress is lost. -/
def AttemptsLeft (s : CallState) : Prop :=
  ∀ done a attempts, s.commands = done ++ [.activity a attempts] → done.length = s.history.length →
    (∀ n, RetryPolicy.limit a.retryPolicy = some n → attempts.length < n) ∧
      ∀ r, attempts.getLast? = some r → r.fate = .running ∨ r.again

variable {c : WriteCall} {s : CallState}

/-! ### The pending command -/

theorem lost_run {done : List Scheduled} {a : ExecuteActivity} {attempts : List AttemptRecord}
    (hleft : AttemptsLeft s) (hcommands : s.commands = done ++ [.activity a attempts])
    (hlen : done.length = s.history.length) :
    ∃ attempts', CallRun c s { s with commands := done ++ [.activity a attempts'] } ∧
      MayAttempt AttemptRecord.again (RetryPolicy.limit a.retryPolicy) attempts' := by
  obtain ⟨hlimit, hlast⟩ := hleft done a attempts hcommands hlen
  rcases List.eq_nil_or_concat attempts with rfl | ⟨init, r, rfl⟩
  · refine ⟨[], ?_, mayAttempt_nil a.retryPolicy⟩
    rw [← hcommands]
  · rw [List.concat_eq_append] at hcommands hlimit hlast
    rcases hlast r List.getLast?_concat with hrunning | hagain
    · refine ⟨init ++ [{ r with fate := .lost }], .single (.ends .lost hcommands hlen hrunning), ?_, ?_⟩
      · intro n hn
        have hlt := hlimit n hn
        rw [List.length_append, List.length_singleton] at hlt ⊢
        exact hlt
      · intro r' hr'
        rw [List.getLast?_concat] at hr'
        cases hr'
        exact Or.inl rfl
    · refine ⟨init ++ [r], ?_, hlimit, ?_⟩
      · rw [← hcommands]
      · intro r' hr'
        rw [List.getLast?_concat] at hr'
        cases hr'
        exact hagain

theorem pending_command (h : CallInv c s) (hlt : s.history.length < s.commands.length) :
    ∃ done cmd, s.commands = done ++ [cmd] ∧ done.length = s.history.length ∧
      nextCommand c (replay c s.history) = some (Scheduled.command cmd) := by
  have hpending := h.pending
  obtain ⟨done, cmd, hcommands⟩ := (List.eq_nil_or_concat s.commands).resolve_left
    (List.ne_nil_of_length_pos (by omega))
  rw [List.concat_eq_append] at hcommands
  have hlen : done.length = s.history.length := by
    rw [hcommands, List.length_append, List.length_singleton] at hlt hpending
    omega
  have hget : s.commands[s.history.length]? = some cmd := by
    rw [hcommands, ← hlen]
    simp
  have hissued := h.issued _ cmd hget
  rw [List.take_length] at hissued
  exact ⟨done, cmd, hcommands, hlen, Issued.command hissued⟩

/-- **An activity that the call waits for can be answered** with what a client answers. -/
theorem answer_run (h : CallInv c s) (hleft : AttemptsLeft s) {a : ExecuteActivity}
    (hnext : nextCommand c (replay c s.history) = some (.executeActivity a)) (config : XmemoryConfig)
    (client : Client) (info : ActivityInfo) {o : Output}
    (hok : (runActivity config (some client) info a.request).outcome = .ok o) (now : Datetime) :
    ∃ t, CallRun c s t ∧ Ready c t ∧ t.history = s.history ++ [.completed o now] := by
  have hanswered := h.answered
  rcases Nat.lt_or_ge s.history.length s.commands.length with hlt | hge
  · obtain ⟨done, cmd, hcommands, hlen, hcmd⟩ := pending_command h hlt
    rw [hnext] at hcmd
    cases cmd with
    | timer d => cases hcmd
    | activity b attempts =>
      cases hcmd
      obtain ⟨attempts', hrun, hmay⟩ := lost_run (c := c) hleft hcommands hlen
      obtain ⟨t, hrun', hready, hhistory⟩ := attempt_run (c := c)
        (s := { s with commands := done ++ [.activity a attempts'] }) rfl hlen hmay config client info hok now
      exact ⟨t, hrun.trans hrun', hready, hhistory⟩
  · obtain ⟨t, hrun, hready, hsame⟩ := ready_of_idle (c := c) (s := s) (by omega)
    rw [← hsame] at hnext
    obtain ⟨u, hrun', hready', hhistory⟩ := hready.activity hnext config client info hok now
    rw [hsame] at hhistory
    exact ⟨u, hrun.trans hrun', hready', hhistory⟩

theorem fire_run (h : CallInv c s) {d : Timedelta} (hnext : nextCommand c (replay c s.history) = some (.sleep d)) :
    ∃ t, CallRun c s t ∧ Ready c t ∧ t.history = s.history ++ [.fired false] := by
  have hanswered := h.answered
  rcases Nat.lt_or_ge s.history.length s.commands.length with hlt | hge
  · obtain ⟨done, cmd, hcommands, hlen, hcmd⟩ := pending_command h hlt
    rw [hnext] at hcmd
    cases cmd with
    | activity b attempts => cases hcmd
    | timer d' =>
      exact timer_run hcommands hlen false
  · obtain ⟨t, hrun, hready, hsame⟩ := ready_of_idle (c := c) (s := s) (by omega)
    rw [← hsame] at hnext
    obtain ⟨u, hrun', hready', hhistory⟩ := hready.timer hnext false
    rw [hsame] at hhistory
    exact ⟨u, hrun.trans hrun', hready', hhistory⟩

/-! ### The way to a completed status -/

section Durable
variable {x : WorkflowXmemory} {a : DurableArgs} {l : PollLoop}

theorem ended_of_completed (hpolling : replay (.writeDurable x a) s.history = .polling l) {t : CallState}
    {now : Datetime} (hhistory : t.history = s.history ++ [.completed (.writeStatus completedStatus) now]) :
    EndedWith (.writeDurable x a) t (.returned (.writeStatus completedStatus)) := by
  have hcompleted : afterStatus l now completedStatus = .returned completedStatus := by
    unfold afterStatus
    rw [interpretStatus_completed rfl]
  unfold EndedWith
  rw [hhistory, replay_concat, hpolling]
  simp only [resume, hcompleted]

theorem Ready.completes (h : Ready (.writeDurable x a) s)
    (hpolling : replay (.writeDurable x a) s.history = .polling l) :
    ∃ t, CallRun (.writeDurable x a) s t ∧
      EndedWith (.writeDurable x a) t (.returned (.writeStatus completedStatus)) := by
  obtain ⟨t, hrun, -, hhistory⟩ := brought_poll ⟨reportOf "completed", firstDay, false⟩ h hpolling
  exact ⟨t, hrun, ended_of_completed hpolling hhistory⟩

theorem completing_run (h : CallInv (.writeDurable x a) s) (hleft : AttemptsLeft s)
    (hdate : ∃ now, IsDate (deadlineOf a now)) (hopen : ∀ o, ¬ EndedWith (.writeDurable x a) s o) :
    ∃ t, CallRun (.writeDurable x a) s t ∧
      EndedWith (.writeDurable x a) t (.returned (.writeStatus completedStatus)) := by
  rcases hco : replay (.writeDurable x a) s.history with _ | l | l | o
  · -- the enqueue is answered, and then a poll
    obtain ⟨now, hnow⟩ := hdate
    have hnext : nextCommand (.writeDurable x a) (replay (.writeDurable x a) s.history) =
        some (.executeActivity (writeAsyncStart x a.write)) := by
      rw [hco]
      rfl
    have hok := runActivity_answering ⟨.value "w1"⟩ (reportOf "completed") (writeAsyncStart x a.write).request
      (o := .writeStart (projectWriteStart ⟨.value "w1"⟩)) fun call => rfl
    obtain ⟨t, hrun, hready, hhistory⟩ := answer_run h hleft hnext {} _ _ hok now
    rcases pollLoop_cases a now (projectWriteStart ⟨.value "w1"⟩) with ⟨-, l, hl, -⟩ | ⟨hno, -⟩
    · have hpolling : replay (.writeDurable x a) t.history = .polling l := by
        rw [hhistory, replay_concat, hco]
        simp only [resume, afterEnqueue, hl]
      obtain ⟨u, hrun', hend⟩ := Ready.completes hready hpolling
      exact ⟨u, hrun.trans hrun', hend⟩
    · exact absurd hnow hno
  · have hnext : nextCommand (.writeDurable x a) (replay (.writeDurable x a) s.history) =
        some (.executeActivity (writeStatus x l.writeId)) := by
      rw [hco]
      rfl
    have hok := runActivity_answering ⟨.missing⟩ (reportOf "completed") (writeStatus x l.writeId).request
      (o := .writeStatus completedStatus) fun call => rfl
    obtain ⟨t, hrun, -, hhistory⟩ := answer_run h hleft hnext {} _ _ hok firstDay
    exact ⟨t, hrun, ended_of_completed hco hhistory⟩
  · -- the timer fires before the next poll
    have hnext : nextCommand (.writeDurable x a) (replay (.writeDurable x a) s.history) =
        some (.sleep l.delay) := by
      rw [hco]
      rfl
    obtain ⟨t, hrun, hready, hhistory⟩ := fire_run h hnext
    obtain ⟨now, hwaits⟩ := waits_of_sleeping hco
    obtain ⟨l', hl', -⟩ := afterTimer_ok hwaits false
    have hpolling : replay (.writeDurable x a) t.history = .polling l' := by
      rw [hhistory, replay_concat, hco]
      simp only [resume, hl']
    obtain ⟨u, hrun', hend⟩ := Ready.completes hready hpolling
    exact ⟨u, hrun.trans hrun', hend⟩
  · exact absurd hco (hopen o)

theorem timers_nonneg (h : CallInv (.writeDurable x a) s) (hfirst : 0 ≤ a.firstDelay.micros)
    (hcap : 0 ≤ a.cap.micros) {d : Timedelta} (hd : .timer d ∈ s.commands) : 0 ≤ d.micros := by
  obtain ⟨j, hj⟩ := List.mem_iff_getElem?.mp hd
  have hplanned := planned_at h hj
  generalize hcmd : Scheduled.command (.timer d) = cmd at hplanned
  cases hplanned with
  | first => cases hcmd
  | poll k hc hhead hpolls => cases hcmd
  | timer k hc hdelay =>
    cases hc
    cases hcmd
    rw [hdelay]
    exact delayAt_nonneg hfirst hcap k

end Durable

theorem writes_settled {t : CallState} (hs : CallInv c s) (ht : CallInv c t) (h : GoesOnFrom s t)
    (hne : s.history ≠ []) : CallState.writes t = CallState.writes s := by
  have hanswered := hs.answered
  have hlength := List.length_pos_of_ne_nil hne
  have hsettled : (CallState.settled s).length = s.history.length := List.length_take_of_le hanswered
  have hbefore : CallState.settled s <+: s.commands := List.take_prefix _ _
  have hafter : CallState.settled s <+: t.commands := h.settled.trans (List.take_prefix _ _)
  rcases hlist : CallState.settled s with _ | ⟨first, rest⟩
  · rw [hlist, List.length_nil] at hsettled
    omega
  · rw [hlist] at hbefore hafter
    obtain ⟨later, hlater⟩ := hbefore
    obtain ⟨later', hlater'⟩ := hafter
    rw [hs.writes_eq, ht.writes_eq, ← hlater, ← hlater']
    rfl

/-! ### A workflow -/

section Runs
variable {ι : Type} [DecidableEq ι] {calls : ι → WriteCall} {s : State ι} {i : ι} {x : WorkflowXmemory}
  {a : DurableArgs}

/-- **A durable write can still be completed**, in every state of a workflow in which it has not ended and its
pending activity has attempts left, whatever has crashed, was lost or is being attempted: steps that leave the
other calls as they are bring it to return a completed status. They write nothing if the enqueue was answered
before, and the timers they set are for durations that are not negative. -/
theorem can_complete (h : Reachable calls s) (hcall : calls i = .writeDurable x a)
    (hfirst : 0 ≤ a.firstDelay.micros) (hcap : 0 ≤ a.cap.micros) (hdate : ∃ now, IsDate (deadlineOf a now))
    (hopen : ∀ o, ¬ EndedWith (calls i) (s i) o) (hleft : AttemptsLeft (s i)) :
    ∃ t status, Relation.ReflTransGen (Step calls) s t ∧
      EndedWith (calls i) (t i) (.returned (.writeStatus status)) ∧ status.writeStatus = "completed" ∧
      (∀ j ≠ i, t j = s j) ∧
      ((s i).history ≠ [] → CallState.writes (t i) = CallState.writes (s i)) ∧
      ∀ d, .timer d ∈ (t i).commands → 0 ≤ d.micros := by
  have hinv := (reachable_runInv h i).call
  rw [hcall] at hinv hopen
  obtain ⟨u, hcompleting, hend⟩ := completing_run hinv hleft hdate hopen
  have hrun : Relation.ReflTransGen (Step calls) s (Function.update s i u) := by
    refine run_call ?_
    rw [hcall]
    exact hcompleting
  have hlater := (reachable_runInv (h.trans hrun) i).call
  have hrecord := recorded_run hrun i
  rw [Function.update_self] at hlater hrecord
  rw [hcall] at hlater
  refine ⟨_, completedStatus, hrun, ?_, rfl, fun j hj => Function.update_of_ne hj _ _, ?_, ?_⟩
  · rw [Function.update_self, hcall]
    exact hend
  · rw [Function.update_self]
    exact writes_settled hinv hlater hrecord
  · rw [Function.update_self]
    exact fun d hd => timers_nonneg hlater hfirst hcap hd

end Runs

theorem oneDurable_attempting : ∃ s : State Unit, Reachable (oneDurable hurried) s ∧ (s ()).history ≠ [] ∧
    (∃ l, replay (oneDurable hurried ()) (s ()).history = .polling l) ∧
    ∃ done b r, (s ()).commands = done ++ [.activity b [r]] ∧ b.retryPolicy = defaultPollRetry ∧
      r.fate = .running := by
  refine reachable_of_callRun (i := ()) (P := fun t => t.history ≠ [] ∧
    (∃ l, replay (oneDurable hurried ()) t.history = .polling l) ∧ ∃ done b r,
      t.commands = done ++ [.activity b [r]] ∧ b.retryPolicy = defaultPollRetry ∧ r.fate = .running)
    fun s hready hnew => ?_
  obtain ⟨t, hrun, hready', -, hhistory⟩ := brought_from_start (x := defaultHandle) (a := hurried) firstDay
    ⟨.value "w1"⟩ [] hready hnew
  have hhistory' := hhistory rfl
  have hpolling : ∃ l, replay (oneDurable hurried ()) t.history = .polling l := by
    rw [hhistory']
    exact ⟨_, rfl⟩
  obtain ⟨l, hl⟩ := hpolling
  have hnext : nextCommand (oneDurable hurried ()) (replay (oneDurable hurried ()) t.history) =
      some (.executeActivity (writeStatus defaultHandle l.writeId)) := by
    rw [hl]
    rfl
  have hschedule := CallStep.schedule hready'.memory hnext hready'.idle
  have hattempt := CallStep.attempt (c := oneDurable hurried ())
    (s := { t with commands := t.commands ++ [.activity (writeStatus defaultHandle l.writeId) []] })
    {} (some idleClient) (infoOf (writeStatus defaultHandle l.writeId).request (.ofSeconds 30 (by decide)))
    rfl hready'.idle (mayAttempt_nil _)
  refine ⟨_, (hrun.tail hschedule).tail hattempt, ?_, ⟨l, hl⟩, t.commands, _, _, rfl, rfl, rfl⟩
  show t.history ≠ []
  rw [hhistory']
  exact List.cons_ne_nil _ _

/-- The worker crashes during the first attempt at a poll: the call completes all the same, and writes nothing
more. -/
theorem can_complete_crashed : ∃ s t : State Unit, Reachable (oneDurable hurried) s ∧ (s ()).memory = none ∧
    (∃ done b r, (s ()).commands = done ++ [.activity b [r]] ∧ r.fate = .running) ∧
    Relation.ReflTransGen (Step (oneDurable hurried)) s t ∧
    (∃ status, EndedWith (oneDurable hurried ()) (t ()) (.returned (.writeStatus status)) ∧
      status.writeStatus = "completed") ∧ CallState.writes (t ()) = CallState.writes (s ()) := by
  obtain ⟨s, hs, hne, ⟨l, hl⟩, done, b, r, hcommands, hpolicy, hrunning⟩ := oneDurable_attempting
  have hcrashed : Reachable (oneDurable hurried) fun i => { s i with memory := none } := hs.tail .crash
  have hleft : AttemptsLeft { s () with memory := none } := by
    intro done' b' attempts heq _
    have hsame : done ++ [.activity b [r]] = done' ++ [.activity b' attempts] := hcommands.symm.trans heq
    obtain ⟨-, hlast⟩ := List.append_inj' hsame rfl
    cases hlast
    refine ⟨fun n hn => ?_, fun r' hr' => ?_⟩
    · rw [hpolicy] at hn
      have hten : 10 = n := Option.some.inj hn
      rw [List.length_singleton]
      omega
    · cases hr'
      exact Or.inl hrunning
  have hopen : ∀ o, ¬ EndedWith (oneDurable hurried ()) { s () with memory := none } o := by
    intro o ho
    have hfinished : replay (oneDurable hurried ()) (s ()).history = .finished o := ho
    rw [hl] at hfinished
    cases hfinished
  obtain ⟨t, status, hrun, hend, hcompleted, -, hwrites, -⟩ := can_complete (i := ()) hcrashed rfl
    (by decide) (by decide) ⟨firstDay, by unfold IsDate; decide⟩ hopen hleft
  exact ⟨fun i => { s i with memory := none }, t, hcrashed, rfl, ⟨done, b, r, hcommands, hrunning⟩, hrun,
    ⟨status, hend, hcompleted⟩, hwrites hne⟩

end XmemoryTemporal.Execution.Completion
