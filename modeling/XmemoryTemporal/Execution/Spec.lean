import XmemoryTemporal.Execution.History
import XmemoryTemporal.Durable.Outcome

/-! # A write, seen from outside

Crashes, replays, attempts and timers do not show outside a call: its first activity is unanswered (and may
have sent the write all the same), or its write is accepted under an id, or it has ended. `Advance` is how
this goes on, with a record of what the call was told: the enqueue is answered, which ends the call at once
if its deadline is no date, polls are answered with non-terminal statuses, and one answer, or giving up, ends
the call. Runs of workflows follow it, call by call (`simulates`), so whatever holds of every run of
the specification holds of every run of a workflow: what a call was told is a conversation that its end
follows from (`Told`). -/

namespace XmemoryTemporal.Execution.Spec

open XmemoryTemporal.Python.Time XmemoryTemporal.Config XmemoryTemporal.Dto XmemoryTemporal.Errors
open XmemoryTemporal.Activities XmemoryTemporal.WorkflowApi XmemoryTemporal.Lib.Simulation
open XmemoryTemporal.Durable.Turn XmemoryTemporal.Durable.Outcome XmemoryTemporal.Execution
open XmemoryTemporal.Execution.AtMostOnce XmemoryTemporal.Execution.History

/-! ### The specification -/

/-- How far a call has come. -/
inductive Progress where
  | unanswered
  | accepted (writeId : Option String)
  | ended (o : CallOutcome)

/-- A call as seen from outside: how far it has come, and the answers it got to its activities. -/
@[ext] structure View where
  progress : Progress
  heard : List (Request × Output)

def WriteCall.isDurable : WriteCall → Bool
  | .writeDurable _ _ => true
  | _ => false

/-- The request of a poll. -/
def pollRequest (writeId : Option String) : Request := .writeStatus { writeId }

/-- The two errors of giving up. -/
def GivesUpWith (writeId : Option String) (status : WriteStatusOutput) (e : PyError) : Prop :=
  e = .overflowError ∨ ∃ l : PollLoop, l.writeId = writeId ∧ e = .applicationError (writeTimeout l status)

/-- **How a call goes on.** -/
inductive Advance (c : WriteCall) : View → View → Prop where
  | returned {o : Output} {log : List (Request × Output)} : WriteCall.isDurable c = false →
      Advance c ⟨.unanswered, log⟩ ⟨.ended (.returned o), log ++ [(c.command.request, o)]⟩
  | accepted {start : WriteStartOutput} {log : List (Request × Output)} : WriteCall.isDurable c = true →
      Advance c ⟨.unanswered, log⟩
        ⟨.accepted start.writeId, log ++ [(c.command.request, .writeStart start)]⟩
  /-- The deadline is no date. -/
  | noDeadline {x : WorkflowXmemory} {a : DurableArgs} {now : Datetime} {start : WriteStartOutput}
      {log : List (Request × Output)} : c = .writeDurable x a → ¬ IsDate (deadlineOf a now) →
      Advance c ⟨.unanswered, log⟩
        ⟨.ended (.raised .overflowError), log ++ [(c.command.request, .writeStart start)]⟩
  | polled {writeId : Option String} {status : WriteStatusOutput} {log : List (Request × Output)} :
      ¬ Terminal status.writeStatus →
      Advance c ⟨.accepted writeId, log⟩
        ⟨.accepted writeId, log ++ [(pollRequest writeId, .writeStatus status)]⟩
  | verdict {writeId : Option String} {status : WriteStatusOutput} {o : Except PyError WriteStatusOutput}
      {log : List (Request × Output)} : Verdict status o →
      Advance c ⟨.accepted writeId, log⟩
        ⟨.ended (callOutcome o), log ++ [(pollRequest writeId, .writeStatus status)]⟩
  | gaveUp {writeId : Option String} {status : WriteStatusOutput} {e : PyError}
      {log : List (Request × Output)} : ¬ Terminal status.writeStatus → GivesUpWith writeId status e →
      Advance c ⟨.accepted writeId, log⟩
        ⟨.ended (.raised e), log ++ [(pollRequest writeId, .writeStatus status)]⟩
  /-- An activity fails for good. -/
  | fails {p : Progress} {log : List (Request × Output)} : (∀ o, p ≠ .ended o) →
      Advance c ⟨p, log⟩ ⟨.ended .activityError, log⟩

/-! ### What a call was told -/

/-- The polls of a write id and their answers. -/
def pollsOf (writeId : Option String) (statuses : List WriteStatusOutput) : List (Request × Output) :=
  statuses.map fun status => (pollRequest writeId, .writeStatus status)

/-- The enqueue is answered, and then polls of the id in the answer. -/
structure Conversation (c : WriteCall) (start : WriteStartOutput) (statuses : List WriteStatusOutput)
    (heard : List (Request × Output)) : Prop where
  heard_eq : heard = (c.command.request, .writeStart start) :: pollsOf start.writeId statuses
  waiting : ∀ status ∈ statuses.dropLast, ¬ Terminal status.writeStatus

/-- How a call comes to its end, by what it was told. -/
inductive EndsAs (c : WriteCall) (heard : List (Request × Output)) : CallOutcome → Prop where
  | returned {o : Output} : WriteCall.isDurable c = false → heard = [(c.command.request, o)] →
      EndsAs c heard (.returned o)
  | noDeadline {x : WorkflowXmemory} {a : DurableArgs} {now : Datetime} {start : WriteStartOutput} :
      c = .writeDurable x a → ¬ IsDate (deadlineOf a now) → Conversation c start [] heard →
      EndsAs c heard (.raised .overflowError)
  | verdict {start : WriteStartOutput} {statuses : List WriteStatusOutput} {status : WriteStatusOutput}
      {o : Except PyError WriteStatusOutput} : Conversation c start (statuses ++ [status]) heard →
      Verdict status o → EndsAs c heard (callOutcome o)
  | gaveUp {start : WriteStartOutput} {statuses : List WriteStatusOutput} {status : WriteStatusOutput}
      {e : PyError} : Conversation c start (statuses ++ [status]) heard →
      ¬ Terminal status.writeStatus → GivesUpWith start.writeId status e → EndsAs c heard (.raised e)
  | failed : EndsAs c heard .activityError

/-- **What a call was told fits how far it has come.** -/
def Told (c : WriteCall) (v : View) : Prop :=
  match v.progress with
  | .unanswered => v.heard = []
  | .accepted writeId => ∃ start statuses, start.writeId = writeId ∧
      Conversation c start statuses v.heard ∧ ∀ status ∈ statuses, ¬ Terminal status.writeStatus
  | .ended o => EndsAs c v.heard o

theorem Conversation.poll {c : WriteCall} {start : WriteStartOutput} {statuses : List WriteStatusOutput}
    {log : List (Request × Output)} (h : Conversation c start statuses log)
    (hwaiting : ∀ status ∈ statuses, ¬ Terminal status.writeStatus) (status : WriteStatusOutput) :
    Conversation c start (statuses ++ [status])
      (log ++ [(pollRequest start.writeId, .writeStatus status)]) := by
  refine ⟨?_, ?_⟩
  · rw [h.heard_eq]
    simp [pollsOf]
  · rw [List.dropLast_concat]
    exact hwaiting

/-- **Every step of the specification keeps it.** -/
theorem told_advance {c : WriteCall} {v w : View} (h : Told c v) (hstep : Advance c v w) : Told c w := by
  cases hstep with
  | returned hdurable =>
    have hlog : _ = [] := h
    subst hlog
    exact .returned hdurable rfl
  | accepted hdurable =>
    have hlog : _ = [] := h
    subst hlog
    exact ⟨_, [], rfl, ⟨rfl, fun _ hs => absurd hs List.not_mem_nil⟩, fun _ hs => absurd hs List.not_mem_nil⟩
  | noDeadline hc hdeadline =>
    have hlog : _ = [] := h
    subst hlog
    exact .noDeadline hc hdeadline ⟨rfl, fun _ hs => absurd hs List.not_mem_nil⟩
  | polled hnt =>
    obtain ⟨start, statuses, rfl, hconv, hwaiting⟩ := h
    refine ⟨start, statuses ++ [_], rfl, hconv.poll hwaiting _, fun q hq => ?_⟩
    rcases List.mem_append.mp hq with hq | hq
    · exact hwaiting q hq
    · rw [List.mem_singleton.mp hq]
      exact hnt
  | verdict hv =>
    obtain ⟨start, statuses, rfl, hconv, hwaiting⟩ := h
    exact .verdict (hconv.poll hwaiting _) hv
  | gaveUp hnt hg =>
    obtain ⟨start, statuses, rfl, hconv, hwaiting⟩ := h
    exact .gaveUp (hconv.poll hwaiting _) hnt hg
  | fails hp => exact .failed

/-! ### A call as seen from outside -/

def Coroutine.progress : Coroutine → Progress
  | .starting => .unanswered
  | .polling l => .accepted l.writeId
  | .sleeping l => .accepted l.writeId
  | .finished o => .ended o

/-- What a call hears of an answer: the output, if it is one, with the request it answers. -/
def heardOf (c : WriteCall) (co : Coroutine) : Answer → List (Request × Output)
  | .completed o _ =>
    match nextCommand c co with
    | some (.executeActivity a) => [(a.request, o)]
    | _ => []
  | _ => []

/-- What it hears from a place on. -/
def told (c : WriteCall) : Coroutine → List Answer → List (Request × Output)
  | _, [] => []
  | co, ans :: history => heardOf c co ans ++ told c (resume c co ans) history

/-- **A history, seen from outside.** -/
def viewOf (c : WriteCall) (history : List Answer) : View :=
  { progress := Coroutine.progress (replay c history), heard := told c .starting history }

theorem told_concat (c : WriteCall) (co : Coroutine) (history : List Answer) (ans : Answer) :
    told c co (history ++ [ans]) = told c co history ++ heardOf c (history.foldl (resume c) co) ans := by
  induction history generalizing co with
  | nil => exact List.append_nil _
  | cons ans' history ih =>
    rw [List.cons_append, told, ih, told, List.append_assoc]
    rfl

theorem viewOf_concat (c : WriteCall) (history : List Answer) (ans : Answer) :
    viewOf c (history ++ [ans]) =
      { progress := Coroutine.progress (resume c (replay c history) ans)
        heard := told c .starting history ++ heardOf c (replay c history) ans } := by
  unfold viewOf
  rw [told_concat, replay_concat]
  rfl

/-! ### Every step follows the specification -/

theorem afterStatus_cases (l : PollLoop) (now : Datetime) (status : WriteStatusOutput) :
    (Verdict status (.ok status) ∧ afterStatus l now status = .returned status) ∨
      (∃ e, Verdict status (.error e) ∧ afterStatus l now status = .raised e) ∨
      (¬ Terminal status.writeStatus ∧
        ∃ e, GivesUpWith l.writeId status e ∧ afterStatus l now status = .raised e) ∨
      (¬ Terminal status.writeStatus ∧ Waits l now ∧ afterStatus l now status = .sleep) := by
  by_cases hcompleted : status.writeStatus = statusCompleted
  · refine Or.inl ⟨Or.inl ⟨hcompleted, rfl⟩, ?_⟩
    simp only [afterStatus, interpretStatus_completed hcompleted]
  by_cases hfailed : status.writeStatus = statusFailed
  · refine Or.inr (Or.inl ⟨_, Or.inr (Or.inl ⟨hfailed, rfl⟩), ?_⟩)
    simp only [afterStatus, interpretStatus_failed hfailed]
  by_cases hgone : status.writeStatus = statusNotFound
  · refine Or.inr (Or.inl ⟨_, Or.inr (Or.inr ⟨hgone, rfl⟩), ?_⟩)
    simp only [afterStatus, interpretStatus_notFound hgone]
  have hnt : ¬ Terminal status.writeStatus := by
    rintro (h | h | h)
    · exact hcompleted h
    · exact hfailed h
    · exact hgone h
  have hi := interpretStatus_other hcompleted hfailed hgone
  rcases hadd : now.add l.delay with _ | wake
  · refine Or.inr (Or.inr (Or.inl ⟨hnt, _, Or.inl rfl, ?_⟩))
    simp only [afterStatus, hi, hadd]
  · have hwake := Datetime.add_eq_some.mp hadd
    have hnonneg := wake.nonneg
    by_cases hle : l.deadline.micros ≤ wake.micros
    · refine Or.inr (Or.inr (Or.inl ⟨hnt, _, Or.inr ⟨l, rfl, rfl⟩, ?_⟩))
      simp only [afterStatus, hi, hadd, hle, if_true]
    · refine Or.inr (Or.inr (Or.inr ⟨hnt, ?_, ?_⟩))
      · unfold Waits
        omega
      · simp only [afterStatus, hi, hadd, hle, if_false]

theorem told_of_sleeping {c : WriteCall} {history : List Answer} {ans : Answer} {l : PollLoop}
    (h : replay c (history ++ [ans]) = .sleeping l) :
    ∃ status now, ans = .completed (.writeStatus status) now ∧ Waits l now := by
  rw [replay_concat] at h
  rcases hco : replay c history with _ | l' | l' | o <;> rw [hco] at h
  · rcases ans with ⟨o, now⟩ | _ | b
    · have hstart : afterEnqueue c o now = .sleeping l := h
      unfold afterEnqueue at hstart
      split at hstart
      · split at hstart <;> cases hstart
      · cases hstart
    · cases h
    · cases h
  · unfold resume at h
    split at h
    · next heq => cases heq
    · next l'' status now heq =>
      cases heq
      rcases afterStatus_cases l' now status with ⟨-, hs⟩ | ⟨e, -, hs⟩ | ⟨-, e, -, hs⟩ | ⟨-, hw, hs⟩ <;>
        rw [hs] at h <;> cases h
      exact ⟨status, now, rfl, hw⟩
    · next heq => cases heq
    · next heq => cases heq
    · cases h
  · unfold resume at h
    split at h
    · next heq => cases heq
    · next heq => cases heq
    · split at h <;> cases h
    · next heq => cases heq
    · cases h
  · cases h

theorem waits_of_sleeping {c : WriteCall} {history : List Answer} {l : PollLoop}
    (h : replay c history = .sleeping l) : ∃ now, Waits l now := by
  rcases List.eq_nil_or_concat history with rfl | ⟨history, ans, rfl⟩
  · cases h
  · rw [List.concat_eq_append] at h
    obtain ⟨-, now, -, hw⟩ := told_of_sleeping h
    exact ⟨now, hw⟩

theorem advance_polling (c : WriteCall) (l : PollLoop) (now : Datetime) (status : WriteStatusOutput)
    (log : List (Request × Output)) :
    Advance c ⟨.accepted l.writeId, log⟩
      ⟨Coroutine.progress (resume c (.polling l) (.completed (.writeStatus status) now)),
        log ++ [(pollRequest l.writeId, .writeStatus status)]⟩ := by
  rcases afterStatus_cases l now status with ⟨hv, h⟩ | ⟨e, hv, h⟩ | ⟨hnt, e, hg, h⟩ | ⟨hnt, -, h⟩
  · simp only [resume, h]
    exact .verdict hv
  · simp only [resume, h]
    exact .verdict hv
  · simp only [resume, h]
    exact .gaveUp hnt hg
  · simp only [resume, h]
    exact .polled hnt

theorem advance_starting (c : WriteCall) {o : Output} (now : Datetime)
    (ho : o.method = c.command.request.method) (log : List (Request × Output)) :
    Advance c ⟨.unanswered, log⟩
      ⟨Coroutine.progress (resume c .starting (.completed o now)), log ++ [(c.command.request, o)]⟩ := by
  cases c with
  | write x a => exact .returned rfl
  | writeAsyncStart x a => exact .returned rfl
  | writeDurable x a =>
    cases o with
    | writeStart start =>
      rcases pollLoop_cases a now start with ⟨-, l, hl, hs⟩ | ⟨hdeadline, hl⟩
      · simp only [resume, afterEnqueue, hl]
        rw [show Coroutine.progress (.polling l) = .accepted start.writeId by rw [← hs.writeId]; rfl]
        exact .accepted rfl
      · simp only [resume, afterEnqueue, hl]
        exact .noDeadline rfl hdeadline
    | _ => cases ho

/-- **An answer advances the call**, or is that of a timer, which does not show. -/
theorem answer_follows {c : WriteCall} {s : CallState} (h : RunInv c s) {done : List Scheduled}
    {cmd : Scheduled} {ans : Answer} (hcommands : s.commands = done ++ [cmd])
    (hlen : done.length = s.history.length) (hans : AnsweredBy cmd ans)
    (hmethod : ∀ a o now, nextCommand c (replay c s.history) = some (.executeActivity a) →
      ans = .completed o now → o.method = a.request.method) :
    viewOf c (s.history ++ [ans]) = viewOf c s.history ∨
      Advance c (viewOf c s.history) (viewOf c (s.history ++ [ans])) := by
  have hcmd : s.commands[s.history.length]? = some cmd := by
    rw [hcommands, ← hlen]
    simp
  have hissued := h.call.issued s.history.length cmd hcmd
  rw [List.take_length] at hissued
  rw [viewOf_concat]
  unfold viewOf
  rcases hco : replay c s.history with _ | l | l | o
  · rw [hco] at hissued hmethod
    cases cmd with
    | timer d => cases hissued
    | activity a attempts =>
      obtain ⟨hnext, -, -⟩ := hissued
      right
      cases ans with
      | completed o now => exact advance_starting c now (hmethod _ o now rfl rfl) _
      | failed =>
        rw [show heardOf c .starting .failed = [] from rfl, List.append_nil]
        exact .fails fun o h => by cases h
      | fired b => cases hans
  · rw [hco] at hissued hmethod
    cases cmd with
    | timer d => cases hissued
    | activity a attempts =>
      obtain ⟨hnext, -, -⟩ := hissued
      right
      cases ans with
      | completed o now =>
        have ho := hmethod _ o now rfl rfl
        cases o with
        | writeStatus status => exact advance_polling c l now status _
        | _ => cases ho
      | failed =>
        rw [show heardOf c (.polling l) .failed = [] from rfl, List.append_nil]
        exact .fails fun o h => by cases h
      | fired b => cases hans
  · rw [hco] at hissued
    cases cmd with
    | activity a attempts => cases hissued.1
    | timer d =>
      -- the timer fires, and the next poll is one of the same id
      obtain ⟨suggested, rfl⟩ := hans
      obtain ⟨now, hw⟩ := waits_of_sleeping hco
      obtain ⟨l', hl', hnext⟩ := afterTimer_ok hw suggested
      left
      simp only [resume, hl', Coroutine.progress, heardOf, List.append_nil, hnext.writeId]
  · rw [hco] at hissued
    cases cmd with
    | activity a attempts => cases hissued.1
    | timer d => cases hissued

section Runs
variable {ι : Type} [DecidableEq ι] {calls : ι → WriteCall}

/-- **Runs of a workflow follow the specification**, call by call. -/
theorem simulates (calls : ι → WriteCall) (i : ι) :
    Simulates (fun s : State ι => RunInv (calls i) (s i)) (Step calls) (Advance (calls i))
      fun s => viewOf (calls i) (s i).history where
  keeps _ _ hs hstep := runInv_step hs hstep
  follows s t hs hstep := by
    have ht := runInv_step hs hstep
    cases hstep with
    | @call j u hcall =>
      by_cases hij : i = j
      · subst hij
        simp only [Function.update_self] at ht ⊢
        rcases callStep_cases hcall with ⟨co, cmd, -, -, -, rfl⟩ | ⟨done, a, attempts, attempts', -, -, -, rfl⟩ |
          ⟨done, cmd, ans, hcommands, hlen, hans, rfl⟩ | rfl
        · exact Or.inl rfl
        · exact Or.inl rfl
        · refine answer_follows hs hcommands hlen hans fun a o now hnext ho => ?_
          -- the answer is one that a client gave to this activity
          subst ho
          have hlast : ((s i).history ++ [.completed o now])[(s i).history.length]? = some (.completed o now) := by
            simp
          obtain ⟨b, hb, hattested⟩ := ht.attested hlast
          rw [List.take_append_of_le_length (Nat.le_refl _), List.take_length, hnext] at hb
          cases hb
          exact hattested.method
        · exact Or.inl rfl
      · rw [Function.update_of_ne hij]
        exact Or.inl rfl
    | crash => exact Or.inl rfl

theorem reachable_told {s : State ι} (h : Reachable calls s) (i : ι) :
    Told (calls i) (viewOf (calls i) (s i).history) := by
  have hstart : Told (calls i) (viewOf (calls i) (initial ι i).history) := rfl
  exact (simulates calls i).invariant (fun _ _ hv hstep => told_advance hv hstep)
    (initial_runInv (calls i)) hstart h

end Runs

end XmemoryTemporal.Execution.Spec
