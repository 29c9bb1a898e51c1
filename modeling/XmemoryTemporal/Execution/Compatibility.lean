import XmemoryTemporal.Durable.Deadline
import XmemoryTemporal.Execution.Function

/-! # A status that is not known is polled on

A server may come to report a status that this version does not know. Every status but the three terminal
ones is polled on in the same way, and so is every one a newer version might take apart: histories that
differ in which non-terminal statuses were reported, and in the suggestions to continue as new, bring a call
to the same place (`resume_alike`). So they make it issue the same commands, and end the same, but for the
last status in the details of a timeout (`nonterminal_interchangeable`): a history recorded with one status
replays with another. -/

namespace XmemoryTemporal.Execution.Compatibility

open XmemoryTemporal.Python.Time XmemoryTemporal.Lib.TwoRuns XmemoryTemporal.Dto XmemoryTemporal.Errors
open XmemoryTemporal.Activities XmemoryTemporal.WorkflowApi XmemoryTemporal.Durable.Turn
open XmemoryTemporal.Durable.Deadline
open XmemoryTemporal.Execution XmemoryTemporal.Execution.AtMostOnce XmemoryTemporal.Execution.History
open XmemoryTemporal.Execution.Metadata XmemoryTemporal.Execution.Function

/-- Answers at one time that a call does not tell apart. -/
inductive Interchangeable : Answer → Answer → Prop where
  | same (ans : Answer) : Interchangeable ans ans
  | status {status status' : WriteStatusOutput} (now : Datetime) : ¬ Terminal status.writeStatus →
      ¬ Terminal status'.writeStatus →
      Interchangeable (.completed (.writeStatus status) now) (.completed (.writeStatus status') now)
  | fired (suggested suggested' : Bool) : Interchangeable (.fired suggested) (.fired suggested')

/-- Ends that differ at most in the last status of a timeout. -/
inductive SameEnd : CallOutcome → CallOutcome → Prop where
  | same (o : CallOutcome) : SameEnd o o
  | timeout (l : PollLoop) (status status' : WriteStatusOutput) :
      SameEnd (.raised (.applicationError (writeTimeout l status)))
        (.raised (.applicationError (writeTimeout l status')))

/-- One place after the first answer, up to the warning that was given. -/
inductive SamePlace : Coroutine → Coroutine → Prop where
  | polling (l : PollLoop) (warned : Bool) : SamePlace (.polling l) (.polling { l with warnedHistory := warned })
  | sleeping (l : PollLoop) (warned : Bool) : SamePlace (.sleeping l) (.sleeping { l with warnedHistory := warned })
  | finished {o o' : CallOutcome} : SameEnd o o' → SamePlace (.finished o) (.finished o')

theorem samePlace_refl {co : Coroutine} (h : co ≠ .starting) : SamePlace co co := by
  rcases co with _ | l | l | o
  · exact absurd rfl h
  · exact .polling l l.warnedHistory
  · exact .sleeping l l.warnedHistory
  · exact .finished (.same o)

/-! ### One answer -/

section Step
variable {l : PollLoop} {now : Datetime} {status status' : WriteStatusOutput} {warned suggested suggested' : Bool}

/-- What a poll comes to, as a coroutine. -/
def polled (l : PollLoop) (now : Datetime) (status : WriteStatusOutput) : Coroutine :=
  match afterStatus l now status with
  | .returned status => .finished (.returned (.writeStatus status))
  | .raised e => .finished (.raised e)
  | .sleep => .sleeping l

theorem resume_polling (c : WriteCall) (l : PollLoop) (now : Datetime) (status : WriteStatusOutput) :
    resume c (.polling l) (.completed (.writeStatus status) now) = polled l now status := rfl

theorem polled_warned : SamePlace (polled l now status) (polled { l with warnedHistory := warned } now status) := by
  have hdecision : afterStatus { l with warnedHistory := warned } now status = afterStatus l now status := rfl
  unfold polled
  rw [hdecision]
  rcases afterStatus l now status with status | e | _
  · exact .finished (.same _)
  · exact .finished (.same _)
  · exact .sleeping l warned

theorem polled_cases (l : PollLoop) (now : Datetime) (h : ¬ Terminal status.writeStatus) :
    polled l now status = match now.add l.delay with
      | none => .finished (.raised .overflowError)
      | some wake => if l.deadline.micros ≤ wake.micros then
          .finished (.raised (.applicationError (writeTimeout l status))) else .sleeping l := by
  unfold Terminal at h
  rw [not_or, not_or] at h
  have hi : interpretStatus status = .ok none := interpretStatus_other h.1 h.2.1 h.2.2
  unfold polled
  simp only [afterStatus, hi]
  rcases now.add l.delay with _ | wake
  · rfl
  · by_cases hle : l.deadline.micros ≤ wake.micros
    · simp only [if_pos hle]
    · simp only [if_neg hle]

/-- **Non-terminal statuses** are decided by the time alone. -/
theorem polled_nonterminal (h : ¬ Terminal status.writeStatus) (h' : ¬ Terminal status'.writeStatus) :
    SamePlace (polled l now status) (polled { l with warnedHistory := warned } now status') := by
  rw [polled_cases l now h, polled_cases _ now h']
  rcases now.add l.delay with _ | wake
  · exact .finished (.same _)
  · by_cases hle : l.deadline.micros ≤ wake.micros
    · simp only [if_pos hle]
      exact .finished (.timeout l status status')
    · simp only [if_neg hle]
      exact .sleeping l warned

theorem resume_fired (c : WriteCall) : SamePlace (resume c (.sleeping l) (.fired suggested))
    (resume c (.sleeping { l with warnedHistory := warned }) (.fired suggested')) := by
  simp only [resume, afterTimer]
  rcases l.delay.mulThreeHalves with _ | delay
  · exact .finished (.same _)
  · exact .polling _ _

end Step

/-- **Every answer** keeps two calls at one place. -/
theorem resume_alike (c : WriteCall) {co co' : Coroutine} {ans ans' : Answer} (hco : SamePlace co co')
    (hans : Interchangeable ans ans') : SamePlace (resume c co ans) (resume c co' ans') := by
  have hsame : ∀ co ans, SamePlace (resume c co ans) (resume c co ans) := fun co ans =>
    samePlace_refl (resume_ne_starting c co ans)
  cases hco with
  | polling l warned =>
    cases hans with
    | same =>
      rcases ans with ⟨o, now⟩ | _ | b
      · rcases o with o | o | o | status
        · exact .finished (.same _)
        · exact .finished (.same _)
        · exact .finished (.same _)
        · rw [resume_polling, resume_polling]
          exact polled_warned
      · exact .finished (.same _)
      · exact .finished (.same _)
    | status now h h' =>
      rw [resume_polling, resume_polling]
      exact polled_nonterminal h h'
    | fired b b' => exact .finished (.same _)
  | sleeping l warned =>
    cases hans with
    | same =>
      rcases ans with ⟨o, now⟩ | _ | b
      · exact .finished (.same _)
      · exact .finished (.same _)
      · exact resume_fired c
    | status now h h' => exact .finished (.same _)
    | fired b b' => exact resume_fired c
  | finished h => exact .finished h

/-! ### Histories -/

/-- A call, by the commands it waits for. -/
def waiting (c : WriteCall) : Machine Coroutine Answer (Option Command) where
  next := resume c
  view := nextCommand c

theorem lockStep (c : WriteCall) : LockStep (waiting c) (waiting c) SamePlace Interchangeable where
  view co co' h := by
    cases h with
    | polling l warned => rfl
    | sleeping l warned => rfl
    | finished h => rfl
  next _ _ _ _ hco hans := resume_alike c hco hans

theorem issued_eq_views (c : WriteCall) (co : Coroutine) (answers : List Answer) :
    issued c co answers = ((waiting c).views co answers).flatMap Option.toList := by
  induction answers generalizing co with
  | nil => exact (List.flatMap_singleton _ _).symm
  | cons ans answers ih =>
    rw [issued, ih, Machine.views, List.flatMap_cons]
    rfl

theorem SameEnd.symm {o o' : CallOutcome} (h : SameEnd o o') : SameEnd o' o := by
  cases h with
  | same => exact .same o
  | timeout l status status' => exact .timeout l status' status

/-- **Non-terminal statuses are interchangeable.** Two histories of a call that differ after the enqueue only
in which non-terminal statuses were reported, and in the suggestions to continue as new, make it issue the
same commands, and bring it to the same end, but for the last status in the details of a timeout. So in any
two runs of workflows, whatever crashed and was attempted again there, calls that ended after such histories
have issued the same. -/
theorem nonterminal_interchangeable (c : WriteCall) (first : Answer) (history history' : List Answer)
    (h : List.Forall₂ Interchangeable history history') :
    issued c .starting (first :: history) = issued c .starting (first :: history') ∧
    (∀ o, replay c (first :: history) = .finished o →
      ∃ o', replay c (first :: history') = .finished o' ∧ SameEnd o o') ∧
    ∀ (ι : Type) [DecidableEq ι] (calls calls' : ι → WriteCall) (s s' : State ι) (i : ι) (o : CallOutcome),
      Reachable calls s → Reachable calls' s' → calls i = c → calls' i = c →
      (s i).history = first :: history → (s' i).history = first :: history' → EndedWith c (s i) o →
      (s i).commands.map Scheduled.command = (s' i).commands.map Scheduled.command := by
  have hplace := samePlace_refl (resume_ne_starting c .starting first)
  have hissued : issued c .starting (first :: history) = issued c .starting (first :: history') := by
    rw [issued_eq_views, issued_eq_views, Machine.views, Machine.views]
    have hviews : (waiting c).views (resume c .starting first) history =
        (waiting c).views (resume c .starting first) history' := (lockStep c).views_eq h hplace
    exact congrArg (fun views => (nextCommand c .starting :: views).flatMap Option.toList) hviews
  have hend : SamePlace (replay c (first :: history)) (replay c (first :: history')) :=
    (lockStep c).after h hplace
  have hended : ∀ o, replay c (first :: history) = .finished o →
      ∃ o', replay c (first :: history') = .finished o' ∧ SameEnd o o' := by
    intro o ho
    rw [ho] at hend
    generalize replay c (first :: history') = co at hend
    cases hend with
    | @finished o o' hsame => exact ⟨o', rfl, hsame⟩
  refine ⟨hissued, hended, ?_⟩
  intro ι _ calls calls' s s' i o hs hs' hcall hcall' hhistory hhistory' hdone
  have hs := reachable_runInv hs i
  have hs' := reachable_runInv hs' i
  rw [hcall] at hs
  rw [hcall'] at hs'
  have hreplay : replay c (first :: history) = .finished o := by
    rw [← hhistory]
    exact hdone
  obtain ⟨o', ho', -⟩ := hended o hreplay
  have hdone' : EndedWith c (s' i) o' := by
    unfold EndedWith
    rw [hhistory']
    exact ho'
  rw [commands_of_ended hs hdone, commands_of_ended hs' hdone', hhistory, hhistory', hissued]

/-- The answers of a poll and of the timer after it. -/
def reportedAs (status : String) : List Answer :=
  [.completed (.writeStatus { writeId := some "w1", writeStatus := status }) firstDay, .fired false]

/-- A newer server may be compacting what this version knows as queued. -/
theorem nonterminal_interchangeable_compacting :
    issued (.writeDurable defaultHandle { write := {} }) .starting
        (.completed (.writeStart { writeId := some "w1" }) firstDay :: reportedAs "queued") =
      issued (.writeDurable defaultHandle { write := {} }) .starting
        (.completed (.writeStart { writeId := some "w1" }) firstDay :: reportedAs "compacting") := by
  have hstatus : List.Forall₂ Interchangeable (reportedAs "queued") (reportedAs "compacting") := by
    refine .cons (.status _ ?_ ?_) (.cons (.fired _ _) .nil)
    · unfold Terminal
      decide
    · unfold Terminal
      decide
  exact (nonterminal_interchangeable _ _ _ _ hstatus).1

end XmemoryTemporal.Execution.Compatibility
