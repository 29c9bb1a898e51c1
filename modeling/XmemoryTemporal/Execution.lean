import XmemoryTemporal.WorkflowApi
import XmemoryTemporal.Lib.Retry
import Mathlib.Logic.Relation

/-! # Workflow runs: the write calls, their activities and attempts

A workflow makes any number of write calls, which progress independently. A call is a coroutine: it waits
for one command after the other, and what it does next is a function of the answers so far (`resume`). It
lives in the memory of a worker; a crash loses it, and a replay computes it again from the answers in the
history (`replay`), which is how the command at each place of the history is only issued once.

A command is an activity, which Temporal attempts by the retry policy (`Lib.Retry`), or a timer. An
attempt runs the activity's code (`runActivity`) on some worker; it then reports its outcome, or is lost,
by a crash at any point of it or a report that does not arrive. Where Temporal has a choice the steps leave
it all of them: they hold more runs than there are, and what is proved of all runs holds of those. -/

namespace XmemoryTemporal.Execution

open XmemoryTemporal.Python.Time XmemoryTemporal.Config XmemoryTemporal.Lib.Loop XmemoryTemporal.Lib.Retry
open XmemoryTemporal.Dto XmemoryTemporal.Errors XmemoryTemporal.Activities XmemoryTemporal.WorkflowApi

/-! ### Calls -/

/-- A write call of a workflow, with the handle it is made through. -/
inductive WriteCall where
  | write (x : WorkflowXmemory) (a : WriteArgs)
  | writeAsyncStart (x : WorkflowXmemory) (a : EnqueueArgs)
  | writeDurable (x : WorkflowXmemory) (a : DurableArgs)

def WriteCall.handle : WriteCall → WorkflowXmemory
  | write x _ => x
  | writeAsyncStart x _ => x
  | writeDurable x _ => x

/-- Its first command. -/
def WriteCall.command : WriteCall → ExecuteActivity
  | write x a => WorkflowApi.write x a
  | writeAsyncStart x a => WorkflowApi.writeAsyncStart x a
  | writeDurable x a => WorkflowApi.writeAsyncStart x a.write

/-- What a call is told of its command: the activity's output and the time, that the activity failed, or
that the timer fired. -/
inductive Answer where
  | completed (o : Output) (now : Datetime)
  | failed
  | fired (continueAsNewSuggested : Bool)

/-- How a call ends: it returns, raises, or lets the failure of an activity through. -/
inductive CallOutcome where
  | returned (o : Output)
  | raised (e : PyError)
  | activityError

/-- Where a call waits. -/
inductive Coroutine where
  | starting
  | polling (l : PollLoop)
  | sleeping (l : PollLoop)
  | finished (o : CallOutcome)

/-- The command a call waits for. -/
def nextCommand (c : WriteCall) : Coroutine → Option Command
  | .starting => some (.executeActivity c.command)
  | .polling l => some (.executeActivity (WorkflowApi.writeStatus c.handle l.writeId))
  | .sleeping l => some (.sleep l.delay)
  | .finished _ => none

/-- The first activity has returned: only `write_durable` goes on. -/
def afterEnqueue : WriteCall → Output → Datetime → Coroutine
  | .writeDurable _ a, .writeStart start, now =>
    match pollLoop a now start with
    | .error e => .finished (.raised e)
    | .ok l => .polling l
  | _, o, _ => .finished (.returned o)

/-- A call goes on with an answer. -/
def resume (c : WriteCall) : Coroutine → Answer → Coroutine
  | .starting, .completed o now => afterEnqueue c o now
  | .polling l, .completed (.writeStatus status) now =>
    match afterStatus l now status with
    | .returned status => .finished (.returned (.writeStatus status))
    | .raised e => .finished (.raised e)
    | .sleep => .sleeping l
  | .sleeping l, .fired suggested =>
    match afterTimer l suggested with
    | .error e => .finished (.raised e)
    | .ok l' => .polling l'
  | .finished o, _ => .finished o
  | _, _ => .finished .activityError

/-- The call after all the answers of a history. -/
def replay (c : WriteCall) (history : List Answer) : Coroutine := history.foldl (resume c) .starting

/-! ### The coroutine of `write_durable` computes `writeDurable` -/

/-- The answers to one turn of the poll loop. -/
def Poll.answers (p : Poll) : List Answer :=
  [.completed (.writeStatus p.status) p.arrived, .fired p.continueAsNewSuggested]

def callOutcome : Except PyError WriteStatusOutput → CallOutcome
  | .ok status => .returned (.writeStatus status)
  | .error e => .raised e

/-- What a turn of the loop comes to, as a coroutine. -/
def turnCoroutine : Turn PollLoop (Except PyError WriteStatusOutput) → Coroutine
  | .stop o => .finished (callOutcome o)
  | .again l => .polling l

theorem resume_turn (x : WorkflowXmemory) (a : DurableArgs) (l : PollLoop) (p : Poll) :
    (Poll.answers p).foldl (resume (.writeDurable x a)) (.polling l) =
      turnCoroutine (durableTurn x l p).2 := by
  unfold Poll.answers durableTurn
  simp only [List.foldl_cons, List.foldl_nil]
  rcases hs : afterStatus l p.arrived p.status with status | e | _
  · simp only [resume, hs, turnCoroutine, callOutcome]
  · simp only [resume, hs, turnCoroutine, callOutcome]
  · rcases ht : afterTimer l p.continueAsNewSuggested with e | l'
    · simp only [resume, hs, ht, turnCoroutine, callOutcome]
    · simp only [resume, hs, ht, turnCoroutine]

theorem resume_finished (c : WriteCall) (o : CallOutcome) (answers : List Answer) :
    answers.foldl (resume c) (.finished o) = .finished o := by
  induction answers with
  | nil => rfl
  | cons a answers ih => exact ih

theorem resume_run (x : WorkflowXmemory) (a : DurableArgs) (polls : List Poll) (l : PollLoop) :
    (∃ o, ((durableLoop x).run l polls).2 = some o ∧
        (polls.flatMap Poll.answers).foldl (resume (.writeDurable x a)) (.polling l) =
          .finished (callOutcome o)) ∨
      (((durableLoop x).run l polls).2 = none ∧
        ∃ l', (polls.flatMap Poll.answers).foldl (resume (.writeDurable x a)) (.polling l) =
          .polling l') := by
  induction polls generalizing l with
  | nil => exact Or.inr ⟨rfl, l, rfl⟩
  | cons p polls ih =>
    rw [List.flatMap_cons, List.foldl_append, resume_turn]
    rcases hb : durableTurn x l p with ⟨t, o | l'⟩
    · refine Or.inl ⟨o, ?_, resume_finished _ _ _⟩
      have hrun : (durableLoop x).run l (p :: polls) = ([t], some o) := run_stop hb
      rw [hrun]
    · have hrun : (durableLoop x).run l (p :: polls) =
          (t :: ((durableLoop x).run l' polls).1, ((durableLoop x).run l' polls).2) := run_again hb
      rw [hrun]
      exact ih l'

/-- **The coroutine and the function agree** on the outcome, and on whether there is one. -/
theorem replay_writeDurable (x : WorkflowXmemory) (a : DurableArgs) (now : Datetime)
    (start : WriteStartOutput) (polls : List Poll) :
    (∃ o, (writeDurable x a now start polls).outcome = some o ∧
        replay (.writeDurable x a) (.completed (.writeStart start) now :: polls.flatMap Poll.answers) =
          .finished (callOutcome o)) ∨
      ((writeDurable x a now start polls).outcome = none ∧
        ∃ l, replay (.writeDurable x a)
          (.completed (.writeStart start) now :: polls.flatMap Poll.answers) = .polling l) := by
  unfold replay writeDurable
  rw [List.foldl_cons]
  rcases hl : pollLoop a now start with e | l
  · refine Or.inl ⟨.error e, rfl, ?_⟩
    have hstart : resume (.writeDurable x a) .starting (.completed (.writeStart start) now) =
        .finished (.raised e) := by
      simp only [resume, afterEnqueue, hl]
    rw [hstart]
    exact resume_finished _ _ _
  · have hstart : resume (.writeDurable x a) .starting (.completed (.writeStart start) now) =
        .polling l := by
      simp only [resume, afterEnqueue, hl]
    rw [hstart]
    exact resume_run x a polls l

/-! ### Attempts -/

/-- An attempt is in progress, has reported its outcome, or is lost. -/
inductive Fate where
  | running
  | reported
  | lost

/-- An attempt: what it found on its worker, what it did and would report, and its fate. -/
structure AttemptRecord where
  bound : Option Client
  info : ActivityInfo
  attempt : Attempt Output
  fate : Fate

/-- What Temporal retries: all but an error that says not to. -/
def retryable : PyError → Bool
  | .applicationError e => !e.nonRetryable
  | .overflowError => true

/-- An activity is attempted again after an attempt that was lost or reported such an error. -/
def AttemptRecord.again (r : AttemptRecord) : Prop :=
  r.fate = .lost ∨ r.fate = .reported ∧ ∃ e, r.attempt.outcome = .error e ∧ retryable e.error = true

/-- The number of attempts a policy allows. -/
def RetryPolicy.limit (p : RetryPolicy) : Option ℕ :=
  if p.maximumAttempts = 0 then none else some p.maximumAttempts

/-! ### Runs -/

/-- A command in the history, with what was done for it. -/
inductive Scheduled where
  | activity (a : ExecuteActivity) (attempts : List AttemptRecord)
  | timer (d : Timedelta)

def scheduled : Command → Scheduled
  | .executeActivity a => .activity a []
  | .sleep d => .timer d

/-- A call: its coroutine, if a worker has it in memory, the commands it issued and the answers it got.
All commands but possibly the last have been answered. -/
structure CallState where
  memory : Option Coroutine
  history : List Answer
  commands : List Scheduled

/-- What the attempts of an activity can be answered with: the reported output, or a failure. An activity that
is cancelled, or that its schedule timeouts end, fails without an attempt or with attempts left. -/
def Answers (attempts : List AttemptRecord) : Answer → Prop
  | .completed o _ =>
    ∃ r, attempts.getLast? = some r ∧ r.fate = .reported ∧ r.attempt.outcome = .ok o
  | .failed => ∀ r, attempts.getLast? = some r → r.fate = .lost ∨
      r.fate = .reported ∧ ∃ e, r.attempt.outcome = .error e
  | .fired _ => False

/-- A step of a call `c`; the pending command is the last one, at the place of the next answer. -/
inductive CallStep (c : WriteCall) : CallState → CallState → Prop where
  /-- The coroutine issues its command. -/
  | schedule {s : CallState} {co : Coroutine} {cmd : Command} : s.memory = some co →
      nextCommand c co = some cmd → s.commands.length = s.history.length →
      CallStep c s { s with commands := s.commands ++ [scheduled cmd] }
  /-- A worker makes an attempt at the pending activity. -/
  | attempt {s : CallState} {done : List Scheduled} {a : ExecuteActivity} {attempts : List AttemptRecord}
      (config : XmemoryConfig) (bound : Option Client) (info : ActivityInfo) :
      s.commands = done ++ [.activity a attempts] → done.length = s.history.length →
      MayAttempt AttemptRecord.again (RetryPolicy.limit a.retryPolicy) attempts →
      CallStep c s { s with commands := done ++ [.activity a (attempts ++
        [{ bound, info, attempt := runActivity config bound info a.request, fate := .running }])] }
  /-- The worker crashes in the attempt, after some of its calls. -/
  | attemptCrashes {s : CallState} {done : List Scheduled} {a : ExecuteActivity}
      {attempts : List AttemptRecord} (config : XmemoryConfig) (bound : Option Client)
      (info : ActivityInfo) (calls : List ClientCall) :
      s.commands = done ++ [.activity a attempts] → done.length = s.history.length →
      MayAttempt AttemptRecord.again (RetryPolicy.limit a.retryPolicy) attempts →
      calls <+: (runActivity config bound info a.request).calls →
      CallStep c s { s with commands := done ++ [.activity a (attempts ++
        [{ bound, info, attempt := { runActivity config bound info a.request with calls }
           fate := .lost }])] }
  /-- The attempt in progress reports, or is lost. -/
  | ends {s : CallState} {done : List Scheduled} {a : ExecuteActivity} {attempts : List AttemptRecord}
      {r : AttemptRecord} (fate : Fate) :
      s.commands = done ++ [.activity a (attempts ++ [r])] → done.length = s.history.length →
      r.fate = .running →
      CallStep c s { s with commands := done ++ [.activity a (attempts ++ [{ r with fate }])] }
  /-- The activity is answered. -/
  | deliver {s : CallState} {done : List Scheduled} {a : ExecuteActivity} {attempts : List AttemptRecord}
      {answer : Answer} : s.commands = done ++ [.activity a attempts] →
      done.length = s.history.length → Answers attempts answer →
      CallStep c s { s with
        history := s.history ++ [answer], memory := s.memory.map fun co => resume c co answer }
  /-- The timer fires. One of negative length does too: that `workflow.sleep` refuses it is
  `Durable.Range.accepts`. -/
  | fire {s : CallState} {done : List Scheduled} {d : Timedelta} (suggested : Bool) :
      s.commands = done ++ [.timer d] → done.length = s.history.length →
      CallStep c s { s with
        history := s.history ++ [.fired suggested]
        memory := s.memory.map fun co => resume c co (.fired suggested) }
  /-- A worker computes the call from its history, at its start and after a crash. -/
  | recompute {s : CallState} : CallStep c s { s with memory := some (replay c s.history) }

/-- The calls of a workflow. -/
abbrev State (ι : Type) : Type := ι → CallState

/-- A step of a workflow: of one of its calls, or a crash of the worker that holds them. -/
inductive Step {ι : Type} [DecidableEq ι] (calls : ι → WriteCall) : State ι → State ι → Prop where
  | call {s : State ι} {i : ι} {t : CallState} : CallStep (calls i) (s i) t →
      Step calls s (Function.update s i t)
  | crash {s : State ι} : Step calls s fun i => { s i with memory := none }

/-- Nothing has been issued. -/
def initial (ι : Type) : State ι := fun _ => { memory := none, history := [], commands := [] }

/-- The states of the runs. -/
def Reachable {ι : Type} [DecidableEq ι] (calls : ι → WriteCall) (s : State ι) : Prop :=
  Relation.ReflTransGen (Step calls) (initial ι) s

end XmemoryTemporal.Execution
