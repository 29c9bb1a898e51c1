import XmemoryTemporal.Activities
import XmemoryTemporal.Lib.Loop

/-! # The workflow-facing surface

`WorkflowXmemory` schedules one activity for each of its methods; `writeDurable` enqueues a write and
polls it to completion. A workflow function is what it does between two waits: `writeDurable` computes
its loop variables when the enqueue has returned (`pollLoop`), decides on a status when a poll has
returned (`afterStatus`) and backs off when the timer has fired (`afterTimer`). The loop is the one of
`Lib.Loop` with these as its turn; its answers are the poll results with their arrival times. -/

namespace XmemoryTemporal.WorkflowApi

open XmemoryTemporal.Python.Value XmemoryTemporal.Python.Time XmemoryTemporal.Lib.Loop
open XmemoryTemporal.Config XmemoryTemporal.Dto XmemoryTemporal.Errors XmemoryTemporal.Activities

/-! ### The handle -/

/-- Temporal's `RetryPolicy`; `maximumAttempts` 0 stands for no limit. -/
structure RetryPolicy where
  initialInterval : Timedelta := .ofSeconds 1 (by decide)
  backoffCoefficient : ℚ := 2
  maximumInterval : Option Timedelta := none
  maximumAttempts : ℕ := 0
  nonRetryableErrorTypes : List String := []

/-- Reads are idempotent, so they retry generously. -/
def defaultReadRetry : RetryPolicy :=
  { maximumInterval := some (.ofSeconds 30 (by decide)), maximumAttempts := 10 }

/-- At-most-once: a failed write is surfaced to the workflow rather than retried. -/
def defaultWriteRetry : RetryPolicy := { maximumAttempts := 1 }

/-- Polling is read-only, so it may retry freely. -/
def defaultPollRetry : RetryPolicy :=
  { maximumInterval := some (.ofSeconds 20 (by decide)), maximumAttempts := 10 }

/-- Instance-scoped memory handle usable from inside a workflow. -/
structure WorkflowXmemory where
  readTimeout : Timedelta
  writeTimeout : Timedelta
  writeStartTimeout : Timedelta
  writeStatusTimeout : Timedelta
  readRetry : RetryPolicy
  writeRetry : RetryPolicy
  pollRetry : RetryPolicy
  includeContent : Bool

/-- `_DEFAULTS`, the source of the default budgets. -/
def defaults : XmemoryTimeouts := {}

/-- The arguments of `xmemory_for_workflow`, with their defaults. -/
structure HandleOptions where
  readTimeout : Timedelta := .ofSeconds defaults.readSeconds (by decide)
  writeTimeout : Timedelta := .ofSeconds defaults.writeSeconds (by decide)
  writeStartTimeout : Timedelta := .ofSeconds defaults.writeStartSeconds (by decide)
  writeStatusTimeout : Timedelta := .ofSeconds defaults.writeStatusSeconds (by decide)
  readRetryPolicy : Option RetryPolicy := none
  writeRetryPolicy : Option RetryPolicy := none
  pollRetryPolicy : Option RetryPolicy := none
  includeContentInSummary : Bool := false

def xmemoryForWorkflow (o : HandleOptions) : WorkflowXmemory :=
  { readTimeout := o.readTimeout
    writeTimeout := o.writeTimeout
    writeStartTimeout := o.writeStartTimeout
    writeStatusTimeout := o.writeStatusTimeout
    readRetry := o.readRetryPolicy.getD defaultReadRetry
    writeRetry := o.writeRetryPolicy.getD defaultWriteRetry
    pollRetry := o.pollRetryPolicy.getD defaultPollRetry
    includeContent := o.includeContentInSummary }

/-- `xmemory_for_workflow()`. -/
def defaultHandle : WorkflowXmemory := xmemoryForWorkflow {}

/-- A call of `workflow.execute_activity`. -/
structure ExecuteActivity where
  request : Request
  startToCloseTimeout : Timedelta
  retryPolicy : RetryPolicy
  summary : String

/-- An optional text in an f-string. -/
def formatOpt : Option String → String
  | some s => s
  | none => "None"

def summary (x : WorkflowXmemory) (op content : String) (logic : Option String := none) : String :=
  let label := "xmemory " ++ op
  let label := match logic with
    | some l => if l = "" then label else label ++ " (" ++ l ++ ")"
    | none => label
  if x.includeContent then label ++ ": " ++ String.ofList (content.toList.take 60)
  else label ++ ": " ++ toString content.length ++ " chars"

/-- The arguments of `read`. -/
structure ReadArgs where
  query : String
  readMode : Option String := none
  scope : Option ReadScope := none
  readId : Option String := none

/-- The arguments of `write`. -/
structure WriteArgs where
  text : String := ""
  extractionLogic : Option String := none
  diffEngine : Option Bool := none
  structuredMutations : Option (List PyVal) := none

/-- The arguments of `write_async_start`: the default logic is another. -/
structure EnqueueArgs extends WriteArgs where
  extractionLogic := some "deep"

/-- The DTO of a write. -/
def WriteArgs.input (a : WriteArgs) : WriteInput :=
  { text := a.text
    extractionLogic := a.extractionLogic
    diffEngine := a.diffEngine
    structuredMutations := a.structuredMutations }

def read (x : WorkflowXmemory) (a : ReadArgs) : ExecuteActivity :=
  { request := .read { query := a.query, readMode := a.readMode, scope := a.scope, readId := a.readId }
    startToCloseTimeout := x.readTimeout
    retryPolicy := x.readRetry
    summary := summary x "read" a.query }

def write (x : WorkflowXmemory) (a : WriteArgs) : ExecuteActivity :=
  { request := .write a.input
    startToCloseTimeout := x.writeTimeout
    retryPolicy := x.writeRetry
    summary := summary x "write" a.text a.extractionLogic }

def writeAsyncStart (x : WorkflowXmemory) (a : EnqueueArgs) : ExecuteActivity :=
  { request := .writeStart a.input
    startToCloseTimeout := x.writeStartTimeout
    retryPolicy := x.writeRetry
    summary := summary x "write_start" a.text a.extractionLogic }

def writeStatus (x : WorkflowXmemory) (writeId : Option String) : ExecuteActivity :=
  { request := .writeStatus { writeId }
    startToCloseTimeout := x.writeStatusTimeout
    retryPolicy := x.pollRetry
    summary := "xmemory write_status: " ++ formatOpt writeId }

/-! ### The durable write -/

/-- The arguments of `write_durable`. -/
structure DurableArgs where
  write : EnqueueArgs
  pollInterval : Option Timedelta := none
  maxPollInterval : Option Timedelta := none
  maxWait : Timedelta := .ofSeconds 900 (by decide)

/-- The variables of the poll loop. -/
structure PollLoop where
  writeId : Option String
  delay : Timedelta
  cap : Timedelta
  deadline : Datetime
  maxWait : Timedelta
  warnedHistory : Bool

/-- The first delay: an explicit zero is honoured. -/
def DurableArgs.firstDelay (a : DurableArgs) : Timedelta :=
  a.pollInterval.getD (.ofSeconds 2 (by decide))

def DurableArgs.cap (a : DurableArgs) : Timedelta :=
  a.maxPollInterval.getD (.ofSeconds 30 (by decide))

/-- The enqueue has returned: the loop's variables. -/
def pollLoop (a : DurableArgs) (now : Datetime) (start : WriteStartOutput) : Except PyError PollLoop :=
  match now.add a.maxWait with
  | none => .error .overflowError
  | some deadline =>
    .ok { writeId := start.writeId, delay := a.firstDelay, cap := a.cap, deadline
          maxWait := a.maxWait, warnedHistory := false }

def statusCompleted := "completed"
def statusFailed := "failed"
def statusNotFound := "not_found"

/-- The non-terminal states known by name; any other is polled too, with a warning. -/
def statusInProgress : List String := ["queued", "processing", "extracting", "extracted", "applying"]

def writeFailed (status : WriteStatusOutput) : ApplicationError :=
  { message := "xmemory write " ++ formatOpt status.writeId ++ " failed"
    details := [.dict [("write_id", PyVal.ofStr? status.writeId),
      ("error_detail", PyVal.ofStr? status.errorDetail)]]
    type := typeWriteFailed
    nonRetryable := true }

def writeNotFound (status : WriteStatusOutput) : ApplicationError :=
  { message := "xmemory write " ++ formatOpt status.writeId ++ " not found"
    details := [.dict [("write_id", PyVal.ofStr? status.writeId)]]
    type := typeWriteNotFound
    nonRetryable := true }

def writeTimeout (l : PollLoop) (status : WriteStatusOutput) : ApplicationError :=
  { message := "xmemory write " ++ formatOpt l.writeId ++ " did not complete within " ++ l.maxWait.toStr
    details := [.dict [("write_id", PyVal.ofStr? l.writeId), ("last_status", .str status.writeStatus)]]
    type := typeWriteTimeout
    nonRetryable := true }

/-- Return the status if terminal-success, raise on terminal-failure, else `none`. -/
def interpretStatus (status : WriteStatusOutput) :
    Except ApplicationError (Option WriteStatusOutput) :=
  let value := status.writeStatus
  if value = statusCompleted then .ok (some status)
  else if value = statusFailed then .error (writeFailed status)
  else if value = statusNotFound then .error (writeNotFound status)
  else .ok none

theorem interpretStatus_completed {status : WriteStatusOutput} (h : status.writeStatus = statusCompleted) :
    interpretStatus status = .ok (some status) := by
  unfold interpretStatus
  simp only [h, if_true]

theorem interpretStatus_failed {status : WriteStatusOutput} (h : status.writeStatus = statusFailed) :
    interpretStatus status = .error (writeFailed status) := by
  simp [interpretStatus, h, statusCompleted, statusFailed]

theorem interpretStatus_notFound {status : WriteStatusOutput} (h : status.writeStatus = statusNotFound) :
    interpretStatus status = .error (writeNotFound status) := by
  simp [interpretStatus, h, statusCompleted, statusFailed, statusNotFound]

theorem interpretStatus_other {status : WriteStatusOutput} (hcompleted : status.writeStatus ≠ statusCompleted)
    (hfailed : status.writeStatus ≠ statusFailed) (hgone : status.writeStatus ≠ statusNotFound) :
    interpretStatus status = .ok none := by
  unfold interpretStatus
  simp only [hcompleted, hfailed, hgone, if_false]

/-- What the loop does with a status. -/
inductive Decision where
  | returned (status : WriteStatusOutput)
  | raised (e : PyError)
  | sleep

/-- A poll has returned. -/
def afterStatus (l : PollLoop) (now : Datetime) (status : WriteStatusOutput) : Decision :=
  match interpretStatus status with
  | .error e => .raised (.applicationError e)
  | .ok (some status) => .returned status
  | .ok none =>
    match now.add l.delay with
    | none => .raised .overflowError
    | some wake =>
      if l.deadline.micros ≤ wake.micros then .raised (.applicationError (writeTimeout l status))
      else .sleep

/-- The timer has fired: `delay = min(delay * 1.5, cap)`, and one warning per call about the history. -/
def afterTimer (l : PollLoop) (continueAsNewSuggested : Bool) : Except PyError PollLoop :=
  match l.delay.mulThreeHalves with
  | none => .error .overflowError
  | some delay =>
    .ok { l with
      delay := Timedelta.min delay l.cap
      warnedHistory := l.warnedHistory || continueAsNewSuggested }

/-! ### Its run -/

/-- What one turn of the loop is answered: the client's result for the poll, when it arrived, and
whether Temporal suggests to continue as new after the timer. -/
structure Poll where
  result : WriteStatusResult
  arrived : Datetime
  continueAsNewSuggested : Bool := false

/-- The status object the activity returns for a poll. -/
def Poll.status (p : Poll) : WriteStatusOutput := projectWriteStatus p.result

/-- Something a workflow logs. -/
inductive LogRecord where
  | unrecognizedStatus (value : String) (writeId : Option String)
  | historySuggestsContinueAsNew (writeId : Option String)
  deriving DecidableEq

/-- The commands of one turn, a poll and possibly a timer, and what it logs. -/
structure PollTurn where
  poll : ExecuteActivity
  timer : Option Timedelta := none
  log : List LogRecord := []

/-- The warning of `_interpret_status`. -/
def statusLog (status : WriteStatusOutput) : List LogRecord :=
  if status.writeStatus ∈ statusCompleted :: statusFailed :: statusNotFound :: statusInProgress then []
  else [.unrecognizedStatus status.writeStatus status.writeId]

/-- The warning of the loop, which is given once. -/
def historyLog (l : PollLoop) (continueAsNewSuggested : Bool) : List LogRecord :=
  if !l.warnedHistory && continueAsNewSuggested then [.historySuggestsContinueAsNew l.writeId] else []

/-- One turn of `while True`. -/
def durableTurn (x : WorkflowXmemory) (l : PollLoop) (p : Poll) :
    PollTurn × Turn PollLoop (Except PyError WriteStatusOutput) :=
  let poll := writeStatus x l.writeId
  match afterStatus l p.arrived p.status with
  | .returned status => ({ poll, log := statusLog p.status }, .stop (.ok status))
  | .raised e => ({ poll, log := statusLog p.status }, .stop (.error e))
  | .sleep =>
    match afterTimer l p.continueAsNewSuggested with
    | .error e => ({ poll, timer := some l.delay, log := statusLog p.status }, .stop (.error e))
    | .ok l' =>
      ({ poll, timer := some l.delay, log := statusLog p.status ++ historyLog l p.continueAsNewSuggested },
        .again l')

/-- The poll loop of `write_durable`. -/
def durableLoop (x : WorkflowXmemory) : AskLoop PollLoop Poll PollTurn (Except PyError WriteStatusOutput) where
  enter l := { poll := writeStatus x l.writeId }
  body := durableTurn x

/-- A run of `write_durable`: the enqueue, the turns of the poll loop, and the outcome, if there is one
yet. -/
structure DurableRun where
  start : ExecuteActivity
  turns : List PollTurn
  outcome : Option (Except PyError WriteStatusOutput)

/-- `write_durable` whose enqueue returned `start` at the time `now`, on a list of poll results. -/
def writeDurable (x : WorkflowXmemory) (a : DurableArgs) (now : Datetime) (start : WriteStartOutput)
    (polls : List Poll) : DurableRun :=
  match pollLoop a now start with
  | .error e => { start := writeAsyncStart x a.write, turns := [], outcome := some (.error e) }
  | .ok l =>
    let r := (durableLoop x).run l polls
    { start := writeAsyncStart x a.write, turns := r.1, outcome := r.2 }

/-- A command of a workflow: an activity or a timer. -/
inductive Command where
  | executeActivity (a : ExecuteActivity)
  | sleep (d : Timedelta)

def PollTurn.commands (t : PollTurn) : List Command :=
  .executeActivity t.poll :: (t.timer.map .sleep).toList

/-- All commands of the run, in order. -/
def DurableRun.commands (r : DurableRun) : List Command :=
  .executeActivity r.start :: r.turns.flatMap PollTurn.commands

end XmemoryTemporal.WorkflowApi
