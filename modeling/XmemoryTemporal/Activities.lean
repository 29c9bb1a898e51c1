import XmemoryTemporal.Config
import XmemoryTemporal.Dto
import XmemoryTemporal.Errors

/-! # The activities

One attempt of an activity looks up the bound client and derives the client's budget from its own
deadline (both may raise, before anything is sent), makes one client call, and either projects the
result or raises the sanitized error. The four activities differ in the call they make, and are the
function `callClient` at their own call, client method and projection.

`runActivity_unbound`, `runActivity_noDeadline` and `runActivity_called` are the three ways an attempt
can go; later files use these and not the definitions. -/

namespace XmemoryTemporal.Activities

open XmemoryTemporal.Python.Value XmemoryTemporal.Python.Time
open XmemoryTemporal.Config XmemoryTemporal.Dto XmemoryTemporal.Errors

/-! ### The client and its calls -/

/-- The methods of the client. -/
inductive Method where
  | read
  | write
  | writeAsync
  | writeStatus
  deriving DecidableEq

/-- A call of the client: `instance.method(arg, timeout=timeout, **kwargs)`. -/
structure ClientCall where
  method : Method
  arg : PyVal
  timeout : ℚ
  kwargs : List (String × PyVal)

/-- The bound client, known by what its methods answer. -/
structure Client where
  read : ClientCall → Except ClientException ReadResult
  write : ClientCall → Except ClientException WriteResult
  writeAsync : ClientCall → Except ClientException WriteStartResult
  writeStatus : ClientCall → Except ClientException WriteStatusResult

/-! ### Attempts -/

/-- What `activity.info()` says of an attempt. -/
structure ActivityInfo where
  activityType : String
  activityId : String
  startToCloseTimeout : Option Timedelta
  scheduleToCloseTimeout : Option Timedelta

/-- `info.start_to_close_timeout or info.schedule_to_close_timeout`. -/
def closeTimeout (info : ActivityInfo) : Option Timedelta :=
  match info.startToCloseTimeout with
  | some d => if d.truthy then some d else info.scheduleToCloseTimeout
  | none => info.scheduleToCloseTimeout

/-- A raised exception: with `from None` its context is there but not shown. -/
structure Raised where
  error : PyError
  cause : Option ClientException := none
  context : Option ClientException := none
  suppressContext : Bool := false

/-- The context that a traceback, and Temporal's failure converter, show. -/
def Raised.visibleContext (r : Raised) : Option ClientException :=
  if r.suppressContext then none else r.context

/-- One attempt: the client calls it made, and what it returned or raised. -/
structure Attempt (α : Type) where
  calls : List ClientCall
  outcome : Except Raised α

def Attempt.map {α β : Type} (f : α → β) (a : Attempt α) : Attempt β :=
  ⟨a.calls, a.outcome.map f⟩

/-- Activities registered without the plugin. -/
def notBound : ApplicationError :=
  { message := "xmemory activities are not bound to a client — register XmemoryPlugin on the " ++
      "Client (the Worker inherits it) rather than registering the activity functions directly."
    type := typeNotBound
    nonRetryable := true }

/-- An activity scheduled with neither close timeout. -/
def noDeadline (info : ActivityInfo) : ApplicationError :=
  { message := "activity " ++ info.activityType ++ " was scheduled without a deadline: set " ++
      "start_to_close_timeout or schedule_to_close_timeout on it."
    type := typeNoDeadline
    nonRetryable := true }

/-- The property `instance`, for whatever the context variable holds. -/
def instanceOf {γ : Type} (bound : Option γ) : Except PyError γ :=
  match bound with
  | some inst => .ok inst
  | none => .error (.applicationError notBound)

/-- Client budget for this call, derived from the activity's own deadline; floats are rounded by `fl`. -/
def clientTimeoutBy (fl : ℚ → ℚ) (config : XmemoryConfig) (info : ActivityInfo) : Except PyError ℚ :=
  match closeTimeout info with
  | some budget => .ok (clientTimeoutSecondsBy fl (fl budget.totalSeconds) config.clientMarginSeconds)
  | none => .error (.applicationError (noDeadline info))

/-- The budget in exact arithmetic, which the attempts below pass on. -/
def clientTimeout (config : XmemoryConfig) (info : ActivityInfo) : Except PyError ℚ :=
  clientTimeoutBy id config info

/-- `raise to_application_error(exc) from None`, in the handler of `exc`. An error inside the mapping
is raised in its place, with `exc` as its visible context. -/
def raiseFromNone (exc : ClientException) : Raised :=
  match toApplicationError exc with
  | .ok e => { error := .applicationError e, context := some exc, suppressContext := true }
  | .error e => { error := e, context := some exc }

section CallClient
variable {ρ α : Type} (config : XmemoryConfig) (bound : Option Client) (info : ActivityInfo)

/-- The body all activities share: the client, the budget, one call under the handler. -/
def callClient (call : ℚ → ClientCall) (answer : Client → ClientCall → Except ClientException ρ)
    (project : ρ → α) : Attempt α :=
  match instanceOf bound with
  | .error e => ⟨[], .error { error := e }⟩
  | .ok inst =>
    match clientTimeout config info with
    | .error e => ⟨[], .error { error := e }⟩
    | .ok timeout =>
      match answer inst (call timeout) with
      | .ok result => ⟨[call timeout], .ok (project result)⟩
      | .error exc => ⟨[call timeout], .error (raiseFromNone exc)⟩

/-- The plain mapping the client validates into its own scope model. -/
def scopeMapping (scope : ReadScope) : PyVal :=
  .dict [("objects", .list (scope.objects.map fun o => .dict [("type", .str o.type), ("key", .dict o.key)])),
    ("relations_scope", .str scope.relationsScope)]

/-- A keyword argument that is passed only when it is set. -/
def kwarg (name : String) (value : Option PyVal) : List (String × PyVal) :=
  match value with
  | some v => [(name, v)]
  | none => []

def readKwargs (request : ReadInput) : List (String × PyVal) :=
  kwarg "read_mode" (request.readMode.map .str) ++ kwarg "scope" (request.scope.map scopeMapping) ++
    kwarg "read_id" (request.readId.map .str)

/-- `logic or default`. -/
def logicOr (logic : Option String) (default : String) : String :=
  match logic with
  | some s => if s = "" then default else s
  | none => default

/-- A structured write returns early: it carries its own keys and no extraction logic. -/
def writeKwargs (request : WriteInput) : List (String × PyVal) :=
  match request.structuredMutations with
  | some mutations => [("structured_mutations", .list mutations)]
  | none =>
    ("extraction_logic", .str (logicOr request.extractionLogic config.defaultExtractionLogic)) ::
      kwarg "diff_engine" (request.diffEngine.map .bool)

def read (request : ReadInput) : Attempt ReadOutput :=
  callClient config bound info
    (fun timeout => { method := .read, arg := .str request.query, timeout, kwargs := readKwargs request })
    Client.read projectRead

def write (request : WriteInput) : Attempt WriteOutput :=
  callClient config bound info
    (fun timeout => { method := .write, arg := .str request.text, timeout, kwargs := writeKwargs config request })
    Client.write projectWrite

def writeStart (request : WriteInput) : Attempt WriteStartOutput :=
  callClient config bound info
    (fun timeout => { method := .writeAsync, arg := .str request.text, timeout, kwargs := writeKwargs config request })
    Client.writeAsync projectWriteStart

def writeStatus (request : WriteStatusInput) : Attempt WriteStatusOutput :=
  callClient config bound info
    (fun timeout => { method := .writeStatus, arg := PyVal.ofStr? request.writeId, timeout, kwargs := [] })
    Client.writeStatus projectWriteStatus

end CallClient

/-! ### The registered activities -/

def activityRead := "xmemory_read"
def activityWrite := "xmemory_write"
def activityWriteStart := "xmemory_write_start"
def activityWriteStatus := "xmemory_write_status"

/-- The input of an activity, under the activity it is for. -/
inductive Request where
  | read (r : ReadInput)
  | write (r : WriteInput)
  | writeStart (r : WriteInput)
  | writeStatus (r : WriteStatusInput)

/-- The output of an activity. -/
inductive Output where
  | read (o : ReadOutput)
  | write (o : WriteOutput)
  | writeStart (o : WriteStartOutput)
  | writeStatus (o : WriteStatusOutput)

/-- The name the request is dispatched under. -/
def Request.activity : Request → String
  | read _ => activityRead
  | write _ => activityWrite
  | writeStart _ => activityWriteStart
  | writeStatus _ => activityWriteStatus

/-- The client method an activity is for. -/
def Request.method : Request → Method
  | read _ => .read
  | write _ => .write
  | writeStart _ => .writeAsync
  | writeStatus _ => .writeStatus

/-- One attempt of a registered activity. -/
def runActivity (config : XmemoryConfig) (bound : Option Client) (info : ActivityInfo) :
    Request → Attempt Output
  | .read r => (Activities.read config bound info r).map .read
  | .write r => (Activities.write config bound info r).map .write
  | .writeStart r => (Activities.writeStart config bound info r).map .writeStart
  | .writeStatus r => (Activities.writeStatus config bound info r).map .writeStatus

/-! ### What an attempt does -/

/-- The call an activity makes with a given budget. -/
def Request.call (config : XmemoryConfig) (timeout : ℚ) : Request → ClientCall
  | read r => { method := .read, arg := .str r.query, timeout, kwargs := readKwargs r }
  | write r => { method := .write, arg := .str r.text, timeout, kwargs := writeKwargs config r }
  | writeStart r => { method := .writeAsync, arg := .str r.text, timeout, kwargs := writeKwargs config r }
  | writeStatus r => { method := .writeStatus, arg := PyVal.ofStr? r.writeId, timeout, kwargs := [] }

/-- What the client answers the call of an activity, projected. -/
def Client.answer (client : Client) (c : ClientCall) : Request → Except ClientException Output
  | .read _ => (client.read c).map fun r => .read (projectRead r)
  | .write _ => (client.write c).map fun r => .write (projectWrite r)
  | .writeStart _ => (client.writeAsync c).map fun r => .writeStart (projectWriteStart r)
  | .writeStatus _ => (client.writeStatus c).map fun r => .writeStatus (projectWriteStatus r)

@[simp] theorem Request.call_method (config : XmemoryConfig) (T : ℚ) (req : Request) :
    (req.call config T).method = req.method := by cases req <;> rfl

@[simp] theorem Request.call_timeout (config : XmemoryConfig) (T : ℚ) (req : Request) :
    (req.call config T).timeout = T := by cases req <;> rfl

variable {config : XmemoryConfig} {bound : Option Client} {info : ActivityInfo}

theorem callClient_called {ρ α : Type} {client : Client} {T : ℚ} (hb : bound = some client)
    (hT : clientTimeout config info = .ok T) (call : ℚ → ClientCall)
    (answer : Client → ClientCall → Except ClientException ρ) (project : ρ → α) :
    callClient config bound info call answer project =
      ⟨[call T], ((answer client (call T)).map project).mapError raiseFromNone⟩ := by
  subst hb
  simp only [callClient, instanceOf, hT]
  cases answer client (call T) <;> rfl

theorem runActivity_unbound (config : XmemoryConfig) (info : ActivityInfo) (req : Request) :
    runActivity config none info req = ⟨[], .error { error := .applicationError notBound }⟩ := by
  cases req <;> rfl

theorem clientTimeout_noDeadline (config : XmemoryConfig) (h : closeTimeout info = none) :
    clientTimeout config info = .error (.applicationError (noDeadline info)) := by
  unfold clientTimeout clientTimeoutBy
  rw [h]

theorem runActivity_noDeadline (client : Client) (h : closeTimeout info = none) (req : Request) :
    runActivity config (some client) info req =
      ⟨[], .error { error := .applicationError (noDeadline info) }⟩ := by
  have hT := clientTimeout_noDeadline config h
  cases req <;>
    simp [runActivity, read, write, writeStart, writeStatus, callClient, instanceOf, hT, Attempt.map,
      Except.map]

/-- **An attempt with a client and a deadline makes exactly its one call**, and its outcome is the projected answer or
the sanitized error. -/
theorem runActivity_called {client : Client} {T : ℚ} (hb : bound = some client)
    (hT : clientTimeout config info = .ok T) (req : Request) :
    runActivity config bound info req =
      ⟨[req.call config T], (client.answer (req.call config T) req).mapError raiseFromNone⟩ := by
  have hmap : ∀ {ρ α : Type} (e : Except ClientException ρ) (f : ρ → α) (g : α → Output),
      ((e.map f).mapError raiseFromNone).map g = (e.map fun r => g (f r)).mapError raiseFromNone := by
    intro ρ α e f g
    cases e <;> rfl
  cases req <;>
    simp only [runActivity, read, write, writeStart, writeStatus, callClient_called hb hT, Attempt.map,
      hmap, Request.call, Client.answer]

theorem clientTimeout_ok_iff {T : ℚ} : clientTimeout config info = .ok T ↔
    ∃ B, closeTimeout info = some B ∧
      T = clientTimeoutSeconds B.totalSeconds config.clientMarginSeconds := by
  unfold clientTimeout clientTimeoutBy clientTimeoutSeconds
  cases closeTimeout info with
  | none => simp
  | some B => simp [eq_comm]

theorem closeTimeout_startToClose {B : Timedelta} (hB : 0 < B.micros)
    (h : info.startToCloseTimeout = some B) : closeTimeout info = some B := by
  simp [closeTimeout, h, Timedelta.truthy_of_pos hB]

theorem runActivity_cases (config : XmemoryConfig) (bound : Option Client) (info : ActivityInfo)
    (req : Request) :
    (bound = none ∧ (runActivity config bound info req).calls = []) ∨
      (closeTimeout info = none ∧ (runActivity config bound info req).calls = []) ∨
      ∃ T, (runActivity config bound info req).calls = [req.call config T] := by
  cases bound with
  | none => exact Or.inl ⟨rfl, by rw [runActivity_unbound]⟩
  | some client =>
    right
    cases hc : closeTimeout info with
    | none => exact Or.inl ⟨rfl, by rw [runActivity_noDeadline client hc]⟩
    | some B =>
      have hT : clientTimeout config info = .ok _ := clientTimeout_ok_iff.mpr ⟨B, hc, rfl⟩
      exact Or.inr ⟨_, by rw [runActivity_called rfl hT]⟩

/-- The client method whose answers an output projects. -/
def Output.method : Output → Method
  | .read _ => .read
  | .write _ => .write
  | .writeStart _ => .writeAsync
  | .writeStatus _ => .writeStatus

theorem Client.answer_method {client : Client} {call : ClientCall} {req : Request} {o : Output}
    (h : client.answer call req = .ok o) : o.method = req.method := by
  have hmap : ∀ {ρ : Type} {e : Except ClientException ρ} {f : ρ → Output}, e.map f = .ok o →
      ∃ r, o = f r := by
    intro ρ e f h
    rcases e with exc | r
    · cases h
    · cases h
      exact ⟨r, rfl⟩
  cases req <;> obtain ⟨r, rfl⟩ := hmap h <;> rfl

/-- **An attempt that returns** has made its call, and returns what the client answered, projected. -/
theorem runActivity_ok {req : Request} {o : Output}
    (h : (runActivity config bound info req).outcome = .ok o) :
    ∃ client T, bound = some client ∧ clientTimeout config info = .ok T ∧
      (runActivity config bound info req).calls = [req.call config T] ∧
      client.answer (req.call config T) req = .ok o := by
  rcases bound with _ | client
  · rw [runActivity_unbound] at h
    cases h
  · rcases hc : closeTimeout info with _ | B
    · rw [runActivity_noDeadline client hc] at h
      cases h
    · have hT : clientTimeout config info = .ok _ := clientTimeout_ok_iff.mpr ⟨B, hc, rfl⟩
      rw [runActivity_called rfl hT] at h ⊢
      refine ⟨client, _, rfl, hT, rfl, ?_⟩
      rcases ha : client.answer (req.call config _) req with exc | o'
      · rw [ha] at h
        cases h
      · rw [ha] at h
        cases h
        rfl

end XmemoryTemporal.Activities
