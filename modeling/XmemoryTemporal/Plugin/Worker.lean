import XmemoryTemporal.Interceptor.Attempts
import XmemoryTemporal.WorkflowApi

/-! # A worker with the plugin

The plugin registers its four activities by name, and an interceptor around every activity of the worker if
results are to be captured. A task names its activity and brings a payload; a request of the facade finds
the activity it was made for (`dispatch_request`), and an attempt at it on any worker with the plugin is the
attempt `runActivity`, captures or not (`worker_transparent`). -/

namespace XmemoryTemporal.Plugin.Worker

open XmemoryTemporal.Config XmemoryTemporal.Dto XmemoryTemporal.Activities XmemoryTemporal.WorkflowApi
open XmemoryTemporal.Interceptor XmemoryTemporal.Interceptor.Attempts

/-- What a task brings: the input of one of our activities, or something else. -/
inductive Payload (π : Type) where
  | read (r : ReadInput)
  | write (r : WriteInput)
  | writeStatus (r : WriteStatusInput)
  | other (p : π)

/-- The payload of a request; the activity is known by its name. -/
def payloadOf {π : Type} : Request → Payload π
  | .read r => .read r
  | .write r => .write r
  | .writeStart r => .write r
  | .writeStatus r => .writeStatus r

/-- A registered activity: its name, and what it makes of a payload. -/
structure Registered (π : Type) where
  name : String
  request : Payload π → Option Request

/-- The activities that `as_sequence` hands to the worker. -/
def asSequence (π : Type) : List (Registered π) :=
  [{ name := activityRead, request := fun | .read r => some (.read r) | _ => none },
    { name := activityWrite, request := fun | .write r => some (.write r) | _ => none },
    { name := activityWriteStart, request := fun | .write r => some (.writeStart r) | _ => none },
    { name := activityWriteStatus, request := fun | .writeStatus r => some (.writeStatus r) | _ => none }]

/-- The activity of that name, on the payload. -/
def dispatch {π : Type} (name : String) (payload : Payload π) : Option Request :=
  ((asSequence π).find? fun r => r.name = name).bind fun r => r.request payload

/-- A worker built with the plugin. What is not dispatched to the plugin comes to `others`: an activity of
the user, or the failure to find one or to decode its payload. -/
structure PluginWorker (π υ ε : Type) where
  config : XmemoryConfig
  bound : Option Client
  autoCapture : Option (AutoCaptureConfig (Output ⊕ υ) (Raised ⊕ ε))
  others : String → Payload π → Except ε υ

/-- What an attempt comes to: the calls of the worker's client, and the outcome. -/
@[ext] structure Executed (υ ε : Type) where
  calls : List ClientCall
  outcome : Except (Raised ⊕ ε) (Output ⊕ υ)

/-- How long things take in an attempt. -/
structure Times where
  ran : ℚ
  projecting : ℚ
  took : WriteInput → Option ℚ

section Execute
variable {π υ ε : Type} (w : PluginWorker π υ ε) (info : ActivityInfo) (payload : Payload π) (times : Times)

/-- An attempt of ours, as one of a worker. -/
def executed (a : Attempt Output) : Executed υ ε :=
  { calls := a.calls, outcome := (a.outcome.map Sum.inl).mapError Sum.inl }

/-- The activity itself. -/
def PluginWorker.activity : Executed υ ε :=
  match dispatch info.activityType payload with
  | some req => executed (runActivity w.config w.bound info req)
  | none => { calls := [], outcome := ((w.others info.activityType payload).map Sum.inr).mapError Sum.inr }

/-- The attempt that an interceptor of this configuration wraps. -/
def PluginWorker.wrapped (auto : AutoCaptureConfig (Output ⊕ υ) (Raised ⊕ ε)) :
    WrappedAttempt (Output ⊕ υ) (Raised ⊕ ε) where
  config := w.config
  auto := auto
  bound := w.bound
  info := info
  wrapped := (w.activity info payload).outcome
  ran := times.ran
  projecting := times.projecting
  took := times.took
  lost := false

/-- The activity under the interceptors of the worker. -/
def PluginWorker.execute : Executed υ ε :=
  match w.autoCapture with
  | none => w.activity info payload
  | some auto =>
    let a := w.wrapped info payload times auto
    { calls := (w.activity info payload).calls ++ a.sent Sum.inl, outcome := (a.execution Sum.inl).outcome }

/-- **A request is dispatched to the activity it is for.** -/
theorem dispatch_request (req : Request) : dispatch req.activity (payloadOf req : Payload π) = some req := by
  cases req <;> rfl

theorem execute_outcome : (w.execute info payload times).outcome = (w.activity info payload).outcome := by
  unfold PluginWorker.execute
  rcases w.autoCapture with _ | auto
  · rfl
  · exact executeActivity_outcome _ _ _ _

theorem execute_calls : (w.execute info payload times).calls = (w.activity info payload).calls ∨
    ∃ auto call, w.autoCapture = some auto ∧ (w.wrapped info payload times auto).Sends call ∧
      (w.execute info payload times).calls = (w.activity info payload).calls ++ [call] := by
  unfold PluginWorker.execute
  rcases hauto : w.autoCapture with _ | auto
  · exact Or.inl rfl
  · rcases sent_cases Sum.inl (w.wrapped info payload times auto) with hnil | ⟨call, hsends, hone⟩
    · left
      simp only [hnil, List.append_nil]
    · right
      refine ⟨auto, call, rfl, hsends, ?_⟩
      simp only [hone]

variable {w info times}

theorem execute_request {req : Request} (h : info.activityType = req.activity) :
    w.execute info (payloadOf req) times = executed (runActivity w.config w.bound info req) := by
  have hactivity : w.activity info (payloadOf req) = executed (runActivity w.config w.bound info req) := by
    unfold PluginWorker.activity
    rw [h, dispatch_request]
  have hcalls : (w.execute info (payloadOf req) times).calls = (w.activity info (payloadOf req)).calls := by
    rcases execute_calls w info (payloadOf req) times with
      hsame | ⟨auto, call, -, hsends, -⟩
    · exact hsame
    · obtain ⟨text, hcaptures, -⟩ := hsends.text
      obtain ⟨result, heligible, -⟩ := hcaptures.projected
      have hforeign : ownActivity info.activityType = false := heligible.foreign
      rw [h, ownActivity_activity] at hforeign
      cases hforeign
  have houtcome : (w.execute info (payloadOf req) times).outcome = (w.activity info (payloadOf req)).outcome :=
    execute_outcome w info _ times
  rw [← hactivity]
  exact Executed.ext hcalls houtcome

end Execute

/-- **The plugin and its interceptor are transparent.** On any worker with the plugin, with or without
captures, an attempt at a request of the facade is the attempt of its activity: the interceptor adds no call
to it and changes nothing of its outcome. Whatever else the worker runs has the outcome it has without the
plugin, and makes at most one call of the plugin's client, to capture its result. -/
theorem worker_transparent {π υ ε : Type} (w : PluginWorker π υ ε) (info : ActivityInfo) (times : Times) :
    (∀ req : Request, info.activityType = req.activity →
      w.execute info (payloadOf req) times = executed (runActivity w.config w.bound info req)) ∧
    ∀ payload, dispatch info.activityType payload = none →
      (w.execute info payload times).outcome =
        ((w.others info.activityType payload).map Sum.inr).mapError Sum.inr ∧
      ((w.execute info payload times).calls = [] ∨ ∃ auto call, w.autoCapture = some auto ∧
        (w.wrapped info payload times auto).Sends call ∧ (w.execute info payload times).calls = [call]) := by
  refine ⟨fun req hreq => execute_request hreq, fun payload hother => ?_⟩
  have hactivity : w.activity info payload =
      { calls := [], outcome := ((w.others info.activityType payload).map Sum.inr).mapError Sum.inr } := by
    unfold PluginWorker.activity
    rw [hother]
  refine ⟨?_, ?_⟩
  · rw [execute_outcome, hactivity]
  · rcases execute_calls w info payload times with
      hsame | ⟨auto, call, hauto, hsends, hone⟩
    · left
      rw [hsame, hactivity]
    · right
      refine ⟨auto, call, hauto, hsends, ?_⟩
      rw [hone, hactivity]
      rfl

end XmemoryTemporal.Plugin.Worker
