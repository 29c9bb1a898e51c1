import XmemoryTemporal.Activities.Timeout
import XmemoryTemporal.Interceptor.Deadline
import XmemoryTemporal.Lib.Retry

/-! # What auto-capture sends

The enqueue of a capture is the activity `write_start` itself, run within the attempt it captures: it finds
the client and the deadline of that attempt. So an attempt sends nothing or one `write_async` (`sent_cases`).
The worker cannot tell whether the completion of an attempt reaches the server; an activity whose completion
was lost is attempted again, and captured again. Those are the only repetitions (`sent_under_retries`). -/

namespace XmemoryTemporal.Interceptor.Attempts

open XmemoryTemporal.Python.Value XmemoryTemporal.Python.Time XmemoryTemporal.Lib.Retry
open XmemoryTemporal.Config XmemoryTemporal.Dto XmemoryTemporal.Activities XmemoryTemporal.Interceptor
open XmemoryTemporal.Interceptor.Deadline XmemoryTemporal.Activities.Timeout

/-- `self._activities.write_start` within an attempt; `raised` is the type of what it raises. -/
def writeStartOf {ε : Type} (raised : Raised → ε) (config : XmemoryConfig) (bound : Option Client)
    (info : ActivityInfo) (took : WriteInput → Option ℚ) (input : WriteInput) : Enqueue ε where
  seconds := took input
  outcome := (Activities.writeStart config bound info input).outcome.mapError raised

/-- An attempt at an activity, on a worker that captures results: its configuration and client, how the
activity ended and when, how long the projection and the enqueue take, and whether the completion was lost
on its way to the server. -/
structure WrappedAttempt (ρ ε : Type) where
  config : XmemoryConfig
  auto : AutoCaptureConfig ρ ε
  bound : Option Client
  info : ActivityInfo
  wrapped : Except ε ρ
  ran : ℚ
  projecting : ℚ
  took : WriteInput → Option ℚ
  lost : Bool

section Attempt
variable {ρ ε : Type} (raised : Raised → ε) (a : WrappedAttempt ρ ε)

def WrappedAttempt.execution : Execution ρ ε :=
  executeActivity a.config a.auto a.info (writeStartOf raised a.config a.bound a.info a.took) a.wrapped a.ran
    a.projecting

/-- The calls its capture makes of the client. -/
def WrappedAttempt.sent : List ClientCall :=
  (invocations (a.execution raised).events).flatMap fun input =>
    (Activities.writeStart a.config a.bound a.info input).calls

/-- It is attempted again only if it failed, or its completion was lost. -/
def WrappedAttempt.again : Prop := a.lost = true ∨ ∃ e, a.wrapped = .error e

/-- What a call of a capture is: an enqueue of the text that the attempt's own result projects to, with the
configured extraction logic (the default one, if that is empty) and nothing else, under the budget of the
attempt's deadline. -/
structure WrappedAttempt.Sends (call : ClientCall) : Prop where
  method : call.method = .writeAsync
  text : ∃ text, Captures a.config a.auto a.info a.wrapped (a.ran + a.projecting) text ∧ call.arg = .str text
  timeout : clientTimeout a.config a.info = .ok call.timeout
  kwargs : call.kwargs = [("extraction_logic", .str (if a.auto.extractionLogic = "" then
    a.config.defaultExtractionLogic else a.auto.extractionLogic))]

variable {a}

theorem invoked_cases (a : WrappedAttempt ρ ε) : invocations (a.execution raised).events = [] ∨
    ∃ text, Captures a.config a.auto a.info a.wrapped (a.ran + a.projecting) text ∧
      invocations (a.execution raised).events = [captureInput a.auto text] := by
  unfold WrappedAttempt.execution
  rcases executeActivity_cases a.config a.auto a.info (writeStartOf raised a.config a.bound a.info a.took)
    a.wrapped a.ran a.projecting with ⟨-, hnil, -⟩ | ⟨-, text, budget, hcaptures, hw⟩
  · exact Or.inl hnil
  · rcases hup : PyFloat.le budget (.finite 0) with _ | _
    · refine Or.inr ⟨text, hcaptures, ?_⟩
      rw [hw.invoked, waitFor_events hup]
      rfl
    · exact Or.inl (hw.up hup)

theorem sent_cases (a : WrappedAttempt ρ ε) : a.sent raised = [] ∨
    ∃ call, a.Sends call ∧ a.sent raised = [call] := by
  unfold WrappedAttempt.sent
  rcases invoked_cases raised a with hnil | ⟨text, hcaptures, hone⟩
  · rw [hnil]
    exact Or.inl rfl
  rw [hone, List.flatMap_singleton]
  have hcalls : (Activities.writeStart a.config a.bound a.info (captureInput a.auto text)).calls =
      (runActivity a.config a.bound a.info (.writeStart (captureInput a.auto text))).calls := rfl
  rw [hcalls]
  obtain ⟨D, hD, -⟩ := hcaptures.deadline
  have hT : clientTimeout a.config a.info =
      .ok (clientTimeoutSeconds D.totalSeconds a.config.clientMarginSeconds) :=
    clientTimeout_ok_iff.mpr ⟨D, hD, rfl⟩
  rcases hbound : a.bound with _ | client
  · rw [runActivity_unbound]
    exact Or.inl rfl
  · rw [runActivity_called rfl hT]
    exact Or.inr ⟨_, ⟨rfl, ⟨text, hcaptures, rfl⟩, hT, rfl⟩, rfl⟩

variable {raised}

theorem returned_of_sent (h : a.sent raised ≠ []) : ∃ result, a.wrapped = .ok result := by
  rcases sent_cases raised a with hnil | ⟨call, hsends, -⟩
  · exact absurd hnil h
  · obtain ⟨text, hcaptures, -⟩ := hsends.text
    obtain ⟨result, heligible, -⟩ := hcaptures.projected
    exact ⟨result, heligible.returned⟩

theorem length_sent_le (a : WrappedAttempt ρ ε) : (a.sent raised).length ≤ 1 := by
  rcases sent_cases raised a with hnil | ⟨call, -, hone⟩
  · rw [hnil]
    exact Nat.zero_le 1
  · rw [hone]
    exact le_refl 1

theorem ownActivity_activity (req : Request) : ownActivity req.activity = true := by
  have hall : ∀ name ∈ [activityRead, activityWrite, activityWriteStart, activityWriteStatus],
      ownActivity name = true := by decide
  refine hall _ ?_
  cases req <;> simp [Request.activity]

/-- **No capture of a capture**: the plugin's own activities pass as if there were no interceptor. -/
theorem own_execution {req : Request} (h : a.info.activityType = req.activity) :
    (a.execution raised).events = [] ∧ (a.execution raised).seconds = a.ran := by
  have hown : ownActivity a.info.activityType = true := by rw [h, ownActivity_activity]
  unfold WrappedAttempt.execution
  rcases a.wrapped with e | result
  · exact ⟨rfl, rfl⟩
  · unfold executeActivity maybeCapture
    simp [hown]

end Attempt

/-- **What the captures of one activity send**, over all its attempts under any retry policy. Every call is
an enqueue of a text projected from the result of its own attempt. There is at most one for each attempt
whose completion was lost, and one more; nothing follows the attempt that sent it and was not lost. The
plugin's own activities are never captured. -/
theorem sent_under_retries {ρ ε : Type} (raised : Raised → ε) (limit : Option ℕ)
    (attempts : List (WrappedAttempt ρ ε)) (h : Attempted WrappedAttempt.again limit attempts) :
    (∀ a ∈ attempts, ∀ call ∈ a.sent raised, a.Sends call) ∧
    (attempts.flatMap (WrappedAttempt.sent raised)).length ≤ attempts.countP WrappedAttempt.lost + 1 ∧
    (∀ pre a post, attempts = pre ++ a :: post → a.lost = false → a.sent raised ≠ [] → post = []) ∧
    ∀ a ∈ attempts, ∀ req : Request, a.info.activityType = req.activity →
      (a.execution raised).events = [] ∧ (a.execution raised).seconds = a.ran := by
  have hsettled : ∀ a : WrappedAttempt ρ ε, a.again → a.sent raised ≠ [] → a.lost = true := by
    rintro a (hlost | ⟨e, he⟩) hsent
    · exact hlost
    · obtain ⟨result, hresult⟩ := returned_of_sent hsent
      rw [hresult] at he
      simp at he
  refine ⟨fun a _ call hcall => ?_, ?_, fun pre a post heq hlost hsent => ?_, fun a _ req hreq => own_execution hreq⟩
  · rcases sent_cases raised a with hnil | ⟨call', hsends, hone⟩
    · rw [hnil] at hcall
      exact absurd hcall List.not_mem_nil
    · rw [hone, List.mem_singleton] at hcall
      rw [hcall]
      exact hsends
  · exact h.effects_le_marked _ _ (fun a _ => length_sent_le a) fun a _ => hsettled a
  · rw [heq] at h
    refine h.last fun hagain => ?_
    have hlost' := hsettled a hagain hsent
    rw [hlost] at hlost'
    cases hlost'

/-- An attempt on a worker that remembers everything. -/
def rememberedAttempt (lost : Bool) : WrappedAttempt String Unit where
  config := {}
  auto := rememberAll
  bound := some idleClient
  info := userInfo
  wrapped := .ok "hello"
  ran := 1
  projecting := 0
  took _ := some 1
  lost := lost

/-- The completion of one attempt was lost, that of the next was not: twice at most the result is sent. -/
theorem sent_under_retries_two :
    ([rememberedAttempt true, rememberedAttempt false].flatMap
      (WrappedAttempt.sent fun _ => ())).length ≤ 2 ∧
    ∀ call ∈ (rememberedAttempt true).sent fun _ => (),
      call.arg = .str "hello" ∧ call.kwargs = [("extraction_logic", .str "fast")] := by
  have hone : Attempted WrappedAttempt.again none [rememberedAttempt true] :=
    attempted_nil.attempt ⟨by simp, by simp⟩ _
  have hagain : (rememberedAttempt true).again := Or.inl rfl
  have htwo : Attempted WrappedAttempt.again none [rememberedAttempt true, rememberedAttempt false] :=
    hone.attempt ⟨by simp, by simp [hagain]⟩ _
  obtain ⟨hsends, hcount, -⟩ := sent_under_retries (fun _ => ()) none _ htwo
  refine ⟨hcount, fun call hcall => ?_⟩
  have hcall' := hsends _ (by simp) call hcall
  obtain ⟨text, ⟨⟨result, ⟨hreturned, -, -⟩, hproject⟩, -, -⟩, harg⟩ := hcall'.text
  cases hreturned
  cases hproject
  exact ⟨harg, hcall'.kwargs⟩

end XmemoryTemporal.Interceptor.Attempts
