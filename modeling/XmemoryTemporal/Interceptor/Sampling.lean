import XmemoryTemporal.Interceptor.Deadline
import Mathlib.Logic.Function.Basic

/-! # What auto-capture samples

The sampling decision is made of the activity id and of the rate. All attempts of an execution share the
id, so they share the decision (`captured_iff`). But Temporal numbers the activities of every workflow run
from 1, so the executions of different runs share their ids too, and with them the decision:
`captured_factorsThrough` is the whole of it, and `not_selectsExecutions` that no rate selects among the
executions of one id. -/

namespace XmemoryTemporal.Interceptor.Sampling

open XmemoryTemporal.Python.Value XmemoryTemporal.Python.Time XmemoryTemporal.Config
open XmemoryTemporal.Dto XmemoryTemporal.Activities XmemoryTemporal.Interceptor
open XmemoryTemporal.Interceptor.Deadline

section Attempts
variable {ρ ε : Type}

/-- An attempt of an eligible activity, on a worker of its own: it returned a result that projects to a
text, and left time to capture it. It belongs to the execution of its activity id in its workflow run. -/
structure EligibleAttempt (auto : AutoCaptureConfig ρ ε) where
  runId : String
  config : XmemoryConfig
  info : ActivityInfo
  enqueue : WriteInput → Enqueue ε
  result : ρ
  ran : ℚ
  projecting : ℚ
  text : String
  foreign : ownActivity info.activityType = false
  projected : auto.project info.activityType result = .ok (some text)
  nonempty : text ≠ ""
  deadline : ∃ D, closeTimeout info = some D ∧ 0 < D.totalSeconds - (ran + projecting) - config.clientMarginSeconds

variable {auto : AutoCaptureConfig ρ ε}

def EligibleAttempt.execution (a : EligibleAttempt auto) : Execution ρ ε :=
  executeActivity a.config auto a.info a.enqueue (.ok a.result) a.ran a.projecting

/-- The enqueue of the attempt was invoked. -/
def EligibleAttempt.captured (a : EligibleAttempt auto) : Prop := invocations a.execution.events ≠ []

def EligibleAttempt.activityId (a : EligibleAttempt auto) : String := a.info.activityId

theorem EligibleAttempt.captures_iff_sampled (a : EligibleAttempt auto) :
    (∃ text, Captures a.config auto a.info (.ok a.result) (a.ran + a.projecting) text) ↔
      shouldSample auto a.info = true := by
  constructor
  · rintro ⟨text, ⟨result, ⟨-, -, hsampled⟩, -⟩, -, -⟩
    exact hsampled
  · intro hsampled
    exact ⟨a.text, ⟨a.result, ⟨rfl, a.foreign, hsampled⟩, a.projected⟩, a.nonempty, a.deadline⟩

/-- **The decision**: an eligible attempt is captured exactly when its id is sampled, under a ceiling that
lets the enqueue start. -/
theorem captured_iff (a : EligibleAttempt auto) : a.captured ↔
    shouldSample auto a.info = true ∧ PyFloat.le auto.captureTimeoutSeconds (.finite 0) = false := by
  rw [← a.captures_iff_sampled]
  obtain ⟨D, hD, -⟩ := a.deadline
  unfold EligibleAttempt.captured EligibleAttempt.execution
  rcases executeActivity_cases a.config auto a.info a.enqueue (.ok a.result) a.ran a.projecting with
    ⟨hno, hnil, -⟩ | ⟨-, text, budget, hcaptures, hw⟩
  · exact iff_of_false (not_not.mpr hnil) fun h => h.1.elim hno
  obtain ⟨-, -, hle⟩ := captureBudget_spec hD hw.budget_eq
  rw [← hle]
  constructor
  · intro hinvoked
    refine ⟨⟨text, hcaptures⟩, ?_⟩
    rcases hup : PyFloat.le budget (.finite 0) with _ | _
    · rfl
    · exact absurd (hw.up hup) hinvoked
  · exact fun h => hw.running h.2

theorem shouldSample_congr {info info' : ActivityInfo} (h : info.activityId = info'.activityId) :
    shouldSample auto info = shouldSample auto info' := by
  unfold shouldSample
  rw [h]

/-- **The decision is one for each id**: the run, the attempt and the worker have no part in it. -/
theorem captured_factorsThrough :
    Function.FactorsThrough (fun a : EligibleAttempt auto => a.captured) fun a => a.activityId := by
  intro a b h
  have hsample : shouldSample auto a.info = shouldSample auto b.info := shouldSample_congr h
  simp only [captured_iff, hsample]

/-- **Sampling selects among the executions of an activity id**: it captures some and leaves others, and
all attempts of one execution get the same decision. -/
structure SelectsExecutions (auto : AutoCaptureConfig ρ ε) (activityId : String) : Prop where
  some_captured : ∃ a : EligibleAttempt auto, a.activityId = activityId ∧ a.captured
  some_left : ∃ a : EligibleAttempt auto, a.activityId = activityId ∧ ¬ a.captured
  stable : ∀ a b : EligibleAttempt auto, a.runId = b.runId → a.activityId = activityId →
    b.activityId = activityId → (a.captured ↔ b.captured)

/-- The attempts of one execution do get the same decision, on any worker. -/
theorem captured_stable {activityId : String} (a b : EligibleAttempt auto) (ha : a.activityId = activityId)
    (hb : b.activityId = activityId) : a.captured ↔ b.captured :=
  iff_of_eq (captured_factorsThrough (ha.trans hb.symm))

/-- **No sampling selects executions**, whatever the rate and the id: with one execution of the id, every
other is captured or left. -/
theorem not_selectsExecutions (auto : AutoCaptureConfig ρ ε) (activityId : String) :
    ¬ SelectsExecutions auto activityId := by
  rintro ⟨⟨a, ha, hcaptured⟩, ⟨b, hb, hleft⟩, -⟩
  exact hleft ((captured_stable a b ha hb).mp hcaptured)

end Attempts

/-- A quarter of what every activity returns. -/
def rememberQuarter : AutoCaptureConfig String Unit := { rememberAll with sampleRate := .finite (1 / 4) }

theorem first_activity_left (a : EligibleAttempt rememberQuarter) (h : a.activityId = "1") :
    ¬ a.captured := by
  rw [captured_iff]
  rintro ⟨hsample, -⟩
  have hleft : shouldSample rememberQuarter userInfo = false := by decide +kernel
  have hsame : shouldSample rememberQuarter a.info = shouldSample rememberQuarter userInfo :=
    shouldSample_congr h
  rw [hsame, hleft] at hsample
  simp at hsample

/-- The bucket of the first activity of every workflow is 0.583: a quarter of its executions is none of them. -/
theorem quarter_of_first_is_none : ¬ SelectsExecutions rememberQuarter "1" := by
  rintro ⟨⟨a, ha, hcaptured⟩, -, -⟩
  exact first_activity_left a ha hcaptured

end XmemoryTemporal.Interceptor.Sampling
