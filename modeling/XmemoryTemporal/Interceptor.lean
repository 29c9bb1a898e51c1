import XmemoryTemporal.Activities
import XmemoryTemporal.Python.Zlib

/-! # Auto-capture of activity results

`executeActivity` wraps an activity: when it has returned, `maybeCapture` may enqueue a text made of its
result, and whatever comes of that is swallowed. The wrapped activity, the projection and the enqueue are
parameters: the first two answer or raise, the enqueue also takes its time, or never ends, and is cut off
by `asyncio.wait_for` (`waitFor`).

An execution is known by its events, its outcome and the seconds it took on the worker's clock. -/

namespace XmemoryTemporal.Interceptor

open XmemoryTemporal.Python.Value XmemoryTemporal.Python.Time XmemoryTemporal.Python.Zlib
open XmemoryTemporal.Config XmemoryTemporal.Dto XmemoryTemporal.Activities

/-- Never capture our own writes. -/
def ownActivityPrefix := "xmemory_"

/-- How to auto-capture activity results into memory. -/
structure AutoCaptureConfig (ρ ε : Type) where
  project : String → ρ → Except ε (Option String)
  sampleRate : PyFloat := .finite 1
  extractionLogic : String := "fast"
  captureTimeoutSeconds : PyFloat := .finite 5

/-- What the enqueue does once it is started: when it ends, if ever, and how. -/
structure Enqueue (ε : Type) where
  seconds : Option ℚ
  outcome : Except ε WriteStartOutput

/-- What capture does that can be seen from outside. -/
inductive Event where
  | projected (name : String)
  | writeStart (input : WriteInput)
  | deadlineSpent
  | captureSkipped

/-- What the handler of `execute_activity` catches. -/
inductive CaptureError (ε : Type) where
  | exception (e : ε)
  | timeoutError

/-- The course of a capture: its events, the seconds of its enqueue, and what it raised. -/
structure Capture (ε : Type) where
  events : List Event
  seconds : ℚ := 0
  outcome : Except (CaptureError ε) Unit

/-- The course of a wrapped activity. -/
structure Execution (ρ ε : Type) where
  events : List Event
  seconds : ℚ
  outcome : Except ε ρ

/-- Seconds capture may take, or `none` when it must be skipped. -/
def captureBudgetSeconds (deadline elapsed : ℚ) (ceiling : PyFloat) (margin : ℤ) : Option PyFloat :=
  let remaining := deadline - elapsed - margin
  if remaining ≤ 0 then none
  else some (if PyFloat.lt (.finite remaining) ceiling then .finite remaining else ceiling)

/-- Stable bucket for an activity id. -/
def samplingBucket (activityId : String) : PyFloat :=
  .finite (floatQuotient ((crc32 activityId.toUTF8.data.toList).toNat % 1000) 1000)

section Capture
variable {ρ ε : Type} (config : XmemoryConfig) (auto : AutoCaptureConfig ρ ε) (info : ActivityInfo)

def shouldSample : Bool :=
  if PyFloat.le (.finite 1) auto.sampleRate then true
  else if PyFloat.le auto.sampleRate (.finite 0) then false
  else PyFloat.lt (samplingBucket info.activityId) auto.sampleRate

/-- `name.startswith(_OWN_ACTIVITY_PREFIX)`. -/
def ownActivity (name : String) : Bool := ownActivityPrefix.toList.isPrefixOf name.toList

/-- The budget of a capture that starts so many seconds into the activity. -/
def captureBudget (elapsed : ℚ) : Option PyFloat :=
  match closeTimeout info with
  | none => none
  | some deadline =>
    captureBudgetSeconds deadline.totalSeconds elapsed auto.captureTimeoutSeconds config.clientMarginSeconds

/-- `asyncio.wait_for(write_start(input), timeout)`: a timeout that is not positive is up before the
enqueue starts. -/
def waitFor (timeout : PyFloat) (input : WriteInput) (enqueue : WriteInput → Enqueue ε) : Capture ε :=
  if PyFloat.le timeout (.finite 0) then { events := [], outcome := .error .timeoutError }
  else
    match (enqueue input).seconds with
    | none => { events := [.writeStart input], seconds := timeout.toRat, outcome := .error .timeoutError }
    | some s =>
      if PyFloat.le (.finite s) timeout then
        { events := [.writeStart input], seconds := s
          outcome := ((enqueue input).outcome.mapError .exception).map fun _ => () }
      else
        { events := [.writeStart input], seconds := timeout.toRat, outcome := .error .timeoutError }

/-- The input of a capture's enqueue. -/
def captureInput (text : String) : WriteInput :=
  { text, extractionLogic := some auto.extractionLogic }

/-- Capture the result of an activity that took `ran` seconds; the projection takes `projecting` more. -/
def maybeCapture (enqueue : WriteInput → Enqueue ε) (result : ρ) (ran projecting : ℚ) : Capture ε :=
  let name := info.activityType
  if ownActivity name then { events := [], outcome := .ok () }
  else if !shouldSample auto info then { events := [], outcome := .ok () }
  else
    match auto.project name result with
    | .error e =>
      { events := [.projected name], seconds := projecting, outcome := .error (.exception e) }
    | .ok text =>
      if text.getD "" = "" then { events := [.projected name], seconds := projecting, outcome := .ok () }
      else
        match captureBudget config auto info (ran + projecting) with
        | none =>
          { events := [.projected name, .deadlineSpent], seconds := projecting, outcome := .ok () }
        | some budget =>
          let c := waitFor budget (captureInput auto (text.getD "")) enqueue
          { events := .projected name :: c.events, seconds := projecting + c.seconds, outcome := c.outcome }

/-- The interceptor around an activity. -/
def executeActivity (enqueue : WriteInput → Enqueue ε) (wrapped : Except ε ρ) (ran projecting : ℚ) :
    Execution ρ ε :=
  match wrapped with
  | .error e => { events := [], seconds := ran, outcome := .error e }
  | .ok result =>
    let c := maybeCapture config auto info enqueue result ran projecting
    match c.outcome with
    | .ok () => { events := c.events, seconds := ran + c.seconds, outcome := .ok result }
    | .error _ =>
      { events := c.events ++ [.captureSkipped], seconds := ran + c.seconds, outcome := .ok result }

/-! ### The gates -/

/-- The wrapped activity returned, is not one of our own, and is sampled. -/
structure Eligible (wrapped : Except ε ρ) (result : ρ) : Prop where
  returned : wrapped = .ok result
  foreign : ownActivity info.activityType = false
  sampled : shouldSample auto info = true

/-- All gates of a capture: beyond `Eligible`, the projection returned a text, and there is a deadline
that leaves time. -/
structure Captures (wrapped : Except ε ρ) (elapsed : ℚ) (text : String) : Prop where
  projected : ∃ result, Eligible auto info wrapped result ∧
    auto.project info.activityType result = .ok (some text)
  nonempty : text ≠ ""
  deadline : ∃ D, closeTimeout info = some D ∧
    0 < D.totalSeconds - elapsed - config.clientMarginSeconds

variable {config auto info}

theorem captureBudgetSeconds_eq_none {deadline elapsed : ℚ} {ceiling : PyFloat} {margin : ℤ} :
    captureBudgetSeconds deadline elapsed ceiling margin = none ↔ deadline - elapsed - margin ≤ 0 := by
  unfold captureBudgetSeconds
  by_cases h : deadline - elapsed - margin ≤ 0
  · exact iff_of_true (if_pos h) h
  · refine iff_of_false ?_ h
    simp only [h, if_false]
    exact Option.some_ne_none _

theorem captureBudgetSeconds_pos {deadline elapsed : ℚ} {ceiling budget : PyFloat} {margin : ℤ}
    (hceiling : PyFloat.lt (.finite 0) ceiling = true)
    (h : captureBudgetSeconds deadline elapsed ceiling margin = some budget) :
    PyFloat.le budget (.finite 0) = false := by
  unfold captureBudgetSeconds at h
  by_cases hr : deadline - elapsed - margin ≤ 0
  · simp only [if_pos hr] at h
    simp at h
  · simp only [if_neg hr, Option.some.injEq] at h
    by_cases hlt : PyFloat.lt (.finite (deadline - elapsed - margin)) ceiling = true
    · rw [if_pos hlt] at h
      subst h
      simpa [PyFloat.le] using hr
    · rw [if_neg hlt] at h
      subst h
      cases ceiling with
      | finite q => simpa [PyFloat.le, PyFloat.lt] using hceiling
      | posInf => rfl
      | negInf => cases hceiling
      | nan => rfl

theorem captureBudget_eq_some {elapsed : ℚ} :
    (∃ budget, captureBudget config auto info elapsed = some budget) ↔
      ∃ D, closeTimeout info = some D ∧ 0 < D.totalSeconds - elapsed - config.clientMarginSeconds := by
  unfold captureBudget
  rcases hc : closeTimeout info with _ | D
  · simp
  · have hsome : (∃ budget, captureBudgetSeconds D.totalSeconds elapsed auto.captureTimeoutSeconds
        config.clientMarginSeconds = some budget) ↔ 0 < D.totalSeconds - elapsed - config.clientMarginSeconds := by
      rw [← Option.ne_none_iff_exists', ne_eq, captureBudgetSeconds_eq_none, not_le]
    simp only [hsome, Option.some.injEq, exists_eq_left']

theorem waitFor_events {timeout : PyFloat} (h : PyFloat.le timeout (.finite 0) = false)
    (input : WriteInput) (enqueue : WriteInput → Enqueue ε) :
    (waitFor timeout input enqueue).events = [.writeStart input] := by
  unfold waitFor
  rw [if_neg (by rw [h]; exact Bool.false_ne_true)]
  rcases (enqueue input).seconds with _ | s
  · rfl
  · by_cases hs : PyFloat.le (.finite s) timeout = true
    · simp only [hs, if_true]
    · simp only [hs, if_false, Bool.false_eq_true]

theorem captureBudget_pos {elapsed : ℚ} {budget : PyFloat}
    (hceiling : PyFloat.lt (.finite 0) auto.captureTimeoutSeconds = true)
    (h : captureBudget config auto info elapsed = some budget) : PyFloat.le budget (.finite 0) = false := by
  unfold captureBudget at h
  rcases hD : closeTimeout info with _ | D
  · rw [hD] at h
    simp at h
  · rw [hD] at h
    exact captureBudgetSeconds_pos hceiling h

variable (config auto info) in
/-- **Everything a capture can do**: stop before the projection, after it, or wait for the enqueue. -/
theorem maybeCapture_cases (enqueue : WriteInput → Enqueue ε) (result : ρ) (ran projecting : ℚ) :
    (¬ Eligible auto info (.ok result) result ∧
        maybeCapture config auto info enqueue result ran projecting = { events := [], outcome := .ok () }) ∨
      (Eligible auto info (.ok result) result ∧
        (∀ text, ¬ Captures config auto info (.ok result) (ran + projecting) text) ∧
        ∃ rest outcome, (rest = [] ∨ rest = [.deadlineSpent]) ∧
          maybeCapture config auto info enqueue result ran projecting =
            { events := .projected info.activityType :: rest, seconds := projecting, outcome }) ∨
      ∃ text budget, Captures config auto info (.ok result) (ran + projecting) text ∧
        captureBudget config auto info (ran + projecting) = some budget ∧
        maybeCapture config auto info enqueue result ran projecting =
          { events := .projected info.activityType ::
              (waitFor budget (captureInput auto text) enqueue).events
            seconds := projecting + (waitFor budget (captureInput auto text) enqueue).seconds
            outcome := (waitFor budget (captureInput auto text) enqueue).outcome } := by
  rcases hown : ownActivity info.activityType with _ | _
  swap
  · refine Or.inl ⟨fun h => ?_, ?_⟩
    · rw [h.foreign] at hown
      simp at hown
    · unfold maybeCapture
      simp only [hown, if_true]
  rcases hsample : shouldSample auto info with _ | _
  · refine Or.inl ⟨fun h => ?_, ?_⟩
    · rw [h.sampled] at hsample
      simp at hsample
    · unfold maybeCapture
      simp only [hown, hsample, Bool.not_false, if_true, Bool.false_eq_true, if_false]
  have heligible : Eligible auto info (.ok result) result := ⟨rfl, hown, hsample⟩
  have hgate : ∀ text, Captures config auto info (.ok result) (ran + projecting) text →
      auto.project info.activityType result = .ok (some text) := by
    rintro text ⟨⟨result', ⟨hreturned, -, -⟩, hproject⟩, -, -⟩
    cases hreturned
    exact hproject
  right
  unfold maybeCapture
  simp only [hown, hsample, Bool.not_true, Bool.false_eq_true, if_false]
  rcases hproject : auto.project info.activityType result with e | text
  · refine Or.inl ⟨heligible, fun text h => ?_, [], _, Or.inl rfl, rfl⟩
    rw [hgate text h] at hproject
    simp at hproject
  simp only
  by_cases hempty : text.getD "" = ""
  · refine Or.inl ⟨heligible, fun text' h => ?_, [], .ok (), Or.inl rfl, by simp only [hempty, if_true]⟩
    rw [hgate text' h] at hproject
    cases hproject
    exact h.nonempty hempty
  simp only [hempty, if_false]
  obtain ⟨text, rfl⟩ : ∃ t, text = some t := by
    rcases text with _ | t
    · exact absurd rfl hempty
    · exact ⟨t, rfl⟩
  rcases hbudget : captureBudget config auto info (ran + projecting) with _ | budget
  · refine Or.inl ⟨heligible, fun text' h => ?_, [.deadlineSpent], _, Or.inr rfl, rfl⟩
    obtain ⟨budget, hb⟩ := captureBudget_eq_some.mpr h.deadline
    rw [hb] at hbudget
    simp at hbudget
  · have hdeadline := captureBudget_eq_some.mp ⟨budget, hbudget⟩
    exact Or.inr ⟨text, budget, ⟨⟨result, heligible, hproject⟩, hempty, hdeadline⟩, rfl, rfl⟩

theorem executeActivity_outcome (enqueue : WriteInput → Enqueue ε) (wrapped : Except ε ρ)
    (ran projecting : ℚ) :
    (executeActivity config auto info enqueue wrapped ran projecting).outcome = wrapped := by
  rcases wrapped with e | result
  · rfl
  · unfold executeActivity
    simp only
    rcases (maybeCapture config auto info enqueue result ran projecting).outcome with e | ⟨⟩ <;> rfl

variable (config auto info) in
theorem executeActivity_events (enqueue : WriteInput → Enqueue ε) (result : ρ) (ran projecting : ℚ) :
    ∃ rest, (rest = [] ∨ rest = [.captureSkipped]) ∧
      (executeActivity config auto info enqueue (.ok result) ran projecting).events =
        (maybeCapture config auto info enqueue result ran projecting).events ++ rest := by
  unfold executeActivity
  simp only
  rcases (maybeCapture config auto info enqueue result ran projecting).outcome with e | ⟨⟩
  · exact ⟨[.captureSkipped], Or.inr rfl, rfl⟩
  · exact ⟨[], Or.inl rfl, (List.append_nil _).symm⟩

variable (config auto info) in
theorem executeActivity_seconds (enqueue : WriteInput → Enqueue ε) (result : ρ) (ran projecting : ℚ) :
    (executeActivity config auto info enqueue (.ok result) ran projecting).seconds =
      ran + (maybeCapture config auto info enqueue result ran projecting).seconds := by
  unfold executeActivity
  simp only
  rcases (maybeCapture config auto info enqueue result ran projecting).outcome with e | ⟨⟩ <;> rfl

end Capture

/-- The inputs the enqueue was invoked with. -/
def invocations (events : List Event) : List WriteInput :=
  events.filterMap fun e => match e with
    | .writeStart input => some input
    | _ => none

/-- The activities the projection was called for. -/
def projections (events : List Event) : List String :=
  events.filterMap fun e => match e with
    | .projected name => some name
    | _ => none

theorem warned_append {rest : List Event} (h : rest = [] ∨ rest = [.captureSkipped]) (events : List Event) :
    invocations (events ++ rest) = invocations events ∧
      projections (events ++ rest) = projections events := by
  unfold invocations projections
  rcases h with rfl | rfl
  · rw [List.append_nil]
    exact ⟨rfl, rfl⟩
  · rw [List.filterMap_append, List.filterMap_append]
    exact ⟨List.append_nil _, List.append_nil _⟩

theorem Captures.unique {ρ ε : Type} {config : XmemoryConfig} {auto : AutoCaptureConfig ρ ε}
    {info : ActivityInfo} {wrapped : Except ε ρ} {elapsed : ℚ} {text text' : String}
    (h : Captures config auto info wrapped elapsed text)
    (h' : Captures config auto info wrapped elapsed text') : text = text' := by
  obtain ⟨⟨result, ⟨hreturned, -, -⟩, hproject⟩, -, -⟩ := h
  obtain ⟨⟨result', ⟨hreturned', -, -⟩, hproject'⟩, -, -⟩ := h'
  rw [hreturned] at hreturned'
  cases hreturned'
  rw [hproject] at hproject'
  cases hproject'
  rfl

/-- **Auto-capture is invisible, and enqueues exactly when it should**: at most once, the projected text with
the configured extraction logic. -/
theorem capture_invisible {ρ ε : Type} (config : XmemoryConfig) (auto : AutoCaptureConfig ρ ε)
    (info : ActivityInfo) (enqueue : WriteInput → Enqueue ε) (wrapped : Except ε ρ)
    (ran projecting : ℚ) (hceiling : PyFloat.lt (.finite 0) auto.captureTimeoutSeconds = true) :
    let x := executeActivity config auto info enqueue wrapped ran projecting
    x.outcome = wrapped ∧
    (invocations x.events).length ≤ 1 ∧
    (∀ input, input ∈ invocations x.events ↔
      ∃ text, Captures config auto info wrapped (ran + projecting) text ∧
        input = { text := text, extractionLogic := some auto.extractionLogic, diffEngine := none,
                  structuredMutations := none }) ∧
    ((∀ result, ¬ Eligible auto info wrapped result) → projections x.events = []) ∧
    (projections x.events).length ≤ 1 := by
  intro x
  refine ⟨executeActivity_outcome enqueue wrapped ran projecting, ?_⟩
  rcases wrapped with e | result
  · have hnone : ∀ text, ¬ Captures config auto info (.error e : Except ε ρ) (ran + projecting) text := by
      rintro text ⟨⟨result, ⟨hreturned, -, -⟩, -⟩, -, -⟩
      simp at hreturned
    refine ⟨Nat.zero_le 1, fun input => iff_of_false (List.not_mem_nil) ?_, fun _ => rfl, Nat.zero_le 1⟩
    rintro ⟨text, h, -⟩
    exact hnone text h
  obtain ⟨rest, hrest, hevents⟩ :=
    executeActivity_events config auto info enqueue result ran projecting
  have hx : x.events = (maybeCapture config auto info enqueue result ran projecting).events ++ rest := hevents
  obtain ⟨hinvoked, hprojected⟩ :=
    warned_append hrest (maybeCapture config auto info enqueue result ran projecting).events
  rw [hx, hinvoked, hprojected]
  rcases maybeCapture_cases config auto info enqueue result ran projecting with
    ⟨hno, h⟩ | ⟨he, hno, rest', _, hrest', h⟩ | ⟨text, budget, hcaptures, hbudget, h⟩
  · rw [h]
    refine ⟨Nat.zero_le 1, fun input => iff_of_false (List.not_mem_nil) ?_, fun _ => rfl, Nat.zero_le 1⟩
    rintro ⟨text, ⟨⟨result', he, -⟩, -, -⟩, -⟩
    have hreturned := he.returned
    cases hreturned
    exact hno he
  · rw [h]
    have hnone : invocations (.projected info.activityType :: rest') = [] := by
      rcases hrest' with rfl | rfl <;> rfl
    have hone : projections (.projected info.activityType :: rest') = [info.activityType] := by
      rcases hrest' with rfl | rfl <;> rfl
    rw [hnone, hone]
    refine ⟨Nat.zero_le 1, fun input => iff_of_false (List.not_mem_nil) ?_, fun hall => absurd he (hall result),
      le_refl 1⟩
    rintro ⟨text, hc, -⟩
    exact hno text hc
  · rw [h]
    simp only [waitFor_events (captureBudget_pos hceiling hbudget)]
    obtain ⟨result', he, -⟩ := hcaptures.projected
    refine ⟨le_refl 1, fun input => ⟨fun hmem => ?_, ?_⟩, fun hall => absurd he (hall result'), le_refl 1⟩
    · exact ⟨text, hcaptures, List.mem_singleton.mp hmem⟩
    · rintro ⟨text', hcaptures', rfl⟩
      rw [hcaptures'.unique hcaptures]
      exact List.mem_singleton.mpr rfl

/-- Remember the result of every activity. -/
def rememberAll : AutoCaptureConfig String Unit := { project := fun _ result => .ok (some result) }

/-- An activity of a user, with a minute to go. -/
def userInfo : ActivityInfo :=
  { activityType := "user_activity", activityId := "1"
    startToCloseTimeout := some (.ofSeconds 60 (by decide)), scheduleToCloseTimeout := none }

/-- Its result is enqueued, even if the enqueue never ends. -/
theorem capture_invisible_default :
    { text := "hello", extractionLogic := some "fast" } ∈ invocations (executeActivity {} rememberAll userInfo
      (fun _ => { seconds := none, outcome := .error () }) (.ok "hello") 1 0).events := by
  have h := capture_invisible {} rememberAll userInfo (fun _ => { seconds := none, outcome := .error () })
    (.ok "hello") 1 0 (by decide)
  refine (h.2.2.1 _).mpr ⟨"hello", ⟨⟨"hello", ⟨rfl, by decide, by decide⟩, rfl⟩, by decide, ?_⟩, rfl⟩
  refine ⟨.ofSeconds 60 (by decide), rfl, ?_⟩
  norm_num [Timedelta.totalSeconds, Timedelta.ofSeconds, defaultClientMarginSeconds]

end XmemoryTemporal.Interceptor
