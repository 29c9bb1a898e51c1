import XmemoryTemporal.Durable.Turn

/-! # The retry contract

`Produced` are the application errors of all raise sites: the mapping of client exceptions, the two
checks of an attempt, and the three failures of `write_durable`. Each of them is non-retryable exactly
when its type is one of the published `nonRetryableTypes`, and has a delay only when it is retryable.

An API error with a code is judged by its code, its details and its retry hint, whatever its status; one
without a code by its status alone. -/

namespace XmemoryTemporal.ErrorContract

open XmemoryTemporal.Python.Value XmemoryTemporal.Python.Time XmemoryTemporal.Lib.Loop
open XmemoryTemporal.Config XmemoryTemporal.Dto XmemoryTemporal.Errors XmemoryTemporal.Activities
open XmemoryTemporal.WorkflowApi XmemoryTemporal.Durable.Turn

/-- The application errors the package raises, by where it raises them. -/
inductive Produced : ApplicationError → Prop where
  | mapped (exc : ClientException) (e : ApplicationError) :
      toApplicationError exc = .ok e → Produced e
  | unbound (bound : Option Client) (e : ApplicationError) :
      instanceOf bound = .error (.applicationError e) → Produced e
  | noDeadline (config : XmemoryConfig) (info : ActivityInfo) (e : ApplicationError) :
      clientTimeout config info = .error (.applicationError e) → Produced e
  | durable (x : WorkflowXmemory) (a : DurableArgs) (now : Datetime) (start : WriteStartOutput)
      (polls : List Poll) (e : ApplicationError) :
      (writeDurable x a now start polls).outcome = some (.error (.applicationError e)) → Produced e

/-- The verdict is the published one, and a delay is for the retryable errors. -/
structure Contract (e : ApplicationError) : Prop where
  verdict : e.nonRetryable = true ↔ e.type ∈ nonRetryableTypes
  delay : ∀ d, e.nextRetryDelay = some d →
    e.nonRetryable = false ∧ 0 < d.micros ∧ d.micros ≤ 3600 * 1000000

/-! ### The raise sites -/

theorem contract_build {v : String × Bool} (hv : Listed v) {code : Option String} {status : Option ℤ}
    {delay : Option Timedelta} (hd : ∀ d, delay = some d → 0 < d.micros ∧ d.micros ≤ 3600 * 1000000) :
    Contract (build v.1 v.2 code status delay) := by
  refine ⟨?_, fun d h => ?_⟩
  · show (!v.2) = true ↔ v.1 ∈ nonRetryableTypes
    rw [← hv.2, Bool.not_eq_true']
  · by_cases hretry : v.2 = true
    · have hdelay : delay = some d := by
        have h' : (if v.2 = true then delay else none) = some d := h
        rwa [if_pos hretry] at h'
      refine ⟨?_, hd d hdelay⟩
      show (!v.2) = false
      rw [hretry]
      rfl
    · have h' : (if v.2 = true then delay else none) = some d := h
      rw [if_neg hretry] at h'
      cases h'

theorem contract_mapped {exc : ClientException} {e : ApplicationError}
    (h : toApplicationError exc = .ok e) : Contract e := by
  obtain ⟨delay, rfl, hd⟩ := toApplicationError_ok h
  exact contract_build (verdictOf_listed exc) hd

theorem contract_nonRetryable {e : ApplicationError} (hn : e.nonRetryable = true)
    (ht : e.type ∈ nonRetryableTypes) (hd : e.nextRetryDelay = none) : Contract e := by
  refine ⟨⟨fun _ => ht, fun _ => hn⟩, fun d h => ?_⟩
  rw [hd] at h
  simp at h

theorem contract_unbound {bound : Option Client} {e : ApplicationError}
    (h : instanceOf bound = .error (.applicationError e)) : Contract e := by
  rcases bound with _ | client
  · cases h
    exact contract_nonRetryable rfl (show typeNotBound ∈ nonRetryableTypes by decide) rfl
  · cases h

theorem contract_noDeadline {config : XmemoryConfig} {info : ActivityInfo} {e : ApplicationError}
    (h : clientTimeout config info = .error (.applicationError e)) : Contract e := by
  rcases hc : closeTimeout info with _ | B
  · rw [clientTimeout_noDeadline config hc] at h
    cases h
    exact contract_nonRetryable rfl (show typeNoDeadline ∈ nonRetryableTypes by decide) rfl
  · rw [clientTimeout_ok_iff.mpr ⟨B, hc, rfl⟩] at h
    simp at h

theorem contract_turn {x : WorkflowXmemory} {l : PollLoop} {p : Poll} {t : PollTurn}
    {o : Except PyError WriteStatusOutput} (h : durableTurn x l p = (t, .stop o)) :
    ∀ e, o = .error (.applicationError e) → Contract e := by
  rintro e rfl
  obtain ⟨log, hc | hc | hc | hc | hc⟩ := turn_cases x l p
  · rw [hc.2] at h
    simp at h
  · rw [hc.2] at h
    cases h
    exact contract_nonRetryable rfl (show typeWriteFailed ∈ nonRetryableTypes by decide) rfl
  · rw [hc.2] at h
    cases h
    exact contract_nonRetryable rfl (show typeWriteNotFound ∈ nonRetryableTypes by decide) rfl
  · obtain ⟨-, -, e', hg, hbody⟩ := hc
    rw [hbody] at h
    cases h
    rcases hg with ⟨-, he⟩ | ⟨-, he⟩
    · cases he
      exact contract_nonRetryable rfl (show typeWriteTimeout ∈ nonRetryableTypes by decide) rfl
    · simp at he
  · obtain ⟨-, -, l', -, hbody⟩ := hc
    rw [hbody] at h
    simp at h

theorem contract_durable {x : WorkflowXmemory} {a : DurableArgs} {now : Datetime}
    {start : WriteStartOutput} {polls : List Poll} {e : ApplicationError}
    (h : (writeDurable x a now start polls).outcome = some (.error (.applicationError e))) :
    Contract e := by
  unfold writeDurable at h
  rcases hl : pollLoop a now start with err | l
  · have herr : err = .overflowError := by
      unfold pollLoop at hl
      rcases hd : now.add a.maxWait with _ | deadline <;> rw [hd] at hl <;> cases hl
      rfl
    rw [hl, herr] at h
    simp at h
  · rw [hl] at h
    exact outcome_of_stops (L := durableLoop x) (Q := fun o => ∀ e, o = .error (.applicationError e) → Contract e)
      (fun s p t o hbody => contract_turn hbody) h e rfl

/-- **Every raise site keeps the contract.** -/
theorem contract_of_produced {e : ApplicationError} (h : Produced e) : Contract e := by
  cases h with
  | mapped exc e h => exact contract_mapped h
  | unbound bound e h => exact contract_unbound h
  | noDeadline config info e h => exact contract_noDeadline h
  | durable x a now start polls e h => exact contract_durable h

/-! ### What the judgement of an API error depends on -/

/-- The codes the mapping knows. -/
def knownCodes : List String :=
  "QUOTA_EXCEEDED" :: "RATE_LIMITED" :: "NOT_FOUND" ::
    (retryableCodes ++ authCodes ++ badRequestCodes ++ exhaustedCodes ++ schemaCodes)

/-- What a retry policy sees of a failure. -/
def judgement (e : ApplicationError) : String × Bool × Option Timedelta :=
  (e.type, e.nonRetryable, e.nextRetryDelay)

section Api
variable {exc exc' : ClientException}

theorem retryDelay_congr (hr : exc'.retryAfter = exc.retryAfter) (hd : exc'.details = exc.details) :
    retryDelay exc' = retryDelay exc := by
  simp only [retryDelay, retryHint, detailsOf, hr, hd]

theorem apiVerdict_congr {c : String} (hc : exc.code = .value c) (hc' : exc'.code = .value c)
    (hd : exc'.details = exc.details) : apiVerdict exc' = apiVerdict exc := by
  have hquota : quotaVerdict exc' = quotaVerdict exc := by
    unfold quotaVerdict quotaKind detailsOf
    rw [hd]
  unfold apiVerdict
  rw [hc, hc', hquota]
  rfl

theorem apiVerdict_codeless (hc : exc.code = .none) :
    apiVerdict exc = verdictFromStatus (exc.status.getattr none) := by
  simp only [apiVerdict, hc, Attr.getattr]

theorem apiVerdict_unknown {c : String} (hc : exc.code = .value c) (hk : c ∉ knownCodes) :
    apiVerdict exc = (typeUnknown, true) := by
  simp only [knownCodes, List.mem_cons, List.mem_append, not_or] at hk
  obtain ⟨hquota, hrate, hfound, hrest⟩ := hk
  obtain ⟨⟨⟨⟨hretry, hauth⟩, hbad⟩, hexhausted⟩, hschema⟩ := hrest
  simp only [apiVerdict, hc, Attr.getattr]
  rw [if_neg hquota, if_neg hrate, if_neg hretry, if_neg hauth, if_neg hfound, if_neg hbad,
    if_neg hexhausted, if_neg hschema]

theorem judgement_api (hapi : isApiError exc = true) :
    (toApplicationError exc).map judgement = (retryDelay exc).map fun delay =>
      ((apiVerdict exc).1, !(apiVerdict exc).2, if (apiVerdict exc).2 then delay else none) := by
  unfold toApplicationError
  rw [if_pos hapi]
  rcases retryDelay exc with e | delay <;> rfl

theorem verdict_api {e : ApplicationError} (hapi : isApiError exc = true)
    (h : toApplicationError exc = .ok e) :
    e.type = (apiVerdict exc).1 ∧ e.nonRetryable = !(apiVerdict exc).2 := by
  obtain ⟨delay, rfl, -⟩ := toApplicationError_ok h
  have hv : verdictOf exc = apiVerdict exc := by
    unfold verdictOf
    rw [if_pos hapi]
  rw [hv]
  exact ⟨rfl, rfl⟩

end Api

/-- **The published retry contract holds at every raise site**, and no type has two verdicts. The mapping
succeeds on every exception but an API error with an infinite hint. With a code, what a retry policy sees
of an API error is the same for every status, and a code outside the vocabulary is retryable; without a
code, type and verdict are those of the status. -/
theorem retry_contract :
    (∀ e, Produced e → Contract e) ∧
    (∀ e e', Produced e → Produced e' → e.type = e'.type → e.nonRetryable = e'.nonRetryable) ∧
    (∀ exc, (isApiError exc = true → (retryHint exc).infinite = false) →
      ∃ e, toApplicationError exc = .ok e) ∧
    (∀ exc exc' c, isApiError exc = true → isApiError exc' = true → exc.code = .value c →
      exc'.code = .value c → exc'.details = exc.details → exc'.retryAfter = exc.retryAfter →
      (toApplicationError exc').map judgement = (toApplicationError exc).map judgement) ∧
    (∀ exc c e, isApiError exc = true → exc.code = .value c → c ∉ knownCodes →
      toApplicationError exc = .ok e → e.type = typeUnknown ∧ e.nonRetryable = false) ∧
    ∀ exc exc' e e', isApiError exc = true → isApiError exc' = true → exc.code = .none →
      exc'.code = .none → exc'.status = exc.status → toApplicationError exc = .ok e →
      toApplicationError exc' = .ok e' → e'.type = e.type ∧ e'.nonRetryable = e.nonRetryable := by
  refine ⟨fun e => contract_of_produced, fun e e' he he' ht => ?_, fun exc hfinite => ?_,
    fun exc exc' c hapi hapi' hc hc' hd hr => ?_, fun exc c e hapi hc hk h => ?_,
    fun exc exc' e e' hapi hapi' hc hc' hs h h' => ?_⟩
  · have hv := (contract_of_produced he).verdict
    have hv' := (contract_of_produced he').verdict
    rw [← ht, ← hv] at hv'
    exact (Bool.eq_iff_iff.mpr hv').symm
  · rcases hm : toApplicationError exc with err | e
    · obtain ⟨hapi, hinf⟩ := (toApplicationError_error_iff exc).mp ⟨err, hm⟩
      rw [hfinite hapi] at hinf
      simp at hinf
    · exact ⟨e, rfl⟩
  · rw [judgement_api hapi, judgement_api hapi', retryDelay_congr hr hd, apiVerdict_congr hc hc' hd]
  · obtain ⟨ht, hn⟩ := verdict_api hapi h
    rw [apiVerdict_unknown hc hk] at ht hn
    exact ⟨ht, hn⟩
  · obtain ⟨ht, hn⟩ := verdict_api hapi h
    obtain ⟨ht', hn'⟩ := verdict_api hapi' h'
    rw [apiVerdict_codeless hc] at ht hn
    rw [apiVerdict_codeless hc', hs] at ht' hn'
    exact ⟨ht'.trans ht.symm, hn'.trans hn.symm⟩

end XmemoryTemporal.ErrorContract
