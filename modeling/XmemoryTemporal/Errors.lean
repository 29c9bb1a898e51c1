import XmemoryTemporal.Python.Value
import XmemoryTemporal.Python.Time
import Mathlib.Data.List.Basic

/-! # Translating client errors into Temporal failures

`toApplicationError` maps whatever the client raised onto an `ApplicationError` with a retryability
verdict: by the structured code of an API error (`apiVerdict`), by its HTTP status where it has no
code (`verdictFromStatus`), by its class where it is no API error at all. The server's retry hint
becomes the delay (`retryDelay`).

`verdictOf_listed` is the contract of the verdicts: an exception is not retried exactly when its type is
one of the published `nonRetryableTypes`. -/

namespace XmemoryTemporal.Errors

open XmemoryTemporal.Python.Value XmemoryTemporal.Python.Time

/-! ### Stable `type=` strings -/

def typeUnavailable := "XmemoryUnavailable"
def typeServerError := "XmemoryServerError"
def typeRateLimited := "XmemoryRateLimited"
def typeDailyQuotaExceeded := "XmemoryDailyQuotaExceeded"
def typeMonthlyQuotaExceeded := "XmemoryMonthlyQuotaExceeded"
def typeQuotaExceeded := "XmemoryQuotaExceeded"
def typeAuthFailed := "XmemoryAuthFailed"
def typeNotFound := "XmemoryNotFound"
def typeBadRequest := "XmemoryBadRequest"
def typeSchemaRejected := "XmemorySchemaRejected"
def typeWriteFailed := "XmemoryWriteFailed"
def typeWriteNotFound := "XmemoryWriteNotFound"
def typeWriteTimeout := "XmemoryWriteTimeout"
def typeNotBound := "XmemoryNotBound"
def typeNoDeadline := "XmemoryNoDeadline"
def typeUnknown := "XmemoryUnknown"

/-- All the `TYPE_` strings of the package. -/
def allTypes : List String :=
  [typeUnavailable, typeServerError, typeRateLimited, typeDailyQuotaExceeded,
    typeMonthlyQuotaExceeded, typeQuotaExceeded, typeAuthFailed, typeNotFound, typeBadRequest,
    typeSchemaRejected, typeWriteFailed, typeWriteNotFound, typeWriteTimeout, typeNotBound,
    typeNoDeadline, typeUnknown]

def nonRetryableTypes : List String :=
  [typeMonthlyQuotaExceeded, typeQuotaExceeded, typeAuthFailed, typeNotFound, typeBadRequest,
    typeSchemaRejected, typeWriteFailed, typeWriteNotFound, typeWriteTimeout, typeNotBound,
    typeNoDeadline]

/-- Fixed, history-safe messages. -/
def messages : List (String × String) :=
  [(typeUnavailable, "xmemory is unreachable"),
    (typeServerError, "xmemory returned a server error"),
    (typeRateLimited, "xmemory rate-limited the request"),
    (typeDailyQuotaExceeded, "xmemory daily quota exceeded"),
    (typeMonthlyQuotaExceeded, "xmemory monthly quota exceeded"),
    (typeQuotaExceeded, "xmemory quota exceeded"),
    (typeAuthFailed, "xmemory rejected the credentials"),
    (typeNotFound, "xmemory resource not found"),
    (typeBadRequest, "xmemory rejected the request as invalid"),
    (typeSchemaRejected, "xmemory rejected the schema change"),
    (typeUnknown, "xmemory returned an unrecognized error")]

/-- The fixed message of a type. -/
def messageOf (errorType : String) : String :=
  (messages.lookup errorType).getD "xmemory request failed"

/-! ### Server error codes -/

def retryableCodes : List String := ["INTERNAL_ERROR", "SERVICE_UNAVAILABLE"]
def authCodes : List String := ["UNAUTHORIZED", "FORBIDDEN"]
def badRequestCodes : List String :=
  ["VALIDATION_ERROR", "INVALID_INPUT", "ALREADY_EXISTS", "CONFLICT"]
def exhaustedCodes : List String := ["MAX_RETRIES_EXCEEDED"]
def schemaCodes : List String :=
  ["stale_proposal_version", "stale_schema_version", "dependency_closure_failed",
    "destructive_confirmation_required", "non_additive_change_requires_plan",
    "migration_not_found", "instance_not_initialised"]

def dailyQuotaKind := "daily_quota_exceeded"
def monthlyQuotaKind := "monthly_quota_exceeded"

/-- Upper bound on a server-supplied retry hint. -/
def maxRetryDelaySeconds : ℕ := 3600

/-! ### Exceptions and failures -/

/-- The exception classes the mapping asks about; any other is known by its name. -/
inductive PyClass where
  | transportError
  | asyncioTimeoutError
  | connectionError
  | timeoutError
  | validationError
  | valueError
  | typeError
  | other (name : String)
  deriving DecidableEq

/-- An exception a client call raised: the classes it is an instance of, the attributes the mapping
probes, and what it carries besides (its text, its arguments and the exceptions it was raised from). -/
structure ClientException where
  classes : List PyClass
  code : Attr String := .missing
  status : Attr ℤ := .missing
  retryAfter : Attr PyVal := .missing
  details : Attr PyVal := .missing
  message : String := ""
  args : List PyVal := []
  cause : List (PyClass × String) := []

/-- `isinstance(exc, cs)`. -/
def ClientException.isinstance (exc : ClientException) (cs : List PyClass) : Bool :=
  cs.any fun c => c ∈ exc.classes

/-- Temporal's `ApplicationError`. -/
structure ApplicationError where
  message : String
  details : List PyVal := []
  type : String
  nonRetryable : Bool
  nextRetryDelay : Option Timedelta := none

/-- What a piece of the program can raise: a typed failure, or Python's own `OverflowError`. -/
inductive PyError where
  | applicationError (e : ApplicationError)
  | overflowError

/-! ### The mapping -/

/-- `getattr(exc, "details", None) or {}`. -/
def detailsOf (exc : ClientException) : PyVal :=
  let details := (exc.details.getattr none).getD .none
  if details.truthy then details else .dict []

/-- The server's hint, if any: the attribute, or else the entry of the details. -/
def retryHint (exc : ClientException) : PyVal :=
  match (exc.retryAfter.getattr none).getD .none with
  | .none =>
    match detailsOf exc with
    | .dict items => PyVal.getKey items "retry_after_seconds"
    | _ => .none
  | seconds => seconds

/-- `timedelta(seconds=min(value, _MAX_RETRY_DELAY_SECONDS))`. -/
def clampedDelay (value : ℤ) : Timedelta :=
  Timedelta.ofSeconds (min value.toNat maxRetryDelaySeconds)
    (by unfold maxRetryDelaySeconds; omega)

/-- Prefer the server's own hint over blind exponential backoff. Only the two errors of the `except`
clause are caught; an `OverflowError` of `int` gets out. -/
def retryDelay (exc : ClientException) : Except PyError (Option Timedelta) :=
  match retryHint exc with
  | .none => .ok none
  | seconds =>
    match intOf seconds with
    | .error .typeError => .ok none
    | .error .valueError => .ok none
    | .error .overflowError => .error .overflowError
    | .ok value => .ok (if value ≤ 0 then none else some (clampedDelay value))

/-- `details.get("kind") if isinstance(details, dict) else None`. -/
def quotaKind (exc : ClientException) : PyVal :=
  match detailsOf exc with
  | .dict items => PyVal.getKey items "kind"
  | _ => .none

/-- Split `QUOTA_EXCEEDED` by which window was exhausted. -/
def quotaVerdict (exc : ClientException) : String × Bool :=
  match quotaKind exc with
  | .str kind =>
    if kind = dailyQuotaKind then (typeDailyQuotaExceeded, true)
    else if kind = monthlyQuotaKind then (typeMonthlyQuotaExceeded, false)
    else (typeQuotaExceeded, false)
  | _ => (typeQuotaExceeded, false)

def build (errorType : String) (retryable : Bool) (code : Option String := none)
    (status : Option ℤ := none) (delay : Option Timedelta := none) : ApplicationError :=
  { message := messageOf errorType
    details := [.dict [("code", PyVal.ofStr? code), ("status", PyVal.ofInt? status)]]
    type := errorType
    nonRetryable := !retryable
    nextRetryDelay := if retryable then delay else none }

/-- Match by attribute shape rather than by class. -/
def isApiError (exc : ClientException) : Bool :=
  exc.code.hasattr && exc.status.hasattr && exc.retryAfter.hasattr

def verdictFromStatus : Option ℤ → String × Bool
  | none => (typeUnavailable, true)
  | some status =>
    if status = 408 ∨ 500 ≤ status then (typeServerError, true)
    else if status = 429 then (typeRateLimited, true)
    else if status ∈ [401, 403] then (typeAuthFailed, false)
    else if status = 404 then (typeNotFound, false)
    else if 400 ≤ status ∧ status < 500 then (typeBadRequest, false)
    else (typeUnknown, true)

/-- The type and verdict of an API error. -/
def apiVerdict (exc : ClientException) : String × Bool :=
  match exc.code.getattr none with
  | some code =>
    if code = "QUOTA_EXCEEDED" then quotaVerdict exc
    else if code = "RATE_LIMITED" then (typeRateLimited, true)
    else if code ∈ retryableCodes then (typeServerError, true)
    else if code ∈ authCodes then (typeAuthFailed, false)
    else if code = "NOT_FOUND" then (typeNotFound, false)
    else if code ∈ badRequestCodes then (typeBadRequest, false)
    else if code ∈ exhaustedCodes then (typeWriteFailed, false)
    else if code ∈ schemaCodes then (typeSchemaRejected, false)
    else (typeUnknown, true)
  | none => verdictFromStatus (exc.status.getattr none)

/-- The type and verdict of anything else: a transport failure, or a request that never left. -/
def otherVerdict (exc : ClientException) : String × Bool :=
  if exc.isinstance [.transportError, .asyncioTimeoutError, .connectionError, .timeoutError] then
    (typeUnavailable, true)
  else if exc.isinstance [.validationError, .valueError, .typeError] then (typeBadRequest, false)
  else (typeUnknown, true)

/-- Map any client-raised exception onto a Temporal `ApplicationError`. -/
def toApplicationError (exc : ClientException) : Except PyError ApplicationError :=
  if isApiError exc then
    match retryDelay exc with
    | .ok delay =>
      .ok (build (apiVerdict exc).1 (apiVerdict exc).2 (exc.code.getattr none)
        (exc.status.getattr none) delay)
    | .error e => .error e
  else .ok (build (otherVerdict exc).1 (otherVerdict exc).2)

/-! ### Every verdict agrees with the published list -/

/-- A type and its verdict, as the published list has it. -/
def Listed (v : String × Bool) : Prop := v.1 ∈ allTypes ∧ (v.2 = false ↔ v.1 ∈ nonRetryableTypes)

instance (v : String × Bool) : Decidable (Listed v) := by unfold Listed; infer_instance

theorem quotaVerdict_listed (exc : ClientException) : Listed (quotaVerdict exc) := by
  unfold quotaVerdict
  split
  · split_ifs <;> decide
  · decide

theorem verdictFromStatus_listed (status : Option ℤ) : Listed (verdictFromStatus status) := by
  unfold verdictFromStatus
  split
  · decide
  · split_ifs <;> decide

theorem apiVerdict_listed (exc : ClientException) : Listed (apiVerdict exc) := by
  unfold apiVerdict
  split
  · split_ifs
    · exact quotaVerdict_listed exc
    all_goals decide
  · exact verdictFromStatus_listed _

theorem otherVerdict_listed (exc : ClientException) : Listed (otherVerdict exc) := by
  unfold otherVerdict
  split_ifs <;> decide

/-- The verdict of any exception. -/
def verdictOf (exc : ClientException) : String × Bool :=
  if isApiError exc then apiVerdict exc else otherVerdict exc

theorem verdictOf_listed (exc : ClientException) : Listed (verdictOf exc) := by
  unfold verdictOf
  split_ifs
  · exact apiVerdict_listed exc
  · exact otherVerdict_listed exc

/-! ### What the mapping produces -/

theorem clampedDelay_micros {value : ℤ} (h : 0 < value) :
    0 < (clampedDelay value).micros ∧ (clampedDelay value).micros ≤ 3600 * 1000000 := by
  simp only [clampedDelay, Timedelta.ofSeconds, maxRetryDelaySeconds]
  omega

theorem retryDelay_pos {exc : ClientException} {d : Timedelta} (h : retryDelay exc = .ok (some d)) :
    0 < d.micros ∧ d.micros ≤ 3600 * 1000000 := by
  unfold retryDelay at h
  split at h
  · simp at h
  · split at h
    · simp at h
    · simp at h
    · simp at h
    · split_ifs at h with hv
      · simp at h
      · cases h; exact clampedDelay_micros (not_le.mp hv)

theorem retryDelay_error_iff (exc : ClientException) :
    (∃ e, retryDelay exc = .error e) ↔ (retryHint exc).infinite = true := by
  rw [← intOf_overflow_iff]
  unfold retryDelay
  split
  · next h => simp [h, intOf]
  · split <;> simp_all

/-- **The mapping succeeds** unless it must make a delay of an infinite hint. -/
theorem toApplicationError_error_iff (exc : ClientException) :
    (∃ e, toApplicationError exc = .error e) ↔
      isApiError exc = true ∧ (retryHint exc).infinite = true := by
  rw [← retryDelay_error_iff]
  unfold toApplicationError
  split_ifs with h
  · cases hd : retryDelay exc <;> simp [h]
  · simp [h]

theorem toApplicationError_overflow {exc : ClientException} {e : PyError}
    (h : toApplicationError exc = .error e) : e = .overflowError := by
  unfold toApplicationError at h
  split_ifs at h
  rcases hd : retryDelay exc with err | delay
  · rw [hd] at h
    cases h
    unfold retryDelay at hd
    split at hd
    · simp at hd
    · split at hd <;> cases hd
      rfl
  · rw [hd] at h
    simp at h

/-- The code an error is reported with: a stranger's attributes are not passed on. -/
def reportedCode (exc : ClientException) : Option String :=
  if isApiError exc then exc.code.getattr none else none

/-- The status an error is reported with. -/
def reportedStatus (exc : ClientException) : Option ℤ :=
  if isApiError exc then exc.status.getattr none else none

/-- **What the mapping produces**: the verdict of the exception, under its fixed message, with a delay
only where the verdict is to retry. -/
theorem toApplicationError_ok {exc : ClientException} {e : ApplicationError}
    (h : toApplicationError exc = .ok e) :
    ∃ delay, e = build (verdictOf exc).1 (verdictOf exc).2 (reportedCode exc) (reportedStatus exc) delay ∧
      ∀ d, delay = some d → 0 < d.micros ∧ d.micros ≤ 3600 * 1000000 := by
  unfold toApplicationError at h
  unfold verdictOf reportedCode reportedStatus
  split_ifs at h ⊢ with hapi
  · split at h
    · next delay hd =>
      cases h
      exact ⟨delay, rfl, fun d hdel => retryDelay_pos (hdel ▸ hd)⟩
    · simp at h
  · cases h
    exact ⟨none, rfl, fun d hdel => by cases hdel⟩

theorem toApplicationError_congr {exc exc' : ClientException} (h : exc'.classes = exc.classes)
    (hc : exc'.code = exc.code) (hs : exc'.status = exc.status)
    (hr : exc'.retryAfter = exc.retryAfter) (hd : exc'.details = exc.details) :
    toApplicationError exc' = toApplicationError exc := by
  cases exc; cases exc'
  simp only at h hc hs hr hd
  subst h hc hs hr hd
  rfl

end XmemoryTemporal.Errors
