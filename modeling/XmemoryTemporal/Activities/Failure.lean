import XmemoryTemporal.Activities

/-! # What escapes an activity when the client fails

`raise … from None` in the handler leaves a failure without cause and without visible context, of one
of the package's types, under the fixed message of that type (`Sanitized`). The mapping runs inside the
handler: if it raises itself, its exception is raised in place of the sanitized one and shows the
client's exception as its context. That is so for an infinite retry hint, and only for it
(`fails_sanitized_iff`). -/

namespace XmemoryTemporal.Activities.Failure

open XmemoryTemporal.Python.Value XmemoryTemporal.Python.Time
open XmemoryTemporal.Config XmemoryTemporal.Dto XmemoryTemporal.Errors XmemoryTemporal.Activities

/-- The part of a raised exception that is serialized into history. -/
def failure (r : Raised) : PyError × Option ClientException × Option ClientException :=
  (r.error, r.cause, r.visibleContext)

/-- A typed failure with a fixed message, the two fields of its details, and nothing behind it. -/
def Sanitized (exc : ClientException) (r : Raised) : Prop :=
  ∃ e, failure r = (.applicationError e, none, none) ∧ e.type ∈ allTypes ∧
    e.message = messageOf e.type ∧
    e.details = [.dict [("code", PyVal.ofStr? (reportedCode exc)),
      ("status", PyVal.ofInt? (reportedStatus exc))]]

/-- Two exceptions that differ only in their text, their arguments and what they were raised from. -/
structure SameButText (exc exc' : ClientException) : Prop where
  classes : exc'.classes = exc.classes
  code : exc'.code = exc.code
  status : exc'.status = exc.status
  retryAfter : exc'.retryAfter = exc.retryAfter
  details : exc'.details = exc.details

theorem SameButText.symm {exc exc' : ClientException} (h : SameButText exc exc') :
    SameButText exc' exc :=
  ⟨h.classes.symm, h.code.symm, h.status.symm, h.retryAfter.symm, h.details.symm⟩

theorem SameButText.mapping {exc exc' : ClientException} (h : SameButText exc exc') :
    toApplicationError exc' = toApplicationError exc :=
  toApplicationError_congr h.classes h.code h.status h.retryAfter h.details

/-! ### The handler -/

theorem raiseFromNone_sanitized {exc : ClientException} {e : ApplicationError}
    (h : toApplicationError exc = .ok e) : Sanitized exc (raiseFromNone exc) := by
  obtain ⟨delay, rfl, -⟩ := toApplicationError_ok h
  have hlist := verdictOf_listed exc
  refine ⟨_, by simp [raiseFromNone, h, failure, Raised.visibleContext]; rfl, hlist.1, rfl, rfl⟩

theorem raiseFromNone_failure {exc exc' : ClientException} {e : ApplicationError}
    (h : toApplicationError exc = .ok e) (hs : SameButText exc exc') :
    failure (raiseFromNone exc') = failure (raiseFromNone exc) := by
  have h' : toApplicationError exc' = .ok e := hs.mapping.trans h
  simp [raiseFromNone, h, h', failure, Raised.visibleContext]

theorem raiseFromNone_leaks {exc : ClientException} {e : PyError}
    (h : toApplicationError exc = .error e) : (raiseFromNone exc).visibleContext = some exc := by
  simp [raiseFromNone, h, Raised.visibleContext]

theorem raiseFromNone_sanitized_iff (exc : ClientException) :
    Sanitized exc (raiseFromNone exc) ↔ ¬ (isApiError exc = true ∧ (retryHint exc).infinite = true) := by
  rw [← toApplicationError_error_iff]
  cases h : toApplicationError exc with
  | ok e => simp [raiseFromNone_sanitized h]
  | error e =>
    have hleak := raiseFromNone_leaks h
    simp only [Except.error.injEq, exists_eq', not_true_eq_false, iff_false]
    rintro ⟨e', he', -⟩
    have hctx := congrArg (fun f => f.2.2) he'
    simp [failure, hleak] at hctx

/-! ### The activities -/

section
variable (config : XmemoryConfig) (client : Client) (info : ActivityInfo)

/-- The attempt raises a sanitized failure, and the same one for every client that raises, at the same
call, an exception differing only in its text. -/
def FailsSanitized (req : Request) (call : ClientCall) (exc : ClientException) : Prop :=
  ∃ r, (runActivity config (some client) info req).outcome = .error r ∧ Sanitized exc r ∧
    ∀ (client' : Client) (exc' : ClientException), SameButText exc exc' →
      client'.answer call req = .error exc' →
        ∃ r', (runActivity config (some client') info req).outcome = .error r' ∧
          failure r' = failure r

theorem outcome_raised {T : ℚ} {req : Request} {exc : ClientException}
    (hT : clientTimeout config info = .ok T)
    (hexc : client.answer (req.call config T) req = .error exc) :
    (runActivity config (some client) info req).outcome = .error (raiseFromNone exc) := by
  rw [runActivity_called rfl hT, hexc]
  rfl

/-- **When no client failure escapes unsanitized**: unless the exception is an API error whose retry
hint is an infinite float. -/
theorem fails_sanitized_iff (T : ℚ) (req : Request) (exc : ClientException)
    (hT : clientTimeout config info = .ok T)
    (hexc : client.answer (req.call config T) req = .error exc) :
    FailsSanitized config client info req (req.call config T) exc ↔
      ¬ (isApiError exc = true ∧ (retryHint exc).infinite = true) := by
  have hout := outcome_raised config client info hT hexc
  constructor
  · rintro ⟨r, hr, hsan, -⟩
    rw [hout] at hr
    cases hr
    exact (raiseFromNone_sanitized_iff exc).mp hsan
  · intro hfin
    have hsan := (raiseFromNone_sanitized_iff exc).mpr hfin
    refine ⟨_, hout, hsan, fun client' exc' hsame hexc' => ?_⟩
    have hok : ∃ e, toApplicationError exc = .ok e := by
      rw [← toApplicationError_error_iff] at hfin
      cases h : toApplicationError exc with
      | ok e => exact ⟨e, rfl⟩
      | error e => exact absurd ⟨e, h⟩ hfin
    obtain ⟨e, he⟩ := hok
    exact ⟨_, outcome_raised config client' info hT hexc', raiseFromNone_failure he hsame⟩

end

/-- A client of which every call raises the same exception. -/
def failingClient (exc : ClientException) : Client where
  read _ := .error exc
  write _ := .error exc
  writeAsync _ := .error exc
  writeStatus _ := .error exc

/-- An attempt of the synchronous write with three minutes to close. -/
def writeInfo : ActivityInfo :=
  { activityType := activityWrite, activityId := "1"
    startToCloseTimeout := some (.ofSeconds 180 (by decide)), scheduleToCloseTimeout := none }

/-- A wrapped transport failure, its text naming an internal host. -/
def transportFailure : ClientException :=
  { classes := [.other "XmemoryAPIError"], code := .none, status := .none, retryAfter := .none,
    details := .none, message := "Connection error: host='internal-db.local' port=5432" }

/-- The failure of a write whose connection broke says nothing of the connection. -/
theorem fails_sanitized_transport :
    FailsSanitized {} (failingClient transportFailure) writeInfo (.write { text := "x" })
      ((Request.write { text := "x" }).call {} (clientTimeoutSeconds 180 5)) transportFailure := by
  have h180 : (Timedelta.ofSeconds 180 (by decide)).totalSeconds = 180 := by
    simp [Timedelta.totalSeconds, Timedelta.ofSeconds]; norm_num
  have hT : clientTimeout {} writeInfo = .ok (clientTimeoutSeconds 180 5) :=
    clientTimeout_ok_iff.mpr ⟨_, rfl, by rw [h180]; rfl⟩
  exact (fails_sanitized_iff {} (failingClient transportFailure) writeInfo _ (.write { text := "x" })
    transportFailure hT rfl).mpr (by decide)

/-- A rate limit whose details name an infinite number of seconds (the literal `1e999`). -/
def endlessLimit : ClientException :=
  { classes := [.other "XmemoryAPIError"], code := .value "RATE_LIMITED", status := .value 429,
    retryAfter := .none, details := .value (.dict [("retry_after_seconds", .float .posInf)]) }

/-- Such a limit escapes the write as Python's own error, with the client's exception in view. -/
theorem endless_hint_escapes :
    ∃ r, (runActivity {} (some (failingClient endlessLimit)) writeInfo (.write { text := "x" })).outcome =
        .error r ∧ r.error = .overflowError ∧ ¬ Sanitized endlessLimit r := by
  refine ⟨raiseFromNone endlessLimit, rfl, rfl, ?_⟩
  rw [raiseFromNone_sanitized_iff]
  exact fun h => h ⟨rfl, rfl⟩

end XmemoryTemporal.Activities.Failure
