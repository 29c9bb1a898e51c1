import XmemoryTemporal.Interceptor

/-! # Auto-capture and the deadlines of the activity

Capture runs inside the wrapped activity, so what it spends counts against that activity's deadline. The
budget is made of the time since the interceptor's own stamp: for the deadline of one attempt, which
Temporal too counts from its start, the clamp is right (`capture_fits_startToClose`). The deadline
`schedule_to_close` is counted from the scheduling of the activity, and the time before the attempt is no
part of the clamp: `respects_scheduleToClose_iff` says when it is kept nevertheless. -/

namespace XmemoryTemporal.Interceptor.Deadline

open XmemoryTemporal.Python.Value XmemoryTemporal.Python.Time
open XmemoryTemporal.Config XmemoryTemporal.Dto XmemoryTemporal.Errors XmemoryTemporal.Activities
open XmemoryTemporal.Interceptor

/-! ### The limit of an enqueue -/

/-- The seconds an enqueue is given when so many remain: the smaller of the two. -/
def limitOf (ceiling : PyFloat) (remaining : ℚ) : ℚ :=
  match ceiling with
  | .finite q => min q remaining
  | .posInf => remaining
  | _ => 0

theorem limitOf_le {ceiling : PyFloat} {remaining : ℚ} (h : 0 ≤ remaining) :
    limitOf ceiling remaining ≤ remaining := by
  cases ceiling with
  | finite q => exact min_le_right _ _
  | posInf => exact le_refl _
  | negInf => exact h
  | nan => exact h

theorem captureBudgetSeconds_spec {deadline elapsed : ℚ} {ceiling budget : PyFloat} {margin : ℤ}
    (h : captureBudgetSeconds deadline elapsed ceiling margin = some budget) :
    budget ≠ .posInf ∧ budget.toRat = limitOf ceiling (deadline - elapsed - margin) ∧
      PyFloat.le budget (.finite 0) = PyFloat.le ceiling (.finite 0) := by
  unfold captureBudgetSeconds at h
  by_cases hr : deadline - elapsed - margin ≤ 0
  · simp only [if_pos hr] at h
    simp at h
  simp only [if_neg hr, Option.some.injEq] at h
  subst h
  cases ceiling with
  | finite q =>
    by_cases hlt : deadline - elapsed - margin < q
    · have hq : ¬ q ≤ 0 := fun h => hr (hlt.le.trans h)
      have hmin : min q (deadline - elapsed - margin) = deadline - elapsed - margin := min_eq_right hlt.le
      simp [PyFloat.lt, PyFloat.le, PyFloat.toRat, limitOf, hlt, hr, hq, hmin]
    · have hmin : min q (deadline - elapsed - margin) = q := min_eq_left (not_lt.mp hlt)
      simp [PyFloat.lt, PyFloat.toRat, limitOf, hlt, hmin]
  | posInf => simp [PyFloat.lt, PyFloat.le, PyFloat.toRat, limitOf, hr]
  | negInf => simp [PyFloat.lt, PyFloat.toRat, limitOf]
  | nan => simp [PyFloat.lt, PyFloat.toRat, limitOf]

section Course
variable {ρ ε : Type} {config : XmemoryConfig} {auto : AutoCaptureConfig ρ ε} {info : ActivityInfo}

theorem captureBudget_spec {elapsed : ℚ} {budget : PyFloat} {D : Timedelta}
    (hD : closeTimeout info = some D) (h : captureBudget config auto info elapsed = some budget) :
    budget ≠ .posInf ∧ budget.toRat =
        limitOf auto.captureTimeoutSeconds (D.totalSeconds - elapsed - config.clientMarginSeconds) ∧
      PyFloat.le budget (.finite 0) = PyFloat.le auto.captureTimeoutSeconds (.finite 0) := by
  unfold captureBudget at h
  rw [hD] at h
  exact captureBudgetSeconds_spec h

/-- An enqueue that ends ends no earlier than it began. -/
def Timely (enqueue : WriteInput → Enqueue ε) : Prop :=
  ∀ input s, (enqueue input).seconds = some s → 0 ≤ s

theorem waitFor_seconds {timeout : PyFloat} (hpos : PyFloat.le timeout (.finite 0) = false)
    (hfin : timeout ≠ .posInf) (input : WriteInput) {enqueue : WriteInput → Enqueue ε} (h : Timely enqueue) :
    0 ≤ (waitFor timeout input enqueue).seconds ∧ (waitFor timeout input enqueue).seconds ≤ timeout.toRat := by
  have h0 : 0 ≤ timeout.toRat := by
    cases timeout with
    | finite q =>
      have hq : ¬ q ≤ 0 := by simpa [PyFloat.le] using hpos
      exact (not_le.mp hq).le
    | _ => exact le_refl _
  unfold waitFor
  rw [if_neg (by rw [hpos]; exact Bool.false_ne_true)]
  rcases hs : (enqueue input).seconds with _ | s
  · exact ⟨h0, le_refl _⟩
  by_cases hle : PyFloat.le (.finite s) timeout = true
  · simp only [hle, if_true]
    refine ⟨h input s hs, ?_⟩
    cases timeout with
    | finite q => simpa [PyFloat.le, PyFloat.toRat] using hle
    | posInf => exact absurd rfl hfin
    | negInf => simp [PyFloat.le] at hle
    | nan => simp [PyFloat.le] at hle
  · simp only [hle, Bool.false_eq_true, if_false]
    exact ⟨h0, le_refl _⟩

theorem waitFor_seconds_hanging {timeout : PyFloat} (hpos : PyFloat.le timeout (.finite 0) = false)
    (input : WriteInput) (enqueue : WriteInput → Enqueue ε) (h : (enqueue input).seconds = none) :
    (waitFor timeout input enqueue).seconds = timeout.toRat := by
  unfold waitFor
  rw [if_neg (by rw [hpos]; exact Bool.false_ne_true), h]

theorem waitFor_up {timeout : PyFloat} (h : PyFloat.le timeout (.finite 0) = true) (input : WriteInput)
    (enqueue : WriteInput → Enqueue ε) :
    waitFor timeout input enqueue = { events := [], outcome := .error .timeoutError } := by
  unfold waitFor
  rw [if_pos h]

/-! ### The course of an execution -/

/-- A capture waits for its enqueue for the limit its deadline leaves. -/
structure Waits (config : XmemoryConfig) (auto : AutoCaptureConfig ρ ε) (info : ActivityInfo)
    (enqueue : WriteInput → Enqueue ε) (elapsed : ℚ) (x : Execution ρ ε) (text : String)
    (budget : PyFloat) : Prop where
  budget_eq : captureBudget config auto info elapsed = some budget
  invoked : invocations x.events = invocations (waitFor budget (captureInput auto text) enqueue).events
  seconds : x.seconds = elapsed + (waitFor budget (captureInput auto text) enqueue).seconds

variable (config auto info) in
/-- **The course of an execution in time**: without a capture it is over when the activity and the
projection are, with one when the wait is. -/
theorem executeActivity_cases (enqueue : WriteInput → Enqueue ε) (wrapped : Except ε ρ)
    (ran projecting : ℚ) :
    let x := executeActivity config auto info enqueue wrapped ran projecting
    ((∀ text, ¬ Captures config auto info wrapped (ran + projecting) text) ∧ invocations x.events = [] ∧
        x.seconds = if projections x.events = [] then ran else ran + projecting) ∨
      (projections x.events ≠ [] ∧ ∃ text budget, Captures config auto info wrapped (ran + projecting) text ∧
        Waits config auto info enqueue (ran + projecting) x text budget) := by
  intro x
  rcases wrapped with e | result
  · refine Or.inl ⟨?_, rfl, rfl⟩
    rintro text ⟨⟨result, ⟨hreturned, -, -⟩, -⟩, -, -⟩
    simp at hreturned
  obtain ⟨rest, hrest, hevents⟩ := executeActivity_events config auto info enqueue result ran projecting
  have hseconds := executeActivity_seconds config auto info enqueue result ran projecting
  obtain ⟨hinvoked, hprojected⟩ :=
    warned_append hrest (maybeCapture config auto info enqueue result ran projecting).events
  rw [← hevents] at hinvoked hprojected
  rcases maybeCapture_cases config auto info enqueue result ran projecting with
    ⟨hno, h⟩ | ⟨he, hno, rest', outcome, hrest', h⟩ | ⟨text, budget, hcaptures, hbudget, h⟩
  · rw [h] at hinvoked hprojected hseconds
    refine Or.inl ⟨?_, hinvoked, ?_⟩
    · rintro text ⟨⟨result', he, -⟩, -, -⟩
      have hreturned := he.returned
      cases hreturned
      exact hno he
    · have hnil : projections x.events = [] := hprojected
      rw [if_pos hnil]
      exact hseconds.trans (add_zero ran)
  · rw [h] at hinvoked hprojected hseconds
    refine Or.inl ⟨hno, ?_, ?_⟩
    · rcases hrest' with rfl | rfl <;> exact hinvoked
    · have hne : projections x.events ≠ [] := by
        rw [hprojected]
        rcases hrest' with rfl | rfl <;> exact List.cons_ne_nil _ _
      rw [if_neg hne]
      exact hseconds
  · rw [h] at hinvoked hprojected hseconds
    refine Or.inr ⟨?_, text, budget, hcaptures, hbudget, hinvoked, ?_⟩
    · rw [hprojected]
      exact List.cons_ne_nil _ _
    · exact hseconds.trans (add_assoc _ _ _).symm

section Wait
variable {enqueue : WriteInput → Enqueue ε} {elapsed : ℚ} {x : Execution ρ ε} {text : String} {budget : PyFloat}

theorem Waits.up (hw : Waits config auto info enqueue elapsed x text budget)
    (hup : PyFloat.le budget (.finite 0) = true) : invocations x.events = [] := by
  rw [hw.invoked, waitFor_up hup]
  rfl

theorem Waits.running (hw : Waits config auto info enqueue elapsed x text budget)
    (hpos : PyFloat.le budget (.finite 0) = false) : invocations x.events ≠ [] := by
  rw [hw.invoked, waitFor_events hpos]
  exact List.cons_ne_nil _ _

theorem Waits.le_limit (hw : Waits config auto info enqueue elapsed x text budget) (htimely : Timely enqueue)
    (hinvoked : invocations x.events ≠ []) {D : Timedelta} (hD : closeTimeout info = some D) :
    elapsed ≤ x.seconds ∧ x.seconds ≤
      elapsed + limitOf auto.captureTimeoutSeconds (D.totalSeconds - elapsed - config.clientMarginSeconds) := by
  obtain ⟨hfin, hlimit, -⟩ := captureBudget_spec hD hw.budget_eq
  have hpos : PyFloat.le budget (.finite 0) = false := by
    by_contra hup
    exact hinvoked (hw.up (Bool.eq_true_of_not_eq_false hup))
  obtain ⟨h0, hle⟩ := waitFor_seconds hpos hfin (captureInput auto text) htimely
  rw [hlimit] at hle
  rw [hw.seconds]
  exact ⟨by linarith, by linarith⟩

end Wait

/-! ### The deadline of one attempt -/

/-- The gates before the deadline: the activity is eligible, and projected to a text. -/
structure Offers (auto : AutoCaptureConfig ρ ε) (info : ActivityInfo) (wrapped : Except ε ρ)
    (text : String) : Prop where
  projected : ∃ result, Eligible auto info wrapped result ∧
    auto.project info.activityType result = .ok (some text)
  nonempty : text ≠ ""

theorem captures_iff {wrapped : Except ε ρ} {elapsed : ℚ} {D : Timedelta} (hD : closeTimeout info = some D)
    (text : String) : Captures config auto info wrapped elapsed text ↔
      Offers auto info wrapped text ∧ elapsed < D.totalSeconds - config.clientMarginSeconds := by
  constructor
  · rintro ⟨hproject, hne, D', hD', hlt⟩
    rw [hD] at hD'
    cases hD'
    exact ⟨⟨hproject, hne⟩, by linarith⟩
  · rintro ⟨⟨hproject, hne⟩, hlt⟩
    exact ⟨hproject, hne, D, hD, by linarith⟩

theorem ne_noDeadline {T : ℚ} (hT : clientTimeout config info = .ok T) (bound : Option Client)
    (req : Request) {r : Raised} (h : (runActivity config bound info req).outcome = .error r) :
    r.error ≠ .applicationError (noDeadline info) := by
  rcases bound with _ | client
  · rw [runActivity_unbound] at h
    cases h
    intro he
    have htype : typeNotBound = typeNoDeadline := congrArg ApplicationError.type (PyError.applicationError.inj he)
    exact absurd htype (by decide)
  · rw [runActivity_called rfl hT] at h
    simp only at h
    rcases hanswer : client.answer (req.call config T) req with exc | output
    · rw [hanswer] at h
      cases h
      unfold raiseFromNone
      rcases hm : toApplicationError exc with e | e
      · rw [toApplicationError_overflow hm]
        simp
      · obtain ⟨delay, rfl, -⟩ := toApplicationError_ok hm
        intro he
        have hdetails := congrArg ApplicationError.details (PyError.applicationError.inj he)
        exact absurd hdetails (List.cons_ne_nil _ _)
    · rw [hanswer] at h
      cases h

theorem le_clientTimeoutSeconds {B elapsed : ℚ} {m : ℤ} (h0 : 0 ≤ elapsed) (h : elapsed < B - m) :
    B - elapsed - m ≤ clientTimeoutSeconds B m := by
  have hm : ¬ B ≤ m := by
    rw [not_le]
    linarith
  rw [clientTimeoutSeconds_eq, if_neg hm]
  linarith

section Fits
variable (config auto info)

/-- **Capture fits inside the deadline of the attempt.** -/
structure FitsInside (D : ℚ) (wrapped : Except ε ρ) (ran projecting : ℚ) (x : Execution ρ ε) : Prop where
  /-- An enqueue is attempted exactly when the time elapsed leaves any. -/
  attempted_iff : invocations x.events ≠ [] ↔
    (∃ text, Offers auto info wrapped text) ∧ ran + projecting < D - config.clientMarginSeconds
  /-- It adds at most the limit. -/
  adds : invocations x.events ≠ [] → ran + projecting ≤ x.seconds ∧ x.seconds ≤ ran + projecting +
    limitOf auto.captureTimeoutSeconds (D - (ran + projecting) - config.clientMarginSeconds)
  /-- So it is over the margin before the deadline. -/
  inTime : invocations x.events ≠ [] → x.seconds ≤ D - config.clientMarginSeconds ∧
    (0 ≤ config.clientMarginSeconds → x.seconds ≤ D)
  /-- Without one the activity returns when the projection has, if there was one. -/
  skipped : invocations x.events = [] → x.seconds = if projections x.events = [] then ran else ran + projecting
  /-- The call of the enqueue is given at least as long by the activity it is made through. -/
  binding : invocations x.events ≠ [] → ∀ client input, ∃ call,
    (runActivity config (some client) info (.writeStart input)).calls = [call] ∧
      limitOf auto.captureTimeoutSeconds (D - (ran + projecting) - config.clientMarginSeconds) ≤ call.timeout
  /-- And never fails for want of a deadline. -/
  deadline : invocations x.events ≠ [] → ∀ bound input r,
    (runActivity config bound info (.writeStart input)).outcome = .error r →
      r.error ≠ .applicationError (noDeadline info)

/-- **Capture fits inside `start_to_close`**, for every margin, positive ceiling and schedule of times. -/
theorem capture_fits_startToClose (D : Timedelta) (hD : 0 < D.micros)
    (hinfo : info.startToCloseTimeout = some D)
    (hceiling : PyFloat.lt (.finite 0) auto.captureTimeoutSeconds = true)
    (enqueue : WriteInput → Enqueue ε) (htimely : Timely enqueue) (wrapped : Except ε ρ)
    (ran projecting : ℚ) (hran : 0 ≤ ran) (hprojecting : 0 ≤ projecting) :
    FitsInside config auto info D.totalSeconds wrapped ran projecting
      (executeActivity config auto info enqueue wrapped ran projecting) := by
  have hclose := closeTimeout_startToClose hD hinfo
  have hT : clientTimeout config info = .ok _ := clientTimeout_ok_iff.mpr ⟨D, hclose, rfl⟩
  rcases executeActivity_cases config auto info enqueue wrapped ran projecting with
    ⟨hno, hnil, hseconds⟩ | ⟨-, text, budget, hcaptures, hw⟩
  · have hnot : ¬ ((∃ text, Offers auto info wrapped text) ∧
        ran + projecting < D.totalSeconds - config.clientMarginSeconds) := by
      rintro ⟨⟨text, hoffers⟩, hlt⟩
      exact hno text ((captures_iff hclose text).mpr ⟨hoffers, hlt⟩)
    exact {
      attempted_iff := iff_of_false (not_not.mpr hnil) hnot
      adds := fun h => absurd hnil h
      inTime := fun h => absurd hnil h
      skipped := fun _ => hseconds
      binding := fun h => absurd hnil h
      deadline := fun h => absurd hnil h }
  · obtain ⟨hoffers, hlt⟩ := (captures_iff hclose text).mp hcaptures
    have hinvoked := hw.running (captureBudget_pos hceiling hw.budget_eq)
    obtain ⟨hge, hle⟩ := hw.le_limit htimely hinvoked hclose
    have hleft : 0 ≤ D.totalSeconds - (ran + projecting) - config.clientMarginSeconds := by linarith
    have hlimit : limitOf auto.captureTimeoutSeconds _ ≤ _ := limitOf_le hleft
    have hend := hle.trans (add_le_add_right hlimit _)
    have hbinding := le_clientTimeoutSeconds (add_nonneg hran hprojecting) hlt
    exact {
      attempted_iff := iff_of_true hinvoked ⟨⟨text, hoffers⟩, hlt⟩
      adds := fun _ => ⟨hge, hle⟩
      inTime := fun _ => by
        refine ⟨by linarith, fun hM => ?_⟩
        have hM' : (0 : ℚ) ≤ config.clientMarginSeconds := by exact_mod_cast hM
        linarith
      skipped := fun h => absurd h hinvoked
      binding := fun _ client input => by
        refine ⟨Request.call config (clientTimeoutSeconds D.totalSeconds config.clientMarginSeconds)
          (.writeStart input), ?_, ?_⟩
        · rw [runActivity_called rfl hT]
        · rw [Request.call_timeout]
          exact hlimit.trans hbinding
      deadline := fun _ bound input r => ne_noDeadline hT bound (.writeStart input) }

/-! ### The deadline of the activity -/

/-- **Capture respects `schedule_to_close`**, counted from the scheduling `queued` seconds before the
attempt started: for an activity that returned before then, an enqueue that is attempted has ended by then. -/
def RespectsScheduleToClose (wrapped : Except ε ρ) (queued ran projecting : ℚ) : Prop :=
  ∀ S, info.scheduleToCloseTimeout = some S → queued + ran < S.totalSeconds →
    ∀ enqueue : WriteInput → Enqueue ε, Timely enqueue →
      let x := executeActivity config auto info enqueue wrapped ran projecting
      invocations x.events ≠ [] → queued + x.seconds ≤ S.totalSeconds

/-- An enqueue that never ends. -/
def hanging (_ : WriteInput) : Enqueue ε := { seconds := none, outcome := .ok { writeId := none } }

theorem hanging_timely : Timely (hanging : WriteInput → Enqueue ε) := by
  intro input s h
  simp [hanging] at h

theorem hanging_seconds {wrapped : Except ε ρ} {ran projecting : ℚ} {text : String} {D : Timedelta}
    (hcaptures : Captures config auto info wrapped (ran + projecting) text)
    (hD : closeTimeout info = some D) (hup : PyFloat.le auto.captureTimeoutSeconds (.finite 0) = false) :
    let x := executeActivity config auto info hanging wrapped ran projecting
    invocations x.events ≠ [] ∧ x.seconds = ran + projecting + limitOf auto.captureTimeoutSeconds
      (D.totalSeconds - (ran + projecting) - config.clientMarginSeconds) := by
  intro x
  rcases executeActivity_cases config auto info hanging wrapped ran projecting with
    ⟨hno, -⟩ | ⟨-, text', budget, -, hw⟩
  · exact absurd hcaptures (hno text)
  obtain ⟨-, hlimit, hle⟩ := captureBudget_spec hD hw.budget_eq
  have hpos := hle.trans hup
  refine ⟨hw.running hpos, ?_⟩
  have hwait : (waitFor budget (captureInput auto text') (hanging : WriteInput → Enqueue ε)).seconds =
      budget.toRat := waitFor_seconds_hanging hpos _ hanging rfl
  rw [← hlimit, ← hwait]
  exact hw.seconds

/-- **When capture respects `schedule_to_close`**: exactly when the activity is too late itself, nothing is
enqueued, or the limit, made of the time since the attempt started, ends before that deadline all the same. -/
theorem respects_scheduleToClose_iff (wrapped : Except ε ρ) (queued ran projecting : ℚ) (S D : Timedelta)
    (hS : info.scheduleToCloseTimeout = some S) (hD : closeTimeout info = some D) :
    RespectsScheduleToClose config auto info wrapped queued ran projecting ↔
      S.totalSeconds ≤ queued + ran ∨
        (∀ text, ¬ Captures config auto info wrapped (ran + projecting) text) ∨
        PyFloat.le auto.captureTimeoutSeconds (.finite 0) = true ∨
        queued + (ran + projecting) + limitOf auto.captureTimeoutSeconds
          (D.totalSeconds - (ran + projecting) - config.clientMarginSeconds) ≤ S.totalSeconds := by
  constructor
  · intro h
    rcases le_or_gt S.totalSeconds (queued + ran) with hlate | hreturned
    · exact Or.inl hlate
    right
    by_cases hcaptures : ∃ text, Captures config auto info wrapped (ran + projecting) text
    · right
      obtain ⟨text, hcaptures⟩ := hcaptures
      rcases hup : PyFloat.le auto.captureTimeoutSeconds (.finite 0) with _ | _
      · obtain ⟨hinvoked, hseconds⟩ := hanging_seconds config auto info hcaptures hD hup
        have hend := h S hS hreturned hanging hanging_timely hinvoked
        rw [hseconds] at hend
        exact Or.inr (by linarith)
      · exact Or.inl rfl
    · exact Or.inl (not_exists.mp hcaptures)
  · rintro h S' hS' hreturned enqueue htimely x hinvoked
    rw [hS] at hS'
    cases hS'
    rcases executeActivity_cases config auto info enqueue wrapped ran projecting with
      ⟨-, hnil, -⟩ | ⟨-, text, budget, hcaptures, hw⟩
    · exact absurd hnil hinvoked
    rcases h with hlate | hno | hup | hends
    · exact absurd hreturned (not_lt.mpr hlate)
    · exact absurd hcaptures (hno text)
    · obtain ⟨-, -, hle⟩ := captureBudget_spec hD hw.budget_eq
      exact absurd (hw.up (hle.trans hup)) hinvoked
    · have h1 := (hw.le_limit htimely hinvoked hD).2
      linarith

end Fits

end Course

/-- A minute to go, and an enqueue that never ends: it is attempted, and cut off after the 5 s of the
ceiling. -/
theorem capture_fits_startToClose_default :
    let x := executeActivity {} rememberAll userInfo hanging (.ok "hello") 1 0
    FitsInside {} rememberAll userInfo (Timedelta.ofSeconds 60 (by decide)).totalSeconds (.ok "hello") 1 0 x ∧
      invocations x.events ≠ [] ∧ x.seconds ≤ 6 := by
  intro x
  have h := capture_fits_startToClose {} rememberAll userInfo (.ofSeconds 60 (by decide)) (by decide) rfl
    (by decide) hanging hanging_timely (.ok "hello") 1 0 (by norm_num) (by norm_num)
  have hinvoked : invocations x.events ≠ [] := by
    refine h.attempted_iff.mpr ⟨⟨"hello", ⟨"hello", ⟨rfl, by decide, by decide⟩, rfl⟩, by decide⟩, ?_⟩
    norm_num [Timedelta.totalSeconds, Timedelta.ofSeconds, defaultClientMarginSeconds]
  have hends := (h.adds hinvoked).2
  norm_num [limitOf, rememberAll, Timedelta.totalSeconds, Timedelta.ofSeconds,
    defaultClientMarginSeconds] at hends
  exact ⟨h, hinvoked, hends⟩

/-- The activity of a user that has twelve seconds from its scheduling on. -/
def scheduledInfo : ActivityInfo :=
  { userInfo with startToCloseTimeout := none, scheduleToCloseTimeout := some (.ofSeconds 12 (by decide)) }

/-- Started after 2 s, within the margin, it is respected. -/
theorem respects_scheduleToClose_early :
    RespectsScheduleToClose {} rememberAll scheduledInfo (.ok "hello") 2 1 0 := by
  refine (respects_scheduleToClose_iff {} rememberAll scheduledInfo (.ok "hello") 2 1 0
    (.ofSeconds 12 (by decide)) (.ofSeconds 12 (by decide)) rfl rfl).mpr (Or.inr (Or.inr (Or.inr ?_)))
  norm_num [limitOf, rememberAll, Timedelta.totalSeconds, Timedelta.ofSeconds, defaultClientMarginSeconds]

/-- Started after 8 s and done at 9 s, it is held up by its capture until 14 s. -/
theorem capture_outlives_scheduleToClose :
    ¬ RespectsScheduleToClose {} rememberAll scheduledInfo (.ok "hello") 8 1 0 := by
  intro h
  have hreturned : (8 : ℚ) + 1 < (Timedelta.ofSeconds 12 (by decide)).totalSeconds := by
    norm_num [Timedelta.totalSeconds, Timedelta.ofSeconds]
  have hcaptures : Captures {} rememberAll scheduledInfo (.ok "hello") (1 + 0) "hello" := by
    refine ⟨⟨"hello", ⟨rfl, by decide, by decide⟩, rfl⟩, by decide, .ofSeconds 12 (by decide), rfl, ?_⟩
    norm_num [Timedelta.totalSeconds, Timedelta.ofSeconds, defaultClientMarginSeconds]
  obtain ⟨hinvoked, hseconds⟩ := hanging_seconds {} rememberAll scheduledInfo hcaptures rfl (by decide)
  have hend := h (.ofSeconds 12 (by decide)) rfl hreturned hanging hanging_timely hinvoked
  rw [hseconds] at hend
  norm_num [limitOf, rememberAll, Timedelta.totalSeconds, Timedelta.ofSeconds,
    defaultClientMarginSeconds] at hend

end XmemoryTemporal.Interceptor.Deadline
