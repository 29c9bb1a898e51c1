import XmemoryTemporal.Activities

/-! # Who gives up first: the client or Temporal

Temporal abandons an attempt `B` seconds after it started it; the client ends a call at the latest
`T` seconds after the call began. With `T < B` there is room between the two (`endsInTime_of_lt`): a
call that begins within it is over before the attempt is abandoned, so the calls of two successive
attempts do not overlap (`disjoint_of_endsInTime`).

`client_gives_up_first_iff` says when this holds of an activity: the margin must be positive and the
deadline above the 0.1 s at which the client budget stops shrinking. `lowered_with_deadline_iff` compares
two activities: when the one with the earlier deadline gives its client no more time than the other. That
turns on the rounding of the floats, which the model of the attempts leaves out: `clientTimeout_near` says by
how much it is off. -/

namespace XmemoryTemporal.Activities.Timeout

open XmemoryTemporal.Python.Value XmemoryTemporal.Python.Time
open XmemoryTemporal.Config XmemoryTemporal.Dto XmemoryTemporal.Errors XmemoryTemporal.Activities

/-! ### Attempts in time -/

/-- The times of one attempt: it is started at `started`, its client call begins `lag` later and takes
`spent`, all in seconds. -/
structure Times where
  started : ℚ
  lag : ℚ
  spent : ℚ
  lag_nonneg : 0 ≤ lag

def Times.callBegin (a : Times) : ℚ := a.started + a.lag
def Times.callEnd (a : Times) : ℚ := a.callBegin + a.spent

/-- A call that is cut off by the client timeout `T` and begins within `room` of its attempt. -/
def Times.Within (room T : ℚ) (a : Times) : Prop := a.spent ≤ T ∧ a.lag < room

/-- The call of every such attempt is over when Temporal abandons the attempt. -/
def EndsInTime (room B T : ℚ) : Prop :=
  ∀ a : Times, a.Within room T → a.callEnd < a.started + B

/-- The next attempt starts when this one has reported, after its call, or is abandoned; its call then
begins after the call of this one has ended. -/
def Disjoint (room B T : ℚ) : Prop :=
  ∀ a₁ a₂ : Times, a₁.Within room T → a₁.callEnd ≤ a₂.started ∨ a₁.started + B ≤ a₂.started →
    a₁.callEnd ≤ a₂.callBegin

theorem endsInTime_of_lt {B T : ℚ} : EndsInTime (B - T) B T := by
  rintro a ⟨hs, hl⟩
  unfold Times.callEnd Times.callBegin
  linarith

theorem disjoint_of_endsInTime {room B T : ℚ} (h : EndsInTime room B T) : Disjoint room B T := by
  intro a₁ a₂ hw hnext
  have h1 := h a₁ hw
  have h2 : a₂.started ≤ a₂.callBegin := by
    have h3 := a₂.lag_nonneg
    unfold Times.callBegin
    linarith
  rcases hnext with h | h
  · exact h.trans h2
  · linarith

/-! ### The budget of an activity -/

/-- **The client gives up before Temporal does**: the attempt makes one call, the timeout passed with
it is positive and below the deadline, and there is room for its calls to end in time and so not to
overlap. -/
def ClientGivesUpFirst (B : ℚ) (calls : List ClientCall) : Prop :=
  ∃ call, calls = [call] ∧ 0 < call.timeout ∧ call.timeout < B ∧
    ∃ room > 0, EndsInTime room B call.timeout ∧ Disjoint room B call.timeout

theorem clientGivesUpFirst_iff {B : ℚ} (call : ClientCall) :
    ClientGivesUpFirst B [call] ↔ 0 < call.timeout ∧ call.timeout < B := by
  constructor
  · rintro ⟨c, hc, h0, hB, -⟩
    cases hc
    exact ⟨h0, hB⟩
  · rintro ⟨h0, hB⟩
    have hend : EndsInTime (B - call.timeout) B call.timeout := endsInTime_of_lt
    exact ⟨call, rfl, h0, hB, B - call.timeout, sub_pos.mpr hB, hend, disjoint_of_endsInTime hend⟩

theorem calls_closeTimeout (config : XmemoryConfig) (client : Client) {info : ActivityInfo}
    {B : Timedelta} (hinfo : closeTimeout info = some B) (req : Request) :
    (runActivity config (some client) info req).calls =
      [req.call config (clientTimeoutSeconds B.totalSeconds config.clientMarginSeconds)] := by
  have hT : clientTimeout config info = .ok _ := clientTimeout_ok_iff.mpr ⟨B, hinfo, rfl⟩
  rw [runActivity_called rfl hT]

theorem calls_startToClose (config : XmemoryConfig) (client : Client) {info : ActivityInfo}
    {B : Timedelta} (hB : 0 < B.micros) (hinfo : info.startToCloseTimeout = some B) (req : Request) :
    (runActivity config (some client) info req).calls =
      [req.call config (clientTimeoutSeconds B.totalSeconds config.clientMarginSeconds)] :=
  calls_closeTimeout config client (closeTimeout_startToClose hB hinfo) req

/-- **When the client gives up first**: exactly for a positive margin and a deadline above 0.1 s. -/
theorem client_gives_up_first_iff (config : XmemoryConfig) (client : Client) (info : ActivityInfo)
    (B : Timedelta) (hB : 0 < B.micros) (hinfo : info.startToCloseTimeout = some B) (req : Request) :
    ClientGivesUpFirst B.totalSeconds (runActivity config (some client) info req).calls ↔
      0 < config.clientMarginSeconds ∧ 100000 < B.micros := by
  rw [calls_startToClose config client hB hinfo req, clientGivesUpFirst_iff, Request.call_timeout,
    clientTimeoutSeconds_between_iff (Timedelta.totalSeconds_pos hB)]
  have h : (1 : ℚ) / 10 < B.totalSeconds ↔ 100000 < B.micros := by
    rw [← Timedelta.lt_totalSeconds_iff (d := B) (n := 100000)]
    norm_num
  rw [h]

/-- A client that never fails, and an attempt with a deadline. -/
def idleClient : Client where
  read _ := .ok ⟨.missing, .missing, .missing⟩
  write _ := .ok ⟨.value "w1", .missing, .missing⟩
  writeAsync _ := .ok ⟨.value "w1"⟩
  writeStatus _ := .ok ⟨.value "w1", .value (.member "completed"), .missing, .missing, .missing, .missing⟩

def infoOf (req : Request) (B : Timedelta) : ActivityInfo :=
  { activityType := req.activity, activityId := "1", startToCloseTimeout := some B,
    scheduleToCloseTimeout := none }

theorem client_gives_up_first_default :
    ClientGivesUpFirst 30
      (runActivity {} (some idleClient) (infoOf (.writeStart {}) (.ofSeconds 30 (by decide)))
        (.writeStart {})).calls := by
  have h := (client_gives_up_first_iff {} idleClient (infoOf (.writeStart {}) (.ofSeconds 30 (by decide)))
    (.ofSeconds 30 (by decide)) (by decide) rfl (.writeStart {})).mpr ⟨by decide, by decide⟩
  have h30 : (Timedelta.ofSeconds 30 (by decide)).totalSeconds = 30 := by
    simp [Timedelta.totalSeconds, Timedelta.ofSeconds]; norm_num
  rwa [h30] at h

/-- A deadline of 50 ms under the default margin: the client is given 0.1 s, twice as long. -/
theorem client_outlives_short_deadline :
    ∃ B : Timedelta, 0 < B.micros ∧
      ¬ ClientGivesUpFirst B.totalSeconds
        (runActivity {} (some idleClient) (infoOf (.writeStart {}) B) (.writeStart {})).calls := by
  refine ⟨⟨50000, by decide, by decide⟩, by decide, fun h => ?_⟩
  rw [calls_startToClose {} idleClient (by decide) rfl, clientGivesUpFirst_iff,
    Request.call_timeout, clientTimeoutSeconds_between_iff (Timedelta.totalSeconds_pos (by decide))] at h
  have h2 := h.2
  norm_num [Timedelta.totalSeconds] at h2

/-! ### Two deadlines -/

/-- **The client's budget is lowered with the workflow's**: two attempts derive budgets for their calls, in
floating point, and that of the first is at most as long as that of the second. -/
def LoweredTogether (config : XmemoryConfig) (info₁ info₂ : ActivityInfo) : Prop :=
  ∃ T₁ T₂, clientTimeoutBy binary64 config info₁ = .ok T₁ ∧ clientTimeoutBy binary64 config info₂ = .ok T₂ ∧
    T₁ ≤ T₂

theorem clientTimeoutBy_eq {config : XmemoryConfig} {info : ActivityInfo} {B : Timedelta}
    (h : closeTimeout info = some B) (fl : ℚ → ℚ) : clientTimeoutBy fl config info =
      .ok (clientTimeoutSecondsBy fl (fl B.totalSeconds) config.clientMarginSeconds) := by
  unfold clientTimeoutBy
  rw [h]

theorem loweredTogether_iff {config : XmemoryConfig} {info₁ info₂ : ActivityInfo} {B₁ B₂ : Timedelta}
    (h₁ : closeTimeout info₁ = some B₁) (h₂ : closeTimeout info₂ = some B₂) :
    LoweredTogether config info₁ info₂ ↔
      clientTimeoutSecondsBy binary64 (binary64 B₁.totalSeconds) config.clientMarginSeconds ≤
        clientTimeoutSecondsBy binary64 (binary64 B₂.totalSeconds) config.clientMarginSeconds := by
  constructor
  · rintro ⟨T₁, T₂, hT₁, hT₂, h⟩
    rw [clientTimeoutBy_eq h₁] at hT₁
    rw [clientTimeoutBy_eq h₂] at hT₂
    cases hT₁
    cases hT₂
    exact h
  · exact fun h => ⟨_, _, clientTimeoutBy_eq h₁ binary64, clientTimeoutBy_eq h₂ binary64, h⟩

theorem clientTimeout_near {config : XmemoryConfig} {info : ActivityInfo} {B : Timedelta}
    (h : closeTimeout info = some B) (hB : 0 < B.micros) (hlt : B.micros < 2 ^ 32 * 1000000)
    (hm : 0 ≤ config.clientMarginSeconds) :
    ∃ T T', clientTimeoutBy binary64 config info = .ok T ∧ clientTimeout config info = .ok T' ∧
      |T - T'| ≤ (B.totalSeconds + 1) / 2 ^ 51 :=
  ⟨_, _, clientTimeoutBy_eq h binary64, clientTimeoutBy_eq h id, clientTimeoutFloat_near B hB hlt hm⟩

/-- **When an earlier deadline lowers the client's budget**: exactly when the margin does not separate
the two deadlines, or the later one exceeds it by 0.1 s and by four fifths of the earlier, all as floats. -/
theorem lowered_with_deadline_iff (config : XmemoryConfig) (info₁ info₂ : ActivityInfo) (B₁ B₂ : Timedelta)
    (hpos : 0 < B₁.micros) (hle : B₁.micros ≤ B₂.micros) (h₁ : closeTimeout info₁ = some B₁)
    (h₂ : closeTimeout info₂ = some B₂) :
    LoweredTogether config info₁ info₂ ↔
      binary64 B₂.totalSeconds ≤ config.clientMarginSeconds ∨
        config.clientMarginSeconds < binary64 B₁.totalSeconds ∨
        (config.clientMarginSeconds + binary64 (1 / 10) ≤ binary64 B₂.totalSeconds ∧
          config.clientMarginSeconds + binary64 (binary64 B₁.totalSeconds * binary64 (4 / 5)) ≤
            binary64 B₂.totalSeconds) := by
  rw [loweredTogether_iff h₁ h₂]
  exact clientTimeoutFloat_le_iff (Timedelta.totalSeconds_pos hpos) (Timedelta.totalSeconds_le hle)
    B₂.totalSeconds_lt config.clientMarginSeconds

/-- From 30 s to 10 s under the default margin: both are beyond it. -/
theorem lowered_with_deadline_default :
    LoweredTogether {} (infoOf (.writeStart {}) (.ofSeconds 10 (by decide)))
      (infoOf (.writeStart {}) (.ofSeconds 30 (by decide))) := by
  refine (lowered_with_deadline_iff {} (infoOf (.writeStart {}) (.ofSeconds 10 (by decide)))
    (infoOf (.writeStart {}) (.ofSeconds 30 (by decide))) (.ofSeconds 10 (by decide))
    (.ofSeconds 30 (by decide)) (by decide) (by decide) rfl rfl).mpr ?_
  right; left
  decide +kernel

/-- From 5.5 s to 5 s under the default margin: the client, given 0.5 s before, is now given 4 s. -/
theorem raised_across_margin :
    ∃ B₁ B₂ : Timedelta, 0 < B₁.micros ∧ B₁.micros ≤ B₂.micros ∧
      ¬ LoweredTogether {} (infoOf (.writeStart {}) B₁) (infoOf (.writeStart {}) B₂) := by
  refine ⟨⟨5000000, by decide, by decide⟩, ⟨5500000, by decide, by decide⟩, by decide, by decide,
    fun h => ?_⟩
  rw [loweredTogether_iff rfl rfl] at h
  exact absurd h (by decide +kernel)

end XmemoryTemporal.Activities.Timeout
