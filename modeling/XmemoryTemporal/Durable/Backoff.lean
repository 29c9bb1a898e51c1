import XmemoryTemporal.Durable.Deadline
import XmemoryTemporal.Lib.CappedGrowth

/-! # The waits of the poll loop

The delays in force grow by half, rounded to whole microseconds, up to the cap (`Lib.CappedGrowth`); the
first one is not capped. `TakesAtLeast` says which polls fit a run in time. Whatever the polls, the waits
keep to the cap and do not fall, if the first delay is within the cap or no timer is ever set
(`waits_bounded_iff`). -/

namespace XmemoryTemporal.Durable.Backoff

open XmemoryTemporal.Python.Time XmemoryTemporal.Lib.HalfEven XmemoryTemporal.Lib.CappedGrowth
open XmemoryTemporal.Lib.Loop XmemoryTemporal.Dto XmemoryTemporal.WorkflowApi
open XmemoryTemporal.Durable.Turn XmemoryTemporal.Durable.Outcome XmemoryTemporal.Durable.Deadline

/-! ### Half as much again -/

/-- `delay * 1.5` in whole microseconds. -/
def halfMore (d : ℤ) : ℤ := divRound (d * 3) 2

theorem le_halfMore (d : ℤ) (h : 0 ≤ d) : d ≤ halfMore d := le_divRound (by omega) (by omega)

/-- Even a single microsecond grows: its half is rounded up, to the even neighbour. -/
theorem lt_halfMore (d : ℤ) (h : 0 < d) : d < halfMore d := by
  rcases eq_or_ne d 1 with rfl | hne
  · decide
  · exact Int.add_one_le_iff.mp (le_divRound (by omega) (by omega))

theorem backoff_eq_capped (first cap : ℤ) (k : ℕ) : backoff first cap k = capped halfMore cap first k := by
  induction k with
  | zero => rfl
  | succ k ih =>
    show min (divRound (backoff first cap k * 3) 2) cap = min (halfMore _) cap
    rw [ih]
    rfl

section Delays
variable {a : DurableArgs}

theorem min_le_delayAt (hfirst : 0 ≤ a.firstDelay.micros) (hcap : 0 ≤ a.cap.micros) (k : ℕ) :
    min a.firstDelay.micros a.cap.micros ≤ delayAt a k := by
  unfold delayAt
  rw [backoff_eq_capped]
  exact min_le_capped le_halfMore hfirst hcap k

theorem delayAt_le_cap (h : a.firstDelay.micros ≤ a.cap.micros) (k : ℕ) : delayAt a k ≤ a.cap.micros := by
  unfold delayAt
  rw [backoff_eq_capped]
  exact capped_le h k

theorem delayAt_mono (hfirst : 0 ≤ a.firstDelay.micros) (h : a.firstDelay.micros ≤ a.cap.micros) {j k : ℕ}
    (hjk : j ≤ k) : delayAt a j ≤ delayAt a k := by
  unfold delayAt
  rw [backoff_eq_capped, backoff_eq_capped]
  exact capped_mono le_halfMore hfirst h hjk

theorem delayAt_reaches (hfirst : 0 < a.firstDelay.micros) (hcap : 0 ≤ a.cap.micros) :
    ∃ K, ∀ k, K ≤ k → delayAt a k = a.cap.micros := by
  obtain ⟨K, hK⟩ := capped_reaches le_halfMore lt_halfMore hfirst hcap
  refine ⟨K, fun k hk => ?_⟩
  unfold delayAt
  rw [backoff_eq_capped]
  exact hK k hk

end Delays

/-! ### Runs in time -/

/-- Polls of a run in which each takes at least `e` microseconds of workflow time and no timer fires
early. -/
structure TakesAtLeast (a : DurableArgs) (now : Datetime) (e : ℚ) (polls : List Poll) : Prop where
  first : ∀ p, polls[0]? = some p → (now.micros : ℚ) + e ≤ p.arrived.micros
  next : ∀ k p q, polls[k]? = some p → polls[k + 1]? = some q →
    (p.arrived.micros : ℚ) + delayAt a k + e ≤ q.arrived.micros

/-- The `k`-th timer of a run, which turn `k` sets. -/
def TimerAt (r : DurableRun) (k : ℕ) (d : Timedelta) : Prop :=
  ∃ t, r.turns[k]? = some t ∧ t.timer = some d

section Timers
variable {x : WorkflowXmemory} {a : DurableArgs} {now : Datetime} {start : WriteStartOutput}
  {polls : List Poll} {k : ℕ} {d : Timedelta}

theorem turns_of_not_date (hD : ¬ IsDate (deadlineOf a now)) :
    (writeDurable x a now start polls).turns = [] := by
  rcases commands_alternate x a now start polls with ⟨h, -⟩ | ⟨-, h⟩
  · exact absurd h hD
  · rw [h]

theorem TimerAt.delay (h : TimerAt (writeDurable x a now start polls) k d) :
    d.micros = delayAt a k ∧ ∃ p, polls[k]? = some p ∧
      p.arrived.micros + delayAt a k < deadlineOf a now := by
  obtain ⟨t, ht, hd⟩ := h
  by_cases hD : IsDate (deadlineOf a now)
  · obtain ⟨p, hp, hmicros, hlt⟩ := timer_before hD ht hd
    rw [hmicros] at hlt
    exact ⟨hmicros, p, hp, hlt⟩
  · rw [turns_of_not_date hD] at ht
    simp at ht

theorem TimerAt.first_lt (h : TimerAt (writeDurable x a now start polls) k d)
    (hpolls : TakesAtLeast a now 0 polls) : a.firstDelay.micros < a.maxWait.micros := by
  obtain ⟨p, hp, hlt⟩ : ∃ p, polls[0]? = some p ∧ p.arrived.micros + delayAt a 0 < deadlineOf a now := by
    rcases k with _ | k
    · exact h.delay.2
    · obtain ⟨t, ht, -⟩ := h
      have hlen := (List.getElem?_eq_some_iff.mp ht).1
      by_cases hD : IsDate (deadlineOf a now)
      · have hturn : 0 + 1 < (writeDurable x a now start polls).turns.length := by omega
        exact waited_before hD hturn
      · rw [turns_of_not_date hD] at hlen
        simp at hlen
  have hnow := hpolls.first p hp
  rw [add_zero, Int.cast_le] at hnow
  have hfirst : delayAt a 0 = a.firstDelay.micros := rfl
  unfold deadlineOf at hlt
  omega

end Timers

/-! ### The bound on the waits -/

/-- Past some timer, in any call with these two intervals however long it is to wait, all are of the cap. -/
def ReachesCap (a : DurableArgs) : Prop :=
  ∃ K : ℕ, ∀ (x : WorkflowXmemory) (b : DurableArgs) (now : Datetime) (start : WriteStartOutput)
    (polls : List Poll), b.firstDelay = a.firstDelay → b.cap = a.cap →
      ∀ k, K ≤ k → ∀ d, TimerAt (writeDurable x b now start polls) k d → d.micros = a.cap.micros

/-- **The waits are bounded by the cap**, whatever the polls: every timer keeps to it, no timer is shorter
than an earlier one, and from a positive start they reach the cap and stay there. -/
structure WaitsBounded (x : WorkflowXmemory) (a : DurableArgs) (now : Datetime) (start : WriteStartOutput) :
    Prop where
  capped : ∀ polls, TakesAtLeast a now 0 polls →
    ∀ k d, TimerAt (writeDurable x a now start polls) k d → d.micros ≤ a.cap.micros
  mono : ∀ polls, TakesAtLeast a now 0 polls → ∀ j k d d', j ≤ k →
    TimerAt (writeDurable x a now start polls) j d → TimerAt (writeDurable x a now start polls) k d' →
      d.micros ≤ d'.micros
  reaches : 0 < a.firstDelay.micros → 0 ≤ a.cap.micros → ReachesCap a

section Bound
variable {x : WorkflowXmemory} {a : DurableArgs} {now : Datetime} {start : WriteStartOutput}

theorem reachesCap (hfirst : 0 < a.firstDelay.micros) (hcap : 0 ≤ a.cap.micros) : ReachesCap a := by
  obtain ⟨K, hK⟩ := delayAt_reaches hfirst hcap
  refine ⟨K, fun x b now start polls hb hbcap k hk d hd => ?_⟩
  have hsame : delayAt b k = delayAt a k := by
    unfold delayAt
    rw [hb, hbcap]
  rw [hd.delay.1, hsame]
  exact hK k hk

theorem waitsBounded_of_le (hfirst : 0 ≤ a.firstDelay.micros) (h : a.firstDelay.micros ≤ a.cap.micros) :
    WaitsBounded x a now start where
  capped polls _ k d hd := by
    rw [hd.delay.1]
    exact delayAt_le_cap h k
  mono polls _ j k d d' hjk hd hd' := by
    rw [hd.delay.1, hd'.delay.1]
    exact delayAt_mono hfirst h hjk
  reaches := reachesCap

theorem waitsBounded_of_no_timer (h : ∀ polls, TakesAtLeast a now 0 polls →
    ∀ k d, ¬ TimerAt (writeDurable x a now start polls) k d) : WaitsBounded x a now start where
  capped polls hpolls k d hd := absurd hd (h polls hpolls k d)
  mono polls hpolls j _ d _ _ hd := absurd hd (h polls hpolls j d)
  reaches := reachesCap

/-- A poll that is answered at once, with a write still queued. -/
def queuedAt (t : Datetime) : Poll := { result := reportOf "queued", arrived := t }

theorem queuedAt_nonterminal (t : Datetime) : ¬ Terminal (queuedAt t).status.writeStatus := by
  show ¬ Terminal "queued"
  unfold Terminal
  decide

theorem takesAtLeast_queued : TakesAtLeast a now 0 [queuedAt now] where
  first p hp := by
    cases hp
    rw [add_zero]
    exact le_refl _
  next k p q _ hq := by simp at hq

variable (x start) in
theorem first_timer (hfirst : 0 ≤ a.firstDelay.micros) (hD : IsDate (deadlineOf a now))
    (hlt : a.firstDelay.micros < a.maxWait.micros) :
    TimerAt (writeDurable x a now start [queuedAt now]) 0 a.firstDelay := by
  obtain ⟨l, hs, hrun⟩ := writeDurable_loop x start hD [queuedAt now]
  have hwaits : Waits l (queuedAt now).arrived := by
    have hnow := now.nonneg
    unfold Waits
    rw [hs.delay, hs.deadline]
    show 0 ≤ now.micros + _ ∧ now.micros + _ < now.micros + a.maxWait.micros
    omega
  obtain ⟨log, l', -, hturn⟩ := turn_of_waits x (queuedAt_nonterminal now) hwaits
  rw [hrun, run_again (L := durableLoop x) hturn]
  exact ⟨_, rfl, by rw [← hs.delay]⟩

end Bound

/-- **When the waits are bounded by `max_poll_interval`**: exactly if the first one is, or none is ever
made. -/
theorem waits_bounded_iff (x : WorkflowXmemory) (a : DurableArgs) (now : Datetime) (start : WriteStartOutput)
    (hfirst : 0 ≤ a.firstDelay.micros) :
    WaitsBounded x a now start ↔ a.firstDelay.micros ≤ a.cap.micros ∨
      a.maxWait.micros ≤ a.firstDelay.micros ∨ ¬ IsDate (deadlineOf a now) := by
  constructor
  · intro h
    by_contra hno
    rw [not_or, not_or, not_le, not_le, not_not] at hno
    obtain ⟨hbeyond, hlt, hD⟩ := hno
    have hle := h.capped _ takesAtLeast_queued 0 _ (first_timer x start hfirst hD hlt)
    omega
  · rintro (h | h | h)
    · exact waitsBounded_of_le hfirst h
    · refine waitsBounded_of_no_timer fun polls hpolls k d hd => ?_
      have hlt := hd.first_lt hpolls
      omega
    · refine waitsBounded_of_no_timer fun polls hpolls k d hd => ?_
      obtain ⟨t, ht, -⟩ := hd
      rw [turns_of_not_date h] at ht
      simp at ht

/-- The default waits: two seconds at first, thirty at most. -/
theorem waits_bounded_default :
    WaitsBounded defaultHandle { write := {} } firstDay ⟨some "w1"⟩ :=
  (waits_bounded_iff defaultHandle { write := {} } firstDay ⟨some "w1"⟩ (by decide)).mpr
    (Or.inl (by decide))

/-- A poll every 45 seconds, under the default cap of 30. -/
def slow : DurableArgs := { write := {}, pollInterval := some (.ofSeconds 45 (by decide)) }

/-- Its first wait is longer than the cap. -/
theorem first_wait_beyond_cap :
    ∃ (x : WorkflowXmemory) (a : DurableArgs) (now : Datetime) (start : WriteStartOutput),
      0 ≤ a.firstDelay.micros ∧ 0 ≤ a.cap.micros ∧ ¬ WaitsBounded x a now start := by
  refine ⟨defaultHandle, slow, firstDay, ⟨some "w1"⟩, by decide, by decide, fun h => ?_⟩
  have hD : IsDate (deadlineOf slow firstDay) := by
    unfold IsDate
    decide
  have hle := h.capped _ takesAtLeast_queued 0 _
    (first_timer defaultHandle ⟨some "w1"⟩ (a := slow) (by decide) hD (by decide))
  exact absurd hle (by decide)

end XmemoryTemporal.Durable.Backoff
