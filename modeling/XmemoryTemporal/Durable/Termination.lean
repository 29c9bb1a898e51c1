import XmemoryTemporal.Durable.Backoff
import Mathlib.Algebra.Order.Floor.Semiring

/-! # The poll loop terminates

From one poll to the next the workflow time advances by the delay and by what the poll takes, so by at least
`interval + e` if a poll takes at least `e`. A poll after the first is only made before the deadline, so
there are at most `pollBound` of them, whatever the statuses (`poll_bound`). With a zero interval the delays
add nothing: only the polls themselves then bring the deadline nearer. -/

namespace XmemoryTemporal.Durable.Termination

open XmemoryTemporal.Python.Time XmemoryTemporal.Lib.Loop XmemoryTemporal.Dto XmemoryTemporal.WorkflowApi
open XmemoryTemporal.Durable.Turn XmemoryTemporal.Durable.Outcome XmemoryTemporal.Durable.Deadline
open XmemoryTemporal.Durable.Backoff

/-- The lesser of the two poll intervals, in microseconds. -/
def interval (a : DurableArgs) : ℤ := min a.firstDelay.micros a.cap.micros

/-- `max(1, ceil(max_wait / (interval + e)))`. -/
def pollBound (a : DurableArgs) (e : ℚ) : ℕ := max 1 ⌈(a.maxWait.micros : ℚ) / (interval a + e)⌉₊

section Bound
variable {x : WorkflowXmemory} {a : DurableArgs} {now : Datetime} {start : WriteStartOutput}
  {polls : List Poll} {e : ℚ}

theorem arrived_ge (hfirst : 0 ≤ a.firstDelay.micros) (hcap : 0 ≤ a.cap.micros)
    (hpolls : TakesAtLeast a now e polls) {k : ℕ} {p : Poll} (hp : polls[k]? = some p) :
    (now.micros : ℚ) + e + k * (interval a + e) ≤ p.arrived.micros := by
  induction k generalizing p with
  | zero =>
    have h := hpolls.first p hp
    simpa using h
  | succ k ih =>
    obtain ⟨q, hq⟩ : ∃ q, polls[k]? = some q := by
      have hlen := (List.getElem?_eq_some_iff.mp hp).1
      exact ⟨_, List.getElem?_eq_getElem (by omega)⟩
    have hstep := hpolls.next k q p hq hp
    have hdelay : (interval a : ℚ) ≤ delayAt a k := Int.cast_le.mpr (min_le_delayAt hfirst hcap k)
    have hq' := ih hq
    push_cast
    linarith

theorem turns_le (hfirst : 0 ≤ a.firstDelay.micros) (hcap : 0 ≤ a.cap.micros) (hpos : 0 < interval a + e)
    (hpolls : TakesAtLeast a now e polls) :
    (writeDurable x a now start polls).turns.length ≤ pollBound a e := by
  by_cases hD : IsDate (deadlineOf a now)
  swap
  · rw [turns_of_not_date hD]
    exact Nat.zero_le _
  rcases hlen : (writeDurable x a now start polls).turns.length with _ | _ | k
  · exact Nat.zero_le _
  · exact le_max_left _ _
  · have hturn : k + 1 < (writeDurable x a now start polls).turns.length := by omega
    obtain ⟨p, hp, hlt⟩ := waited_before hD hturn
    have harrived := arrived_ge hfirst hcap hpolls hp
    have hdelay : (interval a : ℚ) ≤ delayAt a k := Int.cast_le.mpr (min_le_delayAt hfirst hcap k)
    have hlt' : (p.arrived.micros : ℚ) + delayAt a k < now.micros + a.maxWait.micros := by
      unfold deadlineOf at hlt
      exact_mod_cast hlt
    have hceil : ((k + 1 : ℕ) : ℚ) < a.maxWait.micros / (interval a + e) := by
      rw [lt_div_iff₀ hpos]
      push_cast
      linarith
    exact (Nat.lt_ceil.mpr hceil).trans_le (le_max_right _ _)

theorem length_of_unended (h : (writeDurable x a now start polls).outcome = none) :
    (writeDurable x a now start polls).turns.length = polls.length + 1 := by
  rcases pollLoop_cases a now start with ⟨-, l, hl, -⟩ | ⟨-, he⟩
  · rw [writeDurable_of_ok x a now start hl] at h ⊢
    exact length_of_running h
  · rw [writeDurable_of_error x a now start he] at h
    simp at h

theorem commands_length_le :
    (writeDurable x a now start polls).commands.length ≤
      max 1 (2 * (writeDurable x a now start polls).turns.length) := by
  have halternating : ∀ poll timers, (alternating poll timers).length = 2 * timers.length + 1 := by
    intro poll timers
    induction timers with
    | nil => rfl
    | cons d timers ih =>
      unfold alternating at ih ⊢
      rw [List.flatMap_cons, List.append_assoc, List.length_append, ih, List.length_cons]
      simp only [List.length_cons, List.length_nil]
      omega
  rcases commands_alternate x a now start polls with ⟨-, -, -, timers, hlen, hcmd⟩ | ⟨-, h⟩
  · rw [hcmd, List.length_cons, halternating, ← hlen]
    omega
  · rw [h]
    exact le_max_left _ _

end Bound

/-! ### Without an interval -/

section Unbounded
variable {x : WorkflowXmemory} {a : DurableArgs} {now : Datetime} {start : WriteStartOutput}

theorem delayAt_succ_of_zero (hfirst : 0 ≤ a.firstDelay.micros) (hcap : 0 ≤ a.cap.micros)
    (hzero : interval a = 0) (k : ℕ) : delayAt a (k + 1) = 0 := by
  have hge := delayAt_nonneg hfirst hcap (k + 1)
  have hle : delayAt a (k + 1) ≤ a.cap.micros := min_le_right _ _
  unfold interval at hzero
  rcases min_choice a.firstDelay.micros a.cap.micros with h | h
  · have hall : ∀ j, delayAt a j ≤ 0 := by
      intro j
      induction j with
      | zero => exact (h.symm.trans hzero).le
      | succ j ih =>
        have hj := delayAt_nonneg hfirst hcap j
        have hj0 : delayAt a j = 0 := by omega
        refine (min_le_left _ _).trans ?_
        show halfMore (delayAt a j) ≤ 0
        rw [hj0]
        decide
    exact le_antisymm (hall (k + 1)) hge
  · omega

/-- The first poll is answered at once, all others when the first timer has fired. -/
def stalledPolls (now later : Datetime) (n : ℕ) : List Poll :=
  (List.range n).map fun k => queuedAt (if k = 0 then now else later)

theorem stalledPolls_get {now later : Datetime} {n k : ℕ} {p : Poll}
    (h : (stalledPolls now later n)[k]? = some p) :
    p = queuedAt (if k = 0 then now else later) := by
  obtain ⟨-, rfl⟩ := List.getElem?_eq_some_iff.mp h
  simp only [stalledPolls, List.getElem_map, List.getElem_range]

variable (x start) in
/-- **Polls that take no time keep a zero interval polling**, as often as you like. -/
theorem stalled (hfirst : 0 ≤ a.firstDelay.micros) (hcap : 0 ≤ a.cap.micros) (hzero : interval a = 0)
    (hlt : a.firstDelay.micros < a.maxWait.micros) (hD : IsDate (deadlineOf a now)) (n : ℕ) :
    ∃ polls, polls.length = n ∧ TakesAtLeast a now 0 polls ∧
      (writeDurable x a now start polls).outcome = none := by
  obtain ⟨later, hlater⟩ : ∃ later : Datetime, later.micros = now.micros + a.firstDelay.micros := by
    have hnow := now.nonneg
    have hmax := hD.2
    unfold deadlineOf at hmax
    exact ⟨⟨now.micros + a.firstDelay.micros, by omega, by omega⟩, rfl⟩
  have hdelay := delayAt_succ_of_zero hfirst hcap hzero
  refine ⟨stalledPolls now later n, by simp [stalledPolls], ⟨fun p hp => ?_, fun k p q hp hq => ?_⟩, ?_⟩
  · rw [stalledPolls_get hp, add_zero]
    exact le_refl _
  · rw [stalledPolls_get hp, stalledPolls_get hq, add_zero]
    rcases k with _ | k
    · show (now.micros : ℚ) + a.firstDelay.micros ≤ later.micros
      rw [hlater]
      push_cast
      exact le_refl _
    · rw [hdelay k, Int.cast_zero, add_zero]
      exact le_refl _
  · rcases pollLoop_cases a now start with ⟨-, l, hl, hs⟩ | ⟨hD', -⟩
    · rw [writeDurable_of_ok x a now start hl]
      have hgo : ∀ j < n, GoesOn l (stalledPolls now later n) j := by
        intro j hj
        have hget : (stalledPolls now later n)[j]? = some (queuedAt (if j = 0 then now else later)) := by
          unfold stalledPolls
          rw [List.getElem?_map, List.getElem?_range hj]
          rfl
        refine ⟨_, hget, queuedAt_nonterminal _, ?_⟩
        have hnow := now.nonneg
        rw [hs.delay, hs.cap, hs.deadline]
        show 0 ≤ _ + delayAt a j ∧ _ + delayAt a j < now.micros + a.maxWait.micros
        rcases j with _ | j
        · show 0 ≤ now.micros + a.firstDelay.micros ∧ now.micros + a.firstDelay.micros < _
          omega
        · rw [hdelay j]
          show 0 ≤ later.micros + 0 ∧ later.micros + 0 < _
          omega
      have hlen : n = (stalledPolls now later n).length := by simp [stalledPolls]
      obtain ⟨t, ht⟩ := (reached_iff (x := x) n hlen.le).mpr hgo
      rw [List.take_of_length_le hlen.ge] at ht
      exact running_of_stateAt ht
    · exact absurd hD hD'

end Unbounded

/-- **The poll loop terminates, within an explicit number of polls.** Where the interval and what a poll
takes are not both zero, it makes at most `pollBound` polls and leaves at most twice as many events, and it
has ended when that many have been answered. Where both are zero no number of polls ends it. -/
theorem poll_bound (x : WorkflowXmemory) (a : DurableArgs) (now : Datetime) (start : WriteStartOutput)
    (hfirst : 0 ≤ a.firstDelay.micros) (hcap : 0 ≤ a.cap.micros) :
    (∀ (e : ℚ) (polls : List Poll), 0 ≤ e → 0 < interval a + e → TakesAtLeast a now e polls →
      (writeDurable x a now start polls).turns.length ≤ pollBound a e ∧
      (writeDurable x a now start polls).commands.length ≤ 2 * pollBound a e ∧
      (pollBound a e ≤ polls.length → (writeDurable x a now start polls).outcome ≠ none)) ∧
    (interval a = 0 → a.firstDelay.micros < a.maxWait.micros → IsDate (deadlineOf a now) → ∀ n,
      ∃ polls, polls.length = n ∧ TakesAtLeast a now 0 polls ∧
        (writeDurable x a now start polls).outcome = none) := by
  refine ⟨fun e polls _ hpos hpolls => ?_, fun hzero hlt hD n => stalled x start hfirst hcap hzero hlt hD n⟩
  have hturns : (writeDurable x a now start polls).turns.length ≤ pollBound a e :=
    turns_le hfirst hcap hpos hpolls
  refine ⟨hturns, ?_, fun hlen hnone => ?_⟩
  · have hcommands : (writeDurable x a now start polls).commands.length ≤ _ := commands_length_le
    have hone : 1 ≤ pollBound a e := le_max_left _ _
    omega
  · have hpending := length_of_unended hnone
    omega

theorem interval_hurried : interval hurried = 2000000 := by decide

theorem pollBound_hurried : pollBound hurried 1000000 = 5 := by
  have hwait : hurried.maxWait.micros = 13000000 := by decide
  have hceil : ⌈(13 : ℚ) / 3⌉₊ = 5 := (Nat.ceil_eq_iff (by omega)).mpr ⟨by norm_num, by norm_num⟩
  unfold pollBound
  rw [interval_hurried, hwait]
  norm_num [hceil]

/-- Thirteen seconds, and polls of one second between timers of two at least: five polls at most. -/
theorem poll_bound_hurried :
    let r := writeDurable defaultHandle hurried firstDay ⟨some "w1"⟩ slowPolls
    r.turns.length ≤ 5 ∧ r.commands.length ≤ 10 ∧ r.outcome ≠ none := by
  have htakes : TakesAtLeast hurried firstDay 1000000 slowPolls := by
    refine ⟨fun p hp => ?_, fun k p q hp hq => ?_⟩
    · cases hp
      show ((0 : ℤ) : ℚ) + 1000000 ≤ ((1000000 : ℤ) : ℚ)
      norm_num
    · have hissued := slowPolls_onSchedule.timer k p hp
      have hlater : slowIssued (k + 1) + 1000000 ≤ q.arrived.micros := by
        rcases k with _ | _ | _ | _ | k
        case succ.succ.succ.succ => simp [slowPolls, pollsAt] at hq
        all_goals
          cases hq
          decide
      rw [hissued] at hlater
      exact_mod_cast hlater
  have h := (poll_bound defaultHandle hurried firstDay ⟨some "w1"⟩ (by decide) (by decide)).1 1000000
    slowPolls (by norm_num) (by rw [interval_hurried]; norm_num) htakes
  rw [pollBound_hurried] at h
  exact ⟨h.1, h.2.1, h.2.2 (le_refl 5)⟩

end XmemoryTemporal.Durable.Termination
