import Mathlib.Order.MinMax
import Mathlib.Algebra.Order.Ring.Int
import Mathlib.Tactic.Common

/-! # Growth up to a cap

A sequence that starts at `first` and goes on from `x` to `f x`, or to the cap where `f x` is beyond it
(`capped`). The start itself is not capped: it may lie beyond.

Where `f` does not shrink anything from `lo` on, the sequence never falls below the lesser of its start and
the cap (`min_le_capped`), does not fall at all if it starts within the cap (`capped_mono`), and stays at the
cap when it is there (`capped_stays`). On the integers, where growth is by at least one, it gets there
(`capped_reaches`). -/

namespace XmemoryTemporal.Lib.CappedGrowth

section Order
variable {α : Type} [LinearOrder α]

/-- Growth by `f` from `first`, up to `cap`. -/
def capped (f : α → α) (cap first : α) : ℕ → α
  | 0 => first
  | k + 1 => min (f (capped f cap first k)) cap

variable {f : α → α} {cap first lo : α} {k : ℕ}

theorem capped_succ_le (k : ℕ) : capped f cap first (k + 1) ≤ cap := min_le_right _ _

theorem capped_le (h : first ≤ cap) (k : ℕ) : capped f cap first k ≤ cap := by
  cases k with
  | zero => exact h
  | succ k => exact capped_succ_le k

theorem min_le_capped (hf : ∀ x, lo ≤ x → x ≤ f x) (hfirst : lo ≤ first) (hcap : lo ≤ cap) (k : ℕ) :
    min first cap ≤ capped f cap first k := by
  induction k with
  | zero => exact min_le_left _ _
  | succ k ih =>
    have hlo : lo ≤ capped f cap first k := (le_min hfirst hcap).trans ih
    exact le_min (ih.trans (hf _ hlo)) (min_le_right _ _)

theorem capped_mono (hf : ∀ x, lo ≤ x → x ≤ f x) (hfirst : lo ≤ first) (h : first ≤ cap) :
    Monotone (capped f cap first) := by
  refine monotone_nat_of_le_succ fun k => ?_
  have hlo : lo ≤ capped f cap first k := by
    have hmin := min_le_capped hf hfirst (hfirst.trans h) k
    rw [min_eq_left h] at hmin
    exact hfirst.trans hmin
  exact le_min (hf _ hlo) (capped_le h k)

theorem capped_stays (hf : ∀ x, lo ≤ x → x ≤ f x) (hcap : lo ≤ cap) (h : capped f cap first k = cap)
    {j : ℕ} (hj : k ≤ j) : capped f cap first j = cap := by
  induction j, hj using Nat.le_induction with
  | base => exact h
  | succ j _ ih =>
    show min (f (capped f cap first j)) cap = cap
    rw [ih]
    exact min_eq_right (hf cap hcap)

end Order

section Int
variable {f : ℤ → ℤ} {cap first : ℤ}

theorem min_add_le_capped (hf : ∀ x, 0 ≤ x → x ≤ f x) (hgrow : ∀ x, 0 < x → x < f x) (hfirst : 0 < first)
    (hcap : 0 ≤ cap) (k : ℕ) : min (first + k) cap ≤ capped f cap first k := by
  induction k with
  | zero =>
    show min (first + 0) cap ≤ first
    rw [add_zero]
    exact min_le_left _ _
  | succ k ih =>
    refine le_min ?_ (min_le_right _ _)
    rcases min_le_iff.mp ih with h | h
    · have hstep := hgrow (capped f cap first k) (by omega)
      refine (min_le_left _ _).trans ?_
      push_cast
      omega
    · exact (min_le_right _ _).trans (h.trans (hf _ (hcap.trans h)))

/-- **The cap is reached**, and for good. -/
theorem capped_reaches (hf : ∀ x, 0 ≤ x → x ≤ f x) (hgrow : ∀ x, 0 < x → x < f x) (hfirst : 0 < first)
    (hcap : 0 ≤ cap) : ∃ K, ∀ k, K ≤ k → capped f cap first k = cap := by
  set K := (cap - first).toNat + 1 with hK
  have hlow := min_add_le_capped hf hgrow hfirst hcap K
  have hmin : min (first + (K : ℤ)) cap = cap := min_eq_right (by omega)
  rw [hmin] at hlow
  have hreached : capped f cap first K = cap := le_antisymm (capped_succ_le _) hlow
  exact ⟨K, fun k hk => capped_stays hf hcap hreached hk⟩

end Int

end XmemoryTemporal.Lib.CappedGrowth
