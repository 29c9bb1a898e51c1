import Mathlib.Data.Int.Order.Basic
import Mathlib.Algebra.Order.Field.Basic
import Mathlib.Algebra.Order.Field.Rat
import Mathlib.Tactic.FieldSimp
import Mathlib.Tactic.Linarith
import Mathlib.Tactic.Positivity
import Mathlib.Tactic.Ring

/-! # Division rounded half to even

`divRound a b` is the integer nearest to `a / b` for `b > 0`, a tie going to the even neighbour: the
quotient, moved up when the doubled remainder exceeds the divisor, or equals it at an odd quotient.
`two_mul_le`, `le_two_mul` say that it is off by at most half a unit, `le_divRound` that it does not go below
an integer the quotient is not below. -/

namespace XmemoryTemporal.Lib.HalfEven

/-- `a / b` rounded to the nearest integer, ties to even. -/
def divRound (a b : ℤ) : ℤ :=
  if b < 2 * (a % b) ∨ 2 * (a % b) = b ∧ a / b % 2 = 1 then a / b + 1 else a / b

variable {a b : ℤ}

theorem two_mul_le (hb : 0 < b) : 2 * (b * divRound a b) ≤ 2 * a + b := by
  have h1 := Int.emod_add_mul_ediv a b
  have h2 := Int.emod_nonneg a hb.ne'
  unfold divRound
  split_ifs with h
  · rw [mul_add, mul_one]
    rcases h with h | ⟨h, -⟩ <;> omega
  · omega

theorem le_two_mul (hb : 0 < b) : 2 * a - b ≤ 2 * (b * divRound a b) := by
  have h1 := Int.emod_add_mul_ediv a b
  have h2 := Int.emod_lt_of_pos a hb
  unfold divRound
  split_ifs with h
  · rw [mul_add, mul_one]; omega
  · rw [not_or] at h; omega

theorem ediv_le_divRound : a / b ≤ divRound a b := by
  unfold divRound
  split_ifs <;> omega

theorem le_divRound {n : ℤ} (hb : 0 < b) (h : n * b ≤ a) : n ≤ divRound a b :=
  ((Int.le_ediv_iff_mul_le hb).mpr h).trans ediv_le_divRound

theorem divRound_nonneg (hb : 0 < b) (ha : 0 ≤ a) : 0 ≤ divRound a b :=
  le_divRound hb (by rw [zero_mul]; exact ha)

end XmemoryTemporal.Lib.HalfEven
