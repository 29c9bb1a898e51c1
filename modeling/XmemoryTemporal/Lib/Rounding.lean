import XmemoryTemporal.Lib.HalfEven
import Mathlib.Data.Int.Log
import Mathlib.Data.Rat.Floor

/-! # Rounding to significant bits

`roundInt q` is the integer nearest to `q`, `roundBits p q` the number of `p` significant bits nearest to
`q`, a tie going to the even one. The exponent is not bounded: there is neither overflow nor underflow. A
number of `p` bits is a fixed point of `roundBits p` (`roundBits_mul_zpow`), and what is rounded is one
(`roundPos_eq`). Rounding is monotone (`roundBits_mono`) and off by at most half a unit of the last
bit (`abs_roundBits_sub_le`); and a number of `p` bits less a natural number below it has `p` bits again, if
its unit is no more than one (`roundBits_sub_natCast`). -/

namespace XmemoryTemporal.Lib.Rounding

open XmemoryTemporal.Lib.HalfEven

/-! ### Integers -/

/-- `q` rounded to the nearest integer, ties to even. -/
def roundInt (q : ℚ) : ℤ := divRound q.num q.den

theorem abs_roundInt_sub_le (q : ℚ) : |(roundInt q : ℚ) - q| ≤ 1 / 2 := by
  have hden : (0 : ℤ) < q.den := by exact_mod_cast q.den_pos
  have hpos : (0 : ℚ) < q.den := by exact_mod_cast q.den_pos
  have hle : 2 * ((q.den : ℚ) * roundInt q) ≤ 2 * q.num + q.den := by exact_mod_cast two_mul_le hden
  have hge : 2 * (q.num : ℚ) - q.den ≤ 2 * (q.den * roundInt q) := by exact_mod_cast le_two_mul hden
  have hnum : (q.num : ℚ) = q.den * q := (Rat.den_mul_eq_num q).symm
  rw [hnum] at hle hge
  have hle' : (q.den : ℚ) * (roundInt q - q) ≤ q.den * (1 / 2) := by linarith
  have hge' : (q.den : ℚ) * -(1 / 2) ≤ q.den * (roundInt q - q) := by linarith
  rw [abs_le]
  exact ⟨le_of_mul_le_mul_left hge' hpos, le_of_mul_le_mul_left hle' hpos⟩

theorem roundInt_intCast (n : ℤ) : roundInt n = n := by
  have h := abs_le.mp (abs_roundInt_sub_le n)
  have hlt : (roundInt n : ℚ) < n + 1 := by linarith
  have hgt : (n : ℚ) < roundInt n + 1 := by linarith
  have hlt' : roundInt n < n + 1 := by exact_mod_cast hlt
  have hgt' : n < roundInt n + 1 := by exact_mod_cast hgt
  omega

theorem roundInt_zero : roundInt 0 = 0 := roundInt_intCast 0

theorem roundInt_mono {q r : ℚ} (h : q ≤ r) : roundInt q ≤ roundInt r := by
  by_contra hlt
  have hstep : (roundInt r : ℚ) + 1 ≤ roundInt q := by exact_mod_cast not_le.mp hlt
  have hq := (abs_le.mp (abs_roundInt_sub_le q)).2
  have hr := (abs_le.mp (abs_roundInt_sub_le r)).1
  have heq : q = r := by linarith
  rw [heq] at hlt
  exact hlt le_rfl

/-! ### Significant bits -/

/-- The unit of the last of the `p` bits of `q`. -/
def unit (p : ℕ) (q : ℚ) : ℚ := 2 ^ (Int.log 2 q + 1 - p)

/-- A number that is not negative, rounded to `p` bits. -/
def roundPos (p : ℕ) (q : ℚ) : ℚ := roundInt (q / unit p q) * unit p q

/-- `q` rounded to `p` significant bits; the sign is kept. -/
def roundBits (p : ℕ) (q : ℚ) : ℚ := if q < 0 then -roundPos p (-q) else roundPos p q

variable {p : ℕ} {q r : ℚ}

theorem unit_pos (p : ℕ) (q : ℚ) : 0 < unit p q := by
  unfold unit
  exact zpow_pos two_pos _

theorem pow_mul_unit (p : ℕ) (q : ℚ) : 2 ^ p * unit p q = 2 ^ (Int.log 2 q + 1) := by
  unfold unit
  rw [← zpow_natCast, ← zpow_add₀ two_ne_zero]
  congr 1
  omega

theorem lt_pow_mul_unit (p : ℕ) (q : ℚ) : q < 2 ^ p * unit p q := by
  rw [pow_mul_unit]
  exact_mod_cast Int.lt_zpow_succ_log_self one_lt_two q

theorem pow_mul_unit_le (p : ℕ) (hq : 0 < q) : 2 ^ p * unit p q ≤ 2 * q := by
  have h : ((2 : ℕ) : ℚ) ^ Int.log 2 q ≤ q := Int.zpow_log_le_self one_lt_two hq
  rw [pow_mul_unit, zpow_add_one₀ two_ne_zero, mul_comm]
  exact mul_le_mul_of_nonneg_left (by exact_mod_cast h) zero_le_two

theorem roundPos_zero : roundPos p 0 = 0 := by
  unfold roundPos
  rw [zero_div, roundInt_zero, Int.cast_zero, zero_mul]

theorem roundBits_of_nonneg (h : 0 ≤ q) : roundBits p q = roundPos p q := if_neg (not_lt.mpr h)

theorem roundBits_neg (q : ℚ) : roundBits p (-q) = -roundBits p q := by
  unfold roundBits
  rcases lt_trichotomy q 0 with h | rfl | h
  · rw [if_neg (by linarith), if_pos h, neg_neg]
  · simp only [neg_zero, lt_irrefl, if_false, roundPos_zero]
  · rw [if_pos (by linarith), if_neg (not_lt.mpr h.le), neg_neg]

/-- **Numbers of `p` bits** are left alone. -/
theorem roundBits_mul_zpow_of_lt {n : ℕ} (hn : n < 2 ^ p) (e : ℤ) :
    roundBits p (n * 2 ^ e) = n * 2 ^ e := by
  have hpow : (0 : ℚ) < 2 ^ e := zpow_pos two_pos e
  rw [roundBits_of_nonneg (mul_nonneg n.cast_nonneg hpow.le)]
  unfold roundPos
  rcases Nat.eq_zero_or_pos n with rfl | hpos
  · rw [Nat.cast_zero, zero_mul, zero_div, roundInt_zero, Int.cast_zero, zero_mul]
  set q : ℚ := n * 2 ^ e with hq
  have hqpos : 0 < q := by
    have hn0 : (0 : ℚ) < n := by exact_mod_cast hpos
    exact mul_pos hn0 hpow
  -- the unit is a part of `2 ^ e`
  have hlog : Int.log 2 q < p + e := by
    rw [← Int.lt_zpow_iff_log_lt one_lt_two hqpos, hq, Nat.cast_ofNat, zpow_add₀ two_ne_zero, zpow_natCast]
    have hn' : (n : ℚ) < 2 ^ p := by exact_mod_cast hn
    exact mul_lt_mul_of_pos_right hn' hpow
  obtain ⟨k, hk⟩ := Int.eq_ofNat_of_zero_le (a := e - (Int.log 2 q + 1 - p)) (by omega)
  have hint : q / unit p q = ((n * 2 ^ k : ℤ) : ℚ) := by
    have hsplit : e = k + (Int.log 2 q + 1 - p) := by omega
    have hunit : (2 : ℚ) ^ e = 2 ^ k * unit p q := by
      unfold unit
      rw [← zpow_natCast, ← zpow_add₀ two_ne_zero, ← hsplit]
    rw [div_eq_iff (unit_pos p q).ne']
    push_cast
    rw [mul_assoc, ← hunit]
  rw [hint, roundInt_intCast, ← hint, div_mul_cancel₀ _ (unit_pos p q).ne']

theorem roundBits_mul_zpow {n : ℕ} (hp : 0 < p) (hn : n ≤ 2 ^ p) (e : ℤ) :
    roundBits p (n * 2 ^ e) = n * 2 ^ e := by
  rcases hn.lt_or_eq with hlt | rfl
  · exact roundBits_mul_zpow_of_lt hlt e
  · obtain ⟨p, rfl⟩ := Nat.exists_eq_succ_of_ne_zero hp.ne'
    have hshift : ((2 ^ (p + 1) : ℕ) : ℚ) * 2 ^ e = ((2 ^ p : ℕ) : ℚ) * 2 ^ (e + 1) := by
      rw [zpow_add_one₀ two_ne_zero]
      push_cast
      ring
    have hlt : 2 ^ p < 2 ^ (p + 1) := Nat.pow_lt_pow_succ one_lt_two
    rw [Nat.succ_eq_add_one, hshift]
    exact roundBits_mul_zpow_of_lt hlt (e + 1)

theorem roundBits_natCast {n : ℕ} (hp : 0 < p) (hn : n ≤ 2 ^ p) : roundBits p n = n := by
  have h := roundBits_mul_zpow hp hn 0
  rwa [zpow_zero, mul_one] at h

theorem roundPos_eq (p : ℕ) (h : 0 ≤ q) : ∃ n : ℕ, n ≤ 2 ^ p ∧ roundPos p q = n * unit p q := by
  have hlow : 0 ≤ roundInt (q / unit p q) := by
    rw [← roundInt_zero]
    exact roundInt_mono (div_nonneg h (unit_pos p q).le)
  have hhigh : roundInt (q / unit p q) ≤ 2 ^ p := by
    rw [← roundInt_intCast (2 ^ p)]
    refine roundInt_mono ?_
    rw [div_le_iff₀ (unit_pos p q)]
    push_cast
    exact (lt_pow_mul_unit p q).le
  obtain ⟨n, hn⟩ := Int.eq_ofNat_of_zero_le hlow
  refine ⟨n, ?_, ?_⟩
  · rw [hn] at hhigh
    exact_mod_cast hhigh
  · unfold roundPos
    rw [hn]
    rfl

theorem roundPos_nonneg (p : ℕ) (h : 0 ≤ q) : 0 ≤ roundPos p q := by
  obtain ⟨n, -, hn⟩ := roundPos_eq p h
  rw [hn]
  exact mul_nonneg n.cast_nonneg (unit_pos p q).le

theorem roundPos_mono (hp : 0 < p) (hq : 0 < q) (h : q ≤ r) : roundPos p q ≤ roundPos p r := by
  rcases (Int.log_mono_right (b := 2) hq h).eq_or_lt with hlog | hlog
  · -- in one binade the units are the same
    have hunit : unit p q = unit p r := by
      unfold unit
      rw [hlog]
    unfold roundPos
    rw [hunit]
    have hdiv : q / unit p r ≤ r / unit p r := div_le_div_of_nonneg_right h (unit_pos p r).le
    have hcast : (roundInt (q / unit p r) : ℚ) ≤ roundInt (r / unit p r) := by exact_mod_cast roundInt_mono hdiv
    exact mul_le_mul_of_nonneg_right hcast (unit_pos p r).le
  · -- otherwise a power of two is between them
    obtain ⟨n, hn, heq⟩ := roundPos_eq p hq.le
    have hn' : (n : ℚ) ≤ 2 ^ p := by exact_mod_cast hn
    have hbelow : roundPos p q ≤ 2 ^ (Int.log 2 q + 1) := by
      rw [heq, ← pow_mul_unit]
      exact mul_le_mul_of_nonneg_right hn' (unit_pos p q).le
    have hpow : (2 : ℚ) ^ (Int.log 2 q + 1) ≤ 2 ^ Int.log 2 r := zpow_le_zpow_right₀ one_le_two (by omega)
    have habove : (2 : ℚ) ^ Int.log 2 r ≤ roundPos p r := by
      obtain ⟨p, rfl⟩ := Nat.exists_eq_succ_of_ne_zero hp.ne'
      have hhalf : (2 : ℚ) ^ p * unit (p + 1) r = 2 ^ Int.log 2 r := by
        unfold unit
        rw [← zpow_natCast, ← zpow_add₀ two_ne_zero]
        congr 1
        push_cast
        omega
      have hle : (2 : ℚ) ^ Int.log 2 r ≤ r := by
        have hlog := Int.zpow_log_le_self one_lt_two (hq.trans_le h)
        exact_mod_cast hlog
      have hint : 2 ^ p ≤ roundInt (r / unit (p + 1) r) := by
        rw [← roundInt_intCast (2 ^ p)]
        refine roundInt_mono ?_
        rw [le_div_iff₀ (unit_pos (p + 1) r)]
        push_cast
        rwa [hhalf]
      have hcast : (2 : ℚ) ^ p ≤ roundInt (r / unit (p + 1) r) := by exact_mod_cast hint
      rw [← hhalf]
      exact mul_le_mul_of_nonneg_right hcast (unit_pos (p + 1) r).le
    exact (hbelow.trans hpow).trans habove

/-- **Rounding is monotone.** -/
theorem roundBits_mono (hp : 0 < p) (h : q ≤ r) : roundBits p q ≤ roundBits p r := by
  have hpos : ∀ {q r : ℚ}, 0 ≤ q → q ≤ r → roundBits p q ≤ roundBits p r := by
    intro q r hq h
    rw [roundBits_of_nonneg hq, roundBits_of_nonneg (hq.trans h)]
    rcases hq.eq_or_lt with rfl | hq'
    · rw [roundPos_zero]
      exact roundPos_nonneg p h
    · exact roundPos_mono hp hq' h
  rcases le_or_gt 0 q with hq | hq
  · exact hpos hq h
  · rcases le_or_gt r 0 with hr | hr
    · have hneg := hpos (neg_nonneg.mpr hr) (neg_le_neg h)
      rw [roundBits_neg, roundBits_neg] at hneg
      exact neg_le_neg_iff.mp hneg
    · have hq0 : roundBits p q ≤ 0 := by
        unfold roundBits
        rw [if_pos hq]
        exact neg_nonpos.mpr (roundPos_nonneg p (by linarith))
      rw [roundBits_of_nonneg hr.le]
      exact hq0.trans (roundPos_nonneg p hr.le)

/-- **The error of rounding** is at most half a unit of the last bit. -/
theorem abs_roundBits_sub_le_unit (p : ℕ) (hq : 0 ≤ q) : |roundBits p q - q| ≤ unit p q / 2 := by
  have hu := unit_pos p q
  have herr := abs_roundInt_sub_le (q / unit p q)
  have hfactor : roundPos p q - q = (roundInt (q / unit p q) - q / unit p q) * unit p q := by
    unfold roundPos
    rw [sub_mul, div_mul_cancel₀ _ hu.ne']
  rw [roundBits_of_nonneg hq, hfactor, abs_mul, abs_of_pos hu]
  have hmul := mul_le_mul_of_nonneg_right herr hu.le
  linarith

theorem abs_roundBits_sub_le (p : ℕ) (q : ℚ) : |roundBits p q - q| ≤ |q| / 2 ^ p := by
  have hpos : ∀ {q : ℚ}, 0 < q → |roundBits p q - q| ≤ q / 2 ^ p := by
    intro q hq
    refine (abs_roundBits_sub_le_unit p hq.le).trans ?_
    rw [le_div_iff₀ (by positivity)]
    have hle := pow_mul_unit_le p hq
    linarith
  rcases lt_trichotomy q 0 with hq | rfl | hq
  · have h := hpos (neg_pos.mpr hq)
    rw [roundBits_neg, neg_sub_neg, abs_sub_comm] at h
    rwa [abs_of_neg hq]
  · rw [roundBits_of_nonneg le_rfl, roundPos_zero, sub_zero, abs_zero, zero_div]
  · rw [abs_of_pos hq]
    exact hpos hq

theorem roundBits_pos (hp : 0 < p) (h : 0 < q) : 0 < roundBits p q := by
  have hone : (1 : ℚ) < 2 ^ p := one_lt_pow₀ one_lt_two hp.ne'
  have herr := (abs_le.mp (abs_roundBits_sub_le p q)).1
  rw [abs_of_pos h] at herr
  have hlt : q / 2 ^ p < q := div_lt_self h hone
  linarith

theorem unit_le {e : ℤ} (hq : 0 < q) (h : q < 2 ^ e) : unit p q ≤ 2 ^ (e - p) := by
  have hlog : Int.log 2 q < e := by
    rw [← Int.lt_zpow_iff_log_lt one_lt_two hq]
    exact_mod_cast h
  exact zpow_le_zpow_right₀ one_le_two (by omega)

/-- **A natural number is subtracted exactly** from a number below `2 ^ p`. -/
theorem roundBits_sub_natCast (hp : 0 < p) {m : ℕ} (hr : 0 < r) (hlt : r < 2 ^ p)
    (hm : (m : ℚ) ≤ roundBits p r) : roundBits p (roundBits p r - m) = roundBits p r - m := by
  obtain ⟨n, hn, heq⟩ := roundPos_eq p hr.le
  rw [roundBits_of_nonneg hr.le, heq] at hm ⊢
  -- the number to subtract is a multiple of the unit
  obtain ⟨k, hk⟩ : ∃ k : ℕ, (1 : ℚ) = 2 ^ k * unit p r := by
    have hlog : Int.log 2 r < p := by
      rw [← Int.lt_zpow_iff_log_lt one_lt_two hr]
      exact_mod_cast hlt
    have hexp : Int.log 2 r + 1 - p ≤ 0 := by omega
    obtain ⟨k, hk⟩ := Int.eq_ofNat_of_zero_le (neg_nonneg.mpr hexp)
    refine ⟨k, ?_⟩
    unfold unit
    rw [← zpow_natCast, ← zpow_add₀ two_ne_zero]
    have hsum : (k : ℤ) + (Int.log 2 r + 1 - p) = 0 := by omega
    rw [hsum, zpow_zero]
  have hmul : (m : ℚ) = ((m * 2 ^ k : ℕ) : ℚ) * unit p r := by
    push_cast
    rw [mul_assoc, ← hk, mul_one]
  have hle : m * 2 ^ k ≤ n := by
    rw [hmul] at hm
    exact_mod_cast le_of_mul_le_mul_right hm (unit_pos p r)
  have hsub : (n : ℚ) * unit p r - m = ((n - m * 2 ^ k : ℕ) : ℚ) * unit p r := by
    rw [Nat.cast_sub hle, sub_mul, ← hmul]
  rw [hsub]
  exact roundBits_mul_zpow hp (by omega) _

end XmemoryTemporal.Lib.Rounding
