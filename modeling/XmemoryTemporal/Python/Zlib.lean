import XmemoryTemporal.Python.Value

/-! # `zlib.crc32`, and the quotient of two floats

The checksum is the reflected CRC-32 of the bytes, bit by bit. `floatQuotient` is the division of two
integral floats. -/

namespace XmemoryTemporal.Python.Zlib

open XmemoryTemporal.Lib.Rounding XmemoryTemporal.Python.Value

/-- One bit of the checksum. -/
def crcBit (c : UInt32) : UInt32 :=
  if c &&& 1 = 1 then (c >>> 1) ^^^ 0xEDB88320 else c >>> 1

def crcBits : ℕ → UInt32 → UInt32
  | 0, c => c
  | n + 1, c => crcBits n (crcBit c)

/-- `zlib.crc32(data)`. -/
def crc32 (data : List UInt8) : UInt32 :=
  data.foldl (fun c b => crcBits 8 (c ^^^ b.toUInt32)) 0xFFFFFFFF ^^^ 0xFFFFFFFF

/-- The check value of the algorithm: the checksum of `123456789`. -/
example : crc32 "123456789".toUTF8.data.toList = 0xCBF43926 := by decide +kernel

/-- `a / b` in floating point. -/
def floatQuotient (a b : ℕ) : ℚ := binary64 (a / b)

/-! ### The error of a quotient -/

variable {a b c : ℕ}

theorem floatQuotient_zero (b : ℕ) : floatQuotient 0 b = 0 := by
  unfold floatQuotient binary64
  rw [Nat.cast_zero, zero_div, roundBits_of_nonneg le_rfl, roundPos_zero]

/-- A quotient below one is off by at most half a unit of its last bit. -/
theorem floatQuotient_near (h : a < b) : |floatQuotient a b - (a : ℚ) / b| ≤ 1 / (2 * 2 ^ 53) := by
  rcases Nat.eq_zero_or_pos a with rfl | ha
  · rw [floatQuotient_zero, Nat.cast_zero, zero_div, sub_zero, abs_zero]
    positivity
  have ha' : (0 : ℚ) < a := by exact_mod_cast ha
  have hb : (0 : ℚ) < b := by exact_mod_cast ha.trans h
  have hone : (a : ℚ) / b < 2 ^ (0 : ℤ) := by
    rw [zpow_zero, div_lt_one hb]
    exact_mod_cast h
  have herr := abs_roundBits_sub_le_unit 53 (div_pos ha' hb).le
  have hunit : unit 53 ((a : ℚ) / b) ≤ 2 ^ (0 - (53 : ℕ) : ℤ) := unit_le (div_pos ha' hb) hone
  have hpow : (2 : ℚ) ^ (0 - (53 : ℕ) : ℤ) / 2 = 1 / (2 * 2 ^ 53) := by norm_num
  unfold floatQuotient binary64
  rw [← hpow]
  exact herr.trans (div_le_div_of_nonneg_right hunit zero_le_two)

theorem floatQuotient_lt (hb : b ≤ 2 ^ 52) (hac : a < c) (hc : c < b) :
    floatQuotient a b < floatQuotient c b := by
  have hpos : (0 : ℚ) < b := by exact_mod_cast Nat.zero_lt_of_lt hc
  have ha := (abs_le.mp (floatQuotient_near (hac.trans hc))).2
  have hc' := (abs_le.mp (floatQuotient_near hc)).1
  have hgap : (a : ℚ) / b + 1 / b ≤ c / b := by
    rw [← add_div, div_le_div_iff_of_pos_right hpos]
    exact_mod_cast hac
  have hbig : 1 / (2 : ℚ) ^ 52 ≤ 1 / b := one_div_le_one_div_of_le hpos (by exact_mod_cast hb)
  have hunits : 1 / (2 * 2 ^ 53 : ℚ) + 1 / (2 * 2 ^ 53) < 1 / 2 ^ 52 := by norm_num
  linarith

end XmemoryTemporal.Python.Zlib
