import XmemoryTemporal.Python.Time
import XmemoryTemporal.Python.Value
import Mathlib.Algebra.Order.Group.MinMax
import Mathlib.Tactic.Linarith
import Mathlib.Tactic.NormNum

/-! # Worker-side configuration, and the client budget

`clientTimeoutSeconds` derives the budget of a client call from the deadline Temporal assigned the
activity: the deadline less a margin, or a proportional share of a deadline within the margin.
`clientTimeoutSeconds_between_iff` says for which deadlines and margins the budget is positive and
below the deadline, in exact arithmetic. When a longer deadline has a budget at least as long turns on the
rounding of floats at the boundary: `clientTimeoutSecondsBy_le_iff` says it of any monotone rounding, and
`clientTimeoutFloat_le_iff` of the floats; `clientTimeoutFloat_near` says how far the two arithmetics
are apart. That a margin below `-2 ^ 1023` is no float and raises is left out. -/

namespace XmemoryTemporal.Config

open XmemoryTemporal.Lib.Rounding XmemoryTemporal.Python.Time XmemoryTemporal.Python.Value

def defaultClientMarginSeconds : ℤ := 5

/-- Client budget for an activity whose Temporal deadline is `activitySeconds`; literals and results of
operations are rounded by `fl`. -/
def clientTimeoutSecondsBy (fl : ℚ → ℚ) (activitySeconds : ℚ) (marginSeconds : ℤ) : ℚ :=
  if activitySeconds ≤ marginSeconds then max (fl (1 / 10)) (fl (activitySeconds * fl (4 / 5)))
  else fl (activitySeconds - fl marginSeconds)

/-- The budget in exact arithmetic. -/
def clientTimeoutSeconds (activitySeconds : ℚ) (marginSeconds : ℤ) : ℚ :=
  clientTimeoutSecondsBy id activitySeconds marginSeconds

/-- Default `start_to_close` budgets. -/
structure XmemoryTimeouts where
  readSeconds : ℕ := 120
  writeSeconds : ℕ := 180
  writeStartSeconds : ℕ := 30
  writeStatusSeconds : ℕ := 30

/-- The fields of the worker's configuration that its activities read. -/
structure XmemoryConfig where
  clientMarginSeconds : ℤ := defaultClientMarginSeconds
  defaultExtractionLogic : String := "fast"

theorem clientTimeoutSeconds_eq (B : ℚ) (m : ℤ) :
    clientTimeoutSeconds B m = if B ≤ m then max (1 / 10) (B * (4 / 5)) else B - m := rfl

theorem proportional_lt_iff {B : ℚ} (hB : 0 < B) : max (1 / 10) (B * (4 / 5)) < B ↔ 1 / 10 < B := by
  rw [max_lt_iff]
  constructor
  · exact fun h => h.1
  · intro h
    have h2 : B * (4 / 5) < B := by linarith
    exact ⟨h, h2⟩

/-- **The client budget lies strictly between 0 and the deadline** exactly when the margin is positive
and the deadline above 0.1 s. -/
theorem clientTimeoutSeconds_between_iff {B : ℚ} (hB : 0 < B) (m : ℤ) :
    (0 < clientTimeoutSeconds B m ∧ clientTimeoutSeconds B m < B) ↔ 0 < m ∧ 1 / 10 < B := by
  rw [clientTimeoutSeconds_eq]
  split_ifs with h
  · have hm : 0 < m := by
      have h1 : (0 : ℚ) < m := lt_of_lt_of_le hB h
      exact_mod_cast h1
    have hpos : (0 : ℚ) < max (1 / 10) (B * (4 / 5)) := lt_max_of_lt_left (by norm_num)
    rw [proportional_lt_iff hB]
    exact ⟨fun h1 => ⟨hm, h1.2⟩, fun h1 => ⟨hpos, h1.2⟩⟩
  · rw [not_le] at h
    constructor
    · rintro ⟨-, h2⟩
      have hm : 0 < m := by
        have h1 : (0 : ℚ) < m := by linarith
        exact_mod_cast h1
      have h1 : (1 : ℚ) ≤ m := by exact_mod_cast hm
      exact ⟨hm, by linarith⟩
    · rintro ⟨hm, -⟩
      have h1 : (0 : ℚ) < m := by exact_mod_cast hm
      exact ⟨by linarith, by linarith⟩

/-! ### Two deadlines -/

/-- **A longer deadline has a budget at least as long** exactly when the margin does not separate the
two deadlines, or what the longer one has beyond it is the proportional budget of the shorter. -/
theorem clientTimeoutSecondsBy_le_iff {fl : ℚ → ℚ} (hmono : Monotone fl) (hshare : 0 ≤ fl (4 / 5)) {B C : ℚ}
    (hBC : B ≤ C) (m : ℤ) :
    clientTimeoutSecondsBy fl B m ≤ clientTimeoutSecondsBy fl C m ↔
      C ≤ m ∨ m < B ∨ max (fl (1 / 10)) (fl (B * fl (4 / 5))) ≤ fl (C - fl m) := by
  unfold clientTimeoutSecondsBy
  rcases le_or_gt C m with hC | hC
  · -- both within the margin
    have hB : B ≤ m := hBC.trans hC
    rw [if_pos hB, if_pos hC]
    have hprop : fl (B * fl (4 / 5)) ≤ fl (C * fl (4 / 5)) := hmono (mul_le_mul_of_nonneg_right hBC hshare)
    exact iff_of_true (max_le_max le_rfl hprop) (Or.inl hC)
  rw [if_neg (not_le.mpr hC)]
  rcases lt_or_ge (m : ℚ) B with hB | hB
  · -- both beyond it
    rw [if_neg (not_le.mpr hB)]
    have hleft : B - fl m ≤ C - fl m := by linarith
    exact iff_of_true (hmono hleft) (Or.inr (Or.inl hB))
  · rw [if_pos hB]
    constructor
    · intro h
      exact Or.inr (Or.inr h)
    · rintro (h | h | h)
      · exact absurd h (not_le.mpr hC)
      · exact absurd h (not_lt.mpr hB)
      · exact h

/-- In exact arithmetic the budget is monotone in the deadline only where no deadline is within the margin. -/
theorem clientTimeoutSeconds_monotoneOn_iff (m : ℤ) :
    MonotoneOn (fun B => clientTimeoutSeconds B m) (Set.Ioi 0) ↔ m ≤ 0 := by
  have hshare : (0 : ℚ) ≤ id (4 / 5) := by norm_num
  constructor
  · intro h
    by_contra hm
    have h1 : (0 : ℚ) < m := by exact_mod_cast not_le.mp hm
    -- the deadline at the margin, and one just beyond it
    have h2 : (m : ℚ) ≤ m + 1 / 20 := by linarith
    have h3 := h (Set.mem_Ioi.mpr h1) (Set.mem_Ioi.mpr (h1.trans_le h2)) h2
    rcases (clientTimeoutSecondsBy_le_iff monotone_id hshare h2 m).mp h3 with h4 | h4 | h4
    · linarith
    · linarith
    · have h5 := (le_max_left _ _).trans h4
      simp only [id] at h5
      linarith
  · intro hm B hB C _ hBC
    have h1 : (m : ℚ) ≤ 0 := by exact_mod_cast hm
    exact (clientTimeoutSecondsBy_le_iff monotone_id hshare hBC m).mpr (Or.inr (Or.inl (h1.trans_lt hB)))

/-! ### In floating point -/

theorem binary64_sub_margin {C : ℚ} (hC : 0 < C) (hlt : C < 2 ^ 53) {m : ℤ} (hm : 0 ≤ m)
    (h : m ≤ binary64 C) : binary64 (binary64 C - binary64 m) = binary64 C - m := by
  obtain ⟨n, rfl⟩ := Int.eq_ofNat_of_zero_le hm
  rw [Int.cast_natCast] at h ⊢
  have hbig : binary64 C ≤ ((2 ^ 53 : ℕ) : ℚ) := by
    rw [← binary64_natCast le_rfl]
    exact binary64_mono (by exact_mod_cast hlt.le)
  have hn : n ≤ 2 ^ 53 := by exact_mod_cast h.trans hbig
  rw [binary64_natCast hn]
  exact roundBits_sub_natCast (by omega) hC hlt h

theorem clientTimeoutFloat_le_iff {B C : ℚ} (hB : 0 < B) (hBC : B ≤ C) (hlt : C < 2 ^ 53) (m : ℤ) :
    clientTimeoutSecondsBy binary64 (binary64 B) m ≤ clientTimeoutSecondsBy binary64 (binary64 C) m ↔
      binary64 C ≤ m ∨ m < binary64 B ∨ (m + binary64 (1 / 10) ≤ binary64 C ∧
        m + binary64 (binary64 B * binary64 (4 / 5)) ≤ binary64 C) := by
  have hshare : 0 ≤ binary64 (4 / 5) := (binary64_pos (by norm_num)).le
  rw [clientTimeoutSecondsBy_le_iff binary64_mono hshare (binary64_mono hBC)]
  refine or_congr_right' fun hC => or_congr_right' fun hb => ?_
  have hpos : 0 < binary64 B := binary64_pos hB
  have hm : (0 : ℚ) < m := hpos.trans_le (not_lt.mp hb)
  rw [binary64_sub_margin (hB.trans_le hBC) hlt (by exact_mod_cast hm.le) (not_le.mp hC).le, max_le_iff]
  constructor
  · rintro ⟨h1, h2⟩
    exact ⟨by linarith, by linarith⟩
  · rintro ⟨h1, h2⟩
    exact ⟨by linarith, by linarith⟩

theorem share_near {B : ℚ} (hB : 0 < B) :
    |binary64 (binary64 B * binary64 (4 / 5)) - B * (4 / 5)| ≤ B / 2 ^ 51 := by
  have hb := abs_le.mp (abs_binary64_sub_le hB)
  have hpos : 0 < binary64 B := binary64_pos hB
  have hshare : binary64 (4 / 5) = 4 / 5 + 1 / (5 * 2 ^ 52) := by decide +kernel
  rw [hshare]
  set s : ℚ := 4 / 5 + 1 / (5 * 2 ^ 52) with hs
  have hs0 : 0 < s := by norm_num [hs]
  have herr := abs_le.mp (abs_binary64_sub_le (mul_pos hpos hs0))
  rw [abs_le]
  norm_num [hs] at hb herr ⊢
  constructor <;> linarith

/-- **The exact budget is near the one of the floats**, for a deadline of whole microseconds below some 136
years: one beyond the margin stays beyond it as a float. -/
theorem clientTimeoutFloat_near (B : Timedelta) (hB : 0 < B.micros) (hlt : B.micros < 2 ^ 32 * 1000000) {m : ℤ}
    (hm : 0 ≤ m) :
    |clientTimeoutSecondsBy binary64 (binary64 B.totalSeconds) m - clientTimeoutSeconds B.totalSeconds m| ≤
      (B.totalSeconds + 1) / 2 ^ 51 := by
  have hpos := Timedelta.totalSeconds_pos hB
  have hsmall : B.totalSeconds < 2 ^ 32 := by
    have h1 : (B.micros : ℚ) < 2 ^ 32 * 1000000 := by exact_mod_cast hlt
    unfold Timedelta.totalSeconds
    rwa [div_lt_iff₀ (by norm_num)]
  have hb := abs_le.mp (abs_binary64_sub_le hpos)
  have hm' : (0 : ℚ) ≤ m := by exact_mod_cast hm
  rw [clientTimeoutSeconds_eq]
  unfold clientTimeoutSecondsBy
  rcases le_or_gt B.totalSeconds m with hle | hgt
  · have hfloat : binary64 B.totalSeconds ≤ m := by
      obtain ⟨n, rfl⟩ := Int.eq_ofNat_of_zero_le hm
      rw [Int.cast_natCast] at hle ⊢
      rcases le_or_gt n (2 ^ 53) with hn | hn
      · rw [← binary64_natCast hn]
        exact binary64_mono hle
      · have hn' : (2 : ℚ) ^ 53 < n := by exact_mod_cast hn
        linarith
    rw [if_pos hle, if_pos hfloat]
    have hfloor : |binary64 (1 / 10) - 1 / 10| ≤ 1 / 10 / 2 ^ 53 := abs_binary64_sub_le (by norm_num)
    refine (abs_max_sub_max_le_max _ _ _ _).trans (max_le (hfloor.trans ?_) ((share_near hpos).trans ?_))
    · linarith
    · linarith
  · have hmicros : m * 1000000 + 1 ≤ B.micros := by
      unfold Timedelta.totalSeconds at hgt
      rw [lt_div_iff₀ (by norm_num)] at hgt
      have h1 : m * 1000000 < B.micros := by exact_mod_cast hgt
      omega
    have hfloat : m < binary64 B.totalSeconds := by
      have h1 : (m : ℚ) * 1000000 + 1 ≤ B.micros := by exact_mod_cast hmicros
      have h2 : (m : ℚ) + 1 / 1000000 ≤ B.totalSeconds := by
        unfold Timedelta.totalSeconds
        rw [le_div_iff₀ (by norm_num)]
        linarith
      linarith
    rw [if_neg (not_le.mpr hgt), if_neg (not_le.mpr hfloat), binary64_sub_margin hpos B.totalSeconds_lt hm hfloat.le]
    rw [abs_le]
    constructor <;> linarith

end XmemoryTemporal.Config
