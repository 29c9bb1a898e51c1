import XmemoryTemporal.Interceptor

/-! # What part of the ids a rate samples

The bucket of an id is its checksum modulo 1000, its residue, divided by 1000 in floating point. The buckets
of different residues are distinct and in order, so a rate samples the residues below a bound
(`sampled_iff`), which is as near to the rate as there are residues; and a rate of `m` thousandths, read as
a float itself, samples exactly `m` of them. -/

namespace XmemoryTemporal.Interceptor.Rate

open XmemoryTemporal.Python.Value XmemoryTemporal.Python.Zlib XmemoryTemporal.Activities
open XmemoryTemporal.Interceptor

/-- The residue of an activity id. -/
def residue (activityId : String) : ℕ := (crc32 activityId.toUTF8.data.toList).toNat % 1000

/-- The bucket of a residue. -/
def bucketOf (n : ℕ) : ℚ := floatQuotient n 1000

theorem residue_lt (activityId : String) : residue activityId < 1000 := Nat.mod_lt _ (by omega)

theorem samplingBucket_eq (activityId : String) :
    samplingBucket activityId = .finite (bucketOf (residue activityId)) := rfl

/-! ### The buckets -/

variable {m n k : ℕ}

theorem bucketOf_lt_iff (hm : m < 1000) (hn : n < 1000) : bucketOf m < bucketOf n ↔ m < n := by
  have hle : 1000 ≤ 2 ^ 52 := by norm_num
  constructor
  · intro h
    by_contra hge
    rcases Nat.eq_or_lt_of_le (not_lt.mp hge) with heq | hlt
    · rw [heq] at h
      exact lt_irrefl _ h
    · have hback : bucketOf n < bucketOf m := floatQuotient_lt hle hlt hm
      exact lt_asymm h hback
  · intro h
    exact floatQuotient_lt hle h hn

theorem bucketOf_near (hn : n < 1000) : |bucketOf n - (n : ℚ) / 1000| ≤ 1 / (2 * 2 ^ 53) := by
  have h := floatQuotient_near hn
  rw [Nat.cast_ofNat] at h
  exact h

theorem bucketOf_zero : bucketOf 0 = 0 := floatQuotient_zero 1000

theorem bucketOf_range (hn : n < 1000) : 0 ≤ bucketOf n ∧ bucketOf n < 1 := by
  constructor
  · rcases Nat.eq_zero_or_pos n with rfl | hpos
    · rw [bucketOf_zero]
    · have h := (bucketOf_lt_iff (by omega) hn).mpr hpos
      rw [bucketOf_zero] at h
      exact h.le
  · have hnear := (abs_le.mp (bucketOf_near hn)).2
    have hn' : (n : ℚ) ≤ 999 := by exact_mod_cast Nat.le_of_lt_succ hn
    have hunit : 1 / (2 * 2 ^ 53 : ℚ) < 1 / 1000 := by norm_num
    linarith

/-! ### The rates -/

section Rates
variable {ρ ε : Type} {auto : AutoCaptureConfig ρ ε} {info : ActivityInfo} {q : ℚ}

/-- **The decision is one comparison**: a rate of at least 1 is above all buckets, one of at most 0 above
none, and what is not a number is neither. -/
theorem shouldSample_eq : shouldSample auto info = PyFloat.lt (samplingBucket info.activityId) auto.sampleRate := by
  have hrange := bucketOf_range (residue_lt info.activityId)
  unfold shouldSample
  rw [samplingBucket_eq]
  rcases auto.sampleRate with q | _ | _ | _
  · simp only [PyFloat.le, PyFloat.lt, decide_eq_true_eq]
    split_ifs with h1 h0
    · exact (decide_eq_true (lt_of_lt_of_le hrange.2 h1)).symm
    · exact (decide_eq_false (not_lt.mpr (h0.trans hrange.1))).symm
    · rfl
  · rfl
  · rfl
  · rfl

theorem shouldSample_iff (hq : auto.sampleRate = .finite q) :
    shouldSample auto info = true ↔ bucketOf (residue info.activityId) < q := by
  rw [shouldSample_eq, samplingBucket_eq, hq]
  exact decide_eq_true_iff

theorem finite_lt_of_lt_of_le {b : ℚ} {x y : PyFloat} (h : PyFloat.lt (.finite b) x = true) (hle : PyFloat.le x y = true) :
    PyFloat.lt (.finite b) y = true := by
  rcases x with q | _ | _ | _ <;> rcases y with r | _ | _ | _ <;> simp_all [PyFloat.lt, PyFloat.le]
  exact h.trans_le hle

theorem exists_bound (q : ℚ) : ∃ k : ℕ, k ≤ 1000 ∧ ∀ n < 1000, bucketOf n < q ↔ n < k := by
  have hexists : ∃ k, k = 1000 ∨ q ≤ bucketOf k := ⟨1000, Or.inl rfl⟩
  have hk := Nat.find_spec hexists
  set k := Nat.find hexists with hdef
  have hle : k ≤ 1000 := Nat.find_min' hexists (Or.inl rfl)
  refine ⟨k, hle, fun n hn => ⟨fun h => ?_, fun h => ?_⟩⟩
  · by_contra hge
    rcases hk with hk | hk
    · omega
    · rcases Nat.eq_or_lt_of_le (not_lt.mp hge) with heq | hlt
      · rw [← heq] at h
        exact absurd h (not_lt.mpr hk)
      · have hlt' := (bucketOf_lt_iff (hlt.trans hn) hn).mpr hlt
        exact absurd (hlt'.trans h) (not_lt.mpr hk)
  · have hmin := Nat.find_min hexists h
    rw [not_or, not_le] at hmin
    exact hmin.2

theorem bound_near (h0 : 0 ≤ q) (h1 : q ≤ 1) (hk : k ≤ 1000) (h : ∀ n < 1000, bucketOf n < q ↔ n < k) :
    |(k : ℚ) / 1000 - q| ≤ 1 / 1000 + 1 / (2 * 2 ^ 53) := by
  have hunit : 0 < 1 / (2 * 2 ^ 53 : ℚ) := by norm_num
  rw [abs_le]
  constructor
  · -- the bound is not below the rate by more than the error of its bucket
    rcases Nat.eq_or_lt_of_le hk with rfl | hlt
    · rw [Nat.cast_ofNat]
      linarith
    · have hge := mt (h k hlt).mp (lt_irrefl k)
      have hnear := (abs_le.mp (bucketOf_near hlt)).2
      have hle := not_lt.mp hge
      linarith
  · rcases k with _ | k
    · rw [Nat.cast_zero]
      linarith
    · have hlt := (h k (by omega)).mpr (Nat.lt_succ_self k)
      have hnear := (abs_le.mp (bucketOf_near (n := k) (by omega))).1
      push_cast
      linarith

end Rates

/-- **A rate samples its part of the residues.** An id is sampled if its residue is below a bound, which is
within a thousandth of the rate; for a rate of `m` thousandths the bound is `m`; and of two rates the higher
one samples every id the lower one does. -/
theorem sampled_iff {ρ ε : Type} (auto : AutoCaptureConfig ρ ε) :
    (∀ q, auto.sampleRate = .finite q → 0 ≤ q → q ≤ 1 →
      ∃ k : ℕ, k ≤ 1000 ∧ |(k : ℚ) / 1000 - q| ≤ 1 / 1000 + 1 / (2 * 2 ^ 53) ∧
        ∀ info, shouldSample auto info = true ↔ residue info.activityId < k) ∧
    (∀ m ≤ 1000, auto.sampleRate = .finite (floatQuotient m 1000) →
      ∀ info, shouldSample auto info = true ↔ residue info.activityId < m) ∧
    ∀ higher : AutoCaptureConfig ρ ε, PyFloat.le auto.sampleRate higher.sampleRate = true →
      ∀ info, shouldSample auto info = true → shouldSample higher info = true := by
  refine ⟨fun q hq h0 h1 => ?_, fun m hm hq info => ?_, fun higher hle info h => ?_⟩
  · obtain ⟨k, hk, hbound⟩ := exists_bound q
    refine ⟨k, hk, bound_near h0 h1 hk hbound, fun info => ?_⟩
    rw [shouldSample_iff hq, hbound _ (residue_lt info.activityId)]
  · rw [shouldSample_iff hq]
    rcases Nat.eq_or_lt_of_le hm with rfl | hlt
    · have hone : floatQuotient 1000 1000 = 1 := by decide +kernel
      rw [hone]
      exact iff_of_true (bucketOf_range (residue_lt _)).2 (residue_lt _)
    · exact bucketOf_lt_iff (residue_lt _) hlt
  · rw [shouldSample_eq, samplingBucket_eq] at h ⊢
    exact finite_lt_of_lt_of_le h hle

end XmemoryTemporal.Interceptor.Rate
