import XmemoryTemporal.Errors

/-! # The server's retry hint

For a retryable API error the delay before the next attempt is the server's hint, cut off to whole
seconds and clamped to an hour (`nextRetryDelay_of_hint`). The cut is towards zero: a hint of whole
seconds, or beyond the clamp, is honoured, and any other is undercut, below a second altogether
(`hint_honoured_iff`). -/

namespace XmemoryTemporal.Errors.RetryHint

open XmemoryTemporal.Python.Value XmemoryTemporal.Python.Time XmemoryTemporal.Errors

/-- The number a hint is, if it is a finite one. -/
def hintNumber : PyVal → Option ℚ
  | .int i => some i
  | .bool b => some (if b then 1 else 0)
  | .float (.finite q) => some q
  | _ => none

/-- **The hint is honoured**: the delay exists, is no shorter than the hint up to the clamp and no longer
than the clamp, and any retryable error with a hint at least as long has a delay at least as long. -/
def HintHonoured (exc : ClientException) (h : ℚ) : Prop :=
  ∃ e d, toApplicationError exc = .ok e ∧ e.nextRetryDelay = some d ∧
    min h maxRetryDelaySeconds ≤ d.totalSeconds ∧ d.totalSeconds ≤ maxRetryDelaySeconds ∧
    ∀ exc' h', isApiError exc' = true → (verdictOf exc').2 = true →
      hintNumber (retryHint exc') = some h' → h ≤ h' →
      ∃ e' d', toApplicationError exc' = .ok e' ∧ e'.nextRetryDelay = some d' ∧
        d.totalSeconds ≤ d'.totalSeconds

/-! ### The delay of a hint -/

theorem intOf_hintNumber {v : PyVal} {h : ℚ} (hv : hintNumber v = some h) (hpos : 0 ≤ h) :
    intOf v = .ok ⌊h⌋ := by
  cases v with
  | int i =>
    cases hv
    simp [intOf]
  | bool b =>
    cases hv
    cases b <;> simp [intOf]
  | float x =>
    cases x with
    | finite q =>
      cases hv
      simp [intOf, hpos]
    | _ => cases hv
  | _ => cases hv

theorem clampedDelay_totalSeconds {n : ℤ} (h : 0 ≤ n) :
    (clampedDelay n).totalSeconds = min (n : ℚ) maxRetryDelaySeconds := by
  have hcast : ((n.toNat : ℕ) : ℚ) = n := by exact_mod_cast Int.toNat_of_nonneg h
  unfold Timedelta.totalSeconds clampedDelay Timedelta.ofSeconds
  push_cast
  rw [hcast, mul_div_assoc, div_self (by norm_num), mul_one]

variable {exc : ClientException} {h : ℚ}

/-- **The delay**: none for a hint below a second, else its whole seconds, clamped. -/
theorem nextRetryDelay_of_hint (hapi : isApiError exc = true) (hretry : (verdictOf exc).2 = true)
    (hhint : hintNumber (retryHint exc) = some h) (hpos : 0 < h) :
    ∃ e, toApplicationError exc = .ok e ∧
      e.nextRetryDelay = if h < 1 then none else some (clampedDelay ⌊h⌋) := by
  have hint := intOf_hintNumber hhint hpos.le
  have hfloor : ⌊h⌋ ≤ 0 ↔ h < 1 := by
    rw [← Int.lt_add_one_iff, zero_add, Int.floor_lt]
    norm_num
  have hdelay : retryDelay exc = .ok (if h < 1 then none else some (clampedDelay ⌊h⌋)) := by
    unfold retryDelay
    split
    · next hnone =>
      rw [hnone] at hhint
      cases hhint
    · rw [hint]
      simp only [hfloor]
  have hverdict : (apiVerdict exc).2 = true := by
    unfold verdictOf at hretry
    rwa [if_pos hapi] at hretry
  unfold toApplicationError
  rw [if_pos hapi, hdelay]
  refine ⟨_, rfl, ?_⟩
  unfold build
  rw [hverdict]
  rfl

theorem nextRetryDelay_of_one_le (hapi : isApiError exc = true) (hretry : (verdictOf exc).2 = true)
    (hhint : hintNumber (retryHint exc) = some h) (h1 : 1 ≤ h) :
    ∃ e d, toApplicationError exc = .ok e ∧ e.nextRetryDelay = some d ∧
      d.totalSeconds = min (⌊h⌋ : ℚ) maxRetryDelaySeconds := by
  have hpos : 0 < h := lt_of_lt_of_le one_pos h1
  obtain ⟨e, he, hd⟩ := nextRetryDelay_of_hint hapi hretry hhint hpos
  rw [if_neg (not_lt.mpr h1)] at hd
  exact ⟨e, clampedDelay ⌊h⌋, he, hd, clampedDelay_totalSeconds (Int.floor_nonneg.mpr hpos.le)⟩

theorem min_le_min_floor_iff (h c : ℚ) (hc : ∃ n : ℤ, c = n) :
    min h c ≤ min (⌊h⌋ : ℚ) c ↔ (∃ n : ℤ, h = n) ∨ c ≤ h := by
  constructor
  · intro hle
    rcases le_or_gt c h with hch | hhc
    · exact Or.inr hch
    · have h1 : h ≤ ⌊h⌋ := by
        rw [min_eq_left hhc.le] at hle
        exact hle.trans (min_le_left _ _)
      exact Or.inl ⟨⌊h⌋, le_antisymm h1 (Int.floor_le h)⟩
  · rintro (⟨n, rfl⟩ | hch)
    · rw [Int.floor_intCast]
    · obtain ⟨n, rfl⟩ := hc
      have h1 : (n : ℚ) ≤ ⌊h⌋ := by exact_mod_cast Int.le_floor.mpr hch
      rw [min_eq_right hch, min_eq_right h1]

/-- **When the server's hint is honoured**: exactly when it is of whole seconds, or at least the clamp. -/
theorem hint_honoured_iff (exc : ClientException) (h : ℚ) (hapi : isApiError exc = true)
    (hretry : (verdictOf exc).2 = true) (hhint : hintNumber (retryHint exc) = some h) (hpos : 0 < h) :
    HintHonoured exc h ↔ (∃ n : ℤ, h = n) ∨ maxRetryDelaySeconds ≤ h := by
  have hclamp : ∃ n : ℤ, ((maxRetryDelaySeconds : ℕ) : ℚ) = n := ⟨maxRetryDelaySeconds, by norm_cast⟩
  rcases lt_or_ge h 1 with h1 | h1
  · -- below a second: no delay, and no whole seconds
    refine iff_of_false ?_ ?_
    · rintro ⟨e, d, he, hd, -⟩
      obtain ⟨e', he', hd'⟩ := nextRetryDelay_of_hint hapi hretry hhint hpos
      rw [he] at he'
      cases he'
      rw [if_pos h1, hd] at hd'
      cases hd'
    · rintro (⟨n, rfl⟩ | hle)
      · have h2 : 0 < n := by exact_mod_cast hpos
        have h3 : n < 1 := by exact_mod_cast h1
        omega
      · have h2 : ((maxRetryDelaySeconds : ℕ) : ℚ) = 3600 := by norm_num [maxRetryDelaySeconds]
        linarith
  obtain ⟨e, d, he, hd, hseconds⟩ := nextRetryDelay_of_one_le hapi hretry hhint h1
  rw [← min_le_min_floor_iff h _ hclamp, ← hseconds]
  constructor
  · rintro ⟨e', d', he', hd', hle, -⟩
    rw [he] at he'
    cases he'
    rw [hd] at hd'
    cases hd'
    exact hle
  · intro hle
    refine ⟨e, d, he, hd, hle, ?_, ?_⟩
    · rw [hseconds]
      exact min_le_right _ _
    · intro exc' h' hapi' hretry' hhint' hh
      obtain ⟨e', d', he', hd', hseconds'⟩ := nextRetryDelay_of_one_le hapi' hretry' hhint' (h1.trans hh)
      refine ⟨e', d', he', hd', ?_⟩
      rw [hseconds, hseconds']
      have hfloor : (⌊h⌋ : ℚ) ≤ ⌊h'⌋ := by exact_mod_cast Int.floor_le_floor hh
      exact min_le_min_right _ hfloor

/-- A rate limit of the server, with its hint in the details. -/
def rateLimited (hint : PyVal) : ClientException :=
  { classes := [.other "XmemoryAPIError"], code := .value "RATE_LIMITED", status := .value 429
    retryAfter := .none, details := .value (.dict [("retry_after_seconds", hint)]) }

theorem hint_honoured_default : HintHonoured (rateLimited (.int 30)) 30 :=
  (hint_honoured_iff (rateLimited (.int 30)) 30 (by decide) (by decide) rfl (by norm_num)).mpr
    (Or.inl ⟨30, rfl⟩)

/-- A hint of a second and a half is not honoured: the next attempt is after a second. -/
theorem hint_undercut :
    hintNumber (retryHint (rateLimited (.float (.finite (3 / 2))))) = some (3 / 2) ∧
      ¬ HintHonoured (rateLimited (.float (.finite (3 / 2)))) (3 / 2) := by
  have hhint : hintNumber (retryHint (rateLimited (.float (.finite (3 / 2))))) = some (3 / 2) := rfl
  refine ⟨hhint, ?_⟩
  rintro ⟨e, d, he, hd, hle, -⟩
  obtain ⟨e', d', he', hd', hseconds⟩ :=
    nextRetryDelay_of_one_le (by decide) (by decide) hhint (by norm_num)
  rw [he] at he'
  cases he'
  rw [hd] at hd'
  cases hd'
  rw [hseconds] at hle
  norm_num [maxRetryDelaySeconds] at hle

end XmemoryTemporal.Errors.RetryHint
