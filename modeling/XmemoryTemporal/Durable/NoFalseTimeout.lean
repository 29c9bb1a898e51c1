import XmemoryTemporal.Durable.Deadline

/-! # When a completed write times out

Polls take no time and timers fire on schedule: poll `k` is then made at `pollTime k`, the time the
enqueue returned plus the first `k` delays. The loop gives up as soon as the next poll would not be
before the deadline and polls no more, so that a write which completes between the last poll and the
deadline is reported as timed out. `no_false_timeout_iff` is the exact condition. -/

namespace XmemoryTemporal.Durable.NoFalseTimeout

open XmemoryTemporal.Python.Time XmemoryTemporal.Dto XmemoryTemporal.Errors XmemoryTemporal.WorkflowApi
open XmemoryTemporal.Durable.Turn XmemoryTemporal.Durable.Outcome XmemoryTemporal.Durable.Deadline

variable (x : WorkflowXmemory) (a : DurableArgs) (now : Datetime) (start : WriteStartOutput)

/-- When poll `k` is made. -/
def pollTime : ℕ → ℤ
  | 0 => now.micros
  | k + 1 => pollTime k + delayAt a k

/-- What the server answers a poll at each time. -/
abbrev History : Type := Datetime → WriteStatusResult

/-- The write is in non-terminal states before `T`, and completed from then on. -/
def CompletesAt (server : History) (T : ℤ) : Prop :=
  ∀ t : Datetime, (t.micros < T → ¬ Terminal (projectWriteStatus (server t)).writeStatus) ∧
    (T ≤ t.micros → (projectWriteStatus (server t)).writeStatus = statusCompleted)

/-- Polls that take no time, between timers on schedule. -/
def Punctual (server : History) (σ : Stream'.Seq Poll) : Prop :=
  ∀ k p, σ.get? k = some p → p.arrived.micros = pollTime a now k ∧ p.result = server p.arrived

/-- The call returns the completed status at some poll, of all punctual streams that come so far, and never
times out; some stream does come so far. -/
def ReturnsCompleted (server : History) : Prop :=
  (∃ k, (∃ σ p, Punctual a now server σ ∧ σ.get? k = some p) ∧
    ∀ σ p, Punctual a now server σ → σ.get? k = some p →
      ∃ status, ReturnsAt x a now start σ k status ∧ status.writeStatus = statusCompleted) ∧
  ∀ σ, Punctual a now server σ → ∀ k, ¬ RaisesAt x a now start σ k typeWriteTimeout

variable {x a now start}

theorem pollTime_mono (hfirst : 0 ≤ a.firstDelay.micros) (hcap : 0 ≤ a.cap.micros) {i j : ℕ}
    (hij : i ≤ j) : pollTime a now i ≤ pollTime a now j := by
  refine monotone_nat_of_le_succ (fun k => ?_) hij
  have h := delayAt_nonneg hfirst hcap k
  show _ ≤ pollTime a now k + delayAt a k
  omega

/-- The schedule stays within the calendar up to the deadline. -/
theorem pollTime_isDate (hfirst : 0 ≤ a.firstDelay.micros) (hcap : 0 ≤ a.cap.micros)
    (hD : IsDate (deadlineOf a now)) {j k : ℕ} (hjk : j ≤ k) (hlt : pollTime a now k < deadlineOf a now) :
    IsDate (pollTime a now j) := by
  have h0 : now.micros ≤ pollTime a now j := pollTime_mono hfirst hcap (Nat.zero_le j)
  have hle : pollTime a now j ≤ pollTime a now k := pollTime_mono hfirst hcap hjk
  have hnow := now.nonneg
  have hmax := hD.2
  exact ⟨by omega, by omega⟩

/-- The date of a number of microseconds. -/
def dateOf (n : ℤ) : Datetime := (Datetime.ofMicros? n).getD firstDay

theorem dateOf_micros {n : ℤ} (h : IsDate n) : (dateOf n).micros = n := by
  unfold dateOf Datetime.ofMicros?
  unfold IsDate at h
  rw [dif_pos h]
  rfl

/-- The polls at the first times of the schedule. -/
def punctualPolls (a : DurableArgs) (now : Datetime) (server : History) (n : ℕ) : List Poll :=
  (List.range n).map fun j =>
    { result := server (dateOf (pollTime a now j)), arrived := dateOf (pollTime a now j) }

theorem punctualPolls_get {server : History} {n k : ℕ} :
    (Stream'.Seq.ofList (punctualPolls a now server n)).get? k =
      if k < n then some { result := server (dateOf (pollTime a now k))
                           arrived := dateOf (pollTime a now k) } else none := by
  rw [Stream'.Seq.ofList_get?, punctualPolls, List.getElem?_map]
  by_cases h : k < n
  · rw [List.getElem?_range h, if_pos h]
    rfl
  · rw [List.getElem?_eq_none (by simpa using h), if_neg h]
    rfl

theorem punctualPolls_punctual {server : History} {n : ℕ} (h : ∀ j < n, IsDate (pollTime a now j)) :
    Punctual a now server (Stream'.Seq.ofList (punctualPolls a now server n)) := by
  intro k p hp
  rw [punctualPolls_get] at hp
  by_cases hk : k < n
  · rw [if_pos hk] at hp
    cases hp
    exact ⟨dateOf_micros (h k hk), rfl⟩
  · rw [if_neg hk] at hp
    simp at hp

section Completes
variable {server : History} {T : ℤ} {σ : Stream'.Seq Poll}

theorem punctual_terminal_iff (hT : CompletesAt server T) (hσ : Punctual a now server σ) {k : ℕ}
    {p : Poll} (hp : σ.get? k = some p) :
    Terminal p.status.writeStatus ↔ T ≤ pollTime a now k := by
  obtain ⟨harrived, hresult⟩ := hσ k p hp
  have hstatus : p.status = projectWriteStatus (server p.arrived) := by
    unfold Poll.status
    rw [hresult]
  rw [hstatus, ← harrived]
  constructor
  · intro ht
    by_contra hlt
    exact (hT p.arrived).1 (not_le.mp hlt) ht
  · intro hle
    exact Or.inl ((hT p.arrived).2 hle)

theorem pollTime_of_returns (hwait : 0 < a.maxWait.micros) (hT : CompletesAt server T)
    (hσ : Punctual a now server σ) {k : ℕ} {status : WriteStatusOutput}
    (h : ReturnsAt x a now start σ k status) :
    IsDate (deadlineOf a now) ∧ T ≤ pollTime a now k ∧ pollTime a now k < deadlineOf a now := by
  obtain ⟨p, ⟨hp, ht, -⟩, hg, -⟩ := returnsAt_iff.mp h
  refine ⟨hg.1, (punctual_terminal_iff hT hσ hp).mp ht, ?_⟩
  rcases k with _ | k
  · show now.micros < now.micros + a.maxWait.micros
    omega
  · obtain ⟨q, hq⟩ := σ.ge_stable (Nat.le_succ k) hp
    have hlt := (hg.2 k (Nat.lt_succ_self k) q hq).2
    rw [(hσ k q hq).1] at hlt
    exact hlt

theorem pollTime_of_raises (hT : CompletesAt server T) (hσ : Punctual a now server σ) {k : ℕ}
    (h : RaisesAt x a now start σ k typeWriteTimeout) :
    pollTime a now k < T ∧ deadlineOf a now ≤ pollTime a now (k + 1) := by
  obtain ⟨p, hp, hnt, hlate⟩ := raisesAt_timeout h
  rw [(hσ k p hp).1] at hlate
  refine ⟨?_, hlate⟩
  by_contra hle
  exact hnt ((punctual_terminal_iff hT hσ hp).mpr (not_lt.mp hle))

theorem returns_of_first (hfirst : 0 ≤ a.firstDelay.micros) (hcap : 0 ≤ a.cap.micros)
    (hT : CompletesAt server T) (hσ : Punctual a now server σ) {k : ℕ} {p : Poll} (hp : σ.get? k = some p)
    (hD : IsDate (deadlineOf a now)) (hle : T ≤ pollTime a now k) (hbefore : ∀ j < k, pollTime a now j < T)
    (hlt : pollTime a now k < deadlineOf a now) :
    ∃ status, ReturnsAt x a now start σ k status ∧ status.writeStatus = statusCompleted := by
  have hterm : FirstTerminal σ k p := by
    refine ⟨hp, (punctual_terminal_iff hT hσ hp).mpr hle, fun j hj q hq ht => ?_⟩
    have h := (punctual_terminal_iff hT hσ hq).mp ht
    exact absurd (hbefore j hj) (not_lt.mpr h)
  have hgoes : NotGivenUpBefore a now σ k := by
    refine ⟨hD, fun j hj q hq => ?_⟩
    have hstep : pollTime a now (j + 1) = pollTime a now j + delayAt a j := rfl
    rw [(hσ j q hq).1, ← hstep]
    have hjk : pollTime a now (j + 1) ≤ pollTime a now k := pollTime_mono hfirst hcap (by omega)
    exact ⟨(pollTime_isDate hfirst hcap hD (by omega) hlt).1, by omega⟩
  have hstatus : p.status.writeStatus = statusCompleted := by
    obtain ⟨harrived, hresult⟩ := hσ k p hp
    unfold Poll.status
    rw [hresult]
    exact (hT p.arrived).2 (by rw [harrived]; exact hle)
  exact ⟨p.status, returnsAt_iff.mpr ⟨p, hterm, hgoes, hstatus, rfl⟩, hstatus⟩

theorem punctual_exists (hfirst : 0 ≤ a.firstDelay.micros) (hcap : 0 ≤ a.cap.micros)
    (hD : IsDate (deadlineOf a now)) {k : ℕ} (hlt : pollTime a now k < deadlineOf a now) (server : History) :
    ∃ σ p, Punctual a now server σ ∧ σ.get? k = some p := by
  have hdate : ∀ j < k + 1, IsDate (pollTime a now j) := fun j hj =>
    pollTime_isDate hfirst hcap hD (Nat.le_of_lt_succ hj) hlt
  exact ⟨_, _, punctualPolls_punctual hdate, punctualPolls_get.trans (if_pos (Nat.lt_succ_self k))⟩

end Completes

/-- **A completed write is returned, and never reported as timed out, exactly when some poll of the
schedule falls between its completion and the deadline.** -/
theorem no_false_timeout_iff (x : WorkflowXmemory) (a : DurableArgs) (now : Datetime)
    (start : WriteStartOutput) (server : History) (T : ℤ) (hfirst : 0 < a.firstDelay.micros)
    (hcap : 0 < a.cap.micros) (hwait : 0 < a.maxWait.micros) (hT : CompletesAt server T) :
    ReturnsCompleted x a now start server ↔
      IsDate (deadlineOf a now) ∧ ∃ k, T ≤ pollTime a now k ∧ pollTime a now k < deadlineOf a now := by
  have hmono : ∀ {i j : ℕ}, i ≤ j → pollTime a now i ≤ pollTime a now j := pollTime_mono hfirst.le hcap.le
  constructor
  · rintro ⟨⟨k, ⟨σ, p, hσ, hp⟩, hall⟩, -⟩
    obtain ⟨status, hret, -⟩ := hall σ p hσ hp
    obtain ⟨hD, hle, hlt⟩ := pollTime_of_returns hwait hT hσ hret
    exact ⟨hD, k, hle, hlt⟩
  · rintro ⟨hD, k, hle, hlt⟩
    -- the first poll after the completion is the one that returns
    have hex : ∃ j, T ≤ pollTime a now j := ⟨k, hle⟩
    have hbefore : ∀ j < Nat.find hex, pollTime a now j < T := fun j hj => not_le.mp (Nat.find_min hex hj)
    have hfound : pollTime a now (Nat.find hex) ≤ pollTime a now k := hmono (Nat.find_min' hex hle)
    have hlt' : pollTime a now (Nat.find hex) < deadlineOf a now := by omega
    refine ⟨⟨Nat.find hex, punctual_exists hfirst.le hcap.le hD hlt' server, fun σ p hσ hp =>
      returns_of_first hfirst.le hcap.le hT hσ hp hD (Nat.find_spec hex) hbefore hlt'⟩, fun σ hσ j hraise => ?_⟩
    obtain ⟨hearly, hlate⟩ := pollTime_of_raises hT hσ hraise
    have hjk : j + 1 ≤ k := by
      by_contra hkj
      have h : pollTime a now k ≤ pollTime a now j := hmono (by omega)
      omega
    have h : pollTime a now (j + 1) ≤ pollTime a now k := hmono hjk
    omega

/-- A server that reports the write as queued before `T` and as completed from then on. -/
def queuedUntil (T : ℤ) : History := fun t =>
  if t.micros < T then reportOf "queued" else reportOf statusCompleted

theorem queuedUntil_completes (T : ℤ) : CompletesAt (queuedUntil T) T := by
  intro t
  unfold queuedUntil
  constructor
  · intro h
    rw [if_pos h]
    unfold Terminal
    decide
  · intro h
    rw [if_neg (not_lt.mpr h)]
    rfl

/-- Polls every ten seconds or more rarely, for fifteen seconds. -/
def impatient : DurableArgs :=
  { write := {}, pollInterval := some (.ofSeconds 10 (by decide)), maxWait := .ofSeconds 15 (by decide) }

/-- A write that completes after five seconds is returned by the poll at ten. -/
theorem no_false_timeout_five_seconds :
    ReturnsCompleted defaultHandle impatient firstDay ⟨some "w1"⟩ (queuedUntil 5000000) :=
  (no_false_timeout_iff defaultHandle impatient firstDay ⟨some "w1"⟩ (queuedUntil 5000000)
    5000000 (by decide) (by decide) (by decide) (queuedUntil_completes _)).mpr
    ⟨by unfold IsDate; decide, 1, by decide, by decide⟩

theorem impatient_raises :
    RaisesAt defaultHandle impatient firstDay ⟨some "w1"⟩
      (Stream'.Seq.ofList (punctualPolls impatient firstDay (queuedUntil 12000000) 2)) 1
      typeWriteTimeout :=
  ⟨2, _, ⟨rfl, rfl⟩, rfl⟩

/-- A write that completes after twelve seconds, three before the deadline, is reported as timed out at
ten. -/
theorem completed_write_times_out :
    ∃ (x : WorkflowXmemory) (a : DurableArgs) (now : Datetime) (start : WriteStartOutput)
      (server : History) (T : ℤ), 0 < a.firstDelay.micros ∧ 0 < a.cap.micros ∧ 0 < a.maxWait.micros ∧
      CompletesAt server T ∧ T < deadlineOf a now ∧ ¬ ReturnsCompleted x a now start server := by
  refine ⟨defaultHandle, impatient, firstDay, ⟨some "w1"⟩, queuedUntil 12000000, 12000000,
    by decide, by decide, by decide, queuedUntil_completes _, by decide, ?_⟩
  rintro ⟨-, hnever⟩
  have hdate : ∀ j < 2, IsDate (pollTime impatient firstDay j) := by
    unfold IsDate
    decide
  exact hnever _ (punctualPolls_punctual hdate) 1 impatient_raises

end XmemoryTemporal.Durable.NoFalseTimeout
