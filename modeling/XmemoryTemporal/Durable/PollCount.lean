import XmemoryTemporal.Durable.NoFalseTimeout
import XmemoryTemporal.Durable.Range

/-! # How many polls there are at most

`pollTime k` is the time of poll `k` when nothing takes any time. A poll that is made is at its place in
this schedule or later, so it is made only if that place is before the deadline (`scheduled_before`); and a
write that is never done, polled on schedule, is polled at every such place (`punctual_polls`). So the number
of places before the deadline is the greatest number of polls, and some call makes so many
(`most_polls`). -/

namespace XmemoryTemporal.Durable.PollCount

open XmemoryTemporal.Python.Time XmemoryTemporal.Lib.Loop XmemoryTemporal.Dto XmemoryTemporal.Errors
open XmemoryTemporal.WorkflowApi XmemoryTemporal.Durable.Turn XmemoryTemporal.Durable.Outcome
open XmemoryTemporal.Durable.Deadline XmemoryTemporal.Durable.NoFalseTimeout
open XmemoryTemporal.Durable.Backoff XmemoryTemporal.Durable.Range

/-- The schedule has a place for poll `k`: the first, and those before the deadline. -/
def Scheduled (a : DurableArgs) (now : Datetime) (k : ℕ) : Prop :=
  k = 0 ∨ pollTime a now k < deadlineOf a now

instance (a : DurableArgs) (now : Datetime) (k : ℕ) : Decidable (Scheduled a now k) := by
  unfold Scheduled
  infer_instance

section Count
variable {x : WorkflowXmemory} {a : DurableArgs} {now : Datetime} {start : WriteStartOutput}
  {polls : List Poll} {k n : ℕ}

theorem pollTime_le_arrived (hpolls : TakesAtLeast a now 0 polls) {p : Poll} (hp : polls[k]? = some p) :
    pollTime a now k ≤ p.arrived.micros := by
  induction k generalizing p with
  | zero =>
    have h := hpolls.first p hp
    rw [add_zero] at h
    exact_mod_cast h
  | succ k ih =>
    have hlen := (List.getElem?_eq_some_iff.mp hp).1
    obtain ⟨q, hq⟩ : ∃ q, polls[k]? = some q := ⟨_, List.getElem?_eq_getElem (by omega)⟩
    have hstep := hpolls.next k q p hq hp
    have hstep' : q.arrived.micros + delayAt a k ≤ p.arrived.micros := by
      rw [add_zero] at hstep
      exact_mod_cast hstep
    have hbefore := ih hq
    show pollTime a now k + delayAt a k ≤ p.arrived.micros
    omega

/-- **A poll that is made has a place in the schedule.** -/
theorem scheduled_of_made (hpolls : TakesAtLeast a now 0 polls)
    (hk : k < (writeDurable x a now start polls).turns.length) : Scheduled a now k := by
  rcases k with _ | k
  · exact Or.inl rfl
  · right
    by_cases hD : IsDate (deadlineOf a now)
    · obtain ⟨p, hp, hlt⟩ := waited_before hD hk
      have harrived := pollTime_le_arrived hpolls hp
      show pollTime a now k + delayAt a k < deadlineOf a now
      omega
    · rw [turns_of_not_date hD] at hk
      simp at hk

theorem isDate_of_scheduled (hfirst : 0 ≤ a.firstDelay.micros) (hcap : 0 ≤ a.cap.micros)
    (hD : IsDate (deadlineOf a now)) (hk : Scheduled a now k) : IsDate (pollTime a now k) := by
  rcases hk with rfl | hk
  · exact ⟨now.nonneg, now.le_max⟩
  · exact pollTime_isDate hfirst hcap hD (le_refl k) hk

/-- A server that never reports an end of the write. -/
def NeverEnds (server : History) : Prop := ∀ t, ¬ Terminal (projectWriteStatus (server t)).writeStatus

/-- At least `n` polls, on schedule. -/
structure PolledOnSchedule (a : DurableArgs) (now : Datetime) (server : History) (n : ℕ) (polls : List Poll) :
    Prop where
  punctual : Punctual a now server (Stream'.Seq.ofList polls)
  length : n ≤ polls.length

theorem polledOnSchedule_punctualPolls {server : History} (hdate : ∀ j < n, IsDate (pollTime a now j)) :
    PolledOnSchedule a now server n (punctualPolls a now server n) where
  punctual := punctualPolls_punctual hdate
  length := by simp [punctualPolls]

section Punctual
variable {server : History}

theorem PolledOnSchedule.arrived (hpolls : PolledOnSchedule a now server n polls) {p : Poll}
    (hp : polls[k]? = some p) : p.arrived.micros = pollTime a now k ∧ p.result = server p.arrived :=
  hpolls.punctual k p (by rw [Stream'.Seq.ofList_get?]; exact hp)

theorem PolledOnSchedule.nonterminal (hpolls : PolledOnSchedule a now server n polls) (hserver : NeverEnds server)
    {p : Poll} (hp : polls[k]? = some p) : ¬ Terminal p.status.writeStatus := by
  unfold Poll.status
  rw [(hpolls.arrived hp).2]
  exact hserver p.arrived

theorem PolledOnSchedule.get (hpolls : PolledOnSchedule a now server n polls) (hk : k < n) :
    ∃ p, polls[k]? = some p := by
  have hlen := hpolls.length
  exact ⟨_, List.getElem?_eq_getElem (by omega)⟩

theorem PolledOnSchedule.takesAtLeast (hpolls : PolledOnSchedule a now server n polls) :
    TakesAtLeast a now 0 polls := by
  refine ⟨fun p hp => ?_, fun j p q hp hq => ?_⟩
  · rw [(hpolls.arrived hp).1, add_zero]
    exact le_refl _
  · have hstep : pollTime a now (j + 1) = pollTime a now j + delayAt a j := rfl
    rw [(hpolls.arrived hp).1, (hpolls.arrived hq).1, add_zero, hstep]
    push_cast
    exact le_refl _

theorem PolledOnSchedule.waitsAt (hpolls : PolledOnSchedule a now server n polls) (hserver : NeverEnds server)
    (hfirst : 0 ≤ a.firstDelay.micros) (hcap : 0 ≤ a.cap.micros) (hk : k < n)
    (hnext : Scheduled a now (k + 1)) : WaitsAt a now polls k := by
  obtain ⟨p, hp⟩ := hpolls.get hk
  have harrived := (hpolls.arrived hp).1
  have hlt : pollTime a now (k + 1) < deadlineOf a now := by
    rcases hnext with h | h
    · simp at h
    · exact h
  have hstep : pollTime a now (k + 1) = pollTime a now k + delayAt a k := rfl
  have hdelay := delayAt_nonneg hfirst hcap k
  have hnonneg := p.arrived.nonneg
  exact ⟨p, hp, hpolls.nonterminal hserver hp, by omega, by omega⟩

variable (x start) in
/-- **Polls on schedule are made at every place**, if the write is never done. -/
theorem made_of_scheduled (hpolls : PolledOnSchedule a now server n polls) (hserver : NeverEnds server)
    (hfirst : 0 ≤ a.firstDelay.micros) (hcap : 0 ≤ a.cap.micros) (hD : IsDate (deadlineOf a now))
    (hall : ∀ j ≤ k, Scheduled a now j) (hk : k < n) :
    k < (writeDurable x a now start polls).turns.length := by
  obtain ⟨l, hs, hrun⟩ := writeDurable_loop x start hD polls
  have hgo : ∀ j < k, GoesOn l polls j := fun j hj =>
    (goesOn_iff_waitsAt hs j).mpr (hpolls.waitsAt hserver hfirst hcap (by omega) (hall (j + 1) (by omega)))
  have hlen : k ≤ polls.length := by
    have hn := hpolls.length
    omega
  obtain ⟨t, ht⟩ := (reached_iff (x := x) k hlen).mpr hgo
  have hrecord := (record_iff k).mpr ⟨t, hlen, ht, rfl⟩
  rw [hrun]
  exact (List.getElem?_eq_some_iff.mp hrecord).1

end Punctual

end Count

/-- **The greatest number of polls** is the number of places the schedule has before the deadline: no call
makes more, whatever it is answered and however long that takes, and every call that is polled on schedule
and never answered with an end makes as many, and gives up at the last. It raises the timeout then, or
Python's own error where the time of the next poll is no date. -/
theorem most_polls (x : WorkflowXmemory) (a : DurableArgs) (now : Datetime) (start : WriteStartOutput) (N : ℕ)
    (hfirst : 0 ≤ a.firstDelay.micros) (hcap : 0 ≤ a.cap.micros) (hD : IsDate (deadlineOf a now))
    (hN : ∀ k, k < N ↔ Scheduled a now k) :
    (∀ polls, TakesAtLeast a now 0 polls → (writeDurable x a now start polls).turns.length ≤ N) ∧
    ∀ server, NeverEnds server → PolledOnSchedule a now server N (punctualPolls a now server N) ∧
      ∀ polls, PolledOnSchedule a now server N polls →
        let r := writeDurable x a now start polls
        TakesAtLeast a now 0 polls ∧ r.turns.length = N ∧
        (IsDate (pollTime a now N) → TimesOut r (N - 1)) ∧
        (¬ IsDate (pollTime a now N) → EndsAt r (N - 1) (.error .overflowError)) := by
  have hmost : ∀ polls, TakesAtLeast a now 0 polls →
      (writeDurable x a now start polls).turns.length ≤ N := by
    intro polls hpolls
    by_contra hlt
    have hplace := scheduled_of_made hpolls (not_le.mp hlt)
    exact absurd ((hN N).mpr hplace) (lt_irrefl N)
  have hpos : 0 < N := (hN 0).mpr (Or.inl rfl)
  have hlast : N - 1 < N := by omega
  have hdate : ∀ j < N, IsDate (pollTime a now j) := fun j hj => isDate_of_scheduled hfirst hcap hD ((hN j).mp hj)
  refine ⟨hmost, fun server hserver => ⟨polledOnSchedule_punctualPolls hdate, fun polls hpolls => ?_⟩⟩
  intro r
  have htakes := hpolls.takesAtLeast
  have hmade : N - 1 < r.turns.length :=
    made_of_scheduled x start hpolls hserver hfirst hcap hD (fun j hj => (hN j).mp (by omega)) hlast
  have hlen : r.turns.length = N := by
    have hle : r.turns.length ≤ N := hmost polls htakes
    omega
  refine ⟨htakes, hlen, ?_⟩
  -- at the last place there is no time for another
  obtain ⟨p, hp⟩ := hpolls.get hlast
  have hnt := hpolls.nonterminal hserver hp
  have hnext : pollTime a now N = p.arrived.micros + delayAt a (N - 1) := by
    rw [(hpolls.arrived hp).1]
    obtain ⟨m, rfl⟩ : ∃ m, N = m + 1 := ⟨N - 1, by omega⟩
    rfl
  constructor
  · intro hwake
    rcases turn_at hD hp (List.getElem?_eq_getElem hmade) with ⟨o, hend, -, hv⟩ | ⟨-, hlt, -⟩
    · rcases hv with hv | ⟨-, e, rfl, ⟨-, l, rfl⟩ | ⟨hno, -⟩⟩
      · exact absurd hv.terminal hnt
      · exact ⟨_, hend, rfl⟩
      · rw [← hnext] at hno
        exact absurd hwake hno
    · rw [← hnext] at hlt
      exact absurd ((hN N).mpr (Or.inr hlt)) (lt_irrefl N)
  · intro hwake
    have hbefore : ∀ j < N - 1, WaitsAt a now polls j := fun j hj =>
      hpolls.waitsAt hserver hfirst hcap (by omega) ((hN (j + 1)).mp (by omega))
    rw [hnext] at hwake
    refine ⟨overflow_iff.mpr (Or.inr ⟨N - 1, p, ⟨hp, hnt, hbefore⟩, hwake⟩), ?_⟩
    show r.turns.length = _
    omega

theorem scheduled_default (k : ℕ) : k < 35 ↔ Scheduled { write := {} } firstDay k := by
  have hmono : ∀ {i j : ℕ}, i ≤ j → pollTime { write := {} } firstDay i ≤ pollTime { write := {} } firstDay j :=
    pollTime_mono (by decide) (by decide)
  have hlast : pollTime { write := {} } firstDay 34 < deadlineOf { write := {} } firstDay := by decide +kernel
  have hover : deadlineOf { write := {} } firstDay ≤ pollTime { write := {} } firstDay 35 := by decide +kernel
  constructor
  · intro hk
    have hle : pollTime { write := {} } firstDay k ≤ pollTime { write := {} } firstDay 34 := hmono (by omega)
    exact Or.inr (by omega)
  · rintro (rfl | hk)
    · omega
    · by_contra hge
      have hle : pollTime { write := {} } firstDay 35 ≤ pollTime { write := {} } firstDay k := hmono (by omega)
      omega

/-- A write that is queued for ever is polled 35 times, and times out at the last. -/
theorem most_polls_default :
    let r := writeDurable defaultHandle { write := {} } firstDay ⟨some "w1"⟩
      (punctualPolls { write := {} } firstDay (fun _ => reportOf "queued") 35)
    r.turns.length = 35 ∧ TimesOut r 34 := by
  have hserver : NeverEnds fun _ => reportOf "queued" := by
    intro t
    show ¬ Terminal "queued"
    unfold Terminal
    decide
  have hdate : IsDate (pollTime { write := {} } firstDay 35) := by
    unfold IsDate
    decide +kernel
  obtain ⟨-, h⟩ := most_polls defaultHandle { write := {} } firstDay ⟨some "w1"⟩ 35 (by decide)
    (by decide) (by unfold IsDate; decide) scheduled_default
  obtain ⟨hpolls, hall⟩ := h _ hserver
  obtain ⟨-, hlen, htimes, -⟩ := hall _ hpolls
  exact ⟨hlen, htimes hdate⟩

end XmemoryTemporal.Durable.PollCount
