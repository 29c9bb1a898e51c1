import XmemoryTemporal.Durable.Outcome

/-! # The deadline of a durable write

Deadlines, arrivals and delays are numbers of microseconds. `turn_at` is what poll `k` does when it has
been answered with a non-terminal status; the theorems compare that answer with the deadline. The times
at which polls start are not part of a run: `OnSchedule` says which ones fit it. -/

namespace XmemoryTemporal.Durable.Deadline

open XmemoryTemporal.Python.Time XmemoryTemporal.Lib.HalfEven XmemoryTemporal.Lib.Loop
open XmemoryTemporal.Dto XmemoryTemporal.Errors XmemoryTemporal.WorkflowApi
open XmemoryTemporal.Durable.Turn XmemoryTemporal.Durable.Outcome

variable (x : WorkflowXmemory) (a : DurableArgs) (now : Datetime) (start : WriteStartOutput)

/-- The dates the loop forms are dates: the deadline, and after each poll that leaves the loop going
the time of the next one. -/
structure Representable (polls : List Poll) : Prop where
  deadline : IsDate (deadlineOf a now)
  wake : ∀ k p, polls[k]? = some p → ¬ Terminal p.status.writeStatus →
    p.arrived.micros + delayAt a k ≤ maxDate

/-- Times at which the polls of a run start when no timer is late: the first directly, another when the
timer before it has fired; a poll is answered when it has been started. -/
structure OnSchedule (polls : List Poll) (issued : ℕ → ℤ) : Prop where
  first : issued 0 = now.micros
  answered : ∀ k p, polls[k]? = some p → issued k ≤ p.arrived.micros
  timer : ∀ k p, polls[k]? = some p → issued (k + 1) = p.arrived.micros + delayAt a k

/-- Turn `k` sets a timer, of the delay then in force. -/
def SetsTimer (r : DurableRun) (k : ℕ) : Prop :=
  ∃ t d, r.turns[k]? = some t ∧ t.timer = some d ∧ d.micros = delayAt a k

/-- The call raises `XmemoryWriteTimeout` in turn `k`. -/
def TimesOut (r : DurableRun) (k : ℕ) : Prop :=
  ∃ e, EndsAt r k (.error (.applicationError e)) ∧ e.type = typeWriteTimeout

/-- When a turn is over: with the answer, or when its timer has fired. -/
def turnEnd (p : Poll) (t : PollTurn) : ℤ := p.arrived.micros + (t.timer.map Timedelta.micros).getD 0

variable {x a now start}

theorem delayAt_nonneg (hfirst : 0 ≤ a.firstDelay.micros) (hcap : 0 ≤ a.cap.micros) (k : ℕ) :
    0 ≤ delayAt a k := by
  unfold delayAt
  induction k with
  | zero => exact hfirst
  | succ k ih =>
    have hlonger := divRound_nonneg (a := backoff a.firstDelay.micros a.cap.micros k * 3) (b := 2)
      (by omega) (by omega)
    exact le_min hlonger hcap

theorem delayAt_le (k : ℕ) : delayAt a k ≤ max a.firstDelay.micros a.cap.micros := backoff_le _ _ k

variable (x start) in
theorem writeDurable_loop (hD : IsDate (deadlineOf a now)) (polls : List Poll) :
    ∃ l, Starts a now start l ∧ writeDurable x a now start polls =
      { start := writeAsyncStart x a.write
        turns := ((durableLoop x).run l polls).1
        outcome := ((durableLoop x).run l polls).2 } := by
  rcases pollLoop_cases a now start with ⟨-, l, hl, hs⟩ | ⟨hD', -⟩
  · exact ⟨l, hs, writeDurable_of_ok x a now start hl polls⟩
  · exact absurd hD hD'

theorem turns_pos (hD : IsDate (deadlineOf a now)) (polls : List Poll) :
    1 ≤ (writeDurable x a now start polls).turns.length := by
  obtain ⟨l, -, hrun⟩ := writeDurable_loop x start hD polls
  rw [hrun]
  exact List.length_pos_iff.mpr run_records_ne_nil

/-- **What a poll does that was answered**: it ends the call, and then sets no timer, or it sets the timer
of its delay, the end of which is before the deadline, and does not end the call. -/
theorem turn_at (hD : IsDate (deadlineOf a now)) {polls : List Poll} {k : ℕ} {p : Poll} {t : PollTurn}
    (hp : polls[k]? = some p) (ht : (writeDurable x a now start polls).turns[k]? = some t) :
    (∃ o, EndsAt (writeDurable x a now start polls) k o ∧ t.timer = none ∧
      (Verdict p.status o ∨ ¬ Terminal p.status.writeStatus ∧
        ∃ e, o = .error e ∧ GivesUp a now k p e)) ∨
      (¬ Terminal p.status.writeStatus ∧ p.arrived.micros + delayAt a k < deadlineOf a now ∧
        (∃ d, t.timer = some d ∧ d.micros = delayAt a k) ∧
        ∀ o, ¬ EndsAt (writeDurable x a now start polls) k o) := by
  obtain ⟨l, hs, hrun⟩ := writeDurable_loop x start hD polls
  rw [hrun] at ht ⊢
  obtain ⟨u, hlen, hstate, hrec⟩ := (record_iff k).mp ht
  obtain ⟨hat, -⟩ := reached k hlen hstate
  rw [hp] at hrec
  have hrec' : t = (durableTurn x u p).1 := hrec
  rcases hbody : durableTurn x u p with ⟨rec, o | u'⟩
  · obtain ⟨hnone, hv⟩ := turn_stop hbody
    rw [hbody] at hrec'
    refine Or.inl ⟨o, (stops_iff k).mpr ⟨p, u, rec, hp, hstate, hbody⟩, by rw [hrec', hnone], ?_⟩
    rcases hv with hv | ⟨hnt, e, hg, he⟩
    · exact Or.inl hv
    · exact Or.inr ⟨hnt, e, he, givesUp_of_gaveUp hs hat hg⟩
  · obtain ⟨hnt, hw, -, -, htimer⟩ := turn_again_iff hbody
    rw [hbody] at hrec'
    have hdelay := delay_at hs hat
    have hlt := hw.2
    rw [hdelay, hat.deadline, hs.deadline] at hlt
    refine Or.inr ⟨hnt, hlt, ⟨u.delay, by rw [hrec', htimer], hdelay⟩, ?_⟩
    rintro o ⟨hout, hlast⟩
    obtain ⟨q, v, rec', hq, hv, hstop⟩ := (stops_iff k).mp ⟨hout, hlast⟩
    rw [hp] at hq
    cases hq
    rw [hstate] at hv
    cases hv
    have hstop' : durableTurn x u p = (rec', .stop o) := hstop
    rw [hbody] at hstop'
    cases hstop'

theorem endsAt_answered (hD : IsDate (deadlineOf a now)) {polls : List Poll} {k : ℕ}
    {o : Except PyError WriteStatusOutput} (h : EndsAt (writeDurable x a now start polls) k o) :
    ∃ p t, polls[k]? = some p ∧ (writeDurable x a now start polls).turns[k]? = some t := by
  have hlen : k < (writeDurable x a now start polls).turns.length := by rw [h.2]; omega
  have ht := List.getElem?_eq_getElem hlen
  obtain ⟨l, -, hrun⟩ := writeDurable_loop x start hD polls
  have hend := h
  rw [hrun] at hend
  obtain ⟨p, -, -, hp, -⟩ := (stops_iff k).mp hend
  exact ⟨p, _, hp, ht⟩

theorem timesOut_late (hD : IsDate (deadlineOf a now)) {polls : List Poll} {k : ℕ}
    (h : TimesOut (writeDurable x a now start polls) k) :
    ∃ p, polls[k]? = some p ∧ ¬ Terminal p.status.writeStatus ∧
      deadlineOf a now ≤ p.arrived.micros + delayAt a k := by
  obtain ⟨e, hend, htype⟩ := h
  obtain ⟨p, t, hp, ht⟩ := endsAt_answered hD hend
  rcases turn_at hD hp ht with ⟨o, hend', -, hv⟩ | ⟨-, -, -, hgoes⟩
  · have ho : o = .error (.applicationError e) := by
      have hsome := hend'.1.symm.trans hend.1
      exact Option.some.inj hsome
    subst ho
    rcases hv with hv | ⟨hnt, e', he, hg⟩
    · exact absurd htype hv.ne_timeout
    · cases he
      exact ⟨p, hp, hnt, (givesUp_type hg).2⟩
  · exact absurd hend (hgoes _)

theorem timer_before (hD : IsDate (deadlineOf a now)) {polls : List Poll} {k : ℕ} {t : PollTurn}
    {d : Timedelta} (ht : (writeDurable x a now start polls).turns[k]? = some t)
    (hd : t.timer = some d) :
    ∃ p, polls[k]? = some p ∧ d.micros = delayAt a k ∧ p.arrived.micros + d.micros < deadlineOf a now := by
  rcases hp : polls[k]? with _ | p
  · obtain ⟨l, -, hrun⟩ := writeDurable_loop x start hD polls
    rw [hrun] at ht
    obtain ⟨u, -, -, hrec⟩ := (record_iff k).mp ht
    rw [hp] at hrec
    rw [hrec] at hd
    cases hd
  · rcases turn_at hD hp ht with ⟨o, -, hnone, -⟩ | ⟨-, hlt, ⟨d', hd', hmicros⟩, -⟩
    · rw [hnone] at hd
      simp at hd
    · rw [hd] at hd'
      cases hd'
      exact ⟨p, rfl, hmicros, by rw [hmicros]; exact hlt⟩

theorem waited_before (hD : IsDate (deadlineOf a now)) {polls : List Poll} {k : ℕ}
    (hk : k + 1 < (writeDurable x a now start polls).turns.length) :
    ∃ p, polls[k]? = some p ∧ p.arrived.micros + delayAt a k < deadlineOf a now := by
  obtain ⟨l, hs, hrun⟩ := writeDurable_loop x start hD polls
  rw [hrun] at hk
  have ht := List.getElem?_eq_getElem hk
  obtain ⟨u, hlen, hstate, -⟩ := (record_iff (k + 1)).mp ht
  obtain ⟨p, hp, -, -, hlt⟩ := (reached (k + 1) hlen hstate).2 k (Nat.lt_succ_self k)
  rw [hs.deadline, hs.delay, hs.cap] at hlt
  exact ⟨p, hp, hlt⟩

/-- **A non-terminal poll waits or gives up**, as its next poll would be before the deadline or not. -/
theorem waits_or_timesOut (hfirst : 0 ≤ a.firstDelay.micros) (hcap : 0 ≤ a.cap.micros)
    {polls : List Poll} (hrep : Representable a now polls) {k : ℕ} {p : Poll}
    (hp : polls[k]? = some p) (hk : k < (writeDurable x a now start polls).turns.length)
    (hnt : ¬ Terminal p.status.writeStatus) :
    (SetsTimer a (writeDurable x a now start polls) k ↔
      p.arrived.micros + delayAt a k < deadlineOf a now) ∧
    (TimesOut (writeDurable x a now start polls) k ↔
      deadlineOf a now ≤ p.arrived.micros + delayAt a k) := by
  have ht := List.getElem?_eq_getElem hk
  have hwake := hrep.wake k p hp hnt
  have hnonneg := delayAt_nonneg hfirst hcap k
  have harrived := p.arrived.nonneg
  have hdate : IsDate (p.arrived.micros + delayAt a k) := ⟨by omega, hwake⟩
  rcases turn_at hrep.deadline hp ht with ⟨o, hend, hnone, hv⟩ | ⟨-, hlt, ⟨d, hd, hmicros⟩, hgoes⟩
  · obtain ⟨e, he, hg⟩ : ∃ e, o = .error e ∧ GivesUp a now k p e := by
      rcases hv with (h | h | h) | ⟨-, h⟩
      · exact absurd (Or.inl h.1) hnt
      · exact absurd (Or.inr (Or.inl h.1)) hnt
      · exact absurd (Or.inr (Or.inr h.1)) hnt
      · exact h
    obtain ⟨hlate, l, hl⟩ : deadlineOf a now ≤ p.arrived.micros + delayAt a k ∧
        ∃ l, e = .applicationError (writeTimeout l p.status) := by
      rcases hg with hg | ⟨hno, -⟩
      · exact hg
      · exact absurd hdate hno
    subst he hl
    refine ⟨⟨?_, fun hlt => absurd hlate (not_le.mpr hlt)⟩, ⟨fun _ => hlate, fun _ => ⟨_, hend, rfl⟩⟩⟩
    rintro ⟨t, d, ht', hd, -⟩
    rw [ht] at ht'
    cases ht'
    rw [hnone] at hd
    simp at hd
  · refine ⟨⟨fun _ => hlt, fun _ => ⟨_, d, ht, hd, hmicros⟩⟩, ⟨?_, fun hle => absurd hlt (not_lt.mpr hle)⟩⟩
    rintro ⟨e, hend, -⟩
    exact absurd hend (hgoes _)

/-- **The deadline discipline of the poll loop.** -/
theorem deadline_discipline (x : WorkflowXmemory) (a : DurableArgs) (now : Datetime)
    (start : WriteStartOutput) (polls : List Poll) (hfirst : 0 ≤ a.firstDelay.micros)
    (hcap : 0 ≤ a.cap.micros) (hrep : Representable a now polls) :
    let r := writeDurable x a now start polls
    let D := deadlineOf a now
    1 ≤ r.turns.length ∧
    (∀ k p, polls[k]? = some p → k < r.turns.length → ¬ Terminal p.status.writeStatus →
      (SetsTimer a r k ↔ p.arrived.micros + delayAt a k < D) ∧
      (TimesOut r k ↔ D ≤ p.arrived.micros + delayAt a k)) ∧
    (∀ k t d, r.turns[k]? = some t → t.timer = some d →
      ∃ p, polls[k]? = some p ∧ d.micros = delayAt a k ∧ p.arrived.micros + d.micros < D) ∧
    (∀ k, TimesOut r k → ∃ p, polls[k]? = some p ∧ ¬ Terminal p.status.writeStatus ∧
      D - max a.firstDelay.micros a.cap.micros ≤ p.arrived.micros) ∧
    ∀ issued, OnSchedule a now polls issued →
      (∀ k, 0 < k → k < r.turns.length → issued k < D) ∧
      ∀ k o, EndsAt r k o → ∃ p t, polls[k]? = some p ∧ r.turns[k]? = some t ∧
        turnEnd p t ≤ max D (issued k) + (p.arrived.micros - issued k) := by
  intro r D
  have hD := hrep.deadline
  refine ⟨turns_pos hD polls, fun k p hp hk hnt => waits_or_timesOut hfirst hcap hrep hp hk hnt,
    fun k t d ht hd => timer_before hD ht hd, fun k h => ?_, fun issued hissued => ⟨fun k hpos hk => ?_, ?_⟩⟩
  · obtain ⟨p, hp, hnt, hlate⟩ := timesOut_late hD h
    have hdelay := delayAt_le (a := a) k
    refine ⟨p, hp, hnt, ?_⟩
    show deadlineOf a now - _ ≤ _
    omega
  · obtain ⟨k, rfl⟩ : ∃ j, k = j + 1 := ⟨k - 1, by omega⟩
    obtain ⟨p, hp, hlt⟩ := waited_before hD hk
    rw [hissued.timer k p hp]
    exact hlt
  · intro k o hend
    obtain ⟨p, t, hp, ht⟩ := endsAt_answered hD hend
    refine ⟨p, t, hp, ht, ?_⟩
    have hmax := le_max_right D (issued k)
    rcases turn_at hD hp ht with ⟨-, -, hnone, -⟩ | ⟨-, -, -, hgoes⟩
    · unfold turnEnd
      rw [hnone]
      show p.arrived.micros + 0 ≤ _
      omega
    · exact absurd hend (hgoes o)

/-- A client's report of a write that has a status. -/
def reportOf (status : String) : WriteStatusResult :=
  ⟨.value "w1", .value (.member status), .missing, .missing, .missing, .missing⟩

/-- The first day of the calendar, at midnight. -/
def firstDay : Datetime := ⟨0, by decide, by decide⟩

/-- Polls that find the write in these states, answered at these numbers of microseconds. -/
def pollsAt (answers : List (String × ℤ)) : List Poll :=
  answers.map fun q => { result := reportOf q.1, arrived := (Datetime.ofMicros? q.2).getD firstDay }

/-- A durable write with thirteen seconds to go. -/
def hurried : DurableArgs := { write := {}, maxWait := .ofSeconds 13 (by decide) }

/-- Polls of a write that is not done, a second each, between timers on schedule. -/
def slowPolls : List Poll :=
  pollsAt [("queued", 1000000), ("extracting", 4000000), ("queued", 8000000), ("queued", 13500000),
    ("queued", 21250000)]

/-- The times at which they start. -/
def slowIssued : ℕ → ℤ
  | 0 => 0
  | 1 => 3000000
  | 2 => 7000000
  | 3 => 12500000
  | 4 => 20250000
  | _ => 31375000

theorem slowPolls_nonterminal {k : ℕ} {p : Poll} (hp : slowPolls[k]? = some p) : ¬ Terminal p.status.writeStatus := by
  unfold Terminal
  rcases k with _ | _ | _ | _ | _ | k
  case succ.succ.succ.succ.succ => simp [slowPolls, pollsAt] at hp
  all_goals
    cases hp
    decide

theorem slowPolls_onSchedule : OnSchedule hurried firstDay slowPolls slowIssued := by
  refine ⟨rfl, fun k p hp => ?_, fun k p hp => ?_⟩
  all_goals
    rcases k with _ | _ | _ | _ | _ | k
    case succ.succ.succ.succ.succ => simp [slowPolls, pollsAt] at hp
    all_goals
      cases hp
      decide

/-- Three timers end within the thirteen seconds, and so starts the fourth poll; it is answered after them. -/
theorem deadline_discipline_hurried :
    let r := writeDurable defaultHandle hurried firstDay ⟨some "w1"⟩ slowPolls
    (∀ k < 3, SetsTimer hurried r k) ∧ TimesOut r 3 ∧ slowIssued 3 < deadlineOf hurried firstDay ∧
      ∃ p t, slowPolls[3]? = some p ∧ r.turns[3]? = some t ∧ turnEnd p t ≤ 14000000 := by
  intro r
  have hrep : Representable hurried firstDay slowPolls := by
    refine ⟨by unfold IsDate; decide, fun k p hp _ => ?_⟩
    rw [← slowPolls_onSchedule.timer k p hp]
    unfold slowIssued
    split <;> decide
  obtain ⟨-, hturns, -, -, hschedule⟩ := deadline_discipline defaultHandle hurried firstDay ⟨some "w1"⟩
    slowPolls (by decide) (by decide) hrep
  have hlen : r.turns.length = 4 := rfl
  obtain ⟨hissued, hends⟩ := hschedule slowIssued slowPolls_onSchedule
  have htimes : TimesOut r 3 := by
    have hp : slowPolls[3]? = some _ := rfl
    exact (hturns 3 _ hp (by rw [hlen]; omega) (slowPolls_nonterminal hp)).2.mpr (by decide)
  refine ⟨fun k hk => ?_, htimes, hissued 3 (by omega) (by rw [hlen]; omega), ?_⟩
  · obtain ⟨p, hp⟩ : ∃ p, slowPolls[k]? = some p := by
      have hall : slowPolls.length = 5 := rfl
      exact ⟨_, List.getElem?_eq_getElem (by omega)⟩
    refine (hturns k p hp (by rw [hlen]; omega) (slowPolls_nonterminal hp)).1.mpr ?_
    rcases k with _ | _ | _ | k
    case succ.succ.succ => omega
    all_goals
      cases hp
      decide
  · obtain ⟨e, hend, -⟩ := htimes
    obtain ⟨p, t, hp, ht, hle⟩ := hends 3 _ hend
    refine ⟨p, t, hp, ht, hle.trans ?_⟩
    cases hp
    decide

end XmemoryTemporal.Durable.Deadline
