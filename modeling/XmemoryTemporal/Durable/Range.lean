import XmemoryTemporal.Durable.Backoff

/-! # Arguments that crash the poll loop

After the enqueue the loop forms the deadline and, at each poll that is not terminal, the time of the next
one; where such a time is no date, Python's own error ends the call (`overflow_iff`). The third operation,
growing the delay by half, never leaves the range: a delay that was slept is too short for that. A sleep
may be refused too: `workflow.sleep` is not of this package, and `accepts` is the durations it takes, the
negative ones not among them. -/

namespace XmemoryTemporal.Durable.Range

open XmemoryTemporal.Python.Time XmemoryTemporal.Lib.Loop XmemoryTemporal.Dto XmemoryTemporal.Errors
open XmemoryTemporal.WorkflowApi XmemoryTemporal.Durable.Turn XmemoryTemporal.Durable.Outcome
open XmemoryTemporal.Durable.Deadline XmemoryTemporal.Durable.Backoff

/-! ### How a call ends -/

/-- How a call ends if `workflow.sleep` may refuse a duration. -/
inductive Ending where
  | returned (status : WriteStatusOutput)
  | raised (e : PyError)
  | sleepRefused

/-- Some timer of the run is for a duration that is refused. -/
def refused (accepts : ℤ → Bool) (r : DurableRun) : Bool :=
  r.turns.any fun t => t.timer.any fun d => !accepts d.micros

/-- A refused sleep ends the call there and then. -/
def ending (accepts : ℤ → Bool) (r : DurableRun) : Option Ending :=
  if refused accepts r then some .sleepRefused
  else r.outcome.map fun o => match o with
    | .ok status => .returned status
    | .error e => .raised e

/-- A completed status, or one of the three errors of the loop. -/
def Typed : Ending → Prop
  | .returned status => status.writeStatus = statusCompleted
  | .raised (.applicationError e) => e.type ∈ [typeWriteFailed, typeWriteNotFound, typeWriteTimeout]
  | .raised .overflowError => False
  | .sleepRefused => False

/-- If the call ends, it ends like this. -/
def EndsTyped (accepts : ℤ → Bool) (r : DurableRun) : Prop := ∀ e, ending accepts r = some e → Typed e

/-- What a call comes to that is not Python's own error. -/
def TypedOutcome (o : Except PyError WriteStatusOutput) : Prop :=
  o = .error .overflowError ∨ (∃ status, o = .ok status ∧ status.writeStatus = statusCompleted) ∨
    ∃ e, o = .error (.applicationError e) ∧ e.type ∈ [typeWriteFailed, typeWriteNotFound, typeWriteTimeout]

section Ends
variable {x : WorkflowXmemory} {a : DurableArgs} {now : Datetime} {start : WriteStartOutput}
  {polls : List Poll}

theorem typedOutcome_of_turn {l : PollLoop} {p : Poll} {t : PollTurn} {o : Except PyError WriteStatusOutput}
    (h : durableTurn x l p = (t, .stop o)) : TypedOutcome o := by
  rcases (turn_stop h).2 with (⟨hs, rfl⟩ | ⟨-, rfl⟩ | ⟨-, rfl⟩) | ⟨-, e, hg, rfl⟩
  · exact Or.inr (Or.inl ⟨_, rfl, hs⟩)
  · exact Or.inr (Or.inr ⟨_, rfl, List.mem_cons_self⟩)
  · exact Or.inr (Or.inr ⟨_, rfl, List.mem_cons_of_mem _ List.mem_cons_self⟩)
  · rcases hg with ⟨-, rfl⟩ | ⟨-, rfl⟩
    · exact Or.inr (Or.inr ⟨_, rfl, List.mem_cons_of_mem _ (List.mem_cons_of_mem _ List.mem_cons_self)⟩)
    · exact Or.inl rfl

theorem typedOutcome {o : Except PyError WriteStatusOutput}
    (h : (writeDurable x a now start polls).outcome = some o) : TypedOutcome o := by
  rcases pollLoop_cases a now start with ⟨-, l, hl, -⟩ | ⟨-, he⟩
  · rw [writeDurable_of_ok x a now start hl] at h
    exact outcome_of_stops (L := durableLoop x) (fun l p t o hbody => typedOutcome_of_turn hbody) h
  · rw [writeDurable_of_error x a now start he] at h
    cases h
    exact Or.inl rfl

theorem endsTyped_iff (accepts : ℤ → Bool) : EndsTyped accepts (writeDurable x a now start polls) ↔
    refused accepts (writeDurable x a now start polls) = false ∧
      (writeDurable x a now start polls).outcome ≠ some (.error .overflowError) := by
  unfold EndsTyped ending
  rcases hr : refused accepts (writeDurable x a now start polls) with _ | _
  swap
  · refine iff_of_false (fun h => h .sleepRefused (if_pos rfl)) ?_
    simp
  simp only [Bool.false_eq_true, if_false, true_and]
  rcases ho : (writeDurable x a now start polls).outcome with _ | o
  · simp
  rcases typedOutcome ho with rfl | ⟨status, rfl, hs⟩ | ⟨e, rfl, he⟩
  · refine iff_of_false (fun h => h (.raised .overflowError) rfl) ?_
    simp
  · refine iff_of_true (fun e he => ?_) (by simp)
    cases he
    exact hs
  · refine iff_of_true (fun e' he' => ?_) (by simp)
    cases he'
    exact he

end Ends

/-! ### Which polls are made -/

/-- Poll `k` is answered with a non-terminal status, at a time from which the delay in force leads to a
date before the deadline. -/
def WaitsAt (a : DurableArgs) (now : Datetime) (polls : List Poll) (k : ℕ) : Prop :=
  ∃ p, polls[k]? = some p ∧ ¬ Terminal p.status.writeStatus ∧
    0 ≤ p.arrived.micros + delayAt a k ∧ p.arrived.micros + delayAt a k < deadlineOf a now

/-- Poll `k` is made, all earlier ones being waited for, and answered with a non-terminal status. -/
structure Pending (a : DurableArgs) (now : Datetime) (polls : List Poll) (k : ℕ) (p : Poll) : Prop where
  answered : polls[k]? = some p
  nonterminal : ¬ Terminal p.status.writeStatus
  before : ∀ j < k, WaitsAt a now polls j

section Reach
variable {x : WorkflowXmemory} {a : DurableArgs} {now : Datetime} {start : WriteStartOutput}
  {polls : List Poll} {l : PollLoop} {k : ℕ} {p : Poll}

theorem goesOn_iff_waitsAt (hs : Starts a now start l) (j : ℕ) :
    GoesOn l polls j ↔ WaitsAt a now polls j := by
  unfold GoesOn WaitsAt delayAt
  rw [hs.delay, hs.cap, hs.deadline]

theorem Pending.state (h : Pending a now polls k p) (hs : Starts a now start l) :
    ∃ t, (durableLoop x).stateAt l (polls.take k) = some t ∧ AtPoll l k t := by
  have hlen := (List.getElem?_eq_some_iff.mp h.answered).1
  obtain ⟨t, ht⟩ := (reached_iff (x := x) k hlen.le).mpr fun j hj =>
    (goesOn_iff_waitsAt hs j).mpr (h.before j hj)
  exact ⟨t, ht, (reached k hlen.le ht).1⟩

theorem turn_overflow (hnt : ¬ Terminal p.status.writeStatus)
    (h : ¬ IsDate (p.arrived.micros + l.delay.micros)) :
    ∃ rec, durableTurn x l p = (rec, .stop (.error .overflowError)) := by
  simp only [Terminal, not_or] at hnt
  obtain ⟨h1, h2, h3⟩ := hnt
  have hi : interpretStatus p.status = .ok none := interpretStatus_other h1 h2 h3
  have hadd : p.arrived.add l.delay = none := by
    unfold IsDate at h
    rw [Datetime.add_eq_none]
    omega
  have hs : afterStatus l p.arrived p.status = .raised .overflowError := by simp [afterStatus, hi, hadd]
  exact ⟨_, by simp only [durableTurn, hs]; rfl⟩

/-- **When Python's own error ends the call**: the deadline, or the time of a next poll, is no date. -/
theorem overflow_iff : (writeDurable x a now start polls).outcome = some (.error .overflowError) ↔
    ¬ IsDate (deadlineOf a now) ∨
      ∃ k p, Pending a now polls k p ∧ ¬ IsDate (p.arrived.micros + delayAt a k) := by
  rcases pollLoop_cases a now start with ⟨hD, l, hl, hs⟩ | ⟨hD, he⟩
  swap
  · rw [writeDurable_of_error x a now start he]
    exact iff_of_true rfl (Or.inl hD)
  rw [writeDurable_of_ok x a now start hl]
  constructor
  · intro h
    right
    obtain ⟨k, hk⟩ : ∃ k, ((durableLoop x).run l polls).1.length = k + 1 :=
      Nat.exists_eq_succ_of_ne_zero (by rw [ne_eq, List.length_eq_zero_iff]; exact run_records_ne_nil)
    obtain ⟨p, t, rec, hp, ht, hbody⟩ := (stops_iff k).mp ⟨h, hk⟩
    have hlen := (List.getElem?_eq_some_iff.mp hp).1
    obtain ⟨hat, hgo⟩ := reached k hlen.le ht
    have hbody' : durableTurn x t p = (rec, .stop (.error .overflowError)) := hbody
    rcases (turn_stop hbody').2 with hv | ⟨hnt, e, hg, he⟩
    · rcases hv with ⟨-, hv⟩ | ⟨-, hv⟩ | ⟨-, hv⟩ <;> simp at hv
    · cases he
      refine ⟨k, p, ⟨hp, hnt, fun j hj => (goesOn_iff_waitsAt hs j).mp (hgo j hj)⟩, ?_⟩
      rcases givesUp_of_gaveUp hs hat hg with ⟨-, l', h'⟩ | ⟨hno, -⟩
      · simp at h'
      · exact hno
  · rintro (h | ⟨k, p, hpending, hno⟩)
    · exact absurd hD h
    · obtain ⟨t, ht, hat⟩ := hpending.state (x := x) hs
      rw [← delay_at hs hat] at hno
      obtain ⟨rec, hbody⟩ := turn_overflow (x := x) hpending.nonterminal hno
      exact ((stops_iff k).mpr ⟨p, t, rec, hpending.answered, ht, hbody⟩).1

theorem timerAt_iff {d : Timedelta} : TimerAt (writeDurable x a now start polls) k d ↔
    IsDate (deadlineOf a now) ∧ (∃ p, Pending a now polls k p) ∧ WaitsAt a now polls k ∧
      d.micros = delayAt a k := by
  by_cases hD : IsDate (deadlineOf a now)
  swap
  · refine iff_of_false ?_ fun h => hD h.1
    rintro ⟨t, ht, -⟩
    rw [turns_of_not_date hD] at ht
    simp at ht
  obtain ⟨l, hs, hrun⟩ := writeDurable_loop x start hD polls
  unfold TimerAt
  rw [hrun]
  constructor
  · rintro ⟨t, ht, hd⟩
    obtain ⟨u, hlen, hstate, hrec⟩ := (record_iff k).mp ht
    obtain ⟨hat, hgo⟩ := reached k hlen hstate
    rcases hp : polls[k]? with _ | p
    · rw [hp] at hrec
      rw [hrec] at hd
      cases hd
    rw [hp] at hrec
    have hrec' : t = (durableTurn x u p).1 := hrec
    have hbefore := fun j hj => (goesOn_iff_waitsAt hs j).mp (hgo j hj)
    rcases hturn : durableTurn x u p with ⟨rec, o | u'⟩
    · rw [hrec', hturn, (turn_stop hturn).1] at hd
      simp at hd
    · obtain ⟨hnt, hw, -, -, htimer⟩ := turn_again_iff hturn
      rw [hrec', hturn, htimer] at hd
      cases hd
      have hdelay := delay_at hs hat
      unfold Waits at hw
      rw [hdelay, hat.deadline, hs.deadline] at hw
      exact ⟨hD, ⟨p, hp, hnt, hbefore⟩, ⟨p, hp, hnt, hw⟩, hdelay⟩
  · rintro ⟨-, ⟨p, hpending⟩, ⟨q, hq, hnt, hw⟩, hmicros⟩
    obtain rfl : p = q := Option.some.inj (hpending.answered.symm.trans hq)
    obtain ⟨t, ht, hat⟩ := hpending.state (x := x) hs
    have hlen := (List.getElem?_eq_some_iff.mp hq).1
    have hdelay := delay_at hs hat
    have hwaits : Waits t p.arrived := by
      unfold Waits
      rw [hdelay, hat.deadline, hs.deadline]
      exact hw
    obtain ⟨log, u', -, hturn⟩ := turn_of_waits x hnt hwaits
    have hrec : (durableLoop x).record t polls[k]? = (durableTurn x t p).1 := by
      rw [hq]
      rfl
    refine ⟨_, (record_iff k).mpr ⟨t, hlen.le, ht, rfl⟩, ?_⟩
    rw [hrec, hturn]
    exact congrArg some (Timedelta.ext (hdelay.trans hmicros.symm))

end Reach

/-! ### The condition -/

/-- All times the loop forms are dates, and all durations it sleeps are taken. -/
structure StaysInRange (accepts : ℤ → Bool) (a : DurableArgs) (now : Datetime) (polls : List Poll) : Prop where
  deadline : IsDate (deadlineOf a now)
  wake : ∀ k p, Pending a now polls k p → IsDate (p.arrived.micros + delayAt a k)
  sleep : ∀ k p, Pending a now polls k p → p.arrived.micros + delayAt a k < deadlineOf a now →
    accepts (delayAt a k) = true

theorem refused_iff {x : WorkflowXmemory} {a : DurableArgs} {now : Datetime} {start : WriteStartOutput}
    {polls : List Poll} (accepts : ℤ → Bool) : refused accepts (writeDurable x a now start polls) = true ↔
      ∃ k d, TimerAt (writeDurable x a now start polls) k d ∧ accepts d.micros = false := by
  unfold refused TimerAt
  rw [List.any_eq_true]
  constructor
  · rintro ⟨t, ht, hany⟩
    obtain ⟨k, hk⟩ := List.mem_iff_getElem?.mp ht
    rcases hd : t.timer with _ | d
    · rw [hd] at hany
      simp at hany
    · rw [hd] at hany
      exact ⟨k, d, ⟨t, hk, hd⟩, by simpa using hany⟩
  · rintro ⟨k, d, ⟨t, hk, hd⟩, hno⟩
    refine ⟨t, List.mem_iff_getElem?.mpr ⟨k, hk⟩, ?_⟩
    rw [hd]
    simpa using hno

/-- **When the call ends in a typed way only**: the deadline and all next polls are at dates, and
`workflow.sleep` takes the delays. -/
theorem ends_typed_iff (accepts : ℤ → Bool) (x : WorkflowXmemory) (a : DurableArgs) (now : Datetime)
    (start : WriteStartOutput) (polls : List Poll) :
    EndsTyped accepts (writeDurable x a now start polls) ↔ StaysInRange accepts a now polls := by
  rw [endsTyped_iff, ne_eq, overflow_iff, ← Bool.not_eq_true, refused_iff]
  constructor
  · rintro ⟨hrefused, hno⟩
    rw [not_or, not_not] at hno
    obtain ⟨hD, hdates⟩ := hno
    have hwake : ∀ k p, Pending a now polls k p → IsDate (p.arrived.micros + delayAt a k) := by
      intro k p hp
      by_contra hdate
      exact hdates ⟨k, p, hp, hdate⟩
    refine ⟨hD, hwake, fun k p hp hlt => ?_⟩
    by_contra hacc
    have hw : WaitsAt a now polls k := ⟨p, hp.answered, hp.nonterminal, (hwake k p hp).1, hlt⟩
    obtain ⟨l, hs, -⟩ := writeDurable_loop x start hD polls
    obtain ⟨t, -, hat⟩ := hp.state (x := x) hs
    have htimer : TimerAt (writeDurable x a now start polls) k t.delay :=
      timerAt_iff.mpr ⟨hD, ⟨p, hp⟩, hw, delay_at hs hat⟩
    refine hrefused ⟨k, t.delay, htimer, ?_⟩
    rw [delay_at hs hat]
    exact Bool.eq_false_iff.mpr hacc
  · intro h
    refine ⟨?_, ?_⟩
    · rintro ⟨k, d, htimer, hno⟩
      obtain ⟨-, ⟨p, hp⟩, ⟨q, hq, -, -, hlt⟩, hmicros⟩ := timerAt_iff.mp htimer
      obtain rfl : p = q := Option.some.inj (hp.answered.symm.trans hq)
      rw [hmicros, h.sleep k p hp hlt] at hno
      simp at hno
    · rintro (hD | ⟨k, p, hp, hno⟩)
      · exact hD h.deadline
      · exact hno (h.wake k p hp)

/-- `timedelta.max`. -/
def forever : Timedelta := ⟨maxDelta, by decide, le_refl _⟩

/-- To wait for ever is to crash: the write is enqueued, and then the deadline cannot be formed. -/
theorem waiting_forever_crashes :
    ∃ (x : WorkflowXmemory) (a : DurableArgs) (now : Datetime) (start : WriteStartOutput)
      (polls : List Poll), ¬ EndsTyped (fun _ => true) (writeDurable x a now start polls) := by
  refine ⟨defaultHandle, { write := {}, maxWait := forever }, firstDay, ⟨some "w1"⟩, [], fun h => ?_⟩
  have hover : (writeDurable defaultHandle { write := {}, maxWait := forever } firstDay ⟨some "w1"⟩
      []).outcome = some (.error .overflowError) := by
    rw [overflow_iff]
    left
    unfold IsDate
    decide
  exact ((endsTyped_iff _).mp h).2 hover

end XmemoryTemporal.Durable.Range
