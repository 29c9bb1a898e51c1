import XmemoryTemporal.WorkflowApi

/-! # One turn of the poll loop, and the state after several

`turn_cases` says everything a turn of `write_durable` can do: it ends with the status, with one of the
two failures a status stands for, by giving up (the next poll would not be before the deadline, or its
date cannot be formed), or it sets a timer for the delay in force and goes round with the next delay.

`reached_iff` puts turns together: the loop makes poll `k` when every earlier poll `j` was answered with
a non-terminal status at a time from which the `j`-th delay of `backoff` still leads before the
deadline, and the delay in force then is the `k`-th. -/

namespace XmemoryTemporal.Durable.Turn

open XmemoryTemporal.Python.Value XmemoryTemporal.Python.Time XmemoryTemporal.Lib.HalfEven
open XmemoryTemporal.Lib.Loop XmemoryTemporal.Dto XmemoryTemporal.Errors
open XmemoryTemporal.Activities XmemoryTemporal.WorkflowApi

/-- The statuses that end the loop. -/
def Terminal (value : String) : Prop :=
  value = statusCompleted ∨ value = statusFailed ∨ value = statusNotFound

/-- From `now`, the delay in force leads to a date, and before the deadline. -/
def Waits (l : PollLoop) (now : Datetime) : Prop :=
  0 ≤ now.micros + l.delay.micros ∧ now.micros + l.delay.micros < l.deadline.micros

/-- The loop variables after a timer: the next delay, all else unchanged. -/
structure Next (l l' : PollLoop) : Prop where
  writeId : l'.writeId = l.writeId
  cap : l'.cap = l.cap
  deadline : l'.deadline = l.deadline
  maxWait : l'.maxWait = l.maxWait
  delay : l'.delay.micros = min (divRound (l.delay.micros * 3) 2) l.cap.micros

/-! ### A turn -/

theorem add_of_waits {l : PollLoop} {now : Datetime} (h : Waits l now) :
    ∃ wake, now.add l.delay = some wake ∧ wake.micros < l.deadline.micros := by
  have hmax := l.deadline.le_max
  unfold Waits at h
  rcases ha : now.add l.delay with _ | wake
  · rw [Datetime.add_eq_none] at ha; omega
  · have hw := Datetime.add_eq_some.mp ha
    exact ⟨wake, rfl, by omega⟩

/-- A delay that leads to a date is far from the ends of the range: half of it more is in range. -/
theorem afterTimer_ok {l : PollLoop} {now : Datetime} (h : Waits l now) (suggested : Bool) :
    ∃ l', afterTimer l suggested = .ok l' ∧ Next l l' := by
  obtain ⟨h0, h1⟩ := h
  have hn := now.nonneg
  have hn' := now.le_max
  have hmax := l.deadline.le_max
  have hhi := two_mul_le (a := l.delay.micros * 3) (b := 2) (by omega)
  have hlo := le_two_mul (a := l.delay.micros * 3) (b := 2) (by omega)
  have hrange : minDelta ≤ divRound (l.delay.micros * 3) 2 ∧
      divRound (l.delay.micros * 3) 2 ≤ maxDelta := by
    unfold minDelta maxDelta dayMicros
    unfold maxDate dayMicros at hn' hmax
    omega
  set longer : Timedelta := ⟨_, hrange.1, hrange.2⟩ with hlonger
  have hd : l.delay.mulThreeHalves = some longer := Timedelta.mulThreeHalves_eq_some.mpr rfl
  refine ⟨{ l with delay := Timedelta.min longer l.cap, warnedHistory := l.warnedHistory || suggested },
    by simp only [afterTimer, hd], rfl, rfl, rfl, rfl, ?_⟩
  rw [Timedelta.min_micros]

/-- Giving up: Python's error if the date of the next poll cannot be formed, the timeout otherwise. -/
def GaveUp (l : PollLoop) (p : Poll) (e : PyError) : Prop :=
  (l.deadline.micros ≤ p.arrived.micros + l.delay.micros ∧
      e = .applicationError (writeTimeout l p.status)) ∨
    ((p.arrived.micros + l.delay.micros < 0 ∨ maxDate < p.arrived.micros + l.delay.micros) ∧
      e = .overflowError)

theorem afterStatus_nonterminal {l : PollLoop} {p : Poll} (ht : ¬ Terminal p.status.writeStatus) :
    (Waits l p.arrived ∧ afterStatus l p.arrived p.status = .sleep) ∨
      ¬ Waits l p.arrived ∧ ∃ e, afterStatus l p.arrived p.status = .raised e ∧ GaveUp l p e := by
  simp only [Terminal, not_or] at ht
  obtain ⟨h1, h2, h3⟩ := ht
  have hi : interpretStatus p.status = .ok none := interpretStatus_other h1 h2 h3
  by_cases hw : Waits l p.arrived
  · obtain ⟨wake, ha, hlt⟩ := add_of_waits hw
    exact Or.inl ⟨hw, by simp [afterStatus, hi, ha, not_le.mpr hlt]⟩
  · refine Or.inr ⟨hw, ?_⟩
    unfold Waits at hw
    rcases ha : p.arrived.add l.delay with _ | wake
    · exact ⟨_, by simp [afterStatus, hi, ha], Or.inr ⟨Datetime.add_eq_none.mp ha, rfl⟩⟩
    · have hwake := Datetime.add_eq_some.mp ha
      have hnn := wake.nonneg
      have hle : l.deadline.micros ≤ wake.micros := by omega
      exact ⟨_, by simp [afterStatus, hi, ha, hle], Or.inl ⟨by omega, rfl⟩⟩

/-- **Everything a turn can do.** -/
theorem turn_cases (x : WorkflowXmemory) (l : PollLoop) (p : Poll) :
    ∃ log, (p.status.writeStatus = statusCompleted ∧
        durableTurn x l p = ({ poll := writeStatus x l.writeId, log }, .stop (.ok p.status))) ∨
      (p.status.writeStatus = statusFailed ∧
        durableTurn x l p = ({ poll := writeStatus x l.writeId, log },
          .stop (.error (.applicationError (writeFailed p.status))))) ∨
      (p.status.writeStatus = statusNotFound ∧
        durableTurn x l p = ({ poll := writeStatus x l.writeId, log },
          .stop (.error (.applicationError (writeNotFound p.status))))) ∨
      (¬ Terminal p.status.writeStatus ∧ ¬ Waits l p.arrived ∧ ∃ e, GaveUp l p e ∧
        durableTurn x l p = ({ poll := writeStatus x l.writeId, log }, .stop (.error e))) ∨
      (¬ Terminal p.status.writeStatus ∧ Waits l p.arrived ∧ ∃ l', Next l l' ∧
        durableTurn x l p =
          ({ poll := writeStatus x l.writeId, timer := some l.delay, log }, .again l')) := by
  by_cases ht : Terminal p.status.writeStatus
  · refine ⟨statusLog p.status, ?_⟩
    rcases ht with h | h | h
    · exact Or.inl ⟨h, by simp only [durableTurn, afterStatus, interpretStatus_completed h]⟩
    · refine Or.inr (Or.inl ⟨h, ?_⟩)
      simp only [durableTurn, afterStatus, interpretStatus_failed h]
    · refine Or.inr (Or.inr (Or.inl ⟨h, ?_⟩))
      simp only [durableTurn, afterStatus, interpretStatus_notFound h]
  · rcases afterStatus_nonterminal ht with ⟨hw, hs⟩ | ⟨hw, e, hs, hg⟩
    · obtain ⟨l', hl', hnext⟩ := afterTimer_ok hw p.continueAsNewSuggested
      refine ⟨statusLog p.status ++ historyLog l p.continueAsNewSuggested, ?_⟩
      exact Or.inr (Or.inr (Or.inr (Or.inr ⟨ht, hw, l', hnext, by simp only [durableTurn, hs, hl']⟩)))
    · refine ⟨statusLog p.status, ?_⟩
      exact Or.inr (Or.inr (Or.inr (Or.inl ⟨ht, hw, e, hg, by simp only [durableTurn, hs]⟩)))

theorem turn_again_iff {x : WorkflowXmemory} {l l' : PollLoop} {p : Poll} {t : PollTurn}
    (h : durableTurn x l p = (t, .again l')) :
    ¬ Terminal p.status.writeStatus ∧ Waits l p.arrived ∧ Next l l' ∧
      t.poll = writeStatus x l.writeId ∧ t.timer = some l.delay := by
  obtain ⟨log, hc | hc | hc | hc | hc⟩ := turn_cases x l p
  · rw [hc.2] at h; cases h
  · rw [hc.2] at h; cases h
  · rw [hc.2] at h; cases h
  · obtain ⟨-, -, e, -, he⟩ := hc
    rw [he] at h; cases h
  · obtain ⟨ht, hw, l'', hn, he⟩ := hc
    rw [he] at h; cases h
    exact ⟨ht, hw, hn, rfl, rfl⟩

theorem turn_of_waits (x : WorkflowXmemory) {l : PollLoop} {p : Poll} (hnt : ¬ Terminal p.status.writeStatus)
    (hw : Waits l p.arrived) : ∃ log l', Next l l' ∧ durableTurn x l p =
      ({ poll := writeStatus x l.writeId, timer := some l.delay, log }, .again l') := by
  obtain ⟨log, hc | hc | hc | hc | hc⟩ := turn_cases x l p
  · exact absurd (Or.inl hc.1) hnt
  · exact absurd (Or.inr (Or.inl hc.1)) hnt
  · exact absurd (Or.inr (Or.inr hc.1)) hnt
  · exact absurd hw hc.2.1
  · obtain ⟨-, -, l', hnext, hturn⟩ := hc
    exact ⟨log, l', hnext, hturn⟩

/-! ### The state after several turns -/

/-- The delays in force, poll after poll, in microseconds. -/
def backoff (first cap : ℤ) : ℕ → ℤ
  | 0 => first
  | k + 1 => min (divRound (backoff first cap k * 3) 2) cap

theorem backoff_le (first cap : ℤ) (k : ℕ) : backoff first cap k ≤ max first cap := by
  cases k with
  | zero => exact le_max_left _ _
  | succ k => exact (min_le_right _ _).trans (le_max_right _ _)

/-- Poll `j` is answered with a non-terminal status, at a time from which the `j`-th delay still leads
before the deadline. -/
def GoesOn (l : PollLoop) (polls : List Poll) (j : ℕ) : Prop :=
  ∃ p, polls[j]? = some p ∧ ¬ Terminal p.status.writeStatus ∧
    0 ≤ p.arrived.micros + backoff l.delay.micros l.cap.micros j ∧
    p.arrived.micros + backoff l.delay.micros l.cap.micros j < l.deadline.micros

/-- The loop variables at poll `k`. -/
structure AtPoll (l : PollLoop) (k : ℕ) (t : PollLoop) : Prop where
  writeId : t.writeId = l.writeId
  cap : t.cap = l.cap
  deadline : t.deadline = l.deadline
  maxWait : t.maxWait = l.maxWait
  delay : t.delay.micros = backoff l.delay.micros l.cap.micros k

theorem AtPoll.waits_iff {l t : PollLoop} {k : ℕ} (h : AtPoll l k t) (now : Datetime) :
    Waits t now ↔ 0 ≤ now.micros + backoff l.delay.micros l.cap.micros k ∧
      now.micros + backoff l.delay.micros l.cap.micros k < l.deadline.micros := by
  unfold Waits
  rw [h.delay, h.deadline]

theorem AtPoll.next {l t t' : PollLoop} {k : ℕ} (h : AtPoll l k t) (hn : Next t t') :
    AtPoll l (k + 1) t' where
  writeId := hn.writeId.trans h.writeId
  cap := hn.cap.trans h.cap
  deadline := hn.deadline.trans h.deadline
  maxWait := hn.maxWait.trans h.maxWait
  delay := by rw [hn.delay, h.delay, h.cap]; rfl

theorem take_succ_of_get {polls : List Poll} {k : ℕ} {p : Poll} (h : polls[k]? = some p) :
    polls.take (k + 1) = polls.take k ++ [p] := by
  rw [List.take_add_one, h]; rfl

theorem reached {x : WorkflowXmemory} {l t : PollLoop} {polls : List Poll} (k : ℕ)
    (hk : k ≤ polls.length) (h : (durableLoop x).stateAt l (polls.take k) = some t) :
    AtPoll l k t ∧ ∀ j < k, GoesOn l polls j := by
  induction k generalizing t with
  | zero =>
    cases h
    exact ⟨⟨rfl, rfl, rfl, rfl, rfl⟩, fun j hj => absurd hj (Nat.not_lt_zero j)⟩
  | succ k ih =>
    obtain ⟨p, hp⟩ : ∃ p, polls[k]? = some p := ⟨_, List.getElem?_eq_getElem (by omega)⟩
    rw [take_succ_of_get hp, stateAt_concat] at h
    obtain ⟨u, hu, hbody⟩ := h
    obtain ⟨hat, hgo⟩ := ih (by omega) hu
    have hturn : durableTurn x u p = ((durableTurn x u p).1, .again t) := Prod.ext rfl hbody
    obtain ⟨hnt, hw, hnext, -, -⟩ := turn_again_iff hturn
    refine ⟨hat.next hnext, fun j hj => ?_⟩
    rcases Nat.lt_succ_iff_lt_or_eq.mp hj with hlt | rfl
    · exact hgo j hlt
    · exact ⟨p, hp, hnt, (hat.waits_iff p.arrived).mp hw⟩

/-- **Poll `k` is made** exactly when every earlier poll leaves the loop going. -/
theorem reached_iff {x : WorkflowXmemory} {l : PollLoop} {polls : List Poll} (k : ℕ)
    (hk : k ≤ polls.length) :
    (∃ t, (durableLoop x).stateAt l (polls.take k) = some t) ↔ ∀ j < k, GoesOn l polls j := by
  constructor
  · rintro ⟨t, ht⟩
    exact (reached k hk ht).2
  · intro hgo
    induction k with
    | zero => exact ⟨l, rfl⟩
    | succ k ih =>
      obtain ⟨u, hu⟩ := ih (by omega) fun j hj => hgo j (by omega)
      obtain ⟨p, hp, hnt, hwait⟩ := hgo k (by omega)
      have hat := (reached k (by omega) hu).1
      have hw : Waits u p.arrived := (hat.waits_iff p.arrived).mpr hwait
      rw [take_succ_of_get hp]
      simp only [stateAt_concat]
      obtain ⟨log, t, -, hturn⟩ := turn_of_waits x hnt hw
      exact ⟨t, u, hu, by show (durableTurn x u p).2 = _; rw [hturn]⟩

end XmemoryTemporal.Durable.Turn
