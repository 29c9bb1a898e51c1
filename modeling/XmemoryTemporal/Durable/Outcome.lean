import XmemoryTemporal.Durable.Turn
import Mathlib.Data.Seq.Basic

/-! # The outcome of a durable write is its first terminal poll

The polls are a finite or infinite stream; the call is observed after any number of their results
(`runAt`). Its commands are the enqueue and then polls of the id the enqueue returned with a timer
between any two (`commands_alternate`), and its outcome is decided by the first terminal poll, if the
loop does not give up before it (`outcome_cases`, `outcome_of_decides`, joined in `endsAt_iff`). More
answers only add to it (`runAt_mono`). -/

namespace XmemoryTemporal.Durable.Outcome

open XmemoryTemporal.Python.Value XmemoryTemporal.Python.Time XmemoryTemporal.Lib.Loop
open XmemoryTemporal.Dto XmemoryTemporal.Errors XmemoryTemporal.Activities
open XmemoryTemporal.WorkflowApi XmemoryTemporal.Durable.Turn

/-- The time after which the loop gives up, in microseconds: it need not be a date. -/
def deadlineOf (a : DurableArgs) (now : Datetime) : ℤ := now.micros + a.maxWait.micros

/-- A number of microseconds that is a date. -/
def IsDate (n : ℤ) : Prop := 0 ≤ n ∧ n ≤ maxDate

/-- The delay in force at poll `k`. -/
def delayAt (a : DurableArgs) (k : ℕ) : ℤ := backoff a.firstDelay.micros a.cap.micros k

/-- The loop variables the call starts with. -/
structure Starts (a : DurableArgs) (now : Datetime) (start : WriteStartOutput) (l : PollLoop) : Prop where
  writeId : l.writeId = start.writeId
  delay : l.delay = a.firstDelay
  cap : l.cap = a.cap
  deadline : l.deadline.micros = deadlineOf a now
  maxWait : l.maxWait = a.maxWait

theorem pollLoop_cases (a : DurableArgs) (now : Datetime) (start : WriteStartOutput) :
    (IsDate (deadlineOf a now) ∧ ∃ l, pollLoop a now start = .ok l ∧ Starts a now start l) ∨
      (¬ IsDate (deadlineOf a now) ∧ pollLoop a now start = .error .overflowError) := by
  unfold IsDate deadlineOf
  rcases hd : now.add a.maxWait with _ | deadline
  · rw [Datetime.add_eq_none] at hd
    refine Or.inr ⟨by omega, ?_⟩
    unfold pollLoop
    rw [Datetime.add_eq_none.mpr hd]
  · have hm := Datetime.add_eq_some.mp hd
    have h0 := deadline.nonneg
    have h1 := deadline.le_max
    set l : PollLoop :=
      { writeId := start.writeId, delay := a.firstDelay, cap := a.cap, deadline
        maxWait := a.maxWait, warnedHistory := false } with hl
    refine Or.inl ⟨by omega, l, ?_, rfl, rfl, rfl, hm, rfl⟩
    simp only [pollLoop, hd, hl]

section Run
variable (x : WorkflowXmemory) (a : DurableArgs) (now : Datetime) (start : WriteStartOutput)

theorem writeDurable_of_ok {l : PollLoop} (hl : pollLoop a now start = .ok l) (polls : List Poll) :
    writeDurable x a now start polls =
      { start := writeAsyncStart x a.write
        turns := ((durableLoop x).run l polls).1
        outcome := ((durableLoop x).run l polls).2 } := by
  simp only [writeDurable, hl]

theorem writeDurable_of_error (h : pollLoop a now start = .error .overflowError) (polls : List Poll) :
    writeDurable x a now start polls =
      { start := writeAsyncStart x a.write, turns := [], outcome := some (.error .overflowError) } := by
  simp only [writeDurable, h]

/-! ### The commands -/

/-- A poll, and then for each timer the timer and another poll. -/
def alternating (poll : ExecuteActivity) (timers : List Timedelta) : List Command :=
  (timers.flatMap fun d => [.executeActivity poll, .sleep d]) ++ [.executeActivity poll]

theorem turns_alternate (l : PollLoop) (polls : List Poll) :
    ∃ timers, timers.length + 1 = ((durableLoop x).run l polls).1.length ∧
      ((durableLoop x).run l polls).1.flatMap PollTurn.commands =
        alternating (writeStatus x l.writeId) timers := by
  induction polls generalizing l with
  | nil => exact ⟨[], rfl, rfl⟩
  | cons p polls ih =>
    have hstop : ∀ log o, durableTurn x l p = ({ poll := writeStatus x l.writeId, log }, .stop o) →
        ∃ timers, timers.length + 1 = ((durableLoop x).run l (p :: polls)).1.length ∧
          ((durableLoop x).run l (p :: polls)).1.flatMap PollTurn.commands =
            alternating (writeStatus x l.writeId) timers := by
      intro log o h
      rw [run_stop h]
      exact ⟨[], rfl, rfl⟩
    obtain ⟨log, h | h | h | ⟨-, -, e, -, h⟩ | ⟨-, -, l', hn, h⟩⟩ := turn_cases x l p
    · exact hstop _ _ h.2
    · exact hstop _ _ h.2
    · exact hstop _ _ h.2
    · exact hstop _ _ h
    · obtain ⟨timers, hlen, hcmd⟩ := ih l'
      rw [run_again (L := durableLoop x) h]
      refine ⟨l.delay :: timers, by simp [hlen], ?_⟩
      simp only [List.flatMap_cons, hcmd, hn.writeId]
      rfl

/-- An activity that enqueues the write of a call: `write_start` of its input. -/
def Enqueues (c : ExecuteActivity) : Prop :=
  c.request = .writeStart { text := a.write.text, extractionLogic := a.write.extractionLogic,
                            diffEngine := a.write.diffEngine, structuredMutations := a.write.structuredMutations }

/-- An activity that polls a write: `write_status` of its id. -/
def PollsFor (writeId : Option String) (c : ExecuteActivity) : Prop :=
  c.request = .writeStatus { writeId := writeId }

/-- The commands of a call: the enqueue, and then polls of its id with a timer between any two. -/
structure Alternates (r : DurableRun) : Prop where
  enqueues : Enqueues a (writeAsyncStart x a.write)
  polls : PollsFor start.writeId (writeStatus x start.writeId)
  commands : ∃ timers, timers.length + 1 = r.turns.length ∧
    r.commands = .executeActivity (writeAsyncStart x a.write) ::
      alternating (writeStatus x start.writeId) timers

theorem commands_alternate (polls : List Poll) :
    (IsDate (deadlineOf a now) ∧ Alternates x a start (writeDurable x a now start polls)) ∨
      (¬ IsDate (deadlineOf a now) ∧ writeDurable x a now start polls =
        { start := writeAsyncStart x a.write, turns := [], outcome := some (.error .overflowError) }) := by
  rcases pollLoop_cases a now start with ⟨hD, l, hl, hs⟩ | ⟨hD, he⟩
  · obtain ⟨timers, hlen, hcmd⟩ := turns_alternate x l polls
    refine Or.inl ⟨hD, rfl, rfl, timers, ?_, ?_⟩
    · rw [writeDurable_of_ok x a now start hl]
      exact hlen
    · rw [writeDurable_of_ok x a now start hl, ← hs.writeId, ← hcmd]
      rfl
  · exact Or.inr ⟨hD, writeDurable_of_error x a now start he polls⟩

/-! ### The outcome -/

variable (σ : Stream'.Seq Poll)

/-- The call as it stands when `n` polls have been answered. -/
def runAt (n : ℕ) : DurableRun := writeDurable x a now start (σ.take n)

/-- The loop does not give up at a poll before `k`: the deadline is a date, and from each of those polls
the delay in force leads to a date before it. -/
def NotGivenUpBefore (k : ℕ) : Prop :=
  IsDate (deadlineOf a now) ∧ ∀ j < k, ∀ q, σ.get? j = some q →
    0 ≤ q.arrived.micros + delayAt a j ∧ q.arrived.micros + delayAt a j < deadlineOf a now

/-- Poll `k` is the first terminal one. -/
def FirstTerminal (k : ℕ) (p : Poll) : Prop :=
  σ.get? k = some p ∧ Terminal p.status.writeStatus ∧
    ∀ j < k, ∀ q, σ.get? j = some q → ¬ Terminal q.status.writeStatus

/-- What a terminal status makes of the call. -/
def Verdict (status : WriteStatusOutput) (o : Except PyError WriteStatusOutput) : Prop :=
  (status.writeStatus = statusCompleted ∧ o = .ok status) ∨
    (status.writeStatus = statusFailed ∧ o = .error (.applicationError (writeFailed status))) ∨
    (status.writeStatus = statusNotFound ∧ o = .error (.applicationError (writeNotFound status)))

/-- Giving up at poll `k`: by the timeout, if the next poll would not be before the deadline. -/
def GivesUp (k : ℕ) (p : Poll) (e : PyError) : Prop :=
  (deadlineOf a now ≤ p.arrived.micros + delayAt a k ∧
      ∃ l, e = .applicationError (writeTimeout l p.status)) ∨
    (¬ IsDate (p.arrived.micros + delayAt a k) ∧ e = .overflowError)

/-- The call has ended, in turn `k`. -/
def EndsAt (r : DurableRun) (k : ℕ) (o : Except PyError WriteStatusOutput) : Prop :=
  r.outcome = some o ∧ r.turns.length = k + 1

variable {x a now start σ}

theorem take_get {k n : ℕ} : (σ.take n)[k]? = if k < n then σ.get? k else none :=
  Stream'.Seq.getElem?_take k n σ

theorem delay_at {l t : PollLoop} {k : ℕ} (hs : Starts a now start l) (hat : AtPoll l k t) :
    t.delay.micros = delayAt a k := by
  rw [hat.delay, hs.delay, hs.cap]
  rfl

theorem givesUp_of_gaveUp {l t : PollLoop} {k : ℕ} {p : Poll} {e : PyError}
    (hs : Starts a now start l) (hat : AtPoll l k t) (h : GaveUp t p e) : GivesUp a now k p e := by
  unfold GaveUp at h
  rw [delay_at hs hat, hat.deadline, hs.deadline] at h
  rcases h with ⟨hD, he⟩ | ⟨hdate, he⟩
  · exact Or.inl ⟨hD, t, he⟩
  · refine Or.inr ⟨?_, he⟩
    unfold IsDate
    omega

theorem goesOn_iff {l : PollLoop} (hs : Starts a now start l) {k n : ℕ} (hk : k < n)
    (hget : ∃ p, σ.get? k = some p) : (∀ j < k, GoesOn l (σ.take n) j) ↔
      (∀ j < k, ∀ q, σ.get? j = some q → ¬ Terminal q.status.writeStatus) ∧
        ∀ j < k, ∀ q, σ.get? j = some q →
          0 ≤ q.arrived.micros + delayAt a j ∧ q.arrived.micros + delayAt a j < deadlineOf a now := by
  have hdelay : ∀ j, backoff l.delay.micros l.cap.micros j = delayAt a j := by
    intro j; rw [hs.delay, hs.cap]; rfl
  have htake : ∀ j < k, (σ.take n)[j]? = σ.get? j := by
    intro j hj; rw [take_get, if_pos (by omega)]
  simp only [GoesOn, hs.deadline, hdelay]
  constructor
  · intro h
    refine ⟨fun j hj q hq => ?_, fun j hj q hq => ?_⟩
    all_goals
      obtain ⟨p, hp, hnt, hw⟩ := h j hj
      rw [htake j hj, hq] at hp
      cases hp
    · exact hnt
    · exact hw
  · rintro ⟨h1, h2⟩ j hj
    obtain ⟨p, hp⟩ := hget
    obtain ⟨q, hq⟩ := σ.ge_stable hj.le hp
    exact ⟨q, by rw [htake j hj, hq], h1 j hj q hq, h2 j hj q hq⟩

theorem Verdict.terminal {status : WriteStatusOutput} {o : Except PyError WriteStatusOutput}
    (h : Verdict status o) : Terminal status.writeStatus := by
  rcases h with h | h | h
  · exact Or.inl h.1
  · exact Or.inr (Or.inl h.1)
  · exact Or.inr (Or.inr h.1)

theorem turn_stop {l : PollLoop} {p : Poll} {t : PollTurn} {o : Except PyError WriteStatusOutput}
    (h : durableTurn x l p = (t, .stop o)) : t.timer = none ∧ (Verdict p.status o ∨
      ¬ Terminal p.status.writeStatus ∧ ∃ e, GaveUp l p e ∧ o = .error e) := by
  obtain ⟨log, hc | hc | hc | hc | hc⟩ := turn_cases x l p
  · rw [hc.2] at h
    cases h
    exact ⟨rfl, Or.inl (Or.inl ⟨hc.1, rfl⟩)⟩
  · rw [hc.2] at h
    cases h
    exact ⟨rfl, Or.inl (Or.inr (Or.inl ⟨hc.1, rfl⟩))⟩
  · rw [hc.2] at h
    cases h
    exact ⟨rfl, Or.inl (Or.inr (Or.inr ⟨hc.1, rfl⟩))⟩
  · obtain ⟨hnt, -, e, hg, hturn⟩ := hc
    rw [hturn] at h
    cases h
    exact ⟨rfl, Or.inr ⟨hnt, e, hg, rfl⟩⟩
  · obtain ⟨-, -, l', -, hturn⟩ := hc
    rw [hturn] at h
    cases h

/-- **How a call ends in turn `k`**: by the first terminal poll, or by giving up. -/
theorem outcome_cases {n k : ℕ} {o : Except PyError WriteStatusOutput}
    (h : EndsAt (runAt x a now start σ n) k o) :
    (∃ p, FirstTerminal σ k p ∧ NotGivenUpBefore a now σ k ∧ Verdict p.status o) ∨
      ∃ p e, σ.get? k = some p ∧ ¬ Terminal p.status.writeStatus ∧ GivesUp a now k p e ∧
        o = .error e := by
  unfold EndsAt runAt at h
  rcases pollLoop_cases a now start with ⟨hD, l, hl, hs⟩ | ⟨hD, he⟩
  · rw [writeDurable_of_ok x a now start hl] at h
    obtain ⟨p, t, rec, hp, ht, hbody⟩ := (stops_iff k).mp h
    have hlen : k < (σ.take n).length := (List.getElem?_eq_some_iff.mp hp).1
    have hkn : k < n := by
      by_contra hn
      rw [take_get, if_neg hn] at hp
      simp at hp
    rw [take_get, if_pos hkn] at hp
    obtain ⟨hat, hgo⟩ := reached k hlen.le ht
    obtain ⟨hnt, hw⟩ := (goesOn_iff hs hkn ⟨p, hp⟩).mp hgo
    have hbody' : durableTurn x t p = (rec, .stop o) := hbody
    rcases (turn_stop hbody').2 with hv | ⟨hnt', e, hg, he⟩
    · exact Or.inl ⟨p, ⟨hp, hv.terminal, hnt⟩, ⟨hD, hw⟩, hv⟩
    · exact Or.inr ⟨p, e, hp, hnt', givesUp_of_gaveUp hs hat hg, he⟩
  · rw [writeDurable_of_error x a now start he] at h
    simp at h

variable (x start) in
/-- **The first terminal poll decides**, once its result is there. -/
theorem outcome_of_decides {k : ℕ} {p : Poll} (hf : FirstTerminal σ k p)
    (hg : NotGivenUpBefore a now σ k) :
    ∃ o, EndsAt (runAt x a now start σ (k + 1)) k o ∧ Verdict p.status o := by
  obtain ⟨hp, ht, hnt⟩ := hf
  obtain ⟨hD, hw⟩ := hg
  rcases pollLoop_cases a now start with ⟨-, l, hl, hs⟩ | ⟨hD', -⟩
  · have hget : (σ.take (k + 1))[k]? = some p := by rw [take_get, if_pos (by omega), hp]
    have hlen : k < (σ.take (k + 1)).length := (List.getElem?_eq_some_iff.mp hget).1
    have hgo := (goesOn_iff hs (Nat.lt_succ_self k) ⟨p, hp⟩).mpr ⟨hnt, hw⟩
    obtain ⟨t, hstate⟩ := (reached_iff (x := x) k hlen.le).mpr hgo
    have hends : ∀ rec o, durableTurn x t p = (rec, .stop o) →
        EndsAt (runAt x a now start σ (k + 1)) k o := by
      intro rec o hbody
      unfold EndsAt runAt
      rw [writeDurable_of_ok x a now start hl]
      exact (stops_iff k).mpr ⟨p, t, rec, hget, hstate, hbody⟩
    obtain ⟨log, hc | hc | hc | hc | hc⟩ := turn_cases x t p
    · exact ⟨_, hends _ _ hc.2, Or.inl ⟨hc.1, rfl⟩⟩
    · exact ⟨_, hends _ _ hc.2, Or.inr (Or.inl ⟨hc.1, rfl⟩)⟩
    · exact ⟨_, hends _ _ hc.2, Or.inr (Or.inr ⟨hc.1, rfl⟩)⟩
    · exact absurd ht hc.1
    · exact absurd ht hc.1
  · exact absurd hD hD'

theorem turns_le_of_terminal {n k : ℕ} {p : Poll} (hp : σ.get? k = some p)
    (ht : Terminal p.status.writeStatus) : (runAt x a now start σ n).turns.length ≤ k + 1 := by
  by_contra hlt
  rw [not_le] at hlt
  unfold runAt at hlt
  rcases pollLoop_cases a now start with ⟨-, l, hl, -⟩ | ⟨-, he⟩
  · rw [writeDurable_of_ok x a now start hl] at hlt
    have hget := List.getElem?_eq_getElem hlt
    obtain ⟨t, hlen, hstate, -⟩ := (record_iff (k + 1)).mp hget
    obtain ⟨q, hq, hnt, -⟩ := (reached (k + 1) hlen hstate).2 k (Nat.lt_succ_self k)
    have hkn : k < n := by
      by_contra hn
      rw [take_get, if_neg hn] at hq
      simp at hq
    rw [take_get, if_pos hkn, hp] at hq
    cases hq
    exact hnt ht
  · rw [writeDurable_of_error x a now start he] at hlt
    simp at hlt

theorem take_split {n m : ℕ} (h : n ≤ m) : σ.take m = σ.take n ++ (σ.take m).drop n := by
  have hn : (σ.take m).take n = σ.take n := by
    ext k
    rw [List.getElem?_take, take_get, take_get]
    grind
  rw [← hn, List.take_append_drop]

theorem durableTurn_commands (l : PollLoop) (p : Poll) :
    PollTurn.commands ((durableLoop x).enter l) <+: PollTurn.commands ((durableLoop x).body l p).1 := by
  have hpoll : ((durableLoop x).body l p).1.poll = writeStatus x l.writeId := by
    show (durableTurn x l p).1.poll = _
    obtain ⟨log, h | h | h | ⟨-, -, e, -, h⟩ | ⟨-, -, l', -, h⟩⟩ := turn_cases x l p
    · rw [h.2]
    · rw [h.2]
    · rw [h.2]
    · rw [h]
    · rw [h]
  unfold PollTurn.commands
  rw [hpoll]
  exact List.prefix_append [_] _

/-- **More answers only add to a call**: the commands it has issued stay, and an end is the end. -/
theorem runAt_mono {n m : ℕ} (h : n ≤ m) :
    (runAt x a now start σ n).commands <+: (runAt x a now start σ m).commands ∧
      ∀ o, (runAt x a now start σ n).outcome = some o →
        runAt x a now start σ m = runAt x a now start σ n := by
  unfold runAt
  rw [take_split h]
  rcases pollLoop_cases a now start with ⟨-, l, hl, -⟩ | ⟨-, he⟩
  · rw [writeDurable_of_ok x a now start hl, writeDurable_of_ok x a now start hl]
    constructor
    · exact List.cons_prefix_cons.mpr ⟨rfl, run_output_prefix durableTurn_commands _ _ l⟩
    · intro o ho
      rw [run_stopped ho]
  · rw [writeDurable_of_error x a now start he, writeDurable_of_error x a now start he]
    exact ⟨List.prefix_refl _, fun _ _ => rfl⟩

end Run

/-- The call returns `status`, in turn `k`. -/
def ReturnsAt (x : WorkflowXmemory) (a : DurableArgs) (now : Datetime) (start : WriteStartOutput)
    (σ : Stream'.Seq Poll) (k : ℕ) (status : WriteStatusOutput) : Prop :=
  ∃ n, EndsAt (runAt x a now start σ n) k (.ok status)

/-- The call raises an application error of a type, in turn `k`. -/
def RaisesAt (x : WorkflowXmemory) (a : DurableArgs) (now : Datetime) (start : WriteStartOutput)
    (σ : Stream'.Seq Poll) (k : ℕ) (type : String) : Prop :=
  ∃ n e, EndsAt (runAt x a now start σ n) k (.error (.applicationError e)) ∧ e.type = type

theorem givesUp_type {a : DurableArgs} {now : Datetime} {k : ℕ} {p : Poll} {e : ApplicationError}
    (h : GivesUp a now k p (.applicationError e)) :
    e.type = typeWriteTimeout ∧ deadlineOf a now ≤ p.arrived.micros + delayAt a k := by
  rcases h with ⟨hlate, l, h⟩ | ⟨-, h⟩
  · cases h
    exact ⟨rfl, hlate⟩
  · simp at h

/-! ### The kinds of ends -/

section Verdict
variable {status status' : WriteStatusOutput} {o o' : Except PyError WriteStatusOutput}

theorem Verdict.unique (h : Verdict status o) (h' : Verdict status o') : o = o' := by
  rcases h with ⟨hs, rfl⟩ | ⟨hs, rfl⟩ | ⟨hs, rfl⟩ <;>
    rcases h' with ⟨hs', rfl⟩ | ⟨hs', rfl⟩ | ⟨hs', rfl⟩ <;> rw [hs] at hs' <;>
    first | rfl | exact absurd hs' (by decide)

theorem verdict_returned_iff :
    Verdict status (.ok status') ↔ status.writeStatus = statusCompleted ∧ status' = status := by
  unfold Verdict
  simp

theorem verdict_failed_iff :
    (∃ e, Verdict status (.error (.applicationError e)) ∧ e.type = typeWriteFailed) ↔
      status.writeStatus = statusFailed := by
  constructor
  · rintro ⟨e, h | ⟨hs, -⟩ | ⟨-, h⟩, htype⟩
    · simp at h
    · exact hs
    · cases h
      exact absurd htype (show typeWriteNotFound ≠ typeWriteFailed by decide)
  · exact fun hs => ⟨_, Or.inr (Or.inl ⟨hs, rfl⟩), rfl⟩

theorem verdict_notFound_iff :
    (∃ e, Verdict status (.error (.applicationError e)) ∧ e.type = typeWriteNotFound) ↔
      status.writeStatus = statusNotFound := by
  constructor
  · rintro ⟨e, h | ⟨-, h⟩ | ⟨hs, -⟩, htype⟩
    · simp at h
    · cases h
      exact absurd htype (show typeWriteFailed ≠ typeWriteNotFound by decide)
    · exact hs
  · exact fun hs => ⟨_, Or.inr (Or.inr ⟨hs, rfl⟩), rfl⟩

theorem Verdict.ne_timeout {e : ApplicationError} (h : Verdict status (.error (.applicationError e))) :
    e.type ≠ typeWriteTimeout := by
  rcases h with ⟨-, h⟩ | ⟨-, h⟩ | ⟨-, h⟩
  · simp at h
  · cases h
    exact show typeWriteFailed ≠ typeWriteTimeout by decide
  · cases h
    exact show typeWriteNotFound ≠ typeWriteTimeout by decide

end Verdict

section Ends
variable {x : WorkflowXmemory} {a : DurableArgs} {now : Datetime} {start : WriteStartOutput}
  {σ : Stream'.Seq Poll} {k : ℕ}

/-- **An end that giving up does not come to** is that of the first terminal poll. -/
theorem endsAt_iff {o : Except PyError WriteStatusOutput} (hgave : ∀ p e, GivesUp a now k p e → o ≠ .error e) :
    (∃ n, EndsAt (runAt x a now start σ n) k o) ↔
      ∃ p, FirstTerminal σ k p ∧ NotGivenUpBefore a now σ k ∧ Verdict p.status o := by
  constructor
  · rintro ⟨n, hend⟩
    rcases outcome_cases hend with h | ⟨p, e, -, -, hg, ho⟩
    · exact h
    · exact absurd ho (hgave p e hg)
  · rintro ⟨p, hf, hg, hv⟩
    obtain ⟨o', hend, hv'⟩ := outcome_of_decides x start hf hg
    exact ⟨k + 1, hv'.unique hv ▸ hend⟩

theorem returnsAt_iff {status : WriteStatusOutput} : ReturnsAt x a now start σ k status ↔
    ∃ p, FirstTerminal σ k p ∧ NotGivenUpBefore a now σ k ∧
      p.status.writeStatus = statusCompleted ∧ status = p.status := by
  unfold ReturnsAt
  rw [endsAt_iff fun p e _ h => by simp at h]
  simp only [verdict_returned_iff]

theorem raisesAt_iff {type value : String} (htype : type ≠ typeWriteTimeout)
    (hverdict : ∀ status, (∃ e, Verdict status (.error (.applicationError e)) ∧ e.type = type) ↔
      status.writeStatus = value) :
    RaisesAt x a now start σ k type ↔
      ∃ p, FirstTerminal σ k p ∧ NotGivenUpBefore a now σ k ∧ p.status.writeStatus = value := by
  have hgave : ∀ e : ApplicationError, e.type = type → ∀ p e', GivesUp a now k p e' →
      (.error (.applicationError e) : Except PyError WriteStatusOutput) ≠ .error e' := by
    rintro e he p e' hg h
    cases h
    exact htype (he.symm.trans (givesUp_type hg).1)
  constructor
  · rintro ⟨n, e, hend, he⟩
    obtain ⟨p, hf, hg, hv⟩ := (endsAt_iff (hgave e he)).mp ⟨n, hend⟩
    exact ⟨p, hf, hg, (hverdict p.status).mp ⟨e, hv, he⟩⟩
  · rintro ⟨p, hf, hg, hs⟩
    obtain ⟨e, hv, he⟩ := (hverdict p.status).mpr hs
    obtain ⟨n, hend⟩ : ∃ n, EndsAt (runAt x a now start σ n) k (.error (.applicationError e)) :=
      (endsAt_iff (hgave e he)).mpr ⟨p, hf, hg, hv⟩
    exact ⟨n, e, hend, he⟩

theorem raisesAt_timeout (h : RaisesAt x a now start σ k typeWriteTimeout) :
    ∃ p, σ.get? k = some p ∧ ¬ Terminal p.status.writeStatus ∧
      deadlineOf a now ≤ p.arrived.micros + delayAt a k := by
  obtain ⟨n, e, hend, htype⟩ := h
  rcases outcome_cases hend with ⟨p, -, -, hv⟩ | ⟨p, e', hp, hnt, hg, ho⟩
  · exact absurd htype hv.ne_timeout
  · cases ho
    exact ⟨p, hp, hnt, (givesUp_type hg).2⟩

end Ends

/-- **The outcome of `write_durable` is exactly its first terminal poll.** The commands are one enqueue
and then polls of the enqueued id with a timer between any two; the call returns the first terminal
status, unchanged, when it is `completed`, raises the failure the status stands for when it is `failed`
or `not_found`, and this only if the loop has not given up before; it gives up only directly after a
non-terminal poll, and does nothing after a terminal one. A replay with the same answers and more issues
the same commands first, and a call that has ended stays as it ended. -/
theorem writeDurable_first_terminal (x : WorkflowXmemory) (a : DurableArgs) (now : Datetime)
    (start : WriteStartOutput) (σ : Stream'.Seq Poll) :
    (∀ n, Alternates x a start (runAt x a now start σ n) ∨
      (¬ IsDate (deadlineOf a now) ∧ (runAt x a now start σ n).commands =
        [.executeActivity (writeAsyncStart x a.write)] ∧
        (runAt x a now start σ n).outcome = some (.error .overflowError))) ∧
    (∀ k status, ReturnsAt x a now start σ k status ↔
      ∃ p, FirstTerminal σ k p ∧ NotGivenUpBefore a now σ k ∧
        p.status.writeStatus = statusCompleted ∧ status = p.status) ∧
    (∀ k, RaisesAt x a now start σ k typeWriteFailed ↔
      ∃ p, FirstTerminal σ k p ∧ NotGivenUpBefore a now σ k ∧ p.status.writeStatus = statusFailed) ∧
    (∀ k, RaisesAt x a now start σ k typeWriteNotFound ↔
      ∃ p, FirstTerminal σ k p ∧ NotGivenUpBefore a now σ k ∧ p.status.writeStatus = statusNotFound) ∧
    (∀ k, RaisesAt x a now start σ k typeWriteTimeout →
      ∃ p, σ.get? k = some p ∧ ¬ Terminal p.status.writeStatus) ∧
    (∀ n k p, σ.get? k = some p → Terminal p.status.writeStatus →
      (runAt x a now start σ n).turns.length ≤ k + 1) ∧
    (∀ n m, n ≤ m → (runAt x a now start σ n).commands <+: (runAt x a now start σ m).commands ∧
      ∀ o, (runAt x a now start σ n).outcome = some o →
        runAt x a now start σ m = runAt x a now start σ n) := by
  refine ⟨fun n => ?_, fun k status => returnsAt_iff,
    fun k => raisesAt_iff (by decide) fun _ => verdict_failed_iff,
    fun k => raisesAt_iff (by decide) fun _ => verdict_notFound_iff, fun k h => ?_,
    fun n k p hp ht => turns_le_of_terminal hp ht, fun n m h => runAt_mono h⟩
  · rcases commands_alternate x a now start (σ.take n) with ⟨-, h⟩ | ⟨hD, h⟩
    · exact Or.inl h
    · refine Or.inr ⟨hD, ?_⟩
      unfold runAt
      rw [h]
      exact ⟨rfl, rfl⟩
  · obtain ⟨p, hp, hnt, -⟩ := raisesAt_timeout h
    exact ⟨p, hp, hnt⟩

end XmemoryTemporal.Durable.Outcome
