import XmemoryTemporal.Execution.Recorded
import XmemoryTemporal.Durable.Termination

/-! # How far the history of a durable write grows

The times in a history are those of the answers; `TakesTime` says of them that a timer does not fire early
and that a poll takes at least so long. A timer is only recorded if it ends before the deadline
(`timer_recorded`), so `pollBound` bounds the commands of a durable write in every state of a workflow,
ended or not, and with the limits of its policies all client calls that are made for it
(`growth_bounded`). -/

namespace XmemoryTemporal.Execution.Growth

open XmemoryTemporal.Python.Time XmemoryTemporal.Lib.Retry XmemoryTemporal.Dto XmemoryTemporal.Activities
open XmemoryTemporal.WorkflowApi XmemoryTemporal.Durable.Turn XmemoryTemporal.Durable.Outcome
open XmemoryTemporal.Durable.Deadline XmemoryTemporal.Durable.Backoff XmemoryTemporal.Durable.Termination
open XmemoryTemporal.Execution XmemoryTemporal.Execution.AtMostOnce XmemoryTemporal.Execution.History
open XmemoryTemporal.Execution.Metadata XmemoryTemporal.Execution.Spec XmemoryTemporal.Execution.Progress
open XmemoryTemporal.Execution.Recorded XmemoryTemporal.Execution.Provenance

/-- An answer to an activity, at a time. -/
def ToldAt (history : List Answer) (j : ℕ) (now : Datetime) : Prop :=
  ∃ o, history[j]? = some (.completed o now)

/-- The enqueue is answered at place `0` and poll `k` at place `2 * k + 1`: a poll takes at least `e`
microseconds of workflow time, and the timer before it does not fire early. -/
structure TakesTime (a : DurableArgs) (e : ℚ) (history : List Answer) : Prop where
  first : ∀ now now', ToldAt history 0 now → ToldAt history 1 now' → (now.micros : ℚ) + e ≤ now'.micros
  next : ∀ k now now', ToldAt history (2 * k + 1) now → ToldAt history (2 * k + 3) now' →
    (now.micros : ℚ) + delayAt a k + e ≤ now'.micros

/-- The client calls that are made for a call. -/
def CallState.clientCalls (s : CallState) : List ClientCall := s.commands.flatMap Scheduled.invocations

section Call
variable {c : WriteCall} {s : CallState} {x : WorkflowXmemory} {a : DurableArgs} {e : ℚ} {k : ℕ}

/-! ### Timers -/

/-- **A timer of turn `k`** was set when the poll was answered, to end before the deadline. -/
theorem timer_recorded (h : CallInv (.writeDurable x a) s) (hk : 2 * k + 2 < s.commands.length) :
    ∃ now now', ToldAt s.history 0 now ∧ ToldAt s.history (2 * k + 1) now' ∧
      now'.micros + delayAt a k < deadlineOf a now := by
  have hpending := h.pending
  have hlength : (s.history.take (2 * k + 2)).length = 2 * k + 2 := List.length_take_of_le (by omega)
  have hlast := List.getElem?_eq_getElem (show 2 * k + 1 < s.history.length by omega)
  have hsplit : s.history.take (2 * k + 2) = s.history.take (2 * k + 1) ++ [s.history[2 * k + 1]] := by
    rw [List.take_add_one, hlast]
    rfl
  have hnext := Issued.command (h.issued (2 * k + 2) _ (List.getElem?_eq_getElem hk))
  have hplaced := placed_replay (.writeDurable x a) (s.history.take (2 * k + 2))
  rcases hco : replay (.writeDurable x a) (s.history.take (2 * k + 2)) with _ | l | l | o <;>
    rw [hco] at hnext hplaced
  · have hnil : s.history.take (2 * k + 2) = [] := hplaced
    rw [hnil] at hlength
    simp at hlength
  · -- polls are at the odd places
    obtain ⟨-, -, k', -, hlen, -⟩ := hplaced
    omega
  · obtain ⟨x', a', k', hc, hlen, hin⟩ := hplaced
    cases hc
    have hkk : k' = k := by omega
    subst hkk
    rw [hsplit] at hco
    obtain ⟨status, now', hans, -, hw⟩ := told_of_sleeping hco
    obtain ⟨start, now, hhead, -, hdeadline⟩ := hin.enqueued
    rw [List.head?_take, if_neg (by omega), List.head?_eq_getElem?] at hhead
    rw [hans] at hlast
    rw [hin.delay, hdeadline] at hw
    exact ⟨now, now', ⟨_, hhead⟩, ⟨_, hlast⟩, hw⟩
  · cases hnext

theorem ToldAt.unique {history : List Answer} {j : ℕ} {now now' : Datetime} (h : ToldAt history j now)
    (h' : ToldAt history j now') : now = now' := by
  obtain ⟨o, ho⟩ := h
  obtain ⟨o', ho'⟩ := h'
  rw [ho] at ho'
  cases ho'
  rfl

theorem told_ge (h : CallInv (.writeDurable x a) s) (hfirst : 0 ≤ a.firstDelay.micros) (hcap : 0 ≤ a.cap.micros)
    (htime : TakesTime a e s.history) (hk : 2 * k + 2 < s.commands.length) {now now' : Datetime}
    (hnow : ToldAt s.history 0 now) (hnow' : ToldAt s.history (2 * k + 1) now') :
    (now.micros : ℚ) + e + k * (interval a + e) ≤ now'.micros := by
  induction k generalizing now' with
  | zero =>
    have hle := htime.first now now' hnow hnow'
    simpa using hle
  | succ k ih =>
    obtain ⟨-, earlier, -, hearlier, -⟩ := timer_recorded h (k := k) (by omega)
    have hbefore := ih (by omega) hearlier
    have hstep := htime.next k earlier now' hearlier hnow'
    have hdelay : (interval a : ℚ) ≤ delayAt a k := Int.cast_le.mpr (min_le_delayAt hfirst hcap k)
    push_cast
    linarith

theorem commands_le (h : CallInv (.writeDurable x a) s) (hfirst : 0 ≤ a.firstDelay.micros)
    (hcap : 0 ≤ a.cap.micros) (hpos : 0 < interval a + e) (htime : TakesTime a e s.history) :
    s.commands.length ≤ 2 * pollBound a e := by
  have hone : 1 ≤ pollBound a e := le_max_left _ _
  by_cases hfew : s.commands.length ≤ 2
  · omega
  · -- the last timer that is recorded
    obtain ⟨k, hk, hlast⟩ : ∃ k, 2 * k + 2 < s.commands.length ∧ s.commands.length ≤ 2 * k + 4 :=
      ⟨(s.commands.length - 3) / 2, by omega, by omega⟩
    obtain ⟨now, now', hnow, hnow', hlt⟩ := timer_recorded h hk
    have hge := told_ge h hfirst hcap htime hk hnow hnow'
    have hdelay : (interval a : ℚ) ≤ delayAt a k := Int.cast_le.mpr (min_le_delayAt hfirst hcap k)
    have hlt' : (now'.micros : ℚ) + delayAt a k < now.micros + a.maxWait.micros := by
      unfold deadlineOf at hlt
      exact_mod_cast hlt
    have hceil : ((k + 1 : ℕ) : ℚ) < a.maxWait.micros / (interval a + e) := by
      rw [lt_div_iff₀ hpos]
      push_cast
      linarith
    have hbound : k + 1 < pollBound a e := (Nat.lt_ceil.mpr hceil).trans_le (le_max_right _ _)
    omega

/-! ### Client calls -/

theorem alternate_effects_le {α β : Type} (effects : α → List β) (n : ℕ) (items : List α)
    (hsome : ∀ j item, items[2 * j]? = some item → (effects item).length ≤ n)
    (hnone : ∀ j item, items[2 * j + 1]? = some item → effects item = []) :
    (items.flatMap effects).length ≤ (items.length + 1) / 2 * n := by
  match items with
  | [] => simp
  | [item] =>
    have hle := hsome 0 item rfl
    simpa using hle
  | item :: silent :: items =>
    have hle := hsome 0 item rfl
    have hnil := hnone 0 silent rfl
    have hrest := alternate_effects_le effects n items (fun j i hi => hsome (j + 1) i hi)
      (fun j i hi => hnone (j + 1) i hi)
    have hhalf : (items.length + 1 + 1 + 1) / 2 = (items.length + 1) / 2 + 1 := by omega
    simp only [List.flatMap_cons, List.length_append, List.length_cons, hnil, List.length_nil, hhalf, Nat.add_mul]
    omega

theorem invocations_le {n : ℕ} (h : CallInv c s) {j : ℕ} {cmd : Scheduled} (hcmd : s.commands[j]? = some cmd)
    (hn : 1 ≤ n) (hmax : ∀ b, Scheduled.command cmd = .executeActivity b → b.retryPolicy.maximumAttempts = n) :
    (Scheduled.invocations cmd).length ≤ n := by
  have hissued := h.issued j cmd hcmd
  rcases cmd with ⟨b, attempts⟩ | d
  · obtain ⟨-, hattempted, hran⟩ := hissued
    have hsome : RetryPolicy.limit b.retryPolicy = some n := by
      unfold RetryPolicy.limit
      rw [hmax b rfl, if_neg (by omega)]
    exact hattempted.effects_le hsome (fun r => r.attempt.calls) fun r hr => (hran r hr).calls.1
  · exact Nat.zero_le n

theorem clientCalls_le (h : CallInv (.writeDurable x a) s) {m n N : ℕ} (hm : 1 ≤ m) (hn : 1 ≤ n)
    (hwrite : x.writeRetry.maximumAttempts = m) (hpoll : x.pollRetry.maximumAttempts = n)
    (hN : s.commands.length ≤ 2 * N) : (CallState.clientCalls s).length ≤ m + N * n := by
  unfold CallState.clientCalls
  rcases hcommands : s.commands with _ | ⟨first, rest⟩
  · exact Nat.zero_le _
  · rw [hcommands, List.length_cons] at hN
    have hget : ∀ {j : ℕ} {cmd : Scheduled}, rest[j]? = some cmd → s.commands[j + 1]? = some cmd := by
      intro j cmd hj
      rw [hcommands, List.getElem?_cons_succ]
      exact hj
    have hfirst : (Scheduled.invocations first).length ≤ m := by
      have hzero : s.commands[0]? = some first := by
        rw [hcommands]
        rfl
      refine invocations_le h hzero hm fun b hb => ?_
      have hplanned := planned_at h hzero
      rw [hb] at hplanned
      cases hplanned
      exact hwrite
    have hrest := alternate_effects_le Scheduled.invocations n rest
      (fun j cmd hj => by
        refine invocations_le h (hget hj) hn fun b hb => ?_
        have hplanned := planned_at h (hget hj)
        rw [hb] at hplanned
        generalize hplace : 2 * j + 1 = place at hplanned
        cases hplanned with
        | first => omega
        | poll k hc hhead hpolls =>
          cases hc
          exact hpoll)
      (fun j cmd hj => by
        have hplanned := planned_at h (hget hj)
        generalize hplace : 2 * j + 1 + 1 = place at hplanned
        rcases cmd with ⟨b, attempts⟩ | d
        · generalize hb : Scheduled.command (.activity b attempts) = cmd at hplanned
          cases hplanned with
          | first => omega
          | poll k hc hhead hpolls => omega
          | timer k hc hd => cases hb
        · rfl)
    have hhalf : (rest.length + 1) / 2 ≤ N := by omega
    have hmul := Nat.mul_le_mul_right n hhalf
    rw [List.flatMap_cons, List.length_append]
    omega

end Call

/-! ### Runs -/

section Runs
variable {ι : Type} [DecidableEq ι] {calls : ι → WriteCall} {s : State ι} {i : ι} {x : WorkflowXmemory}
  {a : DurableArgs} {e : ℚ}

/-- **What a durable write leaves in the history, and sends, is bounded by `max_wait`**: in every state of a
workflow, whatever the statuses, failures, crashes and attempts so far, it has recorded at most two commands
for each poll of `pollBound`; and where its policies limit the attempts to `m` at the enqueue and `n` at a
poll, at most `m + pollBound * n` client calls were made for it. -/
theorem growth_bounded (h : Reachable calls s) (hcall : calls i = .writeDurable x a)
    (hfirst : 0 ≤ a.firstDelay.micros) (hcap : 0 ≤ a.cap.micros) (hpos : 0 < interval a + e)
    (htime : TakesTime a e (s i).history) :
    (s i).commands.length ≤ 2 * pollBound a e ∧
      ∀ m n, 1 ≤ m → 1 ≤ n → x.writeRetry.maximumAttempts = m → x.pollRetry.maximumAttempts = n →
        (CallState.clientCalls (s i)).length ≤ m + pollBound a e * n := by
  have hinv := (reachable_runInv h i).call
  rw [hcall] at hinv
  have hcommands := commands_le hinv hfirst hcap hpos htime
  exact ⟨hcommands, fun m n hm hn hwrite hpoll => clientCalls_le hinv hm hn hwrite hpoll hcommands⟩

end Runs

/-- Thirteen seconds and polls of a second each: after three polls and their timers the commands are within
ten and the client calls within 51, one enqueue and ten attempts at each of five polls. -/
theorem growth_bounded_hurried :
    ∃ s : State Unit, (s ()).history.length = 7 ∧ (s ()).commands.length ≤ 10 ∧
      (CallState.clientCalls (s ())).length ≤ 51 := by
  set start : WriteStartResult := ⟨.value "w1"⟩
  set history : List Answer :=
    .completed (.writeStart (projectWriteStart start)) firstDay :: (slowPolls.take 3).flatMap Poll.answers
  obtain ⟨s, hs, hhistory⟩ : ∃ s : State Unit, Reachable (oneDurable hurried) s ∧ (s ()).history = history := by
    refine reachable_of_callRun (i := ()) (P := fun t => t.history = history) fun s hready hnew => ?_
    obtain ⟨t, hrun, -, -, hhistory⟩ := brought_from_start (x := defaultHandle) (a := hurried) firstDay start
      (slowPolls.take 3) hready hnew
    exact ⟨t, hrun, hhistory rfl⟩
  have htime : TakesTime hurried 1000000 (s ()).history := by
    rw [hhistory]
    refine ⟨?_, ?_⟩
    · rintro now now' ⟨o, ho⟩ ⟨o', ho'⟩
      cases ho
      cases ho'
      show ((0 : ℤ) : ℚ) + 1000000 ≤ ((1000000 : ℤ) : ℚ)
      norm_num
    · rintro k now now' ⟨o, ho⟩ ⟨o', ho'⟩
      have hstep : now.micros + delayAt hurried k + 1000000 ≤ now'.micros := by
        rcases k with _ | _ | k
        · cases ho
          cases ho'
          decide
        · cases ho
          cases ho'
          decide
        · have hlt := (List.getElem?_eq_some_iff.mp ho').1
          have hlen : history.length = 7 := rfl
          omega
      exact_mod_cast hstep
  obtain ⟨hcommands, hcalls⟩ := growth_bounded (i := ()) hs rfl (by decide) (by decide)
    (by rw [interval_hurried]; norm_num) htime
  have hlimits := hcalls 1 10 (by decide) (by decide) rfl rfl
  rw [pollBound_hurried] at hcommands hlimits
  exact ⟨s, by rw [hhistory]; rfl, hcommands, hlimits⟩

end XmemoryTemporal.Execution.Growth
