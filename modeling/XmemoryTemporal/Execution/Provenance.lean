import XmemoryTemporal.Execution.Spec
import XmemoryTemporal.Execution.Progress

/-! # What the end of a write rests on

In every state of every run of a workflow: what a call has been told goes on as the specification has it
(`follows_spec`); the end of a call follows from what it was told, all of which a client said to an attempt
that reported it (`ended_attested`); and the answer it was told of its write is that of the last writing call
a client got for it (`written_last`). -/

namespace XmemoryTemporal.Execution.Provenance

open XmemoryTemporal.Python.Time XmemoryTemporal.Config XmemoryTemporal.Dto XmemoryTemporal.Errors
open XmemoryTemporal.Lib.Retry XmemoryTemporal.Lib.Simulation XmemoryTemporal.Activities
open XmemoryTemporal.Activities.Timeout XmemoryTemporal.WorkflowApi XmemoryTemporal.Durable.Turn
open XmemoryTemporal.Durable.Outcome XmemoryTemporal.Durable.Deadline XmemoryTemporal.Execution
open XmemoryTemporal.Execution.AtMostOnce XmemoryTemporal.Execution.History
open XmemoryTemporal.Execution.Spec XmemoryTemporal.Execution.Progress

/-! ### The end of a call -/

theorem progress_of_ended {c : WriteCall} {s : CallState} {o : CallOutcome} (h : EndedWith c s o) :
    (viewOf c s.history).progress = .ended o := by
  show Coroutine.progress (replay c s.history) = _
  rw [show replay c s.history = .finished o from h]
  rfl

/-! ### A durable write that completes -/

/-- A workflow that makes one durable write. -/
def oneDurable (a : DurableArgs) : Unit → WriteCall := fun _ => .writeDurable defaultHandle a

/-- Its end: the status of a write that was completed. -/
def completedStatus : WriteStatusOutput := projectWriteStatus (reportOf "completed")

theorem oneDurable_ends :
    ∃ (a : DurableArgs) (s : State Unit), Reachable (oneDurable a) s ∧
      EndedWith (oneDurable a ()) (s ()) (.returned (.writeStatus completedStatus)) := by
  refine ⟨{ write := {} }, ?_⟩
  refine reachable_of_callRun (i := ())
    (P := fun t => EndedWith (oneDurable { write := {} } ()) t (.returned (.writeStatus completedStatus)))
    fun s hready hnew => ?_
  obtain ⟨t, hrun, -, ht, -⟩ := brought_from_start (x := defaultHandle) (a := { write := {} }) firstDay
    ⟨.value "w1"⟩ [⟨reportOf "completed", firstDay, false⟩] hready hnew
  exact ⟨t, hrun, ht.trans rfl⟩

/-- What a client that never fails answers a write, projected. -/
def writtenOutput : Output := .write (projectWrite ⟨.value "w1", .missing, .missing⟩)

theorem oneWrite_returns :
    ∃ s : State Unit, Reachable oneWrite s ∧ (s ()).history = [.completed writtenOutput firstDay] := by
  refine reachable_of_callRun (i := ()) (P := fun t => t.history = [.completed writtenOutput firstDay])
    fun s hready hnew => ?_
  have hnext : nextCommand (oneWrite ()) (replay (oneWrite ()) s.history) =
      some (.executeActivity (oneWrite ()).command) := by
    rw [hnew]
    rfl
  have hclose : closeTimeout oneWriteInfo = some defaultHandle.writeTimeout :=
    closeTimeout_startToClose (by decide) rfl
  have hok : (runActivity {} (some idleClient) oneWriteInfo (oneWrite ()).command.request).outcome =
      .ok writtenOutput := by
    rw [runActivity_called rfl (clientTimeout_ok_iff.mpr ⟨_, hclose, rfl⟩)]
    rfl
  obtain ⟨t, hrun, -, hhistory⟩ := hready.activity hnext {} idleClient oneWriteInfo hok firstDay
  rw [hnew] at hhistory
  exact ⟨t, hrun, hhistory⟩

section Runs
variable {ι : Type} [DecidableEq ι] {calls : ι → WriteCall} {s t : State ι} {i j : ι}

/-- **Every run of a workflow, from any state of it, follows the specification**, call by call. -/
theorem follows_spec (h : Reachable calls s) (hrun : Relation.ReflTransGen (Step calls) s t) (i : ι) :
    Relation.ReflTransGen (Advance (calls i)) (viewOf (calls i) (s i).history)
      (viewOf (calls i) (t i).history) :=
  (simulates calls i).run (reachable_runInv h i) hrun

theorem follows_spec_completed :
    ∃ (a : DurableArgs) (s : State Unit), EndedWith (oneDurable a ()) (s ()) (.returned (.writeStatus completedStatus)) ∧
      Relation.ReflTransGen (Advance (oneDurable a ())) ⟨.unanswered, []⟩
        (viewOf (oneDurable a ()) (s ()).history) := by
  obtain ⟨a, s, hs, hend⟩ := oneDurable_ends
  exact ⟨a, s, hend, follows_spec .refl hs ()⟩

/-! ### What a call was told, a client said -/

theorem told_attested {c : WriteCall} {s : CallState} (h : RunInv c s) :
    ∀ p ∈ (viewOf c s.history).heard, Attested s p.1 p.2 := by
  have hprefix : ∀ n ≤ s.history.length, ∀ p ∈ told c .starting (s.history.take n), Attested s p.1 p.2 := by
    intro n hn
    induction n with
    | zero => exact fun p hp => absurd hp List.not_mem_nil
    | succ n ih =>
      have hget := List.getElem?_eq_getElem (show n < s.history.length by omega)
      intro p hp
      rw [List.take_add_one, hget, Option.toList_some, told_concat] at hp
      rcases List.mem_append.mp hp with hp | hp
      · exact ih (by omega) p hp
      · -- the entry that the answer at place `n` adds
        rcases hans : s.history[n] with ⟨o, now⟩ | _ | b
        · rw [hans] at hget hp
          obtain ⟨a, hnext, hattested⟩ := h.attested hget
          have hnext' : nextCommand c ((s.history.take n).foldl (resume c) .starting) =
              some (.executeActivity a) := hnext
          simp only [heardOf, hnext', List.mem_singleton] at hp
          rw [hp]
          exact hattested
        · rw [hans] at hp
          exact absurd hp List.not_mem_nil
        · rw [hans] at hp
          exact absurd hp List.not_mem_nil
  have hall := hprefix s.history.length (Nat.le_refl _)
  rw [List.take_length] at hall
  exact hall

theorem ended_with {c : WriteCall} {ans : Answer} {rest : List Answer} {o o' : CallOutcome}
    (hfirst : resume c .starting ans = .finished o') (h : replay c (ans :: rest) = .finished o) : o' = o := by
  have hrest : replay c (ans :: rest) = rest.foldl (resume c) (.finished o') := by rw [← hfirst]; rfl
  rw [hrest, resume_finished] at h
  exact Coroutine.finished.inj h

theorem told_polling {c : WriteCall} {l : PollLoop} {answers : List Answer} {o : CallOutcome}
    (h : answers.foldl (resume c) (.polling l) = .finished o) (ho : o ≠ .activityError) :
    told c (.polling l) answers ≠ [] := by
  rcases answers with _ | ⟨ans, rest⟩
  · cases h
  rcases ans with ⟨out, now⟩ | _ | suggested
  · exact List.cons_ne_nil _ _
  all_goals
    have hfailed : rest.foldl (resume c) (.finished .activityError) = .finished o := h
    rw [resume_finished] at hfailed
    exact absurd (Coroutine.finished.inj hfailed).symm ho

/-- A durable write that raises Python's error after a single answer has found its deadline to be no date. -/
theorem noDeadline_of_told_once {x : WorkflowXmemory} {a : DurableArgs} {s : CallState}
    (hs : RunInv (.writeDurable x a) s) (hend : EndedWith (.writeDurable x a) s (.raised .overflowError))
    (honce : (viewOf (.writeDurable x a) s.history).heard.length = 1) :
    ∃ start now, s.history = [.completed (.writeStart start) now] ∧ ¬ IsDate (deadlineOf a now) := by
  have hidle := ended_idle hs hend
  have hissued := hs.call.issued 1
  unfold EndedWith at hend
  unfold viewOf at honce
  generalize s.history = history at hend honce hidle hissued ⊢
  rcases history with _ | ⟨ans, rest⟩
  · cases hend
  rcases ans with ⟨o, now⟩ | _ | suggested
  · cases o with
    | writeStart start =>
      rcases pollLoop_cases a now start with ⟨-, l, hl, -⟩ | ⟨hdeadline, hl⟩
      · -- it polls, and its end is that of more answers
        have hfirst : resume (.writeDurable x a) .starting (.completed (.writeStart start) now) = .polling l := by
          simp only [resume, afterEnqueue, hl]
        have hrest : rest.foldl (resume (.writeDurable x a)) (.polling l) = .finished (.raised .overflowError) := by
          rw [← hfirst]
          exact hend
        have hmore := told_polling hrest (by simp)
        have hheard : (told (.writeDurable x a) (.polling l) rest).length + 1 = 1 := by
          rw [← hfirst]
          simpa [told, heardOf, nextCommand, Nat.add_comm] using honce
        exact absurd (List.length_eq_zero_iff.mp (by omega)) hmore
      · have hfirst : resume (.writeDurable x a) .starting (.completed (.writeStart start) now) =
            .finished (.raised .overflowError) := by
          simp only [resume, afterEnqueue, hl]
        rcases rest with _ | ⟨ans, rest⟩
        · exact ⟨start, now, rfl, hdeadline⟩
        · -- an ended call has no second command to be answered
          obtain ⟨cmd, hcmd⟩ : ∃ cmd, s.commands[1]? = some cmd := by
            rw [List.length_cons, List.length_cons] at hidle
            exact ⟨_, List.getElem?_eq_getElem (by omega)⟩
          have hcommand := hissued cmd hcmd
          have hfinished : replay (.writeDurable x a) ([.completed (.writeStart start) now] : List Answer) =
              .finished (.raised .overflowError) := hfirst
          rw [List.take_succ_cons, List.take_zero, hfinished] at hcommand
          exact absurd hcommand not_issued_finished
    | _ => cases ended_with rfl hend
  · cases ended_with rfl hend
  · cases ended_with rfl hend

/-- **The end of a call follows from what it was told**, each answer of which a client gave to an attempt
of that activity, which reported it. Where the end is Python's error and the call was told no more than of its
enqueue, there is no date `max_wait` after that answer. -/
theorem ended_attested {o : CallOutcome} (h : Reachable calls s) (hend : EndedWith (calls i) (s i) o) :
    EndsAs (calls i) (viewOf (calls i) (s i).history).heard o ∧
      (∀ p ∈ (viewOf (calls i) (s i).history).heard, Attested (s i) p.1 p.2) ∧
      ∀ x a, calls i = .writeDurable x a → o = .raised .overflowError →
        (viewOf (calls i) (s i).history).heard.length = 1 →
        ∃ start now, (s i).history = [.completed (.writeStart start) now] ∧ ¬ IsDate (deadlineOf a now) := by
  have hs := reachable_runInv h i
  have htold := reachable_told h i
  unfold Told at htold
  rw [progress_of_ended hend] at htold
  refine ⟨htold, told_attested hs, fun x a hcall ho honce => ?_⟩
  rw [hcall] at hs hend honce
  rw [ho] at hend
  exact noDeadline_of_told_once hs hend honce

theorem ended_attested_completed :
    ∃ (a : DurableArgs) (s : State Unit), EndsAs (oneDurable a ()) (viewOf (oneDurable a ()) (s ()).history).heard
      (.returned (.writeStatus completedStatus)) := by
  obtain ⟨a, s, hs, hend⟩ := oneDurable_ends
  exact ⟨a, s, (ended_attested hs hend).1⟩

/-! ### The write that was answered -/

theorem command_writes (c : WriteCall) (config : XmemoryConfig) (T : ℚ) :
    isWrite (c.command.request.call config T) = true ∧ c.command.request.method ≠ .writeStatus := by
  cases c <;> exact ⟨rfl, fun h => Method.noConfusion h⟩

/-- **The answer to a write is that of the last writing call**: where the call has been told an output for its
write, the last client call that was made for it and that writes is the one that was answered so; it is the
only one if the policy of the handle allows a single attempt. -/
theorem written_last {o : Output} (h : Reachable calls s)
    (hheard : ((calls i).command.request, o) ∈ (viewOf (calls i) (s i).history).heard) :
    ∃ (earlier : List ClientCall) (client : Client) (config : XmemoryConfig) (T : ℚ),
      CallState.writes (s i) = earlier ++ [(calls i).command.request.call config T] ∧
      client.answer ((calls i).command.request.call config T) (calls i).command.request = .ok o ∧
      ∀ n, 1 ≤ n → (calls i).handle.writeRetry.maximumAttempts = n → earlier.length < n := by
  have hs := reachable_runInv h i
  set c := calls i with hc
  obtain ⟨a, attempts, r, client, config, T, hmem, hreq, hlast, -, -, -, hcalls, hanswer⟩ :=
    (told_attested hs _ hheard).reported
  obtain ⟨j, hj⟩ := List.mem_iff_getElem?.mp hmem
  -- it is the attempts at the first command that were answered
  have hzero : j = 0 := by
    rcases j with _ | j
    · rfl
    · have hpoll := (hs.call.later hj).1
      rw [hreq] at hpoll
      exact absurd hpoll (command_writes c config T).2
  subst hzero
  obtain ⟨init, rfl⟩ := List.getLast?_eq_some_iff.mp hlast
  have hwrites : CallState.writes (s i) =
      ((init.flatMap fun r => r.attempt.calls).filter isWrite) ++ [c.command.request.call config T] := by
    have hhead : (s i).commands.head? = some (.activity a (init ++ [r])) := by
      rw [List.head?_eq_getElem?]
      exact hj
    rw [hs.call.writes_eq, hhead]
    show ((init ++ [r]).flatMap fun r => r.attempt.calls).filter isWrite = _
    have hlastCalls : [r].flatMap (fun r => r.attempt.calls) = [c.command.request.call config T] := by
      rw [List.flatMap_singleton, hcalls]
    have hone : [c.command.request.call config T].filter isWrite = [c.command.request.call config T] := by
      simp [(command_writes c config T).1]
    rw [List.flatMap_append, List.filter_append, hlastCalls, hone]
  refine ⟨_, client, config, T, hwrites, hanswer, fun n hn hmax => ?_⟩
  have hle := hs.call.writes_le hn (by rw [command_retryPolicy]; exact hmax)
  rw [hwrites, List.length_append, List.length_singleton] at hle
  omega

end Runs

/-- A write that returned was sent once, with the default policy. -/
theorem written_last_once :
    ∃ (s : State Unit) (config : XmemoryConfig) (T : ℚ),
      CallState.writes (s ()) = [(oneWrite ()).command.request.call config T] := by
  obtain ⟨s, hs, hhistory⟩ := oneWrite_returns
  have hheard : ((oneWrite ()).command.request, writtenOutput) ∈ (viewOf (oneWrite ()) (s ()).history).heard := by
    rw [hhistory]
    exact List.mem_cons_self
  obtain ⟨earlier, client, config, T, hwrites, -, hone⟩ := written_last hs hheard
  have hnone : earlier = [] := List.length_eq_zero_iff.mp (Nat.lt_one_iff.mp (hone 1 (le_refl 1) rfl))
  rw [hnone] at hwrites
  exact ⟨s, config, T, hwrites⟩

end XmemoryTemporal.Execution.Provenance
