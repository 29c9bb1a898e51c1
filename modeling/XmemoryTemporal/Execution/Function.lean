import XmemoryTemporal.Execution.Metadata
import XmemoryTemporal.Execution.Progress
import Mathlib.Data.List.Induction

/-! # The durable writes of a workflow, and the function

The function `writeDurable` goes from the polls to the commands and the outcome; in a workflow the same
call is made of steps, with attempts, crashes and replays between them. A call that has ended there, and
not by the failure of an activity, has issued the commands of the function and ends as it does, on polls
that clients reported (`ended_as_writeDurable`); and every outcome of the function is one of a run. So what
holds of the function for all polls holds of every workflow. -/

namespace XmemoryTemporal.Execution.Function

open XmemoryTemporal.Python.Time XmemoryTemporal.Lib.Loop XmemoryTemporal.Lib.TwoRuns XmemoryTemporal.Dto
open XmemoryTemporal.Errors XmemoryTemporal.Activities XmemoryTemporal.WorkflowApi
open XmemoryTemporal.Execution XmemoryTemporal.Execution.AtMostOnce XmemoryTemporal.Execution.History
open XmemoryTemporal.Execution.Progress XmemoryTemporal.Execution.Metadata

/-! ### The commands of a history -/

/-- The commands a call issues from a place on, as it is answered. -/
def issued (c : WriteCall) : Coroutine → List Answer → List Command
  | co, [] => (nextCommand c co).toList
  | co, ans :: answers => (nextCommand c co).toList ++ issued c (resume c co ans) answers

theorem issued_finished (c : WriteCall) (o : CallOutcome) (answers : List Answer) :
    issued c (.finished o) answers = [] := by
  induction answers with
  | nil => rfl
  | cons ans answers ih => exact ih

theorem issued_eq {c : WriteCall} {co : Coroutine} {answers : List Answer} {cmds : List Command}
    (hlen : cmds.length = answers.length)
    (hnext : ∀ j cmd, cmds[j]? = some cmd → nextCommand c ((answers.take j).foldl (resume c) co) = some cmd)
    (hlast : nextCommand c (answers.foldl (resume c) co) = none) : cmds = issued c co answers := by
  induction answers generalizing co cmds with
  | nil =>
    have hnil : cmds = [] := List.length_eq_zero_iff.mp hlen
    have hnone : nextCommand c co = none := hlast
    rw [hnil, issued, hnone]
    rfl
  | cons ans answers ih =>
    rcases cmds with _ | ⟨cmd, cmds⟩
    · simp at hlen
    · have hfirst : nextCommand c co = some cmd := hnext 0 cmd rfl
      have hlen' : cmds.length = answers.length := by simpa using hlen
      have hrest : cmds = issued c (resume c co ans) answers :=
        ih hlen' (fun j cmd' hj => hnext (j + 1) cmd' hj) hlast
      rw [issued, hfirst, hrest]
      rfl

/-- **The commands of an ended call** are those its history makes it issue. -/
theorem commands_of_ended {c : WriteCall} {s : CallState} {o : CallOutcome} (hs : RunInv c s)
    (h : EndedWith c s o) : s.commands.map Scheduled.command = issued c .starting s.history := by
  refine issued_eq ?_ (fun j cmd hj => ?_) ?_
  · rw [List.length_map]
    exact ended_idle hs h
  · rw [List.getElem?_map, Option.map_eq_some_iff] at hj
    obtain ⟨cmd', hj, rfl⟩ := hj
    exact Issued.command (hs.call.issued j cmd' hj)
  · have hfinished : s.history.foldl (resume c) .starting = .finished o := h
    rw [hfinished]
    rfl

/-! ### The polls of a history -/

/-- The statuses of a history are those of results that a client reported. -/
def Projected (answers : List Answer) : Prop :=
  ∀ status now, Answer.completed (.writeStatus status) now ∈ answers → ∃ result, projectWriteStatus result = status

section Durable
variable {x : WorkflowXmemory} {a : DurableArgs} {answers : List Answer} {l : PollLoop} {o : CallOutcome}

theorem exists_poll (hproj : Projected answers) {status : WriteStatusOutput} {now : Datetime}
    (hmem : Answer.completed (.writeStatus status) now ∈ answers) (suggested : Bool) :
    ∃ p : Poll, p.status = status ∧ p.arrived = now ∧ p.continueAsNewSuggested = suggested := by
  obtain ⟨result, hresult⟩ := hproj status now hmem
  exact ⟨⟨result, now, suggested⟩, hresult, rfl, rfl⟩

theorem not_failed {c : WriteCall} {co : Coroutine} {ans : Answer} {rest : List Answer}
    (hend : (ans :: rest).foldl (resume c) co = .finished o) (ho : o ≠ .activityError) :
    resume c co ans ≠ .finished .activityError := by
  intro hfailed
  rw [List.foldl_cons, hfailed, resume_finished] at hend
  injection hend with hend
  exact ho hend.symm

theorem enqueue_of_ended {c : WriteCall} (hend : answers.foldl (resume c) .starting = .finished o)
    (ho : o ≠ .activityError) :
    ∃ out now rest, answers = .completed out now :: rest ∧
      rest.foldl (resume c) (afterEnqueue c out now) = .finished o := by
  rcases answers with _ | ⟨ans, rest⟩
  · simp at hend
  · have hgood := not_failed hend ho
    rcases ans with ⟨out, now⟩ | _ | b
    · exact ⟨out, now, rest, rfl, hend⟩
    · exact absurd rfl hgood
    · exact absurd rfl hgood

theorem poll_of_ended (hend : answers.foldl (resume (.writeDurable x a)) (.polling l) = .finished o)
    (ho : o ≠ .activityError) :
    ∃ status now rest, answers = .completed (.writeStatus status) now :: rest ∧
      rest.foldl (resume (.writeDurable x a))
        (resume (.writeDurable x a) (.polling l) (.completed (.writeStatus status) now)) = .finished o := by
  rcases answers with _ | ⟨ans, rest⟩
  · simp at hend
  · have hgood := not_failed hend ho
    rcases ans with ⟨out, now⟩ | _ | b
    · rcases out with out | out | out | status
      · exact absurd rfl hgood
      · exact absurd rfl hgood
      · exact absurd rfl hgood
      · exact ⟨status, now, rest, rfl, hend⟩
    · exact absurd rfl hgood
    · exact absurd rfl hgood

theorem timer_of_ended (hend : answers.foldl (resume (.writeDurable x a)) (.sleeping l) = .finished o)
    (ho : o ≠ .activityError) :
    ∃ suggested rest, answers = .fired suggested :: rest ∧
      rest.foldl (resume (.writeDurable x a)) (resume (.writeDurable x a) (.sleeping l) (.fired suggested)) =
        .finished o := by
  rcases answers with _ | ⟨ans, rest⟩
  · simp at hend
  · have hgood := not_failed hend ho
    rcases ans with ⟨out, now⟩ | _ | b
    · exact absurd rfl hgood
    · exact absurd rfl hgood
    · exact ⟨b, rest, rfl, hend⟩

/-- The function ends on the polls as the call does, with the same commands; the polls are of the history. -/
structure EndsOn (x : WorkflowXmemory) (l : PollLoop) (answers : List Answer) (o : CallOutcome)
    (cmds : List Command) (polls : List Poll) : Prop where
  outcome : ∃ r, ((durableLoop x).run l polls).2 = some r ∧ o = callOutcome r
  commands : cmds = ((durableLoop x).run l polls).1.flatMap PollTurn.commands
  reported : ∀ p ∈ polls, Answer.completed (.writeStatus p.status) p.arrived ∈ answers

theorem ended_turn {p : Poll} {t : PollTurn} {r : Except PyError WriteStatusOutput}
    (hturn : durableTurn x l p = (t, .stop r))
    (hmem : Answer.completed (.writeStatus p.status) p.arrived ∈ answers) :
    EndsOn x l answers (callOutcome r) (PollTurn.commands t) [p] := by
  have hrun : (durableLoop x).run l [p] = ([t], some r) := run_stop hturn
  refine ⟨⟨r, ?_, rfl⟩, ?_, fun q hq => ?_⟩
  · rw [hrun]
  · rw [hrun]
    exact (List.flatMap_singleton _ _).symm
  · rw [List.mem_singleton.mp hq]
    exact hmem

/-- **A history that brings the loop to its end** is that of polls on which the function ends as well, with
the same commands. -/
theorem ended_loop (hend : answers.foldl (resume (.writeDurable x a)) (.polling l) = .finished o)
    (ho : o ≠ .activityError) (hproj : Projected answers) :
    ∃ polls, EndsOn x l answers o (issued (.writeDurable x a) (.polling l) answers) polls := by
  induction hn : answers.length using Nat.strong_induction_on generalizing answers l with
  | _ n ih =>
    set c : WriteCall := .writeDurable x a with hc
    obtain ⟨status, now, rest, rfl, hrest⟩ := poll_of_ended hend ho
    have hmem : Answer.completed (.writeStatus status) now ∈ .completed (.writeStatus status) now :: rest :=
      List.mem_cons_self
    rcases hs : afterStatus l now status with status' | e | _
    · -- the status ends the call
      obtain ⟨p, hstatus, harrived, -⟩ := exists_poll hproj hmem false
      have hres : resume c (.polling l) (.completed (.writeStatus status) now) =
          .finished (.returned (.writeStatus status')) := by simp only [resume, hs]
      have hturn : durableTurn x l p = ({ poll := writeStatus x l.writeId, log := statusLog p.status },
          .stop (.ok status')) := by
        simp only [durableTurn, hstatus, harrived, hs]
      rw [hres, resume_finished] at hrest
      injection hrest with hrest
      rw [issued, hres, issued_finished, ← hrest]
      exact ⟨[p], ended_turn hturn (by rw [hstatus, harrived]; exact hmem)⟩
    · obtain ⟨p, hstatus, harrived, -⟩ := exists_poll hproj hmem false
      have hres : resume c (.polling l) (.completed (.writeStatus status) now) =
          .finished (.raised e) := by simp only [resume, hs]
      have hturn : durableTurn x l p = ({ poll := writeStatus x l.writeId, log := statusLog p.status },
          .stop (.error e)) := by
        simp only [durableTurn, hstatus, harrived, hs]
      rw [hres, resume_finished] at hrest
      injection hrest with hrest
      rw [issued, hres, issued_finished, ← hrest]
      exact ⟨[p], ended_turn hturn (by rw [hstatus, harrived]; exact hmem)⟩
    · -- the call sleeps, and the timer fires
      have hres : resume c (.polling l) (.completed (.writeStatus status) now) = .sleeping l := by
        simp only [resume, hs]
      rw [hres] at hrest
      obtain ⟨suggested, rest', rfl, hrest'⟩ := timer_of_ended hrest ho
      obtain ⟨p, hstatus, harrived, hsuggested⟩ := exists_poll hproj hmem suggested
      rw [issued, issued, hres]
      rcases ht : afterTimer l suggested with e | l'
      · have hres' : resume c (.sleeping l) (.fired suggested) = .finished (.raised e) := by
          simp only [resume, ht]
        have hturn : durableTurn x l p =
            ({ poll := writeStatus x l.writeId, timer := some l.delay, log := statusLog p.status },
              .stop (.error e)) := by
          simp only [durableTurn, hstatus, harrived, hsuggested, hs, ht]
        rw [hres', resume_finished] at hrest'
        injection hrest' with hrest'
        rw [hres', issued_finished, ← hrest']
        exact ⟨[p], ended_turn hturn (by rw [hstatus, harrived]; exact hmem)⟩
      · have hres' : resume c (.sleeping l) (.fired suggested) = .polling l' := by
          simp only [resume, ht]
        rw [hres'] at hrest'
        have hlt : rest'.length < n := by
          simp only [List.length_cons] at hn
          omega
        have hproj' : Projected rest' := fun st t h =>
          hproj st t (List.mem_cons_of_mem _ (List.mem_cons_of_mem _ h))
        obtain ⟨polls, ⟨r, hr, rfl⟩, hcommands, hreported⟩ := ih rest'.length hlt hrest' hproj' rfl
        obtain ⟨log, hturn⟩ : ∃ log, durableTurn x l p =
            ({ poll := writeStatus x l.writeId, timer := some l.delay, log }, .again l') :=
          ⟨_, by simp only [durableTurn, hstatus, harrived, hsuggested, hs, ht]; rfl⟩
        have hrun : (durableLoop x).run l (p :: polls) = (_, _) := run_again hturn
        refine ⟨p :: polls, ⟨r, ?_, rfl⟩, ?_, fun q hq => ?_⟩
        · rw [hrun]
          exact hr
        · rw [hrun, hres', List.flatMap_cons, ← hcommands]
          rfl
        · rcases List.mem_cons.mp hq with rfl | hq
          · rw [hstatus, harrived]
            exact hmem
          · exact List.mem_cons_of_mem _ (List.mem_cons_of_mem _ (hreported q hq))

theorem ended_call {now : Datetime} {start : WriteStartOutput}
    (hend : answers.foldl (resume (.writeDurable x a))
      (afterEnqueue (.writeDurable x a) (.writeStart start) now) = .finished o)
    (ho : o ≠ .activityError) (hproj : Projected answers) :
    ∃ polls, (∃ r, (writeDurable x a now start polls).outcome = some r ∧ o = callOutcome r) ∧
      issued (.writeDurable x a) .starting (.completed (.writeStart start) now :: answers) =
        (writeDurable x a now start polls).commands ∧
      ∀ p ∈ polls, Answer.completed (.writeStatus p.status) p.arrived ∈ answers := by
  have hissued : issued (.writeDurable x a) .starting (.completed (.writeStart start) now :: answers) =
      .executeActivity (writeAsyncStart x a.write) :: issued (.writeDurable x a)
        (afterEnqueue (.writeDurable x a) (.writeStart start) now) answers := rfl
  rw [hissued]
  rcases hl : pollLoop a now start with e | l
  · have hstart : afterEnqueue (.writeDurable x a) (.writeStart start) now = .finished (.raised e) := by
      simp only [afterEnqueue, hl]
    have hfun : writeDurable x a now start [] =
        { start := writeAsyncStart x a.write, turns := [], outcome := some (.error e) } := by
      simp only [writeDurable, hl]
    rw [hstart, resume_finished] at hend
    injection hend with hend
    refine ⟨[], ⟨.error e, by rw [hfun], hend.symm⟩, ?_, fun p hp => by simp at hp⟩
    rw [hfun, hstart, issued_finished]
    rfl
  · have hstart : afterEnqueue (.writeDurable x a) (.writeStart start) now = .polling l := by
      simp only [afterEnqueue, hl]
    rw [hstart] at hend
    obtain ⟨polls, ⟨r, hr, rfl⟩, hcommands, hreported⟩ := ended_loop hend ho hproj
    have hfun : writeDurable x a now start polls =
        { start := writeAsyncStart x a.write, turns := ((durableLoop x).run l polls).1
          outcome := ((durableLoop x).run l polls).2 } := by
      simp only [writeDurable, hl]
    refine ⟨polls, ⟨r, by rw [hfun]; exact hr, rfl⟩, ?_, hreported⟩
    rw [hfun, hstart, hcommands]
    rfl

end Durable

/-! ### The calls of a workflow -/

theorem projected_of_attested {s : CallState} {req : Request} :
    (∀ status, Attested s req (.writeStatus status) → ∃ result, projectWriteStatus result = status) ∧
      ∀ start, Attested s req (.writeStart start) → ∃ result, projectWriteStart result = start := by
  constructor
  · intro status h
    have hmethod := h.method
    obtain ⟨-, -, -, client, config, T, -, -, -, -, -, -, -, hanswer⟩ := h.reported
    cases req with
    | writeStatus r =>
      simp only [Client.answer] at hanswer
      rcases hc : client.writeStatus ((Request.writeStatus r).call config T) with exc | result <;> rw [hc] at hanswer
      · simp [Except.map] at hanswer
      · simp only [Except.map, Except.ok.injEq, Output.writeStatus.injEq] at hanswer
        exact ⟨result, hanswer⟩
    | _ => simp [Output.method, Request.method] at hmethod
  · intro start h
    have hmethod := h.method
    obtain ⟨-, -, -, client, config, T, -, -, -, -, -, -, -, hanswer⟩ := h.reported
    cases req with
    | writeStart r =>
      simp only [Client.answer] at hanswer
      rcases hc : client.writeAsync ((Request.writeStart r).call config T) with exc | result <;> rw [hc] at hanswer
      · simp [Except.map] at hanswer
      · simp only [Except.map, Except.ok.injEq, Output.writeStart.injEq] at hanswer
        exact ⟨result, hanswer⟩
    | _ => simp [Output.method, Request.method] at hmethod

theorem RunInv.attested_of_mem {c : WriteCall} {s : CallState} (h : RunInv c s) {out : Output} {now : Datetime}
    (hmem : Answer.completed out now ∈ s.history) : ∃ req, Attested s req out := by
  obtain ⟨j, hj⟩ := List.mem_iff_getElem?.mp hmem
  obtain ⟨b, -, hattested⟩ := h.attested hj
  exact ⟨b.request, hattested⟩

section Runs
variable {ι : Type} [DecidableEq ι] {calls : ι → WriteCall} {s : State ι} {i : ι}

/-- The function ends on an enqueue and polls that clients reported, as the call did. -/
structure EndedAs (x : WorkflowXmemory) (a : DurableArgs) (s : CallState) (o : CallOutcome) (now : Datetime)
    (start : WriteStartResult) (polls : List Poll) : Prop where
  outcome : ∃ r, (writeDurable x a now (projectWriteStart start) polls).outcome = some r ∧ o = callOutcome r
  commands : s.commands.map Scheduled.command = (writeDurable x a now (projectWriteStart start) polls).commands
  enqueued : s.history.head? = some (.completed (.writeStart (projectWriteStart start)) now)
  reported : ∀ p ∈ polls, Answer.completed (.writeStatus p.status) p.arrived ∈ s.history

/-- **A durable write of a workflow ends as the function**, whatever crashed, was lost or attempted again:
on polls that clients reported to it, and with the commands that the function issues on them. -/
theorem ended_as_writeDurable {x : WorkflowXmemory} {a : DurableArgs} {o : CallOutcome}
    (h : Reachable calls s) (hcall : calls i = .writeDurable x a) (hend : EndedWith (calls i) (s i) o)
    (ho : o ≠ .activityError) : ∃ now start polls, EndedAs x a (s i) o now start polls := by
  have hs := reachable_runInv h i
  have hcommands := commands_of_ended hs hend
  obtain ⟨out, now, rest, hhistory, hrest⟩ := enqueue_of_ended hend ho
  have hmem : Answer.completed out now ∈ (s i).history := by
    rw [hhistory]
    exact List.mem_cons_self
  have hfirst : (s i).history[0]? = some (.completed out now) := by
    rw [hhistory]
    rfl
  -- the first answer is that of an enqueue
  obtain ⟨b, hb, hattested⟩ := hs.attested hfirst
  have hnext : nextCommand (calls i) .starting = some (.executeActivity b) := hb
  have hmethod : out.method = .writeAsync := by
    rw [hattested.method]
    rw [hcall] at hnext
    simp only [nextCommand, Option.some.injEq, Command.executeActivity.injEq] at hnext
    rw [← hnext]
    rfl
  obtain ⟨start, rfl⟩ : ∃ start, out = .writeStart start := by
    rcases out with out | out | start | out
    · simp [Output.method] at hmethod
    · simp [Output.method] at hmethod
    · exact ⟨start, rfl⟩
    · simp [Output.method] at hmethod
  obtain ⟨result, rfl⟩ := projected_of_attested.2 start hattested
  have hproj : Projected rest := by
    intro status t hmem
    have hmem' : Answer.completed (.writeStatus status) t ∈ (s i).history := by
      rw [hhistory]
      exact List.mem_cons_of_mem _ hmem
    obtain ⟨req, hatt⟩ := RunInv.attested_of_mem hs hmem'
    exact projected_of_attested.1 status hatt
  rw [hcall] at hrest hcommands
  obtain ⟨polls, houtcome, hissued, hreported⟩ := ended_call hrest ho hproj
  refine ⟨now, result, polls, houtcome, ?_, ?_, fun p hp => ?_⟩
  · rw [hcommands, hhistory]
    exact hissued
  · rw [hhistory]
    rfl
  · rw [hhistory]
    exact List.mem_cons_of_mem _ (hreported p hp)

/-- **The runs of a workflow and the function agree on a durable write.** Where the call ends, and not by the
failure of an activity, the function ends so, on the polls of its history and with its commands; and every
end of the function is the end of the call in some run. -/
theorem writeDurable_in_workflow (calls : ι → WriteCall) (i : ι) (x : WorkflowXmemory) (a : DurableArgs) :
    (∀ s o, Reachable (Function.update calls i (.writeDurable x a)) s →
      EndedWith (.writeDurable x a) (s i) o →
      o = .activityError ∨ ∃ now start polls, EndedAs x a (s i) o now start polls) ∧
    ∀ now start polls r, (writeDurable x a now (projectWriteStart start) polls).outcome = some r →
      ∃ s, Reachable (Function.update calls i (.writeDurable x a)) s ∧
        EndedWith (.writeDurable x a) (s i) (callOutcome r) := by
  have hcall : Function.update calls i (.writeDurable x a) i = .writeDurable x a := Function.update_self _ _ _
  refine ⟨fun s o hs hend => ?_, fun now start polls r hr => ?_⟩
  · rcases Classical.em (o = .activityError) with ho | ho
    · exact Or.inl ho
    · have hend' : EndedWith (Function.update calls i (.writeDurable x a) i) (s i) o := by
        rw [hcall]
        exact hend
      exact Or.inr (ended_as_writeDurable hs hcall hend' ho)
  · refine reachable_of_callRun (P := fun t => EndedWith (.writeDurable x a) t (callOutcome r)) ?_
    rw [hcall]
    intro s hready hnew
    obtain ⟨t, hrun, -, ht, -⟩ := brought_from_start now start polls hready hnew
    refine ⟨t, hrun, ?_⟩
    rcases replay_writeDurable x a now (projectWriteStart start) polls with ⟨r', hr', h⟩ | ⟨hnone, -⟩
    · rw [hr] at hr'
      injection hr' with hr'
      rw [hr']
      exact ht.trans h
    · rw [hr] at hnone
      simp at hnone

end Runs

end XmemoryTemporal.Execution.Function
