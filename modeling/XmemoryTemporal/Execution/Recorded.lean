import XmemoryTemporal.Execution.Function
import XmemoryTemporal.Execution.Provenance

/-! # What a workflow records of its calls

What is recorded of a call is only ever added to (`recorded_step`): an answer, a command or an attempt. The
commands follow a plan: a call of one activity records that one, and a durable write its enqueue, then polls
and timers in turn, the polls of the write that was enqueued and the timers of the delays in force
(`Placed`, `Planned`). A worker that has lost the call computes it again from the answers, and has to ask
for the commands that are recorded, or Temporal fails the workflow. All this holds from any state of a
workflow to any later one (`keeps_to_plan`). -/

namespace XmemoryTemporal.Execution.Recorded

open XmemoryTemporal.Python.Time XmemoryTemporal.Dto XmemoryTemporal.Activities XmemoryTemporal.WorkflowApi
open XmemoryTemporal.Durable.Turn XmemoryTemporal.Durable.Outcome XmemoryTemporal.Execution
open XmemoryTemporal.Execution.AtMostOnce XmemoryTemporal.Execution.History
open XmemoryTemporal.Execution.Metadata XmemoryTemporal.Execution.Function
open XmemoryTemporal.Execution.Provenance

/-! ### What is recorded -/

/-- The commands of the history. -/
def CallState.recorded (s : CallState) : List Command := s.commands.map Scheduled.command

/-- The commands that were answered, with all attempts at them. -/
def CallState.settled (s : CallState) : List Scheduled := s.commands.take s.history.length

/-- The history of `t` goes on from that of `s`: the answers, the commands, and the attempts at those of
them that were answered. -/
structure GoesOnFrom (s t : CallState) : Prop where
  answers : s.history <+: t.history
  recorded : CallState.recorded s <+: CallState.recorded t
  settled : CallState.settled s <+: CallState.settled t

theorem GoesOnFrom.trans {s t u : CallState} (h : GoesOnFrom s t) (h' : GoesOnFrom t u) : GoesOnFrom s u where
  answers := h.answers.trans h'.answers
  recorded := h.recorded.trans h'.recorded
  settled := h.settled.trans h'.settled

theorem settled_of_pending {s : CallState} {done : List Scheduled} {cmd : Scheduled}
    (hcommands : s.commands = done ++ [cmd]) (hlen : done.length = s.history.length) :
    CallState.settled s = done := by
  unfold CallState.settled
  rw [hcommands, ← hlen]
  exact List.take_left

theorem recorded_step {c : WriteCall} {s t : CallState} (h : CallStep c s t) : GoesOnFrom s t := by
  rcases callStep_cases h with ⟨co, cmd, -, -, hlen, rfl⟩ | ⟨done, a, attempts, attempts', hcommands, hlen, -,
    rfl⟩ | ⟨done, cmd, ans, hcommands, hlen, -, rfl⟩ | rfl
  · -- a command more, which is not answered yet
    refine ⟨List.prefix_rfl, ?_, ?_⟩
    · simp only [CallState.recorded, List.map_append]
      exact List.prefix_append _ _
    · have hsame : CallState.settled { s with commands := s.commands ++ [scheduled cmd] } =
          CallState.settled s := by
        simp only [CallState.settled]
        exact List.take_append_of_le_length (by omega)
      rw [hsame]
  · -- the attempts at the pending activity
    refine ⟨List.prefix_rfl, ?_, ?_⟩
    · simp only [CallState.recorded, hcommands, List.map_append, List.map_cons, List.map_nil, Scheduled.command]
      exact List.prefix_rfl
    · rw [settled_of_pending hcommands hlen]
      have hsame : CallState.settled { s with commands := done ++ [.activity a attempts'] } = done :=
        settled_of_pending rfl hlen
      rw [hsame]
  · -- an answer more
    refine ⟨List.prefix_append _ _, List.prefix_rfl, ?_⟩
    simp only [CallState.settled, List.length_append]
    exact List.take_prefix_take_left (Nat.le_add_right _ _)
  · exact ⟨List.prefix_rfl, List.prefix_rfl, List.prefix_rfl⟩

/-! ### The plan of a call -/

/-- The loop of a durable write after `k` turns: it polls for the write that was enqueued, until the deadline
that was set then. -/
structure InTurn (a : DurableArgs) (history : List Answer) (k : ℕ) (l : PollLoop) : Prop where
  enqueued : ∃ start now, history.head? = some (.completed (.writeStart start) now) ∧
    l.writeId = start.writeId ∧ l.deadline.micros = deadlineOf a now
  cap : l.cap = a.cap
  delay : l.delay.micros = delayAt a k

theorem InTurn.concat {a : DurableArgs} {history : List Answer} {k : ℕ} {l : PollLoop}
    (h : InTurn a history k l) (ans : Answer) : InTurn a (history ++ [ans]) k l := by
  obtain ⟨start, now, hhead, hloop⟩ := h.enqueued
  refine ⟨⟨start, now, ?_, hloop⟩, h.cap, h.delay⟩
  rw [List.head?_append, hhead]
  rfl

/-- Where a call waits, by its history. -/
def Placed (c : WriteCall) (history : List Answer) : Coroutine → Prop
  | .starting => history = []
  | .polling l => ∃ x a k, c = .writeDurable x a ∧ history.length = 2 * k + 1 ∧ InTurn a history k l
  | .sleeping l => ∃ x a k, c = .writeDurable x a ∧ history.length = 2 * k + 2 ∧ InTurn a history k l
  | .finished _ => True

theorem inTurn_afterTimer {a : DurableArgs} {history : List Answer} {k : ℕ} {l l' : PollLoop} {suggested : Bool}
    (h : InTurn a history k l) (hl : afterTimer l suggested = .ok l') : InTurn a history (k + 1) l' := by
  unfold afterTimer at hl
  rcases hd : l.delay.mulThreeHalves with _ | longer
  · rw [hd] at hl
    cases hl
  · rw [hd] at hl
    cases hl
    refine ⟨h.enqueued, h.cap, ?_⟩
    have hlonger := Timedelta.mulThreeHalves_eq_some.mp hd
    rw [Timedelta.min_micros, hlonger, h.delay, h.cap]
    rfl

/-- **An answer** brings a call to its next place. -/
theorem placed_resume {c : WriteCall} {history : List Answer} {co : Coroutine} (h : Placed c history co)
    (ans : Answer) : Placed c (history ++ [ans]) (resume c co ans) := by
  have hlength : (history ++ [ans]).length = history.length + 1 := List.length_append
  rcases co with _ | l | l | o
  · -- the first activity is answered
    have hnil : history = [] := h
    subst hnil
    rcases ans with ⟨out, now⟩ | _ | suggested
    · show Placed c [.completed out now] (afterEnqueue c out now)
      unfold afterEnqueue
      split
      · next x a start =>
        rcases pollLoop_cases a now start with ⟨-, l, hl, hs⟩ | ⟨-, hl⟩
        · rw [hl]
          refine ⟨x, a, 0, rfl, rfl, ⟨start, now, rfl, hs.writeId, hs.deadline⟩, hs.cap, ?_⟩
          rw [hs.delay]
          rfl
        · rw [hl]
          trivial
      · trivial
    · trivial
    · trivial
  · obtain ⟨x, a, k, hc, hlen, hin⟩ := h
    unfold resume
    split
    · trivial
    · next l' status now heq =>
      cases heq
      rcases afterStatus l now status with status' | e | _
      · trivial
      · trivial
      · exact ⟨x, a, k, hc, by omega, hin.concat _⟩
    · next heq => cases heq
    · trivial
    · trivial
  · obtain ⟨x, a, k, hc, hlen, hin⟩ := h
    unfold resume
    split
    · trivial
    · next heq => cases heq
    · next l' suggested heq =>
      cases heq
      rcases ht : afterTimer l suggested with e | l'
      · trivial
      · exact ⟨x, a, k + 1, hc, by omega, (inTurn_afterTimer hin ht).concat _⟩
    · trivial
    · trivial
  · trivial

theorem placed_replay (c : WriteCall) (history : List Answer) : Placed c history (replay c history) := by
  induction history using List.reverseRecOn with
  | nil => rfl
  | append_singleton history ans ih =>
    rw [replay_concat]
    exact placed_resume ih ans

/-- An activity that sends the write of a call: a write or an enqueue of just what the call was given. -/
def SendsWrite (b : ExecuteActivity) : WriteCall → Prop
  | .write _ a => b.request = .write { text := a.text, extractionLogic := a.extractionLogic,
                                       diffEngine := a.diffEngine, structuredMutations := a.structuredMutations }
  | .writeAsyncStart _ a => b.request = .writeStart { text := a.text, extractionLogic := a.extractionLogic,
                                                      diffEngine := a.diffEngine,
                                                      structuredMutations := a.structuredMutations }
  | .writeDurable _ a => Enqueues a b

theorem sendsWrite_command (c : WriteCall) : SendsWrite c.command c := by
  cases c with
  | write x a => rfl
  | writeAsyncStart x a => rfl
  | writeDurable x a => rfl

/-- **The plan of a call**: which commands it records, and where. -/
inductive Planned (c : WriteCall) (history : List Answer) : ℕ → Command → Prop where
  | first : SendsWrite c.command c → Planned c history 0 (.executeActivity c.command)
  | poll {x : WorkflowXmemory} {a : DurableArgs} {start : WriteStartOutput} {now : Datetime} (k : ℕ) :
      c = .writeDurable x a → history.head? = some (.completed (.writeStart start) now) →
      PollsFor start.writeId (writeStatus x start.writeId) →
      Planned c history (2 * k + 1) (.executeActivity (writeStatus x start.writeId))
  | timer {x : WorkflowXmemory} {a : DurableArgs} {d : Timedelta} (k : ℕ) : c = .writeDurable x a →
      d.micros = delayAt a k → Planned c history (2 * k + 2) (.sleep d)

theorem planned_of_next {c : WriteCall} {history : List Answer} {j : ℕ} {cmd : Command} (hj : j ≤ history.length)
    (h : nextCommand c (replay c (history.take j)) = some cmd) : Planned c history j cmd := by
  have hplaced := placed_replay c (history.take j)
  have hlength : (history.take j).length = j := List.length_take_of_le hj
  have hhead : ∀ ans, (history.take j).head? = some ans → history.head? = some ans := by
    intro ans hans
    rw [List.head?_take] at hans
    split_ifs at hans
    exact hans
  rcases hco : replay c (history.take j) with _ | l | l | o <;> rw [hco] at h hplaced
  · have hnil : history.take j = [] := hplaced
    rw [hnil] at hlength
    cases h
    rw [← hlength]
    exact .first (sendsWrite_command c)
  · obtain ⟨x, a, k, rfl, hlen, hin⟩ := hplaced
    obtain ⟨start, now, hans, hid, -⟩ := hin.enqueued
    cases h
    have hk : j = 2 * k + 1 := by omega
    subst hk
    rw [hid]
    exact .poll k rfl (hhead _ hans) rfl
  · obtain ⟨x, a, k, rfl, hlen, hin⟩ := hplaced
    cases h
    have hk : j = 2 * k + 2 := by omega
    subst hk
    exact .timer k rfl hin.delay
  · cases h

theorem planned_at {c : WriteCall} {s : CallState} (h : CallInv c s) {j : ℕ} {cmd : Scheduled}
    (hcmd : s.commands[j]? = some cmd) : Planned c s.history j (Scheduled.command cmd) := by
  have hlt := (List.getElem?_eq_some_iff.mp hcmd).1
  have hpending := h.pending
  exact planned_of_next (by omega) (Issued.command (h.issued j cmd hcmd))

/-! ### Runs -/

/-- **A replay asks for what is recorded**, in order. -/
theorem recorded_prefix_issued {c : WriteCall} {co : Coroutine} {answers : List Answer} {cmds : List Command}
    (hlen : cmds.length ≤ answers.length + 1)
    (hnext : ∀ j cmd, cmds[j]? = some cmd → nextCommand c ((answers.take j).foldl (resume c) co) = some cmd) :
    cmds <+: issued c co answers := by
  induction answers generalizing co cmds with
  | nil =>
    rcases cmds with _ | ⟨cmd, cmds⟩
    · exact List.nil_prefix
    · have hnone : cmds = [] := by
        have hle : cmds.length + 1 ≤ 0 + 1 := hlen
        exact List.length_eq_zero_iff.mp (by omega)
      have hfirst : nextCommand c co = some cmd := hnext 0 cmd rfl
      rw [hnone, issued, hfirst]
      exact List.prefix_rfl
  | cons ans answers ih =>
    rcases cmds with _ | ⟨cmd, cmds⟩
    · exact List.nil_prefix
    · have hfirst : nextCommand c co = some cmd := hnext 0 cmd rfl
      have hle : cmds.length + 1 ≤ answers.length + 1 + 1 := hlen
      have hrest : cmds <+: issued c (resume c co ans) answers :=
        ih (by omega) fun j cmd' hj => hnext (j + 1) cmd' hj
      rw [issued, hfirst]
      exact List.cons_prefix_cons.mpr ⟨rfl, hrest⟩

section Runs
variable {ι : Type} [DecidableEq ι] {calls : ι → WriteCall} {s t : State ι}

theorem recorded_run (hrun : Relation.ReflTransGen (Step calls) s t) (i : ι) : GoesOnFrom (s i) (t i) := by
  induction hrun with
  | refl => exact ⟨List.prefix_rfl, List.prefix_rfl, List.prefix_rfl⟩
  | @tail u v _ hstep ih =>
    have hcrash : ∀ w, GoesOnFrom (s i) w → GoesOnFrom (s i) { w with memory := none } :=
      fun w hw => ⟨hw.answers, hw.recorded, hw.settled⟩
    exact call_invariant (I := fun w => GoesOnFrom (s i) w)
      (fun w w' hw hcall => hw.trans (recorded_step hcall)) hcrash ih hstep

/-- **A call keeps to its record and to its plan**: from any state of a workflow on, it keeps the answers it
got, the commands it recorded and the attempts at those that were answered; these commands are where its
plan has them; and a worker that computes it again asks for the same ones, in the same order. -/
theorem keeps_to_plan (h : Reachable calls s) (hrun : Relation.ReflTransGen (Step calls) s t) (i : ι) :
    GoesOnFrom (s i) (t i) ∧
      (∀ j cmd, (CallState.recorded (t i))[j]? = some cmd → Planned (calls i) (t i).history j cmd) ∧
      CallState.recorded (t i) <+: issued (calls i) .starting (t i).history := by
  have hinv := (reachable_runInv (h.trans hrun) i).call
  have hpending := hinv.pending
  have hnext : ∀ j cmd, (CallState.recorded (t i))[j]? = some cmd →
      nextCommand (calls i) (replay (calls i) ((t i).history.take j)) = some cmd := by
    intro j cmd hj
    simp only [CallState.recorded, List.getElem?_map, Option.map_eq_some_iff] at hj
    obtain ⟨cmd', hj, rfl⟩ := hj
    exact Issued.command (hinv.issued j cmd' hj)
  have hlength : (CallState.recorded (t i)).length ≤ (t i).history.length + 1 := by
    simp only [CallState.recorded, List.length_map]
    exact hpending
  refine ⟨recorded_run hrun i, fun j cmd hj => ?_, recorded_prefix_issued hlength hnext⟩
  simp only [CallState.recorded, List.getElem?_map, Option.map_eq_some_iff] at hj
  obtain ⟨cmd', hj, rfl⟩ := hj
  exact planned_at hinv hj

end Runs

/-- A worker that lost a durable write after its end. -/
theorem keeps_to_plan_crash :
    ∃ (a : DurableArgs) (s : State Unit),
      EndedWith (oneDurable a ()) (s ()) (.returned (.writeStatus completedStatus)) ∧
      CallState.recorded (s ()) <+: issued (oneDurable a ()) .starting (s ()).history := by
  obtain ⟨a, s, hs, hend⟩ := oneDurable_ends
  exact ⟨a, s, hend, (keeps_to_plan hs (.single .crash) ()).2.2⟩

end XmemoryTemporal.Execution.Recorded
