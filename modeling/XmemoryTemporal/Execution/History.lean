import XmemoryTemporal.Execution.AtMostOnce
import XmemoryTemporal.Lib.Simulation

/-! # The history of a call, and the attempts behind it

`callStep_cases` says everything a step does to a call: a command is added, the attempts at the pending one
get on, it is answered, or the coroutine is computed anew. From it: every answer in the history was given
by the command at its place, and a command that was answered stays as it is (`HistoryInv`). An output in
the history is then one that a client gave to an attempt that reported it (`attested`). -/

namespace XmemoryTemporal.Execution.History

open XmemoryTemporal.Config XmemoryTemporal.Dto XmemoryTemporal.Errors XmemoryTemporal.Activities
open XmemoryTemporal.WorkflowApi XmemoryTemporal.Lib.Simulation XmemoryTemporal.Execution
open XmemoryTemporal.Execution.AtMostOnce

/-! ### A step -/

theorem replay_concat (c : WriteCall) (history : List Answer) (ans : Answer) :
    replay c (history ++ [ans]) = resume c (replay c history) ans := by
  unfold replay
  rw [List.foldl_append]
  rfl

/-- An attempt that is not lost did all that the activity's code does. -/
def Complete (req : Request) (r : AttemptRecord) : Prop :=
  r.fate = .lost ∨ ∃ config, r.attempt = runActivity config r.bound r.info req

/-- A command is answered: an activity by its attempts, a timer when it fires. -/
def AnsweredBy : Scheduled → Answer → Prop
  | .activity _ attempts, ans => Answers attempts ans
  | .timer _, ans => ∃ suggested, ans = .fired suggested

variable {c : WriteCall} {s t : CallState}

/-- **Everything a step does to a call.** -/
theorem callStep_cases (h : CallStep c s t) :
    (∃ co cmd, s.memory = some co ∧ nextCommand c co = some cmd ∧
        s.commands.length = s.history.length ∧ t = { s with commands := s.commands ++ [scheduled cmd] }) ∨
      (∃ done a attempts attempts', s.commands = done ++ [.activity a attempts] ∧
        done.length = s.history.length ∧
        ((∀ r ∈ attempts, Complete a.request r) → ∀ r ∈ attempts', Complete a.request r) ∧
        t = { s with commands := done ++ [.activity a attempts'] }) ∨
      (∃ done cmd ans, s.commands = done ++ [cmd] ∧ done.length = s.history.length ∧ AnsweredBy cmd ans ∧
        t = { s with
          history := s.history ++ [ans], memory := s.memory.map fun co => resume c co ans }) ∨
      t = { s with memory := some (replay c s.history) } := by
  have hnew : ∀ {req : Request} {attempts : List AttemptRecord} {r : AttemptRecord}, Complete req r →
      (∀ q ∈ attempts, Complete req q) → ∀ q ∈ attempts ++ [r], Complete req q := by
    intro req attempts r hr hall q hq
    rcases List.mem_append.mp hq with hq | hq
    · exact hall q hq
    · rw [List.mem_singleton.mp hq]
      exact hr
  cases h with
  | @schedule co cmd hmem hnext hlen => exact Or.inl ⟨co, cmd, hmem, hnext, hlen, rfl⟩
  | @attempt done a attempts config bound info hcommands hlen hmay =>
    exact Or.inr (Or.inl ⟨done, a, attempts, _, hcommands, hlen, hnew (Or.inr ⟨config, rfl⟩), rfl⟩)
  | @attemptCrashes done a attempts config bound info calls hcommands hlen hmay hcut =>
    exact Or.inr (Or.inl ⟨done, a, attempts, _, hcommands, hlen, hnew (Or.inl rfl), rfl⟩)
  | @ends done a attempts r fate hcommands hlen hrunning =>
    refine Or.inr (Or.inl ⟨done, a, attempts ++ [r], _, hcommands, hlen, fun hall => ?_, rfl⟩)
    have hr := hall r (List.mem_append_right _ (List.mem_singleton.mpr rfl))
    refine hnew ?_ fun q hq => hall q (List.mem_append_left _ hq)
    rcases hr with hlost | hran
    · rw [hrunning] at hlost
      cases hlost
    · exact Or.inr hran
  | @deliver done a attempts ans hcommands hlen hanswers =>
    exact Or.inr (Or.inr (Or.inl ⟨done, _, ans, hcommands, hlen, hanswers, rfl⟩))
  | @fire done d suggested hcommands hlen =>
    exact Or.inr (Or.inr (Or.inl ⟨done, _, _, hcommands, hlen, ⟨suggested, rfl⟩, rfl⟩))
  | recompute => exact Or.inr (Or.inr (Or.inr rfl))

/-! ### The invariant -/

/-- The attempts are complete unless lost, and the answer at each place is one of the command there. -/
structure HistoryInv (s : CallState) : Prop where
  complete : ∀ a attempts, .activity a attempts ∈ s.commands → ∀ r ∈ attempts, Complete a.request r
  answered : ∀ (j : ℕ) ans, s.history[j]? = some ans →
    ∃ cmd, s.commands[j]? = some cmd ∧ AnsweredBy cmd ans

theorem historyInv_step (h : HistoryInv s) (hstep : CallStep c s t) : HistoryInv t := by
  rcases callStep_cases hstep with ⟨co, cmd, -, -, hlen, rfl⟩ | ⟨done, a, attempts, attempts', hcommands,
    hlen, hcomplete, rfl⟩ | ⟨done, cmd, ans, hcommands, hlen, hans, rfl⟩ | rfl
  · refine ⟨fun a attempts hmem r hr => ?_, fun j ans hj => ?_⟩
    · rcases List.mem_append.mp hmem with hmem | hmem
      · exact h.complete a attempts hmem r hr
      · -- a new command has no attempts
        have hnew := List.mem_singleton.mp hmem
        cases cmd with
        | executeActivity b =>
          cases hnew
          exact absurd hr List.not_mem_nil
        | sleep d => cases hnew
    · obtain ⟨cmd', hcmd', hans⟩ := h.answered j ans hj
      have hlt := (List.getElem?_eq_some_iff.mp hcmd').1
      exact ⟨cmd', by rw [List.getElem?_append_left hlt]; exact hcmd', hans⟩
  · refine ⟨fun b attempts'' hmem r hr => ?_, fun j ans hj => ?_⟩
    · have hold : ∀ cmd ∈ done, cmd ∈ s.commands := fun cmd hcmd => by
        rw [hcommands]
        exact List.mem_append_left _ hcmd
      rcases List.mem_append.mp hmem with hmem | hmem
      · exact h.complete b attempts'' (hold _ hmem) r hr
      · cases List.mem_singleton.mp hmem
        refine hcomplete (fun q hq => h.complete a attempts ?_ q hq) r hr
        rw [hcommands]
        exact List.mem_append_right _ (List.mem_singleton.mpr rfl)
    · -- what was answered is before the pending command
      obtain ⟨cmd', hcmd', hans⟩ := h.answered j ans hj
      have hj' : j < done.length := by
        rw [hlen]
        exact (List.getElem?_eq_some_iff.mp hj).1
      rw [hcommands, List.getElem?_append_left hj'] at hcmd'
      exact ⟨cmd', by rw [List.getElem?_append_left hj']; exact hcmd', hans⟩
  · refine ⟨h.complete, fun j ans' hj => ?_⟩
    by_cases hlt : j < s.history.length
    · rw [List.getElem?_append_left hlt] at hj
      exact h.answered j ans' hj
    · rw [List.getElem?_append_right (by omega)] at hj
      obtain ⟨hj0, hj1⟩ : j - s.history.length = 0 ∧ ans = ans' := by
        rcases hz : j - s.history.length with _ | z
        · rw [hz] at hj
          cases hj
          exact ⟨rfl, rfl⟩
        · rw [hz] at hj
          simp at hj
      obtain rfl := hj1
      refine ⟨cmd, ?_, hans⟩
      show s.commands[j]? = some cmd
      rw [hcommands, List.getElem?_append_right (by omega), show j - done.length = 0 by omega]
      rfl
  · exact ⟨h.complete, h.answered⟩

theorem initial_historyInv : HistoryInv { memory := none, history := [], commands := [] } where
  complete _ _ h := absurd h List.not_mem_nil
  answered _ _ h := by cases h

/-! ### Runs -/

section Runs
variable {ι : Type} [DecidableEq ι] {calls : ι → WriteCall} {u v : State ι} {i : ι}

theorem call_invariant {I : CallState → Prop} (hcall : ∀ s t, I s → CallStep (calls i) s t → I t)
    (hcrash : ∀ s, I s → I { s with memory := none }) (hu : I (u i)) (h : Step calls u v) : I (v i) := by
  cases h with
  | @call j t hstep =>
    by_cases hij : i = j
    · subst hij
      rw [Function.update_self]
      exact hcall _ _ hu hstep
    · rw [Function.update_of_ne hij]
      exact hu
  | crash => exact hcrash _ hu

/-- What holds of every call in a run. -/
structure RunInv (c : WriteCall) (s : CallState) : Prop where
  call : CallInv c s
  history : HistoryInv s

theorem runInv_step (hu : RunInv (calls i) (u i)) (h : Step calls u v) : RunInv (calls i) (v i) :=
  call_invariant (I := RunInv (calls i))
    (fun _ _ hI hstep => ⟨callStep_inv hI.call hstep, historyInv_step hI.history hstep⟩)
    (fun _ hI => ⟨⟨fun _ hco => (by cases hco), hI.call.answered, hI.call.pending, hI.call.issued⟩,
      ⟨hI.history.complete, hI.history.answered⟩⟩) hu h

theorem initial_runInv (c : WriteCall) : RunInv c { memory := none, history := [], commands := [] } :=
  ⟨initial_inv c, initial_historyInv⟩

theorem reachable_runInv (h : Reachable calls u) (i : ι) : RunInv (calls i) (u i) :=
  invariant_run (I := fun u => RunInv (calls i) (u i)) (fun _ _ hu hstep => runInv_step hu hstep) h
    (initial_runInv (calls i))

end Runs

/-! ### The end -/

/-- The call has ended, with the outcome: a worker that computes it finds it so. -/
def EndedWith (c : WriteCall) (s : CallState) (o : CallOutcome) : Prop := replay c s.history = .finished o

theorem not_issued_finished {o : CallOutcome} {cmd : Scheduled} : ¬ Issued c (.finished o) cmd := by
  cases cmd with
  | activity a attempts => simp [Issued, nextCommand]
  | timer d => simp [Issued, nextCommand]

theorem ended_idle {o : CallOutcome} (hs : RunInv c s) (h : EndedWith c s o) :
    s.commands.length = s.history.length := by
  have hle := hs.call.answered
  by_contra hne
  have hlt : s.history.length < s.commands.length := by omega
  have hissued := hs.call.issued s.history.length _ (List.getElem?_eq_getElem hlt)
  have hfinished : replay c s.history = .finished o := h
  rw [List.take_length, hfinished] at hissued
  exact not_issued_finished hissued

/-! ### Where an output comes from -/

/-- A client gave the output: an attempt at the activity reported it, which had made its one call with the
client that was bound on its worker. -/
structure Attested (s : CallState) (req : Request) (o : Output) : Prop where
  reported : ∃ a attempts r client config T, .activity a attempts ∈ s.commands ∧ a.request = req ∧
    attempts.getLast? = some r ∧ r.fate = .reported ∧ r.bound = some client ∧
    clientTimeout config r.info = .ok T ∧ r.attempt.calls = [req.call config T] ∧
    client.answer (req.call config T) req = .ok o

/-- **The output at a place of the history** is the answer of a client to the activity the call issued
there. -/
theorem RunInv.attested (h : RunInv c s) {j : ℕ} {o : Output} {now : Python.Time.Datetime}
    (hj : s.history[j]? = some (.completed o now)) :
    ∃ a, nextCommand c (replay c (s.history.take j)) = some (.executeActivity a) ∧
      Attested s a.request o := by
  obtain ⟨cmd, hcmd, hans⟩ := h.history.answered j _ hj
  cases cmd with
  | timer d =>
    obtain ⟨suggested, hfired⟩ := hans
    cases hfired
  | activity a attempts =>
    obtain ⟨r, hlast, hreported, houtcome⟩ := hans
    have hmem : Scheduled.activity a attempts ∈ s.commands := List.mem_of_getElem? hcmd
    have hr : r ∈ attempts := List.mem_of_getLast? hlast
    refine ⟨a, (h.call.issued j _ hcmd).1, ?_⟩
    rcases h.history.complete a attempts hmem r hr with hlost | ⟨config, hattempt⟩
    · rw [hreported] at hlost
      cases hlost
    · rw [hattempt] at houtcome
      obtain ⟨client, T, hbound, hT, hcalls, hanswer⟩ := runActivity_ok houtcome
      refine ⟨⟨a, attempts, r, client, config, T, hmem, rfl, hlast, hreported, hbound, hT, ?_, hanswer⟩⟩
      rw [hattempt]
      exact hcalls

theorem Attested.method {req : Request} {o : Output} (h : Attested s req o) : o.method = req.method := by
  obtain ⟨-, -, -, client, config, T, -, -, -, -, -, -, -, hanswer⟩ := h.reported
  exact Client.answer_method hanswer

end XmemoryTemporal.Execution.History
