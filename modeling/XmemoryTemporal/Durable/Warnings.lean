import XmemoryTemporal.Durable.Outcome

/-! # What a durable write logs

The loop keeps a flag of the warning it has given about the history: before poll `k` it is up if one of the
earlier timers came with the suggestion to continue as new (`warned_at`). So the warning is given in one
turn at most, the first that is told so and after which there is another; a status that is not known is
logged each time it is polled; and nothing else is (`log_ledger`). -/

namespace XmemoryTemporal.Durable.Warnings

open XmemoryTemporal.Python.Time XmemoryTemporal.Lib.Loop XmemoryTemporal.Dto XmemoryTemporal.Errors
open XmemoryTemporal.Activities XmemoryTemporal.WorkflowApi XmemoryTemporal.Durable.Turn
open XmemoryTemporal.Durable.Outcome

/-- The statuses the loop knows by name. -/
def known : List String :=
  ["completed", "failed", "not_found", "queued", "processing", "extracting", "extracted", "applying"]

/-- The timer after a poll comes with the suggestion to continue as new. -/
def suggests (p : Poll) : Bool := p.continueAsNewSuggested

/-- In turn `k` the suggestion comes for the first time, and the loop goes on. -/
def WarnsAt (r : DurableRun) (polls : List Poll) (k : ℕ) : Prop :=
  k + 1 < r.turns.length ∧ (polls[k]?.map suggests = some true) ∧ (polls.take k).any suggests = false

instance (r : DurableRun) (polls : List Poll) (k : ℕ) : Decidable (WarnsAt r polls k) := by
  unfold WarnsAt
  infer_instance

/-! ### One turn -/

section Turn
variable {x : WorkflowXmemory} {l l' : PollLoop} {p : Poll} {o : Except PyError WriteStatusOutput}

theorem log_of_stop (h : (durableTurn x l p).2 = .stop o) : (durableTurn x l p).1.log = statusLog p.status := by
  unfold durableTurn at h ⊢
  rcases hs : afterStatus l p.arrived p.status with status | e | _
  · rfl
  · rfl
  · rcases ht : afterTimer l p.continueAsNewSuggested with e | u
    · rfl
    · simp [hs, ht] at h

theorem log_of_again (h : (durableTurn x l p).2 = .again l') :
    (durableTurn x l p).1.log = statusLog p.status ++ historyLog l (suggests p) ∧
      l'.warnedHistory = (l.warnedHistory || suggests p) := by
  unfold durableTurn at h ⊢
  rcases hs : afterStatus l p.arrived p.status with status | e | _
  · simp [hs] at h
  · simp [hs] at h
  · rcases ht : afterTimer l p.continueAsNewSuggested with e | u
    · simp [hs, ht] at h
    · simp only [hs, ht] at h ⊢
      injection h with h
      subst h
      refine ⟨rfl, ?_⟩
      unfold afterTimer at ht
      rcases hd : l.delay.mulThreeHalves with _ | d <;> simp only [hd] at ht
      · simp at ht
      · injection ht with ht
        rw [← ht]
        rfl

end Turn

/-! ### The flag -/

section Run
variable {x : WorkflowXmemory} {l t : PollLoop} {polls : List Poll}

/-- **The flag at poll `k`.** -/
theorem warned_at (k : ℕ) (hk : k ≤ polls.length) (h : (durableLoop x).stateAt l (polls.take k) = some t) :
    t.warnedHistory = (l.warnedHistory || (polls.take k).any suggests) := by
  induction k generalizing t with
  | zero =>
    have hlt : l = t := Option.some.inj h
    rw [hlt]
    simp
  | succ k ih =>
    obtain ⟨p, hp⟩ : ∃ p, polls[k]? = some p := ⟨_, List.getElem?_eq_getElem (by omega)⟩
    rw [take_succ_of_get hp, stateAt_concat] at h
    obtain ⟨u, hu, hbody⟩ := h
    have hflag := ih (by omega) hu
    have hnext : (durableTurn x u p).2 = .again t := hbody
    rw [(log_of_again hnext).2, hflag, take_succ_of_get hp, List.any_append, Bool.or_assoc]
    simp

theorem again_iff {k : ℕ} {p : Poll} (hp : polls[k]? = some p)
    (ht : (durableLoop x).stateAt l (polls.take k) = some t) :
    k + 1 < ((durableLoop x).run l polls).1.length ↔ ∃ t', (durableTurn x t p).2 = .again t' := by
  have hlen := (List.getElem?_eq_some_iff.mp hp).1
  constructor
  · intro hlt
    obtain ⟨u, -, hu, -⟩ := (record_iff (k + 1)).mp (List.getElem?_eq_getElem hlt)
    rw [take_succ_of_get hp, stateAt_concat] at hu
    obtain ⟨v, hv, hbody⟩ := hu
    rw [ht] at hv
    injection hv with hv
    subst hv
    exact ⟨u, hbody⟩
  · rintro ⟨t', ht'⟩
    have hnext : (durableLoop x).stateAt l (polls.take (k + 1)) = some t' := by
      rw [take_succ_of_get hp, stateAt_concat]
      exact ⟨t, ht, ht'⟩
    have hrecord := (record_iff (k + 1)).mpr ⟨t', by omega, hnext, rfl⟩
    exact (List.getElem?_eq_some_iff.mp hrecord).1

end Run

section Call
variable {x : WorkflowXmemory} {a : DurableArgs} {now : Datetime} {start : WriteStartOutput}
  {polls : List Poll} {k j : ℕ} {p : Poll} {t : PollTurn}

theorem log_of_turn (hp : polls[k]? = some p) (ht : (writeDurable x a now start polls).turns[k]? = some t) :
    t.log = statusLog p.status ++ if WarnsAt (writeDurable x a now start polls) polls k then
      [.historySuggestsContinueAsNew start.writeId] else [] := by
  rcases pollLoop_cases a now start with ⟨hD, l, hl, hs⟩ | ⟨hD, he⟩
  swap
  · rw [writeDurable_of_error x a now start he] at ht
    simp at ht
  have hlen := (List.getElem?_eq_some_iff.mp hp).1
  have hwarned : l.warnedHistory = false := by
    rw [pollLoop] at hl
    rcases hadd : now.add a.maxWait with _ | d <;> simp only [hadd] at hl
    · simp at hl
    · injection hl with hl
      rw [← hl]
  rw [writeDurable_of_ok x a now start hl] at ht ⊢
  obtain ⟨u, -, hu, hrec⟩ := (record_iff k).mp ht
  have hturn : t = (durableTurn x u p).1 := by
    rw [hrec, hp]
    rfl
  have hflag := warned_at k hlen.le hu
  rw [hwarned, Bool.false_or] at hflag
  have hagain := again_iff hp hu
  rw [hturn]
  rcases hbody : (durableTurn x u p).2 with o | u'
  · -- the last turn
    have hlast : ¬ k + 1 < ((durableLoop x).run l polls).1.length := by
      rw [hagain]
      rintro ⟨u', hu'⟩
      rw [hbody] at hu'
      cases hu'
    rw [log_of_stop hbody, if_neg fun h => hlast h.1, List.append_nil]
  · have hgoes : k + 1 < ((durableLoop x).run l polls).1.length := hagain.mpr ⟨u', hbody⟩
    have hid : u.writeId = start.writeId := by
      rw [(reached k hlen.le hu).1.writeId, hs.writeId]
    rw [(log_of_again hbody).1]
    congr 1
    unfold historyLog
    rw [hflag, hid]
    refine if_congr ?_ rfl rfl
    unfold WarnsAt
    rw [hp]
    simp [hgoes, and_comm]

theorem log_of_pending (ht : (writeDurable x a now start polls).turns[polls.length]? = some t) : t.log = [] := by
  rcases pollLoop_cases a now start with ⟨-, l, hl, -⟩ | ⟨-, he⟩
  · rw [writeDurable_of_ok x a now start hl] at ht
    obtain ⟨u, -, -, hrec⟩ := (record_iff polls.length).mp ht
    rw [hrec, List.getElem?_eq_none (le_refl _)]
    rfl
  · rw [writeDurable_of_error x a now start he] at ht
    simp at ht

theorem WarnsAt.unique {r : DurableRun} (hj : WarnsAt r polls j) (hk : WarnsAt r polls k) : j = k := by
  have hbefore : ∀ {m n : ℕ}, WarnsAt r polls m → WarnsAt r polls n → ¬ m < n := by
    intro m n hm hn hmn
    obtain ⟨q, hq, hsuggests⟩ := Option.map_eq_some_iff.mp hm.2.1
    have hmem : q ∈ polls.take n := List.mem_of_getElem? (by rw [List.getElem?_take_of_lt hmn, hq])
    have hnone := List.any_eq_false.mp hn.2.2 q hmem
    exact hnone hsuggests
  have h₁ := hbefore hj hk
  have h₂ := hbefore hk hj
  omega

end Call

theorem statusLog_eq (status : WriteStatusOutput) : statusLog status =
    if status.writeStatus ∈ known then [] else [.unrecognizedStatus status.writeStatus status.writeId] := rfl

/-- **The log of a call.** The turn that answers poll `k` logs the status, with its write id, if it is none of
the known ones, each time; and it warns about the history if the suggestion to continue as new has come with
its timer and with none before, and the loop goes on. There is one such turn at most. Nothing else is logged,
and a poll without an answer has logged nothing. -/
theorem log_ledger (x : WorkflowXmemory) (a : DurableArgs) (now : Datetime) (start : WriteStartOutput)
    (polls : List Poll) :
    let r := writeDurable x a now start polls
    (∀ k p t, polls[k]? = some p → r.turns[k]? = some t → t.log =
      (if p.status.writeStatus ∈ known then []
        else [.unrecognizedStatus p.status.writeStatus p.status.writeId]) ++
      if WarnsAt r polls k then [.historySuggestsContinueAsNew start.writeId] else []) ∧
    (∀ t, r.turns[polls.length]? = some t → t.log = []) ∧
    ∀ j k, WarnsAt r polls j → WarnsAt r polls k → j = k := by
  intro r
  refine ⟨fun k p t hp ht => ?_, fun t ht => log_of_pending ht, fun j k hj hk => hj.unique hk⟩
  rw [log_of_turn hp ht, statusLog_eq]

end XmemoryTemporal.Durable.Warnings
