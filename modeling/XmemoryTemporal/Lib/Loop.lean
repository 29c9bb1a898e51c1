import Mathlib.Data.List.Basic
import Mathlib.Tactic.Common

/-! # Loops driven by answers

An endless loop that asks something in every turn and, by the answer, either stops with an outcome or
goes round again. `run` is the loop on a list of answers: the records of the turns it entered, and its
outcome, if it came to one; an endless supply of answers is seen through its finite prefixes.

* `stateAt`: the state in which the loop asks its next question after a list of answers, if it still
  runs.
* `outcome_of_stops`: what every stop establishes holds of the outcome.
* `run_stopped`, `run_output_prefix`: more answers neither change an outcome nor undo a turn.
* `stops_iff`: the loop stops in turn `k`, with the outcome of that turn.
* `record_iff`: the record of turn `k`, from the state in which it was entered. -/

namespace XmemoryTemporal.Lib.Loop

/-- What a turn comes to. -/
inductive Turn (σ ω : Type) where
  | stop (o : ω)
  | again (s : σ)

/-- A loop: the record of a turn that has no answer yet, and a turn with its answer. -/
structure AskLoop (σ ρ ε ω : Type) where
  enter : σ → ε
  body : σ → ρ → ε × Turn σ ω

variable {σ ρ ε ω : Type} (L : AskLoop σ ρ ε ω)

/-- The loop on a list of answers: the records of its turns, and the outcome. -/
def AskLoop.run : σ → List ρ → List ε × Option ω
  | s, [] => ([L.enter s], none)
  | s, x :: xs =>
    match L.body s x with
    | (e, .stop o) => ([e], some o)
    | (e, .again t) => (e :: (AskLoop.run t xs).1, (AskLoop.run t xs).2)

/-- The state of the loop after a list of answers, if it has not stopped. -/
def AskLoop.stateAt : σ → List ρ → Option σ
  | s, [] => some s
  | s, x :: xs =>
    match (L.body s x).2 with
    | .stop _ => none
    | .again t => AskLoop.stateAt t xs

variable {L} {s t : σ} {x : ρ} {xs ys : List ρ} {e : ε} {o : ω}

theorem run_stop (h : L.body s x = (e, .stop o)) : L.run s (x :: xs) = ([e], some o) := by
  rw [AskLoop.run, h]

theorem run_again (h : L.body s x = (e, .again t)) :
    L.run s (x :: xs) = (e :: (L.run t xs).1, (L.run t xs).2) := by
  rw [AskLoop.run, h]

theorem stateAt_stop (h : L.body s x = (e, .stop o)) : L.stateAt s (x :: xs) = none := by
  rw [AskLoop.stateAt, h]

theorem stateAt_again (h : L.body s x = (e, .again t)) :
    L.stateAt s (x :: xs) = L.stateAt t xs := by
  rw [AskLoop.stateAt, h]

theorem stateAt_append (xs ys : List ρ) (s : σ) :
    L.stateAt s (xs ++ ys) = (L.stateAt s xs).bind fun t => L.stateAt t ys := by
  induction xs generalizing s with
  | nil => rfl
  | cons x xs ih =>
    rcases hb : L.body s x with ⟨e, o | t⟩
    · rw [List.cons_append, stateAt_stop hb, stateAt_stop hb]; rfl
    · rw [List.cons_append, stateAt_again hb, stateAt_again hb]; exact ih t

theorem stateAt_concat {u : σ} :
    L.stateAt s (xs ++ [x]) = some u ↔
      ∃ t, L.stateAt s xs = some t ∧ (L.body t x).2 = .again u := by
  have hone : ∀ t, L.stateAt t [x] = some u ↔ (L.body t x).2 = .again u := by
    intro t
    rcases hb : L.body t x with ⟨e, o | v⟩
    · rw [stateAt_stop hb]; simp
    · rw [stateAt_again hb]; simp [AskLoop.stateAt]
  rw [stateAt_append, Option.bind_eq_some_iff]
  simp only [hone]

theorem outcome_of_stops {Q : ω → Prop} (hstop : ∀ s x e o, L.body s x = (e, .stop o) → Q o)
    (h : (L.run s xs).2 = some o) : Q o := by
  induction xs generalizing s with
  | nil => cases h
  | cons x xs ih =>
    rcases hb : L.body s x with ⟨e, o' | t⟩
    · rw [run_stop hb] at h
      cases h
      exact hstop s x e o hb
    · rw [run_again hb] at h
      exact ih h

theorem run_records_ne_nil : (L.run s xs).1 ≠ [] := by
  cases xs with
  | nil => simp [AskLoop.run]
  | cons x xs => rcases hb : L.body s x with ⟨e, o | t⟩ <;> simp [AskLoop.run, hb]

theorem running_of_stateAt (h : L.stateAt s xs = some t) : (L.run s xs).2 = none := by
  induction xs generalizing s with
  | nil => rfl
  | cons x xs ih =>
    rcases hb : L.body s x with ⟨e, o | u⟩
    · rw [stateAt_stop hb] at h
      simp at h
    · rw [stateAt_again hb] at h
      rw [run_again hb]
      exact ih h

theorem length_of_running (h : (L.run s xs).2 = none) : (L.run s xs).1.length = xs.length + 1 := by
  induction xs generalizing s with
  | nil => rfl
  | cons x xs ih =>
    rcases hb : L.body s x with ⟨e, o | t⟩
    · rw [run_stop hb] at h
      cases h
    · rw [run_again hb] at h ⊢
      exact congrArg (· + 1) (ih h)

theorem run_stopped (h : (L.run s xs).2 = some o) (ys : List ρ) :
    L.run s (xs ++ ys) = L.run s xs := by
  induction xs generalizing s with
  | nil => cases h
  | cons x xs ih =>
    rw [List.cons_append]
    rcases hb : L.body s x with ⟨e, o' | t⟩
    · rw [run_stop hb, run_stop hb]
    · rw [run_again hb] at h
      rw [run_again hb, run_again hb, ih h]

/-- **What a loop has put out stays**: more answers only add to it, if the answer to a turn only adds to
what the turn puts out. -/
theorem run_output_prefix {γ : Type} {out : ε → List γ}
    (hout : ∀ s x, out (L.enter s) <+: out (L.body s x).1) (xs ys : List ρ) (s : σ) :
    (L.run s xs).1.flatMap out <+: (L.run s (xs ++ ys)).1.flatMap out := by
  induction xs generalizing s with
  | nil =>
    have hnil : (L.run s []).1.flatMap out = out (L.enter s) := List.flatMap_singleton out _
    rw [hnil, List.nil_append]
    cases ys with
    | nil => simp only [hnil, List.prefix_refl]
    | cons y ys =>
      have hy := hout s y
      rcases hb : L.body s y with ⟨e, o | t⟩ <;> rw [hb] at hy
      · rw [run_stop hb, List.flatMap_singleton]
        exact hy
      · rw [run_again hb, List.flatMap_cons]
        exact hy.trans (List.prefix_append _ _)
  | cons x xs ih =>
    rw [List.cons_append]
    rcases hb : L.body s x with ⟨e, o | t⟩
    · simp only [run_stop hb, List.prefix_refl]
    · rw [run_again hb, run_again hb, List.flatMap_cons, List.flatMap_cons]
      exact (List.prefix_append_right_inj _).mpr (ih t)

theorem stops_iff (k : ℕ) : (L.run s xs).2 = some o ∧ (L.run s xs).1.length = k + 1 ↔
    ∃ x t e, xs[k]? = some x ∧ L.stateAt s (xs.take k) = some t ∧ L.body t x = (e, .stop o) := by
  induction xs generalizing s k with
  | nil => simp [AskLoop.run]
  | cons x xs ih =>
    rcases hb : L.body s x with ⟨e, o' | t⟩
    · rw [run_stop hb]
      cases k with
      | zero => simp [AskLoop.stateAt, hb]
      | succ k => simp [stateAt_stop hb]
    · rw [run_again hb]
      cases k with
      | zero => simp [AskLoop.stateAt, hb, run_records_ne_nil]
      | succ k =>
        simp only [List.length_cons, Nat.add_right_cancel_iff, List.getElem?_cons_succ,
          List.take_succ_cons, stateAt_again hb]
        exact ih k

/-- The record of a turn entered in state `t`: of the answer, if there is one. -/
def AskLoop.record (L : AskLoop σ ρ ε ω) (t : σ) : Option ρ → ε
  | none => L.enter t
  | some x => (L.body t x).1

theorem record_iff (k : ℕ) : (L.run s xs).1[k]? = some e ↔
    ∃ t, k ≤ xs.length ∧ L.stateAt s (xs.take k) = some t ∧ e = L.record t xs[k]? := by
  induction xs generalizing s k with
  | nil =>
    cases k with
    | zero => simp [AskLoop.run, AskLoop.stateAt, AskLoop.record, eq_comm]
    | succ k => simp [AskLoop.run]
  | cons x xs ih =>
    rcases hb : L.body s x with ⟨e', o | t⟩
    · rw [run_stop hb]
      cases k with
      | zero => simp [AskLoop.stateAt, AskLoop.record, hb, eq_comm]
      | succ k => simp [stateAt_stop hb]
    · rw [run_again hb]
      cases k with
      | zero => simp [AskLoop.stateAt, AskLoop.record, hb, eq_comm]
      | succ k =>
        simp only [List.getElem?_cons_succ, List.take_succ_cons, stateAt_again hb, List.length_cons,
          Nat.add_le_add_iff_right]
        exact ih k

end XmemoryTemporal.Lib.Loop
