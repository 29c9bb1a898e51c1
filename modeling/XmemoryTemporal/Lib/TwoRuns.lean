import Mathlib.Data.List.Basic

/-! # Two runs, compared by what they show

A machine goes on with every answer, and shows a view of every state it is in. Two machines run in lock
step if a relation of their states is kept by related answers and related states show the same
(`LockStep`); then two runs on answers that are related one by one show the same from the first state to
the last (`LockStep.views_eq`). This is how a property of two runs is proved from a property of two
steps. -/

namespace XmemoryTemporal.Lib.TwoRuns

/-- A machine driven by answers. -/
structure Machine (σ α ω : Type) where
  next : σ → α → σ
  view : σ → ω

/-- The state after a list of answers. -/
def Machine.after {σ α ω : Type} (M : Machine σ α ω) (s : σ) (answers : List α) : σ :=
  answers.foldl M.next s

/-- The views of a run: before the first answer and after each. -/
def Machine.views {σ α ω : Type} (M : Machine σ α ω) : σ → List α → List ω
  | s, [] => [M.view s]
  | s, a :: answers => M.view s :: Machine.views M (M.next s a) answers

/-- Two machines in lock step. -/
structure LockStep {σ τ α β ω : Type} (M : Machine σ α ω) (N : Machine τ β ω) (R : σ → τ → Prop)
    (A : α → β → Prop) : Prop where
  view : ∀ s t, R s t → M.view s = N.view t
  next : ∀ s t a b, R s t → A a b → R (M.next s a) (N.next t b)

variable {σ τ α β ω : Type} {M : Machine σ α ω} {N : Machine τ β ω} {R : σ → τ → Prop} {A : α → β → Prop}

theorem LockStep.after (h : LockStep M N R A) {xs : List α} {ys : List β} (hxs : List.Forall₂ A xs ys)
    {s : σ} {t : τ} (hst : R s t) : R (M.after s xs) (N.after t ys) := by
  induction hxs generalizing s t with
  | nil => exact hst
  | cons hab _ ih => exact ih (h.next s t _ _ hst hab)

/-- **Machines in lock step show the same.** -/
theorem LockStep.views_eq (h : LockStep M N R A) {xs : List α} {ys : List β} (hxs : List.Forall₂ A xs ys)
    {s : σ} {t : τ} (hst : R s t) : M.views s xs = N.views t ys := by
  induction hxs generalizing s t with
  | nil => exact congrArg (fun v => [v]) (h.view s t hst)
  | cons hab _ ih =>
    rw [Machine.views, Machine.views, h.view s t hst, ih (h.next s t _ _ hst hab)]

theorem getElem?_views (s : σ) (xs : List α) {k : ℕ} (hk : k ≤ xs.length) :
    (M.views s xs)[k]? = some (M.view (M.after s (xs.take k))) := by
  induction k generalizing s xs with
  | zero => cases xs <;> rfl
  | succ k ih =>
    cases xs with
    | nil => exact absurd hk (Nat.not_succ_le_zero k)
    | cons a xs =>
      rw [Machine.views, List.getElem?_cons_succ]
      exact ih (M.next s a) xs (Nat.le_of_succ_le_succ hk)

end XmemoryTemporal.Lib.TwoRuns
