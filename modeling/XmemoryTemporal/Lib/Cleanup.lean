import Mathlib.Logic.Relation

/-! # Programs that clean up

A program on a state returns a value or raises, and has changed the state either way. `finallyDo` runs a
cleanup after it however it ends; what the cleanup raises replaces the outcome (`after`).

An abstract system follows a program if it can make a run whenever the program is run, and the states stay
related (`Follows`). One rule for each construct gives that from its parts; in the rule of `finallyDo` the
cleanup begins where the program has ended, by a value or by an exception. -/

namespace XmemoryTemporal.Lib.Cleanup

open Relation

variable {σ τ ε α β : Type}

/-- A program that returns an `α` or raises an `ε`. -/
abbrev Program (σ ε α : Type) : Type := σ → Except ε α × σ

/-- A program, and with its value another. -/
def Program.andThen (x : Program σ ε α) (f : α → Program σ ε β) : Program σ ε β := fun s =>
  match x s with
  | (.ok a, t) => f a t
  | (.error e, t) => (.error e, t)

/-- The outcome after a cleanup. -/
def after (o : Except ε α) : Except ε Unit → Except ε α
  | .ok () => o
  | .error e => .error e

/-- `try: x finally: cleanup`. -/
def Program.finallyDo (x : Program σ ε α) (cleanup : Program σ ε Unit) : Program σ ε α := fun s =>
  let r := x s
  let c := cleanup r.2
  (after r.1 c.1, c.2)

/-- From states related by `P`, the system makes a run while the program runs, to states related by `Q`,
which depends on the outcome. -/
def Follows (R : τ → τ → Prop) (P : σ → τ → Prop) (x : Program σ ε α) (Q : Except ε α → σ → τ → Prop) : Prop :=
  ∀ s a, P s a → ∃ b, ReflTransGen R a b ∧ Q (x s).1 (x s).2 b

variable {R : τ → τ → Prop} {P P' : σ → τ → Prop} {x : Program σ ε α} {Q Q' : Except ε α → σ → τ → Prop}

theorem Follows.mono (h : Follows R P x Q) (hP : ∀ s a, P' s a → P s a) (hQ : ∀ o s a, Q o s a → Q' o s a) :
    Follows R P' x Q' := by
  intro s a ha
  obtain ⟨b, hrun, hb⟩ := h s a (hP s a ha)
  exact ⟨b, hrun, hQ _ _ _ hb⟩

theorem Follows.andThen {f : α → Program σ ε β} {Z : Except ε β → σ → τ → Prop} (hx : Follows R P x Q)
    (hf : ∀ v, Follows R (Q (.ok v)) (f v) Z) (he : ∀ e s a, Q (.error e) s a → Z (.error e) s a) :
    Follows R P (x.andThen f) Z := by
  intro s a ha
  obtain ⟨b, hrun, hb⟩ := hx s a ha
  unfold Program.andThen
  rcases hxs : x s with ⟨e | v, t⟩
  · rw [hxs] at hb
    exact ⟨b, hrun, he e t b hb⟩
  · rw [hxs] at hb
    obtain ⟨c, hrun', hc⟩ := hf v t b hb
    exact ⟨c, hrun.trans hrun', hc⟩

/-- A cleanup: it begins where the program has ended, however that was. -/
theorem Follows.finallyDo {cleanup : Program σ ε Unit} {Z : Except ε α → σ → τ → Prop} (hx : Follows R P x Q)
    (hc : ∀ o, Follows R (Q o) cleanup fun c s a => Z (after o c) s a) : Follows R P (x.finallyDo cleanup) Z := by
  intro s a ha
  obtain ⟨b, hrun, hb⟩ := hx s a ha
  obtain ⟨c, hrun', hc'⟩ := hc (x s).1 (x s).2 b hb
  exact ⟨c, hrun.trans hrun', hc'⟩

end XmemoryTemporal.Lib.Cleanup
