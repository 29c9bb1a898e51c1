import Mathlib.Logic.Relation

/-! # Invariants and simulations of runs

A system is a relation `step` of its states, a run a chain of steps (`Relation.ReflTransGen`). What every
step keeps holds all along a run (`invariant_run`). An abstract system follows a concrete one along a
function `f` if each step of the concrete one, from a state with the invariant, is a step of the abstract
one or does not show (`Simulates`); then it follows whole runs (`Simulates.run`), and its invariants hold of
what the concrete run looks like (`Simulates.invariant`). -/

namespace XmemoryTemporal.Lib.Simulation

open Relation

variable {σ τ : Type} {step : σ → σ → Prop} {step' : τ → τ → Prop} {I : σ → Prop} {f : σ → τ} {s t : σ}

theorem invariant_run (hstep : ∀ s t, I s → step s t → I t) (h : ReflTransGen step s t) (hs : I s) :
    I t := by
  induction h with
  | refl => exact hs
  | tail _ hst ih => exact hstep _ _ ih hst

/-- The abstract system follows the concrete one, on the states that satisfy `I`. -/
structure Simulates (I : σ → Prop) (step : σ → σ → Prop) (step' : τ → τ → Prop) (f : σ → τ) : Prop where
  keeps : ∀ s t, I s → step s t → I t
  follows : ∀ s t, I s → step s t → f t = f s ∨ step' (f s) (f t)

theorem Simulates.run (h : Simulates I step step' f) (hs : I s) (hrun : ReflTransGen step s t) :
    ReflTransGen step' (f s) (f t) := by
  induction hrun with
  | refl => exact .refl
  | @tail u v hu huv ih =>
    have hI := invariant_run h.keeps hu hs
    rcases h.follows u v hI huv with heq | hstep
    · rw [heq]
      exact ih
    · exact ih.tail hstep

/-- **An invariant of the abstract system** holds of what the concrete one looks like. -/
theorem Simulates.invariant {J : τ → Prop} (h : Simulates I step step' f)
    (hJ : ∀ a b, J a → step' a b → J b) (hs : I s) (hJs : J (f s)) (hrun : ReflTransGen step s t) :
    J (f t) :=
  invariant_run hJ (h.run hs hrun) hJs

end XmemoryTemporal.Lib.Simulation
