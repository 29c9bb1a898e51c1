import Mathlib.Data.List.Basic
import Mathlib.Tactic.Common

/-! # Work that is attempted again

The attempts of one piece of work, oldest first. `MayAttempt` is when a scheduler may start another: the
limit is not reached, and the last attempt, if there was one, is of a kind that is attempted again.
`Attempted` is what holds of the attempts then: they keep to the limit, and all but the last are of that
kind. An attempt in progress may still become of another kind (`Attempted.replace`). What the attempts do
is bounded by the limit (`Attempted.effects_le`), and by the attempts that hide it from the scheduler
(`Attempted.effects_le_marked`). -/

namespace XmemoryTemporal.Lib.Retry

variable {ρ ε : Type} {again : ρ → Prop} {limit : Option ℕ} {attempts pre post : List ρ} {r r' : ρ} {n : ℕ}

/-- One more attempt is allowed. -/
def MayAttempt (again : ρ → Prop) (limit : Option ℕ) (attempts : List ρ) : Prop :=
  (∀ n, limit = some n → attempts.length < n) ∧ ∀ r, attempts.getLast? = some r → again r

/-- Attempts that came about one after the other. -/
structure Attempted (again : ρ → Prop) (limit : Option ℕ) (attempts : List ρ) : Prop where
  within : ∀ n, limit = some n → attempts.length ≤ n
  again : ∀ r ∈ attempts.dropLast, again r

theorem attempted_nil : Attempted again limit [] :=
  ⟨fun _ _ => Nat.zero_le _, fun _ h => absurd h List.not_mem_nil⟩

theorem Attempted.attempt (h : Attempted again limit attempts) (hm : MayAttempt again limit attempts)
    (r : ρ) : Attempted again limit (attempts ++ [r]) := by
  refine ⟨fun n hn => ?_, fun q hq => ?_⟩
  · have hlt := hm.1 n hn
    rw [List.length_append, List.length_singleton]
    omega
  · rw [List.dropLast_concat] at hq
    rcases hl : attempts.getLast? with _ | last
    · rw [List.getLast?_eq_none_iff.mp hl] at hq
      exact absurd hq List.not_mem_nil
    · rw [← List.dropLast_append_getLast? last hl, List.mem_append] at hq
      rcases hq with hq | hq
      · exact h.again q hq
      · rw [List.mem_singleton.mp hq]
        exact hm.2 last hl

theorem Attempted.replace (h : Attempted again limit (attempts ++ [r])) :
    Attempted again limit (attempts ++ [r']) := by
  refine ⟨fun n hn => ?_, fun q hq => h.again q ?_⟩
  · have hle := h.within n hn
    rw [List.length_append, List.length_singleton] at hle ⊢
    exact hle
  · rw [List.dropLast_concat] at hq ⊢
    exact hq

theorem Attempted.last (h : Attempted again limit (pre ++ r :: post)) (hr : ¬ again r) : post = [] := by
  rcases post with _ | ⟨q, post⟩
  · rfl
  · refine absurd (h.again r ?_) hr
    rw [List.dropLast_append_of_ne_nil (List.cons_ne_nil r _), List.mem_append]
    exact Or.inr List.mem_cons_self

/-- **The effects of the attempts keep to the limit** if an attempt has at most one. -/
theorem Attempted.effects_le (h : Attempted again limit attempts) (hlimit : limit = some n)
    (effects : ρ → List ε) (hone : ∀ r ∈ attempts, (effects r).length ≤ 1) :
    (attempts.flatMap effects).length ≤ n := by
  have hcount : (attempts.flatMap effects).length ≤ attempts.length := by
    clear h
    induction attempts with
    | nil => exact Nat.le_refl _
    | cons q attempts ih =>
      have hq := hone q List.mem_cons_self
      have hrest := ih fun r hr => hone r (List.mem_cons_of_mem q hr)
      rw [List.flatMap_cons, List.length_append, List.length_cons]
      omega
  exact Nat.le_trans hcount (h.within n hlimit)

theorem length_effects_le (effects : ρ → List ε) (marked : ρ → Bool)
    (hone : ∀ r ∈ attempts, (effects r).length ≤ if marked r then 1 else 0) :
    (attempts.flatMap effects).length ≤ attempts.countP marked := by
  induction attempts with
  | nil => exact Nat.le_refl _
  | cons q attempts ih =>
    have hq := hone q List.mem_cons_self
    have hrest := ih fun r hr => hone r (List.mem_cons_of_mem q hr)
    rw [List.flatMap_cons, List.length_append, List.countP_cons]
    omega

/-- **Effects are repeated only by marked attempts**, if an attempt that has one and is followed by another
is marked. -/
theorem Attempted.effects_le_marked (h : Attempted again limit attempts) (effects : ρ → List ε)
    (marked : ρ → Bool) (hone : ∀ r ∈ attempts, (effects r).length ≤ 1)
    (hmarked : ∀ r ∈ attempts, again r → effects r ≠ [] → marked r = true) :
    (attempts.flatMap effects).length ≤ attempts.countP marked + 1 := by
  rcases hlast : attempts.getLast? with _ | last
  · rw [List.getLast?_eq_none_iff.mp hlast]
    exact Nat.zero_le _
  · have hsplit : attempts.dropLast ++ [last] = attempts := List.dropLast_append_getLast? last hlast
    have hmem : ∀ r ∈ attempts.dropLast, r ∈ attempts := fun r hr => List.dropLast_subset _ hr
    have hbefore : (attempts.dropLast.flatMap effects).length ≤ attempts.dropLast.countP marked := by
      refine length_effects_le effects marked fun r hr => ?_
      by_cases hnil : effects r = []
      · rw [hnil]
        exact Nat.zero_le _
      · rw [if_pos (hmarked r (hmem r hr) (h.again r hr) hnil)]
        exact hone r (hmem r hr)
    have hafter := hone last (by rw [← hsplit]; simp)
    rw [← hsplit, List.flatMap_append, List.length_append, List.flatMap_singleton, List.countP_append]
    omega

end XmemoryTemporal.Lib.Retry
