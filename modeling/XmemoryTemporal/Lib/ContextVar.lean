import Mathlib.Logic.Function.Basic

/-! # A context variable

Every task runs in a context of its own, a copy of the context of the task that created it. `set`
changes the value in the context it is called in and returns a token, `reset` gives that context the
value it had before, and refuses a token from another context. The contexts of all tasks are one
function. -/

namespace XmemoryTemporal.Lib.ContextVar

variable {ι α : Type} [DecidableEq ι]

/-- The value of the variable in the context of each task, if it has one. -/
abbrev Contexts (ι α : Type) : Type := ι → Option α

/-- What `set` returns: the context it changed, and the value it replaced. -/
structure Token (ι α : Type) where
  context : ι
  old : Option α

def Contexts.set (c : Contexts ι α) (t : ι) (a : α) : Contexts ι α × Token ι α :=
  (Function.update c t (some a), { context := t, old := c t })

/-- `reset` in the context of `t`: `none` is the error for a token of another context. -/
def Contexts.reset (c : Contexts ι α) (t : ι) (token : Token ι α) : Option (Contexts ι α) :=
  if token.context = t then some (Function.update c t token.old) else none

/-- A task creates another. -/
def Contexts.createTask (c : Contexts ι α) (parent child : ι) : Contexts ι α :=
  Function.update c child (c parent)

variable {c : Contexts ι α} {t u : ι} {a : α}

theorem set_same : (c.set t a).1 t = some a := by
  show Function.update c t (some a) t = some a
  rw [Function.update_self]

theorem set_other (h : u ≠ t) : (c.set t a).1 u = c u := by
  show Function.update c t (some a) u = c u
  rw [Function.update_of_ne h]

theorem createTask_child : c.createTask t u u = c t := by
  unfold Contexts.createTask
  rw [Function.update_self]

theorem createTask_other {v : ι} (h : v ≠ u) : c.createTask t u v = c v := by
  unfold Contexts.createTask
  rw [Function.update_of_ne h]

/-- **A token of the own context restores** the value it replaced, and nothing else changes. -/
theorem reset_own (c : Contexts ι α) {token : Token ι α} (h : token.context = t) :
    ∃ c', c.reset t token = some c' ∧ c' t = token.old ∧ ∀ v ≠ t, c' v = c v := by
  refine ⟨Function.update c t token.old, if_pos h, ?_, fun v hv => ?_⟩
  · rw [Function.update_self]
  · rw [Function.update_of_ne hv]

end XmemoryTemporal.Lib.ContextVar
