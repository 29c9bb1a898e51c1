import XmemoryTemporal.Dto
import Mathlib.Data.List.Basic

/-! # What the projections keep

A projection reads every attribute with a default, so what is there is carried over and what is not
becomes the default (`carries_getattr`). The status projection reads its changes by truthiness and not
by presence: changes that are there but empty give way to the field `result`. `losesNothing_iff` says that
this is the one loss. -/

namespace XmemoryTemporal.Dto.Projection

open XmemoryTemporal.Python.Value XmemoryTemporal.Dto

/-! ### One attribute -/

/-- A field of the output carries an attribute over: its value unchanged, or the default. -/
structure Carries {α : Type} (default : Option α) (a : Attr α) (out : Option α) : Prop where
  present : ∀ v, a = .value v → out = some v
  absent : a = .missing → out = default

theorem carries_getattr {α : Type} (default : Option α) (a : Attr α) :
    Carries default a (a.getattr default) := by
  constructor
  · rintro v rfl
    rfl
  · rintro rfl
    rfl

/-- The same for a field of any value, where `None` is a value like the others. -/
structure CarriesAny (default : PyVal) (a : Attr PyVal) (out : PyVal) : Prop where
  present : ∀ v, a = .value v → v ≠ .none → out = v
  absent : a = .missing → out = default

theorem carriesAny_anyAttr (a : Attr PyVal) : CarriesAny .none a (anyAttr a) := by
  constructor
  · rintro v rfl -
    rfl
  · rintro rfl
    rfl

/-! ### The four results -/

structure SubCarried (item : SubResult) (o : SubAnswer) : Prop where
  subQuery : Carries (some "") item.subQuery o.subQuery
  readerResult : CarriesAny .none item.readerResult o.readerResult
  error : Carries none item.error o.error

/-- The sub-answers are carried over one for one, in order. -/
structure ReadCarried (r : ReadResult) (o : ReadOutput) : Prop where
  readerResult : CarriesAny .none r.readerResult o.readerResult
  subAnswers : ∀ items, r.readerResults = .value items → List.Forall₂ SubCarried items o.subAnswers
  noSubAnswers : r.readerResults = .missing → o.subAnswers = []
  traceId : Carries none r.traceId o.traceId

structure WriteCarried (r : WriteResult) (o : WriteOutput) : Prop where
  writeId : Carries (some "") r.writeId o.writeId
  traceId : Carries none r.traceId o.traceId
  changes : CarriesAny .none r.changes o.changes

structure WriteStartCarried (r : WriteStartResult) (o : WriteStartOutput) : Prop where
  writeId : Carries (some "") r.writeId o.writeId

/-- A status is carried over as its plain value; the default of the changes is the field `result`. -/
structure WriteStatusCarried (r : WriteStatusResult) (o : WriteStatusOutput) : Prop where
  writeId : Carries (some "") r.writeId o.writeId
  writeStatus : ∀ status, r.writeStatus = .value status → o.writeStatus = status.value
  noWriteStatus : r.writeStatus = .missing → o.writeStatus = ""
  errorDetail : Carries none r.errorDetail o.errorDetail
  completedAt : Carries none r.completedAt o.completedAt
  changes : CarriesAny (anyAttr r.result) r.changes o.changes

theorem projectRead_carried (r : ReadResult) : ReadCarried r (projectRead r) := by
  have hitem : ∀ item : SubResult, SubCarried item
      { subQuery := item.subQuery.getattr (some ""), readerResult := anyAttr item.readerResult
        error := item.error.getattr none } := fun item =>
    ⟨carries_getattr _ _, carriesAny_anyAttr _, carries_getattr _ _⟩
  refine ⟨carriesAny_anyAttr _, fun items h => ?_, fun h => ?_, carries_getattr _ _⟩
  · unfold projectRead
    rw [h]
    exact List.forall₂_map_right_iff.mpr (List.forall₂_same.mpr fun item _ => hitem item)
  · unfold projectRead
    rw [h]
    rfl

theorem projectWrite_carried (r : WriteResult) : WriteCarried r (projectWrite r) :=
  ⟨carries_getattr _ _, carries_getattr _ _, carriesAny_anyAttr _⟩

theorem projectWriteStart_carried (r : WriteStartResult) : WriteStartCarried r (projectWriteStart r) :=
  ⟨carries_getattr _ _⟩

theorem projectWriteStatus_changes {r : WriteStatusResult} {c : PyVal} (h : r.changes = .value c) :
    (projectWriteStatus r).changes = if c.truthy then c else anyAttr r.result := by
  simp only [projectWriteStatus, h, anyAttr, Attr.getattr, Option.getD_some]

/-- Changes that are there and empty are carried over only if the field `result` has them too. -/
def KeepsChanges (r : WriteStatusResult) : Prop :=
  ∀ c, r.changes = .value c → c ≠ .none → c.truthy = true ∨ anyAttr r.result = c

theorem projectWriteStatus_carried_iff (r : WriteStatusResult) :
    WriteStatusCarried r (projectWriteStatus r) ↔ KeepsChanges r := by
  constructor
  · intro h c hc hne
    have hkept := h.changes.present c hc hne
    rw [projectWriteStatus_changes hc] at hkept
    rcases htruthy : c.truthy with _ | _
    · rw [htruthy] at hkept
      exact Or.inr hkept
    · exact Or.inl rfl
  · intro h
    refine ⟨carries_getattr _ _, fun status hs => projectWriteStatus_value r hs, fun hs => ?_,
      carries_getattr _ _, carries_getattr _ _, fun c hc hne => ?_, fun hc => ?_⟩
    · unfold projectWriteStatus
      rw [hs]
      rfl
    · rw [projectWriteStatus_changes hc]
      rcases h c hc hne with htruthy | hresult
      · rw [if_pos htruthy]
      · rw [hresult, ite_self]
    · unfold projectWriteStatus
      rw [hc]
      rfl

/-- **The projections lose nothing**: every attribute is carried over, and the synchronous and the durable
path report the same changes. -/
structure LosesNothing (r : ReadResult) (w : WriteResult) (s : WriteStartResult) (t : WriteStatusResult) :
    Prop where
  read : ReadCarried r (projectRead r)
  write : WriteCarried w (projectWrite w)
  writeStart : WriteStartCarried s (projectWriteStart s)
  writeStatus : WriteStatusCarried t (projectWriteStatus t)
  agree : ∀ c, c ≠ .none → w.changes = .value c → t.changes = .value c →
    (projectWrite w).changes = c ∧ (projectWriteStatus t).changes = c

/-- **When the projections lose nothing**: exactly when a status result has no changes that are there but
empty, unless its field `result` has the same. -/
theorem losesNothing_iff (r : ReadResult) (w : WriteResult) (s : WriteStartResult) (t : WriteStatusResult) :
    LosesNothing r w s t ↔ KeepsChanges t := by
  rw [← projectWriteStatus_carried_iff]
  constructor
  · exact fun h => h.writeStatus
  · intro h
    refine ⟨projectRead_carried r, projectWrite_carried w, projectWriteStart_carried s, h, ?_⟩
    intro c hne hwrite hstatus
    exact ⟨(projectWrite_carried w).changes.present c hwrite hne, h.changes.present c hstatus hne⟩

/-- A write that was completed without a change to make. -/
def unchanged : WriteStatusResult :=
  { writeId := .value "w1", writeStatus := .value (.member "completed"), errorDetail := .none
    completedAt := .value "2026-01-01T00:00:00+00:00", changes := .value (.list []), result := .missing }

/-- The synchronous path reports the empty list of changes, the durable one that there is none. -/
theorem empty_changes_lost :
    (projectWrite { writeId := .value "w1", traceId := .none, changes := unchanged.changes }).changes =
        .list [] ∧
      (projectWriteStatus unchanged).changes = .none ∧
      ∀ r w s, ¬ LosesNothing r w s unchanged := by
  refine ⟨rfl, rfl, fun r w s h => ?_⟩
  have hkept := h.writeStatus.changes.present (.list []) rfl (by simp)
  cases hkept

end XmemoryTemporal.Dto.Projection
