import XmemoryTemporal.Plugin
import XmemoryTemporal.Lib.Simulation
import Mathlib.Data.Finset.Insert
import Mathlib.Data.Fintype.Defs

/-! # No client is left open

A client is open exactly while its worker is inside `open_instance` (`isOpen_iff`, which is `Inv` with the
other direction), and a worker that has left does not come back (`left_stays`). The steps that are still to
be taken are always possible, whatever the other workers do: the token is never refused, and none of them
waits for another worker. So every set of workers can shut down from every state (`shutdown`). -/

namespace XmemoryTemporal.Plugin.Lifecycle

open Relation XmemoryTemporal.Lib.ContextVar XmemoryTemporal.Lib.Simulation

variable {ω κ : Type} [DecidableEq ω] {plugins : ω → XmemoryPlugin κ} {ambient : ω → Option (Handle ω κ)}
  {s s' t : State ω κ} {v w : ω}

/-! ### Open clients -/

/-- A client that is open belongs to a worker inside `open_instance`. -/
def OpenInside (plugins : ω → XmemoryPlugin κ) (s : State ω κ) : Prop :=
  ∀ w, s.isOpen w = true → (plugins w).given = none ∧ (s.phase w).holdsClient = true

theorem OpenInside.of_worker (hi : OpenInside plugins s)
    (hw : s'.isOpen w = true → (plugins w).given = none ∧ (s'.phase w).holdsClient = true)
    (hphase : ∀ v ≠ w, s'.phase v = s.phase v) (hopen : ∀ v ≠ w, s'.isOpen v = s.isOpen v) :
    OpenInside plugins s' := by
  intro v hv
  by_cases hvw : v = w
  · rw [hvw] at hv ⊢
    exact hw hv
  · rw [hphase v hvw]
    rw [hopen v hvw] at hv
    exact hi v hv

theorem OpenInside.setPhase (hi : OpenInside plugins s) {p : Phase ω κ}
    (hp : s.isOpen w = true → p.holdsClient = true) : OpenInside plugins (s.setPhase w p) := by
  refine hi.of_worker (fun h => ⟨(hi w h).1, ?_⟩) (fun v hv => setPhase_other s p hv) fun _ _ => rfl
  rw [setPhase_self]
  exact hp h

theorem openInside_step (hi : OpenInside plugins s) (h : Step plugins s s') : OpenInside plugins s' := by
  cases h with
  | @openInstance w hnone hphase =>
    refine hi.of_worker (fun _ => ⟨hnone, ?_⟩) (fun v hv => setPhase_other s _ hv)
      fun v hv => Function.update_of_ne hv true s.isOpen
    show ((s.setPhase w .opened).phase w).holdsClient = true
    rw [setPhase_self]
    rfl
  | @openFails w hnone hphase =>
    refine hi.setPhase fun h => ?_
    have hold := (hi w h).2
    rw [hphase] at hold
    cases hold
  | @instanceFails w hphase => exact hi.setPhase fun _ => rfl
  | @bindGiven w k hgiven hphase =>
    refine hi.of_worker (fun h => ?_) (fun v hv => Function.update_of_ne hv _ s.phase) fun _ _ => rfl
    have hnone := (hi w h).1
    rw [hgiven] at hnone
    simp at hnone
  | @bindOpened w hphase =>
    refine hi.of_worker (fun h => ⟨(hi w h).1, ?_⟩) (fun v hv => Function.update_of_ne hv _ s.phase) fun _ _ => rfl
    show (Function.update s.phase w _ w).holdsClient = true
    rw [Function.update_self]
    rfl
  | @createTask t ht => exact hi
  | @leave w token exit hphase => exact hi.setPhase fun _ => rfl
  | @unbind w token exit c hphase hreset =>
    refine hi.of_worker (fun h => ⟨(hi w h).1, ?_⟩) (fun v hv => setPhase_other s _ hv) fun _ _ => rfl
    show ((s.setPhase w (afterBlock (plugins w) exit)).phase w).holdsClient = true
    rw [setPhase_self, afterBlock, (hi w h).1]
    rfl
  | @unbindFails w token exit hphase hreset =>
    refine hi.setPhase fun h => ?_
    rw [afterBlock, (hi w h).1]
    rfl
  | @close w exit hphase =>
    refine hi.of_worker (fun h => ?_) (fun v hv => setPhase_other s _ hv)
      fun v hv => Function.update_of_ne hv false s.isOpen
    have hopen : Function.update s.isOpen w false w = true := h
    rw [Function.update_self] at hopen
    cases hopen

/-- **A client is open exactly inside `open_instance`.** -/
theorem isOpen_iff (h : Reachable plugins ambient s) (w : ω) :
    s.isOpen w = true ↔ (plugins w).given = none ∧ (s.phase w).holdsClient = true := by
  have hinside : OpenInside plugins s :=
    invariant_run (fun _ _ => openInside_step) h fun w hw => by cases hw
  refine ⟨hinside w, fun ⟨hnone, hholds⟩ => ?_⟩
  exact ((reachable_inv h).worker w).opened hholds hnone

/-! ### Leaving -/

/-- The worker has not entered, or has left. -/
def Settled (p : Phase ω κ) : Prop := p = .outside ∨ ∃ exit, p = .left exit

theorem left_stays {exit : Exit} (h : s.phase w = .left exit) (hrun : ReflTransGen (Step plugins) s s') :
    s'.phase w = .left exit := by
  refine invariant_run (I := fun u => u.phase w = .left exit) (fun u u' hu hstep => ?_) hrun h
  have hkeep : ∀ {v : ω} {p : Phase ω κ}, u.phase v ≠ .left exit →
      Function.update u.phase v p w = .left exit := by
    intro v p hv
    have hne : w ≠ v := fun h => hv (by rw [← h, hu])
    rw [Function.update_of_ne hne, hu]
  cases hstep with
  | openInstance _ hphase => exact hkeep (by rw [hphase]; simp)
  | openFails _ hphase => exact hkeep (by rw [hphase]; simp)
  | instanceFails hphase => exact hkeep (by rw [hphase]; simp)
  | bindGiven _ hphase => exact hkeep (by rw [hphase]; simp)
  | bindOpened hphase => exact hkeep (by rw [hphase]; simp)
  | createTask _ => exact hu
  | leave _ hphase => exact hkeep (by rw [hphase]; simp)
  | unbind hphase _ => exact hkeep (by rw [hphase]; simp)
  | unbindFails hphase _ => exact hkeep (by rw [hphase]; simp)
  | close hphase => exact hkeep (by rw [hphase]; simp)

/-- Worker `w` has gone on alone, and is settled now. -/
structure Finishes (plugins : ω → XmemoryPlugin κ) (w : ω) (s s' : State ω κ) : Prop where
  run : ReflTransGen (Step plugins) s s'
  settled : Settled (s'.phase w)
  phase : ∀ v ≠ w, s'.phase v = s.phase v
  contexts : ∀ t ≠ TaskId.worker w, s'.contexts t = s.contexts t

theorem Finishes.step (h : Finishes plugins w t s') (hstep : Step plugins s t)
    (hphase : ∀ v ≠ w, t.phase v = s.phase v) (hcontexts : ∀ u ≠ TaskId.worker w, t.contexts u = s.contexts u) :
    Finishes plugins w s s' where
  run := h.run.head hstep
  settled := h.settled
  phase v hv := by rw [h.phase v hv, hphase v hv]
  contexts u hu := by rw [h.contexts u hu, hcontexts u hu]

theorem finish_settled (h : Settled (s.phase w)) : Finishes plugins w s s where
  run := .refl
  settled := h
  phase _ _ := rfl
  contexts _ _ := rfl

theorem finish_closing {exit : Exit} (hphase : s.phase w = .closing exit) : ∃ s', Finishes plugins w s s' := by
  refine ⟨_, (finish_settled (Or.inr ⟨exit, ?_⟩)).step (.close hphase)
    (fun v hv => setPhase_other s _ hv) fun _ _ => rfl⟩
  exact setPhase_self s w _

theorem finish_block {exit : Exit} (hphase : s.phase w = afterBlock (plugins w) exit) :
    ∃ s', Finishes plugins w s s' := by
  unfold afterBlock at hphase
  rcases hgiven : (plugins w).given with _ | k
  · rw [hgiven] at hphase
    exact finish_closing hphase
  · rw [hgiven] at hphase
    exact ⟨s, finish_settled (Or.inr ⟨exit, hphase⟩)⟩

theorem finish_leaving (hi : Inv plugins ambient s) {token : Token (TaskId ω) (Handle ω κ)} {exit : Exit}
    (hphase : s.phase w = .leaving token exit) : ∃ s', Finishes plugins w s s' := by
  obtain ⟨rfl, -⟩ := (hi.worker w).bound token (by rw [hphase]; rfl)
  have hcontext : (Token.mk (TaskId.worker w) (ambient w)).context = TaskId.worker w := rfl
  obtain ⟨c, hreset, -, hother⟩ := reset_own s.contexts hcontext
  have hnext : ({ s.setPhase w (afterBlock (plugins w) exit) with contexts := c } : State ω κ).phase w =
      afterBlock (plugins w) exit := setPhase_self s w _
  obtain ⟨s', hs'⟩ := finish_block hnext
  exact ⟨s', hs'.step (.unbind hphase hreset) (fun v hv => setPhase_other s _ hv) hother⟩

theorem finish_bound (hi : Inv plugins ambient s) {token : Token (TaskId ω) (Handle ω κ)}
    (hphase : s.phase w = .bound token) : ∃ s', Finishes plugins w s s' := by
  have hstep : Step plugins s (s.setPhase w (.leaving token .normal)) := .leave .normal hphase
  obtain ⟨s', hs'⟩ := finish_leaving (step_inv hi hstep) (setPhase_self s w (.leaving token .normal))
  exact ⟨s', hs'.step hstep (fun v hv => setPhase_other s _ hv) fun _ _ => rfl⟩

/-- **A worker can always leave**, and alone. -/
theorem finish (hi : Inv plugins ambient s) (w : ω) : ∃ s', Finishes plugins w s s' := by
  rcases hphase : s.phase w with _ | _ | token | ⟨token, exit⟩ | exit | exit
  · exact ⟨s, finish_settled (Or.inl hphase)⟩
  · -- opened but not bound: whatever comes now, an exception ends it
    obtain ⟨s', hs'⟩ : ∃ s', Finishes plugins w (s.setPhase w (.closing .exception)) s' :=
      finish_closing (setPhase_self s w _)
    exact ⟨s', hs'.step (.instanceFails hphase) (fun v hv => setPhase_other s _ hv) fun _ _ => rfl⟩
  · exact finish_bound hi hphase
  · exact finish_leaving hi hphase
  · exact finish_closing hphase
  · exact ⟨s, finish_settled (Or.inr ⟨exit, hphase⟩)⟩

theorem finish_all (W : Finset ω) (hi : Inv plugins ambient s) :
    ∃ s', ReflTransGen (Step plugins) s s' ∧ (∀ w ∈ W, Settled (s'.phase w)) ∧
      (∀ v ∉ W, s'.phase v = s.phase v) ∧ ∀ n, s'.contexts (.created n) = s.contexts (.created n) := by
  induction W using Finset.induction_on with
  | empty => exact ⟨s, .refl, by simp, fun _ _ => rfl, fun _ => rfl⟩
  | @insert w W hw ih =>
    obtain ⟨u, hrun, hsettled, hother, hcreated⟩ := ih
    have hu : Inv plugins ambient u := invariant_run (fun _ _ => step_inv) hrun hi
    obtain ⟨s', hs'⟩ := finish hu w
    refine ⟨s', hrun.trans hs'.run, fun v hv => ?_, fun v hv => ?_, fun n => ?_⟩
    · by_cases hvw : v = w
      · rw [hvw]
        exact hs'.settled
      · rw [hs'.phase v hvw]
        exact hsettled v (Finset.mem_of_mem_insert_of_ne hv hvw)
    · rw [Finset.mem_insert, not_or] at hv
      rw [hs'.phase v hv.1, hother v hv.2]
    · rw [hs'.contexts _ (by intro h; cases h), hcreated n]

/-- **No client is left open.** In every state of every interleaving the open clients are exactly those of
the workers inside `open_instance`, a worker that has left stays out, and any set of workers can shut down
from there without a step of any other: then their clients are closed, their contexts hold what they held
before they entered, and the contexts of the tasks that were created are as they were. -/
theorem shutdown (plugins : ω → XmemoryPlugin κ) (ambient : ω → Option (Handle ω κ)) (s : State ω κ)
    (h : Reachable plugins ambient s) :
    (∀ w, s.isOpen w = true ↔ (plugins w).given = none ∧ (s.phase w).holdsClient = true) ∧
    (∀ w exit, s.phase w = .left exit →
      ∀ s', ReflTransGen (Step plugins) s s' → s'.phase w = .left exit ∧ s'.isOpen w = false) ∧
    ∀ W : Finset ω, ∃ s', ReflTransGen (Step plugins) s s' ∧
      (∀ w ∈ W, Settled (s'.phase w) ∧ s'.isOpen w = false ∧ s'.contexts (.worker w) = ambient w) ∧
      (∀ v ∉ W, s'.phase v = s.phase v) ∧ ∀ n, s'.contexts (.created n) = s.contexts (.created n) := by
  have hclosed : ∀ {u : State ω κ} {w : ω}, Reachable plugins ambient u → Settled (u.phase w) →
      u.isOpen w = false := by
    intro u w hu hsettled
    rw [Bool.eq_false_iff, ne_eq, isOpen_iff hu]
    rintro ⟨-, hholds⟩
    rcases hsettled with hp | ⟨exit, hp⟩ <;> rw [hp] at hholds <;> cases hholds
  refine ⟨isOpen_iff h, fun w exit hp s' hrun => ?_, fun W => ?_⟩
  · have hleft := left_stays hp hrun
    exact ⟨hleft, hclosed (h.trans hrun) (Or.inr ⟨exit, hleft⟩)⟩
  · obtain ⟨s', hrun, hsettled, hother, hcreated⟩ := finish_all W (reachable_inv h)
    refine ⟨s', hrun, fun w hw => ⟨hsettled w hw, ?_, ?_⟩, hother, hcreated⟩
    · exact hclosed (h.trans hrun) (hsettled w hw)
    · have hi := reachable_inv (h.trans hrun)
      refine (hi.worker w).unbound ?_
      rcases hsettled w hw with hp | ⟨exit, hp⟩ <;> rw [hp] <;> rfl

/-- Both workers of one plugin are bound, and shut down. -/
theorem shutdown_two : ∃ s', ReflTransGen (Step sharedPlugin)
    (((initial fun _ => none).enter false).enter true) s' ∧ s'.isOpen false = false ∧ s'.isOpen true = false := by
  have h0 : Reachable sharedPlugin (fun _ => none) (initial fun _ => none) := Relation.ReflTransGen.refl
  have h1 := reachable_enter (w := false) h0 rfl
  have h2 := reachable_enter (w := true) h1 rfl
  obtain ⟨s', hrun, hsettled, -⟩ := (shutdown sharedPlugin (fun _ => none) _ h2).2.2 Finset.univ
  exact ⟨s', hrun, (hsettled false (Finset.mem_univ _)).2.1, (hsettled true (Finset.mem_univ _)).2.1⟩

end XmemoryTemporal.Plugin.Lifecycle
