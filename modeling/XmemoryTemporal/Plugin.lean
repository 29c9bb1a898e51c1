import XmemoryTemporal.Activities
import XmemoryTemporal.Lib.ContextVar
import Mathlib.Logic.Relation

/-! # Workers that share a plugin

Each worker enters the run context of its plugin in a task of its own: it opens a client, unless the
plugin was given an instance, binds the handle to the context variable, runs its body, and unbinds and
closes again, however the body ends. A step of the system is one step of one worker, or the creation of a
task by any task; the steps of all workers interleave freely.

`Inv` says what a worker's context and its client are at each phase, and what the contexts of the tasks
are that descend from a bound worker. -/

namespace XmemoryTemporal.Plugin

open XmemoryTemporal.Lib.ContextVar XmemoryTemporal.Errors XmemoryTemporal.Activities

/-- How the body of a run context ends. -/
inductive Exit where
  | normal
  | exception

/-- A handle: the one the plugin was given, or one of the client a worker opened. -/
inductive Handle (ω κ : Type) where
  | injected (k : κ)
  | opened (w : ω)

/-- The handle a plugin was given, if any. -/
structure XmemoryPlugin (κ : Type) where
  given : Option κ

/-- A task: the one a worker runs in, or one created later. -/
inductive TaskId (ω : Type) where
  | worker (w : ω)
  | created (n : ℕ)
  deriving DecidableEq

/-- Where a worker is in its run context: `_bound` for a given handle, `_opened` else. -/
inductive Phase (ω κ : Type) where
  | outside
  | opened
  | bound (token : Token (TaskId ω) (Handle ω κ))
  | leaving (token : Token (TaskId ω) (Handle ω κ)) (exit : Exit)
  | closing (exit : Exit)
  | left (exit : Exit)

/-- The token of a bound worker: it is bound from `bind` until `unbind`. -/
def Phase.token? {ω κ : Type} : Phase ω κ → Option (Token (TaskId ω) (Handle ω κ))
  | bound token => some token
  | leaving token _ => some token
  | _ => none

/-- The phases inside `open_instance`. -/
def Phase.holdsClient {ω κ : Type} : Phase ω κ → Bool
  | outside => false
  | left _ => false
  | _ => true

/-- The state of the process. `owner` is no part of it: it keeps, for the proofs, the bound worker from
which a task descends. -/
structure State (ω κ : Type) where
  contexts : Contexts (TaskId ω) (Handle ω κ)
  phase : ω → Phase ω κ
  isOpen : ω → Bool
  created : ℕ
  owner : ℕ → Option ω

section System
variable {ω κ : Type} [DecidableEq ω]

/-- The worker a task descends from that was bound when the descent began. -/
def State.ownerOf (s : State ω κ) : TaskId ω → Option ω
  | .worker w => (s.phase w).token?.map fun _ => w
  | .created n => s.owner n

def State.setPhase (s : State ω κ) (w : ω) (p : Phase ω κ) : State ω κ :=
  { s with phase := Function.update s.phase w p }

/-- `bind`: set the variable in the worker's context. -/
def State.bind (s : State ω κ) (w : ω) (h : Handle ω κ) : State ω κ :=
  { s with
    contexts := (s.contexts.set (.worker w) h).1
    phase := Function.update s.phase w (.bound (s.contexts.set (.worker w) h).2) }

/-- A task creates another. -/
def State.createTask (s : State ω κ) (t : TaskId ω) : State ω κ :=
  { s with
    contexts := s.contexts.createTask t (.created s.created)
    created := s.created + 1
    owner := Function.update s.owner s.created (s.ownerOf t) }

/-- The tasks there are. -/
def State.exists (s : State ω κ) : TaskId ω → Prop
  | .worker _ => True
  | .created n => n < s.created

/-- What follows the block of the handle: the client is closed, if one was opened. -/
def afterBlock (plugin : XmemoryPlugin κ) (exit : Exit) : Phase ω κ :=
  match plugin.given with
  | some _ => .left exit
  | none => .closing exit

/-- One step, of a worker or of any task. -/
inductive Step (plugins : ω → XmemoryPlugin κ) : State ω κ → State ω κ → Prop where
  /-- `AsyncXmemoryClient.__aenter__` -/
  | openInstance {s : State ω κ} {w : ω} : (plugins w).given = none → s.phase w = .outside →
      Step plugins s { s.setPhase w .opened with isOpen := Function.update s.isOpen w true }
  /-- There is no key, or the client cannot be opened. -/
  | openFails {s : State ω κ} {w : ω} : (plugins w).given = none → s.phase w = .outside →
      Step plugins s (s.setPhase w (.left .exception))
  /-- `client.instance(config.instance_id)` raises. -/
  | instanceFails {s : State ω κ} {w : ω} : s.phase w = .opened →
      Step plugins s (s.setPhase w (.closing .exception))
  | bindGiven {s : State ω κ} {w : ω} {k : κ} : (plugins w).given = some k → s.phase w = .outside →
      Step plugins s (s.bind w (.injected k))
  | bindOpened {s : State ω κ} {w : ω} : s.phase w = .opened → Step plugins s (s.bind w (.opened w))
  /-- Any task creates one, the activity tasks among them. -/
  | createTask {s : State ω κ} {t : TaskId ω} : s.exists t → Step plugins s (s.createTask t)
  /-- The body ends, by itself or by an exception. -/
  | leave {s : State ω κ} {w : ω} {token : Token (TaskId ω) (Handle ω κ)} (exit : Exit) :
      s.phase w = .bound token → Step plugins s (s.setPhase w (.leaving token exit))
  /-- `finally: activities.unbind(token)` -/
  | unbind {s : State ω κ} {w : ω} {token : Token (TaskId ω) (Handle ω κ)} {exit : Exit}
      {c : Contexts (TaskId ω) (Handle ω κ)} : s.phase w = .leaving token exit →
      s.contexts.reset (.worker w) token = some c →
      Step plugins s { s.setPhase w (afterBlock (plugins w) exit) with contexts := c }
  /-- The token is refused. -/
  | unbindFails {s : State ω κ} {w : ω} {token : Token (TaskId ω) (Handle ω κ)} {exit : Exit} :
      s.phase w = .leaving token exit → s.contexts.reset (.worker w) token = none →
      Step plugins s (s.setPhase w (afterBlock (plugins w) .exception))
  /-- `AsyncXmemoryClient.__aexit__` -/
  | close {s : State ω κ} {w : ω} {exit : Exit} : s.phase w = .closing exit →
      Step plugins s { s.setPhase w (.left exit) with isOpen := Function.update s.isOpen w false }

/-- No worker has entered yet; the tasks they run in have whatever context they were created with. -/
def initial (ambient : ω → Option (Handle ω κ)) : State ω κ where
  contexts
    | .worker w => ambient w
    | .created _ => none
  phase _ := .outside
  isOpen _ := false
  created := 0
  owner _ := none

/-- The handle of a worker: the given one, or one of its own client. -/
def own (plugins : ω → XmemoryPlugin κ) (w : ω) : Handle ω κ :=
  match (plugins w).given with
  | some k => .injected k
  | none => .opened w

/-- `instance`, asked for in a task. -/
def State.resolve (s : State ω κ) (t : TaskId ω) : Except PyError (Handle ω κ) := instanceOf (s.contexts t)

/-! ### The invariant -/

/-- A worker, by its phase: bound, its context holds its handle and its token the value before; not
bound, its context holds that value. Its client is open exactly inside `open_instance`. -/
structure WorkerInv (plugins : ω → XmemoryPlugin κ) (ambient : ω → Option (Handle ω κ)) (s : State ω κ)
    (w : ω) : Prop where
  bound : ∀ token, (s.phase w).token? = some token →
    token = { context := .worker w, old := ambient w } ∧ s.contexts (.worker w) = some (own plugins w)
  unbound : (s.phase w).token? = none → s.contexts (.worker w) = ambient w
  opened : (s.phase w).holdsClient = true → (plugins w).given = none → s.isOpen w = true
  given : ∀ k, (plugins w).given = some k → s.phase w ≠ .opened ∧ ∀ exit, s.phase w ≠ .closing exit

structure Inv (plugins : ω → XmemoryPlugin κ) (ambient : ω → Option (Handle ω κ)) (s : State ω κ) :
    Prop where
  worker : ∀ w, WorkerInv plugins ambient s w
  descends : ∀ n w, s.owner n = some w → n < s.created ∧ s.contexts (.created n) = some (own plugins w)

variable {plugins : ω → XmemoryPlugin κ} {ambient : ω → Option (Handle ω κ)} {s s' : State ω κ} {w : ω}

omit [DecidableEq ω] in
theorem initial_inv : Inv plugins ambient (initial ambient) where
  worker w :=
    { bound := fun _ h => (by cases h)
      unbound := fun _ => rfl
      opened := fun h => (by cases h)
      given := fun _ _ => ⟨fun h => (by cases h), fun _ h => (by cases h)⟩ }
  descends n w h := by cases h

omit [DecidableEq ω] in
theorem WorkerInv.congr (h : WorkerInv plugins ambient s w) (hphase : s'.phase w = s.phase w)
    (hcontext : s'.contexts (.worker w) = s.contexts (.worker w)) (hopen : s'.isOpen w = s.isOpen w) :
    WorkerInv plugins ambient s' w := by
  refine ⟨?_, ?_, ?_, ?_⟩
  · rw [hphase, hcontext]
    exact h.bound
  · rw [hphase, hcontext]
    exact h.unbound
  · rw [hphase, hopen]
    exact h.opened
  · rw [hphase]
    exact h.given

theorem Inv.of_worker (hi : Inv plugins ambient s) (hw : WorkerInv plugins ambient s' w)
    (hphase : ∀ v ≠ w, s'.phase v = s.phase v) (hopen : ∀ v ≠ w, s'.isOpen v = s.isOpen v)
    (hcontext : ∀ t ≠ TaskId.worker w, s'.contexts t = s.contexts t)
    (howner : s'.owner = s.owner) (hcreated : s'.created = s.created) : Inv plugins ambient s' := by
  refine ⟨fun v => ?_, fun n v hv => ?_⟩
  · by_cases hvw : v = w
    · rw [hvw]
      exact hw
    · have hne : TaskId.worker v ≠ TaskId.worker w := by
        intro h
        cases h
        exact hvw rfl
      exact (hi.worker v).congr (hphase v hvw) (hcontext _ hne) (hopen v hvw)
  · rw [howner] at hv
    obtain ⟨hlt, hctx⟩ := hi.descends n v hv
    rw [hcreated, hcontext _ (by intro h; cases h)]
    exact ⟨hlt, hctx⟩

theorem setPhase_self (s : State ω κ) (w : ω) (p : Phase ω κ) : (s.setPhase w p).phase w = p := by
  show Function.update s.phase w p w = p
  rw [Function.update_self]

theorem setPhase_other (s : State ω κ) {v w : ω} (p : Phase ω κ) (h : v ≠ w) :
    (s.setPhase w p).phase v = s.phase v := by
  show Function.update s.phase w p v = s.phase v
  rw [Function.update_of_ne h]

/-- What the phases of a worker have to do with its plugin: only one that was given no handle opens a
client, and closes it. -/
def Fits (plugin : XmemoryPlugin κ) (p : Phase ω κ) : Prop :=
  ∀ k, plugin.given = some k → p ≠ .opened ∧ ∀ exit, p ≠ .closing exit

omit [DecidableEq ω] in
theorem fits_of_none {plugin : XmemoryPlugin κ} (h : plugin.given = none) (p : Phase ω κ) :
    Fits plugin p := by
  intro k hk
  rw [h] at hk
  simp at hk

/-- **A worker goes on without binding or unbinding**: its context is left alone, and its client is as it
must be in the new phase. -/
theorem phase_inv (hi : Inv plugins ambient s) {p : Phase ω κ} (b : Bool)
    (htoken : p.token? = (s.phase w).token?)
    (hopen : p.holdsClient = true → (plugins w).given = none → b = true) (hfits : Fits (plugins w) p) :
    Inv plugins ambient { s.setPhase w p with isOpen := Function.update s.isOpen w b } := by
  set s' : State ω κ := { s.setPhase w p with isOpen := Function.update s.isOpen w b } with hs'
  have hp : s'.phase w = p := setPhase_self s w p
  have hb : s'.isOpen w = b := Function.update_self w b s.isOpen
  have hw := hi.worker w
  refine hi.of_worker ⟨?_, ?_, ?_, ?_⟩ (fun v hv => setPhase_other s p hv)
    (fun v hv => Function.update_of_ne hv b s.isOpen) (fun _ _ => rfl) rfl rfl
  · rw [hp, htoken]
    exact hw.bound
  · rw [hp, htoken]
    exact hw.unbound
  · rw [hp, hb]
    exact hopen
  · rw [hp]
    exact hfits

theorem setPhase_inv (hi : Inv plugins ambient s) {p : Phase ω κ} (htoken : p.token? = (s.phase w).token?)
    (hopen : p.holdsClient = true → (plugins w).given = none → s.isOpen w = true)
    (hfits : Fits (plugins w) p) : Inv plugins ambient (s.setPhase w p) := by
  have h := phase_inv hi (s.isOpen w) htoken hopen hfits
  rw [Function.update_eq_self] at h
  exact h

theorem bind_inv (hi : Inv plugins ambient s) (htoken : (s.phase w).token? = none)
    (hopen : (plugins w).given = none → s.isOpen w = true) :
    Inv plugins ambient (s.bind w (own plugins w)) := by
  have hphase : (s.bind w (own plugins w)).phase w =
      .bound (s.contexts.set (.worker w) (own plugins w)).2 := Function.update_self w _ s.phase
  refine hi.of_worker ⟨fun token h => ?_, fun h => ?_, fun _ hnone => hopen hnone, fun k _ => ?_⟩
    (fun v hv => Function.update_of_ne hv _ s.phase) (fun _ _ => rfl) (fun t ht => set_other ht) rfl rfl
  · rw [hphase] at h
    cases h
    refine ⟨?_, set_same⟩
    have hbefore := (hi.worker w).unbound htoken
    show Token.mk (TaskId.worker w) (s.contexts (.worker w)) = _
    rw [hbefore]
  · rw [hphase] at h
    cases h
  · rw [hphase]
    exact ⟨fun h => (by cases h), fun _ h => (by cases h)⟩

theorem createTask_inv (hi : Inv plugins ambient s) {t : TaskId ω} (ht : s.exists t) :
    Inv plugins ambient (s.createTask t) := by
  have hother : ∀ u, u ≠ TaskId.created s.created → (s.createTask t).contexts u = s.contexts u :=
    fun u hu => createTask_other hu
  refine ⟨fun v => (hi.worker v).congr rfl (hother _ (by intro h; cases h)) rfl, fun n v hv => ?_⟩
  have howner : Function.update s.owner s.created (s.ownerOf t) n = some v := hv
  by_cases hn : n = s.created
  · subst hn
    rw [Function.update_self] at howner
    refine ⟨Nat.lt_succ_self _, ?_⟩
    show s.contexts.createTask t (.created s.created) (.created s.created) = _
    rw [createTask_child]
    rcases t with u | m
    · have hu : ((s.phase u).token?.map fun _ => u) = some v := howner
      obtain ⟨token, htoken, rfl⟩ := Option.map_eq_some_iff.mp hu
      exact ((hi.worker u).bound token htoken).2
    · exact (hi.descends m v howner).2
  · rw [Function.update_of_ne hn] at howner
    obtain ⟨hlt, hctx⟩ := hi.descends n v howner
    refine ⟨Nat.lt_succ_of_lt hlt, ?_⟩
    rw [hother _ (by intro h; cases h; exact hn rfl)]
    exact hctx

theorem unbind_inv (hi : Inv plugins ambient s) {token : Token (TaskId ω) (Handle ω κ)} {exit : Exit}
    {c : Contexts (TaskId ω) (Handle ω κ)} (hphase : s.phase w = .leaving token exit)
    (hreset : s.contexts.reset (.worker w) token = some c) :
    Inv plugins ambient { s.setPhase w (afterBlock (plugins w) exit) with contexts := c } := by
  have hw := hi.worker w
  obtain ⟨rfl, -⟩ := hw.bound token (by rw [hphase]; rfl)
  have hcontext : (Token.mk (TaskId.worker w) (ambient w)).context = TaskId.worker w := rfl
  obtain ⟨c', hc', hself, hother⟩ := reset_own s.contexts hcontext
  rw [hreset] at hc'
  cases hc'
  set s' : State ω κ := { s.setPhase w (afterBlock (plugins w) exit) with contexts := c } with hs'
  have hp : s'.phase w = afterBlock (plugins w) exit := setPhase_self s w _
  have htoken : (s'.phase w).token? = none := by
    rw [hp]
    unfold afterBlock
    rcases (plugins w).given with _ | k <;> rfl
  refine hi.of_worker ⟨fun token h => ?_, fun _ => hself, fun _ hnone => ?_, fun k hk => ?_⟩
    (fun v hv => setPhase_other s _ hv) (fun _ _ => rfl) (fun t ht => hother t ht) rfl rfl
  · rw [htoken] at h
    simp at h
  · exact hw.opened (by rw [hphase]; rfl) hnone
  · rw [hp]
    unfold afterBlock
    rw [hk]
    exact ⟨fun h => (by cases h), fun _ h => (by cases h)⟩

/-- **Every step keeps the invariant.** -/
theorem step_inv (hi : Inv plugins ambient s) (h : Step plugins s s') : Inv plugins ambient s' := by
  cases h with
  | @openInstance w hnone hphase =>
    exact phase_inv hi true (by rw [hphase]; rfl) (fun _ _ => rfl) (fits_of_none hnone _)
  | @openFails w hnone hphase =>
    exact setPhase_inv hi (by rw [hphase]; rfl) (fun h => (by cases h)) (fits_of_none hnone _)
  | @instanceFails w hphase =>
    have hw := hi.worker w
    exact setPhase_inv hi (by rw [hphase]; rfl) (fun _ => hw.opened (by rw [hphase]; rfl))
      fun k hk => absurd hphase (hw.given k hk).1
  | @bindGiven w k hgiven hphase =>
    have hown : own plugins w = .injected k := by
      unfold own
      rw [hgiven]
    rw [← hown]
    refine bind_inv hi (by rw [hphase]; rfl) fun hnone => ?_
    rw [hgiven] at hnone
    simp at hnone
  | @bindOpened w hphase =>
    have hw := hi.worker w
    have hnone : (plugins w).given = none := by
      rcases hg : (plugins w).given with _ | k
      · rfl
      · exact absurd hphase (hw.given k hg).1
    have hown : own plugins w = .opened w := by
      unfold own
      rw [hnone]
    rw [← hown]
    exact bind_inv hi (by rw [hphase]; rfl) fun _ => hw.opened (by rw [hphase]; rfl) hnone
  | @createTask t ht => exact createTask_inv hi ht
  | @leave w token exit hphase =>
    exact setPhase_inv hi (by rw [hphase]; rfl) (fun _ => (hi.worker w).opened (by rw [hphase]; rfl))
      fun _ _ => ⟨fun h => (by cases h), fun _ h => (by cases h)⟩
  | @unbind w token exit c hphase hreset => exact unbind_inv hi hphase hreset
  | @unbindFails w token exit hphase hreset =>
    obtain ⟨rfl, -⟩ := (hi.worker w).bound token (by rw [hphase]; rfl)
    have hcontext : (Token.mk (TaskId.worker w) (ambient w)).context = TaskId.worker w := rfl
    obtain ⟨c', hc', -, -⟩ := reset_own s.contexts hcontext
    rw [hreset] at hc'
    cases hc'
  | @close w exit hphase =>
    exact phase_inv hi false (by rw [hphase]; rfl) (fun h => (by cases h))
      fun k hk => absurd hphase (((hi.worker w).given k hk).2 exit)

/-- The states of a run. -/
def Reachable (plugins : ω → XmemoryPlugin κ) (ambient : ω → Option (Handle ω κ)) (s : State ω κ) : Prop :=
  Relation.ReflTransGen (Step plugins) (initial ambient) s

theorem reachable_inv (h : Reachable plugins ambient s) : Inv plugins ambient s := by
  induction h with
  | refl => exact initial_inv
  | tail _ hstep ih => exact step_inv ih hstep

end System

/-- **Workers never see each other's client**, at any moment of any interleaving. A task that descends from
a bound worker resolves that worker's handle; so does the worker itself while it is bound, and then the
client it opened is open; and when it has left, its context holds what it held before. -/
theorem workers_isolated {ω κ : Type} [DecidableEq ω] (plugins : ω → XmemoryPlugin κ)
    (ambient : ω → Option (Handle ω κ)) (s : State ω κ) (h : Reachable plugins ambient s) :
    (∀ n w, s.owner n = some w → s.resolve (.created n) = .ok (own plugins w)) ∧
    (∀ w, (s.phase w).token? ≠ none → s.resolve (.worker w) = .ok (own plugins w) ∧
      ((plugins w).given = none → s.isOpen w = true)) ∧
    ∀ w exit, s.phase w = .left exit → s.contexts (.worker w) = ambient w := by
  have hi := reachable_inv h
  refine ⟨fun n w hn => ?_, fun w hw => ?_, fun w exit hp => ?_⟩
  · unfold State.resolve
    rw [(hi.descends n w hn).2]
    rfl
  · obtain ⟨token, htoken⟩ := Option.ne_none_iff_exists'.mp hw
    refine ⟨?_, fun hnone => (hi.worker w).opened ?_ hnone⟩
    · unfold State.resolve
      rw [((hi.worker w).bound token htoken).2]
      rfl
    · rcases hp : s.phase w with _ | _ | t | ⟨t, e⟩ | e | e <;> rw [hp] at htoken <;> first | rfl | cases htoken
  · exact (hi.worker w).unbound (by rw [hp]; rfl)

/-- Two workers of one plugin that opens a client for each. -/
def sharedPlugin : Bool → XmemoryPlugin Unit := fun _ => { given := none }

/-- A worker opens its client and binds it. -/
def State.enter (s : State Bool Unit) (w : Bool) : State Bool Unit :=
  State.bind { s.setPhase w .opened with isOpen := Function.update s.isOpen w true } w (.opened w)

theorem reachable_enter {ambient : Bool → Option (Handle Bool Unit)} {s : State Bool Unit}
    (h : Reachable sharedPlugin ambient s) {w : Bool} (hp : s.phase w = .outside) :
    Reachable sharedPlugin ambient (s.enter w) :=
  (h.tail (.openInstance rfl hp)).tail (.bindOpened (setPhase_self s w .opened))

/-- The second worker binds its client between the first one's and the first one's activity task. -/
theorem workers_isolated_two :
    ((((initial fun _ => none).enter false).enter true).createTask (.worker false)).resolve (.created 0) =
      .ok (.opened false) := by
  have h0 : Reachable sharedPlugin (fun _ => none) (initial fun _ => none) := Relation.ReflTransGen.refl
  have h2 := reachable_enter (reachable_enter h0 (w := false) rfl) (w := true) rfl
  have h3 := h2.tail (.createTask (t := .worker false) trivial)
  exact (workers_isolated sharedPlugin (fun _ => none) _ h3).1 0 false rfl

end XmemoryTemporal.Plugin
