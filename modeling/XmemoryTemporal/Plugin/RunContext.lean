import XmemoryTemporal.Plugin.Lifecycle
import XmemoryTemporal.ClientFactory

/-! # The run context of a worker

`runContext` is the program of one worker: it opens a client, unless its plugin was given a handle, binds
the handle, runs the body of the worker, unbinds and closes. The package of the client may raise at each
call, and the body however it likes. The system of all workers follows it (`follows_runContext`), by the
steps this worker takes there; so what holds over all interleavings is about this program. -/

namespace XmemoryTemporal.Plugin.RunContext

open Relation XmemoryTemporal.Lib.ContextVar XmemoryTemporal.Lib.Cleanup XmemoryTemporal.ClientFactory
open XmemoryTemporal.Plugin.Lifecycle

/-- What a run context can raise: the `ValueError` of a missing key, what the package of the client or the
body raises, and the `ValueError` for the token of another context. -/
inductive WorkerError (ε : Type) where
  | apiKeyNotFound (e : ApiKeyNotFound)
  | raised (e : ε)
  | tokenRefused

/-- The state of the process: the contexts of its tasks, how many were created, and with what each worker's
client was constructed, from its `__aenter__` to its `__aexit__`. -/
structure Process (ω κ τ : Type) where
  contexts : Contexts (TaskId ω) (Handle ω κ)
  created : ℕ
  clients : ω → Option (ClientKwargs τ)

/-- The arguments of `XmemoryPlugin`, less those of its activities and interceptors. -/
structure PluginArgs (κ τ : Type) where
  config : WorkerConfig
  apiKey : Option String := none
  httpClient : Option τ := none
  given : Option κ := none

section Programs
variable {ω κ τ ε α : Type} [DecidableEq ω]

/-- A call of the package. -/
def call (o : Except ε Unit) : Program (Process ω κ τ) (WorkerError ε) Unit := fun p =>
  match o with
  | .ok () => (.ok (), p)
  | .error e => (.error (.raised e), p)

/-- `token = activities.bind(instance)` -/
def bind (w : ω) (h : Handle ω κ) :
    Program (Process ω κ τ) (WorkerError ε) (Token (TaskId ω) (Handle ω κ)) := fun p =>
  (.ok (p.contexts.set (.worker w) h).2, { p with contexts := (p.contexts.set (.worker w) h).1 })

/-- `activities.unbind(token)` -/
def unbind (w : ω) (token : Token (TaskId ω) (Handle ω κ)) :
    Program (Process ω κ τ) (WorkerError ε) Unit := fun p =>
  match p.contexts.reset (.worker w) token with
  | some c => (.ok (), { p with contexts := c })
  | none => (.error .tokenRefused, p)

/-- `_bound`: the body, with the handle bound. -/
def bound (w : ω) (h : Handle ω κ) (body : Program (Process ω κ τ) (WorkerError ε) α) :
    Program (Process ω κ τ) (WorkerError ε) α :=
  (bind w h).andThen fun token => body.finallyDo (unbind w token)

/-- `AsyncXmemoryClient.__aenter__` -/
def aenter (lib : ClientLibrary ε τ) (w : ω) (kwargs : ClientKwargs τ) :
    Program (Process ω κ τ) (WorkerError ε) Unit :=
  (call lib.aenter).andThen fun _ p =>
    (.ok (), { p with clients := Function.update p.clients w (some kwargs) })

/-- `AsyncXmemoryClient.__aexit__` -/
def aexit (lib : ClientLibrary ε τ) (w : ω) : Program (Process ω κ τ) (WorkerError ε) Unit := fun p =>
  call lib.aexit { p with clients := Function.update p.clients w none }

/-- The arguments of the client. -/
def resolve (plugin : PluginArgs κ τ) (environ : Environ) :
    Program (Process ω κ τ) (WorkerError ε) (ClientKwargs τ) := fun p =>
  match clientKwargs plugin.config environ plugin.apiKey plugin.httpClient with
  | .ok kwargs => (.ok kwargs, p)
  | .error e => (.error (.apiKeyNotFound e), p)

/-- What `open_instance` does until the client is open. -/
def enterClient (plugin : PluginArgs κ τ) (lib : ClientLibrary ε τ) (environ : Environ) (w : ω) :
    Program (Process ω κ τ) (WorkerError ε) Unit :=
  (call lib.imported).andThen fun _ => (resolve plugin environ).andThen fun kwargs =>
    (call (lib.construct kwargs)).andThen fun _ => aenter lib w kwargs

/-- `open_instance`, with what is done in its block. -/
def openInstance (plugin : PluginArgs κ τ) (lib : ClientLibrary ε τ) (environ : Environ) (w : ω)
    (block : Handle ω κ → Program (Process ω κ τ) (WorkerError ε) α) :
    Program (Process ω κ τ) (WorkerError ε) α :=
  (enterClient plugin lib environ w).andThen fun _ =>
    ((call (lib.getInstance plugin.config.instanceId)).andThen fun _ => block (.opened w)).finallyDo
      (aexit lib w)

/-- `_run_context`: `_bound` for a given handle, `_opened` else. -/
def runContext (plugin : PluginArgs κ τ) (lib : ClientLibrary ε τ) (environ : Environ) (w : ω)
    (body : Program (Process ω κ τ) (WorkerError ε) α) : Program (Process ω κ τ) (WorkerError ε) α :=
  match plugin.given with
  | some k => bound w (.injected k) body
  | none => openInstance plugin lib environ w fun h => bound w h body

end Programs

/-! ### The system follows -/

section Follows
variable {ω κ τ ε α : Type} [DecidableEq ω] {plugins : ω → XmemoryPlugin κ}
  {ambient : ω → Option (Handle ω κ)} {w : ω} {plugin : PluginArgs κ τ} {lib : ClientLibrary ε τ}
  {environ : Environ} {p : Process ω κ τ} {s : State ω κ}

/-- The state of the system is that of the process. -/
structure Sees (p : Process ω κ τ) (s : State ω κ) : Prop where
  contexts : s.contexts = p.contexts
  created : s.created = p.created
  isOpen : ∀ v, s.isOpen v = (p.clients v).isSome

/-- The worker is in a phase, in a state that the system can be in. -/
structure At (plugins : ω → XmemoryPlugin κ) (ambient : ω → Option (Handle ω κ)) (w : ω) (ph : Phase ω κ)
    (p : Process ω κ τ) (s : State ω κ) : Prop where
  reachable : Reachable plugins ambient s
  sees : Sees p s
  phase : s.phase w = ph

/-- A step that is none of the worker's run context: another worker's, or the creation of a task. -/
def Elsewhere (plugins : ω → XmemoryPlugin κ) (w : ω) (s s' : State ω κ) : Prop :=
  Step plugins s s' ∧ s'.phase w = s.phase w

/-- A body: whatever it does, the system can do by steps elsewhere. -/
def IsBody (plugins : ω → XmemoryPlugin κ) (ambient : ω → Option (Handle ω κ)) (w : ω)
    (body : Program (Process ω κ τ) (WorkerError ε) α) : Prop :=
  ∀ p s, Reachable plugins ambient s → Sees p s → (s.phase w).token? ≠ none →
    ∃ s', ReflTransGen (Elsewhere plugins w) s s' ∧ Sees (body p).2 s'

/-- What the body finds: its handle bound, and its own client open, which was constructed properly. -/
structure Entered (plugin : PluginArgs κ τ) (environ : Environ) (w : ω) (p : Process ω κ τ) : Prop where
  handle : p.contexts (.worker w) = some (match plugin.given with | some k => .injected k | none => .opened w)
  client : plugin.given = none → ∃ kwargs, p.clients w = some kwargs ∧
    Proper plugin.config environ plugin.apiKey plugin.httpClient kwargs

/-- The outcome is that of the body, which was run from a state it is to be run from. -/
def Ran (plugin : PluginArgs κ τ) (environ : Environ) (w : ω)
    (body : Program (Process ω κ τ) (WorkerError ε) α) (o : Except (WorkerError ε) α) : Prop :=
  ∃ q, Entered plugin environ w q ∧ (body q).1 = o

/-- What the closing of the client makes of the outcome. -/
def closing (plugin : PluginArgs κ τ) (lib : ClientLibrary ε τ) : Except (WorkerError ε) Unit :=
  match plugin.given with
  | some _ => .ok ()
  | none => lib.aexit.mapError .raised

/-- How the block of the handle ended. -/
def exitOf : Except (WorkerError ε) α → Exit
  | .ok _ => .normal
  | .error _ => .exception

/-- How a run context ends: it could not open the client, and nothing has changed; or the body was run, and
its outcome is that of the body and of the closing. -/
def Ended (plugin : PluginArgs κ τ) (lib : ClientLibrary ε τ) (environ : Environ) (w : ω)
    (body : Program (Process ω κ τ) (WorkerError ε) α) (p₀ : Process ω κ τ) (exit : Exit)
    (o : Except (WorkerError ε) α) (p : Process ω κ τ) : Prop :=
  (plugin.given = none ∧ p = p₀ ∧ exit = .exception ∧ ∃ e, o = .error e) ∨
    ∃ o', Ran plugin environ w body o' ∧ exit = exitOf o' ∧ o = after o' (closing plugin lib)

theorem At.setPhase {ph ph' : Phase ω κ} (h : At plugins ambient w ph p s)
    (hstep : Step plugins s (s.setPhase w ph')) : At plugins ambient w ph' p (s.setPhase w ph') where
  reachable := h.reachable.tail hstep
  sees := ⟨h.sees.contexts, h.sees.created, h.sees.isOpen⟩
  phase := setPhase_self s w ph'

theorem elsewhere_run {s' : State ω κ} (h : ReflTransGen (Elsewhere plugins w) s s') :
    ReflTransGen (Step plugins) s s' ∧ s'.phase w = s.phase w := by
  induction h with
  | refl => exact ⟨.refl, rfl⟩
  | tail _ hstep ih => exact ⟨ih.1.tail hstep.1, hstep.2.trans ih.2⟩

theorem At.no_client (h : At plugins ambient w .outside p s) : p.clients w = none := by
  have hclosed : s.isOpen w = false := by
    rw [Bool.eq_false_iff, ne_eq, isOpen_iff h.reachable, h.phase]
    rintro ⟨-, hholds⟩
    cases hholds
  rw [h.sees.isOpen w] at hclosed
  exact Option.not_isSome_iff_eq_none.mp (Bool.eq_false_iff.mp hclosed)

/-! Entering -/

/-- The run context is yet to be entered, in the process `p₀`. -/
def Outside (plugins : ω → XmemoryPlugin κ) (ambient : ω → Option (Handle ω κ)) (w : ω)
    (p₀ p : Process ω κ τ) (s : State ω κ) : Prop :=
  p = p₀ ∧ At plugins ambient w .outside p s

/-- The process with the client of the worker open. -/
def withClient (p₀ : Process ω κ τ) (w : ω) (kwargs : ClientKwargs τ) : Process ω κ τ :=
  { p₀ with clients := Function.update p₀.clients w (some kwargs) }

/-- Its client is open, and nothing else has changed. -/
def Opened (plugins : ω → XmemoryPlugin κ) (ambient : ω → Option (Handle ω κ)) (plugin : PluginArgs κ τ)
    (environ : Environ) (w : ω) (p₀ p : Process ω κ τ) (s : State ω κ) : Prop :=
  At plugins ambient w .opened p s ∧ ∃ kwargs, p = withClient p₀ w kwargs ∧
    Proper plugin.config environ plugin.apiKey plugin.httpClient kwargs

/-- The worker has left, with an exception, before there was a client. -/
def Failed (plugins : ω → XmemoryPlugin κ) (ambient : ω → Option (Handle ω κ)) (w : ω)
    (p₀ p : Process ω κ τ) (s : State ω κ) : Prop :=
  p = p₀ ∧ At plugins ambient w (.left .exception) p s

/-- The value of the part of `open_instance` that was run satisfies `K`, or the worker has left. -/
def Stage (plugins : ω → XmemoryPlugin κ) (ambient : ω → Option (Handle ω κ)) (w : ω)
    (p₀ : Process ω κ τ) (K : α → Process ω κ τ → State ω κ → Prop) (o : Except (WorkerError ε) α)
    (p : Process ω κ τ) (s : State ω κ) : Prop :=
  (∃ v, o = .ok v ∧ K v p s) ∨ (∃ e, o = .error e) ∧ Failed plugins ambient w p₀ p s

variable {p₀ : Process ω κ τ}

theorem follows_before (hnone : (plugins w).given = none) {x : Program (Process ω κ τ) (WorkerError ε) α}
    {K : α → Prop} (hx : ∀ p, (x p).2 = p) (hK : ∀ p v, (x p).1 = .ok v → K v) :
    Follows (Step plugins) (Outside plugins ambient w p₀) x
      (Stage plugins ambient w p₀ fun v p s => K v ∧ Outside plugins ambient w p₀ p s) := by
  rintro p s ⟨rfl, hat⟩
  rw [hx p]
  rcases ho : (x p).1 with e | v
  · have hstep : Step plugins s (s.setPhase w (.left .exception)) := .openFails hnone hat.phase
    exact ⟨_, .single hstep, Or.inr ⟨⟨e, rfl⟩, rfl, hat.setPhase hstep⟩⟩
  · exact ⟨s, .refl, Or.inl ⟨v, rfl, hK p v ho, rfl, hat⟩⟩

theorem follows_stage {β : Type} {x : Program (Process ω κ τ) (WorkerError ε) α}
    {f : α → Program (Process ω κ τ) (WorkerError ε) β} {K : α → Process ω κ τ → State ω κ → Prop}
    {L : β → Process ω κ τ → State ω κ → Prop} {P : Process ω κ τ → State ω κ → Prop}
    (hx : Follows (Step plugins) P x (Stage plugins ambient w p₀ K))
    (hf : ∀ v, Follows (Step plugins) (K v) (f v) (Stage plugins ambient w p₀ L)) :
    Follows (Step plugins) P (x.andThen f) (Stage plugins ambient w p₀ L) := by
  refine hx.andThen (fun v => (hf v).mono (fun p s h => ?_) fun _ _ _ h => h) fun e p s h => ?_
  · rcases h with ⟨u, hu, hK⟩ | ⟨⟨e, he⟩, -⟩
    · injection hu with hu
      rw [hu]
      exact hK
    · cases he
  · rcases h with ⟨u, hu, -⟩ | ⟨-, hfailed⟩
    · cases hu
    · exact Or.inr ⟨⟨e, rfl⟩, hfailed⟩

omit [DecidableEq ω] in
theorem call_state (o : Except ε Unit) (p : Process ω κ τ) :
    (call o p : Except (WorkerError ε) Unit × Process ω κ τ).2 = p := by
  rcases o with e | u <;> rfl

theorem follows_call (hnone : (plugins w).given = none) (o : Except ε Unit) :
    Follows (Step plugins) (Outside plugins ambient w p₀) (call o)
      (Stage plugins ambient w p₀ fun _ => Outside plugins ambient w p₀) := by
  have h : Follows (Step plugins) (Outside plugins ambient w p₀) (call o) _ :=
    follows_before hnone (K := fun _ => True) (call_state o) fun _ _ _ => trivial
  refine h.mono (fun _ _ hp => hp) fun o p s hs => ?_
  rcases hs with ⟨v, hv, -, hout⟩ | hfailed
  · exact Or.inl ⟨v, hv, hout⟩
  · exact Or.inr hfailed

theorem follows_resolve (hnone : (plugins w).given = none) : Follows (Step plugins)
    (Outside plugins ambient w p₀) (resolve plugin environ : Program _ (WorkerError ε) _)
    (Stage plugins ambient w p₀ fun kwargs p s =>
      Proper plugin.config environ plugin.apiKey plugin.httpClient kwargs ∧
        Outside plugins ambient w p₀ p s) := by
  refine follows_before hnone (fun p => ?_) fun p kwargs h => ?_
  · unfold resolve
    rcases clientKwargs plugin.config environ plugin.apiKey plugin.httpClient with e | kwargs <;> rfl
  · unfold resolve at h
    rcases hk : clientKwargs plugin.config environ plugin.apiKey plugin.httpClient with e | found
    · simp only [hk] at h
      cases h
    · simp only [hk] at h
      injection h with h
      rw [← h]
      exact clientKwargs_ok hk

theorem follows_aenter (hnone : (plugins w).given = none) {kwargs : ClientKwargs τ}
    (hproper : Proper plugin.config environ plugin.apiKey plugin.httpClient kwargs) :
    Follows (Step plugins) (Outside plugins ambient w p₀) (aenter lib w kwargs)
      (Stage plugins ambient w p₀ fun _ => Opened plugins ambient plugin environ w p₀) := by
  refine follows_stage (follows_call hnone lib.aenter) fun _ => ?_
  rintro p s ⟨rfl, hat⟩
  have hstep : Step plugins s { s.setPhase w .opened with isOpen := Function.update s.isOpen w true } :=
    .openInstance hnone hat.phase
  refine ⟨_, .single hstep, Or.inl ⟨(), rfl, ⟨hat.reachable.tail hstep, ?_, ?_⟩, kwargs, rfl, hproper⟩⟩
  · refine ⟨hat.sees.contexts, hat.sees.created, fun v => ?_⟩
    by_cases hv : v = w
    · subst hv
      simp
    · simp [Function.update_of_ne hv, hat.sees.isOpen v]
  · exact setPhase_self s w .opened

theorem follows_enterClient (hnone : (plugins w).given = none) :
    Follows (Step plugins) (Outside plugins ambient w p₀) (enterClient plugin lib environ w)
      (Stage plugins ambient w p₀ fun _ => Opened plugins ambient plugin environ w p₀) := by
  refine follows_stage (follows_call hnone lib.imported) fun _ => ?_
  refine follows_stage (follows_resolve hnone) fun kwargs => ?_
  rintro p s ⟨hproper, hout⟩
  refine follows_stage (follows_call hnone (lib.construct kwargs)) (fun _ => ?_) p s hout
  exact follows_aenter hnone hproper

/-! The block -/

variable {body : Program (Process ω κ τ) (WorkerError ε) α}

/-- The worker can bind its handle. -/
structure Binds (plugins : ω → XmemoryPlugin κ) (ambient : ω → Option (Handle ω κ)) (plugin : PluginArgs κ τ)
    (environ : Environ) (w : ω) (h : Handle ω κ) (p : Process ω κ τ) (s : State ω κ) : Prop where
  reachable : Reachable plugins ambient s
  sees : Sees p s
  step : Step plugins s (s.bind w h)
  handle : h = match plugin.given with | some k => .injected k | none => .opened w
  client : plugin.given = none → ∃ kwargs, p.clients w = some kwargs ∧
    Proper plugin.config environ plugin.apiKey plugin.httpClient kwargs

theorem follows_bind {h : Handle ω κ} :
    Follows (Step plugins) (Binds plugins ambient plugin environ w h) (bind w h : Program _ (WorkerError ε) _)
      fun o p s => ∃ token, o = .ok token ∧ At plugins ambient w (.bound token) p s ∧
        Entered plugin environ w p := by
  intro p s hb
  have hset : p.contexts = s.contexts := hb.sees.contexts.symm
  refine ⟨_, .single hb.step, _, rfl, ⟨hb.reachable.tail hb.step, ?_, ?_⟩, ?_, hb.client⟩
  · exact ⟨by simp only [bind, hset]; rfl, hb.sees.created, hb.sees.isOpen⟩
  · rw [hset]
    exact Function.update_self w _ s.phase
  · rw [← hb.handle]
    exact set_same

theorem follows_body (hbody : IsBody plugins ambient w body) (token : Token (TaskId ω) (Handle ω κ)) :
    Follows (Step plugins) (fun p s => At plugins ambient w (.bound token) p s ∧ Entered plugin environ w p)
      body fun o p s => At plugins ambient w (.bound token) p s ∧ Ran plugin environ w body o := by
  rintro p s ⟨hat, hentered⟩
  obtain ⟨s', hrun, hsees⟩ := hbody p s hat.reachable hat.sees (by rw [hat.phase]; simp [Phase.token?])
  obtain ⟨hsteps, hphase⟩ := elsewhere_run hrun
  refine ⟨s', hsteps, ⟨hat.reachable.trans hsteps, hsees, ?_⟩, p, hentered, rfl⟩
  rw [hphase, hat.phase]

theorem follows_unbind (token : Token (TaskId ω) (Handle ω κ)) (exit : Exit) : Follows (Step plugins)
    (At plugins ambient w (.bound token)) (unbind w token : Program (Process ω κ τ) (WorkerError ε) Unit)
    fun c p s => c = .ok () ∧ At plugins ambient w (afterBlock (plugins w) exit) p s := by
  intro p s hat
  have hleave : Step plugins s (s.setPhase w (.leaving token exit)) := .leave exit hat.phase
  have hleaving := hat.setPhase hleave
  set t := s.setPhase w (.leaving token exit) with ht
  obtain ⟨rfl, -⟩ := ((reachable_inv hleaving.reachable).worker w).bound token (by rw [hleaving.phase]; rfl)
  have hcontext : (Token.mk (TaskId.worker w) (ambient w)).context = TaskId.worker w := rfl
  obtain ⟨c, hreset, -⟩ := reset_own p.contexts hcontext
  have hreset' : t.contexts.reset (.worker w) { context := .worker w, old := ambient w } = some c := by
    rw [hleaving.sees.contexts]
    exact hreset
  have hstep : Step plugins t { t.setPhase w (afterBlock (plugins w) exit) with contexts := c } :=
    .unbind hleaving.phase hreset'
  have hunbind : (unbind w (Token.mk (TaskId.worker w) (ambient w)) p :
      Except (WorkerError ε) Unit × Process ω κ τ) = (.ok (), { p with contexts := c }) := by
    simp only [unbind, hreset]
  rw [hunbind]
  refine ⟨_, (ReflTransGen.single hleave).tail hstep, rfl, hleaving.reachable.tail hstep, ?_, ?_⟩
  · exact ⟨rfl, hleaving.sees.created, hleaving.sees.isOpen⟩
  · exact setPhase_self t w _

/-- **Bound and unbound**: the body is run in between, and its outcome is kept. -/
theorem follows_bound (hbody : IsBody plugins ambient w body) {h : Handle ω κ} :
    Follows (Step plugins) (Binds plugins ambient plugin environ w h) (bound w h body) fun o p s =>
      Ran plugin environ w body o ∧ At plugins ambient w (afterBlock (plugins w) (exitOf o)) p s := by
  have hinner : ∀ token, Follows (Step plugins)
      (fun p s => At plugins ambient w (.bound token) p s ∧ Entered plugin environ w p)
      (body.finallyDo (unbind w token)) fun o p s =>
        Ran plugin environ w body o ∧ At plugins ambient w (afterBlock (plugins w) (exitOf o)) p s := by
    intro token
    refine (follows_body hbody token).finallyDo fun o => ?_
    rintro p s ⟨hat, hran⟩
    obtain ⟨s', hrun, hc, hat'⟩ := follows_unbind (ε := ε) token (exitOf o) p s hat
    refine ⟨s', hrun, ?_⟩
    rw [hc]
    exact ⟨hran, hat'⟩
  refine follows_bind.andThen (fun token => (hinner token).mono (fun p s hp => ?_) fun _ _ _ h => h)
    fun e p s he => ?_
  · obtain ⟨token', htoken, hp'⟩ := hp
    injection htoken with htoken
    rw [htoken]
    exact hp'
  · obtain ⟨token, htoken, -⟩ := he
    cases htoken

theorem follows_block (hgiven : (plugins w).given = plugin.given) (hnone : plugin.given = none)
    (hbody : IsBody plugins ambient w body) :
    Follows (Step plugins) (Opened plugins ambient plugin environ w p₀)
      ((call (lib.getInstance plugin.config.instanceId)).andThen fun _ => bound w (.opened w) body)
      fun o p s => At plugins ambient w (.closing (exitOf o)) p s ∧
        (Ran plugin environ w body o ∨ (∃ e, o = .error e) ∧ ∃ kwargs, p = withClient p₀ w kwargs) := by
  rintro p s ⟨hat, kwargs, rfl, hproper⟩
  rcases hc : lib.getInstance plugin.config.instanceId with e | u
  · have hstep : Step plugins s (s.setPhase w (.closing .exception)) := .instanceFails hat.phase
    exact ⟨_, .single hstep, hat.setPhase hstep, Or.inr ⟨⟨_, rfl⟩, kwargs, rfl⟩⟩
  · have hbinds : Binds plugins ambient plugin environ w (.opened w) (withClient p₀ w kwargs) s := by
      refine ⟨hat.reachable, hat.sees, .bindOpened hat.phase, ?_, fun _ => ⟨kwargs, ?_, hproper⟩⟩
      · rw [hnone]
      · exact Function.update_self w _ p₀.clients
    obtain ⟨s', hrun, hran, hat'⟩ := follows_bound hbody _ s hbinds
    rw [afterBlock, hgiven, hnone] at hat'
    exact ⟨s', hrun, hat', Or.inl hran⟩

variable (lib) in
theorem follows_aexit (exit : Exit) : Follows (Step plugins) (At plugins ambient w (.closing exit))
    (aexit lib w) fun c p s => c = lib.aexit.mapError .raised ∧ At plugins ambient w (.left exit) p s := by
  intro p s hat
  have hstep : Step plugins s { s.setPhase w (.left exit) with isOpen := Function.update s.isOpen w false } :=
    .close hat.phase
  have hstate : (aexit lib w p).2 = { p with clients := Function.update p.clients w none } :=
    call_state lib.aexit _
  refine ⟨_, .single hstep, ?_, hat.reachable.tail hstep, ?_, setPhase_self s w _⟩
  · unfold aexit
    rcases lib.aexit with e | u <;> rfl
  · rw [hstate]
    refine ⟨hat.sees.contexts, hat.sees.created, fun v => ?_⟩
    by_cases hv : v = w
    · subst hv
      simp
    · simp [Function.update_of_ne hv, hat.sees.isOpen v]

theorem close_unentered (hno : p₀.clients w = none) (kwargs : ClientKwargs τ) :
    (aexit lib w (withClient p₀ w kwargs)).2 = p₀ := by
  have hstate : (aexit lib w (withClient p₀ w kwargs)).2 =
      { p₀ with clients := Function.update (Function.update p₀.clients w (some kwargs)) w none } :=
    call_state lib.aexit _
  rw [hstate, Function.update_idem, ← hno, Function.update_eq_self]

theorem follows_opened (hgiven : (plugins w).given = plugin.given) (hnone : plugin.given = none)
    (hbody : IsBody plugins ambient w body) (hno : p₀.clients w = none) :
    Follows (Step plugins) (Opened plugins ambient plugin environ w p₀)
      (((call (lib.getInstance plugin.config.instanceId)).andThen fun _ => bound w (.opened w) body).finallyDo
        (aexit lib w))
      fun o p s => ∃ exit, At plugins ambient w (.left exit) p s ∧ Ended plugin lib environ w body p₀ exit o p := by
  refine (follows_block hgiven hnone hbody).finallyDo fun o => ?_
  rintro p s ⟨hat, hblock⟩
  obtain ⟨s', hrun, hc, hat'⟩ := follows_aexit lib (exitOf o) p s hat
  refine ⟨s', hrun, exitOf o, hat', ?_⟩
  rcases hblock with hran | ⟨⟨e, rfl⟩, kwargs, rfl⟩
  · refine Or.inr ⟨o, hran, rfl, ?_⟩
    rw [hc, closing, hnone]
  · refine Or.inl ⟨hnone, close_unentered hno kwargs, rfl, ?_⟩
    rcases (aexit lib w (withClient p₀ w kwargs)).1 with e' | u
    · exact ⟨e', rfl⟩
    · exact ⟨e, rfl⟩

theorem follows_openInstance (hgiven : (plugins w).given = plugin.given) (hnone : plugin.given = none)
    (hbody : IsBody plugins ambient w body) (hno : p₀.clients w = none) :
    Follows (Step plugins) (Outside plugins ambient w p₀)
      (openInstance plugin lib environ w fun h => bound w h body)
      fun o p s => ∃ exit, At plugins ambient w (.left exit) p s ∧ Ended plugin lib environ w body p₀ exit o p := by
  unfold openInstance
  refine (follows_enterClient (by rw [hgiven, hnone])).andThen (fun _ => ?_) fun e p s he => ?_
  · refine (follows_opened hgiven hnone hbody hno).mono (fun p s hp => ?_) fun _ _ _ h => h
    rcases hp with ⟨v, -, hopened⟩ | ⟨⟨e, he⟩, -⟩
    · exact hopened
    · cases he
  · rcases he with ⟨v, hv, -⟩ | ⟨-, hp, hat⟩
    · cases hv
    · exact ⟨.exception, hat, Or.inl ⟨hnone, hp, rfl, e, rfl⟩⟩

variable (lib environ) in
/-- **The system follows a run context**, from a worker that has not entered to one that has left. -/
theorem follows_runContext (hgiven : (plugins w).given = plugin.given) (hbody : IsBody plugins ambient w body) :
    Follows (Step plugins) (Outside plugins ambient w p₀) (runContext plugin lib environ w body)
      fun o p s => ∃ exit, At plugins ambient w (.left exit) p s ∧ Ended plugin lib environ w body p₀ exit o p := by
  rintro p s ⟨rfl, hat⟩
  unfold runContext
  rcases hinst : plugin.given with _ | k
  · exact follows_openInstance hgiven hinst hbody hat.no_client p s ⟨rfl, hat⟩
  · have hbinds : Binds plugins ambient plugin environ w (.injected k) p s := by
      refine ⟨hat.reachable, hat.sees, .bindGiven (by rw [hgiven, hinst]) hat.phase, by rw [hinst], ?_⟩
      intro hnone
      rw [hinst] at hnone
      simp at hnone
    obtain ⟨s', hrun, hran, hat'⟩ := follows_bound hbody p s hbinds
    rw [afterBlock, hgiven, hinst] at hat'
    refine ⟨s', hrun, _, hat', Or.inr ⟨_, hran, rfl, ?_⟩⟩
    rw [closing, hinst]
    rfl

end Follows

/-- **A run context gives back what it took**, whatever the package of the client and the body do, and
whatever the other workers do meanwhile. Its run is one of the system of all workers, from a state in which
the worker has not entered to one in which it has left. Its task's context holds what it held before, and its
client is closed. Either no client could be opened, and nothing has changed, or the body was run, with the
worker's own handle bound and its client open; and then the outcome is that of the body, unless closing the
client raised. -/
theorem run_context {ω κ τ ε α : Type} [DecidableEq ω] (plugins : ω → XmemoryPlugin κ)
    (ambient : ω → Option (Handle ω κ)) (w : ω) (plugin : PluginArgs κ τ) (lib : ClientLibrary ε τ)
    (environ : Environ) (body : Program (Process ω κ τ) (WorkerError ε) α) (p : Process ω κ τ) (s : State ω κ)
    (hgiven : (plugins w).given = plugin.given) (hbody : IsBody plugins ambient w body)
    (hs : Reachable plugins ambient s) (hsees : Sees p s) (hout : s.phase w = .outside) :
    let r := runContext plugin lib environ w body p
    ∃ s' exit, ReflTransGen (Step plugins) s s' ∧ Sees r.2 s' ∧ s'.phase w = .left exit ∧
      r.2.contexts (.worker w) = p.contexts (.worker w) ∧ r.2.clients w = none ∧
      Ended plugin lib environ w body p exit r.1 r.2 := by
  intro r
  have hoff : Outside plugins ambient w p p s := ⟨rfl, hs, hsees, hout⟩
  obtain ⟨s', hrun, exit, hat, hended⟩ := follows_runContext lib environ hgiven hbody p s hoff
  have hbefore := ((reachable_inv hs).worker w).unbound (by rw [hout]; rfl)
  have hafter := ((reachable_inv hat.reachable).worker w).unbound (by rw [hat.phase]; rfl)
  refine ⟨s', exit, hrun, hat.sees, hat.phase, ?_, ?_, hended⟩
  · rw [← hat.sees.contexts, ← hsees.contexts, hafter, hbefore]
  · have hclosed : s'.isOpen w = false := by
      rw [Bool.eq_false_iff, ne_eq, isOpen_iff hat.reachable, hat.phase]
      rintro ⟨-, hholds⟩
      cases hholds
    rw [hat.sees.isOpen w] at hclosed
    exact Option.not_isSome_iff_eq_none.mp (Bool.eq_false_iff.mp hclosed)

/-- A body that starts an activity task. -/
def spawn {ω κ τ ε : Type} [DecidableEq ω] (w : ω) : Program (Process ω κ τ) (WorkerError ε) Unit := fun p =>
  (.ok (), { p with
    contexts := p.contexts.createTask (.worker w) (.created p.created)
    created := p.created + 1 })

theorem spawn_isBody {ω κ τ ε : Type} [DecidableEq ω] (plugins : ω → XmemoryPlugin κ)
    (ambient : ω → Option (Handle ω κ)) (w : ω) :
    IsBody plugins ambient w (spawn w : Program (Process ω κ τ) (WorkerError ε) Unit) := by
  intro p s _ hsees _
  have hstep : Step plugins s (s.createTask (.worker w)) := .createTask trivial
  refine ⟨_, .single ⟨hstep, rfl⟩, ?_, ?_, hsees.isOpen⟩
  · show s.contexts.createTask (.worker w) (.created s.created) = _
    rw [hsees.contexts, hsees.created]
    rfl
  · show s.created + 1 = p.created + 1
    rw [hsees.created]

/-- A package of the client that raises nothing. -/
def quietLibrary : ClientLibrary Unit Unit where
  imported := .ok ()
  construct _ := .ok ()
  aenter := .ok ()
  getInstance _ := .ok ()
  aexit := .ok ()

/-- No worker has entered, and there are no other tasks. -/
def freshProcess : Process Bool Unit Unit where
  contexts _ := none
  created := 0
  clients _ := none

/-- One of two workers, with a key in its environment. -/
theorem run_context_spawn :
    let r := runContext ({ config := { instanceId := "i1" } } : PluginArgs Unit Unit) quietLibrary
      (fun _ => some "key") false (spawn false) freshProcess
    r.2.contexts (.worker false) = none ∧ r.2.clients false = none := by
  intro r
  have hsees : Sees freshProcess (initial fun _ => none) := by
    refine ⟨?_, rfl, fun _ => rfl⟩
    ext t
    cases t <;> rfl
  obtain ⟨s', exit, -, -, -, hcontext, hclient, -⟩ := run_context sharedPlugin (fun _ => none) false
    ({ config := { instanceId := "i1" } } : PluginArgs Unit Unit) quietLibrary (fun _ => some "key")
    (spawn false) freshProcess _ rfl (spawn_isBody _ _ _) .refl hsees rfl
  exact ⟨hcontext, hclient⟩

end XmemoryTemporal.Plugin.RunContext
