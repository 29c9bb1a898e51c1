import XmemoryTemporal.Execution
import XmemoryTemporal.ErrorContract
import XmemoryTemporal.Activities.Timeout

/-! # A write is not sent twice

Over all runs of a workflow, whatever its calls, the errors, losses and crashes. `CallInv` is the
invariant of a call: its coroutine is the one of its history, and the command at each place is the one the
coroutine issued there, attempted as its policy allows, each attempt having done no more than the
activity's code does. The first command is the write, and all later ones are polls and timers, so the
client calls of a call that write are those of the attempts at its first command. -/

namespace XmemoryTemporal.Execution.AtMostOnce

open XmemoryTemporal.Lib.Retry XmemoryTemporal.Config XmemoryTemporal.Dto XmemoryTemporal.Errors
open XmemoryTemporal.Activities XmemoryTemporal.WorkflowApi XmemoryTemporal.ErrorContract
open XmemoryTemporal.Activities.Timeout XmemoryTemporal.Execution

/-! ### What is counted -/

/-- The client calls made for a command. -/
def Scheduled.invocations : Scheduled → List ClientCall
  | .activity _ attempts => attempts.flatMap fun r => r.attempt.calls
  | .timer _ => []

/-- A client call that writes. -/
def isWrite (call : ClientCall) : Bool := call.method = .write ∨ call.method = .writeAsync

/-- The invocations of the client's `write` and `write_async` that a call caused. -/
def CallState.writes (s : CallState) : List ClientCall :=
  s.commands.flatMap fun cmd => (Scheduled.invocations cmd).filter isWrite

/-- An attempt that succeeded, or failed with an error of a type that is published as not to be retried. -/
def Final (r : AttemptRecord) : Prop :=
  r.fate = .reported ∧ ((∃ o, r.attempt.outcome = .ok o) ∨
    ∃ raised e, r.attempt.outcome = .error raised ∧ raised.error = .applicationError e ∧
      e.type ∈ nonRetryableTypes)

/-! ### Attempts -/

/-- An attempt at a request did no more than the activity's code does, and would report no other
outcome. -/
def Ran (req : Request) (r : AttemptRecord) : Prop :=
  ∃ config, r.attempt.calls <+: (runActivity config r.bound r.info req).calls ∧
    r.attempt.outcome = (runActivity config r.bound r.info req).outcome

theorem Ran.calls {req : Request} {r : AttemptRecord} (h : Ran req r) :
    r.attempt.calls.length ≤ 1 ∧ ∀ call ∈ r.attempt.calls, call.method = req.method := by
  obtain ⟨config, hcut, -⟩ := h
  have hlen := hcut.length_le
  rcases runActivity_cases config r.bound r.info req with ⟨-, h⟩ | ⟨-, h⟩ | ⟨T, h⟩
  · rw [h] at hcut
    rw [List.prefix_nil.mp hcut]
    exact ⟨Nat.zero_le 1, fun call hc => absurd hc List.not_mem_nil⟩
  · rw [h] at hcut
    rw [List.prefix_nil.mp hcut]
    exact ⟨Nat.zero_le 1, fun call hc => absurd hc List.not_mem_nil⟩
  · rw [h] at hlen hcut
    refine ⟨hlen, fun call hc => ?_⟩
    rw [List.mem_singleton.mp (hcut.subset hc), Request.call_method]

theorem Ran.silent {req : Request} {r : AttemptRecord} (h : Ran req r)
    (hnone : r.bound = none ∨ closeTimeout r.info = none) : r.attempt.calls = [] := by
  obtain ⟨config, hcut, -⟩ := h
  have hnil : (runActivity config r.bound r.info req).calls = [] := by
    rcases hb : r.bound with _ | client
    · rw [runActivity_unbound]
    · rcases hnone with hnone | hnone
      · rw [hb] at hnone
        simp at hnone
      · rw [runActivity_noDeadline client hnone]
  rw [hnil] at hcut
  exact List.prefix_nil.mp hcut

theorem produced_of_runActivity {config : XmemoryConfig} {bound : Option Client} {info : ActivityInfo}
    {req : Request} {raised : Raised} {e : ApplicationError}
    (h : (runActivity config bound info req).outcome = .error raised)
    (he : raised.error = .applicationError e) : Produced e := by
  rcases bound with _ | client
  · rw [runActivity_unbound] at h
    cases h
    cases he
    exact .unbound none _ rfl
  · rcases hc : closeTimeout info with _ | B
    · rw [runActivity_noDeadline client hc] at h
      cases h
      cases he
      exact .noDeadline config info _ (clientTimeout_noDeadline config hc)
    · have hT : clientTimeout config info = .ok _ := clientTimeout_ok_iff.mpr ⟨B, hc, rfl⟩
      rw [runActivity_called rfl hT] at h
      set T := clientTimeoutSeconds B.totalSeconds config.clientMarginSeconds
      rcases ha : client.answer (req.call config T) req with exc | o
      · rw [ha] at h
        have hraised : raiseFromNone exc = raised := Except.error.inj h
        rw [← hraised] at he
        unfold raiseFromNone at he
        rcases hm : toApplicationError exc with err | e'
        · rw [hm] at he
          have herr : err = .applicationError e := he
          rw [toApplicationError_overflow hm] at herr
          simp at herr
        · rw [hm] at he
          cases he
          exact .mapped exc e hm
      · rw [ha] at h
        cases h

theorem Ran.not_again {req : Request} {r : AttemptRecord} (h : Ran req r) (hfinal : Final r) :
    ¬ r.again := by
  obtain ⟨config, -, houtcome⟩ := h
  obtain ⟨hreported, hfinal⟩ := hfinal
  rintro (hlost | ⟨-, raised, herr, hretry⟩)
  · rw [hreported] at hlost
    simp at hlost
  rcases hfinal with ⟨o, ho⟩ | ⟨raised', e, herr', he, htype⟩
  · rw [ho] at herr
    simp at herr
  · rw [herr'] at herr
    cases herr
    rw [herr'] at houtcome
    have hcontract := contract_of_produced (produced_of_runActivity houtcome.symm he)
    rw [he] at hretry
    have hfatal : e.nonRetryable = true := hcontract.verdict.mpr htype
    have hretry' : (!e.nonRetryable) = true := hretry
    rw [hfatal] at hretry'
    cases hretry'

/-! ### The invariant of a call -/

/-- A command issued by a coroutine, with what was done for it. -/
def Issued (c : WriteCall) (co : Coroutine) : Scheduled → Prop
  | .activity a attempts => nextCommand c co = some (.executeActivity a) ∧
      Attempted AttemptRecord.again (RetryPolicy.limit a.retryPolicy) attempts ∧
      ∀ r ∈ attempts, Ran a.request r
  | .timer d => nextCommand c co = some (.sleep d)

structure CallInv (c : WriteCall) (s : CallState) : Prop where
  memory : ∀ co, s.memory = some co → co = replay c s.history
  answered : s.history.length ≤ s.commands.length
  pending : s.commands.length ≤ s.history.length + 1
  issued : ∀ j cmd, s.commands[j]? = some cmd → Issued c (replay c (s.history.take j)) cmd

theorem issued_scheduled {c : WriteCall} {co : Coroutine} {cmd : Command}
    (h : nextCommand c co = some cmd) : Issued c co (scheduled cmd) := by
  cases cmd with
  | executeActivity a => exact ⟨h, attempted_nil, fun r hr => absurd hr List.not_mem_nil⟩
  | sleep d => exact h

variable {c : WriteCall} {s : CallState}

theorem CallInv.replaceLast (h : CallInv c s) {done : List Scheduled} {cmd cmd' : Scheduled}
    (hcommands : s.commands = done ++ [cmd])
    (hissued : ∀ co, Issued c co cmd → Issued c co cmd') :
    CallInv c { s with commands := done ++ [cmd'] } := by
  have hlen : (done ++ [cmd']).length = s.commands.length := by
    rw [hcommands, List.length_append, List.length_append]
    rfl
  refine ⟨h.memory, ?_, ?_, fun j d hd => ?_⟩
  · show s.history.length ≤ (done ++ [cmd']).length
    rw [hlen]
    exact h.answered
  · show (done ++ [cmd']).length ≤ s.history.length + 1
    rw [hlen]
    exact h.pending
  · have hd' : (done ++ [cmd'])[j]? = some d := hd
    show Issued c (replay c (s.history.take j)) d
    by_cases hj : j < done.length
    · rw [List.getElem?_append_left hj] at hd'
      refine h.issued j d ?_
      rw [hcommands, List.getElem?_append_left hj]
      exact hd'
    · have hjle : done.length ≤ j := by omega
      rw [List.getElem?_append_right hjle] at hd'
      obtain ⟨hzero, rfl⟩ : j - done.length = 0 ∧ cmd' = d := by
        rcases hz : j - done.length with _ | z
        · rw [hz] at hd'
          cases hd'
          exact ⟨rfl, rfl⟩
        · rw [hz] at hd'
          cases hd'
      refine hissued _ (h.issued j cmd ?_)
      rw [hcommands, List.getElem?_append_right hjle, hzero]
      rfl

theorem CallInv.answer (h : CallInv c s) (hfull : s.commands.length = s.history.length + 1) (ans : Answer) :
    CallInv c { s with
      history := s.history ++ [ans], memory := s.memory.map fun co => resume c co ans } := by
  have hlen : (s.history ++ [ans]).length = s.history.length + 1 := by
    rw [List.length_append]
    rfl
  refine ⟨fun co hco => ?_, ?_, ?_, fun j cmd hj => ?_⟩
  · have hco' : s.memory.map (fun co => resume c co ans) = some co := hco
    obtain ⟨co', hmem, rfl⟩ := Option.map_eq_some_iff.mp hco'
    rw [h.memory co' hmem]
    show _ = (s.history ++ [ans]).foldl (resume c) .starting
    rw [List.foldl_append]
    rfl
  · show (s.history ++ [ans]).length ≤ s.commands.length
    omega
  · show s.commands.length ≤ (s.history ++ [ans]).length + 1
    omega
  · have hjlt : j < s.commands.length := (List.getElem?_eq_some_iff.mp hj).1
    show Issued c (replay c ((s.history ++ [ans]).take j)) cmd
    rw [List.take_append_of_le_length (by omega)]
    exact h.issued j cmd hj

theorem CallInv.attempt (h : CallInv c s) {done : List Scheduled} {a : ExecuteActivity}
    {attempts : List AttemptRecord} {r : AttemptRecord}
    (hcommands : s.commands = done ++ [.activity a attempts])
    (hmay : MayAttempt AttemptRecord.again (RetryPolicy.limit a.retryPolicy) attempts)
    (hran : Ran a.request r) :
    CallInv c { s with commands := done ++ [.activity a (attempts ++ [r])] } := by
  refine h.replaceLast hcommands fun co hco => ?_
  obtain ⟨hnext, hattempted, hall⟩ := hco
  refine ⟨hnext, hattempted.attempt hmay r, fun q hq => ?_⟩
  rcases List.mem_append.mp hq with hq | hq
  · exact hall q hq
  · rw [List.mem_singleton.mp hq]
    exact hran

/-- **Every step of a call keeps its invariant.** -/
theorem callStep_inv {t : CallState} (h : CallInv c s) (hstep : CallStep c s t) : CallInv c t := by
  cases hstep with
  | @schedule co cmd hmem hnext hlen =>
    refine ⟨h.memory, ?_, ?_, fun j d hd => ?_⟩
    · show s.history.length ≤ (s.commands ++ [scheduled cmd]).length
      rw [List.length_append]
      omega
    · show (s.commands ++ [scheduled cmd]).length ≤ s.history.length + 1
      rw [List.length_append, hlen]
      exact Nat.le_refl _
    · have hd' : (s.commands ++ [scheduled cmd])[j]? = some d := hd
      by_cases hj : j < s.commands.length
      · rw [List.getElem?_append_left hj] at hd'
        exact h.issued j d hd'
      · have hjle : s.commands.length ≤ j := by omega
        rw [List.getElem?_append_right hjle] at hd'
        have hjeq : j = s.history.length ∧ scheduled cmd = d := by
          rcases hz : j - s.commands.length with _ | z
          · rw [hz] at hd'
            cases hd'
            exact ⟨by omega, rfl⟩
          · rw [hz] at hd'
            cases hd'
        obtain ⟨rfl, rfl⟩ := hjeq
        show Issued c (replay c (s.history.take s.history.length)) (scheduled cmd)
        rw [List.take_length, ← h.memory co hmem]
        exact issued_scheduled hnext
  | @attempt done a attempts config bound info hcommands hlen hmay =>
    exact h.attempt hcommands hmay ⟨config, List.prefix_refl _, rfl⟩
  | @attemptCrashes done a attempts config bound info calls hcommands hlen hmay hcut =>
    exact h.attempt hcommands hmay ⟨config, hcut, rfl⟩
  | @ends done a attempts r fate hcommands hlen hrunning =>
    refine h.replaceLast hcommands fun co hco => ?_
    obtain ⟨hnext, hattempted, hall⟩ := hco
    refine ⟨hnext, hattempted.replace, fun q hq => ?_⟩
    rcases List.mem_append.mp hq with hq | hq
    · exact hall q (List.mem_append_left _ hq)
    · rw [List.mem_singleton.mp hq]
      exact hall r (List.mem_append_right _ (List.mem_singleton.mpr rfl))
  | @deliver done a attempts ans hcommands hlen hanswers =>
    refine h.answer ?_ ans
    rw [hcommands, List.length_append, hlen]
    rfl
  | @fire done d suggested hcommands hlen =>
    refine h.answer ?_ (.fired suggested)
    rw [hcommands, List.length_append, hlen]
    rfl
  | recompute =>
    refine ⟨fun co hco => ?_, h.answered, h.pending, h.issued⟩
    cases hco
    rfl

/-! ### Runs -/

theorem initial_inv (c : WriteCall) : CallInv c { memory := none, history := [], commands := [] } where
  memory co h := by cases h
  answered := Nat.le_refl _
  pending := Nat.zero_le _
  issued j cmd h := by cases h

theorem reachable_inv {ι : Type} [DecidableEq ι] {calls : ι → WriteCall} {s : State ι}
    (h : Reachable calls s) (i : ι) : CallInv (calls i) (s i) := by
  induction h with
  | refl => exact initial_inv (calls i)
  | @tail t u _ hstep ih =>
    cases hstep with
    | @call j v hcall =>
      by_cases hij : i = j
      · subst hij
        rw [Function.update_self]
        exact callStep_inv ih hcall
      · rw [Function.update_of_ne hij]
        exact ih
    | crash => exact ⟨fun co hco => (by cases hco), ih.answered, ih.pending, ih.issued⟩

/-! ### What a call sends -/

theorem resume_ne_starting (c : WriteCall) (co : Coroutine) (ans : Answer) :
    resume c co ans ≠ .starting := by
  intro h
  unfold resume at h
  split at h
  · unfold afterEnqueue at h
    split at h
    · split at h <;> cases h
    · simp at h
  · split at h <;> cases h
  · split at h <;> cases h
  · simp at h
  · simp at h

theorem replay_ne_starting (c : WriteCall) {history : List Answer} (h : history ≠ []) :
    replay c history ≠ .starting := by
  obtain ⟨answers, ans, rfl⟩ := (List.eq_nil_or_concat history).resolve_left h
  unfold replay
  rw [List.concat_eq_append, List.foldl_append]
  exact resume_ne_starting c _ ans

theorem CallInv.first (h : CallInv c s) {a : ExecuteActivity} {attempts : List AttemptRecord}
    (hcmd : s.commands[0]? = some (.activity a attempts)) :
    a = c.command ∧ Attempted AttemptRecord.again (RetryPolicy.limit a.retryPolicy) attempts ∧
      ∀ r ∈ attempts, Ran a.request r := by
  obtain ⟨hnext, hattempted, hran⟩ := h.issued 0 _ hcmd
  have hstart : nextCommand c (replay c (s.history.take 0)) = some (.executeActivity c.command) := rfl
  rw [hstart] at hnext
  cases hnext
  exact ⟨rfl, hattempted, hran⟩

theorem CallInv.later (h : CallInv c s) {j : ℕ} {a : ExecuteActivity} {attempts : List AttemptRecord}
    (hcmd : s.commands[j + 1]? = some (.activity a attempts)) :
    a.request.method = .writeStatus ∧ ∀ r ∈ attempts, Ran a.request r := by
  obtain ⟨hnext, -, hran⟩ := h.issued (j + 1) _ hcmd
  have hlen : j + 1 < s.commands.length := (List.getElem?_eq_some_iff.mp hcmd).1
  have hpending := h.pending
  have hne : s.history.take (j + 1) ≠ [] := by
    intro hnil
    have hzero := congrArg List.length hnil
    rw [List.length_take] at hzero
    have hmin : min (j + 1) s.history.length = 0 := hzero
    omega
  have hstarted := replay_ne_starting c hne
  refine ⟨?_, hran⟩
  rcases hco : replay c (s.history.take (j + 1)) with _ | l | l | o
  · exact absurd hco hstarted
  · rw [hco] at hnext
    cases hnext
    rfl
  · rw [hco] at hnext
    cases hnext
  · rw [hco] at hnext
    cases hnext

theorem CallInv.later_writes (h : CallInv c s) {j : ℕ} {cmd : Scheduled}
    (hcmd : s.commands[j + 1]? = some cmd) : (Scheduled.invocations cmd).filter isWrite = [] := by
  rcases cmd with ⟨a, attempts⟩ | d
  · obtain ⟨hmethod, hran⟩ := h.later hcmd
    rw [List.filter_eq_nil_iff]
    intro call hcall
    obtain ⟨r, hr, hmem⟩ := List.mem_flatMap.mp hcall
    have hcallMethod := (hran r hr).calls.2 call hmem
    rw [hmethod] at hcallMethod
    unfold isWrite
    rw [hcallMethod]
    decide
  · rfl

/-- **What a call writes, the attempts at its first command write.** -/
theorem CallInv.writes_eq (h : CallInv c s) :
    CallState.writes s = ((s.commands.head?.map Scheduled.invocations).getD []).filter isWrite := by
  unfold CallState.writes
  rcases hc : s.commands with _ | ⟨first, rest⟩
  · rfl
  · have hrest : (rest.flatMap fun cmd => (Scheduled.invocations cmd).filter isWrite) = [] := by
      rw [List.flatMap_eq_nil_iff]
      intro cmd hmem
      obtain ⟨j, hj⟩ := List.mem_iff_getElem?.mp hmem
      refine h.later_writes (j := j) ?_
      rw [hc, List.getElem?_cons_succ]
      exact hj
    rw [List.flatMap_cons, hrest, List.append_nil]
    rfl

theorem CallInv.writes_le (h : CallInv c s) {n : ℕ} (hn : 1 ≤ n)
    (hlimit : c.command.retryPolicy.maximumAttempts = n) : (CallState.writes s).length ≤ n := by
  rw [h.writes_eq]
  rcases hc : s.commands with _ | ⟨first, rest⟩
  · exact Nat.zero_le n
  · rcases first with ⟨a, attempts⟩ | d
    · obtain ⟨rfl, hattempted, hran⟩ := h.first (by rw [hc]; rfl)
      have hsome : RetryPolicy.limit c.command.retryPolicy = some n := by
        unfold RetryPolicy.limit
        rw [hlimit, if_neg (by omega)]
      have hle := hattempted.effects_le hsome (fun r => r.attempt.calls) fun r hr => (hran r hr).calls.1
      exact Nat.le_trans (List.length_filter_le _ _) hle
    · exact Nat.zero_le n

theorem command_retryPolicy (c : WriteCall) : c.command.retryPolicy = c.handle.writeRetry := by
  cases c <;> rfl

/-- **A write is never sent twice by default**, in any run: a call through a handle with the default write
policy writes at most once, one whose policy allows `n` attempts at most `n` times; no attempt follows one
that succeeded or failed with a published non-retryable type; all that is done after the first command is
polling; and an attempt that finds no client or no deadline sends nothing. -/
theorem write_at_most_once {ι : Type} [DecidableEq ι] (calls : ι → WriteCall) (s : State ι)
    (h : Reachable calls s) (i : ι) :
    (∀ o : HandleOptions, (calls i).handle = xmemoryForWorkflow o → o.writeRetryPolicy = none →
      (CallState.writes (s i)).length ≤ 1) ∧
    (∀ n, 1 ≤ n → (calls i).handle.writeRetry.maximumAttempts = n →
      (CallState.writes (s i)).length ≤ n) ∧
    (∀ a pre r post, (s i).commands[0]? = some (.activity a (pre ++ r :: post)) → Final r → post = []) ∧
    (∀ j a attempts, (s i).commands[j + 1]? = some (.activity a attempts) →
      ∀ r ∈ attempts, ∀ call ∈ r.attempt.calls, call.method = .writeStatus) ∧
    ∀ (j : ℕ) a attempts, (s i).commands[j]? = some (.activity a attempts) → ∀ r ∈ attempts,
      r.bound = none ∨ closeTimeout r.info = none → r.attempt.calls = [] := by
  have hi := reachable_inv h i
  refine ⟨fun o hhandle hnone => ?_, fun n hn hmax => ?_, fun a pre r post hcmd hfinal => ?_,
    fun j a attempts hcmd r hr call hcall => ?_, fun j a attempts hcmd r hr hsilent => ?_⟩
  · refine hi.writes_le (Nat.le_refl 1) ?_
    rw [command_retryPolicy, hhandle]
    unfold xmemoryForWorkflow
    rw [hnone]
    rfl
  · refine hi.writes_le hn ?_
    rw [command_retryPolicy]
    exact hmax
  · obtain ⟨-, hattempted, hran⟩ := hi.first hcmd
    have hr := hran r (List.mem_append_right _ List.mem_cons_self)
    exact hattempted.last (hr.not_again hfinal)
  · obtain ⟨hmethod, hran⟩ := hi.later hcmd
    rw [← hmethod]
    exact (hran r hr).calls.2 call hcall
  · exact ((hi.issued j _ hcmd).2.2 r hr).silent hsilent

/-- A workflow that makes one write, through a handle with the default policy. -/
def oneWrite : Unit → WriteCall := fun _ => .write defaultHandle {}

/-- An attempt of it, with the default deadline. -/
def oneWriteInfo : ActivityInfo := infoOf (.write {}) defaultHandle.writeTimeout

/-- The first attempt, in progress, has called the client, and no other will. -/
theorem write_at_most_once_default :
    ∃ s : State Unit, Reachable oneWrite s ∧ CallState.writes (s ()) ≠ [] ∧
      (CallState.writes (s ())).length ≤ 1 := by
  have h0 : Reachable oneWrite (initial Unit) := Relation.ReflTransGen.refl
  have h1 := h0.tail (.call (i := ()) .recompute)
  have h2 := h1.tail (.call (i := ()) (.schedule rfl rfl rfl))
  have hmay : MayAttempt AttemptRecord.again (RetryPolicy.limit defaultWriteRetry) [] := by
    refine ⟨fun n hn => ?_, fun r hr => (by cases hr)⟩
    cases hn
    exact Nat.zero_lt_one
  have h3 := h2.tail (.call (i := ()) (.attempt {} (some idleClient) oneWriteInfo
    (show _ = ([] : List Scheduled) ++ [_] from rfl) rfl hmay))
  exact ⟨_, h3, fun h => (by cases h), (write_at_most_once oneWrite _ h3 ()).1 {} rfl rfl⟩

end XmemoryTemporal.Execution.AtMostOnce
