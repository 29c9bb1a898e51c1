import XmemoryTemporal.WorkflowApi
import XmemoryTemporal.Activities.Timeout

/-! # The workflow facade as a stand-in for the client

A call of the facade schedules an activity, an attempt of it turns the activity's input into one client
call. `StandsIn` says that the caller's arguments survive both repackagings: the method, the subject, and
every option that was set, under its own name and with its own value.

It holds of every read and every status poll. A write loses its `diff_engine` when it is structured, and
an empty `extraction_logic` is taken for an unset one (`stands_in_iff`). -/

namespace XmemoryTemporal.Facade

open XmemoryTemporal.Python.Value XmemoryTemporal.Python.Time XmemoryTemporal.Config
open XmemoryTemporal.Dto XmemoryTemporal.Errors XmemoryTemporal.Activities XmemoryTemporal.WorkflowApi
open XmemoryTemporal.Activities.Timeout

/-- A call of the workflow-facing handle. -/
inductive FacadeCall where
  | read (a : ReadArgs)
  | write (a : WriteArgs)
  | writeAsyncStart (a : EnqueueArgs)
  | writeStatus (writeId : Option String)

/-- The activity the call schedules. -/
def FacadeCall.command (x : WorkflowXmemory) : FacadeCall → ExecuteActivity
  | read a => WorkflowApi.read x a
  | write a => WorkflowApi.write x a
  | writeAsyncStart a => WorkflowApi.writeAsyncStart x a
  | writeStatus writeId => WorkflowApi.writeStatus x writeId

/-- The client method the call stands for. -/
def FacadeCall.method : FacadeCall → Method
  | read _ => .read
  | write _ => .write
  | writeAsyncStart _ => .writeAsync
  | writeStatus _ => .writeStatus

/-- Its query, text or write id. -/
def FacadeCall.subject : FacadeCall → PyVal
  | read a => .str a.query
  | write a => .str a.text
  | writeAsyncStart a => .str a.text
  | writeStatus writeId => PyVal.ofStr? writeId

/-! ### The options -/

def scopeObjectOf : PyVal → Option ScopeObject
  | .dict [("type", .str type), ("key", .dict key)] => some { type, key }
  | _ => none

/-- The scope that a mapping stands for: the inverse of `scopeMapping`. -/
def scopeOf : PyVal → Option ReadScope
  | .dict [("objects", .list objects), ("relations_scope", .str relationsScope)] =>
    (objects.mapM scopeObjectOf).map fun objects => { objects, relationsScope }
  | _ => none

/-- The options of a read, as the keyword arguments of the client carry them. -/
structure ReadOptions (a : ReadArgs) (kwargs : List (String × PyVal)) : Prop where
  readMode : kwargs.lookup "read_mode" = a.readMode.map .str
  scope : (kwargs.lookup "scope").map scopeOf = a.scope.map some
  readId : kwargs.lookup "read_id" = a.readId.map .str
  only : ∀ name ∉ ["read_mode", "scope", "read_id"], kwargs.lookup name = none

/-- The options of a write: the logic is for the extractor, and falls back to the worker's. -/
structure WriteOptions (config : XmemoryConfig) (a : WriteArgs) (kwargs : List (String × PyVal)) :
    Prop where
  mutations : kwargs.lookup "structured_mutations" = a.structuredMutations.map .list
  diffEngine : kwargs.lookup "diff_engine" = a.diffEngine.map .bool
  logic : kwargs.lookup "extraction_logic" =
    if a.structuredMutations.isSome then none
    else some (.str (a.extractionLogic.getD config.defaultExtractionLogic))
  only : ∀ name ∉ ["structured_mutations", "diff_engine", "extraction_logic"], kwargs.lookup name = none

/-- The options of any call. -/
def OptionsReach (config : XmemoryConfig) (kwargs : List (String × PyVal)) : FacadeCall → Prop
  | .read a => ReadOptions a kwargs
  | .write a => WriteOptions config a kwargs
  | .writeAsyncStart a => WriteOptions config a.toWriteArgs kwargs
  | .writeStatus _ => kwargs = []

/-- An attempt of the activity makes the one client call that the facade call stands for. -/
def StandsIn (config : XmemoryConfig) (c : FacadeCall) (calls : List ClientCall) : Prop :=
  ∃ call, calls = [call] ∧ call.method = c.method ∧ call.arg = c.subject ∧
    OptionsReach config call.kwargs c

/-! ### What the activities make of them -/

theorem mapM_scopeObjectOf (objects : List ScopeObject) :
    (objects.map fun o => PyVal.dict [("type", .str o.type), ("key", .dict o.key)]).mapM scopeObjectOf =
      some objects := by
  induction objects with
  | nil => rfl
  | cons o objects ih =>
    rw [List.map_cons, List.mapM_cons, ih]
    rfl

/-- **A scope survives its mapping**: its objects with types and keys, in order, and the relations. -/
theorem scopeOf_scopeMapping (scope : ReadScope) : scopeOf (scopeMapping scope) = some scope := by
  unfold scopeMapping scopeOf
  simp only [mapM_scopeObjectOf, Option.map_some]

theorem lookup_kwarg (name key : String) (value : Option PyVal) (rest : List (String × PyVal)) :
    (kwarg name value ++ rest).lookup key =
      if key = name then value.or (rest.lookup key) else rest.lookup key := by
  cases value with
  | none => simp [kwarg]
  | some v =>
    by_cases h : key = name
    · simp [kwarg, h]
    · have hne : (key == name) = false := beq_eq_false_iff_ne.mpr h
      simp [kwarg, List.lookup_cons, h, hne]

theorem lookup_kwarg_last (name key : String) (value : Option PyVal) :
    (kwarg name value).lookup key = if key = name then value else none := by
  have h := lookup_kwarg name key value []
  rw [List.append_nil] at h
  rw [h]
  simp

theorem readKwargs_options (a : ReadArgs) :
    ReadOptions a
      (readKwargs { query := a.query, readMode := a.readMode, scope := a.scope, readId := a.readId }) := by
  unfold readKwargs
  refine ⟨?_, ?_, ?_, fun name hname => ?_⟩
  · rw [List.append_assoc, lookup_kwarg, lookup_kwarg, lookup_kwarg_last]
    simp
  · rw [List.append_assoc, lookup_kwarg, lookup_kwarg, lookup_kwarg_last]
    simp [Option.map_map, Function.comp_def, scopeOf_scopeMapping]
  · rw [List.append_assoc, lookup_kwarg, lookup_kwarg, lookup_kwarg_last]
    simp
  · simp only [List.mem_cons, List.not_mem_nil, or_false, not_or] at hname
    rw [List.append_assoc, lookup_kwarg, lookup_kwarg, lookup_kwarg_last]
    rw [if_neg hname.1, if_neg hname.2.1, if_neg hname.2.2]

/-- The condition under which a write keeps its options. -/
def KeepsOptions (config : XmemoryConfig) (a : WriteArgs) : Prop :=
  (a.structuredMutations.isSome → a.diffEngine = none) ∧
    (a.structuredMutations = none → a.extractionLogic = some "" → config.defaultExtractionLogic = "")

theorem logicOr_eq_iff (logic : Option String) (default : String) :
    logicOr logic default = logic.getD default ↔ (logic = some "" → default = "") := by
  rcases logic with _ | s
  · simp [logicOr]
  · by_cases h : s = ""
    · simp [logicOr, h]
    · simp [logicOr, h]

theorem writeKwargs_options_iff (config : XmemoryConfig) (a : WriteArgs) :
    WriteOptions config a (writeKwargs config a.input) ↔ KeepsOptions config a := by
  obtain ⟨text, logic, diff, mutations⟩ := a
  unfold KeepsOptions writeKwargs WriteArgs.input
  rcases mutations with _ | ms
  · constructor
    · intro h
      have hlogic := h.logic
      simp only [List.lookup_cons_self, Option.isSome_none, Bool.false_eq_true, if_false,
        Option.some.injEq, PyVal.str.injEq] at hlogic
      exact ⟨fun hs => (by cases hs), fun _ => (logicOr_eq_iff logic _).mp hlogic⟩
    · rintro ⟨-, h⟩
      have hlogic := (logicOr_eq_iff logic config.defaultExtractionLogic).mpr (h rfl)
      refine ⟨?_, ?_, ?_, fun name hname => ?_⟩
      · simp [List.lookup_cons, lookup_kwarg_last]
      · simp [List.lookup_cons, lookup_kwarg_last]
      · simp [hlogic]
      · simp only [List.mem_cons, List.not_mem_nil, or_false, not_or] at hname
        have hne : (name == "extraction_logic") = false := beq_eq_false_iff_ne.mpr hname.2.2
        simp only [List.lookup_cons, hne, lookup_kwarg_last]
        rw [if_neg hname.2.1]
  · constructor
    · intro h
      have hdiff := h.diffEngine
      refine ⟨fun _ => ?_, fun hnone => (by cases hnone)⟩
      rcases diff with _ | b
      · rfl
      · simp [List.lookup_cons] at hdiff
    · rintro ⟨h, -⟩
      have hdiff : diff = none := h rfl
      subst hdiff
      refine ⟨by simp, by simp [List.lookup_cons], by simp [List.lookup_cons], fun name hname => ?_⟩
      simp only [List.mem_cons, List.not_mem_nil, or_false, not_or] at hname
      have hne : (name == "structured_mutations") = false := beq_eq_false_iff_ne.mpr hname.1
      simp [List.lookup_cons, hne]

/-- The condition under which any call keeps its options. -/
def Keeps (config : XmemoryConfig) : FacadeCall → Prop
  | .read _ => True
  | .write a => KeepsOptions config a
  | .writeAsyncStart a => KeepsOptions config a.toWriteArgs
  | .writeStatus _ => True

theorem optionsReach_iff (config : XmemoryConfig) (x : WorkflowXmemory) (c : FacadeCall) (T : ℚ) :
    OptionsReach config ((c.command x).request.call config T).kwargs c ↔ Keeps config c := by
  cases c with
  | read a => exact iff_of_true (readKwargs_options a) trivial
  | write a => exact writeKwargs_options_iff config a
  | writeAsyncStart a => exact writeKwargs_options_iff config a.toWriteArgs
  | writeStatus writeId => exact iff_of_true rfl trivial

/-- **The facade stands in for the client** on every attempt that finds a client and a deadline, exactly
for the calls that set no `diff_engine` beside structured mutations and no empty extraction logic on a
text write. -/
theorem stands_in_iff (x : WorkflowXmemory) (config : XmemoryConfig) (client : Client)
    (info : ActivityInfo) (hdeadline : closeTimeout info ≠ none) (c : FacadeCall) :
    StandsIn config c (runActivity config (some client) info (c.command x).request).calls ↔
      Keeps config c := by
  obtain ⟨B, hB⟩ := Option.ne_none_iff_exists'.mp hdeadline
  have hT : clientTimeout config info = .ok _ := clientTimeout_ok_iff.mpr ⟨B, hB, rfl⟩
  rw [runActivity_called rfl hT]
  set T := clientTimeoutSeconds B.totalSeconds config.clientMarginSeconds with hdef
  constructor
  · rintro ⟨call, hcall, -, -, hreach⟩
    cases hcall
    exact (optionsReach_iff config x c T).mp hreach
  · intro hkeeps
    refine ⟨_, rfl, ?_, ?_, (optionsReach_iff config x c T).mpr hkeeps⟩
    · rw [Request.call_method]
      cases c <;> rfl
    · cases c <;> rfl

/-- An attempt of the default handle's enqueue, with its own deadline. -/
def enqueueInfo : ActivityInfo := infoOf (.writeStart {}) defaultHandle.writeStartTimeout

/-- An enqueued text, under the default logic of the facade. -/
theorem stands_in_text :
    StandsIn {} (.writeAsyncStart { text := "note", diffEngine := some true })
      (runActivity {} (some idleClient) enqueueInfo
        (FacadeCall.command defaultHandle
          (.writeAsyncStart { text := "note", diffEngine := some true })).request).calls :=
  (stands_in_iff defaultHandle {} idleClient enqueueInfo (by decide)
    (.writeAsyncStart { text := "note", diffEngine := some true })).mpr
    ⟨by decide, by decide⟩

/-- A structured write that asks for the diff engine: the client is not told. -/
theorem structured_write_drops_diff_engine :
    ∃ (x : WorkflowXmemory) (config : XmemoryConfig) (client : Client) (info : ActivityInfo)
      (c : FacadeCall), closeTimeout info ≠ none ∧
      ¬ StandsIn config c (runActivity config (some client) info (c.command x).request).calls := by
  refine ⟨defaultHandle, {}, idleClient, enqueueInfo,
    .write { diffEngine := some true, structuredMutations := some [] }, by decide, ?_⟩
  have hT : clientTimeout {} enqueueInfo = .ok _ := clientTimeout_ok_iff.mpr ⟨_, rfl, rfl⟩
  rw [runActivity_called rfl hT]
  rintro ⟨call, hcall, -, -, hreach⟩
  cases hcall
  have hkeeps := (optionsReach_iff {} defaultHandle
    (.write { diffEngine := some true, structuredMutations := some [] }) _).mp hreach
  exact absurd (hkeeps.1 rfl) (by decide)

end XmemoryTemporal.Facade
