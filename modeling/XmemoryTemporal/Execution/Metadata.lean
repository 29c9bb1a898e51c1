import XmemoryTemporal.Execution.AtMostOnce
import XmemoryTemporal.Lib.TwoRuns

/-! # What a call shows in clear metadata

Temporal's history keeps the name and the summary of an activity, the length of a timer, and the type and
message of an error in clear, whatever is done to encrypt payloads. With the content kept out of summaries
a call shows of its text no more than the length, and of the server's answers no more than write ids,
statuses and times: two calls that differ in the rest run in lock step (`lockStep`), and show the same
(`clearMetadata_eq`).

`shown_of_reachable` and `shown_writeDurable` connect what is shown with the runs of workflows and with
the function `writeDurable`. -/

namespace XmemoryTemporal.Execution.Metadata

open XmemoryTemporal.Python.Value XmemoryTemporal.Python.Time XmemoryTemporal.Lib.Loop
open XmemoryTemporal.Lib.TwoRuns XmemoryTemporal.Dto XmemoryTemporal.Errors XmemoryTemporal.Activities
open XmemoryTemporal.WorkflowApi XmemoryTemporal.Execution XmemoryTemporal.Execution.AtMostOnce

/-! ### Calls, and what they show -/

/-- A call of the facade: a read, or one of the writes. -/
inductive Call where
  | read (x : WorkflowXmemory) (a : ReadArgs)
  | write (c : WriteCall)

/-- A read waits for its activity only. -/
def Call.next : Call → Coroutine → Option Command
  | .read x a, .starting => some (.executeActivity (WorkflowApi.read x a))
  | .read _ _, _ => none
  | .write c, co => nextCommand c co

def Call.resume : Call → Coroutine → Answer → Coroutine
  | .read _ _, .starting, .completed o _ => .finished (.returned o)
  | .read _ _, .finished o, _ => .finished o
  | .read _ _, _, _ => .finished .activityError
  | .write c, co, answer => Execution.resume c co answer

/-- What is shown of a command. -/
inductive ShownCommand where
  | activity (name summary : String)
  | timer (d : Timedelta)
  deriving DecidableEq

def shownCommand : Command → ShownCommand
  | .executeActivity a => .activity a.request.activity a.summary
  | .sleep d => .timer d

/-- What is shown of an error. -/
inductive ShownError where
  | applicationError (type message : String)
  | overflowError
  deriving DecidableEq

def shownError : PyError → ShownError
  | .applicationError e => .applicationError e.type e.message
  | .overflowError => .overflowError

theorem shown_writeFailed (status : WriteStatusOutput) :
    shownError (.applicationError (writeFailed status)) = .applicationError typeWriteFailed
      ("xmemory write " ++ formatOpt status.writeId ++ " failed") := rfl

theorem shown_writeNotFound (status : WriteStatusOutput) :
    shownError (.applicationError (writeNotFound status)) = .applicationError typeWriteNotFound
      ("xmemory write " ++ formatOpt status.writeId ++ " not found") := rfl

/-- What is shown of the end of a call. -/
inductive ShownEnd where
  | returned
  | raised (e : ShownError)
  | activityError
  deriving DecidableEq

def shownEnd : CallOutcome → ShownEnd
  | .returned _ => .returned
  | .raised e => .raised (shownError e)
  | .activityError => .activityError

/-- What a call shows where it waits: the command it waits for, or its end. -/
structure Shown where
  command : Option ShownCommand
  ended : Option ShownEnd
  deriving DecidableEq

def Coroutine.ended : Coroutine → Option CallOutcome
  | .finished o => some o
  | _ => none

def machine (c : Call) : Machine Coroutine Answer Shown where
  next := c.resume
  view co := { command := (c.next co).map shownCommand, ended := (Coroutine.ended co).map shownEnd }

/-- **The clear metadata of a call**: the commands it issues as it is answered, and its end. -/
structure ClearMetadata where
  commands : List ShownCommand
  ended : Option ShownEnd
  deriving DecidableEq

def clearMetadata (c : Call) (answers : List Answer) : ClearMetadata :=
  { commands := ((machine c).views .starting answers).filterMap Shown.command
    ended := ((machine c).view ((machine c).after .starting answers)).ended }

/-! ### Calls and answers that differ in their content -/

/-- Texts of one length, to be written under one extraction logic. -/
structure SameShape (a a' : WriteArgs) : Prop where
  length : a'.text.length = a.text.length
  extractionLogic : a'.extractionLogic = a.extractionLogic

/-- The intervals of two durable writes. -/
structure SameTiming (a a' : DurableArgs) : Prop where
  pollInterval : a'.pollInterval = a.pollInterval
  maxPollInterval : a'.maxPollInterval = a.maxPollInterval
  maxWait : a'.maxWait = a.maxWait

/-- Two calls through one handle that differ in their content, which the handle keeps out of summaries. -/
inductive SameButContent : Call → Call → Prop where
  | read {x : WorkflowXmemory} {a a' : ReadArgs} : x.includeContent = false →
      a'.query.length = a.query.length → SameButContent (.read x a) (.read x a')
  | write {x : WorkflowXmemory} {a a' : WriteArgs} : x.includeContent = false → SameShape a a' →
      SameButContent (.write (.write x a)) (.write (.write x a'))
  | writeAsyncStart {x : WorkflowXmemory} {a a' : EnqueueArgs} : x.includeContent = false →
      SameShape a.toWriteArgs a'.toWriteArgs →
      SameButContent (.write (.writeAsyncStart x a)) (.write (.writeAsyncStart x a'))
  | writeDurable {x : WorkflowXmemory} {a a' : DurableArgs} : x.includeContent = false →
      SameShape a.write.toWriteArgs a'.write.toWriteArgs → SameTiming a a' →
      SameButContent (.write (.writeDurable x a)) (.write (.writeDurable x a'))

/-- Two outputs of one activity, with the same write id and status. -/
inductive OutputsAgree : Output → Output → Prop where
  | read (o o' : ReadOutput) : OutputsAgree (.read o) (.read o')
  | write {o o' : WriteOutput} : o'.writeId = o.writeId → OutputsAgree (.write o) (.write o')
  | writeStart {o o' : WriteStartOutput} : o'.writeId = o.writeId →
      OutputsAgree (.writeStart o) (.writeStart o')
  | writeStatus {o o' : WriteStatusOutput} : o'.writeId = o.writeId → o'.writeStatus = o.writeStatus →
      OutputsAgree (.writeStatus o) (.writeStatus o')

/-- Two answers at one time that agree so far. -/
inductive Agree : Answer → Answer → Prop where
  | completed {o o' : Output} (now : Datetime) : OutputsAgree o o' →
      Agree (.completed o now) (.completed o' now)
  | failed : Agree .failed .failed
  | fired (suggested suggested' : Bool) : Agree (.fired suggested) (.fired suggested')

/-! ### One step -/

theorem summary_congr {x : WorkflowXmemory} (hoff : x.includeContent = false) (op : String)
    {content content' : String} (h : content'.length = content.length) (logic : Option String) :
    summary x op content' logic = summary x op content logic := by
  simp only [summary, hoff, h, Bool.false_eq_true, if_false]

/-- Where two calls wait that show the same: at one place of the loop, up to the warning it has given. -/
inductive SameCoroutine : Coroutine → Coroutine → Prop where
  | starting : SameCoroutine .starting .starting
  | polling (l : PollLoop) (warned : Bool) :
      SameCoroutine (.polling l) (.polling { l with warnedHistory := warned })
  | sleeping (l : PollLoop) (warned : Bool) :
      SameCoroutine (.sleeping l) (.sleeping { l with warnedHistory := warned })
  | finished {o o' : CallOutcome} : shownEnd o = shownEnd o' →
      SameCoroutine (.finished o) (.finished o')

theorem SameCoroutine.polling_self (l : PollLoop) : SameCoroutine (.polling l) (.polling l) :=
  .polling l l.warnedHistory

/-- Two decisions on a status that show the same. -/
inductive SameDecision : Decision → Decision → Prop where
  | returned (status status' : WriteStatusOutput) : SameDecision (.returned status) (.returned status')
  | raised {e e' : PyError} : shownError e = shownError e' → SameDecision (.raised e) (.raised e')
  | sleep : SameDecision .sleep .sleep

theorem afterStatus_same (l : PollLoop) (warned : Bool) (now : Datetime) {status status' : WriteStatusOutput}
    (hid : status'.writeId = status.writeId) (hvalue : status'.writeStatus = status.writeStatus) :
    SameDecision (afterStatus l now status) (afterStatus { l with warnedHistory := warned } now status') := by
  by_cases hcompleted : status.writeStatus = statusCompleted
  · simp only [afterStatus, interpretStatus_completed hcompleted,
      interpretStatus_completed (hvalue.trans hcompleted)]
    exact .returned status status'
  by_cases hfailed : status.writeStatus = statusFailed
  · simp only [afterStatus, interpretStatus_failed hfailed, interpretStatus_failed (hvalue.trans hfailed)]
    refine .raised ?_
    rw [shown_writeFailed, shown_writeFailed, hid]
  by_cases hgone : status.writeStatus = statusNotFound
  · simp only [afterStatus, interpretStatus_notFound hgone, interpretStatus_notFound (hvalue.trans hgone)]
    refine .raised ?_
    rw [shown_writeNotFound, shown_writeNotFound, hid]
  have h := interpretStatus_other hcompleted hfailed hgone
  rw [← hvalue] at hcompleted hfailed hgone
  simp only [afterStatus, h, interpretStatus_other hcompleted hfailed hgone]
  rcases now.add l.delay with _ | wake
  · exact .raised rfl
  by_cases hle : l.deadline.micros ≤ wake.micros
  · simp only [hle, if_true]
    exact .raised rfl
  · simp only [hle, if_false]
    exact .sleep

theorem afterTimer_same (l : PollLoop) (warned suggested suggested' : Bool) :
    (afterTimer l suggested = .error .overflowError ∧
        afterTimer { l with warnedHistory := warned } suggested' = .error .overflowError) ∨
      ∃ t warned', afterTimer l suggested = .ok t ∧
        afterTimer { l with warnedHistory := warned } suggested' = .ok { t with warnedHistory := warned' } := by
  unfold afterTimer
  rcases hdelay : l.delay.mulThreeHalves with _ | delay
  · exact Or.inl ⟨rfl, rfl⟩
  · exact Or.inr ⟨_, _, rfl, rfl⟩

theorem afterEnqueue_same {c c' : WriteCall} (hc : SameButContent (.write c) (.write c')) {o o' : Output}
    (ho : OutputsAgree o o') (now : Datetime) :
    SameCoroutine (afterEnqueue c o now) (afterEnqueue c' o' now) := by
  cases hc with
  | write hoff hshape => exact .finished rfl
  | writeAsyncStart hoff hshape => exact .finished rfl
  | @writeDurable x a a' hoff hshape htiming =>
    cases ho with
    | @writeStart start start' hid =>
      have hloop : pollLoop a' now start' = pollLoop a now start := by
        unfold pollLoop DurableArgs.firstDelay DurableArgs.cap
        rw [htiming.maxWait, htiming.pollInterval, htiming.maxPollInterval, hid]
      simp only [afterEnqueue, hloop]
      rcases pollLoop a now start with e | l
      · exact .finished rfl
      · exact .polling_self l
    | _ => exact .finished rfl

/-- **Every answer** keeps two calls in places that show the same. -/
theorem resume_same {c c' : Call} (hc : SameButContent c c') {co co' : Coroutine}
    (hco : SameCoroutine co co') {answer answer' : Answer} (ha : Agree answer answer') :
    SameCoroutine (c.resume co answer) (c'.resume co' answer') := by
  have hwrite : ∀ {w w' : WriteCall}, SameButContent (.write w) (.write w') →
      SameCoroutine (Execution.resume w co answer) (Execution.resume w' co' answer') := by
    intro w w' hw
    cases hco with
    | starting =>
      cases ha with
      | completed now ho => exact afterEnqueue_same hw ho now
      | failed => exact .finished rfl
      | fired suggested suggested' => exact .finished rfl
    | polling l warned =>
      cases ha with
      | completed now ho =>
        cases ho with
        | @writeStatus status status' hid hvalue =>
          have hsame := afterStatus_same l warned now hid hvalue
          simp only [Execution.resume]
          cases hd : afterStatus l now status <;>
            cases hd' : afterStatus { l with warnedHistory := warned } now status' <;>
            rw [hd, hd'] at hsame <;> cases hsame
          · exact .finished rfl
          · next hshown => exact .finished (congrArg ShownEnd.raised hshown)
          · exact .sleeping l warned
        | _ => exact .finished rfl
      | failed => exact .finished rfl
      | fired suggested suggested' => exact .finished rfl
    | sleeping l warned =>
      cases ha with
      | fired suggested suggested' =>
        simp only [Execution.resume]
        rcases afterTimer_same l warned suggested suggested' with ⟨h, h'⟩ | ⟨t, warned', h, h'⟩
        · rw [h, h']
          exact .finished rfl
        · rw [h, h']
          exact .polling t warned'
      | completed now ho => exact .finished rfl
      | failed => exact .finished rfl
    | finished h => exact .finished h
  cases hc with
  | read hoff hlength =>
    cases hco with
    | starting => cases ha <;> exact .finished rfl
    | finished h => exact .finished h
    | _ => exact .finished rfl
  | write hoff hshape => exact hwrite (.write hoff hshape)
  | writeAsyncStart hoff hshape => exact hwrite (.writeAsyncStart hoff hshape)
  | writeDurable hoff hshape htiming => exact hwrite (.writeDurable hoff hshape htiming)

theorem view_same {c c' : Call} (hc : SameButContent c c') {co co' : Coroutine}
    (hco : SameCoroutine co co') : (machine c).view co = (machine c').view co' := by
  cases hco with
  | starting =>
    cases hc with
    | @read x a a' hoff hlength =>
      have h := summary_congr hoff "read" hlength none
      simp only [machine, Call.next, Option.map_some, shownCommand, WorkflowApi.read, h]
      rfl
    | @write x a a' hoff hshape =>
      have h := summary_congr hoff "write" hshape.length a.extractionLogic
      simp only [machine, Call.next, nextCommand, WriteCall.command, Option.map_some, shownCommand,
        WorkflowApi.write, hshape.extractionLogic, h]
      rfl
    | @writeAsyncStart x a a' hoff hshape =>
      have h := summary_congr hoff "write_start" hshape.length a.extractionLogic
      simp only [machine, Call.next, nextCommand, WriteCall.command, Option.map_some, shownCommand,
        WorkflowApi.writeAsyncStart, hshape.extractionLogic, h]
      rfl
    | @writeDurable x a a' hoff hshape htiming =>
      have h := summary_congr hoff "write_start" hshape.length a.write.extractionLogic
      simp only [machine, Call.next, nextCommand, WriteCall.command, Option.map_some, shownCommand,
        WorkflowApi.writeAsyncStart, hshape.extractionLogic, h]
      rfl
  | polling l warned => cases hc <;> rfl
  | sleeping l warned => cases hc <;> rfl
  | @finished o o' h =>
    have hended : (machine c').view (.finished o') = { command := none, ended := some (shownEnd o') } := by
      cases hc <;> rfl
    rw [hended, ← h]
    cases hc <;> rfl

theorem lockStep {c c' : Call} (hc : SameButContent c c') :
    LockStep (machine c) (machine c') SameCoroutine Agree where
  view _ _ hco := view_same hc hco
  next _ _ _ _ hco ha := resume_same hc hco ha

/-- **The clear metadata shows of the content its length**: it is the same for two calls that differ in
the content, on answers that differ in what the server says besides ids, statuses and times. -/
theorem clearMetadata_eq (c c' : Call) (hc : SameButContent c c') (answers answers' : List Answer)
    (ha : List.Forall₂ Agree answers answers') :
    clearMetadata c answers = clearMetadata c' answers' := by
  have hviews := (lockStep hc).views_eq ha .starting
  have hafter := (lockStep hc).after ha .starting
  unfold clearMetadata
  rw [hviews, view_same hc hafter]

/-- A durable write through the default handle. -/
def durableOf (text : String) (mutations : Option (List PyVal)) : Call :=
  .write (.writeDurable defaultHandle
    { write := { text, structuredMutations := mutations }, maxWait := .ofSeconds 600 (by decide) })

/-- The answers to it: the enqueue, and a status of the failure with the server's own words. -/
def failedOf (now : Datetime) (detail : String) : List Answer :=
  [.completed (.writeStart { writeId := some "w1" }) now,
    .completed (.writeStatus { writeId := some "w1", writeStatus := "failed", errorDetail := some detail }) now]

/-- What was to be written, and why it failed, does not show. -/
theorem clearMetadata_eq_failed :
    clearMetadata (durableOf "my diary" none) (failedOf ⟨0, by decide, by decide⟩ "no such diary") =
      clearMetadata (durableOf "a secret" (some [])) (failedOf ⟨0, by decide, by decide⟩ "too secret") := by
  refine clearMetadata_eq (durableOf "my diary" none) (durableOf "a secret" (some [])) ?_
    (failedOf ⟨0, by decide, by decide⟩ "no such diary") (failedOf ⟨0, by decide, by decide⟩ "too secret") ?_
  · have hlength : "a secret".length = "my diary".length := by decide
    exact .writeDurable (by decide) ⟨hlength, rfl⟩ ⟨rfl, rfl, rfl⟩
  · exact .cons (.completed _ (.writeStart rfl)) (.cons (.completed _ (.writeStatus rfl rfl)) .nil)

/-! ### What the runs show -/

/-- The command that was scheduled. -/
def Scheduled.command : Scheduled → Command
  | .activity a _ => .executeActivity a
  | .timer d => .sleep d

theorem Issued.command {c : WriteCall} {co : Coroutine} {cmd : Scheduled} (h : Issued c co cmd) :
    nextCommand c co = some (Scheduled.command cmd) := by
  cases cmd with
  | activity a attempts => exact h.1
  | timer d => exact h

theorem filterMap_of_map_eq {α β : Type} {f : α → Option β} {xs : List α} {ys : List β}
    (h : xs.map f = ys.map some) : xs.filterMap f = ys := by
  calc xs.filterMap f = (xs.map f).filterMap id := by rw [List.filterMap_map]; rfl
    _ = (ys.map some).filterMap id := by rw [h]
    _ = ys := by rw [List.filterMap_map]; exact List.filterMap_some

/-- **The runs of a workflow show no more**: at any time, what is shown of the commands of a call is the
beginning of its clear metadata. -/
theorem shown_of_reachable {ι : Type} [DecidableEq ι] {calls : ι → WriteCall} {s : State ι}
    (h : Reachable calls s) (i : ι) :
    (s i).commands.map (fun cmd => shownCommand (Scheduled.command cmd)) <+:
      (clearMetadata (.write (calls i)) (s i).history).commands := by
  have hinv := reachable_inv h i
  set V := (machine (.write (calls i))).views .starting (s i).history with hV
  have hmap : (V.take (s i).commands.length).map Shown.command =
      ((s i).commands.map fun cmd => shownCommand (Scheduled.command cmd)).map some := by
    refine List.ext_getElem? fun k => ?_
    rw [List.getElem?_map, List.getElem?_map, List.getElem?_map]
    by_cases hk : k < (s i).commands.length
    · have hle : k ≤ (s i).history.length := by
        have hpending := hinv.pending
        omega
      obtain ⟨cmd, hcmd⟩ : ∃ cmd, (s i).commands[k]? = some cmd := ⟨_, List.getElem?_eq_getElem hk⟩
      have hissued : nextCommand (calls i) (replay (calls i) ((s i).history.take k)) =
          some (Scheduled.command cmd) := Issued.command (hinv.issued k cmd hcmd)
      rw [List.getElem?_take_of_lt hk, hV, getElem?_views _ _ hle, hcmd]
      show some (Option.map shownCommand
        (nextCommand (calls i) (replay (calls i) ((s i).history.take k)))) = _
      rw [hissued]
      rfl
    · rw [List.getElem?_eq_none (not_lt.mp hk), List.getElem?_eq_none]
      · rfl
      · rw [List.length_take]
        omega
  rw [← filterMap_of_map_eq hmap]
  exact (List.take_prefix _ V).filterMap _

theorem views_finished (c : WriteCall) (o : CallOutcome) (answers : List Answer) :
    ((machine (.write c)).views (.finished o) answers).filterMap Shown.command = [] := by
  induction answers with
  | nil => rfl
  | cons answer answers ih => exact ih

theorem views_polling (x : WorkflowXmemory) (a : DurableArgs) (polls : List Poll) (l : PollLoop) :
    ((machine (.write (.writeDurable x a))).views (.polling l) (polls.flatMap Poll.answers)).filterMap
        Shown.command =
      (((durableLoop x).run l polls).1.flatMap PollTurn.commands).map shownCommand := by
  induction polls generalizing l with
  | nil => rfl
  | cons p polls ih =>
    set c : WriteCall := .writeDurable x a
    set poll : ShownCommand := shownCommand (.executeActivity (writeStatus x l.writeId))
    -- the two answers of the turn lead through `co` to `co'`
    have hviews : ∀ {co co'}, Execution.resume c (.polling l) (.completed (.writeStatus p.status) p.arrived) = co →
        Execution.resume c co (.fired p.continueAsNewSuggested) = co' →
        ((machine (.write c)).views (.polling l) ((p :: polls).flatMap Poll.answers)).filterMap Shown.command =
          poll :: ([(machine (.write c)).view co].filterMap Shown.command ++
            ((machine (.write c)).views co' (polls.flatMap Poll.answers)).filterMap Shown.command) := by
      rintro co co' rfl rfl
      rw [← List.filterMap_append]
      rfl
    have hstop : ∀ {o : CallOutcome} {log r},
        Execution.resume c (.polling l) (.completed (.writeStatus p.status) p.arrived) = .finished o →
        durableTurn x l p = ({ poll := writeStatus x l.writeId, log }, .stop r) →
        ((machine (.write c)).views (.polling l) ((p :: polls).flatMap Poll.answers)).filterMap Shown.command =
          (((durableLoop x).run l (p :: polls)).1.flatMap PollTurn.commands).map shownCommand := by
      intro o log r hco hturn
      rw [hviews hco rfl, run_stop (L := durableLoop x) hturn]
      have hnil := views_finished c o (polls.flatMap Poll.answers)
      exact congrArg (fun rest => poll :: ([] ++ rest)) hnil
    rcases hs : afterStatus l p.arrived p.status with status | e | _
    · exact hstop (o := .returned (.writeStatus status)) (by simp only [Execution.resume, hs])
        (by simp only [durableTurn, hs]; rfl)
    · exact hstop (o := .raised e) (by simp only [Execution.resume, hs])
        (by simp only [durableTurn, hs]; rfl)
    have hsleep : Execution.resume c (.polling l) (.completed (.writeStatus p.status) p.arrived) =
        .sleeping l := by
      simp only [Execution.resume, hs]
    rcases ht : afterTimer l p.continueAsNewSuggested with e | l'
    · have hfired : Execution.resume c (.sleeping l) (.fired p.continueAsNewSuggested) =
          .finished (.raised e) := by
        simp only [Execution.resume, ht]
      have hturn : durableTurn x l p =
          ({ poll := writeStatus x l.writeId, timer := some l.delay, log := statusLog p.status },
            .stop (.error e)) := by
        simp only [durableTurn, hs, ht]
      rw [hviews hsleep hfired, run_stop (L := durableLoop x) hturn, views_finished]
      rfl
    · have hfired : Execution.resume c (.sleeping l) (.fired p.continueAsNewSuggested) = .polling l' := by
        simp only [Execution.resume, ht]
      obtain ⟨log, hturn⟩ : ∃ log, durableTurn x l p =
          ({ poll := writeStatus x l.writeId, timer := some l.delay, log }, .again l') := by
        exact ⟨_, by simp only [durableTurn, hs, ht]; rfl⟩
      rw [hviews hsleep hfired, run_again (L := durableLoop x) hturn, ih, List.flatMap_cons, List.map_append]
      rfl

/-- **The function `writeDurable` issues the commands that are shown.** -/
theorem shown_writeDurable (x : WorkflowXmemory) (a : DurableArgs) (now : Datetime)
    (start : WriteStartOutput) (polls : List Poll) :
    (clearMetadata (.write (.writeDurable x a))
        (.completed (.writeStart start) now :: polls.flatMap Poll.answers)).commands =
      (writeDurable x a now start polls).commands.map shownCommand := by
  have hfirst : ∀ {co}, afterEnqueue (.writeDurable x a) (.writeStart start) now = co →
      (clearMetadata (.write (.writeDurable x a))
          (.completed (.writeStart start) now :: polls.flatMap Poll.answers)).commands =
        shownCommand (.executeActivity (writeAsyncStart x a.write)) ::
          ((machine (.write (.writeDurable x a))).views co (polls.flatMap Poll.answers)).filterMap
            Shown.command := by
    rintro co rfl
    rfl
  unfold writeDurable
  rcases hl : pollLoop a now start with e | l
  · have hco : afterEnqueue (.writeDurable x a) (.writeStart start) now = .finished (.raised e) := by
      simp only [afterEnqueue, hl]
    rw [hfirst hco, views_finished]
    rfl
  · have hco : afterEnqueue (.writeDurable x a) (.writeStart start) now = .polling l := by
      simp only [afterEnqueue, hl]
    rw [hfirst hco, views_polling]
    rfl

end XmemoryTemporal.Execution.Metadata
