import XmemoryTemporal.Execution.Metadata
import Mathlib

/-! # What clear metadata tells of a text, exactly

A call shows its text in the summary of its first activity and nowhere else: its beginning if the handle
includes content, its length otherwise (`Call.disclosed`). After the first answer a call goes on as it would
without a text (`Call.withoutText`), and two calls without text run in lock step. So two calls with the same
options show the same if and only if they disclose the same of their texts (`clearMetadata_eq_iff`): the
metadata tells that much, and no more, whatever the server says besides ids, statuses and times. -/

namespace XmemoryTemporal.Execution.Disclosure

open XmemoryTemporal.Lib.TwoRuns XmemoryTemporal.Dto XmemoryTemporal.Errors XmemoryTemporal.Activities
open XmemoryTemporal.WorkflowApi XmemoryTemporal.Execution XmemoryTemporal.Execution.AtMostOnce
open XmemoryTemporal.Execution.Metadata

/-! ### Texts -/

/-- The text of a write, or the query of a read. -/
def Call.text : Call → String
  | .read _ a => a.query
  | .write (.write _ a) => a.text
  | .write (.writeAsyncStart _ a) => a.text
  | .write (.writeDurable _ a) => a.write.text

def Call.handle : Call → WorkflowXmemory
  | .read x _ => x
  | .write c => c.handle

/-- What a summary says of a text. -/
inductive Disclosed where
  | beginning (text : List Char)
  | length (n : ℕ)
  deriving DecidableEq

def disclosedBy (x : WorkflowXmemory) (text : String) : Disclosed :=
  if x.includeContent then .beginning (text.toList.take 60) else .length text.length

/-- **What a call discloses**: the first 60 characters with content included, the length without. -/
def Call.disclosed (c : Call) : Disclosed := disclosedBy (Call.handle c) (Call.text c)

theorem summary_eq_iff (x : WorkflowXmemory) (op text text' : String) (logic : Option String) :
    summary x op text logic = summary x op text' logic ↔ disclosedBy x text = disclosedBy x text' := by
  unfold summary disclosedBy
  by_cases hcontent : x.includeContent = true
  · simp only [hcontent, if_true, String.append_right_inj, String.ofList_inj, Disclosed.beginning.injEq]
  · simp only [hcontent, if_false, Bool.false_eq_true, String.append_right_inj, String.append_left_inj,
      Disclosed.length.injEq]
    exact ⟨Nat.repr_injective, fun h => by rw [h]⟩

/-! ### Calls without text -/

/-- The handle, with the content kept out. -/
def concealing (x : WorkflowXmemory) : WorkflowXmemory := { x with includeContent := false }

/-- A call that has no text, and the content kept out. -/
def Call.withoutText : Call → Call
  | .read x a => .read (concealing x) { a with query := "" }
  | .write (.write x a) => .write (.write (concealing x) { a with text := "" })
  | .write (.writeAsyncStart x a) => .write (.writeAsyncStart (concealing x) { a with text := "" })
  | .write (.writeDurable x a) => .write (.writeDurable (concealing x) { a with write := { a.write with text := "" } })

/-- Two calls of one method through one handle, with the options that show: the extraction logic and the
intervals. -/
inductive SameOptions : Call → Call → Prop where
  | read {x : WorkflowXmemory} {a a' : ReadArgs} : SameOptions (.read x a) (.read x a')
  | write {x : WorkflowXmemory} {a a' : WriteArgs} : a'.extractionLogic = a.extractionLogic →
      SameOptions (.write (.write x a)) (.write (.write x a'))
  | writeAsyncStart {x : WorkflowXmemory} {a a' : EnqueueArgs} : a'.extractionLogic = a.extractionLogic →
      SameOptions (.write (.writeAsyncStart x a)) (.write (.writeAsyncStart x a'))
  | writeDurable {x : WorkflowXmemory} {a a' : DurableArgs} :
      a'.write.extractionLogic = a.write.extractionLogic → SameTiming a a' →
      SameOptions (.write (.writeDurable x a)) (.write (.writeDurable x a'))

section Step
variable {c c' : Call} {co : Coroutine}

theorem SameOptions.withoutText (h : SameOptions c c') :
    SameButContent (Call.withoutText c) (Call.withoutText c') := by
  cases h with
  | read => exact .read rfl rfl
  | write hlogic => exact .write rfl ⟨rfl, hlogic⟩
  | writeAsyncStart hlogic => exact .writeAsyncStart rfl ⟨rfl, hlogic⟩
  | writeDurable hlogic htiming =>
    exact .writeDurable rfl ⟨rfl, hlogic⟩ ⟨htiming.pollInterval, htiming.maxPollInterval, htiming.maxWait⟩

theorem resume_started (w w' : WriteCall) (hco : co ≠ .starting) (ans : Answer) :
    resume w co ans = resume w' co ans := by
  rcases co with _ | l | l | o
  · exact absurd rfl hco
  · rcases ans with ⟨o, now⟩ | _ | suggested
    · cases o <;> rfl
    · rfl
    · rfl
  · rcases ans with ⟨o, now⟩ | _ | suggested <;> rfl
  · rfl

theorem resume_withoutText (c : Call) (co : Coroutine) (ans : Answer) :
    (Call.withoutText c).resume co ans = c.resume co ans := by
  rcases c with ⟨x, a⟩ | c
  · rcases co with _ | l | l | o
    · rcases ans with ⟨o, now⟩ | _ | suggested <;> rfl
    · rfl
    · rfl
    · rfl
  · by_cases hco : co = .starting
    · subst hco
      -- the first answer: only the intervals of a durable write are read
      rcases ans with ⟨o, now⟩ | _ | suggested
      · rcases c with ⟨x, a⟩ | ⟨x, a⟩ | ⟨x, a⟩
        · rfl
        · rfl
        · cases o <;> rfl
      · rcases c with ⟨x, a⟩ | ⟨x, a⟩ | ⟨x, a⟩ <;> rfl
      · rcases c with ⟨x, a⟩ | ⟨x, a⟩ | ⟨x, a⟩ <;> rfl
    · rcases c with ⟨x, a⟩ | ⟨x, a⟩ | ⟨x, a⟩ <;> exact resume_started _ _ hco ans

theorem view_withoutText (c : Call) (hco : co ≠ .starting) :
    (machine (Call.withoutText c)).view co = (machine c).view co := by
  rcases co with _ | l | l | o
  · exact absurd rfl hco
  all_goals rcases c with ⟨x, a⟩ | ⟨x, a⟩ | ⟨x, a⟩ | ⟨x, a⟩ <;> rfl

theorem resume_not_starting (c : Call) (co : Coroutine) (ans : Answer) : c.resume co ans ≠ .starting := by
  rcases c with ⟨x, a⟩ | c
  · intro h
    rcases co with _ | l | l | o
    · rcases ans with ⟨o, now⟩ | _ | b <;> cases h
    · cases h
    · cases h
    · cases h
  · exact resume_ne_starting c co ans

theorem views_withoutText (c : Call) (hco : co ≠ .starting) (answers : List Answer) :
    (machine (Call.withoutText c)).views co answers = (machine c).views co answers := by
  induction answers generalizing co with
  | nil => exact congrArg (fun v => [v]) (view_withoutText c hco)
  | cons ans answers ih =>
    have hnext : (machine (Call.withoutText c)).next co ans = (machine c).next co ans :=
      resume_withoutText c co ans
    have hrest := ih (resume_not_starting c co ans)
    rw [Machine.views, Machine.views, view_withoutText c hco, hnext]
    exact congrArg (List.cons _) hrest

/-- What a call shows first. -/
def Call.first : Call → ExecuteActivity
  | .read x a => WorkflowApi.read x a
  | .write c => c.command

end Step

/-! ### Metadata -/

/-- **The first activity, and then what a call without the text shows.** -/
theorem clearMetadata_withoutText (c : Call) (answers : List Answer) :
    clearMetadata c answers =
      { commands := shownCommand (.executeActivity (Call.first c)) ::
          (clearMetadata (Call.withoutText c) answers).commands.tail
        ended := (clearMetadata (Call.withoutText c) answers).ended } := by
  have hnext : (machine (Call.withoutText c)).next = (machine c).next := by
    funext co ans
    exact resume_withoutText c co ans
  have hended : (clearMetadata (Call.withoutText c) answers).ended = (clearMetadata c answers).ended := by
    unfold clearMetadata Machine.after
    rw [hnext]
    rfl
  have hfirst : ∀ d : Call, (machine d).view .starting =
      { command := some (shownCommand (.executeActivity (Call.first d))), ended := none } := by
    intro d
    rcases d with ⟨x, a⟩ | ⟨x, a⟩ | ⟨x, a⟩ | ⟨x, a⟩ <;> rfl
  have hcommands : ∀ d : Call, (clearMetadata d answers).commands =
      shownCommand (.executeActivity (Call.first d)) :: (clearMetadata d answers).commands.tail := by
    intro d
    unfold clearMetadata
    rcases answers with _ | ⟨ans, answers⟩
    · simp only [Machine.views, hfirst d]
      rfl
    · simp only [Machine.views, hfirst d]
      rfl
  have htail : (clearMetadata (Call.withoutText c) answers).commands.tail =
      (clearMetadata c answers).commands.tail := by
    unfold clearMetadata
    rcases answers with _ | ⟨ans, answers⟩
    · simp only [Machine.views, hfirst]
      rfl
    · have hviews := views_withoutText c (resume_not_starting c .starting ans) answers
      simp only [Machine.views, hfirst, hnext]
      exact congrArg (fun views => views.filterMap Shown.command) hviews
  rw [htail, hended, ← hcommands c]

theorem first_eq_iff {c c' : Call} (hc : SameOptions c c') :
    shownCommand (.executeActivity (Call.first c)) = shownCommand (.executeActivity (Call.first c')) ↔
      Call.disclosed c = Call.disclosed c' := by
  have hshown : ∀ name x op text text' logic,
      ShownCommand.activity name (summary x op text logic) = .activity name (summary x op text' logic) ↔
        disclosedBy x text = disclosedBy x text' := by
    intro name x op text text' logic
    rw [ShownCommand.activity.injEq, summary_eq_iff]
    exact and_iff_right rfl
  cases hc with
  | @read x a a' => exact hshown activityRead x "read" a.query a'.query none
  | @write x a a' hlogic =>
    simp only [Call.first, WriteCall.command, WorkflowApi.write, shownCommand, hlogic]
    exact hshown activityWrite x "write" a.text a'.text a.extractionLogic
  | @writeAsyncStart x a a' hlogic =>
    simp only [Call.first, WriteCall.command, WorkflowApi.writeAsyncStart, shownCommand, hlogic]
    exact hshown activityWriteStart x "write_start" a.text a'.text a.extractionLogic
  | @writeDurable x a a' hlogic htiming =>
    simp only [Call.first, WriteCall.command, WorkflowApi.writeAsyncStart, shownCommand, hlogic]
    exact hshown activityWriteStart x "write_start" a.write.text a'.write.text a.write.extractionLogic

/-- **What clear metadata tells of a text.** Two calls with the same options, on answers that agree in write
ids, statuses and times, have the same clear metadata if and only if their texts have the same first 60
characters, where the handle includes content, or the same length, where it does not. -/
theorem clearMetadata_eq_iff (c c' : Call) (hc : SameOptions c c') (answers answers' : List Answer)
    (ha : List.Forall₂ Agree answers answers') :
    clearMetadata c answers = clearMetadata c' answers' ↔ Call.disclosed c = Call.disclosed c' := by
  have hlock := lockStep hc.withoutText
  have hviews := hlock.views_eq ha .starting
  have hview := hlock.view _ _ (hlock.after ha .starting)
  have hrest : clearMetadata (Call.withoutText c) answers = clearMetadata (Call.withoutText c') answers' := by
    unfold clearMetadata
    rw [hviews, hview]
  have hfirst := first_eq_iff hc
  rw [clearMetadata_withoutText c answers, clearMetadata_withoutText c' answers', hrest, ← hfirst]
  constructor
  · intro h
    injection h with hcommands
    injection hcommands
  · intro h
    rw [h]

/-- The length of a text shows, and the rest of a long one does not. -/
theorem clearMetadata_eq_iff_texts :
    clearMetadata (durableOf "my diary" none) (failedOf ⟨0, by decide, by decide⟩ "no such diary") ≠
        clearMetadata (durableOf "my diaries" none) (failedOf ⟨0, by decide, by decide⟩ "too secret") ∧
      clearMetadata (.read (xmemoryForWorkflow { includeContentInSummary := true })
          { query := String.ofList (List.replicate 60 'a') }) [] =
        clearMetadata (.read (xmemoryForWorkflow { includeContentInSummary := true })
          { query := String.ofList (List.replicate 80 'a') }) [] := by
  constructor
  · have hc : SameOptions (durableOf "my diary" none) (durableOf "my diaries" none) := .writeDurable rfl ⟨rfl, rfl, rfl⟩
    have hiff := clearMetadata_eq_iff (durableOf "my diary" none) (durableOf "my diaries" none) hc
      (failedOf ⟨0, by decide, by decide⟩ "no such diary") (failedOf ⟨0, by decide, by decide⟩ "too secret")
      (.cons (.completed _ (.writeStart rfl)) (.cons (.completed _ (.writeStatus rfl rfl)) .nil))
    rw [ne_eq, hiff]
    decide
  · exact (clearMetadata_eq_iff _ _ .read [] [] .nil).mpr (by decide)

end XmemoryTemporal.Execution.Disclosure
