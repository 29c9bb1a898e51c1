import XmemoryTemporal.Durable.Deadline

/-! # How soon a durable write knows

Suppose that from a time `T` on the server reports the write in a terminal state, that a poll takes at most
`L`, and that a timer is at most `J` late. A poll that is made before `T` is answered before `T + L`, the
next is made within the longest delay `M` of that, and what is made from `T` on ends the call. So no poll
is made after `T + L + M + J` (`issued_le`), and the call has ended by `L` after that; and it does not time
out if `T + L + M` is not beyond its deadline (`responsive`). -/

namespace XmemoryTemporal.Durable.Responsive

open XmemoryTemporal.Python.Time XmemoryTemporal.Dto XmemoryTemporal.Errors XmemoryTemporal.WorkflowApi
open XmemoryTemporal.Durable.Turn XmemoryTemporal.Durable.Outcome XmemoryTemporal.Durable.Deadline

/-- The longest delay. -/
def longest (a : DurableArgs) : ℤ := max a.firstDelay.micros a.cap.micros

/-- Polls that take at most `L`, made at the times `issued`, between timers that are at most `J` late. -/
structure Prompt (a : DurableArgs) (now : Datetime) (L J : ℤ) (polls : List Poll) (issued : ℕ → ℤ) :
    Prop where
  first : issued 0 = now.micros
  answered : ∀ k p, polls[k]? = some p → issued k ≤ p.arrived.micros ∧ p.arrived.micros ≤ issued k + L
  timer : ∀ k p, polls[k]? = some p → p.arrived.micros + delayAt a k ≤ issued (k + 1) ∧
    issued (k + 1) ≤ p.arrived.micros + delayAt a k + J

/-- A poll that is made at `T` or later finds the write in a terminal state. -/
def TerminalFrom (T : ℤ) (polls : List Poll) (issued : ℕ → ℤ) : Prop :=
  ∀ k p, polls[k]? = some p → T ≤ issued k → Terminal p.status.writeStatus

section Run
variable {x : WorkflowXmemory} {a : DurableArgs} {now : Datetime} {start : WriteStartOutput}
  {polls : List Poll} {issued : ℕ → ℤ} {T L J : ℤ} {k : ℕ}

theorem issued_lt_of_nonterminal (hterminal : TerminalFrom T polls issued) {p : Poll}
    (hp : polls[k]? = some p) (hnt : ¬ Terminal p.status.writeStatus) : issued k < T := by
  by_contra hle
  exact hnt (hterminal k p hp (not_lt.mp hle))

theorem nonterminal_before (hD : IsDate (deadlineOf a now))
    (hk : k + 1 < (writeDurable x a now start polls).turns.length) :
    ∃ p, polls[k]? = some p ∧ ¬ Terminal p.status.writeStatus := by
  obtain ⟨p, hp, -⟩ := waited_before hD hk
  have hlt : k < (writeDurable x a now start polls).turns.length := by omega
  have ht := List.getElem?_eq_getElem hlt
  rcases turn_at hD hp ht with ⟨o, hend, -, -⟩ | ⟨hnt, -⟩
  · have hlast := hend.2
    omega
  · exact ⟨p, hp, hnt⟩

/-- **No poll is made late**: the first is made at once, every other within the longest delay of one that
was made before `T`. -/
theorem issued_le (hD : IsDate (deadlineOf a now)) (hprompt : Prompt a now L J polls issued)
    (hterminal : TerminalFrom T polls issued) (hk : k < (writeDurable x a now start polls).turns.length) :
    issued k ≤ max now.micros (T + L + longest a + J) := by
  rcases k with _ | k
  · rw [hprompt.first]
    exact le_max_left _ _
  · obtain ⟨p, hp, hnt⟩ := nonterminal_before hD hk
    have hbefore := issued_lt_of_nonterminal hterminal hp hnt
    have hanswered := (hprompt.answered k p hp).2
    have htimer := (hprompt.timer k p hp).2
    have hdelay : delayAt a k ≤ longest a := delayAt_le k
    refine le_trans ?_ (le_max_right _ _)
    omega

theorem ends_from (hD : IsDate (deadlineOf a now)) (hterminal : TerminalFrom T polls issued) {p : Poll}
    (hp : polls[k]? = some p) (hk : k < (writeDurable x a now start polls).turns.length)
    (hT : T ≤ issued k) : ∃ o, EndsAt (writeDurable x a now start polls) k o ∧ Verdict p.status o := by
  have hended := hterminal k p hp hT
  rcases turn_at hD hp (List.getElem?_eq_getElem hk) with ⟨o, hend, -, hv⟩ | ⟨hnt, -⟩
  · rcases hv with hv | ⟨hnt, -⟩
    · exact ⟨o, hend, hv⟩
    · exact absurd hended hnt
  · exact absurd hended hnt

theorem ends_by_verdict (hfirst : 0 ≤ a.firstDelay.micros) (hcap : 0 ≤ a.cap.micros)
    (hD : IsDate (deadlineOf a now)) (hprompt : Prompt a now L J polls issued)
    (hterminal : TerminalFrom T polls issued) (hdeadline : T + L + longest a ≤ deadlineOf a now)
    {o : Except PyError WriteStatusOutput} (hend : EndsAt (writeDurable x a now start polls) k o) :
    ∃ p, polls[k]? = some p ∧ Verdict p.status o ∧
      p.arrived.micros ≤ max now.micros (T + L + longest a + J) + L := by
  obtain ⟨p, t, hp, ht⟩ := endsAt_answered hD hend
  have hk := (List.getElem?_eq_some_iff.mp ht).1
  have hissued : issued k ≤ max now.micros (T + L + longest a + J) := issued_le hD hprompt hterminal hk
  have hanswered := (hprompt.answered k p hp).2
  rcases turn_at hD hp ht with ⟨o', hend', -, hv⟩ | ⟨-, -, -, hgoes⟩
  · have ho : o' = o := Option.some.inj (hend'.1.symm.trans hend.1)
    subst ho
    refine ⟨p, hp, ?_, by omega⟩
    rcases hv with hv | ⟨hnt, e, -, hg⟩
    · exact hv
    · -- giving up would be too late
      have hbefore := issued_lt_of_nonterminal hterminal hp hnt
      have hdelay : delayAt a k ≤ longest a := delayAt_le k
      have hnonneg := delayAt_nonneg hfirst hcap k
      have harrived := p.arrived.nonneg
      have hmax := hD.2
      rcases hg with ⟨hlate, -⟩ | ⟨hno, -⟩
      · omega
      · unfold IsDate at hno
        omega
  · exact absurd hend (hgoes o)

end Run

/-- **A durable write knows soon.** Where terminal statuses are reported from `T` on, polls take at most `L`
and timers are at most `J` late, all polls are made by `T + L + M + J`, `M` the longest delay (or at once),
and the first that is made at `T` or later ends the call. If `T + L + M` is not beyond the deadline the call
can only end with the verdict of a terminal status, which has arrived `L` after that time at the latest. -/
theorem responsive (x : WorkflowXmemory) (a : DurableArgs) (now : Datetime) (start : WriteStartOutput)
    (polls : List Poll) (issued : ℕ → ℤ) (T L J : ℤ) (hfirst : 0 ≤ a.firstDelay.micros)
    (hcap : 0 ≤ a.cap.micros) (hD : IsDate (deadlineOf a now)) (hprompt : Prompt a now L J polls issued)
    (hterminal : TerminalFrom T polls issued) :
    let r := writeDurable x a now start polls
    let latest := max now.micros (T + L + longest a + J)
    (∀ k < r.turns.length, issued k ≤ latest) ∧
    (∀ k p, polls[k]? = some p → k < r.turns.length → T ≤ issued k →
      ∃ o, EndsAt r k o ∧ Verdict p.status o) ∧
    (T + L + longest a ≤ deadlineOf a now → ∀ k o, EndsAt r k o →
      ∃ p, polls[k]? = some p ∧ Verdict p.status o ∧ p.arrived.micros ≤ latest + L) := by
  intro r latest
  exact ⟨fun k hk => issued_le hD hprompt hterminal hk,
    fun k p hp hk hT => ends_from hD hterminal hp hk hT,
    fun hdeadline k o hend => ends_by_verdict hfirst hcap hD hprompt hterminal hdeadline hend⟩

/-- The times of three polls after timers that are half a second late at most. -/
def lateIssued : ℕ → ℤ
  | 0 => 0
  | 1 => 3500000
  | 2 => 8000000
  | _ => 13000000

/-- A write that is completed after five seconds, polled at zero, three and a half and eight: the third poll
returns it. -/
theorem responsive_third_poll :
    let polls := pollsAt [("queued", 1000000), ("extracting", 4500000), ("completed", 8500000)]
    let r := writeDurable defaultHandle { write := {} } firstDay ⟨some "w1"⟩ polls
    (∀ k < r.turns.length, lateIssued k ≤ 36500000) ∧
      EndsAt r 2 (.ok (projectWriteStatus (reportOf "completed"))) := by
  intro polls r
  have hprompt : Prompt { write := {} } firstDay 1000000 500000 polls lateIssued := by
    refine ⟨rfl, fun k p hp => ?_, fun k p hp => ?_⟩
    all_goals
      rcases k with _ | _ | _ | k
      case succ.succ.succ => simp [polls, pollsAt] at hp
      all_goals
        cases hp
        decide
  have hterminal : TerminalFrom 5000000 polls lateIssued := by
    intro k p hp hT
    rcases k with _ | _ | _ | k
    · exact absurd hT (by decide)
    · exact absurd hT (by decide)
    · cases hp
      exact Or.inl rfl
    · simp [polls, pollsAt] at hp
  obtain ⟨hissued, hends, -⟩ := responsive defaultHandle { write := {} } firstDay ⟨some "w1"⟩ polls lateIssued
    5000000 1000000 500000 (by decide) (by decide) (by unfold IsDate; decide) hprompt hterminal
  have hlatest : max firstDay.micros (5000000 + 1000000 + longest { write := {} } + 500000) = 36500000 := by
    decide
  rw [hlatest] at hissued
  have hlen : r.turns.length = 3 := rfl
  have hp : polls[2]? = some _ := rfl
  obtain ⟨o, hend, hv⟩ := hends 2 _ hp (by rw [hlen]; omega) (by decide)
  have ho : o = .ok (projectWriteStatus (reportOf "completed")) := hv.unique (Or.inl ⟨rfl, rfl⟩)
  rw [ho] at hend
  exact ⟨hissued, hend⟩

end XmemoryTemporal.Durable.Responsive
