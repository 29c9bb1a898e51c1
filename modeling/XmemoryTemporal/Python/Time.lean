import XmemoryTemporal.Lib.HalfEven
import Mathlib.Data.Rat.Cast.Order
import Mathlib.Tactic.Linarith
import Mathlib.Tactic.FieldSimp

/-! # `timedelta` and `datetime`

A `Timedelta` is a number of microseconds between `timedelta.min` and `timedelta.max`, a `Datetime`
a number of microseconds since the year 1 up to the end of the year 9999. An operation whose result
is out of range raises `OverflowError`; here it returns `none`. -/

namespace XmemoryTemporal.Python.Time

open XmemoryTemporal.Lib.HalfEven

/-- Microseconds in a day. -/
def dayMicros : ℤ := 86400000000

/-- `timedelta.min`, −999999999 days, in microseconds. -/
def minDelta : ℤ := -999999999 * dayMicros

/-- `timedelta.max`, one microsecond below 1000000000 days. -/
def maxDelta : ℤ := 1000000000 * dayMicros - 1

/-- `datetime.max`, one microsecond below the 3652059 days of the years 1 to 9999. -/
def maxDate : ℤ := 3652059 * dayMicros - 1

/-- A `timedelta`, in microseconds. -/
@[ext] structure Timedelta where
  micros : ℤ
  min_le : minDelta ≤ micros
  le_max : micros ≤ maxDelta
  deriving DecidableEq

/-- The `timedelta` of so many microseconds, if it is in range. -/
def Timedelta.ofMicros? (n : ℤ) : Option Timedelta :=
  if h : minDelta ≤ n ∧ n ≤ maxDelta then some ⟨n, h.1, h.2⟩ else none

/-- `timedelta(seconds=n)` for a number of seconds that is surely in range. -/
def Timedelta.ofSeconds (n : ℕ) (h : n ≤ 86400 * 999999999) : Timedelta :=
  ⟨n * 1000000, by unfold minDelta dayMicros; omega, by unfold maxDelta dayMicros; omega⟩

/-- `delta.total_seconds()`. -/
def Timedelta.totalSeconds (d : Timedelta) : ℚ := d.micros / 1000000

/-- `if delta`: only the zero duration is false. -/
def Timedelta.truthy (d : Timedelta) : Bool := d.micros ≠ 0

/-- `delta * 1.5`: the float is the ratio 3/2, and the quotient is rounded half to even. -/
def Timedelta.mulThreeHalves (d : Timedelta) : Option Timedelta :=
  Timedelta.ofMicros? (divRound (d.micros * 3) 2)

/-- `min(a, b)`, the first of two equal ones. -/
def Timedelta.min (a b : Timedelta) : Timedelta := if b.micros < a.micros then b else a

/-- `"%0wd" % n`. -/
def zeroPad (w : ℕ) (n : ℤ) : String :=
  let s := toString n
  String.ofList (List.replicate (w - s.length) '0') ++ s

/-- `str(delta)`, such as `1 day, 0:15:00.000250`. -/
def Timedelta.toStr (d : Timedelta) : String :=
  let days := d.micros / dayMicros
  let rest := d.micros % dayMicros
  let secs := rest / 1000000
  let us := rest % 1000000
  let clock := toString (secs / 3600) ++ ":" ++ zeroPad 2 (secs / 60 % 60) ++ ":" ++ zeroPad 2 (secs % 60)
  let dayPart := if days = 0 then "" else
    toString days ++ " day" ++ (if days.natAbs = 1 then "" else "s") ++ ", "
  dayPart ++ clock ++ (if us = 0 then "" else "." ++ zeroPad 6 us)

/-- A `datetime` in UTC, in microseconds since the year 1. -/
@[ext] structure Datetime where
  micros : ℤ
  nonneg : 0 ≤ micros
  le_max : micros ≤ maxDate
  deriving DecidableEq

/-- The `datetime` at so many microseconds, if it is in range. -/
def Datetime.ofMicros? (n : ℤ) : Option Datetime :=
  if h : 0 ≤ n ∧ n ≤ maxDate then some ⟨n, h.1, h.2⟩ else none

/-- `date + delta`. -/
def Datetime.add (t : Datetime) (d : Timedelta) : Option Datetime :=
  Datetime.ofMicros? (t.micros + d.micros)

/-! ### The operations, in microseconds -/

theorem Timedelta.ofMicros?_eq_some {n : ℤ} {d : Timedelta} :
    Timedelta.ofMicros? n = some d ↔ d.micros = n := by
  unfold Timedelta.ofMicros?
  split_ifs with h
  · rw [Option.some_inj]
    exact ⟨fun e => by rw [← e], fun e => by ext; exact e.symm⟩
  · refine ⟨fun e => (by cases e), fun e => absurd ⟨e ▸ d.min_le, e ▸ d.le_max⟩ h⟩

theorem Datetime.ofMicros?_eq_some {n : ℤ} {t : Datetime} :
    Datetime.ofMicros? n = some t ↔ t.micros = n := by
  unfold Datetime.ofMicros?
  split_ifs with h
  · rw [Option.some_inj]
    exact ⟨fun e => by rw [← e], fun e => by ext; exact e.symm⟩
  · refine ⟨fun e => (by cases e), fun e => absurd ⟨e ▸ t.nonneg, e ▸ t.le_max⟩ h⟩

theorem Datetime.add_eq_some {t u : Datetime} {d : Timedelta} :
    t.add d = some u ↔ u.micros = t.micros + d.micros :=
  Datetime.ofMicros?_eq_some

theorem Datetime.add_eq_none {t : Datetime} {d : Timedelta} :
    t.add d = none ↔ t.micros + d.micros < 0 ∨ maxDate < t.micros + d.micros := by
  unfold Datetime.add Datetime.ofMicros?
  split_ifs with h
  · simp only [false_iff]; omega
  · simp only [true_iff]; omega

theorem Timedelta.min_micros (a b : Timedelta) :
    (Timedelta.min a b).micros = Min.min a.micros b.micros := by
  unfold Timedelta.min
  split_ifs with h
  · exact (min_eq_right h.le).symm
  · exact (min_eq_left (not_lt.mp h)).symm

theorem Timedelta.mulThreeHalves_eq_some {d e : Timedelta} :
    d.mulThreeHalves = some e ↔ e.micros = divRound (d.micros * 3) 2 :=
  Timedelta.ofMicros?_eq_some

theorem Timedelta.lt_totalSeconds_iff {d : Timedelta} {n : ℤ} :
    (n : ℚ) / 1000000 < d.totalSeconds ↔ n < d.micros := by
  unfold Timedelta.totalSeconds
  rw [div_lt_div_iff_of_pos_right (by norm_num)]
  exact Int.cast_lt

theorem Timedelta.totalSeconds_pos {d : Timedelta} (h : 0 < d.micros) : 0 < d.totalSeconds := by
  have h1 := Timedelta.lt_totalSeconds_iff.mpr h
  simpa using h1

theorem Timedelta.totalSeconds_le {d e : Timedelta} (h : d.micros ≤ e.micros) :
    d.totalSeconds ≤ e.totalSeconds := by
  unfold Timedelta.totalSeconds
  have h1 : (d.micros : ℚ) ≤ e.micros := by exact_mod_cast h
  linarith

theorem Timedelta.totalSeconds_lt (d : Timedelta) : d.totalSeconds < 2 ^ 53 := by
  have h := d.le_max
  unfold maxDelta dayMicros at h
  have h1 : (d.micros : ℚ) < 2 ^ 53 * 1000000 := by exact_mod_cast h.trans_lt (by norm_num)
  unfold Timedelta.totalSeconds
  rwa [div_lt_iff₀ (by norm_num)]

theorem Timedelta.truthy_of_pos {d : Timedelta} (h : 0 < d.micros) : d.truthy = true := by
  simp [Timedelta.truthy, h.ne']

end XmemoryTemporal.Python.Time
