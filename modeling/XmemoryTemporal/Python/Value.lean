import XmemoryTemporal.Lib.Rounding
import Mathlib.Data.Rat.Floor
import Mathlib.Data.Nat.Notation

/-! # Python values

The values the program passes on or inspects without a type of its own: what a JSON document decodes
to (`PyVal`), with the numbers a float literal can denote (`PyFloat`: `1e999` decodes to infinity).
`truthy` is the test of `if x` and `x or y`; `intOf` is the conversion `int(x)` with the exception it
raises where there is no integer (`IntError`).

A float is its exact value, and the result of a float operation the exact one rounded by `binary64`. The
rounding is left out where it moves an instant by no more than an ulp and no comparison turns on it: the
times and budgets of captures and the client budgets that the attempts carry are exact rationals. It is
there in the bucket of an activity id, and where two client budgets are compared. -/

namespace XmemoryTemporal.Python.Value

open XmemoryTemporal.Lib.Rounding

/-- The float nearest to a number, half to even; the bounds of the exponent are left out. -/
def binary64 (q : ℚ) : ℚ := roundBits 53 q

theorem binary64_mono : Monotone binary64 := fun _ _ h => roundBits_mono (by omega) h

theorem binary64_pos {q : ℚ} (h : 0 < q) : 0 < binary64 q := roundBits_pos (by omega) h

theorem binary64_natCast {n : ℕ} (h : n ≤ 2 ^ 53) : binary64 n = n := roundBits_natCast (by omega) h

theorem abs_binary64_sub_le {q : ℚ} (h : 0 < q) : |binary64 q - q| ≤ q / 2 ^ 53 := by
  have herr := abs_roundBits_sub_le 53 q
  rwa [abs_of_pos h] at herr

/-- A float: a finite value, one of the infinities, or not a number. -/
inductive PyFloat where
  | finite (q : ℚ)
  | posInf
  | negInf
  | nan
  deriving DecidableEq

/-- The value of a finite float, and 0 for the others. -/
def PyFloat.toRat : PyFloat → ℚ
  | finite q => q
  | _ => 0

/-- `x < y` on floats: every comparison with `nan` is false. -/
def PyFloat.lt : PyFloat → PyFloat → Bool
  | finite q, finite r => q < r
  | finite _, posInf => true
  | negInf, finite _ => true
  | negInf, posInf => true
  | _, _ => false

/-- `x <= y` on floats. -/
def PyFloat.le : PyFloat → PyFloat → Bool
  | nan, _ => false
  | _, nan => false
  | negInf, _ => true
  | _, posInf => true
  | finite q, finite r => q ≤ r
  | _, _ => false

/-- A value as `json.loads` decodes it. -/
inductive PyVal where
  | none
  | bool (b : Bool)
  | int (i : ℤ)
  | float (x : PyFloat)
  | str (s : String)
  | list (xs : List PyVal)
  | dict (items : List (String × PyVal))

/-- The test of `if v` and of `v or …`. -/
def PyVal.truthy : PyVal → Bool
  | none => false
  | bool b => b
  | int i => i ≠ 0
  | float (.finite q) => q ≠ 0
  | float _ => true
  | str s => s ≠ ""
  | list xs => !xs.isEmpty
  | dict items => !items.isEmpty

/-- `v.get(key)` of a dict, `None` if there is no such key. -/
def PyVal.getKey (items : List (String × PyVal)) (key : String) : PyVal :=
  (items.lookup key).getD .none

/-- `None` or a `str`, as a value. -/
def PyVal.ofStr? : Option String → PyVal
  | .none => .none
  | some s => .str s

/-- `None` or an `int`, as a value. -/
def PyVal.ofInt? : Option ℤ → PyVal
  | .none => .none
  | some i => .int i

/-- An attribute read by `getattr`: missing, `None`, or a value. -/
inductive Attr (α : Type) where
  | missing
  | none
  | value (a : α)
  deriving DecidableEq

/-- `getattr(obj, name, default)`; `None` is `Option.none`. -/
def Attr.getattr {α : Type} (default : Option α) : Attr α → Option α
  | missing => default
  | none => .none
  | value a => some a

/-- `hasattr(obj, name)`. -/
def Attr.hasattr {α : Type} : Attr α → Bool
  | missing => false
  | _ => true

/-! ### `int(x)` -/

/-- What `int(x)` raises. -/
inductive IntError where
  | typeError
  | valueError
  | overflowError
  deriving DecidableEq

/-- The code points of the digit zero in the blocks of decimal digits; the other nine follow it. -/
def decimalZeros : List ℕ :=
  [0x30, 0x660, 0x6f0, 0x7c0, 0x966, 0x9e6, 0xa66, 0xae6, 0xb66, 0xbe6, 0xc66, 0xce6, 0xd66, 0xde6,
    0xe50, 0xed0, 0xf20, 0x1040, 0x1090, 0x17e0, 0x1810, 0x1946, 0x19d0, 0x1a80, 0x1a90, 0x1b50,
    0x1bb0, 0x1c40, 0x1c50, 0xa620, 0xa8d0, 0xa900, 0xa9d0, 0xa9f0, 0xaa50, 0xabf0, 0xff10, 0x104a0,
    0x10d30, 0x11066, 0x110f0, 0x11136, 0x111d0, 0x112f0, 0x11450, 0x114d0, 0x11650, 0x116c0,
    0x11730, 0x118e0, 0x11950, 0x11c50, 0x11d50, 0x11da0, 0x16a60, 0x16ac0, 0x16b50, 0x1d7ce,
    0x1d7d8, 0x1d7e2, 0x1d7ec, 0x1d7f6, 0x1e140, 0x1e2f0, 0x1e950, 0x1fbf0]

/-- The value of a decimal digit of any script. -/
def decimal? (c : Char) : Option ℕ :=
  (decimalZeros.find? fun z => z ≤ c.toNat && c.toNat ≤ z + 9).map (c.toNat - ·)

/-- The blanks `int` strips: the ASCII ones, and those of `str.isspace` outside ASCII. -/
def isSpace (c : Char) : Bool :=
  let n := c.toNat
  (9 ≤ n && n ≤ 13) || n = 32 || n = 0x85 || n = 0xa0 || n = 0x1680 ||
    (0x2000 ≤ n && n ≤ 0x200a) || n = 0x2028 || n = 0x2029 || n = 0x202f || n = 0x205f || n = 0x3000

/-- The digits of a literal, a single underscore allowed between two of them: the number they denote
and how many there are. `afterDigit` says whether the previous character was a digit. -/
def digits : List Char → Bool → ℤ → ℕ → Option (ℤ × ℕ)
  | [], afterDigit, value, count => if afterDigit then some (value, count) else .none
  | c :: cs, afterDigit, value, count =>
    if c = '_' then
      if afterDigit then digits cs false value count else .none
    else
      match decimal? c with
      | some d => digits cs true (10 * value + d) (count + 1)
      | .none => .none

/-- The longest literal `int` converts (`sys.get_int_max_str_digits`). -/
def maxStrDigits : ℕ := 4300

/-- `int(s)` of a text, `none` for the `ValueError`. -/
def intOfStr (s : String) : Option ℤ :=
  let cs := s.toList
  let body := ((cs.dropWhile isSpace).reverse.dropWhile isSpace).reverse
  let (sign, body) := match body with
    | '-' :: rest => ((-1 : ℤ), rest)
    | '+' :: rest => (1, rest)
    | rest => (1, rest)
  match digits body false 0 0 with
  | some (value, count) => if count ≤ maxStrDigits then some (sign * value) else .none
  | .none => .none

/-- `int(v)`: a float is cut off towards zero, and an infinite one has no integer. -/
def intOf : PyVal → Except IntError ℤ
  | .int i => .ok i
  | .bool b => .ok (if b then 1 else 0)
  | .float (.finite q) => .ok (if 0 ≤ q then ⌊q⌋ else ⌈q⌉)
  | .float .nan => .error .valueError
  | .float _ => .error .overflowError
  | .str s =>
    match intOfStr s with
    | some i => .ok i
    | .none => .error .valueError
  | _ => .error .typeError

/-- The float infinities. -/
def PyVal.infinite : PyVal → Bool
  | .float .posInf => true
  | .float .negInf => true
  | _ => false

theorem intOf_overflow_iff (v : PyVal) : intOf v = .error .overflowError ↔ v.infinite = true := by
  cases v with
  | float x => cases x <;> simp [intOf, PyVal.infinite]
  | str s => cases h : intOfStr s <;> simp [intOf, PyVal.infinite, h]
  | _ => simp [intOf, PyVal.infinite]

end XmemoryTemporal.Python.Value
