import SasTests.Python.Ascii
import Mathlib.Algebra.Order.Field.Rat

/-!
# Floating-point numbers

A `float` is an exact rational, an infinity or `nan` (`PyFloat`). Nothing is rounded, and no number
is too large.

* `divide` — division, which may fail.
* `PyFloat.lt`, `min`, `max` — the comparisons are false on `nan`, and `min` and `max` keep their
  first argument unless the comparison says otherwise.
* `toFloat` — `float(x)`, with the grammar of numbers in a text.
* `toInt` — `int(x)`, which cuts the fraction off.
-/

namespace Python

/-- `a / b` -/
def divide (a b : ℚ) : Except PyError ℚ := if b = 0 then .error .zeroDivisionError else .ok (a / b)

theorem divide_of_ne_zero (a : ℚ) {b : ℚ} (h : b ≠ 0) : divide a b = .ok (a / b) := if_neg h

/-- A `float`. -/
inductive PyFloat
  | finite (q : ℚ)
  | inf (negative : Bool)
  | nan
  deriving DecidableEq

namespace PyFloat

/-! ## Arithmetic -/

/-- `-x` -/
def neg : PyFloat → PyFloat
  | finite q => finite (-q)
  | inf negative => inf !negative
  | nan => nan

/-- `x + y` -/
def add : PyFloat → PyFloat → PyFloat
  | finite p, finite q => finite (p + q)
  | finite _, inf negative => inf negative
  | inf negative, finite _ => inf negative
  | inf negative, inf negative' => if negative = negative' then inf negative else nan
  | nan, _ => nan
  | _, nan => nan

/-- `x - y` -/
def sub (x y : PyFloat) : PyFloat := x.add y.neg

/-- `x / 2` -/
def half : PyFloat → PyFloat
  | finite q => finite (q / 2)
  | inf negative => inf negative
  | nan => nan

/-- `x * q` for a positive `q`. -/
def times (x : PyFloat) (q : { q : ℚ // 0 < q }) : PyFloat :=
  match x with
  | finite p => finite (p * q)
  | inf negative => inf negative
  | nan => nan

/-- `abs(x)` -/
def abs : PyFloat → PyFloat
  | finite q => finite |q|
  | inf _ => inf false
  | nan => nan

/-- `x < y` -/
def lt : PyFloat → PyFloat → Bool
  | finite p, finite q => p < q
  | finite _, inf negative => !negative
  | inf negative, finite _ => negative
  | inf negative, inf negative' => negative && !negative'
  | nan, _ => false
  | _, nan => false

/-- `x <= y` -/
def le (x y : PyFloat) : Bool := x.lt y || (x = y && x ≠ nan)

/-- `min(x, y)` -/
def min (x y : PyFloat) : PyFloat := if y.lt x then y else x

/-- `max(x, y)` -/
def max (x y : PyFloat) : PyFloat := if x.lt y then y else x

/-- The value of a dictionary that is `x`. -/
def toJson : PyFloat → Json
  | finite q => .num q
  | inf true => .nonFinite "-Infinity"
  | inf false => .nonFinite "Infinity"
  | nan => .nonFinite "NaN"

section Finite

variable (p q : ℚ)

@[simp] theorem add_finite : (finite p).add (finite q) = finite (p + q) := rfl

@[simp] theorem sub_finite : (finite p).sub (finite q) = finite (p - q) := by
  rw [sub_eq_add_neg]
  rfl

@[simp] theorem half_finite : (finite p).half = finite (p / 2) := rfl

@[simp] theorem times_finite (q : { q : ℚ // 0 < q }) : (finite p).times q = finite (p * q) := rfl

@[simp] theorem abs_finite : (finite p).abs = finite |p| := rfl

@[simp] theorem lt_finite : (finite p).lt (finite q) = decide (p < q) := rfl

@[simp] theorem le_finite : (finite p).le (finite q) = decide (p ≤ q) := by
  simp [le, le_iff_lt_or_eq]

@[simp] theorem min_finite : (finite p).min (finite q) = finite (Min.min p q) := by
  rcases le_or_gt p q with h | h
  · simp [min, h]
  · simp [min, h, h.le]

@[simp] theorem max_finite : (finite p).max (finite q) = finite (Max.max p q) := by
  rcases le_or_gt q p with h | h
  · simp [max, h]
  · simp [max, h, h.le]

@[simp] theorem toJson_finite : (finite p).toJson = .num p := rfl

end Finite

/-- Two numbers are in order unless they are in the other order; this is false on `nan` only. -/
theorem le_eq_not_lt_iff {x y : PyFloat} : x.le y = !y.lt x ↔ x ≠ nan ∧ y ≠ nan := by
  cases x with
  | finite p =>
    cases y with
    | finite q =>
      have hle : decide (p ≤ q) = !decide (q < p) := by
        rw [← decide_not]
        exact decide_eq_decide.mpr not_lt.symm
      simp [hle]
    | inf negative => cases negative <;> simp [le, lt]
    | nan => simp [le, lt]
  | inf negative =>
    cases y with
    | finite q => cases negative <;> simp [le, lt]
    | inf negative' => cases negative <;> cases negative' <;> simp [le, lt]
    | nan => simp [le, lt]
  | nan => cases y <;> simp [le, lt]

end PyFloat

/-! ## Numbers in a text -/

/-- Digits, or nothing. -/
def parseDigits? : List Char → Option ℕ
  | [] => some 0
  | text => parseDigits text

/-- The exponent of a number: `e`, a sign, digits, or nothing at all. -/
def parseExponent : List Char → Option ℤ
  | [] => some 0
  | _ :: '+' :: text => (parseDigits text).map fun n => (n : ℤ)
  | _ :: '-' :: text => (parseDigits text).map fun n => -(n : ℤ)
  | _ :: text => (parseDigits text).map fun n => (n : ℤ)

/-- A number without a sign. -/
def parseDecimal (text : List Char) : Option ℚ := do
  let (mantissa, exponent) := text.span fun c => c.toLower ≠ 'e'
  let (whole, point) := mantissa.span fun c => c ≠ '.'
  let fraction := point.tail
  let e ← parseExponent exponent
  let n ← parseDigits? whole
  let m ← parseDigits? fraction
  guard (whole ≠ [] ∨ fraction ≠ [])
  return (n + m / 10 ^ (fraction.filter Char.isDigit).length) * 10 ^ e

/-- A number without a sign, or one of the names of what is not finite. -/
def parseUnsigned (text : List Char) : Option PyFloat :=
  let name := text.map Char.toLower
  if name = "inf".toList ∨ name = "infinity".toList then some (.inf false)
  else if name = "nan".toList then some .nan
  else (parseDecimal text).map .finite

/-- `float(text)` for an ASCII text, if it is a number. -/
def parseFloat (text : List Char) : Option PyFloat :=
  match stripBy isBlank text with
  | '+' :: rest => parseUnsigned rest
  | '-' :: rest => (parseUnsigned rest).map PyFloat.neg
  | rest => parseUnsigned rest

namespace Json

/-- The number that `x` is in arithmetic and in comparisons. -/
def number? : Json → Option PyFloat
  | bool b => some (.finite (if b then 1 else 0))
  | num q => some (.finite q)
  | nonFinite "Infinity" => some (.inf false)
  | nonFinite "-Infinity" => some (.inf true)
  | nonFinite _ => some .nan
  | _ => none

/-- `float(x)` -/
def toFloat (x : Json) : Except PyError PyFloat :=
  match x.number? with
  | some y => .ok y
  | none => match x with
    | str s => match parseFloat s.toList with
      | some y => .ok y
      | none => .error .valueError
    | _ => .error .typeError

/-- `int(x)`; `text` says what it makes of a string. -/
def toInt (text : String → Except PyError ℤ) (x : Json) : Except PyError ℤ :=
  match x.number? with
  | some (.finite q) => .ok (q.num.tdiv q.den)
  | some (.inf _) => .error .overflowError
  | some .nan => .error .valueError
  | none => match x with
    | str s => text s
    | _ => .error .typeError

/-- `x < y` for a `float` `y`. -/
def ltFloat (x : Json) (y : PyFloat) : Except PyError Bool :=
  match x.number? with
  | some x => .ok (x.lt y)
  | none => .error .typeError

/-- `x > y` for a `float` `y`. -/
def gtFloat (x : Json) (y : PyFloat) : Except PyError Bool :=
  match x.number? with
  | some x => .ok (y.lt x)
  | none => .error .typeError

@[simp] theorem ltFloat_num (p q : ℚ) : (num p).ltFloat (.finite q) = .ok (decide (p < q)) := rfl

@[simp] theorem gtFloat_num (p q : ℚ) : (num p).gtFloat (.finite q) = .ok (decide (q < p)) := rfl

end Json

example : parseFloat " -1_0.5e-1 ".toList = some (.finite (-21 / 20)) := by decide +kernel

end Python
