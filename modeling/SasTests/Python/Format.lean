import Mathlib.Data.Rat.Floor
import Mathlib.Tactic.Linarith

/-!
# Formatting of numbers in messages

`f"{x:.2f}"`, `f"{x:.1f}"` and `f"{x:.0f}"` for an exact rational: rounded to the nearest number
with so many digits, ties to even.
-/

namespace Python

/-- `sys.int_info.default_max_str_digits`: longer integers are neither read nor written. -/
def maxStrDigits : ℕ := 4300

/-- `round(q)`: to the nearest integer, ties to even. -/
def roundHalfEven (q : ℚ) : ℤ :=
  let below := ⌊q⌋
  if q - below < 1 / 2 then below
  else if q - below = 1 / 2 ∧ below % 2 = 0 then below
  else below + 1

/-- It is off by a half at most. -/
theorem abs_sub_roundHalfEven_le_half (q : ℚ) : |q - roundHalfEven q| ≤ 1 / 2 := by
  have hfloor := Int.floor_le q
  have hlt := Int.lt_floor_add_one q
  rw [roundHalfEven, abs_le]
  split_ifs <;> push_cast <;> constructor <;> linarith

/-- An integer is left alone. -/
@[simp] theorem roundHalfEven_intCast (n : ℤ) : roundHalfEven n = n := by
  rw [roundHalfEven]
  simp

/-- `f"{q:.1f}"`. -/
def fixed1 (q : ℚ) : String :=
  let tenths := (roundHalfEven (q * 10)).natAbs
  (if q < 0 then "-" else "") ++ toString (tenths / 10) ++ "." ++ toString (tenths % 10)

/-- `f"{q:.2f}"`. -/
def fixed2 (q : ℚ) : String :=
  let hundredths := (roundHalfEven (q * 100)).natAbs
  (if q < 0 then "-" else "") ++ toString (hundredths / 100) ++ "." ++
    toString (hundredths / 10 % 10) ++ toString (hundredths % 10)

/-- `f"{q:.0f}"`. -/
def fixed0 (q : ℚ) : String :=
  (if q < 0 then "-" else "") ++ toString (roundHalfEven q).natAbs

example : fixed1 5 = "5.0" := by decide +kernel

end Python
