import SasTests.Python.Float
import SasTests.Python.Format
import Mathlib.Algebra.Order.Field.Power
import Mathlib.Data.Int.Log
import Mathlib.Tactic.FieldSimp
import Mathlib.Tactic.Linarith
import Mathlib.Tactic.Positivity
import Mathlib.Tactic.Ring

/-!
# Doubles

A `float` has 53 significant binary digits, of which none stands behind the 1074th place after the
point. `nearest` rounds a rational to such a number, ties to even, and `roundFloat` makes an
infinity of what is too large. What Python computes with two doubles is the exact result, rounded
in this way.

* `abs_sub_nearest_le_half` — what is not smaller than the smallest double changes by a half of
  itself at most, so it does not become zero.
* `OnGrid` — all doubles are multiples of the smallest one, and so are their differences. Hence the
  difference of two doubles is rounded to zero only if they are equal (`roundFloat_sub_eq_zero`).
* `nearest_dyadic` — doubles are left alone.
* `Json.toDouble` — `float(x)`, which raises on an integer that is too large for a double.
-/

namespace Python

/-- The place of the last binary digit of a double near `q`. -/
def lastPlace (q : ℚ) : ℤ := max (Int.log 2 |q| - 52) (-1074)

/-- The number nearest to `q` with no digits behind its last place, ties to even. -/
def nearest (q : ℚ) : ℚ := roundHalfEven (q / 2 ^ lastPlace q) * 2 ^ lastPlace q

/-- What is at least as far from zero would be rounded to `2 ** 1024`. -/
def floatLimit : ℚ := 2 ^ 1024 - 2 ^ 970

/-- The double nearest to `q`. -/
def roundFloat (q : ℚ) : PyFloat :=
  if |q| < floatLimit then .finite (nearest q) else .inf (decide (q < 0))

/-- The double nearest to an exact result. -/
def PyFloat.rounded : PyFloat → PyFloat
  | finite q => roundFloat q
  | x => x

/-- The smallest positive double. -/
def smallest : ℚ := 2 ^ (-1074 : ℤ)

theorem smallest_pos : 0 < smallest := by
  rw [smallest]
  positivity

theorem smallest_le_one : smallest ≤ 1 := zpow_le_one_of_nonpos₀ (by norm_num) (by norm_num)

theorem two_pow_le_floatLimit : 2 ^ 970 ≤ floatLimit := by
  have hpow : (2 : ℚ) ^ 1024 = 2 ^ 54 * 2 ^ 970 := by rw [← pow_add]
  have hpos : (0 : ℚ) < 2 ^ 970 := by positivity
  rw [floatLimit, hpow]
  generalize (2 : ℚ) ^ 970 = x at hpos
  linarith

theorem floatLimit_pos : 0 < floatLimit :=
  (by positivity : (0 : ℚ) < 2 ^ 970).trans_le two_pow_le_floatLimit

@[simp] theorem nearest_zero : nearest 0 = 0 := by
  have hround : roundHalfEven 0 = 0 := roundHalfEven_intCast 0
  simp [nearest, hround]

theorem roundFloat_of_lt {q : ℚ} (h : |q| < floatLimit) : roundFloat q = .finite (nearest q) :=
  if_pos h

/-! ## How much rounding changes -/

/-- Rounding changes a number by half a unit in its last place at most. -/
theorem abs_sub_nearest_le (q : ℚ) : |q - nearest q| ≤ 2 ^ lastPlace q / 2 := by
  have hpos : (0 : ℚ) < 2 ^ lastPlace q := by positivity
  have hq : q - nearest q =
      (q / 2 ^ lastPlace q - roundHalfEven (q / 2 ^ lastPlace q)) * 2 ^ lastPlace q := by
    rw [nearest]
    field_simp
  rw [hq, abs_mul, abs_of_pos hpos]
  have hhalf := abs_sub_roundHalfEven_le_half (q / 2 ^ lastPlace q)
  calc _ ≤ 1 / 2 * 2 ^ lastPlace q := mul_le_mul_of_nonneg_right hhalf hpos.le
    _ = 2 ^ lastPlace q / 2 := by ring

/-- A number that is not too small has its last place behind its first one. -/
theorem zpow_lastPlace_le {q : ℚ} (h : smallest ≤ |q|) : (2 : ℚ) ^ lastPlace q ≤ |q| := by
  have hpos : 0 < |q| := smallest_pos.trans_le h
  rcases le_total (Int.log 2 |q| - 52) (-1074) with hle | hle
  · rw [lastPlace, max_eq_right hle]
    exact h
  · rw [lastPlace, max_eq_left hle]
    calc (2 : ℚ) ^ (Int.log 2 |q| - 52) ≤ 2 ^ Int.log 2 |q| :=
          zpow_le_zpow_right₀ (by norm_num) (by omega)
      _ ≤ |q| := Int.zpow_log_le_self (b := 2) (by norm_num) hpos

/-- Such a number changes by a half of itself at most. -/
theorem abs_sub_nearest_le_half {q : ℚ} (h : smallest ≤ |q|) : |q - nearest q| ≤ |q| / 2 :=
  (abs_sub_nearest_le q).trans (div_le_div_of_nonneg_right (zpow_lastPlace_le h) (by norm_num))

theorem half_le_nearest {q : ℚ} (h : smallest ≤ q) : q / 2 ≤ nearest q := by
  have hq : |q| = q := abs_of_pos (smallest_pos.trans_le h)
  have hclose := abs_sub_nearest_le_half (h.trans_eq hq.symm)
  rw [hq, abs_le] at hclose
  linarith [hclose.2]

theorem nearest_le {q : ℚ} (h : smallest ≤ q) : nearest q ≤ 3 / 2 * q := by
  have hq : |q| = q := abs_of_pos (smallest_pos.trans_le h)
  have hclose := abs_sub_nearest_le_half (h.trans_eq hq.symm)
  rw [hq, abs_le] at hclose
  linarith [hclose.1]

/-- So it is not rounded to zero. -/
theorem nearest_ne_zero {q : ℚ} (h : smallest ≤ |q|) : nearest q ≠ 0 := by
  intro hzero
  have hclose := abs_sub_nearest_le_half h
  rw [hzero, sub_zero] at hclose
  linarith [smallest_pos]

/-! ## The grid of the doubles -/

/-- A multiple of the smallest double. -/
def OnGrid (q : ℚ) : Prop := ∃ k : ℤ, q = k * smallest

/-- Rounding leads to the grid. -/
theorem onGrid_nearest (q : ℚ) : OnGrid (nearest q) := by
  have hplace : 0 ≤ lastPlace q + 1074 := by
    have := le_max_right (Int.log 2 |q| - 52) (-1074)
    rw [lastPlace]
    omega
  obtain ⟨n, hn⟩ := Int.eq_ofNat_of_zero_le hplace
  refine ⟨roundHalfEven (q / 2 ^ lastPlace q) * 2 ^ n, ?_⟩
  have hpow : (2 : ℚ) ^ lastPlace q = 2 ^ n * smallest := by
    rw [smallest, ← zpow_natCast, ← zpow_add₀ (by norm_num)]
    congr 1
    omega
  rw [nearest, hpow]
  push_cast
  ring

/-- Two different numbers on the grid are not closer than the smallest double. -/
theorem OnGrid.smallest_le {p q : ℚ} (hp : OnGrid p) (hq : OnGrid q) (h : p ≠ q) :
    smallest ≤ |p - q| := by
  obtain ⟨k, rfl⟩ := hp
  obtain ⟨n, rfl⟩ := hq
  have hne : k ≠ n := by
    rintro rfl
    exact h rfl
  have hone : (1 : ℚ) ≤ |(k : ℚ) - n| := by
    exact_mod_cast Int.one_le_abs (sub_ne_zero.mpr hne)
  rw [← sub_mul, abs_mul, abs_of_pos smallest_pos]
  exact le_mul_of_one_le_left smallest_pos.le hone

/-- **The difference of two doubles is rounded to zero only if they are equal.** -/
theorem roundFloat_sub_eq_zero {p q : ℚ} (hp : OnGrid p) (hq : OnGrid q) :
    roundFloat (p - q) = .finite 0 ↔ p = q := by
  constructor
  · intro h
    by_contra hne
    have hsmall := hp.smallest_le hq hne
    rw [roundFloat] at h
    split at h
    · exact nearest_ne_zero hsmall (PyFloat.finite.inj h)
    · cases h
  · rintro rfl
    rw [sub_self, roundFloat_of_lt (by simpa using floatLimit_pos), nearest_zero]

/-! ## Doubles are left alone -/

/-- A number with 53 significant digits, none of which is behind the last possible place, is not
changed by rounding. -/
theorem nearest_dyadic {m e : ℤ} (hm : |m| < 2 ^ 53) (he : -1074 ≤ e) :
    nearest (m * 2 ^ e) = m * 2 ^ e := by
  rcases eq_or_ne m 0 with rfl | hm0
  · simp
  · have hpos : 0 < |(m : ℚ) * 2 ^ e| := abs_pos.mpr (by positivity)
    -- its first place is less than 53 places before the `e`-th
    have hlog : Int.log 2 |(m : ℚ) * 2 ^ e| < 53 + e := by
      rw [← Int.lt_zpow_iff_log_lt (by norm_num) hpos, abs_mul,
        abs_of_pos (by positivity : (0 : ℚ) < 2 ^ e)]
      push_cast
      rw [zpow_add₀ (by norm_num)]
      refine mul_lt_mul_of_pos_right ?_ (by positivity)
      exact_mod_cast hm
    have hplace : lastPlace (m * 2 ^ e) ≤ e := by
      rw [lastPlace]
      exact max_le (by omega) he
    obtain ⟨n, hn⟩ := Int.eq_ofNat_of_zero_le (sub_nonneg.mpr hplace)
    have hquot : (m : ℚ) * 2 ^ e / 2 ^ lastPlace (m * 2 ^ e) = (m * 2 ^ n : ℤ) := by
      rw [mul_div_assoc, ← zpow_sub₀ (by norm_num), hn]
      push_cast
      rfl
    rw [nearest, hquot, roundHalfEven_intCast, ← hquot]
    field_simp

/-! ## `float(x)` -/

namespace Json

/-- `float(x)`, as a double. A text may stand for a number that is too large, which becomes an
infinity; a number of a document that is too large is an integer, since `json.loads` makes an
infinity of any other one. -/
def toDouble : Json → Except PyError PyFloat
  | num q => if |q| < floatLimit then .ok (.finite (nearest q)) else .error .overflowError
  | str s => match parseFloat s.toList with
    | some y => .ok y.rounded
    | none => .error .valueError
  | x => x.toFloat

/-- For a double it is the exact conversion. -/
theorem toDouble_num {q : ℚ} (h : roundFloat q = .finite q) :
    (num q).toDouble = (num q).toFloat := by
  rw [roundFloat] at h
  split at h
  · rename_i hlt
    rw [toDouble, if_pos hlt, PyFloat.finite.inj h]
    rfl
  · cases h

end Json

end Python
