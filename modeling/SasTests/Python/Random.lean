import SasTests.Python.Format
import Mathlib.Algebra.Order.Floor.Ring
import Mathlib.Tactic.Linarith
import Mathlib.Tactic.Positivity.Basic

/-!
# Random draws and rounding

A draw is any value that the call may return, so that what holds of all draws holds of all runs.
`uniform` may return any rational in its interval.

`round(q, d)` returns a nearest multiple of `1 / 10 ** d`. Which of two equally near ones it takes
is left open (`Rounding`); `Rounding.halfEven` takes the even one.
-/

namespace Python

/-- `random.randint(a, b)` -/
abbrev Randint (a b : ℤ) := {n : ℤ // a ≤ n ∧ n ≤ b}

/-- `random.uniform(a, b)` -/
abbrev Uniform (a b : ℚ) := {q : ℚ // min a b ≤ q ∧ q ≤ max a b}

/-- `random.choice(values)` -/
abbrev Choice {α : Type} (values : List α) := {x : α // x ∈ values}

theorem Uniform.mem {a b : ℚ} (h : a ≤ b) (q : Uniform a b) : a ≤ q.1 ∧ q.1 ≤ b := by
  obtain ⟨q, hmin, hmax⟩ := q
  rw [min_eq_left h] at hmin
  rw [max_eq_right h] at hmax
  exact ⟨hmin, hmax⟩

/-- `round(q, d)` -/
structure Rounding (d : ℕ) where
  round : ℚ → ℚ
  multiple : ∀ q, ∃ n : ℤ, round q = n / 10 ^ d
  nearest : ∀ (q : ℚ) (n : ℤ), |q - round q| ≤ |q - n / 10 ^ d|

/-- `round` returns a nearest integer. -/
theorem abs_sub_roundHalfEven_le (q : ℚ) (n : ℤ) : |q - roundHalfEven q| ≤ |q - n| := by
  have hhalf := abs_sub_roundHalfEven_le_half q
  by_cases hn : n = roundHalfEven q
  · rw [hn]
  · have hone : (1 : ℚ) ≤ |(roundHalfEven q : ℚ) - n| := by
      exact_mod_cast Int.one_le_abs (sub_ne_zero.mpr (Ne.symm hn))
    have htriangle := abs_sub_le (roundHalfEven q : ℚ) q n
    rw [abs_sub_comm (roundHalfEven q : ℚ) q] at htriangle
    linarith

namespace Rounding

variable {d : ℕ} (r : Rounding d)

/-- A number with so many digits is left alone. -/
theorem round_multiple (n : ℤ) : r.round (n / 10 ^ d) = n / 10 ^ d := by
  have h := r.nearest (n / 10 ^ d) n
  rw [sub_self, abs_zero] at h
  exact (sub_eq_zero.mp (abs_nonpos_iff.mp h)).symm

theorem round_round (q : ℚ) : r.round (r.round q) = r.round q := by
  obtain ⟨n, hn⟩ := r.multiple q
  rw [hn, r.round_multiple]

/-- Rounding keeps the order: otherwise the number halfway between the two results would not be
above the greater number, and not below the smaller one. -/
theorem round_mono {p q : ℚ} (h : p ≤ q) : r.round p ≤ r.round q := by
  rcases h.eq_or_lt with rfl | h
  · exact le_rfl
  by_contra hlt
  rw [not_le] at hlt
  obtain ⟨m, hm⟩ := r.multiple p
  obtain ⟨n, hn⟩ := r.multiple q
  have hp : (p - r.round p) ^ 2 ≤ (p - r.round q) ^ 2 := by
    rw [hn]
    exact sq_le_sq.mpr (r.nearest p n)
  have hq : (q - r.round q) ^ 2 ≤ (q - r.round p) ^ 2 := by
    rw [hm]
    exact sq_le_sq.mpr (r.nearest q m)
  have hbelow : r.round p + r.round q ≤ 2 * p := by
    refine le_of_mul_le_mul_left ?_ (sub_pos.mpr hlt)
    linarith
  have habove : 2 * q ≤ r.round p + r.round q := by
    refine le_of_mul_le_mul_left ?_ (sub_pos.mpr hlt)
    linarith
  linarith

/-- What lies between two rounded numbers is rounded to a number between them. -/
theorem round_mem {lo hi q : ℚ} (hlo : r.round lo = lo) (hhi : r.round hi = hi)
    (h : lo ≤ q ∧ q ≤ hi) : lo ≤ r.round q ∧ r.round q ≤ hi := by
  rw [← hlo, ← hhi]
  exact ⟨r.round_mono (hlo.symm ▸ h.1), r.round_mono (hhi.symm ▸ h.2)⟩

/-- To the nearest number with `d` digits, ties to even. -/
def halfEven (d : ℕ) : Rounding d where
  round q := roundHalfEven (q * 10 ^ d) / 10 ^ d
  multiple q := ⟨_, rfl⟩
  nearest q n := by
    have hpos : (0 : ℚ) < 10 ^ d := by positivity
    have hscale : ∀ m : ℤ, |q - m / 10 ^ d| = |q * 10 ^ d - m| / 10 ^ d := fun m => by
      rw [← abs_of_pos hpos, ← abs_div, abs_of_pos hpos, sub_div, mul_div_cancel_right₀ _ hpos.ne']
    rw [hscale, hscale]
    exact div_le_div_of_nonneg_right (abs_sub_roundHalfEven_le _ n) hpos.le

end Rounding

end Python
