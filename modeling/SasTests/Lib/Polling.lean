import Mathlib.Algebra.Order.Archimedean.Basic
import Mathlib.Order.Monotone.Basic

/-!
# Polling

Something is tried again and again, at the times `t 0`, `t 1`, … Between two tries there is a pause,
so that they are at least some time apart, and a try and the pause behind it take at most some time.

* `Apart.exists_ge` — every bound is passed, and `Apart.add_nsmul_le` says after how many tries.
* `Within.first_lt` — the first try that passes a bound does not pass it by more than one round.
-/

namespace Polling

universe u

variable {α : Type u} [AddCommGroup α] [LinearOrder α] [IsOrderedAddMonoid α]
variable {t : ℕ → α} {d bound : α}

/-- Two tries are at least `d` apart. -/
def Apart (t : ℕ → α) (d : α) : Prop := ∀ n, t n + d ≤ t (n + 1)

/-- The next try is at most `d` later. -/
def Within (t : ℕ → α) (d : α) : Prop := ∀ n, t (n + 1) ≤ t n + d

theorem Apart.add_nsmul_le (h : Apart t d) (n : ℕ) : t 0 + n • d ≤ t n := by
  induction n with
  | zero => rw [zero_nsmul, add_zero]
  | succ n ih =>
    calc t 0 + (n + 1) • d = t 0 + n • d + d := by rw [succ_nsmul, add_assoc]
      _ ≤ t n + d := by gcongr
      _ ≤ t (n + 1) := h n

/-- Every bound is passed. -/
theorem Apart.exists_ge [Archimedean α] (h : Apart t d) (hd : 0 < d) (bound : α) :
    ∃ n, bound ≤ t n := by
  obtain ⟨n, hn⟩ := Archimedean.arch (bound - t 0) hd
  refine ⟨n, ?_⟩
  calc bound = t 0 + (bound - t 0) := by rw [add_sub_cancel]
    _ ≤ t 0 + n • d := by gcongr
    _ ≤ t n := h.add_nsmul_le n

/-- The first try that passes a bound does so within one round. -/
theorem Within.first_lt (h : Within t d) {n : ℕ} (hfirst : ∀ m < n, t m < bound) (hn : n ≠ 0) :
    t n < bound + d := by
  obtain ⟨m, rfl⟩ := Nat.exists_eq_succ_of_ne_zero hn
  calc t (m + 1) ≤ t m + d := h m
    _ < bound + d := by gcongr; exact hfirst m (Nat.lt_succ_self m)

/-- There is a first one. -/
theorem exists_first {p : ℕ → Prop} (h : ∃ n, p n) : ∃ n, p n ∧ ∀ m < n, ¬p m := by
  classical
  exact ⟨Nat.find h, Nat.find_spec h, fun _ => Nat.find_min h⟩

end Polling
