import SasTests.Lib.Polling
import SasTests.Python.Json
import Mathlib.Algebra.Order.Floor.Semiring
import Mathlib.Data.Rat.Floor
import Mathlib.Tactic.Linarith

/-!
# Waiting until the backend is ready

`wait_until_ready` tries to connect until it succeeds or the time is up, and sleeps for a second
behind every failure. How each attempt ends and how long it takes is up to the network.

`waitUntilReady_exact` — it returns with the first attempt that succeeds, if that starts in time,
and it neither gives up early nor goes on much longer. A backend that is ready one round before the
time is up is noticed.
-/

namespace SasTests.RemoteBackend

open Python Polling

/-- Whole seconds that are left are fewer after a second. -/
theorem ceil_lt_ceil {x y : ℚ} (h : y + 1 ≤ x) (hx : 0 < x) : ⌈y⌉₊ < ⌈x⌉₊ := by
  rw [Nat.lt_ceil]
  rcases le_total y 0 with hy | hy
  · rwa [Nat.ceil_eq_zero.mpr hy, Nat.cast_zero]
  · exact (Nat.ceil_lt_add_one hy).trans_le h

/-! ## The code -/

/-- One pass of the loop. -/
structure Attempt where
  /-- whether the connection is opened and closed without an exception -/
  connects : Bool
  /-- how long that takes -/
  takes : ℚ
  /-- how long `asyncio.sleep(1)` takes behind a failure -/
  sleeps : ℚ
  takes_nonneg : 0 ≤ takes
  one_le_sleeps : 1 ≤ sleeps

/-- How `wait_until_ready` ends, and when. -/
inductive Waited
  | returned (now : ℚ)
  | raised (e : PyError) (now : ℚ)

variable (attempts : ℕ → Attempt) (wsUrl : String)

/-- The loop, from attempt `n` on; `timeout` is the text of the time-out. -/
def waitLoop (timeout : String) (deadline : ℚ) (n : ℕ) (now : ℚ) : Waited :=
  if now < deadline then
    if (attempts n).connects then .returned (now + (attempts n).takes)
    else waitLoop timeout deadline (n + 1) (now + (attempts n).takes + (attempts n).sleeps)
  else .raised (.timeoutError ("Backend not ready at " ++ wsUrl ++ " after " ++ timeout ++ "s")) now
termination_by ⌈deadline - now⌉₊
decreasing_by
  have h₀ := (attempts n).takes_nonneg
  have h₁ := (attempts n).one_le_sleeps
  apply ceil_lt_ceil
  · linarith
  · linarith

/-- `wait_until_ready`, called at the time `now`; `text` is the text of a number. -/
def waitUntilReady (text : ℚ → String) (timeout now : ℚ) : Waited :=
  waitLoop attempts wsUrl (text timeout) (now + timeout) 0 now

/-! ## Its attempts -/

/-- When attempt `n` starts, if there is one. -/
def startOf (now : ℚ) : ℕ → ℚ
  | 0 => now
  | n + 1 => startOf now n + (attempts n).takes + (attempts n).sleeps

section

variable {attempts wsUrl} {timeout : String} {deadline now : ℚ}

theorem startOf_succ (n : ℕ) : startOf attempts now (n + 1) =
    startOf attempts now n + (attempts n).takes + (attempts n).sleeps := rfl

variable (attempts now) in
theorem apart_startOf : Apart (startOf attempts now) 1 := by
  intro n
  have h₀ := (attempts n).takes_nonneg
  have h₁ := (attempts n).one_le_sleeps
  rw [startOf_succ]
  linarith

/-- Attempts that start in time and fail are passed over. -/
theorem waitLoop_eq {n : ℕ}
    (h : ∀ m < n, startOf attempts now m < deadline ∧ (attempts m).connects = false) :
    waitLoop attempts wsUrl timeout deadline 0 now =
      waitLoop attempts wsUrl timeout deadline n (startOf attempts now n) := by
  induction n with
  | zero => rfl
  | succ n ih =>
    obtain ⟨hstart, hfails⟩ := h n (Nat.lt_succ_self n)
    rw [ih fun m hm => h m (Nat.lt_succ_of_lt hm), waitLoop, if_pos hstart, hfails]
    rfl

/-- What the first attempt that succeeds, or starts too late, decides. -/
theorem waitLoop_eq_of_first (wsUrl timeout : String) {n : ℕ}
    (hn : (attempts n).connects = true ∨ deadline ≤ startOf attempts now n)
    (hfirst : ∀ m < n, startOf attempts now m < deadline ∧ (attempts m).connects = false) :
    startOf attempts now n < deadline ∧ (attempts n).connects = true ∧
        waitLoop attempts wsUrl timeout deadline 0 now =
          .returned (startOf attempts now n + (attempts n).takes) ∨
      deadline ≤ startOf attempts now n ∧
        waitLoop attempts wsUrl timeout deadline 0 now = .raised (.timeoutError
          ("Backend not ready at " ++ wsUrl ++ " after " ++ timeout ++ "s"))
            (startOf attempts now n) := by
  rw [waitLoop_eq hfirst, waitLoop]
  rcases lt_or_ge (startOf attempts now n) deadline with hlt | hge
  · have hconnects := hn.resolve_right (not_le_of_gt hlt)
    rw [if_pos hlt, if_pos hconnects]
    exact .inl ⟨hlt, hconnects, rfl⟩
  · rw [if_neg (not_lt_of_ge hge)]
    exact .inr ⟨hge, rfl⟩

/-- There is such an attempt. -/
theorem exists_last (attempts : ℕ → Attempt) (deadline now : ℚ) :
    ∃ n, ((attempts n).connects = true ∨ deadline ≤ startOf attempts now n) ∧
      ∀ m < n, startOf attempts now m < deadline ∧ (attempts m).connects = false := by
  obtain ⟨late, hlate⟩ := (apart_startOf attempts now).exists_ge one_pos deadline
  have hsome : ∃ n, (attempts n).connects = true ∨ deadline ≤ startOf attempts now n :=
    ⟨late, .inr hlate⟩
  obtain ⟨n, hn, hfirst⟩ := exists_first hsome
  refine ⟨n, hn, fun m hm => ?_⟩
  have hnot := hfirst m hm
  rw [not_or, not_le, Bool.not_eq_true] at hnot
  exact hnot.symm

/-- The rounds before a start in time are at most as many as the seconds that there are. -/
theorem le_ceil_of_lt {n : ℕ} {timeout : ℚ}
    (h : ∀ m < n, startOf attempts now m < now + timeout) : n ≤ ⌈timeout⌉₊ := by
  cases n with
  | zero => exact Nat.zero_le _
  | succ n =>
    rw [Nat.succ_le_iff, Nat.lt_ceil]
    have hsteps := (apart_startOf attempts now).add_nsmul_le n
    have hlt := h n (Nat.lt_succ_self n)
    rw [nsmul_eq_mul, mul_one] at hsteps
    change now + n ≤ _ at hsteps
    linarith

/-- If a round takes at most `most`, so is the time between two starts. -/
theorem within_startOf {most : ℚ} (hmost : ∀ n, (attempts n).takes + (attempts n).sleeps ≤ most) :
    Within (startOf attempts now) most := by
  intro n
  have h := hmost n
  rw [startOf_succ]
  linarith

/-- The loop ends at attempt `n`, which is the first one or comes at most a round behind the last
time at which one could start before `bound`. -/
theorem startOf_lt {most bound : ℚ} {n : ℕ}
    (hmost : ∀ n, (attempts n).takes + (attempts n).sleeps ≤ most) (hbound : now ≤ bound)
    (hbefore : ∀ m < n, startOf attempts now m < bound) : startOf attempts now n < bound + most := by
  by_cases h0 : n = 0
  · subst h0
    have h₀ := (attempts 0).takes_nonneg
    have h₁ := (attempts 0).one_le_sleeps
    have h := hmost 0
    change now < _
    linarith
  · exact (within_startOf hmost).first_lt hbefore h0

end

/-- **`wait_until_ready` returns with the first attempt that succeeds, if it starts in time, and
raises a `TimeoutError` otherwise.**

At most as many attempts fail as the timeout has seconds, since it sleeps for one behind each. The
exception is not raised before the deadline, and if every round takes at most `most`, less than that
behind it. And a backend that is ready from some time on, a round before the deadline, is noticed:
the call returns with an attempt that starts within a round from then. -/
theorem waitUntilReady_exact (attempts : ℕ → Attempt) (wsUrl : String) (text : ℚ → String)
    (timeout now : ℚ) :
    (∃ n ≤ ⌈timeout⌉₊,
      (∀ m < n, startOf attempts now m < now + timeout ∧ (attempts m).connects = false) ∧
      (startOf attempts now n < now + timeout ∧ (attempts n).connects = true ∧
          waitUntilReady attempts wsUrl text timeout now =
            .returned (startOf attempts now n + (attempts n).takes) ∨
        now + timeout ≤ startOf attempts now n ∧
          waitUntilReady attempts wsUrl text timeout now = .raised (.timeoutError
            ("Backend not ready at " ++ wsUrl ++ " after " ++ text timeout ++ "s"))
              (startOf attempts now n) ∧
          ∀ most, (∀ n, (attempts n).takes + (attempts n).sleeps ≤ most) →
            startOf attempts now n < max now (now + timeout) + most)) ∧
      ∀ most, (∀ n, (attempts n).takes + (attempts n).sleeps ≤ most) →
        ∀ ready, now ≤ ready → ready + most ≤ now + timeout →
          (∀ n, ready ≤ startOf attempts now n → (attempts n).connects = true) →
            ∃ n, waitUntilReady attempts wsUrl text timeout now =
                .returned (startOf attempts now n + (attempts n).takes) ∧
              startOf attempts now n < ready + most := by
  obtain ⟨n, hn, hfirst⟩ := exists_last attempts (now + timeout) now
  have hends := waitLoop_eq_of_first wsUrl (text timeout) hn hfirst
  refine ⟨⟨n, le_ceil_of_lt fun m hm => (hfirst m hm).1, hfirst, ?_⟩, ?_⟩
  · refine hends.imp id fun ⟨hge, hraised⟩ => ⟨hge, hraised, fun most hmost => ?_⟩
    exact startOf_lt hmost (le_max_left _ _) fun m hm => lt_max_of_lt_right (hfirst m hm).1
  · intro most hmost ready hnow hready hconnects
    -- an attempt before the last fails, so it starts before the backend is ready
    have hstart : startOf attempts now n < ready + most := by
      refine startOf_lt hmost hnow fun m hm => lt_of_not_ge fun hge => ?_
      have hfails := (hfirst m hm).2
      rw [hconnects m hge] at hfails
      cases hfails
    rcases hends with ⟨-, -, hreturned⟩ | ⟨hge, -⟩
    · exact ⟨n, hreturned, hstart⟩
    · exact absurd (hstart.trans_le hready) (not_lt_of_ge hge)

/-- A backend that refuses the first attempt after two seconds, and accepts the next. -/
def secondAttempt (n : ℕ) : Attempt where
  connects := n ≠ 0
  takes := if n = 0 then 2 else 1 / 2
  sleeps := 1
  takes_nonneg := by split <;> norm_num
  one_le_sleeps := le_refl 1

/-- It is ready after three seconds. -/
theorem waitUntilReady_exact_second : ∃ n,
    waitUntilReady secondAttempt "ws://192.168.0.168:80" (fun _ => "30") 30 0 =
        .returned (startOf secondAttempt 0 n + (secondAttempt n).takes) ∧
      startOf secondAttempt 0 n < 3 + 3 := by
  have hmost : ∀ n, (secondAttempt n).takes + (secondAttempt n).sleeps ≤ 3 := by
    intro n
    simp only [secondAttempt]
    split <;> norm_num
  refine (waitUntilReady_exact secondAttempt _ _ 30 0).2 3 hmost 3 (by norm_num) (by norm_num) ?_
  intro n hn
  cases n with
  | zero => exact absurd hn (by change ¬ (3 : ℚ) ≤ 0; norm_num)
  | succ n => rfl

end SasTests.RemoteBackend
