import SasTests.Python.Binary64

/-!
# Integers and floats in arithmetic

`json.loads` makes an `int` of a number without a point and an exponent, and a `float` of any other
one, and a program computes with both in the same way. Integers are exact and as large as they need
to be; a `float` is rounded after every operation, to an infinity if it is too large; and where an
integer meets a `float`, it is converted first, which raises `OverflowError` if it is too large.

* `add`, `sub`, `thousandfold`, `truediv` — the operations, which may raise.
* `lt` — comparisons are exact, also between an integer and a `float`.
* `sum`, `maximum` — over a list.
* `exists_arith_iff`, `exists_truediv_int_iff`, `exists_truediv_float_iff`, `exists_sum_iff` — when
  they return.

The sign of a zero is not kept.
-/

namespace Python

namespace PyFloat

/-- `x / y` for `y` other than zero. -/
def quotient : PyFloat → PyFloat → PyFloat
  | finite p, finite q => roundFloat (p / q)
  | finite _, inf _ => finite 0
  | inf negative, finite q => inf (negative != decide (q < 0))
  | inf _, inf _ => nan
  | nan, _ => nan
  | _, nan => nan

/-- `x / y` -/
def div (x y : PyFloat) : Except PyError PyFloat :=
  if y = finite 0 then .error .zeroDivisionError else .ok (x.quotient y)

/-- `f"{x:.<k>f}"`, where `digits` writes a number with `k` digits behind the point. -/
def format (digits : ℚ → String) : PyFloat → String
  | finite q => digits q
  | inf negative => if negative then "-inf" else "inf"
  | nan => "nan"

end PyFloat

/-- A number of Python. -/
inductive PyNum
  | int (n : ℤ)
  | float (x : PyFloat)
  deriving DecidableEq

namespace PyNum

/-! ## Operations -/

/-- `float(x)` -/
def toFloat : PyNum → Except PyError PyFloat
  | int n => if |(n : ℚ)| < floatLimit then .ok (.finite (nearest n)) else .error .overflowError
  | float x => .ok x

/-- An operation that is exact on integers, and on floats is the exact one, rounded. -/
def arith (onInt : ℤ → ℤ → ℤ) (onFloat : PyFloat → PyFloat → PyFloat) :
    PyNum → PyNum → Except PyError PyNum
  | int m, int n => .ok (int (onInt m n))
  | x, y => do
    let a ← x.toFloat
    let b ← y.toFloat
    return float (onFloat a b).rounded

/-- `x + y` -/
def add : PyNum → PyNum → Except PyError PyNum := arith (· + ·) PyFloat.add

/-- `x - y` -/
def sub : PyNum → PyNum → Except PyError PyNum := arith (· - ·) PyFloat.sub

/-- `x * 1000` -/
def thousandfold : PyNum → PyNum
  | int n => int (n * 1000)
  | float x => float (x.times ⟨1000, by norm_num⟩).rounded

/-- `x / y`. The quotient of two integers is rounded once; it is too large if it would become
infinite. -/
def truediv : PyNum → PyNum → Except PyError PyNum
  | int m, int n =>
    if n = 0 then .error .zeroDivisionError
    else if |(m : ℚ) / n| < floatLimit then .ok (float (.finite (nearest (m / n))))
    else .error .overflowError
  | x, y => do
    let a ← x.toFloat
    let b ← y.toFloat
    return float (← a.div b)

/-- The number itself. -/
def exact : PyNum → PyFloat
  | int n => .finite n
  | float x => x

/-- `x < y` -/
def lt (x y : PyNum) : Bool := x.exact.lt y.exact

/-- `sum(l)` -/
def sum (l : List PyNum) : Except PyError PyNum := l.foldlM add (int 0)

/-- `max(l, default=0)` -/
def maximum : List PyNum → PyNum
  | [] => int 0
  | x :: l => l.foldl (fun x y => if x.lt y then y else x) x

/-- `f"{x:.<k>f}"` -/
def format (digits : ℚ → String) (x : PyNum) : Except PyError String := do
  return (← x.toFloat).format digits

/-! ## When they return -/

/-- An integer that is not too large for a float, or a float. -/
def Fits : PyNum → Prop
  | int n => |(n : ℚ)| < floatLimit
  | float _ => True

@[simp] theorem fits_float (x : PyFloat) : (float x).Fits := trivial

/-- The float that a number becomes. -/
def approx : PyNum → PyFloat
  | int n => .finite (nearest n)
  | float x => x

/-- If one of the numbers is a float, the other one fits, too. -/
def Mixable : PyNum → PyNum → Prop
  | int _, int _ => True
  | x, y => x.Fits ∧ y.Fits

/-- What `arith` computes. -/
def result (onInt : ℤ → ℤ → ℤ) (onFloat : PyFloat → PyFloat → PyFloat) : PyNum → PyNum → PyNum
  | int m, int n => int (onInt m n)
  | x, y => float (onFloat x.approx y.approx).rounded

/-- `y - x`, if it can be computed. -/
def difference (x y : PyNum) : PyNum := result (· - ·) PyFloat.sub y x

theorem toFloat_of_fits {x : PyNum} (h : x.Fits) : x.toFloat = .ok x.approx := by
  cases x with
  | int n => exact if_pos h
  | float x => rfl

theorem toFloat_of_not_fits {x : PyNum} (h : ¬ x.Fits) : x.toFloat = .error .overflowError := by
  cases x with
  | int n => exact if_neg h
  | float x => exact absurd trivial h

variable {onInt : ℤ → ℤ → ℤ} {onFloat : PyFloat → PyFloat → PyFloat}

theorem arith_of_mixable {x y : PyNum} (h : x.Mixable y) :
    arith onInt onFloat x y = .ok (result onInt onFloat x y) := by
  cases x with
  | int m =>
    cases y with
    | int n => rfl
    | float y => simp only [arith, toFloat_of_fits h.1]; rfl
  | float x => simp only [arith, toFloat_of_fits h.2]; rfl

theorem arith_of_not_mixable {x y : PyNum} (h : ¬ x.Mixable y) :
    arith onInt onFloat x y = .error .overflowError := by
  cases x with
  | int m =>
    cases y with
    | int n => exact absurd trivial h
    | float y =>
      have hm : ¬ (int m).Fits := fun hm => h ⟨hm, trivial⟩
      simp only [arith, toFloat_of_not_fits hm]
      rfl
  | float x =>
    have hy : ¬ y.Fits := fun hy => h ⟨trivial, hy⟩
    simp only [arith, toFloat_of_not_fits hy]
    rfl

/-- **An operation returns exactly if no integer is too large for the float it meets.** -/
theorem exists_arith_iff {x y : PyNum} :
    (∃ z, arith onInt onFloat x y = .ok z) ↔ x.Mixable y := by
  by_cases h : x.Mixable y
  · exact iff_of_true ⟨_, arith_of_mixable h⟩ h
  · refine iff_of_false ?_ h
    rw [arith_of_not_mixable h]
    simp

/-- What a subtraction returns, and when. -/
theorem sub_eq_ok_iff {x y z : PyNum} : y.sub x = .ok z ↔ y.Mixable x ∧ z = difference x y := by
  by_cases h : y.Mixable x
  · simp [sub, arith_of_mixable h, difference, h, eq_comm]
  · simp [sub, arith_of_not_mixable h, h]

theorem exists_format_iff {digits : ℚ → String} {x : PyNum} :
    (∃ s, x.format digits = .ok s) ↔ x.Fits := by
  by_cases h : x.Fits
  · refine iff_of_true ⟨x.approx.format digits, ?_⟩ h
    simp only [format, toFloat_of_fits h]
    rfl
  · refine iff_of_false ?_ h
    simp [format, toFloat_of_not_fits h, bind, Except.bind]

/-- An integer of an ordinary size fits. -/
theorem fits_of_abs_lt {n : ℤ} (h : |n| < 2 ^ 100) : (int n).Fits := by
  have hn : |(n : ℚ)| < 2 ^ 100 := by exact_mod_cast h
  have hle : (2 : ℚ) ^ 100 ≤ 2 ^ 970 := pow_le_pow_right₀ (by norm_num) (by norm_num)
  exact hn.trans_le (hle.trans two_pow_le_floatLimit)

/-- So does one that is not further from zero than another one. -/
theorem fits_of_le {m n : ℤ} (hm : 0 ≤ m) (h : m ≤ n) (hn : (int n).Fits) : (int m).Fits := by
  have habs : |(m : ℚ)| ≤ |(n : ℚ)| := by exact_mod_cast abs_le_abs_of_nonneg hm h
  exact habs.trans_lt hn

/-- A quotient is a float. -/
theorem eq_float_of_truediv {x y z : PyNum} (h : x.truediv y = .ok z) : ∃ w, z = float w := by
  have hfloat : ∀ {x y : PyNum},
      (do return float (← (← x.toFloat).div (← y.toFloat))) = Except.ok z → ∃ w, z = float w := by
    intro x y h
    obtain ⟨a, -, h⟩ := bind_eq_ok h
    obtain ⟨b, -, h⟩ := bind_eq_ok h
    obtain ⟨w, -, h⟩ := bind_eq_ok h
    exact ⟨w, (Except.ok.inj h).symm⟩
  cases x with
  | int m =>
    cases y with
    | int n =>
      rw [truediv] at h
      split_ifs at h
      exact ⟨_, (Except.ok.inj h).symm⟩
    | float y => exact hfloat h
  | float x => exact hfloat h

/-- The quotient of two integers. -/
theorem exists_truediv_int_iff {m n : ℤ} :
    (∃ z, (int m).truediv (int n) = .ok z) ↔ n ≠ 0 ∧ |(m : ℚ) / n| < floatLimit := by
  rw [truediv]
  split_ifs with hn hlt
  · simp [hn]
  · simp [hn, hlt]
  · simp [hlt]

/-- A quotient in which one of the numbers is a float is one of floats. -/
theorem truediv_eq {x y : PyNum} (h : ∀ m n, x = int m → y ≠ int n) :
    x.truediv y = (do return float (← (← x.toFloat).div (← y.toFloat))) := by
  cases x with
  | int m =>
    cases y with
    | int n => exact absurd rfl (h m n rfl)
    | float y => rfl
  | float x => rfl

/-- A number that fits, divided by a float. -/
theorem truediv_float {x : PyNum} (h : x.Fits) (y : PyFloat) :
    x.truediv (float y) = (x.approx.div y).map float := by
  rw [truediv_eq fun _ _ _ => PyNum.noConfusion, toFloat_of_fits h]
  cases hdiv : x.approx.div y <;> simp [toFloat, hdiv, bind, Except.bind, pure, Except.pure,
    Except.map]

theorem exists_truediv_float_iff {x y : PyNum} (h : ∀ m n, x = int m → y ≠ int n) :
    (∃ z, x.truediv y = .ok z) ↔ x.Fits ∧ y.Fits ∧ y.approx ≠ .finite 0 := by
  rw [truediv_eq h]
  by_cases hx : x.Fits
  · by_cases hy : y.Fits
    · rw [toFloat_of_fits hx, toFloat_of_fits hy]
      by_cases hzero : y.approx = .finite 0
      · simp [PyFloat.div, hzero, bind, Except.bind]
      · simp [PyFloat.div, hzero, hx, hy, bind, Except.bind, pure, Except.pure]
    · simp [toFloat_of_fits hx, toFloat_of_not_fits hy, hy, bind, Except.bind]
  · simp [toFloat_of_not_fits hx, hx, bind, Except.bind]

/-! ## Sums -/

/-- The integers of a list up to its first float. -/
def leading : List PyNum → List ℤ
  | int n :: l => n :: leading l
  | _ => []

/-- A sum that has become a float stays one, and can be continued as long as the integers fit. -/
theorem exists_foldlM_add_float {l : List PyNum} {x : PyFloat} :
    (∃ z, l.foldlM add (float x) = .ok z) ↔ ∀ y ∈ l, y.Fits := by
  induction l generalizing x with
  | nil => simp [pure, Except.pure]
  | cons y l ih =>
    rw [List.foldlM_cons, List.forall_mem_cons]
    by_cases hy : y.Fits
    · rw [add, arith_of_mixable (show (float x).Mixable y from ⟨trivial, hy⟩), and_iff_right hy]
      exact ih
    · have hmix : ¬ (float x).Mixable y := fun h => hy h.2
      rw [add, arith_of_not_mixable hmix]
      exact iff_of_false (by simp [bind, Except.bind]) fun h => hy h.1

/-- As long as only integers have come, the sum is an integer; it must fit when the first float
comes. -/
theorem exists_foldlM_add_int {l : List PyNum} {m : ℤ} :
    (∃ z, l.foldlM add (int m) = .ok z) ↔
      (∃ x, float x ∈ l) →
        (int (m + (leading l).sum)).Fits ∧ ∀ y ∈ l.drop (leading l).length, y.Fits := by
  induction l generalizing m with
  | nil => simp [pure, Except.pure]
  | cons y l ih =>
    rw [List.foldlM_cons]
    cases y with
    | int n =>
      have hadd : (int m).add (int n) = .ok (int (m + n)) := rfl
      rw [hadd]
      refine ih.trans ?_
      simp [leading, add_assoc]
    | float x =>
      by_cases hm : (int m).Fits
      · rw [add, arith_of_mixable (show (int m).Mixable (float x) from ⟨hm, trivial⟩)]
        refine exists_foldlM_add_float.trans ?_
        simp [leading, hm]
      · have hmix : ¬ (int m).Mixable (float x) := fun h => hm h.1
        rw [add, arith_of_not_mixable hmix]
        refine iff_of_false (by simp [bind, Except.bind]) fun h => hm ?_
        have hsum := (h ⟨x, List.mem_cons_self ..⟩).1
        simpa [leading] using hsum

/-- **A sum returns exactly if** it has no floats, or the sum of the integers before the first one
fits, and so does each integer behind it. -/
theorem exists_sum_iff {l : List PyNum} :
    (∃ z, sum l = .ok z) ↔ (∃ x, float x ∈ l) →
      (int (leading l).sum).Fits ∧ ∀ y ∈ l.drop (leading l).length, y.Fits := by
  rw [sum, exists_foldlM_add_int, zero_add]

/-- The sum of integers. -/
theorem sum_map_int (l : List ℤ) : sum (l.map int) = .ok (int l.sum) := by
  have hfold : ∀ m, (l.map int).foldlM add (int m) = .ok (int (m + l.sum)) := by
    induction l with
    | nil => simp [pure, Except.pure]
    | cons n l ih =>
      intro m
      rw [List.map_cons, List.foldlM_cons, show (int m).add (int n) = .ok (int (m + n)) from rfl,
        List.sum_cons, ← add_assoc]
      exact ih (m + n)
  rw [sum, hfold, zero_add]

/-- A sum with a float in it is a float. -/
theorem eq_float_of_sum {l : List PyNum} {z : PyNum} (hl : ∃ x, float x ∈ l)
    (h : sum l = .ok z) : ∃ w, z = float w := by
  have hfold : ∀ {l : List PyNum} {y : PyNum}, l.foldlM add y = .ok z →
      (∃ x, y = float x) ∨ (∃ x, float x ∈ l) → ∃ w, z = float w := by
    intro l
    induction l with
    | nil =>
      rintro y h (⟨x, rfl⟩ | ⟨x, hx⟩)
      · exact ⟨x, (Except.ok.inj h).symm⟩
      · cases hx
    | cons n l ih =>
      intro y h hfloat
      rw [List.foldlM_cons] at h
      obtain ⟨y', hy', h⟩ := bind_eq_ok h
      refine ih h ?_
      -- what has been added is a float, or one is still to come
      cases y with
      | float x =>
        have hmix := exists_arith_iff.mp ⟨y', hy'⟩
        rw [add, arith_of_mixable hmix] at hy'
        exact .inl ⟨_, (Except.ok.inj hy').symm⟩
      | int m =>
        cases n with
        | float x =>
          have hmix := exists_arith_iff.mp ⟨y', hy'⟩
          rw [add, arith_of_mixable hmix] at hy'
          exact .inl ⟨_, (Except.ok.inj hy').symm⟩
        | int n =>
          obtain ⟨x, hx⟩ := hfloat.resolve_left nofun
          exact .inr ⟨x, (List.mem_cons.mp hx).resolve_left nofun⟩
  exact hfold h (.inr hl)

/-- A list begins with its leading integers. -/
theorem leading_append_drop (l : List PyNum) :
    (leading l).map int ++ l.drop (leading l).length = l := by
  induction l with
  | nil => rfl
  | cons x l ih =>
    cases x with
    | int n => exact congrArg (int n :: ·) ih
    | float x => rfl

theorem mem_of_mem_leading {l : List PyNum} {n : ℤ} (h : n ∈ leading l) : int n ∈ l := by
  rw [← leading_append_drop l]
  exact List.mem_append_left _ (List.mem_map_of_mem h)

/-- A list without floats is the list of its leading integers. -/
theorem map_leading {l : List PyNum} (h : ¬ ∃ x, float x ∈ l) : (leading l).map int = l := by
  induction l with
  | nil => rfl
  | cons x l ih =>
    cases x with
    | int n => exact congrArg (int n :: ·) (ih fun ⟨x, hx⟩ => h ⟨x, List.mem_cons_of_mem _ hx⟩)
    | float x => exact absurd ⟨x, List.mem_cons_self ..⟩ h

/-! ## Maxima -/

/-- The maximum is one of the numbers. -/
theorem maximum_mem {l : List PyNum} (h : l ≠ []) : maximum l ∈ l := by
  have hfold : ∀ (l : List PyNum) (x : PyNum),
      l.foldl (fun x y => if x.lt y then y else x) x ∈ x :: l := by
    intro l
    induction l with
    | nil => simp
    | cons y l ih =>
      intro x
      rw [List.foldl_cons]
      by_cases hlt : x.lt y = true
      · rw [if_pos hlt]
        exact List.mem_cons_of_mem _ (ih y)
      · rw [if_neg hlt]
        rcases List.mem_cons.mp (ih x) with h | h
        · rw [h]
          exact List.mem_cons_self ..
        · exact List.mem_cons_of_mem _ (List.mem_cons_of_mem _ h)
  obtain ⟨x, l, rfl⟩ := List.exists_cons_of_ne_nil h
  exact hfold l x

/-- The maximum of integers is not less than any of them. -/
theorem maximum_map_int {l : List ℤ} {g : ℤ} (h : g ∈ l) :
    ∃ m, maximum (l.map int) = int m ∧ g ≤ m := by
  have hfold : ∀ (l : List ℤ) (x : ℤ), ∃ m,
      (l.map int).foldl (fun x y => if x.lt y then y else x) (int x) = int m ∧
        ∀ g ∈ x :: l, g ≤ m := by
    intro l
    induction l with
    | nil => exact fun x => ⟨x, rfl, by simp⟩
    | cons y l ih =>
      intro x
      have hlt : (int x).lt (int y) = decide (x < y) := by simp [lt, exact]
      rw [List.map_cons, List.foldl_cons, hlt]
      by_cases hxy : x < y
      · obtain ⟨m, hm, hle⟩ := ih y
        have hym := hle y (List.mem_cons_self ..)
        refine ⟨m, by simpa [hxy] using hm, List.forall_mem_cons.mpr ⟨hxy.le.trans hym, hle⟩⟩
      · obtain ⟨m, hm, hle⟩ := ih x
        obtain ⟨hxm, hlm⟩ := List.forall_mem_cons.mp hle
        exact ⟨m, by simpa [hxy] using hm,
          List.forall_mem_cons.mpr ⟨hxm, List.forall_mem_cons.mpr ⟨by omega, hlm⟩⟩⟩
  obtain ⟨x, l, rfl⟩ := List.exists_cons_of_ne_nil (List.ne_nil_of_mem h)
  obtain ⟨m, hm, hle⟩ := hfold l x
  exact ⟨m, hm, hle g h⟩

end PyNum

end Python
