import SasTests.CurveAnalysis
import SasTests.Python.Number

/-!
# The report on stored curves

`run_db` analyses one job after the other, and nothing catches an exception of `analyze`: a job on
which it raises ends the report. The times of a curve are what `json.loads` makes of a list of
numbers, so they are integers and doubles in any mixture, and `analyze` computes with them as they
come.

It divides by the time from the first sample to the last, which it only compares with zero for the
other of its two divisions. So a curve that ends at the time at which it began ends the report, and
so does one whose first and last time differ by less than the rounding of an integer to a double.
The other ways to fail need integers that are too large for a double, or too long for `json.loads`.
`reports_iff` says for all lists of jobs when each of them is reported.
-/

namespace SasTests.MonitorCurveSamples

open Python

/-! ## The code -/

/-- `PERIOD_MS` -/
def periodMs : PyNum := .float (roundFloat 1.018)

/-- An integer, or a double other than the infinities and `nan`. -/
def IsRational : PyNum → Prop
  | .int _ => True
  | .float x => ∃ q, x = .finite q ∧ roundFloat q = .finite q

/-- The list under `time_data`, as it is written in a plot. -/
structure Times where
  values : List PyNum
  rational : ∀ x ∈ values, IsRational x
  /-- no list is longer than `sys.maxsize` -/
  length_lt : values.length < 2 ^ 63

/-- `json.loads` refuses an integer with too many digits. -/
def loads : PyNum → Except PyError PyNum
  | .int n => if maxStrDigits < decimalDigits n then .error .valueError else .ok (.int n)
  | .float x => .ok (.float x)

/-- `t[0]` -/
def first (t : List PyNum) : PyNum := t.headD (.int 0)

/-- `t[-1]` -/
def last (t : List PyNum) : PyNum := t.getLastD (.int 0)

/-- The values of `dt`. -/
def timeSteps (t : List PyNum) : Except PyError (List PyNum) :=
  (t.zip t.tail).mapM fun p => do return (← p.2.sub p.1).thousandfold

/-- `dt < 3` -/
def isShort (dt : PyNum) : Bool := dt.lt (.int 3)

/-- `100 * len(t) / (span * 1000 / PERIOD_MS) if span > 0 else 0`, for `n` samples -/
def coverOf (n : ℕ) (span : PyNum) : Except PyError PyNum :=
  if (PyNum.int 0).lt span then do
    (PyNum.int (100 * n)).truediv (← span.thousandfold.truediv periodMs)
  else .ok (.int 0)

/-- `sum(gaps)/max(len(gaps),1)` -/
def meanOf (gaps : List PyNum) : Except PyError PyNum := do
  (← PyNum.sum gaps).truediv (.int (max gaps.length 1))

/-- The line that `analyze` prints of a curve with at least two samples. -/
def report (jobId : String) (t : List PyNum) : Except PyError String := do
  let dts ← timeSteps t
  let (runs, gaps) := cut isShort dts
  let span ← (last t).sub (first t)
  let cover ← coverOf t.length span
  let duration ← span.format fixed2
  let rate ← (← (PyNum.int t.length).truediv span).format fixed0
  let mean ← (← meanOf gaps).format fixed1
  let longest ← (PyNum.maximum gaps).format fixed1
  let cover ← cover.format fixed0
  return jobId ++ ": 点数=" ++ toString t.length ++ " 时长=" ++ duration ++ "s 点率=" ++ rate ++
    "/s 包数=" ++ toString runs.length ++ " 每包点数分布=" ++ toString (distribution runs) ++
    " 包间隔均值=" ++ mean ++ "ms 最大=" ++ longest ++ "ms 覆盖率=" ++ cover ++ "%"

/-- `analyze` for the list `t` under `time_data`: the line that it prints. -/
def analyze (jobId : String) (t : Times) : Except PyError String := do
  let t ← t.values.mapM loads
  if t.length < 2 then return jobId ++ " 无曲线"
  report jobId t

/-- `run_db` for the jobs that were fetched: the lines that it prints, and the exception that ends
it. -/
def runDb : List (String × Times) → List String × Option PyError
  | [] => ([], none)
  | (i, t) :: jobs => match analyze i t with
    | .ok line => (line :: (runDb jobs).1, (runDb jobs).2)
    | .error e => ([], some e)

/-! ## When a curve can be measured -/

/-- The distances of neighbouring samples, in ms, that are not short. -/
def gapsOf (t : List PyNum) : List PyNum :=
  ((t.zip t.tail).map fun p => (PyNum.difference p.1 p.2).thousandfold).filter fun dt => !isShort dt

/-- The time from the first sample to the last. -/
def spanOf (t : List PyNum) : PyNum := PyNum.difference (first t) (last t)

/-- Two times are different, after the conversion to a double if one of them is one. -/
def Apart : PyNum → PyNum → Prop
  | .int m, .int n => m ≠ n
  | x, y => x.approx ≠ y.approx

/-- Nothing that is computed from the times is too large for a double where it has to be one, and
the curve does not end at the time at which it began. -/
structure Measurable (t : List PyNum) : Prop where
  /-- an integer that is a neighbour of a double fits -/
  neighbours : ∀ p ∈ t.zip t.tail, p.2.Mixable p.1
  /-- so does the first or the last time, if only one of them is an integer -/
  ends : (last t).Mixable (first t)
  apart : Apart (first t) (last t)
  /-- the span fits, in seconds -/
  span : (spanOf t).Fits
  /-- and in milliseconds, if it is positive -/
  spanMs : (PyNum.int 0).lt (spanOf t) = true → (spanOf t).thousandfold.Fits
  /-- the gaps fit -/
  gaps : ∀ g ∈ gapsOf t, g.Fits
  /-- and so does the sum of the gaps before the first one that is a double, if there is one -/
  total : (∃ x, .float x ∈ gapsOf t) → (PyNum.int (PyNum.leading (gapsOf t)).sum).Fits

/-- The integers are short enough for `json.loads`, and there are fewer than two samples or the
curve can be measured. -/
def Reportable (t : List PyNum) : Prop :=
  (∀ n, .int n ∈ t → decimalDigits n ≤ maxStrDigits) ∧ (t.length < 2 ∨ Measurable t)

/-! ## The parts of a line -/

/-- What is read is what is written. -/
theorem mapM_loads_iff {t t' : List PyNum} : t.mapM loads = .ok t' ↔
    (∀ n, .int n ∈ t → decimalDigits n ≤ maxStrDigits) ∧ t' = t := by
  have hread : (∀ n, .int n ∈ t → decimalDigits n ≤ maxStrDigits) ↔
      ∀ x ∈ t, ∀ n, x = .int n → decimalDigits n ≤ maxStrDigits :=
    ⟨fun h x hx n hn => h n (hn ▸ hx), fun h n hn => h _ hn n rfl⟩
  rw [hread]
  nth_rewrite 3 [← List.map_id t]
  refine mapM_eq_ok_iff fun x y => ?_
  cases x with
  | int n =>
    rw [loads]
    split_ifs with h
    · simp [not_le.mpr h]
    · simp [not_lt.mp h, eq_comm]
  | float x => simp [loads, eq_comm]

/-- The steps can be computed if all neighbours can be subtracted. -/
theorem timeSteps_iff {t dts : List PyNum} : timeSteps t = .ok dts ↔
    (∀ p ∈ t.zip t.tail, p.2.Mixable p.1) ∧
      dts = (t.zip t.tail).map fun p => (PyNum.difference p.1 p.2).thousandfold := by
  refine mapM_eq_ok_iff fun p dt => ?_
  by_cases h : p.2.Mixable p.1
  · simp [PyNum.sub, PyNum.arith_of_mixable h, PyNum.difference, h, bind, Except.bind, pure,
      Except.pure, eq_comm]
  · simp [PyNum.sub, PyNum.arith_of_not_mixable h, h, bind, Except.bind]

/-- **On integer times the packets are those of the exact times**: nothing is rounded, so
`packets_partition` speaks of the runs that are printed. -/
theorem runs_int (t : List ℤ) : ∃ dts, timeSteps (t.map .int) = .ok dts ∧
    (cut isShort dts).1 = (packets (t.map Int.cast)).1 := by
  have hsteps : (((t.map PyNum.int).zip (t.map PyNum.int).tail).map fun p =>
      (PyNum.difference p.1 p.2).thousandfold) =
        (t.zipWith (fun m n => (n - m) * 1000) t.tail).map PyNum.int := by
    simp [← List.map_tail, List.map_zipWith, List.zip, PyNum.difference, PyNum.result,
      PyNum.thousandfold]
  have hexact : steps (t.map Int.cast) =
      (t.zipWith (fun m n => (n - m) * 1000) t.tail).map Int.cast := by
    simp [steps, ← List.map_tail, List.map_zipWith]
  have hshort : ∀ d : ℤ, isShort (.int d) = short d := fun d => by
    simp [isShort, short, PyNum.lt, PyNum.exact]
  refine ⟨_, timeSteps_iff.mpr ⟨fun p hp => ?_, rfl⟩, ?_⟩
  · obtain ⟨h₁, h₂⟩ := List.of_mem_zip hp
    obtain ⟨m, -, hm⟩ := List.mem_map.mp h₁
    obtain ⟨n, -, hn⟩ := List.mem_map.mp (List.mem_of_mem_tail h₂)
    rw [← hm, ← hn]
    trivial
  · rw [packets, hsteps, hexact, cut_runs_map, cut_runs_map]
    simp only [hshort]

/-! ## The span -/

/-- Converting a time to a double leads to the grid. -/
theorem IsRational.approx {x : PyNum} (h : IsRational x) :
    ∃ q, x.approx = .finite q ∧ OnGrid q := by
  cases x with
  | int n => exact ⟨_, rfl, onGrid_nearest n⟩
  | float x =>
    obtain ⟨q, rfl, hq⟩ := h
    rw [roundFloat] at hq
    split at hq
    · exact ⟨q, rfl, PyFloat.finite.inj hq ▸ onGrid_nearest q⟩
    · cases hq

/-- What a span can be: an integer, an infinity, or a number on the grid. -/
def IsSpan : PyNum → Prop
  | .int _ => True
  | .float (.finite q) => OnGrid q
  | .float (.inf _) => True
  | .float .nan => False

/-- The span is zero. -/
def IsZero : PyNum → Prop
  | .int n => n = 0
  | .float x => x = .finite 0

theorem isSpan_roundFloat (q : ℚ) : IsSpan (.float (roundFloat q)) := by
  rw [roundFloat]
  split
  · exact onGrid_nearest q
  · trivial

/-- The difference of two times, and when it is zero. -/
theorem difference_cases {x y : PyNum} (hx : IsRational x) (hy : IsRational y) :
    IsSpan (PyNum.difference x y) ∧ (IsZero (PyNum.difference x y) ↔ ¬ Apart x y) := by
  -- if one of them is a double, the difference is a rounded difference of numbers on the grid
  have hfloat : ∀ {x y : PyNum}, IsRational x → IsRational y →
      IsSpan (.float (y.approx.sub x.approx).rounded) ∧
        (IsZero (.float (y.approx.sub x.approx).rounded) ↔ ¬ x.approx ≠ y.approx) := by
    intro x y hx hy
    obtain ⟨p, hp, hpgrid⟩ := hx.approx
    obtain ⟨q, hq, hqgrid⟩ := hy.approx
    rw [hp, hq, PyFloat.sub_finite, PyFloat.rounded]
    refine ⟨isSpan_roundFloat _, ?_⟩
    rw [IsZero, roundFloat_sub_eq_zero hqgrid hpgrid, not_not, PyFloat.finite.injEq, eq_comm]
  cases x with
  | int m =>
    cases y with
    | int n =>
      refine ⟨trivial, ?_⟩
      simp [PyNum.difference, PyNum.result, IsZero, Apart, sub_eq_zero, eq_comm]
    | float y => exact hfloat hx hy
  | float x =>
    cases y with
    | int n => exact hfloat hx hy
    | float y => exact hfloat hx hy

/-- The point rate can be computed unless the span is zero. -/
theorem exists_rate_iff {n : ℕ} (hn : n < 2 ^ 63) (span : PyNum) :
    (∃ rate, (PyNum.int n).truediv span = .ok rate) ↔ ¬ IsZero span := by
  have hfits : (PyNum.int n).Fits := PyNum.fits_of_abs_lt (by rw [Nat.abs_cast]; omega)
  cases span with
  | int d =>
    rw [PyNum.exists_truediv_int_iff, IsZero, and_iff_left_of_imp]
    intro hd
    -- the quotient is not further from zero than the number of samples
    have hone : (1 : ℚ) ≤ |(d : ℚ)| := by exact_mod_cast Int.one_le_abs hd
    rw [abs_div]
    exact (div_le_self (abs_nonneg _) hone).trans_lt hfits
  | float x =>
    rw [PyNum.exists_truediv_float_iff fun _ _ _ => PyNum.noConfusion]
    simp [hfits, IsZero, PyNum.approx]

/-! ## The coverage -/

/-- `PERIOD_MS` is a positive number, a little more than one. -/
theorem periodMs_eq : ∃ p : ℚ, periodMs = .float (.finite p) ∧ 0 < p ∧ p < 2 := by
  have hsmall : smallest ≤ 1.018 := smallest_le_one.trans (by norm_num)
  have hlimit : |(1.018 : ℚ)| < floatLimit := by
    calc |(1.018 : ℚ)| < 2 ^ 1 := by norm_num [abs_of_pos]
      _ ≤ 2 ^ 970 := pow_le_pow_right₀ (by norm_num) (by norm_num)
      _ ≤ floatLimit := two_pow_le_floatLimit
  refine ⟨nearest 1.018, by rw [periodMs, roundFloat_of_lt hlimit], ?_, ?_⟩
  · exact lt_of_lt_of_le (by norm_num) (half_le_nearest hsmall)
  · exact lt_of_le_of_lt (nearest_le hsmall) (by norm_num)

/-- A positive span, in milliseconds and as a double, is not too small. -/
theorem approx_thousandfold {span : PyNum} (h : IsSpan span)
    (hpos : (PyNum.int 0).lt span = true) :
    span.thousandfold.approx = .inf false ∨
      ∃ a, span.thousandfold.approx = .finite a ∧ 500 * smallest ≤ a := by
  cases span with
  | int d =>
    have hd : 0 < d := by simpa [PyNum.lt, PyNum.exact] using hpos
    have hone : (1 : ℚ) ≤ d := by exact_mod_cast hd
    refine .inr ⟨_, rfl, ?_⟩
    push_cast
    have hhalf := half_le_nearest (q := d * 1000) (smallest_le_one.trans (by linarith))
    linarith [smallest_le_one]
  | float x =>
    cases x with
    | finite q =>
      have hq : 0 < q := by simpa [PyNum.lt, PyNum.exact] using hpos
      have hsmall : smallest ≤ q := by
        have hzero : OnGrid 0 := ⟨0, by simp⟩
        simpa [abs_of_pos hq] using h.smallest_le hzero hq.ne'
      have happrox : (PyNum.float (.finite q)).thousandfold.approx = roundFloat (q * 1000) := rfl
      rw [happrox, roundFloat]
      split
      · have hhalf := half_le_nearest (q := q * 1000) (by linarith [smallest_pos])
        exact .inr ⟨_, rfl, by linarith⟩
      · have hneg : ¬ q * 1000 < 0 := by linarith
        exact .inl (by rw [decide_eq_false hneg])
    | inf negative =>
      have hnegative : negative = false := by simpa [PyNum.lt, PyNum.exact, PyFloat.lt] using hpos
      exact .inl (hnegative ▸ rfl)
    | nan => exact h.elim

/-- **The coverage can be computed** if the span in milliseconds fits: the divisor is too large to be
rounded to zero. -/
theorem exists_cover_iff {n : ℕ} (hn : n < 2 ^ 63) {span : PyNum} (h : IsSpan span) :
    (∃ cover, coverOf n span = .ok cover) ↔
      ((PyNum.int 0).lt span = true → span.thousandfold.Fits) := by
  rw [coverOf]
  split_ifs with hpos
  swap
  · exact iff_of_true ⟨_, rfl⟩ fun hpos' => absurd hpos' hpos
  obtain ⟨p, hp, hppos, hptwo⟩ := periodMs_eq
  rw [imp_iff_right hpos, exists_bind_iff, hp]
  have hdiv := PyNum.exists_truediv_float_iff (x := span.thousandfold)
    (y := .float (.finite p)) fun _ _ _ => PyNum.noConfusion
  constructor
  · rintro ⟨z, hz, -⟩
    exact (hdiv.mp ⟨z, hz⟩).1
  · intro hfits
    have hpne : PyFloat.finite p ≠ .finite 0 := fun h => hppos.ne' (PyFloat.finite.inj h)
    obtain ⟨z, hz⟩ := hdiv.mpr ⟨hfits, trivial, hpne⟩
    refine ⟨z, hz, ?_⟩
    -- the quotient is not zero
    have hquotient : z = .float (span.thousandfold.approx.quotient (.finite p)) := by
      rw [PyNum.truediv_float hfits, PyFloat.div, if_neg hpne] at hz
      exact (Except.ok.inj hz).symm
    have hne : span.thousandfold.approx.quotient (.finite p) ≠ .finite 0 := by
      rcases approx_thousandfold h hpos with ha | ⟨a, ha, hle⟩
      · rw [ha]
        exact PyFloat.noConfusion
      · rw [ha, PyFloat.quotient, roundFloat]
        split
        · intro hzero
          refine nearest_ne_zero ?_ (PyFloat.finite.inj hzero)
          have hapos : 0 < a := by linarith [smallest_pos]
          rw [abs_of_pos (div_pos hapos hppos), le_div_iff₀ hppos]
          nlinarith [smallest_pos]
        · exact PyFloat.noConfusion
    rw [hquotient, PyNum.exists_truediv_float_iff fun _ _ _ => PyNum.noConfusion]
    refine ⟨PyNum.fits_of_abs_lt ?_, trivial, hne⟩
    rw [abs_of_nonneg (by positivity)]
    omega

/-- It is a float or zero, so it can be written. -/
theorem fits_of_coverOf {n : ℕ} {span cover : PyNum} (h : coverOf n span = .ok cover) :
    cover.Fits := by
  rw [coverOf] at h
  split_ifs at h
  · obtain ⟨z, -, h⟩ := bind_eq_ok h
    obtain ⟨w, rfl⟩ := PyNum.eq_float_of_truediv h
    trivial
  · obtain rfl := Except.ok.inj h
    exact PyNum.fits_of_abs_lt (by norm_num)

/-! ## The gaps -/

/-- Integers that are not negative, and whose maximum fits, have a mean that fits. -/
theorem exists_mean_int {l : List ℤ} (hpos : ∀ g ∈ l, 0 ≤ g) (hfits : ∀ g ∈ l, (PyNum.int g).Fits) :
    ∃ mean, (PyNum.int l.sum).truediv (.int (max l.length 1)) = .ok mean := by
  rw [PyNum.exists_truediv_int_iff]
  rcases eq_or_ne l [] with rfl | hne
  · exact ⟨by norm_num, by simpa using floatLimit_pos⟩
  have hlen : (1 : ℤ) ≤ l.length := by exact_mod_cast List.length_pos_iff.mpr hne
  have hmap : l.map PyNum.int ≠ [] := by simpa using hne
  obtain ⟨m, hm, hmax⟩ := List.mem_map.mp (PyNum.maximum_mem hmap)
  have hle : ∀ g ∈ l, g ≤ m := by
    intro g hg
    obtain ⟨m', hm', hgm⟩ := PyNum.maximum_map_int hg
    rw [← hmax] at hm'
    exact hgm.trans_eq (PyNum.int.inj hm').symm
  have hsum : (l.sum : ℚ) ≤ l.length * m := by
    exact_mod_cast (List.sum_le_card_nsmul l m hle).trans_eq (nsmul_eq_mul ..)
  have hzero : (0 : ℚ) ≤ l.sum := by exact_mod_cast List.sum_nonneg hpos
  have hlength : (0 : ℚ) < l.length := by exact_mod_cast hlen
  rw [max_eq_left hlen]
  refine ⟨by omega, lt_of_le_of_lt ?_ ((le_abs_self _).trans_lt (hfits m hm))⟩
  rw [Int.cast_natCast, abs_of_nonneg (div_nonneg hzero hlength.le), div_le_iff₀ hlength]
  linarith

/-- A sum that is a double can be divided by the number of gaps. -/
theorem exists_mean_float {n : ℕ} (hn : n < 2 ^ 63) (x : PyFloat) :
    ∃ mean, (PyNum.float x).truediv (.int (max n 1)) = .ok mean := by
  rw [PyNum.exists_truediv_float_iff fun _ _ h => PyNum.noConfusion h]
  have hone : (1 : ℚ) ≤ (max (n : ℤ) 1 : ℤ) := by exact_mod_cast le_max_right _ _
  refine ⟨trivial, PyNum.fits_of_abs_lt ?_, fun h => ?_⟩
  · rw [abs_of_nonneg (le_max_of_le_right zero_le_one)]
    omega
  · have hhalf := half_le_nearest (smallest_le_one.trans hone)
    rw [PyFloat.finite.inj h] at hhalf
    linarith

section gaps

variable {gaps : List PyNum}

/-- A gap is a part of the sum of those before the first double, or it is added to a double. -/
theorem fits_of_sum (hpos : ∀ g, .int g ∈ gaps → 3 ≤ g)
    (hlead : (PyNum.int (PyNum.leading gaps).sum).Fits)
    (hdrop : ∀ g ∈ gaps.drop (PyNum.leading gaps).length, g.Fits) : ∀ g ∈ gaps, g.Fits := by
  intro g hg
  rw [← PyNum.leading_append_drop gaps] at hg
  rcases List.mem_append.mp hg with hg | hg
  · obtain ⟨n, hn, rfl⟩ := List.mem_map.mp hg
    have hnonneg : ∀ n ∈ PyNum.leading gaps, 0 ≤ n := fun n hn => by
      linarith [hpos n (PyNum.mem_of_mem_leading hn)]
    exact PyNum.fits_of_le (hnonneg n hn) (List.single_le_sum hnonneg _ hn) hlead
  · exact hdrop g hg

/-- If all gaps are integers, none is greater than the maximum. -/
theorem fits_of_maximum (hpos : ∀ g, .int g ∈ gaps → 3 ≤ g) (hfloat : ¬∃ x, .float x ∈ gaps)
    (hmax : (PyNum.maximum gaps).Fits) : ∀ g ∈ gaps, g.Fits := by
  intro g hg
  rw [← PyNum.map_leading hfloat] at hg hmax
  obtain ⟨n, hn, rfl⟩ := List.mem_map.mp hg
  obtain ⟨m, hm, hle⟩ := PyNum.maximum_map_int hn
  rw [hm] at hmax
  exact PyNum.fits_of_le (by linarith [hpos n (PyNum.mem_of_mem_leading hn)]) hle hmax

/-- If everything fits, the mean can be computed. -/
theorem exists_mean (hpos : ∀ g, .int g ∈ gaps → 3 ≤ g) (hlen : gaps.length < 2 ^ 63)
    (hfits : ∀ g ∈ gaps, g.Fits)
    (htotal : (∃ x, .float x ∈ gaps) → (PyNum.int (PyNum.leading gaps).sum).Fits) :
    ∃ mean, meanOf gaps = .ok mean := by
  obtain ⟨total, hsum⟩ := PyNum.exists_sum_iff.mpr fun hfloat =>
    ⟨htotal hfloat, fun y hy => hfits y (List.mem_of_mem_drop hy)⟩
  refine exists_bind_iff.mpr ⟨total, hsum, ?_⟩
  by_cases hfloat : ∃ x, .float x ∈ gaps
  · obtain ⟨x, rfl⟩ := PyNum.eq_float_of_sum hfloat hsum
    exact exists_mean_float hlen x
  · have hmap := PyNum.map_leading hfloat
    rw [← hmap, PyNum.sum_map_int] at hsum
    obtain rfl := Except.ok.inj hsum
    have hmean := exists_mean_int (l := PyNum.leading gaps)
      (fun g hg => by linarith [hpos g (PyNum.mem_of_mem_leading hg)])
      fun g hg => hfits _ (PyNum.mem_of_mem_leading hg)
    rwa [← List.length_map PyNum.int, hmap] at hmean

/-- **The mean and the maximum of the gaps can be computed and written** exactly if every gap fits,
and the sum of those before the first double, if there is one. -/
theorem exists_mean_iff (hpos : ∀ g, .int g ∈ gaps → 3 ≤ g) (hlen : gaps.length < 2 ^ 63) :
    ((∃ mean, meanOf gaps = .ok mean) ∧ (PyNum.maximum gaps).Fits) ↔
      (∀ g ∈ gaps, g.Fits) ∧
        ((∃ x, .float x ∈ gaps) → (PyNum.int (PyNum.leading gaps).sum).Fits) := by
  constructor
  · rintro ⟨hmean, hmax⟩
    obtain ⟨total, htotal, -⟩ := exists_bind_iff.mp hmean
    have hsum := PyNum.exists_sum_iff.mp ⟨total, htotal⟩
    refine ⟨?_, fun hfloat => (hsum hfloat).1⟩
    by_cases hfloat : ∃ x, .float x ∈ gaps
    · exact fits_of_sum hpos (hsum hfloat).1 (hsum hfloat).2
    · exact fits_of_maximum hpos hfloat hmax
  · rintro ⟨hfits, htotal⟩
    refine ⟨exists_mean hpos hlen hfits htotal, ?_⟩
    rcases eq_or_ne gaps [] with rfl | hne
    · exact PyNum.fits_of_abs_lt (by norm_num)
    · exact hfits _ (PyNum.maximum_mem hne)

end gaps

/-! ## Reports -/

/-- The gaps that `analyze` finds are those of the times. -/
theorem cut_timeSteps (t : List PyNum) :
    (cut isShort ((t.zip t.tail).map fun p => (PyNum.difference p.1 p.2).thousandfold)).2 =
      gapsOf t := cut_gaps _ _

/-- An integer among them is not less than 3. -/
theorem three_le_of_mem_gapsOf {t : List PyNum} {g : ℤ} (h : .int g ∈ gapsOf t) : 3 ≤ g := by
  have hlong := (List.mem_filter.mp h).2
  have hle : (3 : ℚ) ≤ g := by simpa [isShort, PyNum.lt, PyNum.exact] using hlong
  exact_mod_cast hle

/-- **A curve with samples is reported exactly if it can be measured.** -/
theorem report_isOk_iff (jobId : String) {t : List PyNum} (hrational : ∀ x ∈ t, IsRational x)
    (hlen : 2 ≤ t.length) (hmax : t.length < 2 ^ 63) :
    (∃ line, report jobId t = .ok line) ↔ Measurable t := by
  have hfirst : IsRational (first t) := by
    obtain ⟨x, t, rfl⟩ := List.exists_cons_of_length_pos (by omega : 0 < t.length)
    exact hrational x (List.mem_cons_self ..)
  have hlast : IsRational (last t) := by
    have hne : t ≠ [] := List.ne_nil_of_length_pos (by omega)
    rw [last, List.getLastD_eq_getLast?, List.getLast?_eq_some_getLast hne]
    exact hrational _ (List.getLast_mem hne)
  have hsub : ∀ {span}, (last t).sub (first t) = .ok span ↔
      (last t).Mixable (first t) ∧ span = spanOf t := PyNum.sub_eq_ok_iff
  obtain ⟨hspan, hzero⟩ := difference_cases hfirst hlast
  have hgaps : (gapsOf t).length < 2 ^ 63 := by
    have hle : (gapsOf t).length ≤ t.length := by
      refine (List.length_filter_le _ _).trans ?_
      simp
    omega
  have hmean := exists_mean_iff (fun g => three_le_of_mem_gapsOf (t := t)) hgaps
  have hcover := exists_cover_iff hmax hspan
  have hrate := exists_rate_iff hmax (spanOf t)
  simp only [report, exists_bind_iff]
  constructor
  · rintro ⟨dts, hdts, span, hs, cover, hc, duration, hd, rate, hr, rateText, -, mean, hm, meanText,
      -, longest, hl, -⟩
    obtain ⟨hneighbours, rfl⟩ := timeSteps_iff.mp hdts
    obtain ⟨hends, rfl⟩ := hsub.mp hs
    rw [cut_timeSteps] at hm hl
    obtain ⟨hfits, htotal⟩ := hmean.mp ⟨⟨mean, hm⟩, PyNum.exists_format_iff.mp ⟨longest, hl⟩⟩
    exact ⟨hneighbours, hends, not_not.mp (mt hzero.mpr (hrate.mp ⟨rate, hr⟩)),
      PyNum.exists_format_iff.mp ⟨duration, hd⟩, hcover.mp ⟨cover, hc⟩, hfits, htotal⟩
  · intro h
    obtain ⟨cover, hc⟩ := hcover.mpr h.spanMs
    obtain ⟨duration, hd⟩ := PyNum.exists_format_iff.mpr h.span
    obtain ⟨rate, hr⟩ := hrate.mpr fun hspan => hzero.mp hspan h.apart
    obtain ⟨⟨mean, hm⟩, hl⟩ := hmean.mpr ⟨h.gaps, h.total⟩
    obtain ⟨longest, hl⟩ := PyNum.exists_format_iff.mpr hl
    -- the quotients are floats, which can always be written
    obtain ⟨rateFloat, rfl⟩ := PyNum.eq_float_of_truediv hr
    obtain ⟨total, -, hquotient⟩ := bind_eq_ok hm
    obtain ⟨meanFloat, rfl⟩ := PyNum.eq_float_of_truediv hquotient
    obtain ⟨coverText, hct⟩ := PyNum.exists_format_iff.mpr (fits_of_coverOf hc)
    rw [← cut_timeSteps] at hm hl
    exact ⟨_, timeSteps_iff.mpr ⟨h.neighbours, rfl⟩, _, hsub.mpr ⟨h.ends, rfl⟩, cover, hc, duration,
      hd, _, hr, _, rfl, _, hm, _, rfl, longest, hl, coverText, hct, _, rfl⟩

/-- `analyze` returns exactly for the reportable curves. -/
theorem analyze_isOk_iff (jobId : String) (t : Times) :
    (∃ line, analyze jobId t = .ok line) ↔ Reportable t.values := by
  rw [analyze, exists_bind_iff]
  constructor
  · rintro ⟨t', ht', hline⟩
    obtain ⟨hread, rfl⟩ := mapM_loads_iff.mp ht'
    refine ⟨hread, or_iff_not_imp_left.mpr fun hlen => ?_⟩
    rw [if_neg hlen] at hline
    exact (report_isOk_iff jobId t.rational (not_lt.mp hlen) t.length_lt).mp hline
  · rintro ⟨hread, hrest⟩
    refine ⟨t.values, mapM_loads_iff.mpr ⟨hread, rfl⟩, ?_⟩
    by_cases hlen : t.values.length < 2
    · exact ⟨_, if_pos hlen⟩
    · rw [if_neg hlen]
      exact (report_isOk_iff jobId t.rational (not_lt.mp hlen) t.length_lt).mpr
        (hrest.resolve_left hlen)

/-- `run_db` reports on each of the jobs. -/
def Reports (jobs : List (String × Times)) : Prop :=
  ∀ job ∈ jobs, ∃ line, analyze job.1 job.2 = .ok line ∧ line ∈ (runDb jobs).1

/-- If `analyze` returns for all jobs, the line of each is printed. -/
theorem mem_runDb {jobs : List (String × Times)}
    (h : ∀ job ∈ jobs, ∃ line, analyze job.1 job.2 = .ok line) :
    ∀ job ∈ jobs, ∀ line, analyze job.1 job.2 = .ok line → line ∈ (runDb jobs).1 := by
  induction jobs with
  | nil => nofun
  | cons job jobs ih =>
    obtain ⟨⟨line₀, hline₀⟩, hjobs⟩ := List.forall_mem_cons.mp h
    have hrun : (runDb (job :: jobs)).1 = line₀ :: (runDb jobs).1 := by
      rw [runDb, hline₀]
    rw [hrun]
    intro job' hjob' line hline
    rcases List.mem_cons.mp hjob' with rfl | hjob'
    · rw [Except.ok.inj (hline.symm.trans hline₀)]
      exact List.mem_cons_self ..
    · exact List.mem_cons_of_mem _ (ih hjobs job' hjob' line hline)

/-- **`run_db` reports on all jobs exactly if all their curves are reportable.**

Nothing catches an exception of `analyze`, so that one curve decides about all the jobs behind it.
`Reportable` is a condition on the times: `json.loads` reads their integers, and if there are at
least two of them, the first and the last are apart, and no integer on the way is too large for the
double that it must become. -/
theorem reports_iff (jobs : List (String × Times)) :
    Reports jobs ↔ ∀ job ∈ jobs, Reportable job.2.values := by
  have hanalyze : (∀ job ∈ jobs, Reportable job.2.values) ↔
      ∀ job ∈ jobs, ∃ line, analyze job.1 job.2 = .ok line :=
    forall₂_congr fun job _ => (analyze_isOk_iff job.1 job.2).symm
  rw [hanalyze]
  constructor
  · intro h job hjob
    obtain ⟨line, hline, -⟩ := h job hjob
    exact ⟨line, hline⟩
  · intro h job hjob
    obtain ⟨line, hline⟩ := h job hjob
    exact ⟨line, hline, mem_runDb h job hjob line hline⟩

/-- One half is a double. -/
theorem roundFloat_half : roundFloat (1 / 2) = .finite (1 / 2) := by
  have hhalf : nearest (1 / 2) = 1 / 2 := by
    have := nearest_dyadic (m := 1) (e := -1) (by norm_num) (by norm_num)
    simpa using this
  rw [roundFloat_of_lt, hhalf]
  calc |(1 / 2 : ℚ)| < 2 ^ 0 := by norm_num [abs_of_pos]
    _ ≤ 2 ^ 970 := pow_le_pow_right₀ (by norm_num) (by norm_num)
    _ ≤ floatLimit := two_pow_le_floatLimit

/-- Two samples at the same time. -/
def repeatedTime : Times where
  values := [.float (.finite (1 / 2)), .float (.finite (1 / 2))]
  rational x hx := by
    obtain rfl : x = .float (.finite (1 / 2)) := by simpa using hx
    exact ⟨_, rfl, roundFloat_half⟩
  length_lt := by norm_num

theorem repeated_time_ends_report : ¬∀ jobs : List (String × Times), Reports jobs := by
  intro h
  obtain ⟨line, hline, -⟩ := h [("1", repeatedTime)] _ (List.mem_singleton_self _)
  obtain ⟨-, hlength | hmeasurable⟩ := (analyze_isOk_iff _ _).mp ⟨line, hline⟩
  · exact absurd hlength (by decide)
  · exact hmeasurable.apart rfl

end SasTests.MonitorCurveSamples
