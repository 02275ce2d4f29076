import SasTests.Lib.Table
import SasTests.Python.Float
import SasTests.Python.Format
import Mathlib.Data.List.Nodup
import Mathlib.Tactic.Linarith

/-!
# Performance baselines

A `PerformanceTracker` keeps how long the operations of a test run took. A run is saved as a
baseline, and a later run is compared with it: an operation that took more than half as long again
as in the baseline is reported.

The baseline is a dictionary by name, so of several records of one name it keeps the last, while the
later run is compared record by record. And the report divides by the time of the baseline. Whether
the comparison is sound depends on both (`sound_iff`); for distinct names and positive times it is
(`compareWithBaseline_self`).

Times are exact rationals. A saved baseline is read back as it was written.
-/

namespace SasTests.Performance

open Python

/-- `PerfRecord` -/
structure PerfRecord where
  name : String
  elapsedMs : ℚ
  thresholdMs : ℚ
  passed : Bool
  deriving DecidableEq

/-- `PerformanceTracker`: a record passed if it kept its threshold. -/
structure PerformanceTracker where
  records : List PerfRecord
  passed_eq : ∀ r ∈ records, r.passed = decide (r.elapsedMs ≤ r.thresholdMs)

/-- What `summary` returns. -/
structure Summary where
  total : ℕ
  passed : ℕ
  failed : ℕ
  records : List PerfRecord

/-- The baselines that were saved. -/
abbrev Files := String → Option Summary

namespace PerformanceTracker

/-! ## The code -/

/-- A new tracker. -/
def empty : PerformanceTracker := ⟨[], nofun⟩

/-- `record`, and what it returns. -/
def record (t : PerformanceTracker) (name : String) (elapsedMs thresholdMs : ℚ) :
    Bool × PerformanceTracker :=
  let passed := decide (elapsedMs ≤ thresholdMs)
  (passed,
    { records := t.records ++ [⟨name, elapsedMs, thresholdMs, passed⟩]
      passed_eq := by
        intro r hr
        rcases List.mem_append.mp hr with hr | hr
        · exact t.passed_eq r hr
        · rw [List.mem_singleton.mp hr] })

/-- `summary` -/
def summary (t : PerformanceTracker) : Summary :=
  let total := t.records.length
  let passed := t.records.countP (·.passed)
  { total := total, passed := passed, failed := total - passed, records := t.records }

/-- `save_baseline` -/
def saveBaseline (t : PerformanceTracker) (path : String) (files : Files) : Files :=
  Function.update files path (some t.summary)

end PerformanceTracker

/-- `baseline_map` -/
def baselineMap (records : List PerfRecord) : String → Option ℚ :=
  Table.fill PerfRecord.name (fun r _ => some r.elapsedMs) records

/-- The text of a degradation. -/
def degradation (rec : PerfRecord) (baselineMs : ℚ) : Except PyError String := do
  let ratio ← divide rec.elapsedMs baselineMs
  return rec.name ++ ": " ++ fixed1 baselineMs ++ "ms -> " ++ fixed1 rec.elapsedMs ++ "ms (+" ++
    fixed0 ((ratio - 1) * 100) ++ "%)"

/-- The loop of `compare_with_baseline`. -/
def degradations (baseline : String → Option ℚ) : List PerfRecord → Except PyError (List String)
  | [] => .ok []
  | rec :: records => match baseline rec.name with
    | some baselineMs =>
      if rec.elapsedMs > baselineMs * 1.5 then do
        let line ← degradation rec baselineMs
        let lines ← degradations baseline records
        return line :: lines
      else degradations baseline records
    | none => degradations baseline records

/-- `compare_with_baseline` -/
def PerformanceTracker.compareWithBaseline (t : PerformanceTracker) (path : String)
    (files : Files) : Except PyError (List String) :=
  match files path with
  | none => .ok []
  | some baseline => degradations (baselineMap baseline.records) t.records

/-! ## Trackers -/

/-- Each record either passed or failed. -/
theorem PerformanceTracker.passed_add_failed (t : PerformanceTracker) :
    t.summary.passed + t.summary.failed = t.summary.total :=
  Nat.add_sub_cancel' List.countP_le_length

/-- A summary counts those records as passed that kept their threshold. -/
theorem PerformanceTracker.passed_summary (t : PerformanceTracker) :
    t.summary.passed = t.records.countP fun r => r.elapsedMs ≤ r.thresholdMs :=
  List.countP_congr fun r hr => by rw [t.passed_eq r hr]

/-! ## Comparing -/

/-- A baseline keeps the last record of a name. -/
theorem baselineMap_eq (records : List PerfRecord) (name : String) :
    baselineMap records name =
      ((records.filter fun r => r.name = name).getLast?).map (·.elapsedMs) :=
  Table.fill_last ..

theorem degradation_of_ne_zero (rec : PerfRecord) {ms : ℚ} (h : ms ≠ 0) :
    ∃ line, degradation rec ms = .ok line := by
  rw [degradation, divide_of_ne_zero _ h]
  exact ⟨_, rfl⟩

theorem degradation_zero (rec : PerfRecord) : degradation rec 0 = .error .zeroDivisionError := rfl

/-- The record is slower than the baseline allows. -/
def Slower (baseline : String → Option ℚ) (rec : PerfRecord) : Prop :=
  ∃ ms, baseline rec.name = some ms ∧ ms * 1.5 < rec.elapsedMs

/-- The text about the record cannot be written. -/
def Fails (baseline : String → Option ℚ) (rec : PerfRecord) : Prop :=
  baseline rec.name = some 0 ∧ 0 < rec.elapsedMs

variable (baseline : String → Option ℚ)

/-- What the loop does with one record. -/
theorem degradations_cons (rec : PerfRecord) (records : List PerfRecord) :
    (¬Slower baseline rec ∧
        degradations baseline (rec :: records) = degradations baseline records) ∨
      (Fails baseline rec ∧
        degradations baseline (rec :: records) = .error .zeroDivisionError) ∨
        Slower baseline rec ∧ ¬Fails baseline rec ∧ ∃ line,
          degradations baseline (rec :: records) =
            (degradations baseline records).map (line :: ·) := by
  cases hms : baseline rec.name with
  | none => exact .inl ⟨by simp [Slower, hms], by rw [degradations, hms]⟩
  | some ms =>
    by_cases hslow : rec.elapsedMs > ms * 1.5
    · by_cases hzero : ms = 0
      · subst hzero
        refine .inr (.inl ⟨⟨hms, by simpa using hslow⟩, ?_⟩)
        simp only [degradations, hms, if_pos hslow, degradation_zero]
        rfl
      · obtain ⟨line, hline⟩ := degradation_of_ne_zero rec hzero
        refine .inr (.inr ⟨⟨ms, hms, hslow⟩, by simp [Fails, hms, hzero], line, ?_⟩)
        simp only [degradations, hms, if_pos hslow, hline]
        cases degradations baseline records <;> rfl
    · refine .inl ⟨by simpa [Slower, hms] using hslow, ?_⟩
      simp only [degradations, hms, if_neg hslow]

/-- The comparison returns unless the text about one of the records cannot be written. -/
theorem degradations_isOk_iff (records : List PerfRecord) :
    (∃ lines, degradations baseline records = .ok lines) ↔ ∀ r ∈ records, ¬Fails baseline r := by
  induction records with
  | nil => exact iff_of_true ⟨_, rfl⟩ nofun
  | cons rec records ih =>
    rw [List.forall_mem_cons, ← ih]
    rcases degradations_cons baseline rec records with
      ⟨hnot, hrun⟩ | ⟨hfails, hrun⟩ | ⟨-, hnot, line, hrun⟩
    · rw [hrun]
      refine (and_iff_right ?_).symm
      rintro ⟨hms, hpos⟩
      exact hnot ⟨0, hms, by simpa using hpos⟩
    · rw [hrun]
      exact iff_of_false (by simp) fun h => h.1 hfails
    · rw [hrun, and_iff_right hnot]
      cases degradations baseline records <;> simp [Except.map]

/-- The comparison reports nothing exactly if no record is slower than the baseline allows. -/
theorem degradations_eq_nil_iff (records : List PerfRecord) :
    degradations baseline records = .ok [] ↔ ∀ r ∈ records, ¬Slower baseline r := by
  induction records with
  | nil => exact iff_of_true rfl nofun
  | cons rec records ih =>
    rw [List.forall_mem_cons, ← ih]
    rcases degradations_cons baseline rec records with
      ⟨hnot, hrun⟩ | ⟨⟨hms, hpos⟩, hrun⟩ | ⟨hslow, -, line, hrun⟩
    · rw [hrun, and_iff_right hnot]
    · rw [hrun]
      exact iff_of_false (by simp) fun h => h.1 ⟨0, hms, by simpa using hpos⟩
    · rw [hrun]
      refine iff_of_false ?_ fun h => h.1 hslow
      cases degradations baseline records <;> simp [Except.map]

/-! ## Soundness -/

/-- A comparison with the run `b` returns, and reports nothing if it is the run itself. -/
def Sound (a b : PerformanceTracker) : Prop :=
  ∀ (path : String) (files : Files), ∃ lines,
    a.compareWithBaseline path (b.saveBaseline path files) = .ok lines ∧
      (a.records = b.records → lines = [])

theorem compareWithBaseline_saveBaseline (a b : PerformanceTracker) (path : String)
    (files : Files) : a.compareWithBaseline path (b.saveBaseline path files) =
      degradations (baselineMap b.records) a.records := by
  rw [PerformanceTracker.compareWithBaseline, PerformanceTracker.saveBaseline,
    Function.update_self]
  rfl

/-- The time of the last record of that name. -/
def lastMs (records : List PerfRecord) (name : String) : Option ℚ :=
  ((records.filter fun r => r.name = name).getLast?).map (·.elapsedMs)

/-- **A comparison is sound exactly if** no record that took time has a name whose last record in
the baseline took none, and, for a run compared with itself, no record took more than half as long
again as the last one of its name. -/
theorem sound_iff (a b : PerformanceTracker) :
    Sound a b ↔
      (∀ r ∈ a.records, 0 < r.elapsedMs → lastMs b.records r.name ≠ some 0) ∧
        (a.records = b.records → ∀ r ∈ a.records, ∀ ms, lastMs b.records r.name = some ms →
          r.elapsedMs ≤ ms * 1.5) := by
  have hmap : ∀ name, baselineMap b.records name = lastMs b.records name := baselineMap_eq _
  have hfails : (∀ r ∈ a.records, 0 < r.elapsedMs → lastMs b.records r.name ≠ some 0) ↔
      ∀ r ∈ a.records, ¬Fails (baselineMap b.records) r :=
    forall₂_congr fun r _ => by rw [Fails, hmap, not_and', ne_eq]
  have hslower : (∀ r ∈ a.records, ∀ ms, lastMs b.records r.name = some ms →
      r.elapsedMs ≤ ms * 1.5) ↔ ∀ r ∈ a.records, ¬Slower (baselineMap b.records) r :=
    forall₂_congr fun r _ => by simp only [Slower, hmap, not_exists, not_and, not_lt]
  rw [hfails, hslower, ← degradations_isOk_iff, ← degradations_eq_nil_iff]
  simp only [Sound, compareWithBaseline_saveBaseline, forall_const]
  constructor
  · rintro ⟨lines, hlines, hself⟩
    refine ⟨⟨lines, hlines⟩, fun h => ?_⟩
    rw [hlines, hself h]
  · rintro ⟨⟨lines, hlines⟩, hself⟩
    refine ⟨lines, hlines, fun h => ?_⟩
    rw [hself h] at hlines
    exact (Except.ok.inj hlines).symm

/-- A baseline that took no time. -/
theorem zero_baseline_raises : ¬∀ a b : PerformanceTracker,
    (∀ r ∈ a.records, 0 ≤ r.elapsedMs) → (∀ r ∈ b.records, 0 ≤ r.elapsedMs) → Sound a b := by
  intro h
  let a := (PerformanceTracker.empty.record "x" 1 5).2
  let b := (PerformanceTracker.empty.record "x" 0 5).2
  have ha : a.records = [⟨"x", 1, 5, decide ((1 : ℚ) ≤ 5)⟩] := rfl
  have hb : b.records = [⟨"x", 0, 5, decide ((0 : ℚ) ≤ 5)⟩] := rfl
  obtain ⟨lines, hlines, -⟩ := h a b (by simp [ha]) (by simp [hb]) "p" fun _ => none
  rw [compareWithBaseline_saveBaseline] at hlines
  refine (degradations_isOk_iff _ _).mp ⟨lines, hlines⟩ _ (ha ▸ List.mem_singleton_self _) ⟨?_, ?_⟩
  · rw [baselineMap_eq, hb]
    rfl
  · exact one_pos

/-- **A run with distinct names is not slower than itself.** -/
theorem compareWithBaseline_self (a : PerformanceTracker) (hnames : (a.records.map (·.name)).Nodup)
    (hms : ∀ r ∈ a.records, 0 ≤ r.elapsedMs) (path : String) (files : Files) :
    a.compareWithBaseline path (a.saveBaseline path files) = .ok [] := by
  rw [compareWithBaseline_saveBaseline, degradations_eq_nil_iff]
  rintro r hr ⟨ms, hlast, hslow⟩
  rw [baselineMap_eq, Option.map_eq_some_iff] at hlast
  obtain ⟨r', hr', rfl⟩ := hlast
  obtain ⟨hmem, hname⟩ := List.mem_filter.mp (List.mem_of_getLast? hr')
  obtain rfl : r' = r := List.inj_on_of_nodup_map hnames hmem hr (of_decide_eq_true hname)
  have hpos := hms r' hr
  linarith

end SasTests.Performance
