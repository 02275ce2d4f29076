import SasTests.Python.Float
import Mathlib.Data.List.Pairwise
import Mathlib.Tactic.Linarith

/-!
# Two machine types with different limits

Several tests need a velocity that one machine type allows and another one does not. They look for
two machine types with different maxima and take a velocity between the two. The search
(`_pick_two_machine_types_with_different_max`) and the choice of the velocity are written twice, in
the enforcement tests and in the compliance tests.

`candidate_separates`: where all bounds are numbers, both find the two machine types with the least
and the greatest maximum, if these differ, and choose the same velocity, which separates them. The
numbers are exact rationals: nothing is rounded, and no bound is too large for a double.
-/

namespace SasTests.MachineType

open Python

/-! ## The code -/

/-- `_as_float` of a value that needs no rounding and is not too large for a double. What it does to
the others is in `ConstraintSearch`. -/
def asFloat (value : Json) (fallback : PyFloat := .finite 0) : PyFloat :=
  match value.toFloat with
  | .ok x => x
  | .error _ => fallback

/-- A machine type, and a row of its constraints. -/
abbrev Match := Json × List (String × Json)

/-- `_as_float(c.get("minValue"))` -/
def minValue (c : List (String × Json)) : PyFloat := asFloat (Json.field c "minValue")

/-- `_as_float(c.get("maxValue"))` -/
def maxValue (c : List (String × Json)) : PyFloat := asFloat (Json.field c "maxValue")

/-- What both versions do with the list `normalized`. -/
def pickOuter (normalized : List (Match × PyFloat)) : Option (Match × Match) :=
  if normalized.length < 2 then none
  else do
    let sorted := normalized.mergeSort fun x y => !y.2.lt x.2
    let strict ← sorted.head?
    let loose ← sorted.getLast?
    if loose.2.le strict.2 then none else some (strict.1, loose.1)

namespace Enforcement

/-- `_pick_two_machine_types_with_different_max` of the enforcement tests -/
def pickTwoMachineTypesWithDifferentMax (found : List Match) : Option (Match × Match) :=
  pickOuter (found.filterMap fun m =>
    if (minValue m.2).le (maxValue m.2) then some (m, maxValue m.2) else none)

/-- `candidate` in the priority test. -/
def candidate (strict loose : Match) : PyFloat :=
  let strictMax := maxValue strict.2
  let looseMin := minValue loose.2
  let looseMax := maxValue loose.2
  let candidate := strictMax.add ((PyFloat.finite 1).max (looseMax.sub strictMax).half)
  let candidate := if looseMax.lt candidate then looseMax else candidate
  if candidate.lt looseMin then looseMin else candidate

end Enforcement

namespace Compliance

/-- `_pick_two_machine_types_with_different_max` of the compliance tests -/
def pickTwoMachineTypesWithDifferentMax (found : List Match) : Option (Match × Match) :=
  pickOuter (found.map fun m => (m, maxValue m.2))

/-- `candidate` in the compliance tests. -/
def candidate (strict loose : Match) : PyFloat :=
  let strictMax := maxValue strict.2
  let looseMin := minValue loose.2
  let looseMax := maxValue loose.2
  let candidate := strictMax.add ((PyFloat.finite 1).max (looseMax.sub strictMax).half)
  looseMax.min (looseMin.max candidate)

end Compliance

/-! ## Sorting -/

section Sorting

variable {α : Type} (f : α → ℚ) (l : List α)

/-- Sorting by `f`. -/
def sortBy : List α := l.mergeSort fun x y => decide (f x ≤ f y)

theorem pairwise_sortBy : (sortBy f l).Pairwise fun x y => f x ≤ f y := by
  have h : (sortBy f l).Pairwise fun x y => decide (f x ≤ f y) = true :=
    List.pairwise_mergeSort
      (fun a b c hab hbc => decide_eq_true ((of_decide_eq_true hab).trans (of_decide_eq_true hbc)))
      (fun a b => by simpa using le_total (f a) (f b)) l
  exact h.imp fun hab => of_decide_eq_true hab

/-- The first is one of the least, and the last one of the greatest. -/
theorem ends_sortBy (h : l ≠ []) : ∃ first ∈ l, ∃ last ∈ l,
    (sortBy f l).head? = some first ∧ (sortBy f l).getLast? = some last ∧
      ∀ x ∈ l, f first ≤ f x ∧ f x ≤ f last := by
  have hmem : ∀ x, x ∈ sortBy f l ↔ x ∈ l := fun x => List.mem_mergeSort
  have hne : sortBy f l ≠ [] := by
    obtain ⟨x, hx⟩ := List.exists_mem_of_ne_nil l h
    exact List.ne_nil_of_mem ((hmem x).mpr hx)
  refine ⟨_, (hmem _).mp (List.head_mem hne), _, (hmem _).mp (List.getLast_mem hne),
    List.head?_eq_some_head hne, List.getLast?_eq_some_getLast hne, fun x hx => ?_⟩
  have hsorted := pairwise_sortBy f l
  exact ⟨hsorted.rel_head_of_rel_head_head ((hmem x).mpr hx) le_rfl,
    hsorted.rel_getLast_of_rel_getLast_getLast ((hmem x).mpr hx) le_rfl⟩

end Sorting

/-! ## The two machine types -/

/-- A machine type with a constraint whose bounds are numbers. -/
structure RationalMatch where
  toMatch : Match
  min : ℚ
  max : ℚ
  minValue_eq : minValue toMatch.2 = .finite min
  maxValue_eq : maxValue toMatch.2 = .finite max
  min_le_max : min ≤ max

namespace RationalMatch

variable (ms : List RationalMatch)

/-- The element of `normalized`. -/
def entry (m : RationalMatch) : Match × PyFloat := (m.toMatch, .finite m.max)

theorem enforcement_pick : Enforcement.pickTwoMachineTypesWithDifferentMax (ms.map toMatch) =
    pickOuter (ms.map entry) := by
  have hentry : ∀ m : RationalMatch, (if (minValue m.toMatch.2).le (maxValue m.toMatch.2) then
      some (m.toMatch, maxValue m.toMatch.2) else none) = some m.entry := fun m => by
    rw [m.minValue_eq, m.maxValue_eq, PyFloat.le_finite, if_pos (decide_eq_true m.min_le_max)]
    rfl
  rw [Enforcement.pickTwoMachineTypesWithDifferentMax, List.filterMap_map]
  simp only [Function.comp_def, hentry, List.filterMap_eq_map']

theorem compliance_pick : Compliance.pickTwoMachineTypesWithDifferentMax (ms.map toMatch) =
    pickOuter (ms.map entry) := by
  rw [Compliance.pickTwoMachineTypesWithDifferentMax, List.map_map]
  exact congrArg _ (List.map_congr_left fun m _ => by simp [entry, m.maxValue_eq])

/-- Sorting `normalized`. -/
theorem mergeSort_entry : ((ms.map entry).mergeSort fun x y => !y.2.lt x.2) =
    (sortBy RationalMatch.max ms).map entry := by
  refine (List.map_mergeSort fun a _ b _ => ?_).symm
  rw [entry, entry, PyFloat.lt_finite, ← decide_not]
  exact decide_eq_decide.mpr not_lt.symm

/-- Two machine types are found unless there are fewer than two or all maxima are the same. -/
theorem pickOuter_cases :
    (pickOuter (ms.map entry) = none ∧ (ms.length < 2 ∨ ∀ a ∈ ms, ∀ b ∈ ms, a.max = b.max)) ∨
      ∃ strict ∈ ms, ∃ loose ∈ ms,
        pickOuter (ms.map entry) = some (strict.toMatch, loose.toMatch) ∧ 2 ≤ ms.length ∧
          strict.max < loose.max ∧ ∀ m ∈ ms, strict.max ≤ m.max ∧ m.max ≤ loose.max := by
  by_cases hlength : ms.length < 2
  · exact .inl ⟨by simp [pickOuter, hlength], .inl hlength⟩
  · have hne : ms ≠ [] := by
      rintro rfl
      exact hlength (by decide)
    obtain ⟨strict, hstrict, loose, hloose, hfirst, hlast, hends⟩ :=
      ends_sortBy RationalMatch.max ms hne
    have hpick : pickOuter (ms.map entry) =
        if loose.max ≤ strict.max then none else some (strict.toMatch, loose.toMatch) := by
      simp [pickOuter, hlength, mergeSort_entry, hfirst, hlast, entry]
    rw [hpick]
    by_cases hle : loose.max ≤ strict.max
    · refine .inl ⟨if_pos hle, .inr fun a ha b hb => ?_⟩
      have hall : ∀ m ∈ ms, m.max = strict.max := fun m hm =>
        le_antisymm ((hends m hm).2.trans hle) (hends m hm).1
      rw [hall a ha, hall b hb]
    · exact .inr ⟨strict, hstrict, loose, hloose, if_neg hle, not_lt.mp hlength, not_le.mp hle,
        hends⟩

/-! ## The velocity between them -/

/-- The velocity, before it is brought into the range of the loose machine type. -/
def middle (strict loose : RationalMatch) : ℚ :=
  strict.max + Max.max 1 ((loose.max - strict.max) / 2)

/-- The velocity in the range of the loose machine type. -/
def clamped (strict loose : RationalMatch) : ℚ :=
  Min.min loose.max (Max.max loose.min (middle strict loose))

variable {strict loose : RationalMatch}

theorem compliance_candidate :
    Compliance.candidate strict.toMatch loose.toMatch = .finite (clamped strict loose) := by
  simp [Compliance.candidate, strict.maxValue_eq, loose.minValue_eq, loose.maxValue_eq, clamped,
    middle]

/-- The other version first respects the maximum, then the minimum. -/
theorem enforcement_candidate :
    Enforcement.candidate strict.toMatch loose.toMatch = .finite (clamped strict loose) := by
  have hcode : Enforcement.candidate strict.toMatch loose.toMatch =
      (((maxValue strict.toMatch.2).add ((PyFloat.finite 1).max
        ((maxValue loose.toMatch.2).sub (maxValue strict.toMatch.2)).half)).min
          (maxValue loose.toMatch.2)).max (minValue loose.toMatch.2) := rfl
  have hclamp : Max.max (Min.min (middle strict loose) loose.max) loose.min =
      clamped strict loose := by
    rw [clamped, max_comm, min_comm, max_min_distrib_left, max_eq_right loose.min_le_max]
  rw [hcode, strict.maxValue_eq, loose.minValue_eq, loose.maxValue_eq, ← hclamp]
  simp [middle]

/-- The velocity is allowed by one of the machine types and not by the other. -/
theorem clamped_separates (h : strict.max < loose.max) :
    loose.min ≤ clamped strict loose ∧ clamped strict loose ≤ loose.max ∧
      strict.max < clamped strict loose := by
  refine ⟨le_min loose.min_le_max (le_max_left ..), min_le_left .., lt_min h ?_⟩
  refine lt_max_of_lt_right (lt_add_of_pos_right _ ?_)
  exact one_pos.trans_le (le_max_left ..)

end RationalMatch

/-- **The chosen velocity separates.** Both searches find two machine types unless there are fewer
than two or all maxima are the same. They have the least and the greatest maximum, and the velocity,
which both versions choose, is allowed by one and not by the other. -/
theorem candidate_separates (ms : List RationalMatch) :
    let found := ms.map RationalMatch.toMatch
    Compliance.pickTwoMachineTypesWithDifferentMax found =
        Enforcement.pickTwoMachineTypesWithDifferentMax found ∧
      (Enforcement.pickTwoMachineTypesWithDifferentMax found = none ↔
        ms.length < 2 ∨ ∀ a ∈ ms, ∀ b ∈ ms, a.max = b.max) ∧
      ∀ strict loose, Enforcement.pickTwoMachineTypesWithDifferentMax found = some (strict, loose) →
        ∃ s ∈ ms, ∃ l ∈ ms, s.toMatch = strict ∧ l.toMatch = loose ∧
          (∀ m ∈ ms, s.max ≤ m.max ∧ m.max ≤ l.max) ∧
          ∃ velocity, Enforcement.candidate strict loose = .finite velocity ∧
            Compliance.candidate strict loose = .finite velocity ∧
            l.min ≤ velocity ∧ velocity ≤ l.max ∧ s.max < velocity := by
  intro found
  rw [RationalMatch.compliance_pick, RationalMatch.enforcement_pick]
  refine ⟨rfl, ?_⟩
  rcases RationalMatch.pickOuter_cases ms with
    ⟨hnone, hsame⟩ | ⟨s, hs, l, hl, hsome, hlength, hlt, hends⟩
  · rw [hnone]
    exact ⟨iff_of_true rfl hsame, nofun⟩
  · rw [hsome]
    refine ⟨iff_of_false (by simp) ?_, ?_⟩
    · rintro (hshort | hsame)
      · omega
      · exact hlt.ne (hsame s hs l hl)
    · intro strict loose hpair
      obtain ⟨rfl, rfl⟩ := Prod.mk.inj (Option.some.inj hpair)
      exact ⟨s, hs, l, hl, rfl, rfl, hends, _, RationalMatch.enforcement_candidate,
        RationalMatch.compliance_candidate, RationalMatch.clamped_separates hlt⟩

end SasTests.MachineType
