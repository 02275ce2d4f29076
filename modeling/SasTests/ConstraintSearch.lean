import SasTests.CheckTorqueConstraints
import SasTests.Lib.Search
import SasTests.PickMachineTypes
import SasTests.Python.Binary64

/-!
# Searching for a constraint

Three functions ask the server for its machine types, ask for the constraints of each, and look for
rows of a parameter: `_find_machine_type_constraint` returns the first one, and the two functions
called `_find_machine_type_constraints`, one in the enforcement tests and one in the compliance
tests, return all; the one in the compliance tests leaves out rows whose range is empty, which
`_pick_constraint_with_valid_range` does for the enforcement tests.

The bounds of a range are what `_as_float` makes of two values of the reply, which may be anything.
Here it is the function of the source with all that it does (`Doubles.asFloat`): it rounds to a
double, and it catches the `TypeError` and the `ValueError` of `float`, but not the `OverflowError`
that an integer from `2 ** 1024` on raises. `agree_iff` says when the searches agree: unless a bound
of one of the rows is `nan`, or an integer that is too large.
-/

namespace SasTests.MachineType

open Python
open CheckTorqueConstraints (iterate)

/-! ## The code -/

/-- What the server answers, always in the same way, or the exception that a request ends with. -/
structure Backend where
  /-- to `machine_type_list_query` -/
  listing : Except PyError Json
  /-- to `machine_type_constraints_query` for a machine type -/
  constraints : Json → Except PyError Json

/-- The rows of the listing. -/
def listingRows (ws : Backend) : Except PyError (List Json) := do
  let listing ← ws.listing
  iterate (← listing.get "data" (.arr []))

/-- The machine type of a row and its constraints, unless the row is passed over. -/
def rowConstraints (ws : Backend) (row : Json) : Except PyError (Option (Json × List Json)) := do
  let machineTypeId ← row.get "id"
  if machineTypeId.truthy then
    let resp ← ws.constraints machineTypeId
    let success ← resp.get "success"
    if success.truthy then
      return some (machineTypeId, ← iterate (← resp.get "constraints" (.arr [])))
  return none

/-- What a search makes of a constraint: it is passed over, or it is a match. -/
abbrev Filter : Type := Json → Except PyError (Option (List (String × Json)))

/-- The nested loops of a search that returns the first match. -/
def firstMatch (ws : Backend) (wanted : Filter) : Except PyError (Option Match) := do
  let rows ← listingRows ws
  rows.findSomeM? fun row => do
    match ← rowConstraints ws row with
    | none => return none
    | some (machineTypeId, constraints) => constraints.findSomeM? fun c => do
      return (← wanted c).map fun c => (machineTypeId, c)

/-- The nested loops of a search that returns all matches. -/
def allMatches (ws : Backend) (wanted : Filter) : Except PyError (List Match) := do
  let rows ← listingRows ws
  rows.flatMapM fun row => do
    match ← rowConstraints ws row with
    | none => return []
    | some (machineTypeId, constraints) => constraints.flatMapM fun c => do
      return ((← wanted c).map fun c => (machineTypeId, c)).toList

/-- `torque_unit in (None, "")` -/
def isEmptyUnit : Json → Bool
  | .null => true
  | torqueUnit => torqueUnit.eqStr ""

namespace Doubles

/-- `_as_float`, with doubles: what `float` raises is caught, but for its `OverflowError`. -/
def asFloat (value : Json) (fallback : PyFloat := .finite 0) : Except PyError PyFloat :=
  match value.toDouble with
  | .ok x => .ok x
  | .error .typeError => .ok fallback
  | .error .valueError => .ok fallback
  | .error e => .error e

/-- `_as_float(c.get("minValue"))` -/
def minValue (c : List (String × Json)) : Except PyError PyFloat := asFloat (Json.field c "minValue")

/-- `_as_float(c.get("maxValue"))` -/
def maxValue (c : List (String × Json)) : Except PyError PyFloat := asFloat (Json.field c "maxValue")

/-- On a number that is a double, `_as_float` is the exact conversion. -/
theorem asFloat_num {q : ℚ} (h : roundFloat q = .finite q) :
    asFloat (.num q) = .ok (MachineType.asFloat (.num q)) := by
  rw [asFloat, Json.toDouble_num h]
  rfl

end Doubles

namespace Enforcement

/-- What stands in the inner loops of the enforcement tests. -/
def wanted (paramName : String) (requireEmptyTorqueUnit : Bool) : Filter
  | .obj fields =>
    .ok (if !(Json.field fields "paramName").eqStr paramName then none
      else if requireEmptyTorqueUnit && !isEmptyUnit (Json.field fields "torqueUnit") then none
      else some fields)
  -- nothing else has a `get`
  | _ => .error .attributeError

/-- `_find_machine_type_constraint` -/
def findMachineTypeConstraint (ws : Backend) (paramName : String)
    (requireEmptyTorqueUnit : Bool := false) : Except PyError (Option Match) :=
  firstMatch ws (wanted paramName requireEmptyTorqueUnit)

/-- `_find_machine_type_constraints` -/
def findMachineTypeConstraints (ws : Backend) (paramName : String)
    (requireEmptyTorqueUnit : Bool := false) : Except PyError (List Match) :=
  allMatches ws (wanted paramName requireEmptyTorqueUnit)

/-- `_pick_constraint_with_valid_range` -/
def pickConstraintWithValidRange (found : List Match) : Except PyError (Option Match) :=
  found.findSomeM? fun m => do
    let minV ← Doubles.minValue m.2
    let maxV ← Doubles.maxValue m.2
    return if minV.le maxV then some m else none

end Enforcement

namespace Compliance

/-- What stands in the inner loop of the compliance tests. -/
def wanted (paramName : String) : Filter
  | .obj fields =>
    if !(Json.field fields "paramName").eqStr paramName then .ok none
    else do
      let minV ← Doubles.minValue fields
      let maxV ← Doubles.maxValue fields
      return if maxV.lt minV then none else some fields
  | _ => .error .attributeError

/-- `_find_machine_type_constraints` of the compliance tests -/
def findMachineTypeConstraints (ws : Backend) (paramName : String) :
    Except PyError (List Match) :=
  allMatches ws (wanted paramName)

end Compliance

/-! ## The nested loops -/

/-- The first match is the first of all matches. -/
theorem firstMatch_of_allMatches {ws : Backend} {wanted : Filter} {found : List Match}
    (h : allMatches ws wanted = .ok found) : firstMatch ws wanted = .ok found.head? := by
  rw [allMatches] at h
  rw [firstMatch]
  cases hrows : listingRows ws with
  | error e =>
    rw [hrows] at h
    cases h
  | ok rows =>
    rw [hrows] at h
    refine Search.findSomeM?_of_flatMapM (fun row bs hbs => ?_) h
    cases hrow : rowConstraints ws row with
    | error e =>
      rw [hrow] at hbs
      cases hbs
    | ok answer =>
      rw [hrow] at hbs
      cases answer with
      | none =>
        cases hbs
        rfl
      | some answer =>
        refine Search.findSomeM?_of_flatMapM (fun c cs hcs => ?_) hbs
        cases hc : wanted c with
        | error e =>
          rw [hc] at hcs
          cases hcs
        | ok c =>
          rw [hc] at hcs
          cases hcs
          cases c <;> rfl

/-- Checking the constraints while they are collected is checking the matches. -/
theorem allMatches_check {wanted wanted' : Filter} {check : Match → Except PyError (List Match)}
    (h : ∀ machineTypeId c fields, wanted c = .ok fields →
      (wanted' c).map (fun c => (c.map fun c => (machineTypeId, c)).toList) =
        ((fields.map fun c => (machineTypeId, c)).toList).flatMapM check)
    {ws : Backend} {found : List Match} (hfound : allMatches ws wanted = .ok found) :
    allMatches ws wanted' = found.flatMapM check := by
  rw [allMatches] at hfound ⊢
  cases hrows : listingRows ws with
  | error e =>
    rw [hrows] at hfound
    cases hfound
  | ok rows =>
    rw [hrows] at hfound
    refine Search.flatMapM_check (fun row bs hbs => ?_) hfound
    cases hrow : rowConstraints ws row with
    | error e =>
      rw [hrow] at hbs
      cases hbs
    | ok answer =>
      rw [hrow] at hbs
      cases answer with
      | none =>
        cases hbs
        rfl
      | some answer =>
        refine Search.flatMapM_check (fun c cs hcs => ?_) hbs
        cases hc : wanted c with
        | error e =>
          rw [hc] at hcs
          cases hcs
        | ok fields =>
          rw [hc] at hcs
          cases hcs
          exact h answer.1 c fields hc

/-- A search that fails at every constraint at which another one fails, fails if that one does. -/
theorem allMatches_error {wanted wanted' : Filter}
    (h : ∀ c e, wanted c = .error e → ∃ e, wanted' c = .error e) {ws : Backend} {e : PyError}
    (hfound : allMatches ws wanted = .error e) : ∃ e, allMatches ws wanted' = .error e := by
  rw [allMatches] at hfound ⊢
  cases hrows : listingRows ws with
  | error e => exact ⟨e, rfl⟩
  | ok rows =>
    rw [hrows] at hfound
    refine Search.flatMapM_error (fun row e he => ?_) hfound
    cases hrow : rowConstraints ws row with
    | error e => exact ⟨e, rfl⟩
    | ok answer =>
      rw [hrow] at he
      cases answer with
      | none => cases he
      | some answer =>
        refine Search.flatMapM_error (fun c e hc => ?_) he
        cases hwanted : wanted c with
        | error e =>
          obtain ⟨e', he'⟩ := h c e hwanted
          rw [he']
          exact ⟨e', rfl⟩
        | ok fields =>
          rw [hwanted] at hc
          cases hc

/-! ## Searches that return -/

/-- A dictionary in which the rows under `key` are dictionaries. -/
def HasRows (key : String) (resp : Json) : Prop :=
  ∃ (fields : List (String × Json)) (rows : List (List (String × Json))),
    resp = .obj fields ∧ Json.field fields key (.arr []) = .arr (rows.map .obj)

/-- The server answers every request, with dictionaries. -/
structure Backend.WellFormed (ws : Backend) : Prop where
  listing : ∃ resp, ws.listing = .ok resp ∧ HasRows "data" resp
  constraints : ∀ machineTypeId, ∃ resp,
    ws.constraints machineTypeId = .ok resp ∧ HasRows "constraints" resp

/-- The constraints of a machine type are dictionaries, too. -/
theorem Backend.WellFormed.exists_rowConstraints {ws : Backend} (h : ws.WellFormed)
    (row : List (String × Json)) : ∃ answer, rowConstraints ws (.obj row) = .ok answer ∧
      ∀ p ∈ answer, ∃ cs : List (List (String × Json)), p.2 = cs.map .obj := by
  obtain ⟨_, hresp, fields, cs, rfl, hcs⟩ := h.constraints (Json.field row "id")
  by_cases hid : (Json.field row "id").truthy = true
  · by_cases hsuccess : (Json.field fields "success").truthy = true
    · refine ⟨some (Json.field row "id", cs.map .obj), ?_, fun p hp => ?_⟩
      · simp [rowConstraints, hid, hresp, hsuccess, hcs, iterate, bind, Except.bind, pure,
          Except.pure]
      · obtain rfl := Option.some.inj hp
        exact ⟨cs, rfl⟩
    · refine ⟨none, ?_, fun _ h => by cases h⟩
      simp [rowConstraints, hid, hresp, hsuccess, bind, Except.bind, pure, Except.pure]
  · refine ⟨none, ?_, fun _ h => by cases h⟩
    simp [rowConstraints, hid, bind, Except.bind, pure, Except.pure]

/-- A search that takes dictionaries returns. -/
theorem Backend.WellFormed.exists_allMatches {ws : Backend} (h : ws.WellFormed) {wanted : Filter}
    (hwanted : ∀ c, ∃ fields, wanted (.obj c) = .ok fields) :
    ∃ found, allMatches ws wanted = .ok found := by
  obtain ⟨_, hresp, fields, rows, rfl, hrows⟩ := h.listing
  have hlistingRows : listingRows ws = .ok (rows.map .obj) := by
    rw [listingRows, hresp]
    simp [hrows, iterate, bind, Except.bind]
  rw [allMatches, hlistingRows]
  refine Search.exists_flatMapM_eq_ok fun row hrow => ?_
  obtain ⟨row, -, rfl⟩ := List.mem_map.mp hrow
  obtain ⟨answer, hanswer, hcs⟩ := h.exists_rowConstraints row
  rw [hanswer]
  cases answer with
  | none => exact ⟨[], rfl⟩
  | some answer =>
    obtain ⟨cs, hcs⟩ := hcs answer rfl
    refine Search.exists_flatMapM_eq_ok fun c hc => ?_
    rw [hcs] at hc
    obtain ⟨c, -, rfl⟩ := List.mem_map.mp hc
    obtain ⟨fields, hfields⟩ := hwanted c
    rw [hfields]
    exact ⟨_, rfl⟩

/-! ## Agreement -/

/-- Of the matches, those with `maxValue >= minValue`. -/
def withValidRange (found : List Match) : Except PyError (List Match) :=
  found.flatMapM fun m => do
    let minV ← Doubles.minValue m.2
    let maxV ← Doubles.maxValue m.2
    return if minV.le maxV then [m] else []

/-- The searches for a parameter agree: the first match is the first of all; what the compliance
tests find is what the enforcement tests find, without the empty ranges; and the first of what
remains is what the enforcement tests pick. If the search of the enforcement tests raises, so does
that of the compliance tests. -/
structure Agree (ws : Backend) (paramName : String) : Prop where
  first : ∀ requireEmptyTorqueUnit found,
    Enforcement.findMachineTypeConstraints ws paramName requireEmptyTorqueUnit = .ok found →
      Enforcement.findMachineTypeConstraint ws paramName requireEmptyTorqueUnit = .ok found.head?
  filtered : ∀ found, Enforcement.findMachineTypeConstraints ws paramName = .ok found →
    ∃ compliant, withValidRange found = .ok compliant ∧
      Compliance.findMachineTypeConstraints ws paramName = .ok compliant
  picked : ∀ found compliant,
    Enforcement.findMachineTypeConstraints ws paramName = .ok found →
      Compliance.findMachineTypeConstraints ws paramName = .ok compliant →
        Enforcement.pickConstraintWithValidRange found = .ok compliant.head?
  failed : ∀ e, Enforcement.findMachineTypeConstraints ws paramName = .error e →
    ∃ e, Compliance.findMachineTypeConstraints ws paramName = .error e

/-- `_as_float` makes a number of the value, or an infinity: it is not `nan`, and not an integer that
is too large. -/
def ReadsNumber (value : Json) : Prop := ∃ x, Doubles.asFloat value = .ok x ∧ x ≠ .nan

/-- The bounds of the rows that are found are numbers. -/
def HaveBounds (ws : Backend) (paramName : String) : Prop :=
  ∀ found, Enforcement.findMachineTypeConstraints ws paramName = .ok found →
    ∀ m ∈ found, ReadsNumber (Json.field m.2 "minValue") ∧ ReadsNumber (Json.field m.2 "maxValue")

/-- What the compliance tests do with a match of the enforcement tests. -/
def notEmpty (m : Match) : Except PyError (List Match) := do
  let minV ← Doubles.minValue m.2
  let maxV ← Doubles.maxValue m.2
  return if maxV.lt minV then [] else [m]

/-- What the compliance tests find is what the enforcement tests find, without the rows whose
maximum is less than their minimum. -/
theorem compliance_eq {ws : Backend} {paramName : String} {found : List Match}
    (h : Enforcement.findMachineTypeConstraints ws paramName = .ok found) :
    Compliance.findMachineTypeConstraints ws paramName = found.flatMapM notEmpty := by
  refine allMatches_check (fun machineTypeId c fields hc => ?_) h
  cases c with
  | obj c =>
    obtain rfl := Except.ok.inj hc
    rw [Compliance.wanted]
    cases (Json.field c "paramName").eqStr paramName with
    | false => rfl
    | true =>
      simp only [Bool.not_true, Bool.false_eq_true, if_false, Bool.false_and,
        Option.map_some, Option.toList_some, List.flatMapM_cons, List.flatMapM_nil, notEmpty]
      cases Doubles.minValue c with
      | error e => rfl
      | ok minV =>
        cases Doubles.maxValue c with
        | error e => rfl
        | ok maxV =>
          cases h : maxV.lt minV <;>
            simp [h, bind, Except.bind, pure, Except.pure, Except.map]
  | _ => cases hc

/-- The exceptions of the enforcement tests are raised in the compliance tests, too. -/
theorem compliance_error {ws : Backend} {paramName : String} {e : PyError}
    (h : Enforcement.findMachineTypeConstraints ws paramName = .error e) :
    ∃ e, Compliance.findMachineTypeConstraints ws paramName = .error e := by
  refine allMatches_error (fun c e hc => ?_) h
  cases c with
  | obj c => cases hc
  | _ => exact ⟨_, rfl⟩

/-- A bound that was read; `nan` if that raised. -/
def orNan : Except PyError PyFloat → PyFloat
  | .ok x => x
  | .error _ => .nan

/-- The range of a match is not empty. -/
def validRange (m : Match) : Bool :=
  (orNan (Doubles.minValue m.2)).le (orNan (Doubles.maxValue m.2))

/-- Its maximum is not less than its minimum. -/
def notLess (m : Match) : Bool :=
  !(orNan (Doubles.maxValue m.2)).lt (orNan (Doubles.minValue m.2))

/-- The bounds of a match can be read. -/
def HasBounds (m : Match) : Prop :=
  (∃ x, Doubles.minValue m.2 = .ok x) ∧ ∃ y, Doubles.maxValue m.2 = .ok y

theorem withValidRange_eq {found : List Match} (h : ∀ m ∈ found, HasBounds m) :
    withValidRange found = .ok (found.filter validRange) := by
  refine Search.flatMapM_eq_filter fun m hm => ?_
  obtain ⟨⟨x, hx⟩, y, hy⟩ := h m hm
  simp only [validRange, hx, hy, orNan]
  rfl

theorem flatMapM_notEmpty_eq {found : List Match} (h : ∀ m ∈ found, HasBounds m) :
    found.flatMapM notEmpty = .ok (found.filter notLess) := by
  refine Search.flatMapM_eq_filter fun m hm => ?_
  obtain ⟨⟨x, hx⟩, y, hy⟩ := h m hm
  simp only [notEmpty, notLess, hx, hy, orNan]
  cases hlt : y.lt x <;> simp [hlt, bind, Except.bind, pure, Except.pure]

/-- The bounds are numbers exactly if they can be read and both ways to say that the range is not
empty are the same. -/
theorem readsNumber_iff {m : Match} :
    ReadsNumber (Json.field m.2 "minValue") ∧ ReadsNumber (Json.field m.2 "maxValue") ↔
      HasBounds m ∧ validRange m = notLess m := by
  constructor
  · rintro ⟨⟨x, hx, hxnan⟩, y, hy, hynan⟩
    have hx' : Doubles.minValue m.2 = .ok x := hx
    have hy' : Doubles.maxValue m.2 = .ok y := hy
    refine ⟨⟨⟨x, hx'⟩, y, hy'⟩, ?_⟩
    rw [validRange, notLess, hx', hy']
    exact PyFloat.le_eq_not_lt_iff.mpr ⟨hxnan, hynan⟩
  · rintro ⟨⟨⟨x, hx⟩, y, hy⟩, heq⟩
    rw [validRange, notLess, hx, hy] at heq
    obtain ⟨hxnan, hynan⟩ := PyFloat.le_eq_not_lt_iff.mp heq
    exact ⟨⟨x, hx, hxnan⟩, y, hy, hynan⟩

/-- Both searches make the same of a list of rows exactly if all bounds are numbers. -/
theorem withValidRange_iff {found : List Match} :
    (∃ compliant, withValidRange found = .ok compliant ∧ found.flatMapM notEmpty = .ok compliant) ↔
      ∀ m ∈ found, ReadsNumber (Json.field m.2 "minValue") ∧
        ReadsNumber (Json.field m.2 "maxValue") := by
  constructor
  · rintro ⟨compliant, hvalid, hnotEmpty⟩
    have hbounds : ∀ m ∈ found, HasBounds m := by
      intro m hm
      obtain ⟨bs, hbs⟩ := Search.exists_of_flatMapM hvalid m hm
      obtain ⟨x, hx, hbs⟩ := bind_eq_ok hbs
      obtain ⟨y, hy, -⟩ := bind_eq_ok hbs
      exact ⟨⟨x, hx⟩, y, hy⟩
    rw [withValidRange_eq hbounds] at hvalid
    rw [flatMapM_notEmpty_eq hbounds] at hnotEmpty
    have hsame : found.filter validRange = found.filter notLess :=
      (Except.ok.inj hvalid).trans (Except.ok.inj hnotEmpty).symm
    intro m hm
    have hmem : m ∈ found.filter validRange ↔ m ∈ found.filter notLess := by rw [hsame]
    rw [List.mem_filter, List.mem_filter, and_iff_right hm, and_iff_right hm] at hmem
    exact readsNumber_iff.mpr ⟨hbounds m hm, Bool.eq_iff_iff.mpr hmem⟩
  · intro h
    have hbounds : ∀ m ∈ found, HasBounds m := fun m hm => (readsNumber_iff.mp (h m hm)).1
    refine ⟨_, withValidRange_eq hbounds, (flatMapM_notEmpty_eq hbounds).trans ?_⟩
    exact congrArg Except.ok (List.filter_congr fun m hm => (readsNumber_iff.mp (h m hm)).2.symm)

/-- The first of the matches with a range that is not empty is the one that is picked. -/
theorem pick_eq {found compliant : List Match} (h : withValidRange found = .ok compliant) :
    Enforcement.pickConstraintWithValidRange found = .ok compliant.head? := by
  refine Search.findSomeM?_of_flatMapM (fun m bs hbs => ?_) h
  obtain ⟨x, hx, hbs⟩ := bind_eq_ok hbs
  obtain ⟨y, hy, hbs⟩ := bind_eq_ok hbs
  obtain rfl := Except.ok.inj hbs
  rw [hx, hy]
  cases h : x.le y <;> simp [h, bind, Except.bind, pure, Except.pure]

/-- If the searches agree, the bounds that are found are numbers. -/
theorem Agree.haveBounds {ws : Backend} {paramName : String} (h : Agree ws paramName) :
    HaveBounds ws paramName := by
  intro found hfound
  obtain ⟨compliant, hvalid, hcompliant⟩ := h.filtered found hfound
  rw [compliance_eq hfound] at hcompliant
  exact withValidRange_iff.mp ⟨compliant, hvalid, hcompliant⟩

/-- **The searches agree exactly if the bounds of the rows that are found are numbers**, neither
`nan` nor integers that are too large for a double; and on well-formed replies they return. Both
directions hold for any server, also for one whose replies make the searches raise. -/
theorem agree_iff (ws : Backend) (paramName : String) :
    (Agree ws paramName ↔ HaveBounds ws paramName) ∧ (ws.WellFormed → ∀ requireEmptyTorqueUnit,
      ∃ found, Enforcement.findMachineTypeConstraints ws paramName requireEmptyTorqueUnit =
        .ok found) := by
  refine ⟨⟨Agree.haveBounds, fun h => ?_⟩, fun h _ => h.exists_allMatches fun c => ⟨_, rfl⟩⟩
  have hfiltered : ∀ found, Enforcement.findMachineTypeConstraints ws paramName = .ok found →
      ∃ compliant, withValidRange found = .ok compliant ∧
        Compliance.findMachineTypeConstraints ws paramName = .ok compliant := by
    intro found hfound
    rw [compliance_eq hfound]
    exact withValidRange_iff.mpr (h found hfound)
  refine ⟨fun _ found hfound => firstMatch_of_allMatches hfound, hfiltered, ?_,
    fun e he => compliance_error he⟩
  intro found compliant hfound hcompliant
  obtain ⟨compliant', hvalid, hcompliant'⟩ := hfiltered found hfound
  obtain rfl := Except.ok.inj (hcompliant.symm.trans hcompliant')
  exact pick_eq hvalid

/-- A machine type with a velocity whose maximum is `NaN`. -/
def nanBackend : Backend where
  listing := .ok (.obj [("data", .arr [.obj [("id", .num 1)]])])
  constraints _ := .ok (.obj [("success", .bool true), ("constraints", .arr [.obj
    [("paramName", .str "ref_vel"), ("minValue", .num 1), ("maxValue", .nonFinite "NaN")]])])

/-- The compliance tests find its row, although its maximum is not at least its minimum. -/
theorem nan_found : ¬∀ (ws : Backend) (paramName : String), Agree ws paramName := by
  intro h
  obtain ⟨-, x, hx, hnan⟩ :=
    (h nanBackend "ref_vel").haveBounds _ rfl _ (List.mem_singleton_self _)
  have hread : Doubles.asFloat (.nonFinite "NaN") = .ok .nan := rfl
  exact hnan (Except.ok.inj (hx.symm.trans hread))

end SasTests.MachineType
