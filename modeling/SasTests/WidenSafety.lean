import SasTests.CheckTorqueConstraints
import SasTests.Helpers
import SasTests.Lib.Table
import SasTests.PickMachineTypes

/-!
# Fitting a payload to the constraints of a machine type

`_widen_safety_for_constraints` brings a payload in line with the constraints of a machine type: the
safety windows of `detail_params` are widened until they contain the range of their constraint, the
torque values and those of the clamp are replaced, and the values of the steps are brought into the
windows.

`widen_compatible` says that the payload then keeps the constraints, whatever it was before, and
that doing it again changes nothing. It assumes that the bounds of the rows are numbers, in their
order, and that there is at most one row of a name that is looked up in a dictionary
(`ConstraintsReply`); numbers are exact.

Two constraints are about the same window, that of the time, and the windows are widened one after
the other. What carries the proof is that a window only grows: what it covers (`Covers`) it still
covers when another row has been looked at. The steps come last, one key at a time, and each pass
over them leaves what the others have fitted (`Fitted`).
-/

namespace SasTests.MachineType

open Python Helpers
open Json (number HasNumbers number_congr number_of_lookup lookup_number)
open CheckTorqueConstraints (iterate)

/-! ## The code -/

/-- A payload, as far as it is changed. -/
structure Payload where
  detailParams : List (String × Json)
  stepParams : List (List (String × Json))

/-- `_torque_unit_str_to_code` -/
def torqueUnitStrToCode (unit : Json) : Option ℕ :=
  match unit with
  | .str "mN.m" => some 0
  | .str "kgf.cm" => some 1
  | .str "lbf.in" => some 2
  | .str "N.m" => some 3
  | _ => none

/-- A row of the reply under its `paramName`. -/
def namedRow (c : Json) : Except PyError (Json.Key × List (String × Json)) :=
  match c with
  | .obj fields => do
    let paramName ← c.getItem "paramName"
    let key ← paramName.key
    return (key, fields)
  -- nothing else has the key `"paramName"`
  | _ => .error .typeError

/-- The dictionary `constraints`. -/
abbrev Constraints := Json.Key → Option (List (String × Json))

/-- `_widen` -/
def widen (constraints : Constraints) (paramName : String) (w : Window)
    (d : List (String × Json)) : List (String × Json) :=
  match constraints (.str paramName) with
  | none => d
  | some c =>
    let newMin := (asFloat (Json.field d w.min)).min (minValue c)
    let newMax := (asFloat (Json.field d w.max)).max (maxValue c)
    let d := Json.assign w.max newMax.toJson (Json.assign w.min newMin.toJson d)
    let curTarget := asFloat (Json.field d w.target)
    let d := if curTarget.lt newMin then Json.assign w.target newMin.toJson d else d
    if newMax.lt curTarget then Json.assign w.target newMax.toJson d else d

/-- The calls of `_widen`. -/
def widenings : List (String × Window) :=
  [("ref_vel", velWindow), ("time_target", timeWindow), ("time", timeWindow),
    ("ref_degree", degreeWindow)]

/-- The rows of that name. -/
def rowsOf (name : String) (rows : List (List (String × Json))) : List (List (String × Json)) :=
  rows.filter fun c => (Json.field c "paramName").eqStr name

/-- `tc`: the first torque row whose unit has a code. -/
def torqueRow (rows : List (List (String × Json))) : Option (List (String × Json)) :=
  (rowsOf "torque" rows).find? fun c => (torqueUnitStrToCode (Json.field c "torqueUnit")).isSome

/-- `(_as_float(c.get("minValue")) + _as_float(c.get("maxValue"))) / 2` -/
def midValue (c : List (String × Json)) : PyFloat := ((minValue c).add (maxValue c)).half

/-- What `d` is assigned for the torque row `tc`. -/
def torqueItems (tc : List (String × Json)) : List (String × Json) :=
  (match torqueUnitStrToCode (Json.field tc "torqueUnit") with
    | some code => [("torque_unit", .num code)]
    | none => []) ++
  [("torque_target", (midValue tc).toJson), ("torque_min", (minValue tc).toJson),
    ("torque_max", (maxValue tc).toJson)]

/-- `cmin_c` and `cmax_c`: the row of that name in the unit of the torque row, or else the last one
of that name. -/
def clampRow (constraints : Constraints) (rows : List (List (String × Json)))
    (tc : Option (List (String × Json))) (name : String) : Option (List (String × Json)) :=
  let sameUnit (c : List (String × Json)) : Bool := match tc.map (Json.field · "torqueUnit") with
    | some (.str unit) => unit = "" || (Json.field c "torqueUnit").eqStr unit
    | _ => true
  ((rowsOf name rows).find? sameUnit).or (constraints (.str name))

/-- What `d` is assigned for the clamp. -/
def clampItems (cmin cmax : Option (List (String × Json))) : List (String × Json) :=
  (cmin.map fun c => ("clamp_torque_min", (minValue c).toJson)).toList ++
    (cmax.map fun c => ("clamp_torque_max", (maxValue c).toJson)).toList

/-- The keys that are assigned for the torque and for the clamp. -/
def torqueKeys : List String := ["torque_unit", "torque_target", "torque_min", "torque_max"]

def clampKeys : List String := ["clamp_torque_min", "clamp_torque_max"]

theorem torqueItems_keys (tc : List (String × Json)) :
    ((torqueItems tc).map Prod.fst).Sublist torqueKeys := by
  rw [torqueItems]
  split
  · exact List.Sublist.refl _
  · exact List.sublist_cons_self ..

theorem clampItems_keys (cmin cmax : Option (List (String × Json))) :
    ((clampItems cmin cmax).map Prod.fst).Sublist clampKeys := by
  cases cmin <;> cases cmax <;> simp [clampItems, clampKeys]

/-- Bring `step[key]` into the window `w` of `d`. A value below it becomes `below`, and one above it
`mid`. -/
def fit (d : List (String × Json)) (w : Window) (key : String) (below mid : PyFloat)
    (step : List (String × Json)) : Except PyError (List (String × Json)) := do
  let step := Json.setDefault key mid.toJson step
  let low ← (Json.field step key).ltFloat (asFloat (Json.field d w.min))
  let step := if low then Json.assign key below.toJson step else step
  let high ← (Json.field step key).gtFloat (asFloat (Json.field d w.max))
  return if high then Json.assign key mid.toJson step else step

/-- A loop over the steps, if there is a row `c`. -/
def fitSteps (c : Option (List (String × Json))) (d : List (String × Json)) (w : Window)
    (key : String) (below : List (String × Json) → PyFloat) (steps : List (List (String × Json))) :
    Except PyError (List (List (String × Json))) :=
  match c with
  | none => .ok steps
  | some c => steps.mapM (fit d w key (below c) (midValue c))

/-- The loop for the velocity: one that is too low becomes the minimum. -/
def fitVel (c : Option (List (String × Json))) (d : List (String × Json)) :=
  fitSteps c d velWindow "ref_vel" fun _ => asFloat (Json.field d "vel_min")

/-- The loop for the time. -/
def fitTime (c : Option (List (String × Json))) (d : List (String × Json)) :=
  fitSteps c d timeWindow "ref_time" midValue

/-- The loop for the angle. -/
def fitDegree (c : Option (List (String × Json))) (d : List (String × Json)) :=
  fitSteps c d degreeWindow "ref_degree" midValue

/-- `_widen_safety_for_constraints` for the reply `resp`. -/
def widenSafetyForConstraints (resp : List (String × Json)) (payload : Payload) :
    Except PyError Payload := do
  let values ← iterate (Json.field resp "constraints" (.arr []))
  let named ← values.mapM namedRow
  let constraints : Constraints := Table.fill Prod.fst (fun c _ => some c.2) named
  let rows := named.map Prod.snd
  let d := widenings.foldl (fun d p => widen constraints p.1 p.2 d) payload.detailParams
  let tc := torqueRow rows
  let d := Json.update d ((tc.map torqueItems).getD [])
  let steps := match tc with
    | none => payload.stepParams
    | some tc => payload.stepParams.map (Json.assign "ref_torque" (midValue tc).toJson)
  let d := Json.update d (clampItems (clampRow constraints rows tc "clamp_torque_min")
    (clampRow constraints rows tc "clamp_torque_max"))
  let steps ← fitVel (constraints (.str "ref_vel")) d steps
  let steps ← fitTime ((constraints (.str "time")).or (constraints (.str "time_target"))) d steps
  let steps ← fitDegree (constraints (.str "ref_degree")) d steps
  return { detailParams := d, stepParams := steps }

/-! ## Constraints and payloads -/

/-- A row with a name whose bounds are numbers. -/
structure Constraint where
  fields : List (String × Json)
  name : String
  min : ℚ
  max : ℚ
  named : fields.lookup "paramName" = some (.str name)
  minValue_eq : minValue fields = .finite min
  maxValue_eq : maxValue fields = .finite max
  min_le_max : min ≤ max

namespace Constraint

variable (c : Constraint)

/-- A row is not empty: it has its name. -/
theorem fields_ne_nil : c.fields ≠ [] := by
  intro h
  have hnamed := c.named
  rw [h] at hnamed
  cases hnamed

/-- The middle of the range. -/
def mid : ℚ := (c.min + c.max) / 2

/-- The code of the unit, if it has one. -/
def unitCode : Option ℕ := torqueUnitStrToCode (Json.field c.fields "torqueUnit")

theorem min_le_mid : c.min ≤ c.mid := by
  have := c.min_le_max
  rw [mid]
  linarith

theorem mid_le_max : c.mid ≤ c.max := by
  have := c.min_le_max
  rw [mid]
  linarith

theorem midValue_eq : midValue c.fields = .finite c.mid := by
  rw [midValue, c.minValue_eq, c.maxValue_eq]
  rfl

theorem namedRow_eq : namedRow (.obj c.fields) = .ok (.str c.name, c.fields) := by
  simp [namedRow, Json.getItem, c.named, Json.key, bind, Except.bind, pure, Except.pure]

theorem eqStr_paramName (name : String) :
    (Json.field c.fields "paramName").eqStr name = decide (c.name = name) := by
  rw [Json.field_of_lookup c.named, Json.eqStr, Bool.eq_iff_iff]
  simp

end Constraint

/-- The rows in the dictionary have bounds that are numbers. -/
def Constraints.Rational (constraints : Constraints) : Prop :=
  ∀ key fields, constraints key = some fields → ∃ c : Constraint, c.fields = fields

/-- The safety windows that may be widened. -/
def windows : List Window := [velWindow, timeWindow, degreeWindow]

/-- The values of a step that may be changed to fit them. -/
def stepKeys : List String := ["ref_vel", "ref_time", "ref_degree"]

/-- A payload with numbers in its windows and in its steps. -/
structure RationalPayload extends Payload where
  detail_numbers : ∀ w ∈ windows, HasNumbers detailParams w.keys
  step_numbers : ∀ step ∈ stepParams, HasNumbers step stepKeys

/-! ## Windows -/

/-- The window contains the range from `a` to `b`, and its target. -/
structure Covers (d : List (String × Json)) (w : Window) (a b : ℚ) : Prop where
  numbers : HasNumbers d w.keys
  min_le : number d w.min ≤ a
  le_max : b ≤ number d w.max
  min_le_target : number d w.min ≤ number d w.target
  target_le_max : number d w.target ≤ number d w.max

theorem Covers.congr {d d' : List (String × Json)} {w : Window} {a b : ℚ} (h : Covers d w a b)
    (hsame : ∀ key ∈ w.keys, d'.lookup key = d.lookup key) : Covers d' w a b := by
  have hmin := number_congr (hsame w.min (by simp [Window.keys]))
  have hmax := number_congr (hsame w.max (by simp [Window.keys]))
  have htarget := number_congr (hsame w.target (by simp [Window.keys]))
  refine ⟨h.numbers.congr hsame, ?_, ?_, ?_, ?_⟩
  · rw [hmin]
    exact h.min_le
  · rw [hmax]
    exact h.le_max
  · rw [hmin, htarget]
    exact h.min_le_target
  · rw [htarget, hmax]
    exact h.target_le_max

/-- The bounds and the target of a window. -/
def windowItems (w : Window) (lo hi target : ℚ) : List (String × Json) :=
  [(w.min, .num lo), (w.max, .num hi), (w.target, .num target)]

/-- `q`, or the bound that it exceeds. -/
def clamp (lo hi q : ℚ) : ℚ := if q < lo then lo else if hi < q then hi else q

theorem le_clamp {lo hi : ℚ} (h : lo ≤ hi) (q : ℚ) : lo ≤ clamp lo hi q := by
  rw [clamp]
  split_ifs <;> linarith

theorem clamp_le {lo hi : ℚ} (h : lo ≤ hi) (q : ℚ) : clamp lo hi q ≤ hi := by
  rw [clamp]
  split_ifs <;> linarith

theorem asFloat_field {d : List (String × Json)} {key : String}
    (h : d.lookup key = some (.num (number d key))) :
    asFloat (Json.field d key) = .finite (number d key) := by
  rw [Json.field_of_lookup h]
  rfl

/-- What `_widen` makes of a window with numbers. -/
theorem widen_eq {constraints : Constraints} {name : String} {w : Window}
    {d : List (String × Json)} (h : HasNumbers d w.keys) {c : Constraint}
    (hc : constraints (.str name) = some c.fields) :
    let lo := min (number d w.min) c.min
    let hi := max (number d w.max) c.max
    widen constraints name w d =
      Json.update d (windowItems w lo hi (clamp lo hi (number d w.target))) := by
  intro lo hi
  have hmin := asFloat_field (h w.min (by simp [Window.keys]))
  have hmax := asFloat_field (h w.max (by simp [Window.keys]))
  let d₁ := Json.assign w.max (.num hi) (Json.assign w.min (.num lo) d)
  have hlookup : d₁.lookup w.target = some (.num (number d w.target)) := by
    have hne := w.distinct
    simp only [List.nodup_cons, List.mem_cons, List.not_mem_nil, or_false, not_or] at hne
    rw [Json.lookup_assign_of_ne _ _ (Ne.symm hne.2.1),
      Json.lookup_assign_of_ne _ _ (Ne.symm hne.1.2)]
    exact h w.target (by simp [Window.keys])
  have htarget : asFloat (Json.field d₁ w.target) = .finite (number d w.target) := by
    rw [Json.field_of_lookup hlookup]
    rfl
  have hcode : widen constraints name w d =
      if hi < number d w.target then Json.assign w.target (.num hi)
        (if number d w.target < lo then Json.assign w.target (.num lo) d₁ else d₁)
      else if number d w.target < lo then Json.assign w.target (.num lo) d₁ else d₁ := by
    simp only [widen, hc, hmin, hmax, c.minValue_eq, c.maxValue_eq, PyFloat.min_finite,
      PyFloat.max_finite, PyFloat.toJson_finite]
    simp only [d₁, lo, hi] at htarget
    simp only [htarget, PyFloat.lt_finite, decide_eq_true_eq, d₁, lo, hi]
  have hlohi : lo ≤ hi := ((min_le_right _ _).trans c.min_le_max).trans (le_max_right _ _)
  have hitems : Json.update d (windowItems w lo hi (clamp lo hi (number d w.target))) =
      Json.assign w.target (.num (clamp lo hi (number d w.target))) d₁ := rfl
  rw [hcode, hitems, clamp]
  by_cases hlow : number d w.target < lo
  · rw [if_neg (not_lt.mpr (hlow.le.trans hlohi)), if_pos hlow, if_pos hlow]
  · rw [if_neg hlow, if_neg hlow]
    by_cases hhigh : hi < number d w.target
    · rw [if_pos hhigh, if_pos hhigh]
    · rw [if_neg hhigh, if_neg hhigh, Json.assign_of_lookup hlookup]

/-- A window after an update with its items. -/
theorem number_update_items {d : List (String × Json)} (w : Window) (lo hi target : ℚ) :
    HasNumbers (Json.update d (windowItems w lo hi target)) w.keys ∧
      number (Json.update d (windowItems w lo hi target)) w.min = lo ∧
      number (Json.update d (windowItems w lo hi target)) w.max = hi ∧
      number (Json.update d (windowItems w lo hi target)) w.target = target := by
  have hlookup : ∀ p ∈ windowItems w lo hi target,
      (Json.update d (windowItems w lo hi target)).lookup p.1 = some p.2 :=
    fun p hp => Json.lookup_update_of_mem hp w.distinct d
  have hmin := hlookup (w.min, .num lo) (by simp [windowItems])
  have hmax := hlookup (w.max, .num hi) (by simp [windowItems])
  have htarget := hlookup (w.target, .num target) (by simp [windowItems])
  refine ⟨fun key hkey => ?_, number_of_lookup hmin, number_of_lookup hmax,
    number_of_lookup htarget⟩
  simp only [Window.keys, List.mem_cons, List.not_mem_nil, or_false] at hkey
  rcases hkey with rfl | rfl | rfl
  · exact lookup_number hmin
  · exact lookup_number hmax
  · exact lookup_number htarget

section Widen

variable {constraints : Constraints} {name : String} {w : Window} {d : List (String × Json)}

/-- `_widen` touches nothing but its window. -/
theorem lookup_widen {key : String} (hkey : key ∉ w.keys) (h : HasNumbers d w.keys)
    (hrow : constraints.Rational) :
    (widen constraints name w d).lookup key = d.lookup key := by
  cases hc : constraints (.str name) with
  | none => rw [widen, hc]
  | some fields =>
    obtain ⟨c, rfl⟩ := hrow _ fields hc
    rw [widen_eq h hc]
    exact Json.lookup_update_of_notMem hkey d

/-- A window is widened until it contains the range of its constraint. -/
theorem covers_widen (h : HasNumbers d w.keys) {c : Constraint}
    (hc : constraints (.str name) = some c.fields) :
    Covers (widen constraints name w d) w c.min c.max := by
  rw [widen_eq h hc]
  obtain ⟨hnumbers, hmin, hmax, htarget⟩ := number_update_items (d := d) w
    (min (number d w.min) c.min) (max (number d w.max) c.max)
    (clamp (min (number d w.min) c.min) (max (number d w.max) c.max) (number d w.target))
  have hlohi : min (number d w.min) c.min ≤ max (number d w.max) c.max :=
    ((min_le_right _ _).trans c.min_le_max).trans (le_max_right _ _)
  refine ⟨hnumbers, ?_, ?_, ?_, ?_⟩
  · rw [hmin]
    exact min_le_right _ _
  · rw [hmax]
    exact le_max_right _ _
  · rw [hmin, htarget]
    exact le_clamp hlohi _
  · rw [htarget, hmax]
    exact clamp_le hlohi _

/-- What the window contains it still contains when it is widened again. -/
theorem Covers.widen {a b : ℚ} (h : Covers d w a b)
    (hrow : constraints.Rational) :
    Covers (widen constraints name w d) w a b := by
  cases hc : constraints (.str name) with
  | none => rwa [MachineType.widen, hc]
  | some fields =>
    obtain ⟨c, rfl⟩ := hrow _ fields hc
    have hcovers := covers_widen h.numbers hc
    rw [widen_eq h.numbers hc] at hcovers ⊢
    obtain ⟨-, hmin, hmax, -⟩ := number_update_items (d := d) w
      (min (number d w.min) c.min) (max (number d w.max) c.max)
      (clamp (min (number d w.min) c.min) (max (number d w.max) c.max) (number d w.target))
    refine ⟨hcovers.numbers, ?_, ?_, hcovers.min_le_target, hcovers.target_le_max⟩
    · rw [hmin]
      exact (min_le_left _ _).trans h.min_le
    · rw [hmax]
      exact h.le_max.trans (le_max_left _ _)

/-- A window that contains the range is left alone. -/
theorem widen_of_covers {c : Constraint} (hc : constraints (.str name) = some c.fields)
    (h : Covers d w c.min c.max) : MachineType.widen constraints name w d = d := by
  rw [widen_eq h.numbers hc, min_eq_left h.min_le, max_eq_left h.le_max, clamp,
    if_neg (not_lt.mpr h.min_le_target), if_neg (not_lt.mpr h.target_le_max)]
  exact Json.update_of_lookup (by
    simp only [windowItems, List.forall_mem_cons]
    exact ⟨h.numbers _ (by simp [Window.keys]), h.numbers _ (by simp [Window.keys]),
      h.numbers _ (by simp [Window.keys]), nofun⟩)

end Widen

/-- Two windows are the same or have no key in common. -/
theorem windows_disjoint : ∀ w ∈ windows, ∀ w' ∈ windows,
    w = w' ∨ ∀ key ∈ w.keys, key ∉ w'.keys := by
  decide

section Widenings

variable {constraints : Constraints}

/-- The windows keep their numbers. -/
theorem hasNumbers_widen {d : List (String × Json)} {name : String} {w w' : Window}
    (hw : w ∈ windows) (hw' : w' ∈ windows) (h : ∀ w ∈ windows, HasNumbers d w.keys)
    (hrow : constraints.Rational) :
    HasNumbers (widen constraints name w' d) w.keys := by
  rcases windows_disjoint w hw w' hw' with rfl | hdisjoint
  · cases hc : constraints (.str name) with
    | none =>
      rw [widen, hc]
      exact h w hw
    | some fields =>
      obtain ⟨c, rfl⟩ := hrow _ _ hc
      exact (covers_widen (h w hw) hc).numbers
  · exact (h w hw).congr fun key hkey =>
      lookup_widen (hdisjoint key hkey) (h w' hw') hrow

/-- The windows keep what they contain. -/
theorem Covers.widen_any {d : List (String × Json)} {name : String} {w w' : Window} {a b : ℚ}
    (hcovers : Covers d w a b) (hw : w ∈ windows) (hw' : w' ∈ windows)
    (h : ∀ w ∈ windows, HasNumbers d w.keys)
    (hrow : constraints.Rational) :
    Covers (MachineType.widen constraints name w' d) w a b := by
  rcases windows_disjoint w hw w' hw' with rfl | hdisjoint
  · exact hcovers.widen hrow
  · exact hcovers.congr fun key hkey => lookup_widen (hdisjoint key hkey) (h w' hw') hrow

/-- After the calls of `_widen`, each window contains the ranges of its constraints. -/
theorem foldl_widen (calls : List (String × Window)) (hcalls : ∀ p ∈ calls, p.2 ∈ windows)
    (hrow : constraints.Rational)
    {d : List (String × Json)} (h : ∀ w ∈ windows, HasNumbers d w.keys) :
    (∀ w ∈ windows, ∀ a b, Covers d w a b →
        Covers (calls.foldl (fun d p => widen constraints p.1 p.2 d) d) w a b) ∧
      (∀ w ∈ windows, HasNumbers (calls.foldl (fun d p => widen constraints p.1 p.2 d) d) w.keys) ∧
      ∀ p ∈ calls, ∀ c : Constraint, constraints (.str p.1) = some c.fields →
        Covers (calls.foldl (fun d p => widen constraints p.1 p.2 d) d) p.2 c.min c.max := by
  induction calls generalizing d with
  | nil => exact ⟨fun w _ a b hcovers => hcovers, h, nofun⟩
  | cons p calls ih =>
    obtain ⟨hp, hcalls⟩ := List.forall_mem_cons.mp hcalls
    have hnext : ∀ w ∈ windows, HasNumbers (widen constraints p.1 p.2 d) w.keys :=
      fun w hw => hasNumbers_widen hw hp h hrow
    obtain ⟨hkeep, hnumbers, hnew⟩ := ih hcalls hnext
    refine ⟨fun w hw a b hcovers => ?_, hnumbers, fun q hq c hc => ?_⟩
    · exact hkeep w hw a b (hcovers.widen_any hw hp h hrow)
    · rcases List.mem_cons.mp hq with rfl | hq
      · exact hkeep q.2 hp _ _ (covers_widen (h q.2 hp) hc)
      · exact hnew q hq c hc

/-- Where the windows contain the ranges already, the calls change nothing. -/
theorem foldl_widen_of_covers (calls : List (String × Window))
    (hrow : constraints.Rational)
    {d : List (String × Json)} (h : ∀ p ∈ calls, ∀ c : Constraint,
      constraints (.str p.1) = some c.fields → Covers d p.2 c.min c.max) :
    calls.foldl (fun d p => widen constraints p.1 p.2 d) d = d := by
  induction calls with
  | nil => rfl
  | cons p calls ih =>
    obtain ⟨hp, hcalls⟩ := List.forall_mem_cons.mp h
    have hsame : widen constraints p.1 p.2 d = d := by
      cases hc : constraints (.str p.1) with
      | none => rw [widen, hc]
      | some fields =>
        obtain ⟨c, rfl⟩ := hrow _ _ hc
        exact widen_of_covers hc (hp c hc)
    rw [List.foldl_cons, hsame]
    exact ih hcalls

end Widenings

/-! ## Steps -/

/-- The value of the step lies in the window. -/
structure Within (d : List (String × Json)) (w : Window) (key : String)
    (step : List (String × Json)) : Prop where
  lookup : step.lookup key = some (.num (number step key))
  min_le : number d w.min ≤ number step key
  le_max : number step key ≤ number d w.max

theorem Within.congr {d step step' : List (String × Json)} {w : Window} {key : String}
    (h : Within d w key step) (hsame : step'.lookup key = step.lookup key) :
    Within d w key step' := by
  have hnumber := number_congr hsame
  refine ⟨?_, ?_, ?_⟩
  · rw [hsame, hnumber]
    exact h.lookup
  · rw [hnumber]
    exact h.min_le
  · rw [hnumber]
    exact h.le_max

section Fit

variable {d step : List (String × Json)} {w : Window} {key : String}

theorem within_assign {q : ℚ} (hmin : number d w.min ≤ q) (hmax : q ≤ number d w.max) :
    Within d w key (Json.assign key (.num q) step) := by
  have h := Json.lookup_assign_self key (.num q) step
  refine ⟨lookup_number h, ?_, ?_⟩
  · rwa [number_of_lookup h]
  · rwa [number_of_lookup h]

/-- What is compared with the window. -/
theorem fit_eq (h : HasNumbers d w.keys) {below mid : ℚ}
    (hstep : step.lookup key = some (.num (number step key))) :
    fit d w key (.finite below) (.finite mid) step =
      let step :=
        if number step key < number d w.min then Json.assign key (.num below) step else step
      .ok (if number d w.max < number step key then Json.assign key (.num mid) step else step) := by
  have hmin := asFloat_field (h w.min (by simp [Window.keys]))
  have hmax := asFloat_field (h w.max (by simp [Window.keys]))
  have hbelow := Json.lookup_assign_self key (.num below) step
  rw [fit, Json.setDefault, if_pos (by rw [hstep]; rfl), hmin, hmax, Json.field_of_lookup hstep,
    Json.ltFloat_num]
  by_cases hlow : number step key < number d w.min
  · simp [hlow, Json.field_of_lookup hbelow, number_of_lookup hbelow, bind, Except.bind, pure,
      Except.pure]
  · simp [hlow, Json.field_of_lookup hstep, bind, Except.bind, pure, Except.pure]

/-- A value is brought into the window. -/
theorem fit_within (h : HasNumbers d w.keys) {below mid : ℚ}
    (hbelow : number d w.min ≤ below ∧ below ≤ number d w.max)
    (hmid : number d w.min ≤ mid ∧ mid ≤ number d w.max)
    (hstep : step.lookup key = some (.num (number step key))) :
    ∃ step', fit d w key (.finite below) (.finite mid) step = .ok step' ∧ Within d w key step' ∧
      ∀ k, k ≠ key → step'.lookup k = step.lookup k := by
  rw [fit_eq h hstep]
  by_cases hlow : number step key < number d w.min
  · have hassign := Json.lookup_assign_self key (.num below) step
    simp only [if_pos hlow, number_of_lookup hassign, if_neg (not_lt.mpr hbelow.2)]
    exact ⟨_, rfl, within_assign hbelow.1 hbelow.2, fun k hk => Json.lookup_assign_of_ne _ _ hk⟩
  · simp only [if_neg hlow]
    by_cases hhigh : number d w.max < number step key
    · rw [if_pos hhigh]
      exact ⟨_, rfl, within_assign hmid.1 hmid.2, fun k hk => Json.lookup_assign_of_ne _ _ hk⟩
    · rw [if_neg hhigh]
      exact ⟨_, rfl, ⟨hstep, not_lt.mp hlow, not_lt.mp hhigh⟩, fun k _ => rfl⟩

/-- A value in the window is left alone. -/
theorem fit_of_within (h : HasNumbers d w.keys) (hstep : Within d w key step) (below mid : ℚ) :
    fit d w key (.finite below) (.finite mid) step = .ok step := by
  rw [fit_eq h hstep.lookup]
  simp only [if_neg (not_lt.mpr hstep.min_le), if_neg (not_lt.mpr hstep.le_max)]

end Fit

/-- What is true of a step when the values in `done` were brought into their windows. -/
structure Fitted (d : List (String × Json)) (torque : Option Constraint)
    (done : List (Window × String)) (step : List (String × Json)) : Prop where
  numbers : HasNumbers step stepKeys
  torque : ∀ c, torque = some c → step.lookup "ref_torque" = some (.num c.mid)
  within : ∀ p ∈ done, Within d p.1 p.2 step

section Loops

variable {d : List (String × Json)} {torque : Option Constraint} {done : List (Window × String)}
  {w : Window} {key : String} {c : Option Constraint} {below : List (String × Json) → PyFloat}

variable (key below) in
/-- One loop brings one more value of the steps into its window. -/
theorem fitSteps_fitted (hcovers : ∀ c', c = some c' → Covers d w c'.min c'.max)
    (hbelow : ∀ c', c = some c' → ∃ q, below c'.fields = .finite q ∧
      number d w.min ≤ q ∧ q ≤ number d w.max)
    (hkey : key ∈ stepKeys) (hnew : ∀ p ∈ done, p.2 ≠ key) {steps : List (List (String × Json))}
    (h : ∀ step ∈ steps, Fitted d torque done step) :
    ∃ steps', fitSteps (c.map Constraint.fields) d w key below steps = .ok steps' ∧
      steps'.length = steps.length ∧
      ∀ step ∈ steps', Fitted d torque ((c.map fun _ => (w, key)).toList ++ done) step := by
  cases c with
  | none => exact ⟨steps, rfl, rfl, h⟩
  | some c =>
    obtain ⟨q, hq, hmin, hmax⟩ := hbelow c rfl
    have hc := hcovers c rfl
    have hmid : number d w.min ≤ c.mid ∧ c.mid ≤ number d w.max :=
      ⟨hc.min_le.trans c.min_le_mid, c.mid_le_max.trans hc.le_max⟩
    refine exists_mapM_eq_ok fun step hstep => ?_
    have hfitted := h step hstep
    obtain ⟨step', hfit, hwithin, hsame⟩ :=
      fit_within hc.numbers ⟨hmin, hmax⟩ hmid (hfitted.numbers key hkey)
    rw [hq, c.midValue_eq]
    refine ⟨step', hfit, ⟨?_, ?_, ?_⟩⟩
    · intro k hk
      by_cases hkk : k = key
      · subst hkk
        exact hwithin.lookup
      · rw [number_congr (hsame k hkk), hsame k hkk]
        exact hfitted.numbers k hk
    · intro c' hc'
      rw [hsame "ref_torque" (by rintro rfl; exact absurd hkey (by decide))]
      exact hfitted.torque c' hc'
    · refine List.forall_mem_cons.mpr ⟨hwithin, fun p hp => ?_⟩
      exact (hfitted.within p hp).congr (hsame p.2 (hnew p hp))

/-- Steps whose value lies in the window are left alone. -/
theorem fitSteps_of_fitted (hcovers : ∀ c', c = some c' → Covers d w c'.min c'.max)
    (hbelow : ∀ c', c = some c' → ∃ q, below c'.fields = .finite q)
    {steps : List (List (String × Json))} (h : c.isSome → ∀ step ∈ steps, Within d w key step) :
    fitSteps (c.map Constraint.fields) d w key below steps = .ok steps := by
  cases c with
  | none => rfl
  | some c =>
    obtain ⟨q, hq⟩ := hbelow c rfl
    have hrun := mapM_eq_ok_map (f := fit d w key (below c.fields) (midValue c.fields)) (g := id)
      fun step hstep => by
        rw [hq, c.midValue_eq]
        exact fit_of_within (hcovers c rfl).numbers (h rfl step hstep) _ _
    rwa [List.map_id] at hrun

end Loops

/-! ## The reply -/

/-- The names of which there is at most one row. -/
def singleNames : List String := ["ref_vel", "time_target", "time", "ref_degree"]

/-- A reply whose rows have numbers for bounds. -/
structure ConstraintsReply where
  fields : List (String × Json)
  rows : List Constraint
  constraints_eq :
    Json.field fields "constraints" (.arr []) = .arr (rows.map fun c => .obj c.fields)
  single : ∀ name ∈ singleNames, (rows.filter fun c => c.name = name).length ≤ 1

namespace ConstraintsReply

variable (r : ConstraintsReply)

/-- The dictionary `constraints`. -/
def constraints : Constraints :=
  Table.fill Prod.fst (fun c _ => some c.2) (r.rows.map fun c => (.str c.name, c.fields))

/-- The last row of that name. -/
def row (name : String) : Option Constraint := (r.rows.filter fun c => c.name = name).getLast?

/-- The torque row. -/
def torque : Option Constraint := r.rows.find? fun c => c.name = "torque" && c.unitCode.isSome

theorem constraints_str (name : String) :
    r.constraints (.str name) = (r.row name).map Constraint.fields := by
  rw [constraints, Table.fill_last, List.filter_map, List.getLast?_map, Option.map_map, row]
  simp [Function.comp_def]

theorem rational : r.constraints.Rational := by
  intro key fields h
  rw [constraints, Table.fill_last, List.filter_map, List.getLast?_map, Option.map_map] at h
  obtain ⟨c, -, hc⟩ := Option.map_eq_some_iff.mp h
  exact ⟨c, hc⟩

theorem row_of_mem {c : Constraint} (hc : c ∈ r.rows) (hname : c.name ∈ singleNames) :
    r.row c.name = some c := by
  have hmem : c ∈ r.rows.filter fun c' => c'.name = c.name := List.mem_filter.mpr ⟨hc, by simp⟩
  obtain ⟨x, hx⟩ := List.length_eq_one_iff.mp
    (Nat.le_antisymm (r.single c.name hname) (List.length_pos_of_mem hmem))
  rw [row, hx]
  rw [hx] at hmem
  rw [List.mem_singleton.mp hmem]
  rfl

theorem rowsOf_eq (name : String) :
    rowsOf name (r.rows.map Constraint.fields) =
      (r.rows.filter fun c => c.name = name).map Constraint.fields := by
  rw [rowsOf, List.filter_map]
  refine congrArg _ (List.filter_congr fun c _ => ?_)
  exact c.eqStr_paramName name

theorem torqueRow_eq :
    torqueRow (r.rows.map Constraint.fields) = r.torque.map Constraint.fields := by
  rw [torqueRow, rowsOf_eq, List.find?_map, torque, List.find?_filter]
  simp [Constraint.unitCode]

/-! ## What the function does with the reply -/

/-- What `d` is assigned for the torque. -/
def torqueItems : List (String × Json) :=
  ((r.torque.map Constraint.fields).map MachineType.torqueItems).getD []

/-- What `d` is assigned for the clamp. -/
def clampItems : List (String × Json) :=
  let rows := r.rows.map Constraint.fields
  let tc := r.torque.map Constraint.fields
  MachineType.clampItems (clampRow r.constraints rows tc "clamp_torque_min")
    (clampRow r.constraints rows tc "clamp_torque_max")

/-- `detail_params` in the end. -/
def detail (d : List (String × Json)) : List (String × Json) :=
  Json.update (Json.update
    (widenings.foldl (fun d p => widen r.constraints p.1 p.2 d) d) r.torqueItems) r.clampItems

/-- The steps with their torque. -/
def torqueSteps (steps : List (List (String × Json))) : List (List (String × Json)) :=
  match r.torque with
  | none => steps
  | some c => steps.map (Json.assign "ref_torque" (.num c.mid))

theorem run_eq (p : Payload) :
    widenSafetyForConstraints r.fields p = (do
      let d := r.detail p.detailParams
      let steps ← fitVel ((r.row "ref_vel").map Constraint.fields) d (r.torqueSteps p.stepParams)
      let steps ← fitTime (((r.row "time").or (r.row "time_target")).map Constraint.fields) d steps
      let steps ← fitDegree ((r.row "ref_degree").map Constraint.fields) d steps
      return { detailParams := d, stepParams := steps }) := by
  have hnamed : (r.rows.map fun c => Json.obj c.fields).mapM namedRow =
      .ok (r.rows.map fun c => (.str c.name, c.fields)) := by
    rw [List.mapM_map]
    exact mapM_eq_ok_map fun c _ => c.namedRow_eq
  have hrows : (r.rows.map fun c => (Json.Key.str c.name, c.fields)).map Prod.snd =
      r.rows.map Constraint.fields := by
    rw [List.map_map]
    rfl
  have hsteps : (match r.torque.map Constraint.fields with
      | none => p.stepParams
      | some tc => p.stepParams.map (Json.assign "ref_torque" (midValue tc).toJson)) =
        r.torqueSteps p.stepParams := by
    rw [torqueSteps]
    cases r.torque with
    | none => rfl
    | some c => simp only [Option.map_some, c.midValue_eq, PyFloat.toJson_finite]
  have hconstraints : Table.fill Prod.fst (fun c _ => some c.2)
      (r.rows.map fun c => (Json.Key.str c.name, c.fields)) = r.constraints := rfl
  simp only [widenSafetyForConstraints, r.constraints_eq, iterate, bind, Except.bind, hnamed, hrows,
    r.torqueRow_eq, hsteps, hconstraints, constraints_str, ← Option.map_or]
  rfl

theorem torqueItems_keys : (r.torqueItems.map Prod.fst).Sublist torqueKeys := by
  rw [torqueItems]
  cases r.torque with
  | none => exact List.nil_sublist _
  | some c => exact MachineType.torqueItems_keys c.fields

theorem clampItems_keys : (r.clampItems.map Prod.fst).Sublist clampKeys :=
  MachineType.clampItems_keys ..

/-- The torque is stored. -/
theorem lookup_torqueItems {q : String × Json} (hq : q ∈ r.torqueItems) (d : List (String × Json)) :
    (r.detail d).lookup q.1 = some q.2 := by
  have hkey : q.1 ∈ torqueKeys := r.torqueItems_keys.subset (List.mem_map_of_mem hq)
  have hnot : q.1 ∉ r.clampItems.map Prod.fst := fun h =>
    absurd (r.clampItems_keys.subset h) ((by decide : ∀ k ∈ torqueKeys, k ∉ clampKeys) q.1 hkey)
  rw [detail, Json.lookup_update_of_notMem hnot]
  exact Json.lookup_update_of_mem hq (r.torqueItems_keys.nodup (by decide)) _

theorem lookup_clampItems {q : String × Json} (hq : q ∈ r.clampItems) (d : List (String × Json)) :
    (r.detail d).lookup q.1 = some q.2 :=
  Json.lookup_update_of_mem hq (r.clampItems_keys.nodup (by decide)) _

/-- The windows are not touched behind the calls of `_widen`. -/
theorem lookup_detail {key : String} {w : Window} (hw : w ∈ windows) (hkey : key ∈ w.keys)
    (d : List (String × Json)) : (r.detail d).lookup key =
      (widenings.foldl (fun d p => widen r.constraints p.1 p.2 d) d).lookup key := by
  have hdisjoint : ∀ w ∈ windows, ∀ key ∈ w.keys, key ∉ torqueKeys ∧ key ∉ clampKeys := by decide
  obtain ⟨htorque, hclamp⟩ := hdisjoint w hw key hkey
  rw [detail, Json.lookup_update_of_notMem fun h => hclamp (r.clampItems_keys.subset h),
    Json.lookup_update_of_notMem fun h => htorque (r.torqueItems_keys.subset h)]

/-- The windows contain the ranges of their constraints. -/
def Covered (d : List (String × Json)) : Prop :=
  ∀ q ∈ widenings, ∀ c : Constraint, r.constraints (.str q.1) = some c.fields →
    Covers d q.2 c.min c.max

theorem covered_detail {d : List (String × Json)} (h : ∀ w ∈ windows, HasNumbers d w.keys) :
    r.Covered (r.detail d) := by
  intro q hq c hc
  have hwidenings : ∀ q ∈ widenings, q.2 ∈ windows := by decide
  obtain ⟨-, -, hcovers⟩ := foldl_widen widenings hwidenings r.rational h
  exact (hcovers q hq c hc).congr fun key hkey => r.lookup_detail (hwidenings q hq) hkey d

/-- Doing it again changes nothing. -/
theorem detail_detail {d : List (String × Json)} (h : ∀ w ∈ windows, HasNumbers d w.keys) :
    r.detail (r.detail d) = r.detail d := by
  have hwiden : widenings.foldl (fun d p => widen r.constraints p.1 p.2 d) (r.detail d) =
      r.detail d :=
    foldl_widen_of_covers widenings r.rational (r.covered_detail h)
  rw [detail, hwiden, Json.update_of_lookup fun q hq => r.lookup_torqueItems hq d,
    Json.update_of_lookup fun q hq => r.lookup_clampItems hq d]

/-- The steps with their torque still have numbers. -/
theorem torqueSteps_fitted {steps : List (List (String × Json))}
    (h : ∀ step ∈ steps, HasNumbers step stepKeys) (d : List (String × Json)) :
    (r.torqueSteps steps).length = steps.length ∧
      ∀ step ∈ r.torqueSteps steps, Fitted d r.torque [] step := by
  rw [torqueSteps]
  cases r.torque with
  | none => exact ⟨rfl, fun step hstep => ⟨h step hstep, nofun, nofun⟩⟩
  | some c =>
    refine ⟨List.length_map _, fun step hstep => ?_⟩
    obtain ⟨step₀, hstep₀, rfl⟩ := List.mem_map.mp hstep
    refine ⟨(h step₀ hstep₀).congr fun key hkey => ?_, ?_, nofun⟩
    · exact Json.lookup_assign_of_ne _ _ (by rintro rfl; exact absurd hkey (by decide))
    · rintro c' hc'
      rw [← Option.some.inj hc']
      exact Json.lookup_assign_self ..

theorem torqueSteps_of_fitted {d : List (String × Json)} {done : List (Window × String)}
    {steps : List (List (String × Json))} (h : ∀ step ∈ steps, Fitted d r.torque done step) :
    r.torqueSteps steps = steps := by
  rw [torqueSteps]
  cases hc : r.torque with
  | none => rfl
  | some c =>
    have hsame : ∀ step ∈ steps, Json.assign "ref_torque" (.num c.mid) step = id step :=
      fun step hstep => Json.assign_of_lookup ((h step hstep).torque c hc)
    exact (List.map_congr_left hsame).trans (List.map_id _)

/-- The values that are brought into their windows. -/
def fitted : List (Window × String) :=
  ((r.row "ref_degree").map fun _ => (degreeWindow, "ref_degree")).toList ++
    ((((r.row "time").or (r.row "time_target")).map fun _ => (timeWindow, "ref_time")).toList ++
      (((r.row "ref_vel").map fun _ => (velWindow, "ref_vel")).toList ++ []))

section Run

variable {r} {d : List (String × Json)}

theorem Covered.row (h : r.Covered d) {name : String} {w : Window} (hq : (name, w) ∈ widenings)
    {c : Constraint} (hc : r.row name = some c) : Covers d w c.min c.max :=
  h _ hq c (by rw [constraints_str, hc]; rfl)

/-- The time is fitted to the row `"time"`, or else to the row `"time_target"`. -/
theorem Covered.time (h : r.Covered d) {c : Constraint}
    (hc : (r.row "time").or (r.row "time_target") = some c) : Covers d timeWindow c.min c.max := by
  rcases Option.or_eq_some_iff.mp hc with hc | ⟨-, hc⟩
  · exact h.row (by decide) hc
  · exact h.row (by decide) hc

/-- The middle of the range lies in the window. -/
theorem exists_midValue {w : Window} {c : Constraint} (h : Covers d w c.min c.max) :
    ∃ q, midValue c.fields = .finite q ∧ number d w.min ≤ q ∧ q ≤ number d w.max :=
  ⟨c.mid, c.midValue_eq, h.min_le.trans c.min_le_mid, c.mid_le_max.trans h.le_max⟩

/-- The minimum of the window lies in it. -/
theorem exists_velMin {c : Constraint} (h : Covers d velWindow c.min c.max) :
    ∃ q, asFloat (Json.field d "vel_min") = .finite q ∧ number d velWindow.min ≤ q ∧
      q ≤ number d velWindow.max :=
  ⟨_, asFloat_field (h.numbers "vel_min" (by decide)), le_rfl,
    (h.min_le.trans c.min_le_max).trans h.le_max⟩

/-- The loops bring the values of the steps into their windows. -/
theorem exists_loops (h : r.Covered d) {steps : List (List (String × Json))}
    (hsteps : ∀ step ∈ steps, Fitted d r.torque [] step) : ∃ steps₁ steps₂ steps₃,
      fitVel ((r.row "ref_vel").map Constraint.fields) d steps = .ok steps₁ ∧
      fitTime (((r.row "time").or (r.row "time_target")).map Constraint.fields) d steps₁ =
        .ok steps₂ ∧
      fitDegree ((r.row "ref_degree").map Constraint.fields) d steps₂ = .ok steps₃ ∧
      steps₃.length = steps.length ∧ ∀ step ∈ steps₃, Fitted d r.torque r.fitted step := by
  have hvel : ∀ c, r.row "ref_vel" = some c → Covers d velWindow c.min c.max :=
    fun c hc => h.row (by decide) hc
  have hdegree : ∀ c, r.row "ref_degree" = some c → Covers d degreeWindow c.min c.max :=
    fun c hc => h.row (by decide) hc
  obtain ⟨steps₁, hrun₁, hlength₁, h₁⟩ := fitSteps_fitted "ref_vel"
    (fun _ => asFloat (Json.field d "vel_min")) hvel (fun c hc => exists_velMin (hvel c hc))
    (by decide) (by simp) hsteps
  obtain ⟨steps₂, hrun₂, hlength₂, h₂⟩ := fitSteps_fitted "ref_time" midValue
    (fun c hc => h.time hc) (fun c hc => exists_midValue (h.time hc)) (by decide)
    (by cases r.row "ref_vel" <;> simp) h₁
  obtain ⟨steps₃, hrun₃, hlength₃, h₃⟩ := fitSteps_fitted "ref_degree" midValue hdegree
    (fun c hc => exists_midValue (hdegree c hc)) (by decide)
    (by cases (r.row "time").or (r.row "time_target") <;> cases r.row "ref_vel" <;> simp) h₂
  exact ⟨steps₁, steps₂, steps₃, hrun₁, hrun₂, hrun₃,
    (hlength₃.trans hlength₂).trans hlength₁, h₃⟩

/-- Steps that are fitted are left alone. -/
theorem run_of_fitted (h : r.Covered d) (hd : r.detail d = d)
    {steps : List (List (String × Json))}
    (hsteps : ∀ step ∈ steps, Fitted d r.torque r.fitted step) :
    widenSafetyForConstraints r.fields ⟨d, steps⟩ = .ok ⟨d, steps⟩ := by
  have hvel : fitVel ((r.row "ref_vel").map Constraint.fields) d steps = .ok steps := by
    refine fitSteps_of_fitted (fun c hc => h.row (by decide) hc) (fun c hc => ?_) ?_
    · obtain ⟨q, hq, -⟩ := exists_velMin (h.row (by decide) hc)
      exact ⟨q, hq⟩
    · intro hsome step hstep
      refine (hsteps step hstep).within (velWindow, "ref_vel") ?_
      obtain ⟨c, hc⟩ := Option.isSome_iff_exists.mp hsome
      simp [fitted, hc]
  have htime : fitTime (((r.row "time").or (r.row "time_target")).map Constraint.fields) d steps =
      .ok steps := by
    refine fitSteps_of_fitted (fun c hc => h.time hc) (fun c _ => ⟨_, c.midValue_eq⟩) ?_
    intro hsome step hstep
    refine (hsteps step hstep).within (timeWindow, "ref_time") ?_
    obtain ⟨c, hc⟩ := Option.isSome_iff_exists.mp hsome
    simp [fitted, hc]
  have hdegree : fitDegree ((r.row "ref_degree").map Constraint.fields) d steps = .ok steps := by
    refine fitSteps_of_fitted (fun c hc => h.row (by decide) hc)
      (fun c _ => ⟨_, c.midValue_eq⟩) ?_
    intro hsome step hstep
    refine (hsteps step hstep).within (degreeWindow, "ref_degree") ?_
    obtain ⟨c, hc⟩ := Option.isSome_iff_exists.mp hsome
    simp [fitted, hc]
  simp only [run_eq, hd, r.torqueSteps_of_fitted hsteps, hvel, htime, hdegree, bind, Except.bind]
  rfl

end Run

/-- The function returns, with fitted steps. -/
theorem exists_run (p : RationalPayload) : ∃ steps,
    widenSafetyForConstraints r.fields p.toPayload = .ok ⟨r.detail p.detailParams, steps⟩ ∧
      steps.length = p.stepParams.length ∧
      ∀ step ∈ steps, Fitted (r.detail p.detailParams) r.torque r.fitted step := by
  obtain ⟨hlength₀, hsteps₀⟩ := r.torqueSteps_fitted p.step_numbers (r.detail p.detailParams)
  obtain ⟨steps₁, steps₂, steps, hvel, htime, hdegree, hlength, hsteps⟩ :=
    exists_loops (r.covered_detail p.detail_numbers) hsteps₀
  refine ⟨steps, ?_, hlength.trans hlength₀, hsteps⟩
  simp only [r.run_eq, hvel, htime, hdegree, bind, Except.bind]
  rfl

end ConstraintsReply

/-! ## Compatible payloads -/

/-- A name of a constraint, the window in which its range must lie, and the value of a step that
must lie there, too. -/
def quantities : List (String × Window × String) :=
  [("ref_vel", velWindow, "ref_vel"), ("time_target", timeWindow, "ref_time"),
    ("time", timeWindow, "ref_time"), ("ref_degree", degreeWindow, "ref_degree")]

/-- The payload keeps the constraints: each window contains the range of its row, its target and the
values of all steps, and the torque is that of the first torque row whose unit has a code. -/
structure Compatible (r : ConstraintsReply) (p : Payload) : Prop where
  window : ∀ q ∈ quantities, ∀ c ∈ r.rows, c.name = q.1 →
    Covers p.detailParams q.2.1 c.min c.max ∧
      ∀ step ∈ p.stepParams, Within p.detailParams q.2.1 q.2.2 step
  torque : ∀ c code, r.torque = some c → c.unitCode = some code →
    p.detailParams.lookup "torque_unit" = some (.num code) ∧
      p.detailParams.lookup "torque_min" = some (.num c.min) ∧
      p.detailParams.lookup "torque_max" = some (.num c.max) ∧
      p.detailParams.lookup "torque_target" = some (.num c.mid) ∧
      ∀ step ∈ p.stepParams, step.lookup "ref_torque" = some (.num c.mid)

/-- What is assigned for the torque. -/
theorem Constraint.torqueItems_eq {c : Constraint} {code : ℕ} (h : c.unitCode = some code) :
    torqueItems c.fields = [("torque_unit", .num code), ("torque_target", .num c.mid),
      ("torque_min", .num c.min), ("torque_max", .num c.max)] := by
  rw [Constraint.unitCode] at h
  rw [torqueItems, h, c.midValue_eq, c.minValue_eq, c.maxValue_eq]
  rfl

/-- The values of a quantity with a row were brought into their window. -/
theorem ConstraintsReply.mem_fitted {r : ConstraintsReply} {q : String × Window × String}
    (hq : q ∈ quantities) {c : Constraint} (hc : r.row q.1 = some c) : q.2 ∈ r.fitted := by
  simp only [quantities, List.mem_cons, List.not_mem_nil, or_false] at hq
  rcases hq with rfl | rfl | rfl | rfl
  · simp [fitted, hc]
  · cases h : r.row "time" <;> simp [fitted, hc, h]
  · simp [fitted, hc]
  · simp [fitted, hc]

/-- **Widening makes a payload compatible, and is idempotent.**

The windows and the steps of the payload may lie anywhere before, also outside of all ranges, and
the rows may come in any order. The code raises nothing, and keeps the number of steps. -/
theorem widen_compatible (r : ConstraintsReply) (p : RationalPayload) : ∃ p',
    widenSafetyForConstraints r.fields p.toPayload = .ok p' ∧
      p'.stepParams.length = p.stepParams.length ∧ Compatible r p' ∧
      widenSafetyForConstraints r.fields p' = .ok p' := by
  have hcovered := r.covered_detail p.detail_numbers
  have hdetail := r.detail_detail p.detail_numbers
  obtain ⟨steps, hrun, hlength, hsteps⟩ := r.exists_run p
  refine ⟨⟨r.detail p.detailParams, steps⟩, hrun, hlength, ⟨?_, ?_⟩,
    ConstraintsReply.run_of_fitted hcovered hdetail hsteps⟩
  · intro q hq c hc hname
    have hquantities : ∀ q ∈ quantities, q.1 ∈ singleNames ∧ (q.1, q.2.1) ∈ widenings := by decide
    obtain ⟨hsingle, hwidening⟩ := hquantities q hq
    have hrow : r.row q.1 = some c := by
      rw [← hname]
      exact r.row_of_mem hc (hname ▸ hsingle)
    exact ⟨hcovered.row hwidening hrow, fun step hstep =>
      (hsteps step hstep).within q.2 (ConstraintsReply.mem_fitted hq hrow)⟩
  · intro c code hc hcode
    have hitems : r.torqueItems = [("torque_unit", .num code), ("torque_target", .num c.mid),
        ("torque_min", .num c.min), ("torque_max", .num c.max)] := by
      rw [ConstraintsReply.torqueItems, hc, ← c.torqueItems_eq hcode]
      rfl
    have hlookup := fun q hq => r.lookup_torqueItems (q := q) hq p.detailParams
    simp only [hitems, List.forall_mem_cons] at hlookup
    obtain ⟨hunit, htarget, hmin, hmax, -⟩ := hlookup
    exact ⟨hunit, hmin, hmax, htarget, fun step hstep => (hsteps step hstep).torque c hc⟩

end SasTests.MachineType
