import SasTests.ConstraintTorqueUnit

/-!
# The payloads of the constraint tests

A test of a constraint takes a payload of the factory, fits it to the constraints of the machine
type, stretches a safety window, and stores a value: one next to the range of the constraint, which
the backend must refuse, or one on its boundary, which it must accept.

`breaks_iff` says which constraints such a payload breaks: the one that is tested exactly if the
value lies outside its range, and any other one exactly if the value of the factory does. So a
payload is refused for the wrong reason, or refused instead of accepted, as soon as a range leaves
out a value of the factory. The torque is an exception, because fitting the payload puts it into the
middle of its range: a range for the torque is only broken by a test of the torque.

The proof follows a payload through its test. `Payload.Related` is what every step of it keeps: the
windows are in order, and the values of the steps lie in them. What the payload holds under each
constraint is read off at the end (`Slot.get`): what the test has stored, or else what the factory
and the fitting have put there.

What is assumed of a reply is in `Constraint` and `ConstraintsReply`: the bounds of a row are
numbers, the lower one is not above the upper one, and there is one row of a name; of the rows for
the torque the first one counts whose unit can be mapped. Floats are exact numbers here.
-/

namespace SasTests.MachineType

open Python Helpers
open Json (number HasNumbers number_congr number_of_lookup lookup_number)

/-! ## The code -/

/-- `max(1.0, abs(x) * 0.2)` -/
def outsideSpan (x : PyFloat) : PyFloat := (PyFloat.finite 1).max (x.abs.times ⟨0.2, by norm_num⟩)

/-- `_outside_max` -/
def outsideMax (maxValue : PyFloat) : PyFloat := maxValue.add (outsideSpan maxValue)

/-- `_outside_min` -/
def outsideMin (minValue : PyFloat) : PyFloat := minValue.sub (outsideSpan minValue)

/-- `d[key] = max(d[key], value)` -/
def raise (key : String) (value : PyFloat) (d : List (String × Json)) :
    Except PyError (List (String × Json)) := do
  let x ← (Json.obj d).getItem key
  return Json.assign key (if ← x.ltFloat value then value.toJson else x) d

/-- `d[key] = min(d[key], value)` -/
def lower (key : String) (value : PyFloat) (d : List (String × Json)) :
    Except PyError (List (String × Json)) := do
  let x ← (Json.obj d).getItem key
  return Json.assign key (if ← x.gtFloat value then value.toJson else x) d

/-- `steps[i][key] = value` for the values in turn. -/
def setSteps (key : String) : List PyFloat → List (List (String × Json)) →
    Except PyError (List (List (String × Json)))
  | [], steps => .ok steps
  | _ :: _, [] => .error .indexError
  | value :: values, step :: steps => do
    return Json.assign key value.toJson step :: (← setSteps key values steps)

/-- Where a test stores its values. -/
inductive Slot
  /-- under a key of the steps -/
  | step (key : String)
  /-- under a key of `detail_params` -/
  | detail (key : String)
  deriving DecidableEq

/-- What a test does to a payload of the factory that it has fitted. -/
structure Trial where
  /-- the `paramName` of the constraint -/
  name : String
  window : Window
  slot : Slot
  /-- what the lower bound of the window is lowered to -/
  low : Option PyFloat
  /-- what the upper bound of the window is raised to -/
  high : Option PyFloat
  /-- the values that are stored -/
  values : List PyFloat

/-- The values are stored. -/
def Slot.store (slot : Slot) (values : List PyFloat) (p : Payload) : Except PyError Payload :=
  match slot with
  | .step key => do return { p with stepParams := ← setSteps key values p.stepParams }
  | .detail key => .ok { p with
      detailParams := values.foldl (fun d v => Json.assign key v.toJson d) p.detailParams }

/-- The window is stretched and the values are stored. -/
def Trial.edit (t : Trial) (p : Payload) : Except PyError Payload := do
  let d ← t.low.elim (.ok p.detailParams) fun v => lower t.window.min v p.detailParams
  let d ← t.high.elim (.ok d) fun v => raise t.window.max v d
  t.slot.store t.values { p with detailParams := d }

/-- The payload that a test sends. -/
def Trial.payload (t : Trial) (resp : List (String × Json)) (p : Payload) :
    Except PyError Payload := do
  t.edit (← widenSafetyForConstraints resp p)

/-! ### The tests -/

section

variable (c : List (String × Json))

/-- `ref_vel` above its range: `test_reject_out_of_range_step_ref_vel` and
`test_reject_ref_vel_does_not_overwrite_existing_values` -/
def refVelAboveMax : Trial :=
  ⟨"ref_vel", velWindow, .step "ref_vel", none, some (outsideMax (maxValue c)),
    [outsideMax (maxValue c)]⟩

/-- `test_step_ref_vel_reject_below_min` -/
def refVelBelowMin : Trial :=
  ⟨"ref_vel", velWindow, .step "ref_vel", some (outsideMin (minValue c)), none,
    [outsideMin (minValue c)]⟩

/-- `test_step_ref_vel_accepts_boundary_values` -/
def refVelBoundary (value : PyFloat) : Trial :=
  ⟨"ref_vel", velWindow, .step "ref_vel", none, none, [value]⟩

/-- `test_multi_steps_any_out_of_range_step_should_reject_and_keep_data` -/
def multiStepsAboveMax : Trial :=
  ⟨"ref_vel", velWindow, .step "ref_vel", none, some (outsideMax (maxValue c)),
    [minValue c, outsideMax (maxValue c)]⟩

/-- `test_multi_steps_all_boundary_values_should_pass` -/
def multiStepsBoundary : Trial :=
  ⟨"ref_vel", velWindow, .step "ref_vel", none, none, [minValue c, maxValue c]⟩

/-- `time_target` above its range: `test_non_torque_constraint_null_safe_match_time_target` and
`test_reject_time_target_does_not_overwrite_existing_values` -/
def timeTargetAboveMax : Trial :=
  ⟨"time_target", timeWindow, .detail "time_target", none, some (outsideMax (maxValue c)),
    [outsideMax (maxValue c)]⟩

/-- `test_time_target_reject_below_min` -/
def timeTargetBelowMin : Trial :=
  ⟨"time_target", timeWindow, .detail "time_target", some (outsideMin (minValue c)), none,
    [outsideMin (minValue c)]⟩

/-- `test_time_target_accepts_boundary_values` -/
def timeTargetBoundary (value : PyFloat) : Trial :=
  ⟨"time_target", timeWindow, .detail "time_target", some value, some value, [value]⟩

/-- `ref_degree` above its range, in `test_step_ref_degree_constraint_boundaries_and_reject` -/
def refDegreeAboveMax : Trial :=
  ⟨"ref_degree", degreeWindow, .step "ref_degree", none, some (outsideMax (maxValue c)),
    [outsideMax (maxValue c)]⟩

/-- `ref_degree` on its boundary, in `test_step_ref_degree_constraint_boundaries_and_reject` -/
def refDegreeBoundary (value : PyFloat) : Trial :=
  ⟨"ref_degree", degreeWindow, .step "ref_degree", some value, some value, [value]⟩

/-- `ref_torque` above its range, in `test_step_ref_torque_constraint_boundaries_and_reject` -/
def refTorqueAboveMax : Trial :=
  ⟨"torque", torqueWindow, .step "ref_torque", none, some (outsideMax (maxValue c)),
    [outsideMax (maxValue c)]⟩

/-- `ref_torque` on its boundary, in `test_step_ref_torque_constraint_boundaries_and_reject` -/
def refTorqueBoundary (value : PyFloat) : Trial :=
  ⟨"torque", torqueWindow, .step "ref_torque", none, none, [value]⟩

/-- What must be refused. -/
def refused : List Trial :=
  [refVelAboveMax c, refVelBelowMin c, multiStepsAboveMax c, timeTargetAboveMax c,
    timeTargetBelowMin c, refDegreeAboveMax c, refTorqueAboveMax c]

/-- What must be accepted. -/
def accepted : List Trial :=
  multiStepsBoundary c :: [minValue c, maxValue c].flatMap fun value =>
    [refVelBoundary value, timeTargetBoundary value, refDegreeBoundary value,
      refTorqueBoundary value]

end

/-- The payload, as far as it is changed. -/
def payloadOf (s : ScrewSpec) : Payload := ⟨s.detailParams, s.stepParams⟩

/-- The payload of the factory that a test starts with. -/
def Trial.spec (t : Trial) (specId : ℤ) : ScrewSpec :=
  if t.values.length = 1 then ScrewSpecFactory.default specId
  else ScrewSpecFactory.withSteps specId t.values.length

/-! ## What the backend checks -/

/-- The windows are in order, and the values of the steps lie in them. -/
structure Payload.Related (p : Payload) : Prop where
  ordered : ∀ w ∈ safetyWindows, Ordered p.detailParams w
  within : ∀ q ∈ checks, ∀ step ∈ p.stepParams, Within p.detailParams q.2.1 q.2.2 step

/-- The values under a slot. -/
def Slot.get (slot : Slot) (p : Payload) : List Json :=
  match slot with
  | .step key => p.stepParams.map (Json.field · key)
  | .detail key => [Json.field p.detailParams key]

/-- The names of constraints, and the values that these are about. -/
def governed : List (String × Slot) :=
  [("ref_vel", .step "ref_vel"), ("time_target", .detail "time_target"),
    ("time", .step "ref_time"), ("ref_degree", .step "ref_degree"),
    ("torque", .step "ref_torque")]

/-- The value is a number in the range of the constraint. -/
def Constraint.Allows (c : Constraint) (value : Json) : Prop :=
  ∃ q, value = .num q ∧ c.min ≤ q ∧ q ≤ c.max

/-- A value of the payload is not in the range of the constraint. -/
def Payload.Breaks (p : Payload) (c : Constraint) : Prop :=
  ∃ slot, (c.name, slot) ∈ governed ∧ ∃ value ∈ slot.get p, ¬c.Allows value

/-! ## Fitting a payload whose values are in their windows -/

theorem within_of_lookup {d step : List (String × Json)} {w : Window} {key : String} {lo hi q : ℚ}
    (hmin : d.lookup w.min = some (.num lo)) (hmax : d.lookup w.max = some (.num hi))
    (hstep : step.lookup key = some (.num q)) (hlo : lo ≤ q) (hhi : q ≤ hi) :
    Within d w key step := by
  refine ⟨lookup_number hstep, ?_, ?_⟩
  · rwa [number_of_lookup hmin, number_of_lookup hstep]
  · rwa [number_of_lookup hmax, number_of_lookup hstep]

/-- The window has been widened around its target. -/
structure Grown (d d' : List (String × Json)) (w : Window) : Prop where
  numbers : HasNumbers d' w.keys
  min_le : number d' w.min ≤ number d w.min
  le_max : number d w.max ≤ number d' w.max
  target : d'.lookup w.target = d.lookup w.target

namespace Grown

variable {d d' d'' : List (String × Json)} {w : Window}

theorem of_same (h : HasNumbers d w.keys) (hsame : ∀ key ∈ w.keys, d'.lookup key = d.lookup key) :
    Grown d d' w :=
  ⟨h.congr hsame, (number_congr (hsame _ (by simp [Window.keys]))).le,
    (number_congr (hsame _ (by simp [Window.keys]))).ge, hsame _ (by simp [Window.keys])⟩

theorem trans (h : Grown d d' w) (h' : Grown d' d'' w) : Grown d d'' w :=
  ⟨h'.numbers, h'.min_le.trans h.min_le, h.le_max.trans h'.le_max, h'.target.trans h.target⟩

theorem ordered (h : Grown d d' w) (hd : Ordered d w) : Ordered d' w := by
  refine ⟨h.numbers, ?_, ?_⟩
  · rw [number_congr h.target]
    exact h.min_le.trans hd.min_le_target
  · rw [number_congr h.target]
    exact hd.target_le_max.trans h.le_max

/-- What lies in the window still does. -/
theorem within {key : String} {step : List (String × Json)} (h : Grown d d' w)
    (hstep : Within d w key step) : Within d' w key step :=
  ⟨hstep.lookup, h.min_le.trans hstep.min_le, hstep.le_max.trans h.le_max⟩

end Grown

/-- A target in its window stays. -/
theorem clamp_of_mem {lo hi q : ℚ} (hlo : lo ≤ q) (hhi : q ≤ hi) : clamp lo hi q = q := by
  rw [clamp, if_neg (not_lt.mpr hlo), if_neg (not_lt.mpr hhi)]

section Widen

variable {constraints : Constraints} {d : List (String × Json)}

/-- `_widen` widens its window around its target. -/
theorem grown_widen_self (hrow : constraints.Rational) (name : String) {w : Window}
    (h : Ordered d w) : Grown d (widen constraints name w d) w := by
  cases hc : constraints (.str name) with
  | none =>
    rw [widen, hc]
    exact .of_same h.numbers fun _ _ => rfl
  | some fields =>
    obtain ⟨c, rfl⟩ := hrow _ fields hc
    rw [widen_eq h.numbers hc]
    obtain ⟨hnumbers, hmin, hmax, htarget⟩ := number_update_items (d := d) w
      (min (number d w.min) c.min) (max (number d w.max) c.max)
      (clamp (min (number d w.min) c.min) (max (number d w.max) c.max) (number d w.target))
    have hkept : clamp (min (number d w.min) c.min) (max (number d w.max) c.max)
        (number d w.target) = number d w.target :=
      clamp_of_mem ((min_le_left _ _).trans h.min_le_target)
        (h.target_le_max.trans (le_max_left _ _))
    refine ⟨hnumbers, ?_, ?_, ?_⟩
    · rw [hmin]
      exact min_le_left _ _
    · rw [hmax]
      exact le_max_left _ _
    · rw [hnumbers _ (by simp [Window.keys]), htarget, hkept, h.numbers _ (by simp [Window.keys])]

theorem grown_widen (hrow : constraints.Rational) (name : String) {w w' : Window}
    (hw : w ∈ windows) (hw' : w' ∈ windows) (h : ∀ w ∈ windows, Ordered d w) :
    Grown d (widen constraints name w' d) w := by
  rcases windows_disjoint w hw w' hw' with rfl | hdisjoint
  · exact grown_widen_self hrow name (h w hw)
  · exact .of_same (h w hw).numbers fun key hkey =>
      lookup_widen (hdisjoint key hkey) (h w' hw').numbers hrow

/-- All calls of `_widen` widen the windows around their targets. -/
theorem grown_foldl (hrow : constraints.Rational) (calls : List (String × Window))
    (hcalls : ∀ p ∈ calls, p.2 ∈ windows) (h : ∀ w ∈ windows, Ordered d w) {w : Window}
    (hw : w ∈ windows) :
    Grown d (calls.foldl (fun d p => widen constraints p.1 p.2 d) d) w := by
  induction calls generalizing d with
  | nil => exact .of_same (h w hw).numbers fun _ _ => rfl
  | cons p calls ih =>
    obtain ⟨hp, hcalls⟩ := List.forall_mem_cons.mp hcalls
    have hfirst : ∀ w ∈ windows, Grown d (widen constraints p.1 p.2 d) w :=
      fun w hw => grown_widen hrow p.1 hw hp h
    exact (hfirst w hw).trans (ih hcalls fun w hw => (hfirst w hw).ordered (h w hw))

end Widen

theorem lookup_foldl_widen {constraints : Constraints} (hrow : constraints.Rational)
    (calls : List (String × Window)) (hcalls : ∀ p ∈ calls, p.2 ∈ windows)
    {d : List (String × Json)} (h : ∀ w ∈ windows, Ordered d w) {key : String}
    (hkey : ∀ w ∈ windows, key ∉ w.keys) :
    (calls.foldl (fun d p => widen constraints p.1 p.2 d) d).lookup key = d.lookup key := by
  induction calls generalizing d with
  | nil => rfl
  | cons p calls ih =>
    obtain ⟨hp, hcalls⟩ := List.forall_mem_cons.mp hcalls
    rw [List.foldl_cons, ih hcalls fun w hw => (grown_widen hrow p.1 hw hp h).ordered (h w hw)]
    exact lookup_widen (hkey p.2 hp) (h p.2 hp).numbers hrow

namespace ConstraintsReply

variable (r : ConstraintsReply) {d : List (String × Json)}

theorem grown_detail (h : ∀ w ∈ windows, Ordered d w) {w : Window} (hw : w ∈ windows) :
    Grown d (r.detail d) w := by
  have hgrown := grown_foldl r.rational widenings (by decide) h hw
  exact hgrown.trans (.of_same hgrown.numbers fun key hkey => r.lookup_detail hw hkey d)

/-- The torque is that of its row. -/
theorem lookup_torque {c : Constraint} (hc : r.torque = some c) (d : List (String × Json)) :
    (r.detail d).lookup "torque_target" = some (.num c.mid) ∧
      (r.detail d).lookup "torque_min" = some (.num c.min) ∧
      (r.detail d).lookup "torque_max" = some (.num c.max) := by
  have hfound := hc
  rw [torque] at hfound
  have hboth := List.find?_some hfound
  obtain ⟨code, hcode⟩ := Option.isSome_iff_exists.mp (Bool.and_eq_true_iff.mp hboth).2
  have hitems : r.torqueItems = [("torque_unit", .num code), ("torque_target", .num c.mid),
      ("torque_min", .num c.min), ("torque_max", .num c.max)] := by
    rw [torqueItems, hc, ← c.torqueItems_eq hcode]
    rfl
  have hlookup := fun q hq => r.lookup_torqueItems (q := q) hq d
  simp only [hitems, List.forall_mem_cons] at hlookup
  exact ⟨hlookup.2.1, hlookup.2.2.1, hlookup.2.2.2.1⟩

/-- Without a torque row the torque is left alone. -/
theorem lookup_torque_none (hc : r.torque = none) (h : ∀ w ∈ windows, Ordered d w) :
    ∀ key ∈ torqueWindow.keys, (r.detail d).lookup key = d.lookup key := by
  have hkeys : ∀ key ∈ torqueWindow.keys, key ∉ clampKeys ∧ ∀ w ∈ windows, key ∉ w.keys := by
    decide
  have hitems : r.torqueItems = [] := by
    rw [torqueItems, hc]
    rfl
  intro key hkey
  rw [detail, hitems, Json.lookup_update_of_notMem fun hmem =>
    (hkeys key hkey).1 (r.clampItems_keys.subset hmem)]
  exact lookup_foldl_widen r.rational widenings (by decide) h (hkeys key hkey).2

/-- A step after its torque was stored. -/
theorem exists_of_mem_torqueSteps {steps : List (List (String × Json))}
    {step' : List (String × Json)} (h : step' ∈ r.torqueSteps steps) : ∃ step ∈ steps,
      (∀ key, (r.torque = none ∨ key ≠ "ref_torque") → step'.lookup key = step.lookup key) ∧
        ∀ c, r.torque = some c → step'.lookup "ref_torque" = some (.num c.mid) := by
  rw [torqueSteps] at h
  cases hc : r.torque with
  | none =>
    rw [hc] at h
    exact ⟨step', h, fun _ _ => rfl, fun c' hc' => absurd hc'.symm (Option.some_ne_none c')⟩
  | some c =>
    rw [hc] at h
    obtain ⟨step, hstep, rfl⟩ := List.mem_map.mp h
    refine ⟨step, hstep, fun key hkey => ?_, fun c' hc' => ?_⟩
    · exact Json.lookup_assign_of_ne _ _ (hkey.resolve_left (Option.some_ne_none c))
    · rw [← Option.some.inj hc']
      exact Json.lookup_assign_self ..

theorem ordered_torque (h : ∀ w ∈ safetyWindows, Ordered d w) :
    Ordered (r.detail d) torqueWindow := by
  have hwindows : ∀ w ∈ windows, Ordered d w := fun w hw =>
    h w ((by decide : ∀ w ∈ windows, w ∈ safetyWindows) w hw)
  cases hc : r.torque with
  | none => exact (h torqueWindow (by decide)).congr (r.lookup_torque_none hc hwindows)
  | some c =>
    obtain ⟨htarget, hmin, hmax⟩ := r.lookup_torque hc d
    exact ordered_of_lookup hmin hmax htarget c.min_le_mid c.mid_le_max

end ConstraintsReply

namespace Payload.Related

variable {p : Payload}

/-- The windows that may be widened. -/
theorem windows_ordered (h : p.Related) : ∀ w ∈ windows, Ordered p.detailParams w :=
  fun w hw => h.ordered w ((by decide : ∀ w ∈ windows, w ∈ safetyWindows) w hw)

/-- The steps after their torque was stored. -/
theorem within_torqueSteps (h : p.Related) (r : ConstraintsReply) : ∀ q ∈ checks,
    ∀ step ∈ r.torqueSteps p.stepParams, Within (r.detail p.detailParams) q.2.1 q.2.2 step := by
  have hchecks : ∀ q ∈ checks, q.2.1 ∈ windows ∧ q.2.2 ≠ "ref_torque" ∨
      q.2 = (torqueWindow, "ref_torque") := by decide
  intro q hq step' hstep'
  obtain ⟨step, hstep, hsame, htorque⟩ := r.exists_of_mem_torqueSteps hstep'
  have hwithin := h.within q hq step hstep
  rcases hchecks q hq with ⟨hw, hne⟩ | heq
  · exact ((r.grown_detail h.windows_ordered hw).within hwithin).congr (hsame _ (.inr hne))
  · rw [heq] at hwithin ⊢
    cases hc : r.torque with
    | none =>
      have hwindow := r.lookup_torque_none hc h.windows_ordered
      refine Within.congr ⟨hwithin.lookup, ?_, ?_⟩ (hsame _ (.inl hc))
      · rw [number_congr (hwindow torqueWindow.min (by decide))]
        exact hwithin.min_le
      · rw [number_congr (hwindow torqueWindow.max (by decide))]
        exact hwithin.le_max
    | some c =>
      obtain ⟨-, hmin, hmax⟩ := r.lookup_torque hc p.detailParams
      exact within_of_lookup hmin hmax (htorque c hc) c.min_le_mid c.mid_le_max

/-- **Fitting a payload whose values are in their windows** changes the windows and the torque. -/
theorem widen_eq (h : p.Related) (r : ConstraintsReply) :
    widenSafetyForConstraints r.fields p =
      .ok ⟨r.detail p.detailParams, r.torqueSteps p.stepParams⟩ := by
  have hcovered := r.covered_detail fun w hw => (h.windows_ordered w hw).numbers
  have hsteps := h.within_torqueSteps r
  have hvel : fitVel ((r.row "ref_vel").map Constraint.fields) (r.detail p.detailParams)
      (r.torqueSteps p.stepParams) = .ok (r.torqueSteps p.stepParams) := by
    refine fitSteps_of_fitted (fun c hc => hcovered.row (by decide) hc) (fun c hc => ?_)
      fun _ => hsteps ("vel_check_enable", velWindow, "ref_vel") (by decide)
    obtain ⟨q, hq, -⟩ := ConstraintsReply.exists_velMin (hcovered.row (by decide) hc)
    exact ⟨q, hq⟩
  have htime : fitTime (((r.row "time").or (r.row "time_target")).map Constraint.fields)
      (r.detail p.detailParams) (r.torqueSteps p.stepParams) =
        .ok (r.torqueSteps p.stepParams) :=
    fitSteps_of_fitted (fun c hc => hcovered.time hc) (fun c _ => ⟨_, c.midValue_eq⟩)
      fun _ => hsteps ("time_check_enable", timeWindow, "ref_time") (by decide)
  have hdegree : fitDegree ((r.row "ref_degree").map Constraint.fields) (r.detail p.detailParams)
      (r.torqueSteps p.stepParams) = .ok (r.torqueSteps p.stepParams) :=
    fitSteps_of_fitted (fun c hc => hcovered.row (by decide) hc) (fun c _ => ⟨_, c.midValue_eq⟩)
      fun _ => hsteps ("degree_check_enable", degreeWindow, "ref_degree") (by decide)
  simp only [r.run_eq, hvel, htime, hdegree, bind, Except.bind]
  rfl

/-- It stays so. -/
theorem widened (h : p.Related) (r : ConstraintsReply) :
    Related ⟨r.detail p.detailParams, r.torqueSteps p.stepParams⟩ := by
  refine ⟨fun w hw => ?_, h.within_torqueSteps r⟩
  have hcases : ∀ w ∈ safetyWindows, w = torqueWindow ∨ w ∈ windows := by decide
  rcases hcases w hw with rfl | hw
  · exact r.ordered_torque h.ordered
  · exact (r.grown_detail h.windows_ordered hw).ordered (h.windows_ordered w hw)

end Payload.Related

/-! ## What a test does to the payload -/

section Edit

variable {d : List (String × Json)} {w : Window}

theorem lower_eq {key : String} (h : d.lookup key = some (.num (number d key))) (q : ℚ) :
    lower key (.finite q) d = .ok (Json.assign key (.num (min (number d key) q)) d) := by
  rw [lower, Json.getItem, h]
  by_cases hlt : q < number d key
  · simp [bind, Except.bind, pure, Except.pure, hlt, min_eq_right hlt.le]
  · simp [bind, Except.bind, pure, Except.pure, hlt, min_eq_left (not_lt.mp hlt)]

theorem raise_eq {key : String} (h : d.lookup key = some (.num (number d key))) (q : ℚ) :
    raise key (.finite q) d = .ok (Json.assign key (.num (max (number d key) q)) d) := by
  rw [raise, Json.getItem, h]
  by_cases hlt : number d key < q
  · simp [bind, Except.bind, pure, Except.pure, hlt, max_eq_right hlt.le]
  · simp [bind, Except.bind, pure, Except.pure, hlt, max_eq_left (not_lt.mp hlt)]

/-- The keys of a window are three. -/
theorem window_keys_ne (w : Window) : w.min ≠ w.max ∧ w.min ≠ w.target ∧ w.max ≠ w.target := by
  have h := w.distinct
  simp only [List.nodup_cons, List.mem_cons, List.not_mem_nil, or_false, not_or] at h
  exact ⟨h.1.1, h.1.2, h.2.1⟩

/-- A window after one of its bounds was moved outwards. -/
theorem grown_assign (h : HasNumbers d w.keys) {key : String} {q : ℚ} (htarget : w.target ≠ key)
    (hmin : number (Json.assign key (.num q) d) w.min ≤ number d w.min)
    (hmax : number d w.max ≤ number (Json.assign key (.num q) d) w.max) :
    Grown d (Json.assign key (.num q) d) w := by
  refine ⟨fun key' hkey' => ?_, hmin, hmax, Json.lookup_assign_of_ne _ _ htarget⟩
  by_cases hk : key' = key
  · rw [hk]
    exact lookup_number (Json.lookup_assign_self ..)
  · have hsame := Json.lookup_assign_of_ne (.num q) d hk
    rw [hsame, number_congr hsame]
    exact h key' hkey'

/-- A window after its lower bound was lowered. -/
theorem grown_lower (h : HasNumbers d w.keys) (q : ℚ) :
    Grown d (Json.assign w.min (.num (min (number d w.min) q)) d) w := by
  obtain ⟨hmax, htarget, -⟩ := window_keys_ne w
  apply grown_assign h htarget.symm
  · rw [number_of_lookup (Json.lookup_assign_self ..)]
    exact min_le_left _ _
  · rw [number_congr (Json.lookup_assign_of_ne _ d hmax.symm)]

/-- A window after its upper bound was raised. -/
theorem grown_raise (h : HasNumbers d w.keys) (q : ℚ) :
    Grown d (Json.assign w.max (.num (max (number d w.max) q)) d) w := by
  obtain ⟨hmin, -, htarget⟩ := window_keys_ne w
  apply grown_assign h htarget.symm
  · rw [number_congr (Json.lookup_assign_of_ne _ d hmin)]
  · rw [number_of_lookup (Json.lookup_assign_self ..)]
    exact le_max_left _ _

/-- The dictionary after the window was stretched to what is given. -/
structure Stretched (d d' : List (String × Json)) (w : Window) (low high : Option ℚ) : Prop where
  grown : Grown d d' w
  same : ∀ key, key ≠ w.min → key ≠ w.max → d'.lookup key = d.lookup key
  le_low : ∀ q, low = some q → number d' w.min ≤ q
  high_le : ∀ q, high = some q → q ≤ number d' w.max

theorem exists_stretched (h : HasNumbers d w.keys) (low high : Option ℚ) : ∃ d₁ d',
    (low.map PyFloat.finite).elim (.ok d) (fun v => lower w.min v d) = .ok d₁ ∧
      (high.map PyFloat.finite).elim (.ok d₁) (fun v => raise w.max v d₁) = .ok d' ∧
      Stretched d d' w low high := by
  have hmem : w.min ∈ w.keys ∧ w.max ∈ w.keys := by simp [Window.keys]
  have hnone : ∀ {P : ℚ → Prop} (q : ℚ), none = some q → P q :=
    fun q hq => absurd hq.symm (Option.some_ne_none q)
  have hlow : ∃ d₁, (low.map PyFloat.finite).elim (.ok d) (fun v => lower w.min v d) = .ok d₁ ∧
      Stretched d d₁ w low none := by
    cases low with
    | none => exact ⟨d, rfl, .of_same h fun _ _ => rfl, fun _ _ _ => rfl, hnone, hnone⟩
    | some q =>
      refine ⟨_, lower_eq (h _ hmem.1) q, grown_lower h q,
        fun key hne _ => Json.lookup_assign_of_ne _ _ hne, fun q' hq' => ?_, hnone⟩
      rw [number_of_lookup (Json.lookup_assign_self ..), ← Option.some.inj hq']
      exact min_le_right _ _
  obtain ⟨d₁, hrun₁, h₁⟩ := hlow
  cases high with
  | none => exact ⟨d₁, d₁, hrun₁, rfl, h₁⟩
  | some q =>
    have hgrown := grown_raise h₁.grown.numbers q
    refine ⟨d₁, _, hrun₁, raise_eq (h₁.grown.numbers _ hmem.2) q, h₁.grown.trans hgrown,
      fun key hmin hmax => ?_, fun q' hq' => hgrown.min_le.trans (h₁.le_low q' hq'),
      fun q' hq' => ?_⟩
    · rw [Json.lookup_assign_of_ne _ _ hmax, h₁.same key hmin hmax]
    · rw [number_of_lookup (Json.lookup_assign_self ..), ← Option.some.inj hq']
      exact le_max_right _ _

end Edit

/-- Two windows are the same or have no key in common. -/
theorem safetyWindows_disjoint : ∀ w ∈ safetyWindows, ∀ w' ∈ safetyWindows,
    w = w' ∨ ∀ key ∈ w.keys, key ∉ w'.keys := by
  decide

theorem setSteps_eq (key : String) {qs : List ℚ} {steps : List (List (String × Json))}
    (h : qs.length = steps.length) : setSteps key (qs.map .finite) steps =
      .ok (List.zipWith (fun q step => Json.assign key (.num q) step) qs steps) := by
  induction qs generalizing steps with
  | nil =>
    rw [List.eq_nil_of_length_eq_zero h.symm]
    rfl
  | cons q qs ih =>
    obtain ⟨step, steps, rfl⟩ := List.exists_cons_of_length_eq_add_one h.symm
    rw [List.map_cons, setSteps, ih (Nat.succ.inj h)]
    rfl

/-- The values are stored. -/
theorem map_field_setSteps (key : String) {qs : List ℚ} {steps : List (List (String × Json))}
    (h : qs.length = steps.length) :
    (List.zipWith (fun q step => Json.assign key (.num q) step) qs steps).map (Json.field · key) =
      qs.map .num := by
  induction qs generalizing steps with
  | nil => rfl
  | cons q qs ih =>
    obtain ⟨step, steps, rfl⟩ := List.exists_cons_of_length_eq_add_one h.symm
    rw [List.zipWith_cons_cons, List.map_cons, List.map_cons, ih (Nat.succ.inj h),
      Json.field_of_lookup (Json.lookup_assign_self ..)]

/-- Other values stay. -/
theorem map_field_setSteps_of_ne {key key' : String} (hne : key' ≠ key) {qs : List ℚ}
    {steps : List (List (String × Json))} (h : qs.length = steps.length) :
    (List.zipWith (fun q step => Json.assign key (.num q) step) qs steps).map (Json.field · key') =
      steps.map (Json.field · key') := by
  induction qs generalizing steps with
  | nil =>
    rw [List.eq_nil_of_length_eq_zero h.symm]
    rfl
  | cons q qs ih =>
    obtain ⟨step, steps, rfl⟩ := List.exists_cons_of_length_eq_add_one h.symm
    rw [List.zipWith_cons_cons, List.map_cons, List.map_cons, ih (Nat.succ.inj h),
      Json.field_assign_of_ne _ _ _ hne]

/-- The steps are those from before, with a value each. -/
theorem exists_of_mem_setSteps {key : String} {qs : List ℚ} {steps : List (List (String × Json))}
    {step' : List (String × Json)}
    (h : step' ∈ List.zipWith (fun q step => Json.assign key (.num q) step) qs steps) :
    ∃ q ∈ qs, ∃ step ∈ steps, step' = Json.assign key (.num q) step := by
  induction qs generalizing steps with
  | nil => cases h
  | cons q qs ih =>
    cases steps with
    | nil => cases h
    | cons step steps =>
      rcases List.mem_cons.mp h with rfl | h
      · exact ⟨q, by simp, step, by simp, rfl⟩
      · obtain ⟨q', hq', step', hstep', rfl⟩ := ih h
        exact ⟨q', by simp [hq'], step', by simp [hstep'], rfl⟩

namespace Payload.Related

variable {p : Payload} {w : Window}

/-- Another window is left alone. -/
theorem of_window (h : p.Related) (hw : w ∈ safetyWindows) {d : List (String × Json)}
    (hself : Ordered d w) (hwithin : ∀ q ∈ checks, q.2.1 = w → ∀ step ∈ p.stepParams,
      Within d w q.2.2 step)
    (hsame : ∀ key, key ∉ w.keys → d.lookup key = p.detailParams.lookup key) :
    Related ⟨d, p.stepParams⟩ := by
  have hchecks : ∀ q ∈ checks, q.2.1 ∈ safetyWindows := by decide
  refine ⟨fun w' hw' => ?_, fun q hq step hstep => ?_⟩
  · rcases safetyWindows_disjoint w' hw' w hw with rfl | hdisjoint
    · exact hself
    · exact (h.ordered w' hw').congr fun key hkey => hsame key (hdisjoint key hkey)
  · rcases safetyWindows_disjoint q.2.1 (hchecks q hq) w hw with heq | hdisjoint
    · rw [heq]
      exact hwithin q hq heq step hstep
    · have hold := h.within q hq step hstep
      have hnumber : ∀ key ∈ q.2.1.keys, number d key = number p.detailParams key :=
        fun key hkey => number_congr (hsame key (hdisjoint key hkey))
      refine ⟨hold.lookup, ?_, ?_⟩
      · rw [hnumber _ (by simp [Window.keys])]
        exact hold.min_le
      · rw [hnumber _ (by simp [Window.keys])]
        exact hold.le_max

theorem stretched (h : p.Related) (hw : w ∈ safetyWindows) {d : List (String × Json)}
    {low high : Option ℚ} (hd : Stretched p.detailParams d w low high) :
    Related ⟨d, p.stepParams⟩ := by
  refine h.of_window hw (hd.grown.ordered (h.ordered w hw)) (fun q hq heq step hstep => ?_)
    fun key hkey => ?_
  · rw [← heq] at hd ⊢
    exact hd.grown.within (h.within q hq step hstep)
  · simp only [Window.keys, List.mem_cons, List.not_mem_nil, or_false, not_or] at hkey
    exact hd.same key hkey.1 hkey.2.1

/-- A target in its window. -/
theorem setTarget (h : p.Related) (hw : w ∈ safetyWindows) {q : ℚ}
    (hmin : number p.detailParams w.min ≤ q) (hmax : q ≤ number p.detailParams w.max) :
    Related ⟨Json.assign w.target (.num q) p.detailParams, p.stepParams⟩ := by
  obtain ⟨-, hmint, hmaxt⟩ := window_keys_ne w
  have hold := h.ordered w hw
  have hlookup : ∀ key, key ≠ w.target → (Json.assign w.target (.num q) p.detailParams).lookup key =
      p.detailParams.lookup key := fun key hne => Json.lookup_assign_of_ne _ _ hne
  have hmin' : (Json.assign w.target (.num q) p.detailParams).lookup w.min =
      some (.num (number p.detailParams w.min)) := by
    rw [hlookup _ hmint]
    exact hold.numbers _ (by simp [Window.keys])
  have hmax' : (Json.assign w.target (.num q) p.detailParams).lookup w.max =
      some (.num (number p.detailParams w.max)) := by
    rw [hlookup _ hmaxt]
    exact hold.numbers _ (by simp [Window.keys])
  refine h.of_window hw (ordered_of_lookup hmin' hmax' (Json.lookup_assign_self ..) hmin hmax)
    (fun q' hq' heq step hstep => ?_) fun key hkey => ?_
  · have hwithin := h.within q' hq' step hstep
    rw [heq] at hwithin
    exact within_of_lookup hmin' hmax' hwithin.lookup hwithin.min_le hwithin.le_max
  · exact hlookup key fun heq => hkey (by simp [Window.keys, heq])

/-- Values of the steps in their window. -/
theorem setSteps (h : p.Related) {check : String × Window × String} (hcheck : check ∈ checks)
    {qs : List ℚ} (hqs : ∀ q ∈ qs, number p.detailParams check.2.1.min ≤ q ∧
      q ≤ number p.detailParams check.2.1.max) :
    Related ⟨p.detailParams, List.zipWith (fun q step => Json.assign check.2.2 (.num q) step) qs
      p.stepParams⟩ := by
  have hkeys : ∀ q ∈ checks, ∀ q' ∈ checks, q.2.2 = q'.2.2 → q.2.1 = q'.2.1 := by decide
  refine ⟨h.ordered, fun other hother step' hstep' => ?_⟩
  obtain ⟨q, hq, step, hstep, rfl⟩ := exists_of_mem_setSteps hstep'
  by_cases hkey : other.2.2 = check.2.2
  · rw [hkeys other hother check hcheck hkey, hkey]
    exact within_assign (hqs q hq).1 (hqs q hq).2
  · exact (h.within other hother step hstep).congr (Json.lookup_assign_of_ne _ _ hkey)

end Payload.Related

/-- The names, windows and slots of the tests. -/
def places : List (String × Window × Slot) :=
  [("ref_vel", velWindow, .step "ref_vel"), ("time_target", timeWindow, .detail "time_target"),
    ("ref_degree", degreeWindow, .step "ref_degree"), ("torque", torqueWindow, .step "ref_torque")]

/-- A slot is that of a target, or of a value that a window bounds. -/
theorem slot_cases : ∀ place ∈ places, place.2.2 = .detail place.2.1.target ∨
    ∃ q ∈ checks, q.2.1 = place.2.1 ∧ place.2.2 = .step q.2.2 := by
  decide

theorem Slot.step_ne_detail (key key' : String) : Slot.step key ≠ .detail key' := by
  intro h
  cases h

theorem Slot.get_congr {slot : Slot} {p p' : Payload}
    (hdetail : ∀ key, slot = .detail key →
      p'.detailParams.lookup key = p.detailParams.lookup key)
    (hstep : ∀ key, slot = .step key → p'.stepParams.map (Json.field · key) =
      p.stepParams.map (Json.field · key)) : slot.get p' = slot.get p := by
  cases slot with
  | step key => exact hstep key rfl
  | detail key => rw [get, get, Json.field, Json.field, hdetail key rfl]

/-- What lies in the window, or in what it is stretched to. -/
theorem Stretched.mem {d d' : List (String × Json)} {w : Window} {low high : Option ℚ}
    (h : Stretched d d' w low high) {q : ℚ}
    (hlow : number d w.min ≤ q ∨ ∃ l, low = some l ∧ l ≤ q)
    (hhigh : q ≤ number d w.max ∨ ∃ u, high = some u ∧ q ≤ u) :
    number d' w.min ≤ q ∧ q ≤ number d' w.max := by
  constructor
  · rcases hlow with hle | ⟨l, hl, hle⟩
    · exact h.grown.min_le.trans hle
    · exact (h.le_low l hl).trans hle
  · rcases hhigh with hle | ⟨u, hu, hle⟩
    · exact hle.trans h.grown.le_max
    · exact hle.trans (h.high_le u hu)

/-- **What a test does to a payload:** its values replace those in its slot, and the others stay. -/
theorem exists_edit {p : Payload} (h : p.Related) {t : Trial}
    (hplace : (t.name, t.window, t.slot) ∈ places) {low high : Option ℚ} {qs : List ℚ}
    (hlow : t.low = low.map .finite) (hhigh : t.high = high.map .finite)
    (hvalues : t.values = qs.map .finite) (hlength : qs.length = (t.slot.get p).length)
    (hqs : ∀ q ∈ qs,
      (number p.detailParams t.window.min ≤ q ∨ ∃ l, low = some l ∧ l ≤ q) ∧
        (q ≤ number p.detailParams t.window.max ∨ ∃ u, high = some u ∧ q ≤ u)) :
    ∃ p', t.edit p = .ok p' ∧ p'.Related ∧ t.slot.get p' = qs.map .num ∧
      ∀ g ∈ governed, g.2 ≠ t.slot → g.2.get p' = g.2.get p := by
  have hwindow : ∀ place ∈ places, place.2.1 ∈ safetyWindows := by decide
  have hw : t.window ∈ safetyWindows := hwindow _ hplace
  obtain ⟨d₁, d, hrun₁, hrun, hd⟩ := exists_stretched (h.ordered t.window hw).numbers low high
  have hin : ∀ q ∈ qs, number d t.window.min ≤ q ∧ q ≤ number d t.window.max :=
    fun q hq => hd.mem (hqs q hq).1 (hqs q hq).2
  have hrelated := h.stretched hw hd
  have hcode : t.edit p = t.slot.store t.values { p with detailParams := d } := by
    rw [Trial.edit, hlow, hhigh, hrun₁]
    change (high.map PyFloat.finite).elim (.ok d₁) (fun v => raise t.window.max v d₁) >>= _ = _
    rw [hrun]
    rfl
  -- the bounds of a window are not among the values
  have hbounds : ∀ g ∈ governed, ∀ w ∈ safetyWindows,
      g.2 ≠ .detail w.min ∧ g.2 ≠ .detail w.max := by decide
  have hstretch : ∀ g ∈ governed, ∀ key, g.2 = .detail key →
      d.lookup key = p.detailParams.lookup key := by
    intro g hg key hkey
    obtain ⟨hmin, hmax⟩ := hbounds g hg t.window hw
    rw [hkey] at hmin hmax
    exact hd.same key (fun heq => hmin (by rw [heq])) fun heq => hmax (by rw [heq])
  rw [hcode, hvalues]
  rcases slot_cases _ hplace with hslot | ⟨check, hcheck, hwindow, hslot⟩
  · have hslot : t.slot = .detail t.window.target := hslot
    rw [hslot] at hlength ⊢
    obtain ⟨q, rfl⟩ := List.length_eq_one_iff.mp hlength
    obtain ⟨hmin, hmax⟩ := hin q (by simp)
    refine ⟨_, rfl, hrelated.setTarget hw hmin hmax, ?_, fun g hg hne => Slot.get_congr
      (fun key hkey => ?_) fun _ _ => rfl⟩
    · exact congrArg (fun v => [v]) (Json.field_of_lookup (Json.lookup_assign_self ..) _)
    · have hkey' : key ≠ t.window.target := fun heq => hne (by rw [hkey, heq])
      exact (Json.lookup_assign_of_ne _ _ hkey').trans (hstretch g hg key hkey)
  · have hslot : t.slot = .step check.2.2 := hslot
    have hwindow : check.2.1 = t.window := hwindow
    rw [hslot] at hlength ⊢
    have hlength : qs.length = p.stepParams.length := hlength.trans (List.length_map _)
    rw [← hwindow] at hin
    refine ⟨_, ?_, hrelated.setSteps hcheck hin, map_field_setSteps _ hlength,
      fun g hg hne => Slot.get_congr (hstretch g hg) fun key hkey => ?_⟩
    · rw [Slot.store, setSteps_eq _ hlength]
      rfl
    · exact map_field_setSteps_of_ne (fun heq => hne (by rw [hkey, heq])) hlength

/-! ## The payload of the factory -/

/-- A payload of `n` default steps. -/
def factoryPayload (n : ℕ) : Payload :=
  ⟨ScrewSpecFactory.baseDetailParams [("prog_cnt", int n)],
    (List.range n).map fun i => ScrewSpecFactory.baseStep i []⟩

theorem payloadOf_spec (t : Trial) (specId : ℤ) (hone : 1 ≤ t.values.length)
    (hmax : t.values.length ≤ maxStepsPerSpec) :
    payloadOf (t.spec specId) = factoryPayload t.values.length := by
  rw [Trial.spec]
  split
  next h =>
    rw [h]
    rfl
  next h =>
    have hcount : (max 1 (min (t.values.length : ℤ) maxStepsPerSpec)).toNat = t.values.length := by
      omega
    simp only [payloadOf, ScrewSpecFactory.withSteps, hcount, factoryPayload]

/-- The values of the factory that constraints are about. -/
def factoryValues : List (String × ℚ) :=
  [("ref_vel", 180), ("time_target", 3000), ("time", 3000), ("ref_degree", 180)]

theorem get_factoryPayload (n : ℕ) : ∀ g ∈ governed, ∀ q, (g.1, q) ∈ factoryValues →
    ∀ value ∈ g.2.get (factoryPayload n), value = .num q := by
  have hsteps : ∀ {key : String} {q : ℚ},
      (∀ i, Json.field (ScrewSpecFactory.baseStep i []) key = .num q) →
      ∀ value ∈ (Slot.step key).get (factoryPayload n), value = .num q := by
    intro key q h value hvalue
    obtain ⟨step, hstep, rfl⟩ := List.mem_map.mp hvalue
    obtain ⟨i, -, rfl⟩ := List.mem_map.mp hstep
    exact h i
  intro g hg q hq
  simp only [governed, List.mem_cons, List.not_mem_nil, or_false] at hg
  rcases hg with rfl | rfl | rfl | rfl | rfl <;>
    simp only [factoryValues, List.mem_cons, List.not_mem_nil, or_false, Prod.mk.injEq,
      String.reduceEq, true_and, false_and, or_self, false_or] at hq
  · rw [hq]
    exact hsteps fun _ => rfl
  · rw [hq]
    exact fun value hvalue => List.mem_singleton.mp hvalue
  · rw [hq]
    exact hsteps fun _ => rfl
  · rw [hq]
    exact hsteps fun _ => rfl

theorem get_factoryPayload_ne_nil {n : ℕ} (hn : n ≠ 0) : ∀ g ∈ governed,
    g.2.get (factoryPayload n) ≠ [] := by
  intro g _
  cases g.2 with
  | step key => simp [Slot.get, factoryPayload, hn]
  | detail key => exact List.cons_ne_nil _ _

theorem factoryPayload_related (n : ℕ) : (factoryPayload n).Related := by
  refine ⟨ScrewSpecFactory.ordered_progCnt n, ?_⟩
  have hdetail : ∀ {key : String}, key ≠ "prog_cnt" →
      (factoryPayload n).detailParams.lookup key = ScrewSpecFactory.detailDefaults.lookup key :=
    fun h => Json.lookup_assign_of_ne _ _ h
  have hwithin : ∀ {w : Window} {key : String} {lo hi q : ℚ}, w.min ≠ "prog_cnt" →
      w.max ≠ "prog_cnt" → ScrewSpecFactory.detailDefaults.lookup w.min = some (.num lo) →
      ScrewSpecFactory.detailDefaults.lookup w.max = some (.num hi) →
      (∀ i, (ScrewSpecFactory.baseStep i []).lookup key = some (.num q)) → lo ≤ q → q ≤ hi →
      ∀ step ∈ (factoryPayload n).stepParams,
        Within (factoryPayload n).detailParams w key step := by
    intro w key lo hi q hmin hmax hlo hhi hq hle hle' step hstep
    obtain ⟨i, -, rfl⟩ := List.mem_map.mp hstep
    exact within_of_lookup ((hdetail hmin).trans hlo) ((hdetail hmax).trans hhi) (hq i) hle hle'
  simp only [checks, List.forall_mem_cons]
  exact ⟨hwithin (by decide) (by decide) rfl rfl (fun _ => rfl) (by norm_num) (by norm_num),
    hwithin (by decide) (by decide) rfl rfl (fun _ => rfl) (by norm_num) (by norm_num),
    hwithin (by decide) (by decide) rfl rfl (fun _ => rfl) (by norm_num) (by norm_num),
    hwithin (by decide) (by decide) rfl rfl (fun _ => rfl) (by norm_num) (by norm_num),
    List.forall_mem_nil _⟩

/-! ## The tests -/

/-- What a test stores for the constraint `c`, in numbers. -/
structure Trial.Rational (t : Trial) (c : Constraint) (low high : Option ℚ) (qs : List ℚ) :
    Prop where
  place : (t.name, t.window, t.slot) ∈ places
  low_eq : t.low = low.map .finite
  high_eq : t.high = high.map .finite
  values_eq : t.values = qs.map .finite
  length : 1 ≤ qs.length ∧ qs.length ≤ maxStepsPerSpec
  single : t.slot = .detail t.window.target → qs.length = 1
  low_le : ∀ q ∈ qs, c.min ≤ q ∨ ∃ l, low = some l ∧ l ≤ q
  le_high : ∀ q ∈ qs, q ≤ c.max ∨ ∃ u, high = some u ∧ q ≤ u

/-- How far outside the range a value is. -/
def spanOf (q : ℚ) : ℚ := max 1 (|q| * 0.2)

theorem spanOf_pos (q : ℚ) : 0 < spanOf q := lt_max_of_lt_left one_pos

theorem outsideSpan_finite (q : ℚ) : outsideSpan (.finite q) = .finite (spanOf q) := by
  simp [outsideSpan, spanOf]

namespace Constraint

variable (c : Constraint)

/-- The value above the range. -/
def above : ℚ := c.max + spanOf c.max

/-- The value below the range. -/
def below : ℚ := c.min - spanOf c.min

theorem max_lt_above : c.max < c.above := lt_add_of_pos_right _ (spanOf_pos _)

theorem below_lt_min : c.below < c.min := sub_lt_self _ (spanOf_pos _)

theorem outsideMax_eq : outsideMax (maxValue c.fields) = .finite c.above := by
  rw [c.maxValue_eq, outsideMax, outsideSpan_finite, PyFloat.add_finite, above]

theorem outsideMin_eq : outsideMin (minValue c.fields) = .finite c.below := by
  rw [c.minValue_eq, outsideMin, outsideSpan_finite, PyFloat.sub_finite, below]

/-- The number is in the range. -/
def InRange (q : ℚ) : Prop := c.min ≤ q ∧ q ≤ c.max

theorem not_inRange_above : ¬c.InRange c.above := fun h => absurd h.2 (not_le.mpr c.max_lt_above)

theorem not_inRange_below : ¬c.InRange c.below := fun h => absurd h.1 (not_le.mpr c.below_lt_min)

theorem inRange_min : c.InRange c.min := ⟨le_rfl, c.min_le_max⟩

theorem inRange_max : c.InRange c.max := ⟨c.min_le_max, le_rfl⟩

end Constraint

section Rational

theorem one_le_max : 1 ≤ maxStepsPerSpec := by decide

theorem two_le_max : 2 ≤ maxStepsPerSpec := by decide

/-- The tests of two steps store velocities. -/
theorem refVel_place : ("ref_vel", velWindow, Slot.step "ref_vel") ∈ places := List.mem_cons_self

variable {c : Constraint} {name : String} {w : Window} {slot : Slot}

theorem rational_above (h : (name, w, slot) ∈ places) :
    Trial.Rational ⟨name, w, slot, none, some (outsideMax (maxValue c.fields)),
      [outsideMax (maxValue c.fields)]⟩ c none (some c.above) [c.above] := by
  rw [c.outsideMax_eq]
  refine ⟨h, rfl, rfl, rfl, ⟨le_rfl, one_le_max⟩, fun _ => rfl, fun q hq => .inl ?_,
    fun q hq => .inr ⟨_, rfl, ?_⟩⟩
  · rw [List.mem_singleton.mp hq]
    exact c.min_le_max.trans c.max_lt_above.le
  · rw [List.mem_singleton.mp hq]

theorem rational_below (h : (name, w, slot) ∈ places) :
    Trial.Rational ⟨name, w, slot, some (outsideMin (minValue c.fields)), none,
      [outsideMin (minValue c.fields)]⟩ c (some c.below) none [c.below] := by
  rw [c.outsideMin_eq]
  refine ⟨h, rfl, rfl, rfl, ⟨le_rfl, one_le_max⟩, fun _ => rfl, fun q hq => .inr ⟨_, rfl, ?_⟩,
    fun q hq => .inl ?_⟩
  · rw [List.mem_singleton.mp hq]
  · rw [List.mem_singleton.mp hq]
    exact c.below_lt_min.le.trans c.min_le_max

theorem rational_boundary (h : (name, w, slot) ∈ places) {q : ℚ} (hq : c.InRange q) :
    Trial.Rational ⟨name, w, slot, none, none, [.finite q]⟩ c none none [q] := by
  refine ⟨h, rfl, rfl, rfl, ⟨le_rfl, one_le_max⟩, fun _ => rfl, fun q' hq' => .inl ?_,
    fun q' hq' => .inl ?_⟩
  · rw [List.mem_singleton.mp hq']
    exact hq.1
  · rw [List.mem_singleton.mp hq']
    exact hq.2

theorem rational_stretched (h : (name, w, slot) ∈ places) (q : ℚ) :
    Trial.Rational ⟨name, w, slot, some (.finite q), some (.finite q), [.finite q]⟩ c (some q)
      (some q) [q] := by
  refine ⟨h, rfl, rfl, rfl, ⟨le_rfl, one_le_max⟩, fun _ => rfl, fun q' hq' => .inr ⟨_, rfl, ?_⟩,
    fun q' hq' => .inr ⟨_, rfl, ?_⟩⟩
  · rw [List.mem_singleton.mp hq']
  · rw [List.mem_singleton.mp hq']

end Rational

section Trials

variable {c : Constraint} {t : Trial}

/-- What must be refused has a value outside the range. -/
theorem exists_rational_refused (ht : t ∈ refused c.fields) :
    ∃ low high qs, t.Rational c low high qs ∧ ∃ q ∈ qs, ¬c.InRange q := by
  have habove : ∀ {name w slot}, (name, w, slot) ∈ places →
      ∃ low high qs, Trial.Rational ⟨name, w, slot, none, some (outsideMax (maxValue c.fields)),
        [outsideMax (maxValue c.fields)]⟩ c low high qs ∧ ∃ q ∈ qs, ¬c.InRange q :=
    fun h => ⟨_, _, _, rational_above h, _, List.mem_singleton_self _, c.not_inRange_above⟩
  have hbelow : ∀ {name w slot}, (name, w, slot) ∈ places →
      ∃ low high qs, Trial.Rational ⟨name, w, slot, some (outsideMin (minValue c.fields)), none,
        [outsideMin (minValue c.fields)]⟩ c low high qs ∧ ∃ q ∈ qs, ¬c.InRange q :=
    fun h => ⟨_, _, _, rational_below h, _, List.mem_singleton_self _, c.not_inRange_below⟩
  simp only [refused, List.mem_cons, List.not_mem_nil, or_false] at ht
  rcases ht with rfl | rfl | rfl | rfl | rfl | rfl | rfl
  · exact habove (by decide)
  · exact hbelow (by decide)
  · rw [multiStepsAboveMax, c.outsideMax_eq, c.minValue_eq]
    have hle := c.min_le_max.trans c.max_lt_above.le
    refine ⟨none, some c.above, [c.min, c.above], ⟨refVel_place, rfl, rfl, rfl,
      ⟨one_le_two, two_le_max⟩, fun h => absurd h (Slot.step_ne_detail _ _),
      fun q hq => .inl ?_, fun q hq => .inr ⟨_, rfl, ?_⟩⟩, c.above, by simp, c.not_inRange_above⟩
    all_goals
      simp only [List.mem_cons, List.not_mem_nil, or_false] at hq
      rcases hq with rfl | rfl
    · exact le_rfl
    · exact hle
    · exact hle
    · exact le_rfl
  · exact habove (by decide)
  · exact hbelow (by decide)
  · exact habove (by decide)
  · exact habove (by decide)

/-- What must be accepted has its values in the range. -/
theorem exists_rational_accepted (ht : t ∈ accepted c.fields) :
    ∃ low high qs, t.Rational c low high qs ∧ ∀ q ∈ qs, c.InRange q := by
  have hboundary : ∀ {name w slot q}, (name, w, slot) ∈ places → c.InRange q →
      ∃ low high qs, Trial.Rational ⟨name, w, slot, none, none, [.finite q]⟩ c low high qs ∧
        ∀ q ∈ qs, c.InRange q :=
    fun h hq => ⟨_, _, _, rational_boundary h hq, fun q' hq' => List.mem_singleton.mp hq' ▸ hq⟩
  have hstretched : ∀ {name w slot q}, (name, w, slot) ∈ places → c.InRange q →
      ∃ low high qs, Trial.Rational ⟨name, w, slot, some (.finite q), some (.finite q), [.finite q]⟩
        c low high qs ∧ ∀ q ∈ qs, c.InRange q :=
    fun h hq => ⟨_, _, _, rational_stretched h _, fun q' hq' => List.mem_singleton.mp hq' ▸ hq⟩
  rw [accepted, multiStepsBoundary, c.minValue_eq, c.maxValue_eq] at ht
  simp only [List.flatMap_cons, List.flatMap_nil, List.mem_cons, List.mem_append,
    List.not_mem_nil, or_false] at ht
  rcases ht with rfl | (rfl | rfl | rfl | rfl) | rfl | rfl | rfl | rfl
  · have hall : ∀ q ∈ [c.min, c.max], c.InRange q := by
      simp only [List.forall_mem_cons]
      exact ⟨c.inRange_min, c.inRange_max, List.forall_mem_nil _⟩
    exact ⟨none, none, [c.min, c.max], ⟨refVel_place, rfl, rfl, rfl, ⟨one_le_two, two_le_max⟩,
      fun h => absurd h (Slot.step_ne_detail _ _), fun q hq => .inl (hall q hq).1,
      fun q hq => .inl (hall q hq).2⟩, hall⟩
  · exact hboundary (by decide) c.inRange_min
  · exact hstretched (by decide) c.inRange_min
  · exact hstretched (by decide) c.inRange_min
  · exact hboundary (by decide) c.inRange_min
  · exact hboundary (by decide) c.inRange_max
  · exact hstretched (by decide) c.inRange_max
  · exact hstretched (by decide) c.inRange_max
  · exact hboundary (by decide) c.inRange_max

/-- What is stored, in numbers, and whether it is in the range. -/
theorem exists_rational (ht : t ∈ refused c.fields ++ accepted c.fields) :
    ∃ low high qs, t.Rational c low high qs ∧
      ((∃ q ∈ qs, ¬c.InRange q) ↔ t ∈ refused c.fields) := by
  by_cases hrefused : t ∈ refused c.fields
  · obtain ⟨low, high, qs, hrational, hout⟩ := exists_rational_refused hrefused
    exact ⟨low, high, qs, hrational, iff_of_true hout hrefused⟩
  · obtain ⟨low, high, qs, hrational, hin⟩ :=
      exists_rational_accepted ((List.mem_append.mp ht).resolve_left hrefused)
    refine ⟨low, high, qs, hrational, iff_of_false ?_ hrefused⟩
    rintro ⟨q, hq, hout⟩
    exact hout (hin q hq)

end Trials

/-! ## Which constraints a payload breaks -/

/-- A constraint on the values of a payload; a torque row applies in the unit of the payload. -/
structure ConstraintsReply.Applies (r : ConstraintsReply) (c : Constraint) : Prop where
  mem : c ∈ r.rows
  name : c.name ∈ governed.map Prod.fst
  torque : c.name = "torque" → r.torque = some c

/-- The range leaves out a value of the factory. -/
def Constraint.LeavesOut (c : Constraint) : Prop :=
  ∃ q, (c.name, q) ∈ factoryValues ∧ ¬c.InRange q

/-- The factory has no value for the torque. -/
theorem Constraint.LeavesOut.ne_torque {c : Constraint} (h : c.LeavesOut) : c.name ≠ "torque" := by
  obtain ⟨q, hq, -⟩ := h
  intro hname
  rw [hname] at hq
  simp [factoryValues] at hq

theorem allows_num {c : Constraint} {q : ℚ} : c.Allows (.num q) ↔ c.InRange q := by
  constructor
  · rintro ⟨q', heq, h⟩
    obtain rfl := Json.num.inj heq
    exact h
  · exact fun h => ⟨q, rfl, h⟩

/-- There is one row of a name that applies. -/
theorem ConstraintsReply.Applies.eq {r : ConstraintsReply} {c c' : Constraint} (h : r.Applies c)
    (h' : r.Applies c') (hname : c'.name = c.name) : c' = c := by
  by_cases htorque : c.name = "torque"
  · exact Option.some.inj ((h'.torque (hname.trans htorque)).symm.trans (h.torque htorque))
  · have hsingle : ∀ name ∈ governed.map Prod.fst, name = "torque" ∨ name ∈ singleNames := by
      decide
    have hmem := (hsingle _ h.name).resolve_left htorque
    have hrow := r.row_of_mem h.mem hmem
    have hrow' := r.row_of_mem h'.mem (hname ▸ hmem)
    rw [hname] at hrow'
    exact Option.some.inj (hrow'.symm.trans hrow)

/-- The slot of a constraint. -/
theorem breaks_iff_get {p : Payload} {c : Constraint} {slot : Slot}
    (h : (c.name, slot) ∈ governed) : p.Breaks c ↔ ∃ value ∈ slot.get p, ¬c.Allows value := by
  have hunique : ∀ g ∈ governed, ∀ g' ∈ governed, g.1 = g'.1 → g.2 = g'.2 := by decide
  constructor
  · rintro ⟨slot', h', hbreaks⟩
    obtain rfl : slot = slot' := hunique _ h _ h' rfl
    exact hbreaks
  · exact fun hbreaks => ⟨slot, h, hbreaks⟩

/-- A payload with one value for a constraint. -/
theorem breaks_iff_of_const {p : Payload} {c : Constraint} {slot : Slot} {q : ℚ}
    (h : (c.name, slot) ∈ governed) (hne : slot.get p ≠ [])
    (hget : ∀ value ∈ slot.get p, value = .num q) : p.Breaks c ↔ ¬c.InRange q := by
  rw [breaks_iff_get h]
  constructor
  · rintro ⟨value, hvalue, hnot⟩
    rwa [hget value hvalue, allows_num] at hnot
  · intro hnot
    obtain ⟨value, hvalue⟩ := List.exists_mem_of_ne_nil _ hne
    refine ⟨value, hvalue, ?_⟩
    rwa [hget value hvalue, allows_num]

section Widened

variable {r : ConstraintsReply} {p : Payload}

theorem map_field_torqueSteps {key : String} (hkey : key ≠ "ref_torque")
    (steps : List (List (String × Json))) :
    (r.torqueSteps steps).map (Json.field · key) = steps.map (Json.field · key) := by
  rw [ConstraintsReply.torqueSteps]
  cases r.torque with
  | none => rfl
  | some c =>
    rw [List.map_map]
    exact List.map_congr_left fun step _ => Json.field_assign_of_ne _ _ _ hkey

theorem length_torqueSteps (steps : List (List (String × Json))) :
    (r.torqueSteps steps).length = steps.length := by
  rw [ConstraintsReply.torqueSteps]
  cases r.torque with
  | none => rfl
  | some c => exact List.length_map _

/-- Fitting leaves the values alone, except for the torque. -/
theorem get_widened (h : p.Related) : ∀ g ∈ governed, g.1 ≠ "torque" →
    g.2.get ⟨r.detail p.detailParams, r.torqueSteps p.stepParams⟩ = g.2.get p := by
  have hslots : ∀ g ∈ governed, g.1 ≠ "torque" → g.2 = .detail timeWindow.target ∨
      ∃ key ∈ stepKeys, g.2 = .step key := by decide
  intro g hg hne
  rcases hslots g hg hne with heq | ⟨key, hkey, heq⟩
  · rw [heq]
    refine Slot.get_congr (fun key hkey => ?_) fun key hkey =>
      absurd hkey.symm (Slot.step_ne_detail _ _)
    rw [← Slot.detail.inj hkey]
    exact (r.grown_detail h.windows_ordered (by decide)).target
  · rw [heq]
    exact map_field_torqueSteps ((by decide : ∀ key ∈ stepKeys, key ≠ "ref_torque") key hkey) _

/-- The window of a tested constraint contains its range. -/
theorem covers_widened (h : p.Related) {c : Constraint} (hc : r.Applies c)
    {place : String × Window × Slot} (hplace : place ∈ places) (hname : place.1 = c.name) :
    number (r.detail p.detailParams) place.2.1.min ≤ c.min ∧
      c.max ≤ number (r.detail p.detailParams) place.2.1.max := by
  have hcases : ∀ place ∈ places, place.1 = "torque" ∧ place.2.1 = torqueWindow ∨
      place.1 ∈ singleNames ∧ (place.1, place.2.1) ∈ widenings := by decide
  rcases hcases place hplace with ⟨htorque, hw⟩ | ⟨hsingle, hw⟩
  · obtain ⟨-, hmin, hmax⟩ := r.lookup_torque (hc.torque (hname ▸ htorque)) p.detailParams
    rw [hw]
    exact ⟨(number_of_lookup hmin).le, (number_of_lookup hmax).ge⟩
  · have hrow := r.row_of_mem hc.mem (hname ▸ hsingle)
    have hcovers := (r.covered_detail fun w hw => (h.windows_ordered w hw).numbers).row
      (hname ▸ hw) hrow
    exact ⟨hcovers.min_le, hcovers.le_max⟩

/-- The torque is in the middle of its range. -/
theorem torque_widened {c : Constraint} (hc : r.torque = some c) :
    ∀ value ∈ (Slot.step "ref_torque").get ⟨r.detail p.detailParams, r.torqueSteps p.stepParams⟩,
      value = .num c.mid := by
  intro value hvalue
  obtain ⟨step', hstep', rfl⟩ := List.mem_map.mp hvalue
  obtain ⟨step, -, -, htorque⟩ := r.exists_of_mem_torqueSteps hstep'
  exact Json.field_of_lookup (htorque c hc) _

/-- Where nothing is stored, the factory decides. -/
theorem breaks_iff_leavesOut {n : ℕ} (hn : n ≠ 0) {c : Constraint} (hc : r.Applies c) {slot : Slot}
    (h : (c.name, slot) ∈ governed)
    (hget : slot.get p = slot.get ⟨r.detail (factoryPayload n).detailParams,
      r.torqueSteps (factoryPayload n).stepParams⟩) : p.Breaks c ↔ c.LeavesOut := by
  by_cases htorque : c.name = "torque"
  · have hslot : ∀ g ∈ governed, g.1 = "torque" → g.2 = .step "ref_torque" := by decide
    have hstep : slot = .step "ref_torque" := hslot _ h htorque
    have hne : slot.get p ≠ [] := by
      rw [hget, hstep, Slot.get, factoryPayload, ConstraintsReply.torqueSteps]
      cases r.torque <;> simp [hn]
    rw [breaks_iff_of_const h hne fun value hvalue => torque_widened (hc.torque htorque) value
      (by rwa [hget, hstep] at hvalue)]
    exact iff_of_false (not_not_intro ⟨c.min_le_mid, c.mid_le_max⟩) fun hout =>
      hout.ne_torque htorque
  · have hvalue : ∀ g ∈ governed, g.1 = "torque" ∨ ∃ v ∈ factoryValues, v.1 = g.1 := by decide
    have hunique : ∀ v ∈ factoryValues, ∀ v' ∈ factoryValues, v.1 = v'.1 → v.2 = v'.2 := by
      decide +kernel
    obtain ⟨v, hv, hvname⟩ := (hvalue _ h).resolve_left htorque
    have hv' : (c.name, v.2) ∈ factoryValues := by
      rw [show c.name = v.1 from hvname.symm]
      exact hv
    rw [get_widened (factoryPayload_related n) _ h htorque] at hget
    rw [breaks_iff_of_const h (hget ▸ get_factoryPayload_ne_nil hn _ h) fun value hvalue =>
      get_factoryPayload n _ h v.2 hv' value (by rwa [hget] at hvalue)]
    constructor
    · exact fun hout => ⟨v.2, hv', hout⟩
    · rintro ⟨q, hq, hout⟩
      rwa [hunique _ hv' _ hq rfl]

end Widened

/-- **Which constraints the payload of a test breaks:** the one that is tested, if it must be
refused, and any other one whose range leaves out a value of the factory.

The code raises nothing on the way, and the payload that is sent has its windows in order around the
values of its steps, so that the backend has no other reason to refuse it. A range for the torque is
not broken by a test of another constraint, since the torque has been put into its middle. -/
theorem breaks_iff (r : ConstraintsReply) (specId : ℤ) {c : Constraint} (hc : r.Applies c)
    {t : Trial} (ht : t ∈ refused c.fields ++ accepted c.fields) (hname : t.name = c.name) :
    ∃ p, t.payload r.fields (payloadOf (t.spec specId)) = .ok p ∧ p.Related ∧
      ∀ c', r.Applies c' →
        (p.Breaks c' ↔ c' = c ∧ t ∈ refused c.fields ∨
          c' ≠ c ∧ c'.name ≠ "torque" ∧ c'.LeavesOut) := by
  obtain ⟨low, high, qs, hrational, hqs⟩ := exists_rational ht
  have hlength : t.values.length = qs.length := by
    rw [hrational.values_eq, List.length_map]
  have hspec := payloadOf_spec t specId (hlength ▸ hrational.length.1)
    (hlength ▸ hrational.length.2)
  have h₀ := factoryPayload_related t.values.length
  have hcovers := covers_widened h₀ hc hrational.place hname
  have hslot : qs.length = (t.slot.get ⟨r.detail (factoryPayload t.values.length).detailParams,
      r.torqueSteps (factoryPayload t.values.length).stepParams⟩).length := by
    rcases slot_cases _ hrational.place with hslot | ⟨check, -, -, hslot⟩
    · rw [hrational.single hslot, show t.slot = .detail t.window.target from hslot]
      rfl
    · rw [show t.slot = .step check.2.2 from hslot, Slot.get, List.length_map,
        length_torqueSteps, factoryPayload, List.length_map, List.length_range, hlength]
  obtain ⟨p, hedit, hrelated, hget, hsame⟩ := exists_edit (h₀.widened r) hrational.place
    hrational.low_eq hrational.high_eq hrational.values_eq hslot fun q hq =>
      ⟨(hrational.low_le q hq).imp_left hcovers.1.trans,
        (hrational.le_high q hq).imp_left fun h => h.trans hcovers.2⟩
  refine ⟨p, ?_, hrelated, fun c' hc' => ?_⟩
  · rw [Trial.payload, hspec, h₀.widen_eq r]
    exact hedit
  · have hplaces : ∀ place ∈ places, (place.1, place.2.2) ∈ governed := by decide
    have htslot : (t.name, t.slot) ∈ governed := hplaces _ hrational.place
    by_cases hsamerow : c' = c
    · rw [hsamerow, breaks_iff_get (hname ▸ htslot), hget, ← hqs]
      simp [allows_num]
    · obtain ⟨g, hg, hgname⟩ := List.mem_map.mp hc'.name
      have hslots : ∀ g ∈ governed, ∀ g' ∈ governed, g.2 = g'.2 → g.1 = g'.1 := by decide
      have hne : g.2 ≠ t.slot := fun heq =>
        hsamerow (hc.eq hc' (by rw [← hgname, hslots g hg _ htslot heq, hname]))
      have hgoverned : (c'.name, g.2) ∈ governed := hgname ▸ hg
      have hn : t.values.length ≠ 0 := by
        have := hrational.length.1
        omega
      have hiff := breaks_iff_leavesOut hn hc' hgoverned (hsame g hg hne)
      simp only [hiff, hsamerow, ne_eq, not_false_eq_true, false_and, true_and, false_or]
      exact ⟨fun hout => ⟨hout.ne_torque, hout⟩, And.right⟩

/-- A range for the velocity. -/
def velRow : Constraint where
  fields := [("paramName", .str "ref_vel"), ("minValue", .num 10), ("maxValue", .num 1500)]
  name := "ref_vel"
  min := 10
  max := 1500
  named := rfl
  minValue_eq := rfl
  maxValue_eq := rfl
  min_le_max := by norm_num

/-- A range for the time that leaves out the default of three seconds. -/
def shortTimeRow : Constraint where
  fields := [("paramName", .str "time_target"), ("minValue", .num 10), ("maxValue", .num 2000)]
  name := "time_target"
  min := 10
  max := 2000
  named := rfl
  minValue_eq := rfl
  maxValue_eq := rfl
  min_le_max := by norm_num

/-- A reply with these rows. -/
def shortTimeReply : ConstraintsReply where
  fields := [("success", .bool true),
    ("constraints", .arr [.obj velRow.fields, .obj shortTimeRow.fields])]
  rows := [velRow, shortTimeRow]
  constraints_eq := rfl
  single := by
    have hcount : ∀ name, ([velRow, shortTimeRow].filter fun c => c.name = name).length ≤ 1 := by
      intro name
      by_cases h : velRow.name = name
      · have hne : ¬shortTimeRow.name = name := by
          rw [← h]
          decide
        simp [h, hne]
      · rw [List.filter_cons_of_neg (by simpa using h)]
        exact List.length_filter_le _ _
    exact fun name _ => hcount name

/-- The velocity is on its boundary, but the payload must be refused: its time is too long. -/
theorem boundary_breaks_time : ∃ p, (refVelBoundary (minValue velRow.fields)).payload
    shortTimeReply.fields (payloadOf (ScrewSpecFactory.default 95)) = .ok p ∧ p.Related ∧
      p.Breaks shortTimeRow := by
  have hvel : shortTimeReply.Applies velRow :=
    ⟨List.mem_cons_self, by decide, fun h => absurd h (by decide)⟩
  have htime : shortTimeReply.Applies shortTimeRow :=
    ⟨List.mem_cons_of_mem _ List.mem_cons_self, by decide, fun h => absurd h (by decide)⟩
  obtain ⟨p, hrun, hrelated, hbreaks⟩ := breaks_iff shortTimeReply 95 hvel
    (t := refVelBoundary (minValue velRow.fields)) (by simp [accepted]) rfl
  have hne : shortTimeRow ≠ velRow := fun h => by
    have hname := congrArg Constraint.name h
    exact absurd hname (by decide)
  have hout : shortTimeRow.LeavesOut :=
    ⟨3000, by simp [factoryValues, shortTimeRow], fun h => absurd h.2 (by norm_num [shortTimeRow])⟩
  exact ⟨p, hrun, hrelated, (hbreaks _ htime).mpr (.inr ⟨hne, hout.ne_torque, hout⟩)⟩

end SasTests.MachineType
