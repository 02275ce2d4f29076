import SasTests.ConstraintPayloads
import SasTests.ConstraintsMap

/-!
# The specifications of the compliance tests

The compliance tests look for two machine types with different limits for the velocity. One
specification is fitted to the constraints of the loose type and gets a velocity between the limits,
and must comply with the loose type and not with the strict one. Another one is fitted to the
constraints of the strict type, without touching the velocity, and must comply with it.

`verdicts_iff` says when a backend that checks all ranges makes these judgements. That the first one
does not comply with the strict type is always the case. What must comply does so exactly if no
range leaves out a value of the factory, the velocity of the second specification included, and if
the torque in the middle of its range is read as a torque in the range: how the backend reads the
torque of a step is left open.
-/

namespace SasTests.MachineType

open Python Helpers
open Json (number HasNumbers number_congr number_of_lookup lookup_number)

/-! ## The code -/

namespace Compliance

/-- The map of `_get_all_constraints_map`, whose rows are dictionaries. -/
def asConstraints (rows : ConstraintsMap.Rows) : Constraints := fun key =>
  match rows key with
  | some (.obj fields) => some fields
  | _ => none

/-- What a test saves: a payload of the factory, fitted to the constraints in the reply `resp`. -/
def saved (resp : Json) (refVelOverride : Option PyFloat) (specId : ℤ) :
    Except PyError Payload := do
  let rows ← ConstraintsMap.getAllConstraintsMap "kgf.cm" resp
  applyTorqueAndVelConstraints (payloadOf (ScrewSpecFactory.default specId)) (asConstraints rows)
    refVelOverride

end Compliance

/-! ## Fitting one step -/

/-- Another window with a value in it; the rest stays. -/
theorem Payload.Related.refit {d d' sp sp' : List (String × Json)} (h : Related ⟨d, [sp]⟩)
    {check : String × Window × String} (hcheck : check ∈ checks) {lo hi target q : ℚ}
    (hmin : d'.lookup check.2.1.min = some (.num lo))
    (hmax : d'.lookup check.2.1.max = some (.num hi))
    (htarget : d'.lookup check.2.1.target = some (.num target))
    (hstep : sp'.lookup check.2.2 = some (.num q))
    (hlo : lo ≤ target) (hhi : target ≤ hi) (hloq : lo ≤ q) (hqhi : q ≤ hi)
    (hsame : ∀ w ∈ safetyWindows, w ≠ check.2.1 → ∀ key ∈ w.keys, d'.lookup key = d.lookup key)
    (hother : ∀ other ∈ checks, other.2.2 ≠ check.2.2 →
      sp'.lookup other.2.2 = sp.lookup other.2.2) : Related ⟨d', [sp']⟩ := by
  have hwindows : ∀ q ∈ checks, q.2.1 ∈ safetyWindows := by decide
  have hkeys : ∀ q ∈ checks, ∀ q' ∈ checks, (q.2.1 = q'.2.1 ↔ q.2.2 = q'.2.2) := by decide
  refine ⟨fun w hw => ?_, fun other hmem step hsteps => ?_⟩
  · by_cases heq : w = check.2.1
    · rw [heq]
      exact ordered_of_lookup hmin hmax htarget hlo hhi
    · exact (h.ordered w hw).congr (hsame w hw heq)
  · rw [List.mem_singleton.mp hsteps]
    by_cases heq : other.2.2 = check.2.2
    · rw [(hkeys other hmem check hcheck).mpr heq, heq]
      exact within_of_lookup hmin hmax hstep hloq hqhi
    · have hwindow : other.2.1 ≠ check.2.1 := mt (hkeys other hmem check hcheck).mp heq
      have hnumber : ∀ key ∈ other.2.1.keys, number d' key = number d key := fun key hkey =>
        number_congr (hsame other.2.1 (hwindows other hmem) hwindow key hkey)
      have hold := h.within other hmem sp (List.mem_singleton_self sp)
      refine Within.congr ⟨hold.lookup, ?_, ?_⟩ (hother other hmem heq)
      · rw [hnumber _ (by simp [Window.keys])]
        exact hold.min_le
      · rw [hnumber _ (by simp [Window.keys])]
        exact hold.le_max

/-- Only the items of the clamp are new. -/
theorem lookup_update_clampItems (cmin cmax : Option (List (String × Json)))
    (d : List (String × Json)) {w : Window} (hw : w ∈ safetyWindows) :
    ∀ key ∈ w.keys, (Json.update d (clampItems cmin cmax)).lookup key = d.lookup key := by
  have hkeys : ∀ w ∈ safetyWindows, ∀ key ∈ w.keys, key ∉ clampKeys := by decide
  intro key hkey
  have hnotMem : key ∉ (clampItems cmin cmax).map Prod.fst := fun h =>
    hkeys w hw key hkey ((clampItems_keys cmin cmax).subset h)
  exact Json.lookup_update_of_notMem hnotMem d

/-- A step and the details around it, after the torque row and those of the clamp. -/
def fittedDetail (tc : Option Constraint) (cmin cmax : Option (List (String × Json)))
    (d : List (String × Json)) : List (String × Json) :=
  Json.update (Json.update d (((tc.map Constraint.fields).map applyTorqueItems).getD []))
    (clampItems cmin cmax)

def fittedStep (tc : Option Constraint) (sp : List (String × Json)) : List (String × Json) :=
  tc.elim sp fun c => Json.assign "ref_torque" (.num c.mid) sp

theorem applyTorqueItems_eq (c : Constraint) : applyTorqueItems c.fields =
    [("torque_target", .num c.mid), ("torque_min", .num c.min), ("torque_max", .num c.max)] := by
  rw [applyTorqueItems, c.midValue_eq, c.minValue_eq, c.maxValue_eq]
  rfl

/-- The other windows stay. -/
theorem lookup_fittedDetail (tc : Option Constraint) (cmin cmax : Option (List (String × Json)))
    (d : List (String × Json)) {w : Window} (hw : w ∈ safetyWindows) (hne : w ≠ torqueWindow) :
    ∀ key ∈ w.keys, (fittedDetail tc cmin cmax d).lookup key = d.lookup key := by
  have hkeys : ∀ w ∈ safetyWindows, w ≠ torqueWindow → ∀ key ∈ w.keys,
      key ∉ ["torque_target", "torque_min", "torque_max"] := by decide
  intro key hkey
  rw [fittedDetail, lookup_update_clampItems cmin cmax _ hw key hkey]
  cases tc with
  | none => rfl
  | some c =>
    refine Json.lookup_update_of_notMem ?_ d
    rw [Option.map_some, Option.map_some, Option.getD_some, applyTorqueItems_eq]
    exact hkeys w hw hne key hkey

/-- The torque is in the middle of its window. -/
theorem Payload.Related.fitTorque {d sp : List (String × Json)} (h : Related ⟨d, [sp]⟩)
    (tc : Option Constraint) (cmin cmax : Option (List (String × Json))) :
    Related ⟨fittedDetail tc cmin cmax d, [fittedStep tc sp]⟩ := by
  have hclamp := fun w hw => lookup_update_clampItems cmin cmax
    (Json.update d (((tc.map Constraint.fields).map applyTorqueItems).getD [])) (w := w) hw
  have hwindows : ∀ q ∈ checks, q.2.1 ∈ safetyWindows := by decide
  cases tc with
  | none =>
    refine ⟨fun w hw => (h.ordered w hw).congr (hclamp w hw), fun q hq step hstep => ?_⟩
    have hold := h.within q hq step hstep
    have hnumber := fun key hkey => number_congr (hclamp q.2.1 (hwindows q hq) key hkey)
    refine ⟨hold.lookup, ?_, ?_⟩
    · rw [fittedDetail, hnumber _ (by simp [Window.keys])]
      exact hold.min_le
    · rw [fittedDetail, hnumber _ (by simp [Window.keys])]
      exact hold.le_max
  | some c =>
    have hnodup : ((applyTorqueItems c.fields).map Prod.fst).Nodup := by
      rw [applyTorqueItems_eq]
      exact (by decide : ["torque_target", "torque_min", "torque_max"].Nodup)
    have htorque : ∀ p ∈ applyTorqueItems c.fields, p.1 ∈ torqueWindow.keys →
        (fittedDetail (some c) cmin cmax d).lookup p.1 = some p.2 := by
      intro p hp hkey
      rw [fittedDetail, hclamp torqueWindow (by decide) p.1 hkey]
      exact Json.lookup_update_of_mem hp hnodup d
    simp only [applyTorqueItems_eq, List.forall_mem_cons] at htorque
    exact h.refit
      (by decide : ("torque_check_enable", torqueWindow, "ref_torque") ∈ checks)
      (htorque.2.1 (by decide)) (htorque.2.2.1 (by decide)) (htorque.1 (by decide))
      (Json.lookup_assign_self ..) c.min_le_mid c.mid_le_max c.min_le_mid c.mid_le_max
      (fun w hw hne => lookup_fittedDetail (some c) cmin cmax d hw hne)
      fun other _ hne => Json.lookup_assign_of_ne _ _ hne

/-- What `ref_vel_override` assigns. -/
def velDetail (v : ℚ) (d : List (String × Json)) : List (String × Json) :=
  Json.assign "vel_min" (.num (min (number d "vel_min") v))
    (Json.assign "vel_max" (.num (max (number d "vel_max") v))
      (Json.assign "vel_target" (.num v) d))

def velStep (v : ℚ) (sp : List (String × Json)) : List (String × Json) :=
  Json.assign "to_vel" (.num v) (Json.assign "ref_vel" (.num v) sp)

theorem applyVel_eq {d : List (String × Json)} (h : HasNumbers d velWindow.keys) (v : ℚ)
    (sp : List (String × Json)) :
    applyVel (.finite v) d sp = .ok (velDetail v d, velStep v sp) := by
  have hmax : Json.field (Json.assign "vel_target" (.num v) d) "vel_max" (int 300) =
      .num (number d "vel_max") := by
    rw [Json.field_assign_of_ne _ _ _ (by decide), Json.field_of_lookup (h "vel_max" (by decide))]
  have hmin : ∀ v', Json.field (Json.assign "vel_max" v' (Json.assign "vel_target" (.num v) d))
      "vel_min" (int 100) = .num (number d "vel_min") := fun v' => by
    rw [Json.field_assign_of_ne _ _ _ (by decide), Json.field_assign_of_ne _ _ _ (by decide),
      Json.field_of_lookup (h "vel_min" (by decide))]
  have hgreater : (if number d "vel_max" < v then Json.num v else .num (number d "vel_max")) =
      .num (max (number d "vel_max") v) := by
    rw [max_def_lt, apply_ite Json.num]
  have hless : (if v < number d "vel_min" then Json.num v else .num (number d "vel_min")) =
      .num (min (number d "vel_min") v) := by
    rw [min_comm, min_def_lt, apply_ite Json.num]
  simp only [applyVel, PyFloat.toJson, hmax, hmin, velDetail, velStep, ← hgreater, ← hless]
  simp [bind, Except.bind, pure, Except.pure]

/-- The velocity is in its window, which is stretched to it. -/
theorem Payload.Related.fitVel {d sp : List (String × Json)} (h : Related ⟨d, [sp]⟩) (v : ℚ) :
    Related ⟨velDetail v d, [velStep v sp]⟩ := by
  have hkeys : ∀ w ∈ safetyWindows, w ≠ velWindow → ∀ key ∈ w.keys,
      key ≠ "vel_min" ∧ key ≠ "vel_max" ∧ key ≠ "vel_target" := by decide
  have hmax : (velDetail v d).lookup "vel_max" = some (.num (max (number d "vel_max") v)) := by
    rw [velDetail, Json.lookup_assign_of_ne _ _ (by decide)]
    exact Json.lookup_assign_self ..
  have htarget : (velDetail v d).lookup "vel_target" = some (.num v) := by
    rw [velDetail, Json.lookup_assign_of_ne _ _ (by decide),
      Json.lookup_assign_of_ne _ _ (by decide)]
    exact Json.lookup_assign_self ..
  have hstep : (velStep v sp).lookup "ref_vel" = some (.num v) := by
    rw [velStep, Json.lookup_assign_of_ne _ _ (by decide)]
    exact Json.lookup_assign_self ..
  have hother : ∀ other ∈ checks, other.2.2 ≠ "to_vel" := by decide
  refine h.refit (by decide : ("vel_check_enable", velWindow, "ref_vel") ∈ checks)
    (Json.lookup_assign_self ..) hmax htarget hstep (min_le_right _ _) (le_max_right _ _)
    (min_le_right _ _) (le_max_right _ _) (fun w hw hne key hkey => ?_) fun other hmem hne => ?_
  · obtain ⟨hnemin, hnemax, hnetarget⟩ := hkeys w hw hne key hkey
    rw [velDetail, Json.lookup_assign_of_ne _ _ hnemin, Json.lookup_assign_of_ne _ _ hnemax,
      Json.lookup_assign_of_ne _ _ hnetarget]
  · rw [velStep, Json.lookup_assign_of_ne _ _ (hother other hmem), Json.lookup_assign_of_ne _ _ hne]

/-- `_apply_torque_and_vel_constraints` for a payload of one step: the torque first, then the
velocity. -/
theorem Payload.Related.apply_eq {d sp : List (String × Json)} (h : Related ⟨d, [sp]⟩)
    {constraints : Constraints} {tc : Option Constraint}
    (htc : constraints (.str "torque") = tc.map Constraint.fields) (vel : Option ℚ) :
    ∃ d₁, Related ⟨d₁, [fittedStep tc sp]⟩ ∧ d₁.lookup "time_target" = d.lookup "time_target" ∧
      applyTorqueAndVelConstraints ⟨d, [sp]⟩ constraints (vel.map .finite) =
        .ok (vel.elim ⟨d₁, [fittedStep tc sp]⟩ fun v =>
          ⟨velDetail v d₁, [velStep v (fittedStep tc sp)]⟩) := by
  have hrow : ((constraints (.str "torque")).filter fun c => !c.isEmpty) =
      tc.map Constraint.fields := by
    rw [htc]
    cases tc with
    | none => rfl
    | some c => simp [Option.filter, c.fields_ne_nil]
  refine ⟨_, h.fitTorque tc ((constraints (.str "clamp_torque_min")).filter fun c => !c.isEmpty)
    ((constraints (.str "clamp_torque_max")).filter fun c => !c.isEmpty), ?_, ?_⟩
  · exact lookup_fittedDetail _ _ _ _ (w := timeWindow) (by decide) (by decide) _ (by decide)
  · have hrelated := h.fitTorque tc
      ((constraints (.str "clamp_torque_min")).filter fun c => !c.isEmpty)
      ((constraints (.str "clamp_torque_max")).filter fun c => !c.isEmpty)
    have hvel := fun v sp => applyVel_eq (hrelated.ordered velWindow (by decide)).numbers v sp
    have hmid : ∀ c : Constraint, (midValue c.fields).toJson = .num c.mid := fun c => by
      rw [c.midValue_eq]
      rfl
    cases vel with
    | none =>
      cases tc with
      | none =>
        simp only [applyTorqueAndVelConstraints, hrow]
        rfl
      | some c =>
        simp only [applyTorqueAndVelConstraints, hrow, Option.map_some, hmid]
        rfl
    | some v =>
      have hrun := hvel v (fittedStep tc sp)
      cases tc with
      | none =>
        simp only [applyTorqueAndVelConstraints, hrow]
        exact congrArg (fun r => r >>= fun x => .ok (⟨x.1, [x.2]⟩ : Payload)) hrun
      | some c =>
        simp only [applyTorqueAndVelConstraints, hrow, Option.map_some, hmid]
        exact congrArg (fun r => r >>= fun x => .ok (⟨x.1, [x.2]⟩ : Payload)) hrun

/-! ## The row for the torque -/

/-- The row of a constraint, for `_get_all_constraints_map`. -/
def Constraint.toRow (c : Constraint) : ConstraintsMap.Row where
  fields := c.fields
  named := by
    rw [Json.field_of_lookup c.named]
    rfl

/-- Is the row in kgf.cm? -/
def Constraint.inKgfcm (c : Constraint) : Bool :=
  (Json.field c.fields "torqueUnit").eqStr "kgf.cm"

theorem Constraint.isNamed_toRow (c : Constraint) {name : String} (hname : name ≠ "") :
    c.toRow.isNamed (.str name) = decide (c.name = name) := by
  rw [ConstraintsMap.Row.isNamed, ConstraintsMap.Row.name, Constraint.toRow,
    Json.field_of_lookup c.named]
  by_cases hempty : c.name = ""
  · rw [hempty]
    simp [Json.truthy, hname.symm]
  · simp [Json.truthy, Json.key, Except.toOption, hempty]

namespace ConstraintsReply

variable (r : ConstraintsReply)

/-- The torque row in kgf.cm, the unit of the payloads of the factory. -/
def kgfcm : Option Constraint := r.rows.find? fun c => c.name = "torque" && c.inKgfcm

/-- The torque row that a payload is fitted to. -/
def fitting : Option Constraint := r.kgfcm.or (r.rows.find? fun c => c.name = "torque")

theorem fitting_of_kgfcm {c : Constraint} (h : r.kgfcm = some c) : r.fitting = some c := by
  rw [fitting, h, Option.some_or]

/-- The reply, for `_get_all_constraints_map`. -/
def toReply (h : (Json.field r.fields "success").truthy = true) : ConstraintsMap.Reply where
  fields := r.fields
  rows := r.rows.map Constraint.toRow
  success := h
  constraints := by
    rw [r.constraints_eq, List.map_map]
    rfl

theorem exists_map (h : (Json.field r.fields "success").truthy = true) : ∃ rows,
    ConstraintsMap.getAllConstraintsMap "kgf.cm" (.obj r.fields) = .ok rows ∧
      Compliance.asConstraints rows (.str "torque") = r.fitting.map Constraint.fields := by
  refine ⟨_, ConstraintsMap.getAllConstraintsMap_eq "kgf.cm" (r.toReply h), ?_⟩
  have hnamed : ∀ c : Constraint, decide (c.toRow.name = some (.str "torque")) =
      decide (c.name = "torque") := fun c => c.isNamed_toRow (by decide)
  have hunit : ∀ c : Constraint, c.toRow.hasUnit "kgf.cm" = c.inKgfcm := fun c => rfl
  have htable : ConstraintsMap.table "kgf.cm" (r.toReply h).rows (some (.str "torque")) =
      r.fitting.map Constraint.toRow := by
    rw [ConstraintsMap.table, Table.fill_prefer, toReply, List.find?_map, List.find?_map,
      fitting, Option.map_or, kgfcm]
    simp only [Function.comp_def, hnamed, hunit]
  rw [Compliance.asConstraints, htable]
  cases r.fitting with
  | none => rfl
  | some c => rfl

end ConstraintsReply

/-! ## What the saved payload has -/

/-- The values of the payload `p`, which was fitted with `vel` to the torque row `tc`. -/
structure Saved (p : Payload) (tc : Option Constraint) (vel : Option ℚ) : Prop where
  related : p.Related
  ref_vel : (Slot.step "ref_vel").get p = [.num (vel.getD 180)]
  time_target : (Slot.detail "time_target").get p = [.num 3000]
  ref_time : (Slot.step "ref_time").get p = [.num 3000]
  ref_degree : (Slot.step "ref_degree").get p = [.num 180]
  ref_torque : ∀ c, tc = some c → (Slot.step "ref_torque").get p = [.num c.mid]

theorem lookup_fittedStep (tc : Option Constraint) (sp : List (String × Json)) {key : String}
    (h : key ≠ "ref_torque") : (fittedStep tc sp).lookup key = sp.lookup key := by
  cases tc with
  | none => rfl
  | some c => exact Json.lookup_assign_of_ne _ _ h

theorem lookup_velStep (v : ℚ) (sp : List (String × Json)) {key : String} (h : key ≠ "to_vel")
    (h' : key ≠ "ref_vel") : (velStep v sp).lookup key = sp.lookup key := by
  rw [velStep, Json.lookup_assign_of_ne _ _ h, Json.lookup_assign_of_ne _ _ h']

theorem get_step_singleton {d sp : List (String × Json)} {key : String} {value : Json}
    (h : sp.lookup key = some value) : (Slot.step key).get ⟨d, [sp]⟩ = [value] :=
  congrArg (fun v => [v]) (Json.field_of_lookup h _)

theorem get_detail {d : List (String × Json)} {steps : List (List (String × Json))} {key : String}
    {value : Json} (h : d.lookup key = some value) : (Slot.detail key).get ⟨d, steps⟩ = [value] :=
  congrArg (fun v => [v]) (Json.field_of_lookup h _)

theorem exists_saved (r : ConstraintsReply) (h : (Json.field r.fields "success").truthy = true)
    (vel : Option ℚ) (specId : ℤ) :
    ∃ p, Compliance.saved (.obj r.fields) (vel.map .finite) specId = .ok p ∧
      Saved p r.fitting vel := by
  obtain ⟨rows, hrows, htorque⟩ := r.exists_map h
  obtain ⟨d, hd, htime, hrun⟩ := (factoryPayload_related 1).apply_eq htorque vel
  have hcode : ∀ {p}, applyTorqueAndVelConstraints (factoryPayload 1)
      (Compliance.asConstraints rows) (vel.map .finite) = .ok p →
        Compliance.saved (.obj r.fields) (vel.map .finite) specId = .ok p := by
    intro p hp
    rw [Compliance.saved, hrows]
    exact hp
  have hmid : ∀ c, r.fitting = some c →
      (fittedStep r.fitting (ScrewSpecFactory.baseStep 0 [])).lookup "ref_torque" =
        some (.num c.mid) := by
    intro c hc
    rw [hc]
    exact Json.lookup_assign_self ..
  have hstep := fun {key : String} (hne : key ≠ "ref_torque") =>
    lookup_fittedStep r.fitting (ScrewSpecFactory.baseStep 0 []) hne
  cases vel with
  | none =>
    exact ⟨_, hcode hrun, hd, get_step_singleton (hstep (by decide)), get_detail htime,
      get_step_singleton (hstep (by decide)), get_step_singleton (hstep (by decide)),
      fun c hc => get_step_singleton (hmid c hc)⟩
  | some v =>
    have hvel : (velStep v (fittedStep r.fitting (ScrewSpecFactory.baseStep 0 []))).lookup
        "ref_vel" = some (.num v) := by
      rw [velStep, Json.lookup_assign_of_ne _ _ (by decide)]
      exact Json.lookup_assign_self ..
    have hsame := fun {key : String} (h : key ≠ "to_vel") (h' : key ≠ "ref_vel") =>
      lookup_velStep v (fittedStep r.fitting (ScrewSpecFactory.baseStep 0 [])) h h'
    have htarget : (velDetail v d).lookup "time_target" = d.lookup "time_target" := by
      rw [velDetail, Json.lookup_assign_of_ne _ _ (by decide),
        Json.lookup_assign_of_ne _ _ (by decide), Json.lookup_assign_of_ne _ _ (by decide)]
    refine ⟨_, hcode hrun, hd.fitVel v, get_step_singleton hvel, get_detail (htarget.trans htime),
      get_step_singleton ?_, get_step_singleton ?_, fun c hc => get_step_singleton ?_⟩
    · exact (hsame (by decide) (by decide)).trans (hstep (by decide))
    · exact (hsame (by decide) (by decide)).trans (hstep (by decide))
    · exact (hsame (by decide) (by decide)).trans (hmid c hc)

/-! ## Judgements -/

/-- The values that the constraint is about are in its range; `read` says how the backend reads the
torque of a step. -/
def Payload.Meets (read : ℚ → ℚ) (p : Payload) (c : Constraint) : Prop :=
  ∀ slot, (c.name, slot) ∈ governed → ∀ value ∈ slot.get p,
    ∃ q, value = .num q ∧ c.InRange (if c.name = "torque" then read q else q)

/-- A constraint on the values of a payload; a torque row applies in kgf.cm. -/
structure ConstraintsReply.Governs (r : ConstraintsReply) (c : Constraint) : Prop where
  mem : c ∈ r.rows
  name : c.name ∈ governed.map Prod.fst
  torque : c.name = "torque" → r.kgfcm = some c

/-- The payload complies with the constraints in the reply. -/
def Payload.Complies (read : ℚ → ℚ) (p : Payload) (r : ConstraintsReply) : Prop :=
  ∀ c, r.Governs c → p.Meets read c

/-- The range has the value of the factory in it, and the torque in its middle is read as one in
the range. -/
structure Constraint.Suits (read : ℚ → ℚ) (c : Constraint) : Prop where
  factory : ¬c.LeavesOut
  torque : c.name = "torque" → c.InRange (read c.mid)

/-- A constraint on one value. -/
theorem meets_iff_of_get {read : ℚ → ℚ} {p : Payload} {c : Constraint} {slot : Slot} {q : ℚ}
    (h : (c.name, slot) ∈ governed) (hget : slot.get p = [.num q]) :
    p.Meets read c ↔ c.InRange (if c.name = "torque" then read q else q) := by
  have hunique : ∀ g ∈ governed, ∀ g' ∈ governed, g.1 = g'.1 → g.2 = g'.2 := by decide
  constructor
  · intro hmeets
    obtain ⟨q', hq', hin⟩ := hmeets slot h (.num q) (by rw [hget]; exact List.mem_singleton_self _)
    obtain rfl := Json.num.inj hq'
    exact hin
  · intro hin slot' h' value hvalue
    obtain rfl : slot = slot' := hunique _ h _ h' rfl
    rw [hget] at hvalue
    exact ⟨q, List.mem_singleton.mp hvalue, hin⟩

/-- A constraint for which the factory has one value. -/
theorem suits_iff {read : ℚ → ℚ} {c : Constraint} {q : ℚ} (h : (c.name, q) ∈ factoryValues) :
    c.Suits read ↔ c.InRange q := by
  have hunique : ∀ v ∈ factoryValues, ∀ v' ∈ factoryValues, v.1 = v'.1 → v.2 = v'.2 := by
    decide +kernel
  have htorque : ∀ v ∈ factoryValues, v.1 ≠ "torque" := by decide
  constructor
  · intro hsuits
    by_contra hout
    exact hsuits.factory ⟨q, h, hout⟩
  · refine fun hin => ⟨?_, fun heq => absurd heq (htorque _ h)⟩
    rintro ⟨q', h', hout⟩
    obtain rfl : q' = q := hunique _ h' _ h rfl
    exact hout hin

section

variable {read : ℚ → ℚ} {p : Payload} {r : ConstraintsReply} {vel : Option ℚ} {c : Constraint}

/-- The velocity. -/
theorem Saved.meets_vel {tc : Option Constraint} (h : Saved p tc vel) (hname : c.name = "ref_vel") :
    p.Meets read c ↔ c.InRange (vel.getD 180) := by
  have hgoverned : (c.name, Slot.step "ref_vel") ∈ governed := by
    rw [hname]
    decide
  rw [meets_iff_of_get hgoverned h.ref_vel, if_neg (by rw [hname]; decide)]

/-- The other values are those of the factory, except for the torque. -/
theorem Saved.meets_iff (h : Saved p r.fitting vel) (hc : r.Governs c)
    (hname : c.name ≠ "ref_vel") : p.Meets read c ↔ c.Suits read := by
  have hfactory : ∀ {name slot q}, c.name = name → (name, slot) ∈ governed →
      (name, q) ∈ factoryValues → slot.get p = [.num q] → (p.Meets read c ↔ c.Suits read) := by
    rintro name slot q rfl hgoverned hvalue hget
    have htorque : ∀ v ∈ factoryValues, v.1 ≠ "torque" := by decide
    rw [meets_iff_of_get hgoverned hget, if_neg (htorque _ hvalue), suits_iff hvalue]
  have hnames := hc.name
  simp only [governed, List.map_cons, List.map_nil, List.mem_cons, List.not_mem_nil, or_false]
    at hnames
  rcases hnames with hvel | htime | htime | hdegree | htorque
  · exact absurd hvel hname
  · exact hfactory htime (by decide) (by simp [factoryValues]) h.time_target
  · exact hfactory htime (by decide) (by simp [factoryValues]) h.ref_time
  · exact hfactory hdegree (by decide) (by simp [factoryValues]) h.ref_degree
  · have hgoverned : (c.name, Slot.step "ref_torque") ∈ governed := by
      rw [htorque]
      decide
    have hget := h.ref_torque c (r.fitting_of_kgfcm (hc.torque htorque))
    have hvalues : ∀ v ∈ factoryValues, v.1 ≠ "torque" := by decide
    rw [meets_iff_of_get hgoverned hget, if_pos htorque]
    refine ⟨fun hin => ⟨?_, fun _ => hin⟩, fun hsuits => hsuits.torque htorque⟩
    rintro ⟨q, hq, -⟩
    exact hvalues _ hq htorque

end

/-! ## The tests -/

namespace Compliance

/-- A machine type of the listing, with a row for the velocity. -/
structure Listed where
  id : Json
  reply : ConstraintsReply
  success : (Json.field reply.fields "success").truthy = true
  /-- the row for the velocity -/
  vel : Constraint
  mem : vel ∈ reply.rows
  name : vel.name = "ref_vel"

/-- What `_find_machine_type_constraints` finds of it. -/
def Listed.toRationalMatch (m : Listed) : RationalMatch where
  toMatch := (m.id, m.vel.fields)
  min := m.vel.min
  max := m.vel.max
  minValue_eq := m.vel.minValue_eq
  maxValue_eq := m.vel.maxValue_eq
  min_le_max := m.vel.min_le_max

/-- The row for the velocity applies. -/
theorem Listed.governs_vel (m : Listed) : m.reply.Governs m.vel :=
  ⟨m.mem, by rw [m.name]; decide, fun h => absurd (m.name.symm.trans h) (by decide)⟩

/-- There is no other one. -/
theorem Listed.eq_vel {m : Listed} {c : Constraint} (hc : m.reply.Governs c)
    (hname : c.name = "ref_vel") : c = m.vel := by
  have hrow := m.reply.row_of_mem hc.mem (by rw [hname]; decide)
  have hvel := m.reply.row_of_mem m.mem (by rw [m.name]; decide)
  rw [hname] at hrow
  rw [m.name] at hvel
  exact Option.some.inj (hrow.symm.trans hvel)

/-- Fitted to its own constraints, without touching the velocity. -/
theorem complies_of_none {read : ℚ → ℚ} {r : ConstraintsReply} {p : Payload}
    (h : Saved p r.fitting none) :
    p.Complies read r ↔ ∀ c, r.Governs c → c.Suits read := by
  refine forall₂_congr fun c hc => ?_
  by_cases hname : c.name = "ref_vel"
  · have hvalue : (c.name, (180 : ℚ)) ∈ factoryValues := by
      rw [hname]
      simp [factoryValues]
    rw [h.meets_vel hname, suits_iff hvalue, Option.getD_none]
  · exact h.meets_iff hc hname

/-- Fitted to its own constraints, with a velocity in the range. -/
theorem complies_of_some {read : ℚ → ℚ} {m : Listed} {v : ℚ} {p : Payload}
    (h : Saved p m.reply.fitting (some v)) (hv : m.vel.InRange v) :
    p.Complies read m.reply ↔ ∀ c, m.reply.Governs c → c.name = "ref_vel" ∨ c.Suits read := by
  refine forall₂_congr fun c hc => ?_
  by_cases hname : c.name = "ref_vel"
  · rw [h.meets_vel hname, Listed.eq_vel hc hname]
    exact iff_of_true hv (.inl m.name)
  · rw [h.meets_iff hc hname, or_iff_right hname]

/-- Fitted to the constraints of another type, with a velocity out of the range. -/
theorem not_complies_of_some {read : ℚ → ℚ} {m : Listed} {tc : Option Constraint} {v : ℚ}
    {p : Payload} (h : Saved p tc (some v)) (hv : ¬m.vel.InRange v) : ¬p.Complies read m.reply :=
  fun hcomplies => hv ((h.meets_vel m.name).mp (hcomplies m.vel m.governs_vel))

/-- **When the compliance tests get the judgements that they expect**, of a backend that checks all
ranges.

The first payload is fitted to the loose type and has the velocity between the limits, the second is
fitted to the strict type and keeps the velocity of the factory. Nothing is raised, and both have
their windows in order around the values of their step. That the first does not comply with the
strict type needs no assumption. That it complies with the loose one, and the second with the strict
one, depends on what was not fitted: the values of the factory, and the torque, which is in the
middle of its range but may be read in another unit (`read`). Of the rows for the torque the first
one in kgf.cm counts, the unit of the payloads (`Governs`). -/
theorem verdicts_iff (read : ℚ → ℚ) (types : List Listed) {found found' : Match}
    (hpick : pickTwoMachineTypesWithDifferentMax
      (types.map fun m => m.toRationalMatch.toMatch) = some (found, found')) (specId : ℤ) :
    ∃ strict ∈ types, ∃ loose ∈ types, strict.toRationalMatch.toMatch = found ∧
      loose.toRationalMatch.toMatch = found' ∧ ∃ p p',
        saved (.obj loose.reply.fields) (some (candidate found found')) specId = .ok p ∧
        saved (.obj strict.reply.fields) none specId = .ok p' ∧ p.Related ∧ p'.Related ∧
        ¬p.Complies read strict.reply ∧
        (p.Complies read loose.reply ↔
          ∀ c, loose.reply.Governs c → c.name = "ref_vel" ∨ c.Suits read) ∧
        (p'.Complies read strict.reply ↔ ∀ c, strict.reply.Governs c → c.Suits read) := by
  have hmap : (types.map fun m => m.toRationalMatch.toMatch) =
      (types.map Listed.toRationalMatch).map RationalMatch.toMatch := by
    rw [List.map_map]
    rfl
  rw [hmap, RationalMatch.compliance_pick] at hpick
  rcases RationalMatch.pickOuter_cases (types.map Listed.toRationalMatch) with
    ⟨hnone, -⟩ | ⟨s, hs, l, hl, hsome, -, hlt, -⟩
  · rw [hnone] at hpick
    cases hpick
  · rw [hsome] at hpick
    obtain ⟨rfl, rfl⟩ := Prod.mk.inj (Option.some.inj hpick)
    obtain ⟨strict, hstrict, rfl⟩ := List.mem_map.mp hs
    obtain ⟨loose, hloose, rfl⟩ := List.mem_map.mp hl
    obtain ⟨hmin, hmax, habove⟩ := RationalMatch.clamped_separates hlt
    obtain ⟨p, hp, hsaved⟩ := exists_saved loose.reply loose.success
      (some (RationalMatch.clamped strict.toRationalMatch loose.toRationalMatch)) specId
    obtain ⟨p', hp', hsaved'⟩ := exists_saved strict.reply strict.success none specId
    refine ⟨strict, hstrict, loose, hloose, rfl, rfl, p, p', ?_, hp', hsaved.related,
      hsaved'.related, not_complies_of_some hsaved fun hv => ?_,
      complies_of_some hsaved ⟨hmin, hmax⟩, complies_of_none hsaved'⟩
    · rw [RationalMatch.compliance_candidate]
      exact hp
    · exact absurd hv.2 (not_le.mpr habove)

/-- A smaller range for the velocity. -/
def smallVelRow : Constraint where
  fields := [("paramName", .str "ref_vel"), ("minValue", .num 10), ("maxValue", .num 200)]
  name := "ref_vel"
  min := 10
  max := 200
  named := rfl
  minValue_eq := rfl
  maxValue_eq := rfl
  min_le_max := by norm_num

/-- A machine type with one row. -/
def listedWith (id : ℚ) (vel : Constraint) (h : vel.name = "ref_vel") : Listed where
  id := .num id
  reply :=
    { fields := [("success", .bool true), ("constraints", .arr [.obj vel.fields])]
      rows := [vel]
      constraints_eq := rfl
      single := fun _ _ => List.length_filter_le .. }
  success := rfl
  vel := vel
  mem := List.mem_singleton_self vel
  name := h

/-- Two machine types. -/
def twoTypes : List Listed := [listedWith 1 smallVelRow rfl, listedWith 2 velRow rfl]

/-- All judgements are as expected. -/
theorem verdicts_twoTypes : ∃ strict ∈ twoTypes, ∃ loose ∈ twoTypes, ∃ p p' : Payload,
    saved (.obj loose.reply.fields) (some (candidate strict.toRationalMatch.toMatch
      loose.toRationalMatch.toMatch)) 112 = .ok p ∧
    saved (.obj strict.reply.fields) none 112 = .ok p' ∧ ¬p.Complies id strict.reply ∧
      p.Complies id loose.reply ∧ p'.Complies id strict.reply := by
  have hsuits : ∀ m ∈ twoTypes, ∀ c, m.reply.Governs c → c.Suits id := by
    have hsmall : smallVelRow.Suits id :=
      (suits_iff (q := 180) (by simp [factoryValues, smallVelRow])).mpr
        (by norm_num [Constraint.InRange, smallVelRow])
    have hlarge : velRow.Suits id :=
      (suits_iff (q := 180) (by simp [factoryValues, velRow])).mpr
        (by norm_num [Constraint.InRange, velRow])
    simp only [twoTypes, List.forall_mem_cons]
    refine ⟨fun c hc => ?_, fun c hc => ?_, List.forall_mem_nil _⟩
    · rwa [List.mem_singleton.mp hc.mem]
    · rwa [List.mem_singleton.mp hc.mem]
  obtain ⟨found, hpick⟩ : ∃ found, pickTwoMachineTypesWithDifferentMax
      (twoTypes.map fun m => m.toRationalMatch.toMatch) = some found := by
    rcases RationalMatch.pickOuter_cases (twoTypes.map Listed.toRationalMatch) with
      ⟨-, hshort | hsame⟩ | ⟨s, -, l, -, hsome, -⟩
    · exact absurd hshort (by decide)
    · have heq : (200 : ℚ) = 1500 := hsame _ List.mem_cons_self _
        (List.mem_cons_of_mem _ List.mem_cons_self)
      norm_num at heq
    · exact ⟨_, (RationalMatch.compliance_pick (twoTypes.map Listed.toRationalMatch)).trans hsome⟩
  obtain ⟨strict, hstrict, loose, hloose, hs, hl, p, p', hp, hp', -, -, hnot, hiff, hiff'⟩ :=
    verdicts_iff id twoTypes hpick 112
  rw [← hs, ← hl] at hp
  exact ⟨strict, hstrict, loose, hloose, p, p', hp, hp', hnot,
    hiff.mpr fun c hc => .inr (hsuits loose hloose c hc), hiff'.mpr (hsuits strict hstrict)⟩

end Compliance

end SasTests.MachineType
