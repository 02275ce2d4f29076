import SasTests.FactoryPayloads
import SasTests.WidenSafety

/-!
# The unit of the torque of a step

A step carries its `ref_torque` in N·m, whatever the unit of the constraints: the tests of the unit
convert the middle of a range in kgf.cm before they send it (`_safe_mid_nm`). The two helpers that
fit a payload to the constraints, `_widen_safety_for_constraints` and
`_apply_torque_and_vel_constraints`, store the middle of the range as it is. `never_fits` says that
the backend then never reads a torque in the range.
-/

namespace SasTests.MachineType

open Python Helpers
open Json (number HasNumbers number_of_lookup lookup_number)

/-! ## The code -/

/-- `UNIT_KGFCM_TO_NM` -/
def unitKgfcmToNm : ℚ := 0.0980665

/-- `_safe_mid_nm` -/
def safeMidNm (constraintMin constraintMax : ℚ) : ℚ :=
  (constraintMin + constraintMax) / 2 * unitKgfcmToNm

/-- What `dp` is assigned for the torque row. -/
def applyTorqueItems (tc : List (String × Json)) : List (String × Json) :=
  [("torque_target", (midValue tc).toJson), ("torque_min", (minValue tc).toJson),
    ("torque_max", (maxValue tc).toJson)]

/-- What `_apply_torque_and_vel_constraints` does with `ref_vel_override`. -/
def applyVel (vel : PyFloat) (dp sp : List (String × Json)) :
    Except PyError (List (String × Json) × List (String × Json)) := do
  let sp := Json.assign "ref_vel" vel.toJson sp
  let dp := Json.assign "vel_target" vel.toJson dp
  let velMax := Json.field dp "vel_max" (int 300)
  let greater ← velMax.ltFloat vel
  let dp := Json.assign "vel_max" (if greater then vel.toJson else velMax) dp
  let velMin := Json.field dp "vel_min" (int 100)
  let less ← velMin.gtFloat vel
  let dp := Json.assign "vel_min" (if less then vel.toJson else velMin) dp
  return (dp, Json.assign "to_vel" vel.toJson sp)

/-- `_apply_torque_and_vel_constraints` -/
def applyTorqueAndVelConstraints (payload : Payload) (constraints : Constraints)
    (refVelOverride : Option PyFloat) : Except PyError Payload :=
  let row (name : String) : Option (List (String × Json)) :=
    (constraints (.str name)).filter fun c => !c.isEmpty
  match payload.stepParams with
  | [] => .error .indexError
  | sp :: steps => do
    let dp := Json.update payload.detailParams (((row "torque").map applyTorqueItems).getD [])
    let sp := match row "torque" with
      | none => sp
      | some tc => Json.assign "ref_torque" (midValue tc).toJson sp
    let dp := Json.update dp (clampItems (row "clamp_torque_min") (row "clamp_torque_max"))
    match refVelOverride with
    | none => return { detailParams := dp, stepParams := sp :: steps }
    | some vel =>
      let (dp, sp) ← applyVel vel dp sp
      return { detailParams := dp, stepParams := sp :: steps }

/-! ## Torques in N·m -/

/-- A torque row in kgf.cm. -/
structure KgfcmRow extends Constraint where
  unit_eq : Json.field fields "torqueUnit" = .str "kgf.cm"
  min_pos : 0 < min
  min_lt_max : min < max

/-- A torque in N·m lies in the range of the row, and is the one that `_safe_mid_nm` takes. -/
structure KgfcmRow.Fits (c : KgfcmRow) (nm : ℚ) : Prop where
  min_le : c.min ≤ nm / unitKgfcmToNm
  le_max : nm / unitKgfcmToNm ≤ c.max
  eq_safeMidNm : nm = safeMidNm c.min c.max

namespace KgfcmRow

variable (c : KgfcmRow)

theorem mid_pos : 0 < c.mid := c.min_pos.trans_le c.min_le_mid

/-- The middle of the range is a torque above the range if it is read in N·m. -/
theorem max_lt_mid : c.max < c.mid / unitKgfcmToNm := by
  have hmin := c.min_pos
  have hlt := c.min_lt_max
  rw [lt_div_iff₀ (by norm_num [unitKgfcmToNm]), unitKgfcmToNm, Constraint.mid]
  linarith

/-- So it is not the torque in the middle of the range. -/
theorem mid_ne_safeMidNm : c.mid ≠ safeMidNm c.min c.max := by
  have hmid := c.mid_pos
  intro h
  rw [safeMidNm, ← Constraint.mid, unitKgfcmToNm] at h
  linarith

theorem not_fits : ¬c.Fits c.mid := fun h => c.mid_ne_safeMidNm h.eq_safeMidNm

end KgfcmRow

/-! ## The helpers -/

/-- `_widen_safety_for_constraints` stores the middle of the range. -/
theorem widen_ref_torque {c : Constraint} {r : ConstraintsReply} (hc : r.torque = some c)
    (p : RationalPayload) : ∃ p', widenSafetyForConstraints r.fields p.toPayload = .ok p' ∧
      p'.stepParams.length = p.stepParams.length ∧
      ∀ step ∈ p'.stepParams, number step "ref_torque" = c.mid := by
  obtain ⟨steps, hrun, hlength, hsteps⟩ := r.exists_run p
  exact ⟨_, hrun, hlength, fun step hstep => number_of_lookup ((hsteps step hstep).torque c hc)⟩

/-- `ref_vel_override` does not touch the torque. -/
theorem exists_applyVel {dp : List (String × Json)} (h : HasNumbers dp velWindow.keys)
    (vel : PyFloat) (sp : List (String × Json)) : ∃ dp' sp', applyVel vel dp sp = .ok (dp', sp') ∧
      sp'.lookup "ref_torque" = sp.lookup "ref_torque" := by
  have hmax : ∀ v, Json.field (Json.assign "vel_target" v dp) "vel_max" (int 300) =
      .num (number dp "vel_max") := fun v => by
    rw [Json.field_assign_of_ne _ _ _ (by decide), Json.field_of_lookup (h "vel_max" (by decide))]
  have hmin : ∀ v v', Json.field (Json.assign "vel_max" v' (Json.assign "vel_target" v dp))
      "vel_min" (int 100) = .num (number dp "vel_min") := fun v v' => by
    rw [Json.field_assign_of_ne _ _ _ (by decide), Json.field_assign_of_ne _ _ _ (by decide),
      Json.field_of_lookup (h "vel_min" (by decide))]
  have hlt : ∀ q, (Json.num q).ltFloat vel = .ok ((PyFloat.finite q).lt vel) := fun q => rfl
  have hgt : ∀ q, (Json.num q).gtFloat vel = .ok (vel.lt (PyFloat.finite q)) := fun q => rfl
  simp only [applyVel, hmax, hmin, hlt, hgt, bind, Except.bind, pure, Except.pure]
  refine ⟨_, _, rfl, ?_⟩
  rw [Json.lookup_assign_of_ne _ _ (by decide), Json.lookup_assign_of_ne _ _ (by decide)]

/-- `_apply_torque_and_vel_constraints` stores the middle of the range, too. -/
theorem apply_ref_torque {c : Constraint} {constraints : Constraints}
    (hc : constraints (.str "torque") = some c.fields) (refVelOverride : Option PyFloat)
    (p : RationalPayload) (hp : p.stepParams ≠ []) : ∃ p' step,
      applyTorqueAndVelConstraints p.toPayload constraints refVelOverride = .ok p' ∧
        p'.stepParams.head? = some step ∧ number step "ref_torque" = c.mid := by
  obtain ⟨sp, steps, hsteps⟩ := List.exists_cons_of_ne_nil hp
  have hrow : ((constraints (.str "torque")).filter fun c => !c.isEmpty) = some c.fields := by
    rw [hc]
    simp [Option.filter, c.fields_ne_nil]
  have htorque : (Json.assign "ref_torque" (midValue c.fields).toJson sp).lookup "ref_torque" =
      some (.num c.mid) := by
    rw [c.midValue_eq]
    exact Json.lookup_assign_self ..
  -- the windows are not touched before the velocity is
  have hvel : ∀ cmin cmax, HasNumbers (Json.update
      (Json.update p.detailParams (applyTorqueItems c.fields)) (clampItems cmin cmax))
        velWindow.keys := by
    intro cmin cmax
    refine (p.detail_numbers velWindow (by decide)).congr fun key hkey => ?_
    have hkeys : ∀ key ∈ velWindow.keys, key ∉ clampKeys ∧
        key ∉ ["torque_target", "torque_min", "torque_max"] := by decide
    rw [Json.lookup_update_of_notMem fun h => (hkeys key hkey).1 ((clampItems_keys ..).subset h),
      Json.lookup_update_of_notMem (hkeys key hkey).2]
  simp only [applyTorqueAndVelConstraints, hsteps, hrow, Option.map_some, Option.getD_some]
  generalize (constraints (.str "clamp_torque_min")).filter _ = cmin
  generalize (constraints (.str "clamp_torque_max")).filter _ = cmax
  cases refVelOverride with
  | none => exact ⟨_, _, rfl, rfl, number_of_lookup htorque⟩
  | some vel =>
    obtain ⟨dp', sp', hrun, hsame⟩ := exists_applyVel (hvel cmin cmax) vel
      (Json.assign "ref_torque" (midValue c.fields).toJson sp)
    simp only [hrun, bind, Except.bind]
    exact ⟨_, _, rfl, rfl, number_of_lookup (hsame.trans htorque)⟩

/-- **The torque that the helpers store for a row in kgf.cm never fits it.**

Both store the middle of the range as it is, which is never the torque that `_safe_mid_nm` sends for
the same row. This is so for every payload with a step, and whatever the other constraints are. -/
theorem never_fits (c : KgfcmRow) (p : RationalPayload) :
    (∀ r : ConstraintsReply, r.torque = some c.toConstraint →
      ∃ p', widenSafetyForConstraints r.fields p.toPayload = .ok p' ∧
        p'.stepParams.length = p.stepParams.length ∧
        ∀ step ∈ p'.stepParams, ¬c.Fits (number step "ref_torque")) ∧
      ∀ (constraints : Constraints) (refVelOverride : Option PyFloat),
        constraints (.str "torque") = some c.fields → p.stepParams ≠ [] → ∃ p' step,
          applyTorqueAndVelConstraints p.toPayload constraints refVelOverride = .ok p' ∧
            p'.stepParams.head? = some step ∧ ¬c.Fits (number step "ref_torque") := by
  constructor
  · intro r hr
    obtain ⟨p', hrun, hlength, htorque⟩ := widen_ref_torque hr p
    refine ⟨p', hrun, hlength, fun step hstep => ?_⟩
    rw [htorque step hstep]
    exact c.not_fits
  · intro constraints refVelOverride hc hp
    obtain ⟨p', step, hrun, hstep, htorque⟩ := apply_ref_torque hc refVelOverride p hp
    refine ⟨p', step, hrun, hstep, ?_⟩
    rw [htorque]
    exact c.not_fits

/-- The payload of `ScrewSpecFactory.default`. -/
def defaultPayload (specId : ℤ) : RationalPayload where
  detailParams := (ScrewSpecFactory.default specId).detailParams
  stepParams := (ScrewSpecFactory.default specId).stepParams
  detail_numbers := by
    have hwindows : ∀ w ∈ windows, w ∈ safetyWindows := by decide
    exact fun w hw =>
      ((ScrewSpecFactory.default_consistent specId).ordered w (hwindows w hw)).numbers
  step_numbers := by
    have hlookup : ∀ key ∈ stepKeys, ∃ q : ℚ,
        (ScrewSpecFactory.baseStep 0 []).lookup key = some (.num q) := by
      simp only [stepKeys, List.forall_mem_cons]
      exact ⟨⟨_, rfl⟩, ⟨_, rfl⟩, ⟨_, rfl⟩, nofun⟩
    intro step hstep key hkey
    rw [List.mem_singleton.mp hstep]
    obtain ⟨q, hq⟩ := hlookup key hkey
    exact lookup_number hq

/-- A range of 4 to 10 kgf.cm. -/
def kgfcmRow : KgfcmRow where
  fields := [("paramName", .str "torque"), ("torqueUnit", .str "kgf.cm"), ("minValue", .num 4),
    ("maxValue", .num 10)]
  name := "torque"
  min := 4
  max := 10
  named := rfl
  minValue_eq := rfl
  maxValue_eq := rfl
  min_le_max := by norm_num
  unit_eq := rfl
  min_pos := by norm_num
  min_lt_max := by norm_num

/-- A reply with this row only. -/
def kgfcmReply : ConstraintsReply where
  fields := [("success", .bool true), ("constraints", .arr [.obj kgfcmRow.fields])]
  rows := [kgfcmRow.toConstraint]
  constraints_eq := rfl
  single := fun _ _ => List.length_filter_le ..

/-- The default payload, fitted to this row. -/
theorem kgfcm_read_as_nm : ¬∀ (c : KgfcmRow) (r : ConstraintsReply) (p : RationalPayload),
    r.torque = some c.toConstraint → ∃ p', widenSafetyForConstraints r.fields p.toPayload = .ok p' ∧
      ∀ step ∈ p'.stepParams, c.Fits (number step "ref_torque") := by
  intro h
  have htorque : kgfcmReply.torque = some kgfcmRow.toConstraint := rfl
  obtain ⟨p', hrun, hfits⟩ := h kgfcmRow kgfcmReply (defaultPayload 1) htorque
  obtain ⟨p'', hrun', hlength, hmid⟩ := widen_ref_torque htorque (defaultPayload 1)
  obtain rfl : p' = p'' := Except.ok.inj (hrun.symm.trans hrun')
  obtain ⟨step, hstep⟩ : ∃ step, step ∈ p'.stepParams :=
    List.exists_mem_of_length_pos (hlength ▸ one_pos)
  have hstepFits := hfits step hstep
  rw [hmid step hstep] at hstepFits
  exact kgfcmRow.not_fits hstepFits

end SasTests.MachineType
