import SasTests.Helpers
import Mathlib.Data.List.Dedup
import Mathlib.Tactic.NormNum

/-!
# What the factories make

The payloads of `ScrewSpecFactory` and `ModuleFactory` are consistent, whatever is drawn
(`factories_consistent`): counts are those of the lists, numbers are given in order, and windows
contain their target.

The backend also demands some relations between the parameters. `ScrewSpecFactory.random` draws the
values of the steps without regard to the windows, and conditions that do not exist:
`random_accepted_iff` says for which draws its payload keeps these rules.

The parameters are dictionaries in which a factory overrides defaults, so that the later of two
values of a key counts. What is proved of a payload is read off from what is looked up in them, by
one lemma for each way in which the dictionaries are put together.
-/

namespace SasTests.Helpers

open Python
open Json (number HasNumbers number_of_lookup lookup_number)

/-! ## Dictionaries with overrides -/

/-- An override replaces the default. -/
theorem lookup_override {key : String} {value : Json} {overrides : List (String × Json)}
    (h : overrides.lookup key = some value) (hkeys : (overrides.map Prod.fst).Nodup)
    (defaults : List (String × Json)) :
    (Json.update defaults overrides).lookup key = some value := by
  obtain ⟨before, after, rfl, -⟩ := List.lookup_eq_some_iff.mp h
  exact Json.lookup_update_of_mem (p := (key, value)) (by simp) hkeys defaults

/-- The bounds of a window are numbers, and its target lies between them. -/
structure Ordered (d : List (String × Json)) (w : Window) : Prop where
  numbers : HasNumbers d w.keys
  min_le_target : number d w.min ≤ number d w.target
  target_le_max : number d w.target ≤ number d w.max

/-- A window with these numbers. -/
theorem ordered_of_lookup {d : List (String × Json)} {w : Window} {lo hi target : ℚ}
    (hmin : d.lookup w.min = some (.num lo)) (hmax : d.lookup w.max = some (.num hi))
    (htarget : d.lookup w.target = some (.num target)) (hlo : lo ≤ target) (hhi : target ≤ hi) :
    Ordered d w := by
  refine ⟨fun key hkey => ?_, ?_, ?_⟩
  · simp only [Window.keys, List.mem_cons, List.not_mem_nil, or_false] at hkey
    rcases hkey with rfl | rfl | rfl
    · exact lookup_number hmin
    · exact lookup_number hmax
    · exact lookup_number htarget
  · rwa [number_of_lookup hmin, number_of_lookup htarget]
  · rwa [number_of_lookup htarget, number_of_lookup hmax]

theorem Ordered.congr {d d' : List (String × Json)} {w : Window} (h : Ordered d w)
    (hsame : ∀ key ∈ w.keys, d'.lookup key = d.lookup key) : Ordered d' w := by
  have hlookup : ∀ key ∈ w.keys, d'.lookup key = some (.num (number d key)) := fun key hkey => by
    rw [hsame key hkey]
    exact h.numbers key hkey
  exact ordered_of_lookup (hlookup _ (by simp [Window.keys])) (hlookup _ (by simp [Window.keys]))
    (hlookup _ (by simp [Window.keys])) h.min_le_target h.target_le_max

/-- A window that is overridden. -/
theorem ordered_override {overrides : List (String × Json)} {w : Window} {lo hi target : ℚ}
    (hkeys : (overrides.map Prod.fst).Nodup) (hmin : overrides.lookup w.min = some (.num lo))
    (hmax : overrides.lookup w.max = some (.num hi))
    (htarget : overrides.lookup w.target = some (.num target)) (hlo : lo ≤ target)
    (hhi : target ≤ hi) (defaults : List (String × Json)) :
    Ordered (Json.update defaults overrides) w :=
  ordered_of_lookup (lookup_override hmin hkeys _) (lookup_override hmax hkeys _)
    (lookup_override htarget hkeys _) hlo hhi

/-- The windows of a specification. -/
def safetyWindows : List Window := [torqueWindow, velWindow, degreeWindow, timeWindow]

/-! ## Screw specifications -/

namespace ScrewSpec

/-- The payload has as many steps as it says, from 1 to 8, with their numbers in order, and all
windows contain their target. -/
structure Consistent (s : ScrewSpec) : Prop where
  prog_cnt : s.detailParams.lookup "prog_cnt" = some (int s.stepParams.length)
  one_le : 1 ≤ s.stepParams.length
  le_max : s.stepParams.length ≤ maxStepsPerSpec
  screw_step : s.stepParams.map (·.lookup "screw_step") =
    (List.range s.stepParams.length).map fun i : ℕ => some (int (i + 1))
  ordered : ∀ w ∈ safetyWindows, Ordered s.detailParams w

end ScrewSpec

namespace ScrewSpecFactory

/-- Steps have their numbers, unless these are overridden. -/
theorem map_screw_step (n : ℕ) (overrides : ℕ → List (String × Json))
    (h : ∀ i, "screw_step" ∉ (overrides i).map Prod.fst) :
    ((List.range n).map fun i => baseStep i (overrides i)).map (·.lookup "screw_step") =
      (List.range n).map fun i : ℕ => some (int (i + 1)) := by
  rw [List.map_map]
  refine List.map_congr_left fun i _ => ?_
  rw [Function.comp_apply, baseStep, Json.lookup_update_of_notMem (h i)]
  rfl

/-- The default windows contain their targets. -/
theorem ordered_defaults : ∀ w ∈ safetyWindows, Ordered detailDefaults w := by
  simp only [safetyWindows, List.forall_mem_cons]
  exact ⟨ordered_of_lookup rfl rfl rfl (by norm_num) (by norm_num),
    ordered_of_lookup rfl rfl rfl (by norm_num) (by norm_num),
    ordered_of_lookup rfl rfl rfl (by norm_num) (by norm_num),
    ordered_of_lookup rfl rfl rfl (by norm_num) (by norm_num), nofun⟩

theorem ordered_progCnt (n : ℤ) :
    ∀ w ∈ safetyWindows, Ordered (baseDetailParams [("prog_cnt", int n)]) w := by
  have hkeys : ∀ w ∈ safetyWindows, ∀ key ∈ w.keys, key ∉ ["prog_cnt"] := by decide
  intro w hw
  exact (ordered_defaults w hw).congr fun key hkey =>
    Json.lookup_update_of_notMem (hkeys w hw key hkey) _

/-- A payload of default steps. -/
theorem consistent_of_steps {s : ScrewSpec} {n : ℕ} (hone : 1 ≤ n) (hmax : n ≤ maxStepsPerSpec)
    (hsteps : s.stepParams = (List.range n).map fun i => baseStep i [])
    (hdetail : s.detailParams = baseDetailParams [("prog_cnt", int n)]) : s.Consistent := by
  have hlength : s.stepParams.length = n := by rw [hsteps, List.length_map, List.length_range]
  refine ⟨?_, ?_, ?_, ?_, ?_⟩
  · rw [hlength, hdetail]
    exact lookup_override rfl (by simp) _
  · rwa [hlength]
  · rwa [hlength]
  · rw [hlength, hsteps]
    exact map_screw_step n (fun _ => []) fun _ => by decide
  · rw [hdetail]
    exact ordered_progCnt n

theorem default_consistent (specId : ℤ) : (default specId).Consistent :=
  consistent_of_steps le_rfl (by decide) rfl rfl

theorem withSteps_consistent (specId stepCount : ℤ) : (withSteps specId stepCount).Consistent := by
  refine consistent_of_steps (n := (max 1 (min stepCount maxStepsPerSpec)).toNat) ?_ ?_ rfl rfl
  · omega
  · rw [maxStepsPerSpec]
    omega

/-! ### `complex_full` -/

theorem complexDetail_nodup : (complexDetail.map Prod.fst).Nodup := by decide

theorem detailParams_complexFull (specId : ℤ) :
    (complexFull specId).detailParams = Json.update detailDefaults complexDetail := by
  simp only [complexFull, baseDetailParams]

theorem complexFull_consistent (specId : ℤ) : (complexFull specId).Consistent := by
  have hlength : (complexFull specId).stepParams.length = maxStepsPerSpec := List.length_map _
  refine ⟨?_, ?_, ?_, ?_, ?_⟩
  · rw [hlength, detailParams_complexFull]
    exact lookup_override rfl complexDetail_nodup _
  · rw [hlength]
    decide
  · rw [hlength]
  · exact map_screw_step maxStepsPerSpec complexStep fun i => by simp [complexStep]
  · have hordered := @ordered_override complexDetail
    rw [detailParams_complexFull]
    simp only [safetyWindows, List.forall_mem_cons]
    exact ⟨hordered complexDetail_nodup rfl rfl rfl (by norm_num) (by norm_num) _,
      hordered complexDetail_nodup rfl rfl rfl (by norm_num) (by norm_num) _,
      hordered complexDetail_nodup rfl rfl rfl (by norm_num) (by norm_num) _,
      hordered complexDetail_nodup rfl rfl rfl (by norm_num) (by norm_num) _, nofun⟩

/-! ### `random` -/

section Random

variable {r : Roundings} (x : SpecDraws r)

theorem randomDetail_nodup : ((randomDetail x).map Prod.fst).Nodup := by simp [randomDetail]

/-- The torque window survives its roundings. -/
theorem TorqueDraws.mem (t : TorqueDraws r) :
    r.two.round t.min ≤ r.two.round t.target ∧
      r.two.round t.target ≤ r.two.round (r.two.round t.min + t.span) := by
  have hspan : 0 ≤ t.span.1 := by
    have := (Uniform.mem (by norm_num) t.span).1
    linarith
  have hle : r.two.round t.min ≤ r.two.round (r.two.round t.min + t.span) := by
    conv_lhs => rw [← r.two.round_round]
    exact r.two.round_mono (le_add_of_nonneg_right hspan)
  exact r.two.round_mem (r.two.round_round _) (r.two.round_round _) (Uniform.mem hle t.target)

/-- A window of integers contains its target. -/
theorem WindowDraws.mem {a b c d : ℤ} (w : WindowDraws a b c d) :
    ((w.min : ℤ) : ℚ) ≤ (w.target : ℤ) ∧ ((w.target : ℤ) : ℚ) ≤ w.max :=
  ⟨by exact_mod_cast w.target.2.1, by exact_mod_cast w.target.2.2⟩

theorem detailParams_random (specId : ℤ) :
    (random specId x).detailParams = Json.update detailDefaults (randomDetail x) := by
  simp only [random, baseDetailParams]

theorem length_random (specId : ℤ) :
    ((random specId x).stepParams.length : ℤ) = x.stepCount := by
  have hpos := x.stepCount.2.1
  rw [random, List.length_map, List.length_range]
  omega

theorem random_consistent (specId : ℤ) : (random specId x).Consistent := by
  have hlength := length_random x specId
  obtain ⟨hone, hmax⟩ := x.stepCount.2
  refine ⟨?_, ?_, ?_, ?_, ?_⟩
  · rw [hlength, detailParams_random]
    exact lookup_override rfl (randomDetail_nodup x) _
  · omega
  · omega
  · have hnat : (random specId x).stepParams.length = x.stepCount.1.toNat := by omega
    rw [hnat]
    exact map_screw_step _ (fun i => randomStep r (x.step i)) fun i => by simp [randomStep]
  · have hordered := @ordered_override (randomDetail x)
    rw [detailParams_random]
    simp only [safetyWindows, List.forall_mem_cons]
    exact ⟨hordered (randomDetail_nodup x) rfl rfl rfl x.torque.mem.1 x.torque.mem.2 _,
      hordered (randomDetail_nodup x) rfl rfl rfl x.vel.mem.1 x.vel.mem.2 _,
      hordered (randomDetail_nodup x) rfl rfl rfl x.degree.mem.1 x.degree.mem.2 _,
      hordered (randomDetail_nodup x) rfl rfl rfl x.time.mem.1 x.time.mem.2 _, nofun⟩

end Random

end ScrewSpecFactory

/-! ## Modules -/

namespace ModuleConfig

/-- The payload has as many points as it says, at most 16, with their numbers in order, and they
have at most 16 different specifications. -/
structure Consistent (m : ModuleConfig) : Prop where
  point_count : m.pointCount = m.positionPoints.length
  le_max : m.positionPoints.length ≤ maxPointCount
  point_id : m.positionPoints.map (·.lookup "point_id") =
    (List.range m.positionPoints.length).map fun i : ℕ => some (int i)
  screw_spec : ∀ p ∈ m.positionPoints, HasNumbers p ["screw_spec"]
  specs_le : (m.positionPoints.map (number · "screw_spec")).dedup.length ≤ maxPointCount

end ModuleConfig

namespace ModuleFactory

/-- A payload with a point for each number up to `n`. -/
theorem consistent_of_points {m : ModuleConfig} {n : ℕ} (hmax : n ≤ maxPointCount)
    (spec : ℕ → ℤ) (overrides : ℕ → List (String × Json))
    (hpoints : m.positionPoints = (List.range n).map fun i => basePoint i (spec i) (overrides i))
    (hkeys : ∀ i, "point_id" ∉ (overrides i).map Prod.fst ∧
      "screw_spec" ∉ (overrides i).map Prod.fst)
    (hcount : m.pointCount = m.positionPoints.length) : m.Consistent := by
  have hlength : m.positionPoints.length = n := by rw [hpoints, List.length_map, List.length_range]
  refine ⟨hcount, ?_, ?_, ?_, ?_⟩
  · rwa [hlength]
  · rw [hlength, hpoints, List.map_map]
    refine List.map_congr_left fun i _ => ?_
    rw [Function.comp_apply, basePoint, Json.lookup_update_of_notMem (hkeys i).1]
    rfl
  · intro p hp
    rw [hpoints] at hp
    obtain ⟨i, -, rfl⟩ := List.mem_map.mp hp
    intro key hkey
    rw [List.mem_singleton.mp hkey]
    have hspec : (basePoint i (spec i) (overrides i)).lookup "screw_spec" =
        some (int (spec i)) := by
      rw [basePoint, Json.lookup_update_of_notMem (hkeys i).2]
      rfl
    exact lookup_number hspec
  · refine (List.dedup_sublist _).length_le.trans ?_
    rwa [List.length_map, hlength]

theorem torqueArm_consistent (moduleId points : ℤ) : (torqueArm moduleId points).Consistent := by
  refine consistent_of_points (n := (max 1 (min points maxPointCount)).toNat) ?_ (fun _ => 0)
    (fun _ => []) rfl (by simp) rfl
  rw [maxPointCount]
  omega

theorem random_consistent {maxSpecs : ℤ} (r : Rounding 1) (moduleId : ℤ)
    (x : ModuleDraws maxSpecs) : (random r moduleId x).Consistent := by
  have hmax := x.pointCount.2.2
  refine consistent_of_points (n := x.pointCount.1.toNat) (by omega)
    (fun i => (x.point i).screwSpec) (fun i => randomPoint (x.point i)) rfl ?_ rfl
  simp [randomPoint]

/-- The points of `manual`, by their index. -/
theorem manual_points (moduleId : ℤ) (screwSpecs : List ℤ) :
    (manual moduleId screwSpecs).positionPoints =
      (List.range (screwSpecs.take maxPointCount).length).map fun i =>
        basePoint i (screwSpecs.getD i 0) [] := by
  refine List.ext_getElem (by simp [manual]) fun i h₁ h₂ => ?_
  have hi : i < screwSpecs.length := by
    simp only [List.length_map, List.length_range, List.length_take] at h₂
    omega
  simp [manual, hi]

theorem manual_consistent (moduleId : ℤ) (screwSpecs : List ℤ) :
    (manual moduleId screwSpecs).Consistent := by
  refine consistent_of_points (n := (screwSpecs.take maxPointCount).length) ?_
    (fun i => screwSpecs.getD i 0) (fun _ => []) (manual_points moduleId screwSpecs) (by simp) rfl
  rw [List.length_take]
  exact min_le_left _ _

/-- The points of `manual` carry the specifications that were given, in order. -/
theorem manual_screw_spec (moduleId : ℤ) (screwSpecs : List ℤ) :
    (manual moduleId screwSpecs).positionPoints.map (·.lookup "screw_spec") =
      (screwSpecs.take maxPointCount).map fun spec => some (int spec) := by
  have hspec : ∀ p : ℤ × ℕ, (basePoint p.2 p.1 []).lookup "screw_spec" = some (int p.1) :=
    fun p => rfl
  have hfst : (screwSpecs.take maxPointCount).zipIdx.map Prod.fst = screwSpecs.take maxPointCount :=
    List.zipIdx_map_fst ..
  rw [manual, List.map_map]
  simp only [Function.comp_def, hspec]
  conv_rhs => rw [← hfst, List.map_map]
  rfl

end ModuleFactory

/-- **The payloads of all factories are consistent, whatever is drawn.**

A specification has as many steps as it says, from 1 to 8 however many were asked for, with their
numbers in order, and its windows contain their targets. A module has as many points as it says, at
most 16, with their numbers in order; those of `manual` carry the specifications in the order in
which they were given. -/
theorem factories_consistent :
    (∀ specId, (ScrewSpecFactory.default specId).Consistent) ∧
      (∀ specId stepCount, (ScrewSpecFactory.withSteps specId stepCount).Consistent) ∧
      (∀ specId, (ScrewSpecFactory.complexFull specId).Consistent) ∧
      (∀ (r : ScrewSpecFactory.Roundings) (specId : ℤ) (x : ScrewSpecFactory.SpecDraws r),
        (ScrewSpecFactory.random specId x).Consistent) ∧
      (∀ moduleId screwSpecs, (ModuleFactory.manual moduleId screwSpecs).Consistent ∧
        (ModuleFactory.manual moduleId screwSpecs).positionPoints.map (·.lookup "screw_spec") =
          (screwSpecs.take maxPointCount).map fun spec => some (int spec)) ∧
      (∀ moduleId points, (ModuleFactory.torqueArm moduleId points).Consistent) ∧
      ∀ (maxSpecs : ℤ) (r : Rounding 1) (moduleId : ℤ) (x : ModuleFactory.ModuleDraws maxSpecs),
        (ModuleFactory.random r moduleId x).Consistent :=
  ⟨ScrewSpecFactory.default_consistent, ScrewSpecFactory.withSteps_consistent,
    ScrewSpecFactory.complexFull_consistent,
    fun _ specId x => ScrewSpecFactory.random_consistent x specId,
    fun moduleId screwSpecs => ⟨ModuleFactory.manual_consistent moduleId screwSpecs,
      ModuleFactory.manual_screw_spec moduleId screwSpecs⟩,
    ModuleFactory.torqueArm_consistent,
    fun _ r moduleId x => ModuleFactory.random_consistent r moduleId x⟩

/-! ## What the backend accepts -/

/-- The conditions of a step. -/
def okIfKeys : List String := ["ok_if_1", "ok_if_2", "ok_if_3", "ok_if_4"]

/-- The switches of the windows, and the values of a step that they bound. -/
def checks : List (String × Window × String) :=
  [("torque_check_enable", torqueWindow, "ref_torque"),
    ("time_check_enable", timeWindow, "ref_time"), ("vel_check_enable", velWindow, "ref_vel"),
    ("degree_check_enable", degreeWindow, "ref_degree")]

/-- Only the bits 1, 2, 4 and 8 are used. -/
def UsesFlags (q : ℚ) : Prop := ∃ n : ℕ, q = n ∧ n &&& 15 = n

/-- The rules for an accepted payload. -/
structure ScrewSpec.Accepted (s : ScrewSpec) : Prop where
  flags : ∀ step ∈ s.stepParams, ∀ key ∈ okIfKeys, UsesFlags (number step key)
  condition : ∀ (i : ℕ) step, s.stepParams[i]? = some step →
    number s.detailParams "prog_start_valid_step" ≤ i → ∃ key ∈ okIfKeys, number step key ≠ 0
  window : ∀ c ∈ checks, number s.detailParams c.1 ≠ 0 →
    ∀ step ∈ s.stepParams, number step c.2.2 ≤ number s.detailParams c.2.1.max
  valid_step : number s.detailParams "prog_start_valid_step" < number s.detailParams "prog_cnt"
  confirm : 1 ≤ number s.detailParams "confirm_cnt"
  start_angle : number s.detailParams "gyrometer_start_angle" ≤ 90
  stop_angle : number s.detailParams "gyrometer_stop_angle" ≤ 90
  percent : number s.detailParams "vel_limit_torque_percent" ≤ 100

namespace ScrewSpecFactory

variable {r : Roundings} {x : SpecDraws r}

/-- The draws for a step respect the rules and the windows that were drawn. -/
structure StepDraws.Fits (y : StepDraws) (x : SpecDraws r) : Prop where
  okIf3 : y.okIf3.1 ≠ 16
  okIf4 : y.okIf4.1 ≠ 16
  condition : y.okIf1.1 ≠ 0 ∨ y.okIf2.1 ≠ 0 ∨ y.okIf3.1 ≠ 0 ∨ y.okIf4.1 ≠ 0
  torque : r.two.round y.refTorque ≤ r.two.round (r.two.round x.torque.min + x.torque.span)
  time : y.refTime.1 ≤ x.time.max
  vel : y.refVel.1 ≤ x.vel.max
  degree : y.refDegree.1 ≤ x.degree.max

/-- A parameter that is drawn. -/
theorem number_drawn {key : String} {q : ℚ} (h : (randomDetail x).lookup key = some (.num q))
    (specId : ℤ) : number (random specId x).detailParams key = q := by
  rw [detailParams_random]
  exact number_of_lookup (lookup_override h (randomDetail_nodup x) _)

/-- A parameter that is not. -/
theorem number_kept {key : String} {q : ℚ} (hkey : key ∉ (randomDetail x).map Prod.fst)
    (h : detailDefaults.lookup key = some (.num q)) (specId : ℤ) :
    number (random specId x).detailParams key = q := by
  rw [detailParams_random]
  exact number_of_lookup ((Json.lookup_update_of_notMem hkey _).trans h)

theorem randomStep_nodup (y : StepDraws) : ((randomStep r y).map Prod.fst).Nodup := by
  simp [randomStep]

/-- A value of a step. -/
theorem number_step {y : StepDraws} {key : String} {q : ℚ}
    (h : (randomStep r y).lookup key = some (.num q)) (i : ℕ) :
    number (baseStep i (randomStep r y)) key = q :=
  number_of_lookup (lookup_override h (randomStep_nodup y) _)

/-- Of the values that may be drawn for a condition, only 16 uses another bit. -/
theorem usesFlags_of_mem {n : ℤ} (h : n ∈ [(0 : ℤ), 2, 4, 8, 16]) : UsesFlags n ↔ n ≠ 16 := by
  simp only [List.mem_cons, List.not_mem_nil, or_false] at h
  rcases h with rfl | rfl | rfl | rfl | rfl
  · exact iff_of_true ⟨0, by simp, rfl⟩ (by decide)
  · exact iff_of_true ⟨2, by simp, rfl⟩ (by decide)
  · exact iff_of_true ⟨4, by simp, rfl⟩ (by decide)
  · exact iff_of_true ⟨8, by simp, rfl⟩ (by decide)
  · refine iff_of_false ?_ (by simp)
    rintro ⟨k, hk, hflags⟩
    obtain rfl : 16 = k := by exact_mod_cast hk
    cases hflags

theorem usesFlags_choice {values : List ℤ} (h : ∀ n ∈ values, n ∈ [(0 : ℤ), 2, 4, 8, 16])
    (c : Choice values) : UsesFlags (c.1 : ℚ) ↔ c.1 ≠ 16 :=
  usesFlags_of_mem (h c.1 c.2)

/-- The conditions of a step use the flags unless 16 was drawn. -/
theorem usesFlags_iff (y : StepDraws) (i : ℕ) :
    (∀ key ∈ okIfKeys, UsesFlags (number (baseStep i (randomStep r y)) key)) ↔
      y.okIf3.1 ≠ 16 ∧ y.okIf4.1 ≠ 16 := by
  have h₁ : y.okIf1.1 ≠ 16 := fun h => absurd (h ▸ y.okIf1.2) (by decide)
  have h₂ : y.okIf2.1 ≠ 16 := fun h => absurd (h ▸ y.okIf2.2) (by decide)
  simp only [okIfKeys, List.forall_mem_cons]
  rw [number_step rfl, number_step rfl, number_step rfl, number_step rfl,
    usesFlags_choice (by decide), usesFlags_choice (by decide), usesFlags_choice (by decide),
    usesFlags_choice (by decide), and_iff_right h₁, and_iff_right h₂]
  simp

/-- A step has a condition if one was drawn. -/
theorem exists_condition_iff (y : StepDraws) (i : ℕ) :
    (∃ key ∈ okIfKeys, number (baseStep i (randomStep r y)) key ≠ 0) ↔
      y.okIf1.1 ≠ 0 ∨ y.okIf2.1 ≠ 0 ∨ y.okIf3.1 ≠ 0 ∨ y.okIf4.1 ≠ 0 := by
  have hone : ∀ p : String → Prop, (∃ key ∈ okIfKeys, p key) ↔
      p "ok_if_1" ∨ p "ok_if_2" ∨ p "ok_if_3" ∨ p "ok_if_4" := fun p => by simp [okIfKeys]
  rw [hone, number_step rfl, number_step rfl, number_step rfl, number_step rfl]
  simp only [ne_eq, Int.cast_eq_zero]

/-- The defaults that are not overridden. -/
theorem keys_kept (x : SpecDraws r) : ∀ key ∈ "prog_start_valid_step" :: checks.map Prod.fst,
    key ∉ (randomDetail x).map Prod.fst := by
  simp [checks, randomDetail]

/-- All windows are enabled. -/
theorem number_enable (specId : ℤ) (x : SpecDraws r) :
    ∀ c ∈ checks, number (random specId x).detailParams c.1 ≠ 0 := by
  have hdefault : ∀ c ∈ checks, detailDefaults.lookup c.1 = some (int 1) := by
    simp only [checks, List.forall_mem_cons]
    exact ⟨rfl, rfl, rfl, rfl, nofun⟩
  intro c hc
  have hkey := keys_kept x c.1 (List.mem_cons_of_mem _ (List.mem_map_of_mem hc))
  rw [number_kept hkey (hdefault c hc), Int.cast_one]
  exact one_ne_zero

/-- The values of a step respect the maxima of the windows. -/
theorem window_iff (specId : ℤ) (x : SpecDraws r) (y : StepDraws) (i : ℕ) :
    (∀ c ∈ checks, number (baseStep i (randomStep r y)) c.2.2 ≤
        number (random specId x).detailParams c.2.1.max) ↔
      r.two.round y.refTorque ≤ r.two.round (r.two.round x.torque.min + x.torque.span) ∧
        y.refTime.1 ≤ x.time.max ∧ y.refVel.1 ≤ x.vel.max ∧ y.refDegree.1 ≤ x.degree.max := by
  have hall : ∀ p : String × Window × String → Prop, (∀ c ∈ checks, p c) ↔
      p ("torque_check_enable", torqueWindow, "ref_torque") ∧
        p ("time_check_enable", timeWindow, "ref_time") ∧
        p ("vel_check_enable", velWindow, "ref_vel") ∧
        p ("degree_check_enable", degreeWindow, "ref_degree") := fun p => by simp [checks]
  rw [hall]
  dsimp only
  rw [number_step rfl, number_step rfl, number_step rfl, number_step rfl, number_drawn rfl,
    number_drawn rfl, number_drawn rfl, number_drawn rfl, Int.cast_le, Int.cast_le, Int.cast_le]

/-- The rules for `detail_params` are kept whatever is drawn. -/
theorem detail_accepted (specId : ℤ) (x : SpecDraws r) :
    number (random specId x).detailParams "prog_start_valid_step" = 0 ∧
      1 ≤ number (random specId x).detailParams "prog_cnt" ∧
      1 ≤ number (random specId x).detailParams "confirm_cnt" ∧
      number (random specId x).detailParams "gyrometer_start_angle" ≤ 90 ∧
      number (random specId x).detailParams "gyrometer_stop_angle" ≤ 90 ∧
      number (random specId x).detailParams "vel_limit_torque_percent" ≤ 100 := by
  have hstart : number (random specId x).detailParams "prog_start_valid_step" = 0 :=
    (number_kept (keys_kept x _ (by simp)) rfl specId).trans Int.cast_zero
  rw [hstart, number_drawn rfl, number_drawn rfl, number_drawn rfl, number_drawn rfl,
    number_drawn rfl]
  have hstep := x.stepCount.2.1
  have hconfirm := x.confirmCnt.2.1
  have hangle := x.gyrometerStartAngle.2.2
  have hstop := x.gyrometerStopAngle.2.2
  have hpercent := x.velLimitTorquePercent.2.2
  refine ⟨rfl, ?_, ?_, ?_, ?_, ?_⟩
  · exact_mod_cast hstep
  · exact_mod_cast hconfirm
  · exact_mod_cast hangle.trans (by decide : (30 : ℤ) ≤ 90)
  · exact_mod_cast hstop
  · exact_mod_cast hpercent

/-- The steps of the payload, by their index. -/
theorem getElem?_random (specId : ℤ) (x : SpecDraws r) (i : ℕ) :
    (random specId x).stepParams[i]? = if (i : ℤ) < x.stepCount then
      some (baseStep i (randomStep r (x.step i))) else none := by
  have hsteps : (random specId x).stepParams =
      (List.range x.stepCount.1.toNat).map fun i => baseStep i (randomStep r (x.step i)) := by
    simp only [random]
  rw [hsteps, List.getElem?_map]
  split
  · rw [List.getElem?_range (by omega)]
    rfl
  · rw [List.getElem?_eq_none (by rw [List.length_range]; omega)]
    rfl

/-- **The payload of `random` keeps the rules exactly if the draws for all its steps respect them
and the windows that were drawn.**

The windows and the values of the steps are drawn independently. What the rules say about the other
parameters is always the case. -/
theorem random_accepted_iff (specId : ℤ) (x : SpecDraws r) :
    (random specId x).Accepted ↔ ∀ i : ℕ, (i : ℤ) < x.stepCount → (x.step i).Fits x := by
  obtain ⟨hstart, hcnt, hconfirm, hangle, hstop, hpercent⟩ := detail_accepted specId x
  constructor
  · intro h i hi
    have hget := getElem?_random specId x i
    rw [if_pos hi] at hget
    have hmem := List.mem_of_getElem? hget
    obtain ⟨hthree, hfour⟩ := (usesFlags_iff _ i).mp (h.flags _ hmem)
    have hcondition := (exists_condition_iff _ i).mp
      (h.condition i _ hget (by rw [hstart]; exact Nat.cast_nonneg i))
    obtain ⟨htorque, htime, hvel, hdegree⟩ := (window_iff specId x _ i).mp
      fun c hc => h.window c hc (number_enable specId x c hc) _ hmem
    exact ⟨hthree, hfour, hcondition, htorque, htime, hvel, hdegree⟩
  · intro h
    have hstep : ∀ step ∈ (random specId x).stepParams, ∃ i,
        step = baseStep i (randomStep r (x.step i)) ∧ (x.step i).Fits x := by
      intro step hmem
      obtain ⟨i, hget⟩ := List.getElem?_of_mem hmem
      rw [getElem?_random] at hget
      split at hget
      · rename_i hi
        exact ⟨i, (Option.some.inj hget).symm, h i hi⟩
      · cases hget
    refine { flags := ?_, condition := ?_, window := ?_, valid_step := ?_, confirm := hconfirm,
             start_angle := hangle, stop_angle := hstop, percent := hpercent }
    · intro step hmem
      obtain ⟨i, hi, hfits⟩ := hstep step hmem
      rw [hi]
      exact (usesFlags_iff _ i).mpr ⟨hfits.okIf3, hfits.okIf4⟩
    · intro i step hget _
      obtain ⟨j, hj, hfits⟩ := hstep step (List.mem_of_getElem? hget)
      rw [hj]
      exact (exists_condition_iff _ j).mpr hfits.condition
    · intro c hc _ step hmem
      obtain ⟨i, hi, hfits⟩ := hstep step hmem
      rw [hi]
      exact (window_iff specId x _ i).mpr
        ⟨hfits.torque, hfits.time, hfits.vel, hfits.degree⟩ c hc
    · rw [hstart]
      exact one_pos.trans_le hcnt

/-- All draws at their lower end. -/
def lowStep : StepDraws where
  okIf1 := ⟨0, by decide⟩
  okIf2 := ⟨0, by decide⟩
  okIf3 := ⟨0, by decide⟩
  okIf4 := ⟨0, by decide⟩
  refVel := ⟨50, by decide⟩
  refTorque := ⟨0.05, by norm_num⟩
  refDegree := ⟨0, by decide⟩
  refTime := ⟨0, by decide⟩
  fromVel := ⟨0, by decide⟩
  toVel := ⟨100, by decide⟩
  okOut := ⟨0, by decide⟩
  okOutStatus := ⟨0, by decide⟩
  okOutPulseTime := ⟨100, by decide⟩
  ngOut := ⟨0, by decide⟩
  ngOutStatus := ⟨0, by decide⟩
  ngOutPulseTime := ⟨100, by decide⟩
  startIn := ⟨0, by decide⟩
  startInStatus := ⟨0, by decide⟩
  runDirPositive := ⟨0, by decide⟩
  es := ⟨0, by decide⟩

def lowDraws (r : Roundings) : SpecDraws r where
  stepCount := ⟨1, by decide⟩
  torque := ⟨⟨0.1, by norm_num⟩, ⟨0.2, by norm_num⟩, ⟨_, min_le_left _ _, le_max_left _ _⟩⟩
  vel := ⟨⟨50, by decide⟩, ⟨100, by decide⟩, ⟨50, by decide⟩⟩
  degree := ⟨⟨30, by decide⟩, ⟨100, by decide⟩, ⟨30, by decide⟩⟩
  time := ⟨⟨500, by decide⟩, ⟨500, by decide⟩, ⟨500, by decide⟩⟩
  name := ⟨1000, by decide⟩
  screwCnt := ⟨1, by decide⟩
  tightenNgSoftPowerOff := ⟨0, by decide⟩
  completeSoftPowerOff := ⟨0, by decide⟩
  counterIncMode := ⟨0, by decide⟩
  repeatGapTime := ⟨0, by decide⟩
  torqueCompensation := ⟨0, by norm_num⟩
  endTorqueKeepTimeMs := ⟨10, by decide⟩
  gyrometerStartAngle := ⟨0, by decide⟩
  gyrometerStopAngle := ⟨0, by decide⟩
  confirmCnt := ⟨1, by decide⟩
  velLimitTorquePercent := ⟨50, by decide⟩
  torqueFilterTimeMs := ⟨5, by decide⟩
  step := fun _ => lowStep

/-- A step without any condition. -/
theorem low_draws_rejected : ¬∀ (r : Roundings) (specId : ℤ) (x : SpecDraws r),
    (random specId x).Accepted := by
  intro h
  have hrules := h ⟨Rounding.halfEven 2, Rounding.halfEven 3⟩ 120 (lowDraws _)
  have hget := getElem?_random 120 (lowDraws ⟨Rounding.halfEven 2, Rounding.halfEven 3⟩) 0
  rw [if_pos (by decide)] at hget
  have hstart := (detail_accepted 120 (lowDraws ⟨Rounding.halfEven 2, Rounding.halfEven 3⟩)).1
  have hcondition := (exists_condition_iff _ 0).mp
    (hrules.condition 0 _ hget (by rw [hstart]; exact Nat.cast_nonneg 0))
  revert hcondition
  simp [lowDraws, lowStep]

end ScrewSpecFactory

end SasTests.Helpers
