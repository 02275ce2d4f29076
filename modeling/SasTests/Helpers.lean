import SasTests.Python.Random
import SasTests.Python.Json

/-!
# Test data

`ScrewSpecFactory` and `ModuleFactory` make the payloads that the tests send. A payload has
dictionaries of parameters, which start from defaults that a factory overrides.

The factories called `random` draw most of their values. What is drawn is an argument here, a
structure with one field for each draw (`SpecDraws`, `ModuleDraws`), and the fields are of types
that hold exactly the values that the draw may give.
-/

namespace SasTests.Helpers

open Python

/-! ## Constants -/

/-- `MAX_STEPS_PER_SPEC` -/
def maxStepsPerSpec : ℕ := 8

/-- `MAX_POINT_COUNT` -/
def maxPointCount : ℕ := 16

/-- An `int` in a dictionary. -/
abbrev int (n : ℤ) : Json := .num n

/-! ## Screw specifications -/

/-- A payload of type `"screw_param_config"`. -/
structure ScrewSpec where
  type : String := "screw_param_config"
  mode : ℕ := 1
  specificationId : ℤ
  specificationName : String
  machineTypeId : ℤ := 0
  detailParams : List (String × Json)
  stepParams : List (List (String × Json))

/-- A safety window of `detail_params`: the keys of its bounds and of its target. -/
structure Window where
  min : String
  max : String
  target : String
  distinct : [min, max, target].Nodup
  deriving DecidableEq

/-- The keys of a window. -/
def Window.keys (w : Window) : List String := [w.min, w.max, w.target]

def torqueWindow : Window := ⟨"torque_min", "torque_max", "torque_target", by decide⟩
def velWindow : Window := ⟨"vel_min", "vel_max", "vel_target", by decide⟩
def degreeWindow : Window := ⟨"degree_min", "degree_max", "degree_target", by decide⟩
def timeWindow : Window := ⟨"time_min", "time_max", "time_target", by decide⟩

namespace ScrewSpecFactory

/-- The defaults of `_base_detail_params`. -/
def detailDefaults : List (String × Json) :=
  [("torque_unit", int 1), ("screw_cnt", int 8), ("prog_cnt", int 2),
    ("tighten_ng_soft_power_off", int 0), ("complete_soft_power_off", int 0),
    ("counter_inc_mode", int 1), ("repeat_gap_time", int 0), ("torque_compensation", .num 0),
    ("end_torque_keep_time_ms", int 25), ("gyrometer_start_angle", int 0),
    ("gyrometer_stop_angle", int 0), ("prog_start_valid_step", int 0), ("loosen_gap_time", int 0),
    ("repeat_angle_max", int 0), ("confirm_cnt", int 1), ("vel_limit_torque_percent", int 80),
    ("torque_filter_time_ms", int 10), ("vel_check_enable", int 1), ("torque_check_enable", int 1),
    ("time_check_enable", int 1), ("degree_check_enable", int 1), ("socket_specification", int 0),
    ("torque_target", .num 0.325), ("torque_max", .num 0.4), ("torque_min", .num 0.25),
    ("vel_target", int 180), ("vel_max", int 300), ("vel_min", int 100), ("degree_target", int 180),
    ("degree_max", int 360), ("degree_min", int 90), ("time_target", int 3000),
    ("time_max", int 5000), ("time_min", int 1000)]

/-- `_base_detail_params` -/
def baseDetailParams (overrides : List (String × Json)) : List (String × Json) :=
  Json.update detailDefaults overrides

/-- The defaults of `_base_step`. -/
def stepDefaults (stepIndex : ℕ) : List (String × Json) :=
  [("screw_step", int (stepIndex + 1)), ("ok_if_1", int 2), ("ok_if_2", int 4), ("ok_if_3", int 0),
    ("ok_if_4", int 0), ("ref_vel", int 180), ("ref_torque", .num 0.325), ("ref_degree", int 180),
    ("ref_time", int 3000), ("from_vel", int 0), ("to_vel", int 180), ("ok_out", int 0),
    ("ok_out_status", int 0), ("ok_out_pulse_time", int 500), ("ng_out", int 0),
    ("ng_out_status", int 0), ("ng_out_pulse_time", int 500), ("start_in", int 0),
    ("start_in_status", int 0), ("run_dir_positive", int 0), ("es", int 1)]

/-- `_base_step` -/
def baseStep (stepIndex : ℕ) (overrides : List (String × Json)) : List (String × Json) :=
  Json.update (stepDefaults stepIndex) overrides

/-- `default` -/
def default (specId : ℤ) : ScrewSpec where
  specificationId := specId
  specificationName := "TestSpec-" ++ toString specId
  detailParams := baseDetailParams [("prog_cnt", int 1)]
  stepParams := [baseStep 0 []]

/-- `with_steps` -/
def withSteps (specId stepCount : ℤ) : ScrewSpec :=
  let stepCount := (max 1 (min stepCount maxStepsPerSpec)).toNat
  { specificationId := specId
    specificationName := "TestSpec-" ++ toString specId ++ "-" ++ toString stepCount ++ "s"
    detailParams := baseDetailParams [("prog_cnt", int stepCount)]
    stepParams := (List.range stepCount).map fun i => baseStep i [] }

/-- What `complex_full` overrides in `detail_params`. -/
def complexDetail : List (String × Json) :=
  [("screw_cnt", int 16), ("prog_cnt", int maxStepsPerSpec), ("tighten_ng_soft_power_off", int 1),
    ("complete_soft_power_off", int 1), ("counter_inc_mode", int 2), ("repeat_gap_time", int 100),
    ("torque_compensation", .num 0.05), ("end_torque_keep_time_ms", int 50),
    ("gyrometer_start_angle", int 10), ("gyrometer_stop_angle", int 45),
    ("prog_start_valid_step", int 1), ("loosen_gap_time", int 200), ("repeat_angle_max", int 720),
    ("confirm_cnt", int 3), ("vel_limit_torque_percent", int 90), ("torque_filter_time_ms", int 20),
    ("socket_specification", int 5), ("torque_target", .num 2), ("torque_max", .num 2.5),
    ("torque_min", .num 1.7), ("vel_target", int 800), ("vel_max", int 1000), ("vel_min", int 650),
    ("degree_target", int 720), ("degree_max", int 820), ("degree_min", int 640),
    ("time_target", int 2000), ("time_max", int 2500), ("time_min", int 1600)]

/-- What `complex_full` overrides in step `i`. -/
def complexStep (i : ℕ) : List (String × Json) :=
  [("ok_if_1", int 2), ("ok_if_2", int 4), ("ok_if_3", int 8), ("ok_if_4", int 16),
    ("ref_vel", int (700 + i * 10)), ("ref_torque", .num (1.8 + i * 0.02)),
    ("ref_degree", int (650 + i * 5)), ("ref_time", int (1700 + i * 20)), ("from_vel", int 50),
    ("to_vel", int (250 + i * 10)), ("ok_out", int 1), ("ok_out_status", int 1), ("ng_out", int 1),
    ("ng_out_status", int 1), ("run_dir_positive", int (i % 2)), ("es", int 1)]

/-- `complex_full` -/
def complexFull (specId : ℤ) : ScrewSpec where
  specificationId := specId
  specificationName := "FullSpec-" ++ toString specId
  detailParams := baseDetailParams complexDetail
  stepParams := (List.range maxStepsPerSpec).map fun i => baseStep i (complexStep i)

/-- The draws for a step in `random`. -/
structure StepDraws where
  okIf1 : Choice [(0 : ℤ), 2, 4]
  okIf2 : Choice [(0 : ℤ), 2, 4, 8]
  okIf3 : Choice [(0 : ℤ), 4, 8, 16]
  okIf4 : Choice [(0 : ℤ), 8, 16]
  refVel : Randint 50 500
  refTorque : Uniform 0.05 3
  refDegree : Randint 0 720
  refTime : Randint 0 5000
  fromVel : Randint 0 100
  toVel : Randint 100 500
  okOut : Randint 0 1
  okOutStatus : Randint 0 1
  okOutPulseTime : Randint 100 1000
  ngOut : Randint 0 1
  ngOutStatus : Randint 0 1
  ngOutPulseTime : Randint 100 1000
  startIn : Randint 0 1
  startInStatus : Randint 0 1
  runDirPositive : Randint 0 1
  es : Randint 0 1

/-- `round(x, 2)` and `round(x, 3)` -/
structure Roundings where
  two : Rounding 2
  three : Rounding 3

/-- The draws for a window of integers in `random`: its minimum, how much greater the maximum is,
and the target. -/
structure WindowDraws (a b c d : ℤ) where
  min : Randint a b
  span : Randint c d
  target : Randint min (min + span)

/-- The maximum. -/
def WindowDraws.max {a b c d : ℤ} (w : WindowDraws a b c d) : ℤ := w.min + w.span

/-- The draws for the torque window: before they are rounded, the minimum, how much greater the
maximum is, and the target. -/
structure TorqueDraws (r : Roundings) where
  min : Uniform 0.1 1
  span : Uniform 0.2 2
  target : Uniform (r.two.round min) (r.two.round (r.two.round min + span))

/-- The draws in `random`. -/
structure SpecDraws (r : Roundings) where
  stepCount : Randint 1 maxStepsPerSpec
  torque : TorqueDraws r
  vel : WindowDraws 50 200 100 500
  degree : WindowDraws 30 200 100 500
  time : WindowDraws 500 2000 500 3000
  name : Randint 1000 9999
  screwCnt : Randint 1 16
  tightenNgSoftPowerOff : Randint 0 1
  completeSoftPowerOff : Randint 0 1
  counterIncMode : Randint 0 2
  repeatGapTime : Randint 0 500
  torqueCompensation : Uniform 0 0.1
  endTorqueKeepTimeMs : Randint 10 100
  gyrometerStartAngle : Randint 0 30
  gyrometerStopAngle : Randint 0 90
  confirmCnt : Randint 1 5
  velLimitTorquePercent : Randint 50 100
  torqueFilterTimeMs : Randint 5 50
  /-- for the step with that index -/
  step : ℕ → StepDraws

variable {r : Roundings}

/-- What `random` overrides in `detail_params`. -/
def randomDetail (x : SpecDraws r) : List (String × Json) :=
  let torqueMin := r.two.round x.torque.min
  let torqueMax := r.two.round (torqueMin + x.torque.span)
  let torqueTarget := r.two.round x.torque.target
  [("screw_cnt", int x.screwCnt), ("prog_cnt", int x.stepCount),
    ("tighten_ng_soft_power_off", int x.tightenNgSoftPowerOff),
    ("complete_soft_power_off", int x.completeSoftPowerOff),
    ("counter_inc_mode", int x.counterIncMode), ("repeat_gap_time", int x.repeatGapTime),
    ("torque_compensation", .num (r.three.round x.torqueCompensation)),
    ("end_torque_keep_time_ms", int x.endTorqueKeepTimeMs),
    ("gyrometer_start_angle", int x.gyrometerStartAngle),
    ("gyrometer_stop_angle", int x.gyrometerStopAngle), ("confirm_cnt", int x.confirmCnt),
    ("vel_limit_torque_percent", int x.velLimitTorquePercent),
    ("torque_filter_time_ms", int x.torqueFilterTimeMs), ("torque_target", .num torqueTarget),
    ("torque_max", .num torqueMax), ("torque_min", .num torqueMin),
    ("vel_target", int x.vel.target), ("vel_max", int x.vel.max), ("vel_min", int x.vel.min),
    ("degree_target", int x.degree.target), ("degree_max", int x.degree.max),
    ("degree_min", int x.degree.min),
    ("time_target", int x.time.target), ("time_max", int x.time.max), ("time_min", int x.time.min)]

/-- What `random` overrides in a step. -/
def randomStep (r : Roundings) (x : StepDraws) : List (String × Json) :=
  [("ok_if_1", int x.okIf1), ("ok_if_2", int x.okIf2), ("ok_if_3", int x.okIf3),
    ("ok_if_4", int x.okIf4), ("ref_vel", int x.refVel),
    ("ref_torque", .num (r.two.round x.refTorque)), ("ref_degree", int x.refDegree),
    ("ref_time", int x.refTime), ("from_vel", int x.fromVel), ("to_vel", int x.toVel),
    ("ok_out", int x.okOut), ("ok_out_status", int x.okOutStatus),
    ("ok_out_pulse_time", int x.okOutPulseTime), ("ng_out", int x.ngOut),
    ("ng_out_status", int x.ngOutStatus), ("ng_out_pulse_time", int x.ngOutPulseTime),
    ("start_in", int x.startIn), ("start_in_status", int x.startInStatus),
    ("run_dir_positive", int x.runDirPositive), ("es", int x.es)]

/-- `random` -/
def random (specId : ℤ) (x : SpecDraws r) : ScrewSpec where
  specificationId := specId
  specificationName := "RandSpec-" ++ toString specId ++ "-" ++ toString x.name.1
  detailParams := baseDetailParams (randomDetail x)
  stepParams := (List.range x.stepCount.1.toNat).map fun i => baseStep i (randomStep r (x.step i))

end ScrewSpecFactory

/-! ## Modules -/

/-- A payload of type `"module_config"`. -/
structure ModuleConfig where
  type : String := "module_config"
  moduleId : ℤ
  productName : String
  positionPoints : List (List (String × Json))
  pointCount : ℕ
  backgroundImage : String := ""
  imageMarkers : String := "[]"
  torqueArmConfig : Option (List (String × Json))
  modifyUser : String := "test"

namespace ModuleFactory

/-- `_base_point` -/
def basePoint (pointId : ℕ) (screwSpec : ℤ) (overrides : List (String × Json)) :
    List (String × Json) :=
  Json.update [("point_id", int pointId), ("screw_spec", int screwSpec),
    ("x", int (100 + pointId * 50)), ("y", int (200 + pointId * 50)), ("expected_angle_a", int 0),
    ("expected_angle_b", int 0), ("angle_tolerance", int 5)] overrides

/-- `manual` -/
def manual (moduleId : ℤ) (screwSpecs : List ℤ) : ModuleConfig :=
  let points := (screwSpecs.take maxPointCount).zipIdx.map fun p => basePoint p.2 p.1 []
  { moduleId := moduleId
    productName := "ManualModule-" ++ toString moduleId
    positionPoints := points
    pointCount := points.length
    torqueArmConfig := none }

/-- `torque_arm` -/
def torqueArm (moduleId points : ℤ) : ModuleConfig :=
  let points := (max 1 (min points maxPointCount)).toNat
  let positionPoints := (List.range points).map fun i => basePoint i 0 []
  { moduleId := moduleId
    productName := "TorqueArmModule-" ++ toString moduleId
    positionPoints := positionPoints
    pointCount := positionPoints.length
    torqueArmConfig := some [("arm_length", .num 250), ("arm_offset", .num 0),
      ("rotation_center_x", int 400), ("rotation_center_y", int 300)] }

/-- The draws for a point in `random`. -/
structure PointDraws (maxSpecs : ℤ) where
  screwSpec : Choice ((List.range maxSpecs.toNat).map Int.ofNat)
  x : Randint 0 800
  y : Randint 0 600
  expectedAngleA : Randint 0 360
  expectedAngleB : Randint 0 360
  angleTolerance : Randint 1 15

/-- The draws in `random`. -/
structure ModuleDraws (maxSpecs : ℤ) where
  pointCount : Randint 1 maxPointCount
  /-- for the point with that index -/
  point : ℕ → PointDraws maxSpecs
  hasTorqueArm : Bool
  armLength : Uniform 100 500
  armOffset : Uniform (-50) 50
  rotationCenterX : Randint 100 700
  rotationCenterY : Randint 100 500
  name : Randint 1000 9999

variable {maxSpecs : ℤ}

/-- What `random` overrides in a point. -/
def randomPoint (x : PointDraws maxSpecs) : List (String × Json) :=
  [("x", int x.x), ("y", int x.y), ("expected_angle_a", int x.expectedAngleA),
    ("expected_angle_b", int x.expectedAngleB), ("angle_tolerance", int x.angleTolerance)]

/-- `random` -/
def random (r : Rounding 1) (moduleId : ℤ) (x : ModuleDraws maxSpecs) : ModuleConfig :=
  let positionPoints := (List.range x.pointCount.1.toNat).map fun i =>
    basePoint i (x.point i).screwSpec (randomPoint (x.point i))
  { moduleId := moduleId
    productName := "RandModule-" ++ toString moduleId ++ "-" ++ toString x.name.1
    positionPoints := positionPoints
    pointCount := positionPoints.length
    torqueArmConfig :=
      if x.hasTorqueArm then
        some [("arm_length", .num (r.round x.armLength)),
          ("arm_offset", .num (r.round x.armOffset)),
          ("rotation_center_x", int x.rotationCenterX),
          ("rotation_center_y", int x.rotationCenterY)]
      else none }

end ModuleFactory

end SasTests.Helpers
