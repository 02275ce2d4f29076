import SasTests.ConfigRoundtrips
import Mathlib.Tactic.Linarith

/-!
# The tests of the peripherals

Each of the eight tests that change settings is a `Roundtrip`: which requests it makes, what it
makes of the settings that it reads, and what it compares.

* `passes` — against a device that works each of them passes, and the settings are put back.
* `ignored_iff` — against a device that reports success and stores nothing most of them fail. The
  test of the torque arm passes if the offset is so large that the change is within the tolerance,
  the test of the torque optimization if both times are positive, because it changes nothing then,
  and the test of unscrewing always.
-/

namespace SasTests

open Python Python.Json Exits ConfigRoundtrip
open PfopEnv (Fields Builtins)
open CheckTorqueConstraints (iterate)

/-- The tests that change settings and put them back. -/
inductive Peripheral
  | beeper
  | driverButton
  | inputIo
  | outputIo
  | torqueOptimize
  | unscrew
  | portConfig
  | torqueArm
  deriving DecidableEq

namespace Peripherals

/-- `x == v` for a boolean or a number `v`. -/
def equals (x v : Json) : Bool := x.number? = v.number?

/-- `resp["data"]` -/
def data (resp : Fields) : Except PyError Json := (Json.obj resp).getItem "data"

/-- `resp["data"].get(key, default)` -/
def dataGet (resp : Fields) (key : String) (default : Json := .null) : Except PyError Json := do
  (← data resp).get key default

/-- `bool(before.get(key, False))` -/
def flag (before : Fields) (key : String) : Json := .bool (field before key (.bool false)).truthy

/-- `not bool(before.get(key, False))` -/
def flipped (before : Fields) (key : String) : Json :=
  .bool !(field before key (.bool false)).truthy

/-- `resp["data"]`, for a test that asks it for its settings next. -/
def dataFields (resp : Fields) : Except PyError Fields := do
  asFields (← data resp)

/-- `resp.get("data", {})`, for a test that asks it for its settings next. -/
def dataOrEmpty (resp : Fields) : Except PyError Fields := asFields (field resp "data" (.obj []))

/-- `after["data"].get(key) == v` -/
def holds (after : Fields) (key : String) (v : Json) : Except PyError Bool := do
  return equals (← dataGet after key) v

/-- `for k, v in target.items(): assert after["data"].get(k) == v` -/
def sameAs (target after : Fields) : Except PyError Bool :=
  target.allM fun p => holds after p.1 p.2

/-! ## Single settings -/

/-- `test_beeper_config_roundtrip`; `dict(before)` comes before the first `before.get`. -/
def beeper : Roundtrip where
  get := "beeper_param_get"
  set := "beeper_config"
  strict := false
  before base := do
    let before ← data base
    let _ ← Items.dict before
    asFields before
  change before := .ok {
    target := assign "soundOkEnable" (flipped before "soundOkEnable") before
    check after := holds after "soundOkEnable" (flipped before "soundOkEnable") }

/-- `test_driver_button_config_roundtrip` -/
def driverButton : Roundtrip where
  get := "driver_button_param_get"
  set := "driver_button_config"
  strict := false
  before := dataFields
  change before := .ok {
    target := [("negativeClose", flipped before "negativeClose"),
      ("positiveClose", flag before "positiveClose"),
      ("startupMode", field before "startupMode" (.str "lever"))]
    check after := holds after "negativeClose" (flipped before "negativeClose") }

/-- `test_input_io_config_roundtrip` -/
def inputIo : Roundtrip where
  get := "input_io_param_get"
  set := "input_io_config"
  strict := false
  before := dataFields
  change before :=
    let target := [("resetSwitch", flipped before "resetSwitch"),
      ("powerOnStart", flag before "powerOnStart"), ("forwardStart", flag before "forwardStart"),
      ("reverseStart", flag before "reverseStart")]
    .ok ⟨target, sameAs target⟩

section

variable (b : Builtins)

/-- `int(before.get(key, default))` -/
def integer (before : Fields) (key : String) (default : ℚ) : Except PyError ℤ :=
  (field before key (.num default)).toInt b.int

/-- `target` of the outputs. -/
def outputTarget (before : Fields) (ngPulse okPulse finishPulse : ℤ) : Fields :=
  [("ngOut", flipped before "ngOut"), ("okOut", flag before "okOut"),
    ("finishOut", flag before "finishOut"), ("ngType", flag before "ngType"),
    ("okType", flag before "okType"), ("ngPulse", .num ngPulse), ("okPulse", .num okPulse),
    ("finishPulse", .num finishPulse)]

/-- `test_output_io_config_roundtrip` -/
def outputIo : Roundtrip where
  get := "output_io_param_get"
  set := "output_io_config"
  strict := false
  before := dataFields
  change before := do
    let ngPulse ← raising (integer b before "ngPulse" 300)
    let okPulse ← raising (integer b before "okPulse" 300)
    let finishPulse ← raising (integer b before "finishPulse" 300)
    let target := outputTarget before ngPulse okPulse finishPulse
    return ⟨target, sameAs target⟩

/-- `int(after["data"].get(key, -1)) == int(v)` -/
def sameInteger (after : Fields) (key : String) (v : Json) : Except PyError Bool := do
  let x ← (← dataGet after key (.num (-1))).toInt b.int
  return x = (← v.toInt b.int)

/-- `for k, v in target.items(): assert int(after["data"].get(k, -1)) == int(v)` -/
def sameIntegers (target after : Fields) : Except PyError Bool :=
  target.allM fun p => sameInteger b after p.1 p.2

/-- `target` of the torque optimization. -/
def optimizeTarget (torqueOptTime velOptTime stopTorquePercent : ℤ) : Fields :=
  [("torqueOptTime", .num (max 1 torqueOptTime : ℤ)), ("velOptTime", .num (max 1 velOptTime : ℤ)),
    ("stopTorquePercent", .num stopTorquePercent)]

/-- `test_torque_optimize_config_roundtrip` -/
def torqueOptimize : Roundtrip where
  get := "torque_optimize_param_get"
  set := "torque_optimize_config"
  strict := false
  before := dataFields
  change before := do
    let torqueOptTime ← raising (integer b before "torqueOptTime" 30)
    let velOptTime ← raising (integer b before "velOptTime" 30)
    let stopTorquePercent ← raising (integer b before "stopTorquePercent" 80)
    let target := optimizeTarget torqueOptTime velOptTime stopTorquePercent
    return ⟨target, sameIntegers b target⟩

/-- `target` of unscrewing. -/
def unscrewTarget (torque : PyFloat) (vel time angle : ℤ) : Fields :=
  [("unScrewTorque", torque.toJson), ("unScrewVel", .num vel), ("unScrewTime", .num time),
    ("unScrewAngle", .num angle)]

/-- `abs(float(after["data"].get("unScrewTorque", 0.0)) - target["unScrewTorque"]) < 0.5` -/
def sameTorque (torque : PyFloat) (after : Fields) : Except PyError Bool := do
  let x ← (← dataGet after "unScrewTorque" (.num 0)).toFloat
  return (x.sub torque).abs.lt (.finite 0.5)

/-- `test_unscrew_config_roundtrip`; of the four settings it compares the torque only. -/
def unscrew : Roundtrip where
  get := "unscrew_param_get"
  set := "unscrew_config"
  strict := false
  before := dataFields
  change before := do
    let torque ← raising (field before "unScrewTorque" (.num 1.2)).toFloat
    let vel ← raising (integer b before "unScrewVel" 200)
    let time ← raising (integer b before "unScrewTime" 500)
    let angle ← raising (integer b before "unScrewAngle" 90)
    return ⟨unscrewTarget torque vel time angle, sameTorque torque⟩

/-! ## Settings in lists -/

/-- `x[0]` -/
def first : Json → Except PyError Json
  | .arr (x :: _) => .ok x
  | .arr [] => .error .indexError
  | .str s => match s.toList with
    | c :: _ => .ok (.str (String.singleton c))
    | [] => .error .indexError
  | .obj _ => .error .keyError
  | _ => .error .typeError

/-- `new[0]["enabled"] = not bool(new[0].get("enabled", False))`, and the value. -/
def flipFirst : List Items → List Items × Bool
  | [] => ([], false)
  | x :: rest =>
    let enabled := !((x.find (.str "enabled")).getD (.bool false)).truthy
    (x.assign (.str "enabled") (.bool enabled) :: rest, enabled)

/-- A list of dictionaries, as it is sent. -/
def sent (xs : List Items) : Json := .arr (xs.map fun x => .obj (x.dumped b.number))

/-- `bool(verify["data"][key][0]["enabled"])` -/
def firstEnabled (verify : Fields) (key : String) : Except PyError Bool := do
  return (← (← first (← (← data verify).getItem key)).getItem "enabled").truthy

/-- `payload` -/
def portPayload (inputs outputs : List Items) : Fields :=
  [("inputs", sent b inputs), ("outputs", sent b outputs)]

/-- What the ports are changed to: the first input is flipped, or the first output. -/
def portChange (inputs outputs : List Items) : Change :=
  if inputs.isEmpty then
    { target := portPayload b inputs (flipFirst outputs).1
      check verify := do return (← firstEnabled verify "outputs") == (flipFirst outputs).2 }
  else
    { target := portPayload b (flipFirst inputs).1 outputs
      check verify := do return (← firstEnabled verify "inputs") == (flipFirst inputs).2 }

/-- `test_port_config_save_roundtrip` -/
def portConfig : Roundtrip where
  get := "port_config_get"
  set := "port_config_save"
  strict := true
  before := dataOrEmpty
  change before := do
    let inputs ← raising (iterate (field before "inputs" (.arr [])))
    let outputs ← raising (iterate (field before "outputs" (.arr [])))
    if inputs.isEmpty && outputs.isEmpty then throw .nothing
    let newInputs ← raising (inputs.mapM Items.dict)
    let newOutputs ← raising (outputs.mapM Items.dict)
    return portChange b newInputs newOutputs

end

/-- What `==` says of a value and `pytest.approx` of a number. -/
structure Approx where
  /-- `x == pytest.approx(y)` -/
  equal : Json → PyFloat → Bool
  /-- the tolerance is a millionth of the expected number, or `1e-12` if that is more -/
  equal_num : ∀ p q : ℚ, equal (.num p) (.finite q) = decide (|p - q| ≤ max (1e-6 * |q|) 1e-12)

variable (approx : Approx)

/-- `x + 1.5` -/
def addOffset (x : Json) : Except PyError PyFloat :=
  match x.number? with
  | some y => .ok (y.add (.finite 1.5))
  | none => .error .typeError

/-- `after["data"]["angle_offsets"][0] == pytest.approx(target["angle_offsets"][0])` -/
def sameOffset (target : PyFloat) (after : Fields) : Except PyError Bool := do
  return approx.equal (← first (← (← data after).getItem "angle_offsets")) target

/-- `test_torque_arm_config_update_roundtrip` -/
def torqueArm : Roundtrip where
  get := "torque_arm_config_get"
  set := "torque_arm_config_update"
  strict := false
  before := dataOrEmpty
  change before := do
    let offsets ← raising (iterate (field before "angle_offsets" (.arr [.num 0, .num 0, .num 0,
      .num 0])))
    let offset ← raising (first (.arr offsets))
    let target ← raising (addOffset offset)
    return ⟨assign "angle_offsets" (.arr (target.toJson :: offsets.tail)) before,
      sameOffset approx target⟩

end Peripherals

open Peripherals

namespace Peripheral

/-- The test. -/
def roundtrip (b : Builtins) (approx : Approx) : Peripheral → Roundtrip
  | beeper => Peripherals.beeper
  | driverButton => Peripherals.driverButton
  | inputIo => Peripherals.inputIo
  | outputIo => Peripherals.outputIo b
  | torqueOptimize => Peripherals.torqueOptimize b
  | unscrew => Peripherals.unscrew b
  | portConfig => Peripherals.portConfig b
  | torqueArm => Peripherals.torqueArm approx

/-- The settings that the test writes. -/
def names : Peripheral → List String
  | beeper => ["soundOkEnable"]
  | driverButton => ["negativeClose", "positiveClose", "startupMode"]
  | inputIo => ["resetSwitch", "powerOnStart", "forwardStart", "reverseStart"]
  | outputIo => ["ngOut", "okOut", "finishOut", "ngType", "okType", "ngPulse", "okPulse",
      "finishPulse"]
  | torqueOptimize => ["torqueOptTime", "velOptTime", "stopTorquePercent"]
  | unscrew => ["unScrewTorque", "unScrewVel", "unScrewTime", "unScrewAngle"]
  | portConfig => ["inputs", "outputs"]
  | torqueArm => ["angle_offsets"]

/-- The settings that it reads as integers. -/
def integers : Peripheral → List String
  | outputIo => ["ngPulse", "okPulse", "finishPulse"]
  | torqueOptimize => ["torqueOptTime", "velOptTime", "stopTorquePercent"]
  | unscrew => ["unScrewVel", "unScrewTime", "unScrewAngle"]
  | _ => []

theorem integers_subset (p : Peripheral) : p.integers ⊆ p.names := by
  cases p <;> decide

/-- A list of dictionaries that `json.loads` made. -/
def IsRecords (x : Json) (records : List Fields) : Prop :=
  x = .arr (records.map .obj) ∧ ∀ record ∈ records, (record.map Prod.fst).Nodup

/-- The settings are those that the test is about. -/
structure Knows (b : Builtins) (p : Peripheral) (settings : Fields) : Prop where
  names : ∀ key ∈ p.names, (settings.lookup key).isSome = true
  integers : ∀ key ∈ p.integers, ∃ n, (field settings key).toInt b.int = .ok n
  torque : p = unscrew → ∃ q, (field settings "unScrewTorque").toFloat = .ok (.finite q)
  ports : p = portConfig → ∃ inputs outputs, IsRecords (field settings "inputs") inputs ∧
    IsRecords (field settings "outputs") outputs ∧ (inputs ≠ [] ∨ outputs ≠ [])
  offset : p = torqueArm → ∃ x rest, field settings "angle_offsets" = .arr (.num x :: rest)

/-- The test does not notice that its changes were not stored. -/
def Unnoticed (b : Builtins) (settings : Fields) : Peripheral → Prop
  | torqueOptimize => ∀ key ∈ ["torqueOptTime", "velOptTime"], ∃ n,
      (field settings key).toInt b.int = .ok n ∧ 1 ≤ n
  | unscrew => True
  | torqueArm => ∃ x rest, field settings "angle_offsets" = .arr (.num x :: rest) ∧
      1500000 ≤ |x + 1.5|
  | _ => False

end Peripheral

namespace Peripherals

/-! ## What is read back -/

@[simp] theorem data_reading (fields : Fields) : data (reading fields) = .ok (.obj fields) := rfl

@[simp] theorem dataGet_reading (fields : Fields) (key : String) (default : Json) :
    dataGet (reading fields) key default = .ok (field fields key default) := rfl

theorem holds_reading (fields : Fields) (key : String) (v : Json) :
    holds (reading fields) key v = .ok (equals (field fields key) v) := rfl

/-- A loop of assertions that all hold. -/
theorem allM_eq_true {l : List (String × Json)} {f : String × Json → Except PyError Bool} :
    l.allM f = .ok true ↔ ∀ p ∈ l, f p = .ok true := by
  induction l with
  | nil => exact iff_of_true rfl nofun
  | cons p l ih =>
    rw [List.allM, List.forall_mem_cons]
    rcases f p with e | ⟨_ | _⟩
    · exact iff_of_false (fun h => by cases h) fun h => by cases h.1
    · exact iff_of_false (fun h => by cases h) fun h => by cases h.1
    · rw [and_iff_right rfl]
      exact ih

@[simp] theorem equals_self (x : Json) : equals x x = true := decide_eq_true rfl

/-- A setting is not what it is after it has been flipped. -/
theorem equals_not (x : Json) : equals x (.bool !x.truthy) = false := by
  apply decide_eq_false
  cases x with
  | bool b => cases b <;> simp [number?, truthy]
  | num q => by_cases h : q = 0 <;> simp [number?, truthy, h]
  | nonFinite name =>
    rw [number?.eq_def]
    intro h
    simp only [truthy] at h
    split at h <;> simp_all [number?]
  | _ => simp [number?]

theorem equals_flipped {fields : Fields} {key : String}
    (h : (fields.lookup key).isSome = true) :
    equals (field fields key) (flipped fields key) = false := by
  obtain ⟨value, hvalue⟩ := Option.isSome_iff_exists.mp h
  rw [flipped, field_of_lookup hvalue, field_of_lookup hvalue]
  exact equals_not value

/-- A default does not matter where there is a value. -/
theorem field_default {fields : Fields} {key : String} (h : (fields.lookup key).isSome = true)
    (default : Json) : field fields key default = field fields key := by
  obtain ⟨value, hvalue⟩ := Option.isSome_iff_exists.mp h
  rw [field_of_lookup hvalue, field_of_lookup hvalue]

/-- A name that a dictionary has is one of its names. -/
theorem mem_of_lookup {items : Fields} {key : String} (h : (items.lookup key).isSome = true) :
    key ∈ items.map Prod.fst := by
  obtain ⟨value, hvalue⟩ := Option.isSome_iff_exists.mp h
  obtain ⟨before, after, rfl, -⟩ := List.lookup_eq_some_iff.mp hvalue
  simp

/-- What has all the items of a dictionary has each of them. -/
theorem lookup_of_mem {items fields : Fields} (hkeys : (items.map Prod.fst).Nodup)
    (h : ∀ key value, items.lookup key = some value → fields.lookup key = some value)
    {p : String × Json} (hp : p ∈ items) : fields.lookup p.1 = some p.2 := by
  obtain ⟨before, after, rfl⟩ := List.append_of_mem hp
  refine h _ _ (List.lookup_eq_some_iff.mpr ⟨before, after, rfl, fun q hq => bne_iff_ne.mpr ?_⟩)
  rw [List.map_append, List.nodup_append] at hkeys
  exact (hkeys.2.2 q.1 (List.mem_map_of_mem hq) p.1 (by simp)).symm

/-! ## The tests against a device -/

open Peripheral (Knows Unnoticed)

/-- What the test makes of the settings, and whether it notices that nothing was stored. -/
def Settled (b : Builtins) (approx : Approx) (settings : Fields) (p : Peripheral) : Prop :=
  ∃ change, (p.roundtrip b approx).Fits settings change ∧
    (change.check (reading settings) = .ok true ↔ p.Unnoticed b settings)

section

variable {b : Builtins} {approx : Approx} {settings : Fields}

theorem exists_integer {p : Peripheral} (h : Knows b p settings) (key : String) (default : ℚ)
    (hkey : key ∈ p.integers) : ∃ n, (field settings key).toInt b.int = .ok n ∧
      raising (integer b settings key default) = .ok n := by
  obtain ⟨n, hn⟩ := h.integers key hkey
  refine ⟨n, hn, ?_⟩
  rw [integer, field_default (h.names key (p.integers_subset hkey)), hn]
  rfl

/-- The comparison of a setting that has been flipped. -/
theorem holds_flipped_iff {key : String} (h : (settings.lookup key).isSome = true) :
    holds (reading settings) key (flipped settings key) = .ok true ↔ False := by
  rw [holds_reading, equals_flipped h]
  exact iff_of_false (fun h => by cases h) id

/-- The comparison of a setting that is what it should be. -/
theorem holds_of_lookup {data : Fields} {key : String} {v : Json} (h : data.lookup key = some v) :
    holds (reading data) key v = .ok true := by
  rw [holds_reading, field_of_lookup h, equals_self]

/-- The comparison of all the settings. -/
theorem sameAs_of_lookup {data target : Fields} (hkeys : (target.map Prod.fst).Nodup)
    (h : ∀ key value, target.lookup key = some value → data.lookup key = some value) :
    sameAs target (reading data) = .ok true := by
  exact allM_eq_true.mpr fun p hp => holds_of_lookup (lookup_of_mem hkeys h hp)

/-- The comparison of all the settings, the first of which has been flipped. -/
theorem sameAs_flipped_iff {key : String} {target : Fields}
    (h : (settings.lookup key).isSome = true) :
    sameAs ((key, flipped settings key) :: target) (reading settings) = .ok true ↔ False := by
  rw [sameAs, allM_eq_true, List.forall_mem_cons, holds_flipped_iff h, false_and]

theorem beeper_settled (h : Knows b .beeper settings) : Settled b approx settings .beeper := by
  refine ⟨_, ⟨rfl, rfl, fun key hkey => ?_, fun data hdata => ?_⟩, ?_⟩
  · by_cases hsame : key = "soundOkEnable"
    · rw [hsame]
      exact h.names _ (List.mem_singleton_self _)
    · rwa [lookup_assign_of_ne _ _ hsame] at hkey
  · exact holds_of_lookup (hdata _ _ (lookup_assign_self "soundOkEnable" _ settings))
  · exact holds_flipped_iff (h.names _ (List.mem_singleton_self _))

theorem driverButton_settled (h : Knows b .driverButton settings) :
    Settled b approx settings .driverButton := by
  refine ⟨_, ⟨rfl, rfl, fun key hkey => ?_, fun data hdata => ?_⟩, ?_⟩
  · exact h.names key (mem_of_lookup hkey)
  · exact holds_of_lookup (hdata _ _ rfl)
  · exact holds_flipped_iff (h.names _ List.mem_cons_self)

theorem inputIo_settled (h : Knows b .inputIo settings) : Settled b approx settings .inputIo := by
  refine ⟨_, ⟨rfl, rfl, fun key hkey => ?_, fun data hdata => ?_⟩, ?_⟩
  · exact h.names key (mem_of_lookup hkey)
  · exact sameAs_of_lookup (show Peripheral.inputIo.names.Nodup by decide) hdata
  · exact sameAs_flipped_iff (h.names _ List.mem_cons_self)

theorem outputIo_settled (h : Knows b .outputIo settings) :
    Settled b approx settings .outputIo := by
  obtain ⟨ng, -, hng⟩ := exists_integer h "ngPulse" 300 (by decide)
  obtain ⟨ok, -, hok⟩ := exists_integer h "okPulse" 300 (by decide)
  obtain ⟨finish, -, hfinish⟩ := exists_integer h "finishPulse" 300 (by decide)
  let target := outputTarget settings ng ok finish
  refine ⟨⟨target, sameAs target⟩, ⟨rfl, ?_, fun key hkey => ?_, fun data hdata => ?_⟩, ?_⟩
  · simp only [Peripheral.roundtrip, outputIo, hng, hok, hfinish]
    rfl
  · exact h.names key (mem_of_lookup hkey)
  · exact sameAs_of_lookup (show Peripheral.outputIo.names.Nodup by decide) hdata
  · exact sameAs_flipped_iff (h.names _ List.mem_cons_self)

@[simp] theorem toInt_intCast (text : String → Except PyError ℤ) (n : ℤ) :
    (Json.num n).toInt text = .ok n := by
  simp [toInt, number?]

theorem sameInteger_reading {data : Fields} {key : String} {m n : ℤ}
    (hm : (field data key (.num (-1))).toInt b.int = .ok m) :
    sameInteger b (reading data) key (.num n) = .ok (decide (m = n)) := by
  simp [sameInteger, hm, bind, Except.bind, pure, Except.pure]

/-- A time is positive if and only if it is left as it is. -/
theorem eq_max_one_iff {n : ℤ} : n = max 1 n ↔ 1 ≤ n := by
  rw [eq_comm, max_eq_right_iff]

theorem torqueOptimize_settled (h : Knows b .torqueOptimize settings) :
    Settled b approx settings .torqueOptimize := by
  obtain ⟨torque, htorque', htorque⟩ := exists_integer h "torqueOptTime" 30 (by decide)
  obtain ⟨vel, hvel', hvel⟩ := exists_integer h "velOptTime" 30 (by decide)
  obtain ⟨stop, hstop', hstop⟩ := exists_integer h "stopTorquePercent" 80 (by decide)
  let target := optimizeTarget torque vel stop
  refine ⟨⟨target, sameIntegers b target⟩, ⟨rfl, ?_, fun key hkey => ?_, fun data hdata => ?_⟩, ?_⟩
  · simp only [Peripheral.roundtrip, torqueOptimize, htorque, hvel, hstop]
    rfl
  · exact h.names key (mem_of_lookup hkey)
  · have hpass : ∀ key (n : ℤ), target.lookup key = some (.num n) →
        sameInteger b (reading data) key (.num n) = .ok true := by
      intro key n hn
      have hread : (field data key (.num (-1))).toInt b.int = .ok n := by
        rw [field_of_lookup (hdata key _ hn), toInt_intCast]
      rw [sameInteger_reading hread, decide_eq_true rfl]
    simp only [sameIntegers, allM_eq_true, target, optimizeTarget, List.forall_mem_cons]
    exact ⟨hpass "torqueOptTime" _ rfl, hpass "velOptTime" _ rfl, hpass "stopTorquePercent" _ rfl,
      nofun⟩
  · have hpass : ∀ {key : String} {m n : ℤ}, key ∈ Peripheral.torqueOptimize.names →
        (field settings key).toInt b.int = .ok m →
        (sameInteger b (reading settings) key (.num n) = .ok true ↔ m = n) := by
      intro key m n hkey hm
      have hread : (field settings key (.num (-1))).toInt b.int = .ok m := by
        rw [field_default (h.names key hkey), hm]
      rw [sameInteger_reading hread, Except.ok.injEq, decide_eq_true_eq]
    simp only [sameIntegers, allM_eq_true, target, optimizeTarget, List.forall_mem_cons,
      Unnoticed, hpass (by decide) htorque', hpass (by decide) hvel', hpass (by decide) hstop',
      eq_max_one_iff, htorque', hvel', Except.ok.injEq]
    simp

theorem unscrew_settled (h : Knows b .unscrew settings) : Settled b approx settings .unscrew := by
  obtain ⟨vel, -, hvel⟩ := exists_integer h "unScrewVel" 200 (by decide)
  obtain ⟨time, -, htime⟩ := exists_integer h "unScrewTime" 500 (by decide)
  obtain ⟨angle, -, hangle⟩ := exists_integer h "unScrewAngle" 90 (by decide)
  obtain ⟨q, hq⟩ := h.torque rfl
  have hread : ∀ default, (field settings "unScrewTorque" default).toFloat = .ok (.finite q) := by
    intro default
    rw [field_default (h.names "unScrewTorque" (by decide)), hq]
  have htorque : raising (field settings "unScrewTorque" (.num 1.2)).toFloat = .ok (.finite q) := by
    rw [hread]
    rfl
  have hpass : ∀ {data : Fields}, (field data "unScrewTorque" (.num 0)).toFloat = .ok (.finite q) →
      sameTorque (.finite q) (reading data) = .ok true := by
    intro data hdata
    simp only [sameTorque, dataGet_reading]
    change ((field data "unScrewTorque" (.num 0)).toFloat >>= _) = _
    rw [hdata]
    change Except.ok (((PyFloat.finite q).sub (.finite q)).abs.lt (.finite 0.5)) = _
    norm_num
  refine ⟨⟨unscrewTarget (.finite q) vel time angle, sameTorque (.finite q)⟩,
    ⟨rfl, ?_, fun key hkey => ?_, fun data hdata => ?_⟩, iff_of_true ?_ trivial⟩
  · simp only [Peripheral.roundtrip, unscrew, htorque, hvel, htime, hangle]
    rfl
  · exact h.names key (mem_of_lookup hkey)
  · apply hpass
    rw [field_of_lookup (hdata "unScrewTorque" _ rfl)]
    rfl
  · exact hpass (hread _)

/-! ### Settings in lists -/

/-- The first record after it has been flipped. -/
def flippedRecord (record : Fields) : Fields := assign "enabled" (flipped record "enabled") record

theorem flipFirst_records (record : Fields) (records : List Fields) :
    flipFirst ((record :: records).map Items.ofFields) =
      (Items.ofFields (flippedRecord record) :: records.map Items.ofFields,
        !(field record "enabled" (.bool false)).truthy) := by
  rw [List.map_cons, flipFirst, Items.find_ofFields, Items.assign_ofFields]
  rfl

theorem lookup_dumped_flippedRecord {record : Fields} (h : (record.map Prod.fst).Nodup) :
    ((Items.ofFields (flippedRecord record)).dumped b.number).lookup "enabled" =
      some (flipped record "enabled") := by
  rw [flippedRecord, Items.lookup_dumped_ofFields b.number (nodup_assign _ _ h)]
  exact lookup_assign_self _ _ _

/-- The first record says whether it is enabled. -/
theorem firstEnabled_reading {data record : Fields} {records : List Json} {key : String}
    (h : data.lookup key = some (.arr (.obj record :: records))) :
    firstEnabled (reading data) key =
      (Json.obj record).getItem "enabled" >>= fun x => .ok x.truthy := by
  have hitem : (Json.obj data).getItem key = .ok (.arr (.obj record :: records)) := by
    rw [getItem, h]
  rw [firstEnabled, data_reading]
  change (Json.obj data).getItem key >>= _ = _
  rw [hitem]
  rfl

/-- The comparison of the first record after it has been stored. -/
theorem firstEnabled_stored {data record : Fields} {records : List Items} {key : String}
    (hrecord : (record.map Prod.fst).Nodup)
    (h : data.lookup key =
      some (sent b (Items.ofFields (flippedRecord record) :: records))) :
    firstEnabled (reading data) key = .ok (!(field record "enabled" (.bool false)).truthy) := by
  rw [firstEnabled_reading h, getItem, lookup_dumped_flippedRecord hrecord]
  rfl

/-- The comparison of the first record if nothing was stored. -/
theorem firstEnabled_ignored {data record : Fields} {records : List Json} {key : String}
    (h : data.lookup key = some (.arr (.obj record :: records))) :
    firstEnabled (reading data) key ≠ .ok (!(field record "enabled" (.bool false)).truthy) := by
  rw [firstEnabled_reading h, getItem]
  cases hvalue : record.lookup "enabled" with
  | none => exact fun h => by cases h
  | some value =>
    rw [field_of_lookup hvalue]
    intro heq
    have hsame : value.truthy = !value.truthy := Except.ok.inj heq
    cases hv : value.truthy <;> rw [hv] at hsame <;> cases hsame

/-- A setting that is a list of records. -/
theorem lookup_of_isRecords {key : String} {records : List Fields}
    (h : Peripheral.IsRecords (field settings key) records) :
    settings.lookup key = some (.arr (records.map .obj)) := by
  have hfield := h.1
  rw [field] at hfield
  cases hvalue : settings.lookup key with
  | none =>
    rw [hvalue] at hfield
    cases hfield
  | some value =>
    rw [hvalue] at hfield
    exact congrArg some hfield

theorem mapM_dict (records : List Fields) :
    (records.map Json.obj).mapM Items.dict = .ok (records.map Items.ofFields) := by
  induction records with
  | nil => rfl
  | cons record records ih =>
    rw [List.map_cons, List.mapM_cons, ih]
    rfl

theorem beq_ok_iff {x : Except PyError Bool} {c : Bool} :
    (do return (← x) == c : Except PyError Bool) = .ok true ↔ x = .ok c := by
  rcases x with e | y
  · exact iff_of_false (fun h => by cases h) fun h => by cases h
  · cases y <;> cases c <;> decide

/-- The test makes its change if it gets its records. -/
theorem portConfig_change {inputs outputs : List Fields}
    (hinputs : settings.lookup "inputs" = some (.arr (inputs.map .obj)))
    (houtputs : settings.lookup "outputs" = some (.arr (outputs.map .obj)))
    (hany : inputs ≠ [] ∨ outputs ≠ []) : (portConfig b).change settings =
      .ok (portChange b (inputs.map Items.ofFields) (outputs.map Items.ofFields)) := by
  have hnonempty : ((inputs.map Json.obj).isEmpty && (outputs.map Json.obj).isEmpty) = false := by
    rcases hany with hne | hne <;> simp [hne]
  simp only [portConfig, field_of_lookup hinputs, field_of_lookup houtputs, iterate]
  change (if ((inputs.map Json.obj).isEmpty && (outputs.map Json.obj).isEmpty) = true then _
    else raising ((inputs.map Json.obj).mapM Items.dict) >>= fun newInputs =>
      raising ((outputs.map Json.obj).mapM Items.dict) >>= fun newOutputs =>
        .ok (portChange b newInputs newOutputs)) = _
  rw [hnonempty, if_neg Bool.false_ne_true, mapM_dict, mapM_dict]
  rfl

theorem portConfig_settled (h : Knows b .portConfig settings) :
    Settled b approx settings .portConfig := by
  obtain ⟨inputs, outputs, hinputs, houtputs, hany⟩ := h.ports rfl
  have hin := lookup_of_isRecords hinputs
  have hout := lookup_of_isRecords houtputs
  have hchange := portConfig_change (b := b) hin hout hany
  cases inputs with
  | cons input inputs =>
    refine ⟨_, ⟨rfl, hchange, fun key hkey => h.names key (mem_of_lookup hkey),
      fun data hdata => beq_ok_iff.mpr ?_⟩, beq_ok_iff.trans (iff_of_false ?_ id)⟩
    · have hstored := hdata "inputs" _ rfl
      rw [flipFirst_records] at hstored ⊢
      exact firstEnabled_stored (hinputs.2 input List.mem_cons_self) hstored
    · rw [flipFirst_records]
      exact firstEnabled_ignored hin
  | nil =>
    cases outputs with
    | nil => exact absurd hany (by simp)
    | cons output outputs =>
      refine ⟨_, ⟨rfl, hchange, fun key hkey => h.names key (mem_of_lookup hkey),
        fun data hdata => beq_ok_iff.mpr ?_⟩, beq_ok_iff.trans (iff_of_false ?_ id)⟩
      · have hstored := hdata "outputs" _ rfl
        rw [flipFirst_records] at hstored ⊢
        exact firstEnabled_stored (houtputs.2 output List.mem_cons_self) hstored
      · rw [flipFirst_records]
        exact firstEnabled_ignored hout

theorem sameOffset_reading {data : Fields} {p q : ℚ} {rest : List Json}
    (h : data.lookup "angle_offsets" = some (.arr (.num p :: rest))) :
    sameOffset approx (.finite q) (reading data) =
      .ok (decide (|p - q| ≤ max (1e-6 * |q|) 1e-12)) := by
  have hitem : (Json.obj data).getItem "angle_offsets" = .ok (.arr (.num p :: rest)) := by
    rw [getItem, h]
  rw [sameOffset, data_reading, ← approx.equal_num]
  change (Json.obj data).getItem "angle_offsets" >>= _ = _
  rw [hitem]
  rfl

theorem torqueArm_settled (h : Knows b .torqueArm settings) :
    Settled b approx settings .torqueArm := by
  obtain ⟨x, rest, hfield⟩ := h.offset rfl
  have hlookup : settings.lookup "angle_offsets" = some (.arr (.num x :: rest)) := by
    obtain ⟨value, hvalue⟩ := Option.isSome_iff_exists.mp (h.names "angle_offsets" (by decide))
    rw [field_of_lookup hvalue] at hfield
    rw [hvalue, hfield]
  refine ⟨⟨assign "angle_offsets" (.arr (.num (x + 1.5) :: rest)) settings,
    sameOffset approx (.finite (x + 1.5))⟩, ⟨rfl, ?_, fun key hkey => ?_, fun data hdata => ?_⟩, ?_⟩
  · simp only [Peripheral.roundtrip, torqueArm, field_of_lookup hlookup]
    rfl
  · by_cases hsame : key = "angle_offsets"
    · rw [hsame]
      exact h.names _ (List.mem_singleton_self _)
    · rwa [lookup_assign_of_ne _ _ hsame] at hkey
  · have hread := hdata _ _ (lookup_assign_self "angle_offsets" _ settings)
    refine (sameOffset_reading hread).trans (congrArg Except.ok ?_)
    norm_num
  · have hpast : |x - (x + 1.5)| = 1.5 := by
      rw [sub_add_cancel_left, abs_neg]
      norm_num
    have htolerance : 1.5 ≤ max (1e-6 * |x + 1.5|) 1e-12 ↔ 1500000 ≤ |x + 1.5| := by
      rw [le_max_iff, or_iff_left (by norm_num)]
      constructor <;> intro hle <;> linarith
    have hcheck : sameOffset approx (.finite (x + 1.5)) (reading settings) = .ok true ↔
        1500000 ≤ |x + 1.5| := by
      rw [sameOffset_reading hlookup, Except.ok.injEq, decide_eq_true_eq, hpast, htolerance]
    refine hcheck.trans ⟨fun hle => ⟨x, rest, hfield, hle⟩, ?_⟩
    rintro ⟨y, others, hsame, hle⟩
    rw [hfield] at hsame
    cases hsame
    exact hle

end

end Peripherals

open Peripherals

variable {b : Builtins} {approx : Approx}

theorem Peripheral.settled (approx : Approx) {p : Peripheral} {settings : Fields}
    (h : p.Knows b settings) : Settled b approx settings p := by
  cases p with
  | beeper => exact beeper_settled h
  | driverButton => exact driverButton_settled h
  | inputIo => exact inputIo_settled h
  | outputIo => exact outputIo_settled h
  | torqueOptimize => exact torqueOptimize_settled h
  | unscrew => exact unscrew_settled h
  | portConfig => exact portConfig_settled h
  | torqueArm => exact torqueArm_settled h

namespace Peripheral

/-- **When the settings are afterwards what they were:** what was written changed nothing, or the
device reports success, then reads back what the test wants, and stores what is put back. There is
no other way, because nothing is put back once the test has failed. -/
theorem putsBack_iff {σ : Type} (dev : Device σ) {answers : Answers σ} {s : σ} {p : Peripheral}
    (h : p.Knows b (dev.report s))
    (hbase : ∀ base before, answers.base s = .reply base →
      (p.roundtrip b approx).before base = .ok before → before = dev.report s) :
    Ends ((p.roundtrip b approx).test dev.store answers) s (· = s) ↔
      ∀ before change, (p.roundtrip b approx).Writes answers s before change →
        (answers.save s).done = true → dev.store change.target s ≠ s →
          Roundtrip.Saved answers s ∧
            (p.roundtrip b approx).Agrees answers change (dev.store change.target s) ∧
            (answers.restore (dev.store change.target s)).done = true := by
  obtain ⟨change, hfits, -⟩ := settled approx h
  refine Roundtrip.ends_eq_iff dev hbase fun change' hchange' => ?_
  obtain rfl := Except.ok.inj (hfits.change_eq.symm.trans hchange')
  exact hfits.known

/-- Sound is on. -/
def soundOn : Fields := [("soundOkEnable", .bool true)]

/-- The second reading is not answered. -/
def unread : Answers Fields := { honest id with after := fun _ => .silence false }

/-- Equality of numbers within the tolerance. -/
def numbers : Approx where
  equal x y := match x.number?, y with
    | some (.finite p), .finite q => decide (|p - q| ≤ max (1e-6 * |q|) 1e-12)
    | x, y => decide (x = some y ∧ y ≠ .nan)
  equal_num _ _ := rfl

/-- The sound stays off, because its second reading got lost. -/
theorem beeper_not_putsBack : ¬Ends (((beeper.roundtrip .ascii numbers).test
    Device.replacing.store unread)) soundOn (· = soundOn) := by
  have hknows : beeper.Knows .ascii (Device.replacing.report soundOn) :=
    ⟨by decide, (fun _ h => by cases h), nofun, nofun, nofun⟩
  rw [putsBack_iff Device.replacing hknows fun base before hbase hbefore => by
    cases hbase
    exact (Except.ok.inj hbefore).symm]
  intro h
  have hchanged : [("soundOkEnable", Json.bool false)] ≠ soundOn := fun h => by cases h
  obtain ⟨-, ⟨resp, hresp, -⟩, -⟩ := h soundOn _ ⟨_, rfl, rfl, rfl, rfl⟩ rfl hchanged
  cases hresp

/-- **Against a device that works every test passes** and puts the settings back.

The device may keep its settings in any way, as long as it reports what was stored and storing what
it has reported undoes a change. The settings are those that the test is about (`Knows`): all that
it writes are there, and it can read those that it makes numbers of. -/
theorem passes {σ : Type} (dev : Device σ) {s : σ} {p : Peripheral}
    (h : p.Knows b (dev.report s)) :
    ((p.roundtrip b approx).test dev.store (honest dev.report)).run s = .ok () s := by
  obtain ⟨change, hfits, -⟩ := settled approx h
  exact hfits.run_eq_ok

/-- The offset of the first axis is two million degrees. -/
def farOffset : Fields := [("angle_offsets", .arr [.num 2000000, .num 0])]

theorem torqueArm_knows : torqueArm.Knows .ascii farOffset :=
  ⟨by decide, (fun _ h => by cases h), nofun, nofun, fun _ => ⟨_, _, rfl⟩⟩

theorem torqueArm_passes : ((torqueArm.roundtrip .ascii numbers).test Device.replacing.store
    (honest Device.replacing.report)).run farOffset = .ok () farOffset :=
  passes Device.replacing torqueArm_knows

/-- **Which tests a device passes that reports success and stores nothing.**

A test that compares what it reads with what it has written notices that nothing was stored, if it
has written a change. Three may fail to notice: the test of unscrewing compares only the torque, and
writes the one it has read; that of the torque optimization writes the times it has read if they are
positive; and the offset of the torque arm is compared with a tolerance that grows with it. -/
theorem ignored_iff {σ : Type} (report : σ → Fields) {s : σ} {p : Peripheral}
    (h : p.Knows b (report s)) :
    (∃ s', ((p.roundtrip b approx).test (fun _ s => s) (honest report)).run s = .ok () s') ↔
      p.Unnoticed b (report s) := by
  obtain ⟨change, hfits, hunnoticed⟩ := settled approx h
  rw [← hunnoticed]
  have hpasses := Roundtrip.passes_iff (fun _ s => s) hfits.before_eq hfits.change_eq
  constructor
  · rintro ⟨s', hrun⟩
    exact ((hpasses s').mp hrun).1
  · intro hcheck
    exact ⟨s, (hpasses s).mpr ⟨hcheck, rfl⟩⟩

/-- A change that is within the tolerance is not missed. -/
theorem torqueArm_ignored : ∃ s, ((torqueArm.roundtrip .ascii numbers).test (fun _ s => s)
    (honest id)).run farOffset = .ok () s :=
  (ignored_iff id torqueArm_knows).mpr ⟨_, _, rfl, by norm_num⟩

end Peripheral

end SasTests
