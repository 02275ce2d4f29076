import SasTests.Python.Json
import Mathlib.Data.List.Nodup

/-!
# Looking a system parameter up

The reply of `get_system_params` has the parameters in a dictionary or in a list of records, and the
records have two ways of writing their keys. `_extract_system_param_value` and two functions called
`_get_param_value` find the value of a parameter in any of them.

`independent_iff` says for which parameters they find the same in all three: those that are not
mapped to the empty text. The fixture that puts the machine type back writes nothing in this case,
although there was a value (`restores_iff`).
-/

namespace SasTests.SystemParamLookup

open Python Json

/-! ## The code -/

/-- How records write a key, in the order in which a function tries them. -/
structure Keys where
  first : String
  second : String

/-- The loop through a list of records. -/
def findRecord (names values : Keys) (paramName : String) : List Json → Except PyError Json
  | [] => .ok .null
  | item :: items => do
    let first ← item.get names.first
    let second ← item.get names.second
    if first.eqStr paramName || second.eqStr paramName then
      let value ← item.get values.first
      if value.truthy then return value else item.get values.second
    else findRecord names values paramName items

/-- What is done with `resp.get("data", resp)`. -/
def lookup (names values : Keys) (resp : Json) (paramName : String) : Except PyError Json := do
  match ← resp.get "data" resp with
  | .arr items => findRecord names values paramName items
  | .obj fields => return field fields paramName
  | _ => return .null

/-- `_extract_system_param_value` of the enforcement tests and of the compliance tests -/
def extractSystemParamValue : Json → String → Except PyError Json :=
  lookup ⟨"param_name", "paramName"⟩ ⟨"param_value", "paramValue"⟩

/-- `_get_param_value` of the tests of the work mode, for the reply -/
def WorkModeSwitch.getParamValue : Json → String → Except PyError Json :=
  lookup ⟨"paramName", "param_name"⟩ ⟨"paramValue", "param_value"⟩

/-- `_get_param_value` of the tests of the single screw, for the reply -/
def SingleScrew.getParamValue : Json → String → Except PyError Json :=
  lookup ⟨"paramName", "param_name"⟩ ⟨"paramValue", "param_value"⟩

/-- `str(value)`; `repr` is `str` of what is not a text. -/
def text (repr : Json → String) : Json → String
  | .str s => s
  | value => repr value

/-- The message of `_set_system_param`. -/
def setSystemParam (paramName value : String) : List (String × Json) :=
  [("type", .str "system_param_update"), ("param_name", .str paramName),
    ("param_value", .str value), ("modify_user", .str "test")]

/-- What `restore_current_machine_type` sends behind the `yield`, given the reply before it. -/
def restoreCurrentMachineType (repr : Json → String) (originalParams : Json) :
    Except PyError (Option (List (String × Json))) := do
  match ← extractSystemParamValue originalParams "CurrentMachineType" with
  | .null => return none
  | originalValue => return some (setSystemParam "CurrentMachineType" (text repr originalValue))

/-! ## Replies -/

/-- A finite map from the names of parameters to their values. -/
structure Params where
  entries : List (String × String)
  nodup : (entries.map Prod.fst).Nodup

/-- The value of a parameter, if there is one. -/
def Params.value (p : Params) (name : String) : Option String := p.entries.lookup name

/-- A record with these keys, and not with the others. -/
def IsRecord (name value otherName otherValue : String) (item : Json) (entry : String × String) :
    Prop :=
  ∃ fields, item = .obj fields ∧ fields.lookup name = some (.str entry.1) ∧
    fields.lookup value = some (.str entry.2) ∧ fields.lookup otherName = none ∧
    fields.lookup otherValue = none

/-- A list of records, in any order. -/
def Records (name value otherName otherValue : String) (p : Params) (items : List Json) : Prop :=
  ∃ entries, entries.Perm p.entries ∧
    List.Forall₂ (IsRecord name value otherName otherValue) items entries

/-- The shapes that the parameters have in a reply. -/
inductive Shape
  /-- a dictionary -/
  | object
  /-- records with `param_name` and `param_value` -/
  | snake
  /-- records with `paramName` and `paramValue` -/
  | camel

/-- The reply has the parameters in that shape. -/
def Carries (p : Params) (resp : Json) : Shape → Prop
  | .object => ∃ fields, resp.get "data" resp = .ok (.obj fields) ∧
      ∀ name, fields.lookup name = (p.value name).map .str
  | .snake => ∃ items, resp.get "data" resp = .ok (.arr items) ∧
      Records "param_name" "param_value" "paramName" "paramValue" p items
  | .camel => ∃ items, resp.get "data" resp = .ok (.arr items) ∧
      Records "paramName" "paramValue" "param_name" "param_value" p items

/-- The functions that look a parameter up. -/
def lookups : List (Json → String → Except PyError Json) :=
  [extractSystemParamValue, WorkModeSwitch.getParamValue, SingleScrew.getParamValue]

/-- A text, or `None`. -/
def orNone (value : Option String) : Json := (value.map .str).getD .null

/-- Whatever the shape of the reply, all functions find the value of the parameter, and `None` only
if there is none. -/
def Independent (p : Params) (name : String) : Prop :=
  ∀ resp shape, Carries p resp shape → ∀ f ∈ lookups, f resp name = .ok (orNone (p.value name))

/-- Whatever the shape of the reply, the fixture writes back the machine type if there was one. -/
def Restores (repr : Json → String) (p : Params) : Prop :=
  ∀ resp shape, Carries p resp shape → restoreCurrentMachineType repr resp =
    .ok ((p.value "CurrentMachineType").map (setSystemParam "CurrentMachineType"))

/-! ## Lists of records -/

/-- In a list with distinct keys, a key is looked up where it is. -/
theorem lookup_eq_some_iff_mem {α : Type} {l : List (String × α)} (h : (l.map Prod.fst).Nodup)
    {key : String} {value : α} : l.lookup key = some value ↔ (key, value) ∈ l := by
  induction l with
  | nil => simp
  | cons p l ih =>
    obtain ⟨k, v⟩ := p
    rw [List.map_cons, List.nodup_cons] at h
    rw [List.lookup_cons, List.mem_cons, Prod.mk.injEq]
    by_cases hk : key = k
    · subst hk
      have hnot : (key, value) ∉ l := fun hmem => h.1 (List.mem_map.mpr ⟨_, hmem, rfl⟩)
      simp [hnot, eq_comm]
    · have hne : (key == k) = false := beq_eq_false_iff_ne.mpr hk
      simp [hne, hk, ih h.2]

/-- The order does not matter. -/
theorem lookup_perm {α : Type} {l l' : List (String × α)} (h : (l.map Prod.fst).Nodup)
    (hperm : l'.Perm l) (key : String) : l'.lookup key = l.lookup key := by
  have h' : (l'.map Prod.fst).Nodup := (hperm.map Prod.fst).nodup_iff.mpr h
  refine Option.ext fun value => ?_
  rw [lookup_eq_some_iff_mem h, lookup_eq_some_iff_mem h', hperm.mem_iff]

/-- What a function reads in a record with this name and this value. -/
def Reads (names values : Keys) (item : Json) (name : String) (value : Json) : Prop :=
  ∃ fields, item = .obj fields ∧
    (∀ paramName, ((field fields names.first).eqStr paramName ||
      (field fields names.second).eqStr paramName) = decide (name = paramName)) ∧
    (if (field fields values.first).truthy then field fields values.first
      else field fields values.second) = value

/-- The loop finds the record with the name. -/
theorem findRecord_eq {names values : Keys} {found : String → Json} {items : List Json}
    {entries : List (String × String)}
    (h : List.Forall₂ (fun item entry => Reads names values item entry.1 (found entry.2))
      items entries) (paramName : String) :
    findRecord names values paramName items =
      .ok (((entries.lookup paramName).map found).getD .null) := by
  induction h with
  | nil => rfl
  | @cons item entry items entries hitem _ ih =>
    obtain ⟨fields, rfl, hname, hvalue⟩ := hitem
    simp only [findRecord, get_obj, bind, Except.bind, hname, decide_eq_true_eq]
    rw [List.lookup_cons]
    by_cases heq : entry.1 = paramName
    · have hvalue' : (if (field fields values.first).truthy = true then
          pure (field fields values.first) else .ok (field fields values.second)) =
            (.ok (found entry.2) : Except PyError Json) := by
        rw [← hvalue]
        split <;> rfl
      rw [if_pos heq, hvalue', heq]
      simp
    · have hne : (paramName == entry.1) = false := beq_eq_false_iff_ne.mpr (Ne.symm heq)
      rw [if_neg heq, hne, ih]

/-- A text, but `None` for the empty one. -/
def unlessEmpty (value : String) : Json := if value = "" then .null else .str value

/-- A record whose keys are tried first: an empty value is taken for a missing one. -/
theorem reads_first {name value otherName otherValue : String} {item : Json}
    {entry : String × String} (h : IsRecord name value otherName otherValue item entry) :
    Reads ⟨name, otherName⟩ ⟨value, otherValue⟩ item entry.1 (unlessEmpty entry.2) := by
  obtain ⟨fields, rfl, hname, hvalue, hotherName, hotherValue⟩ := h
  refine ⟨fields, rfl, fun paramName => ?_, ?_⟩
  · simp [field, hname, hotherName, eqStr, Bool.beq_eq_decide_eq]
  · simp only [field, hvalue, hotherValue, Option.getD_some, Option.getD_none, truthy, ne_eq,
      unlessEmpty]
    by_cases hempty : entry.2 = "" <;> simp [hempty]

/-- A record whose keys are tried second. -/
theorem reads_second {name value otherName otherValue : String} {item : Json}
    {entry : String × String} (h : IsRecord name value otherName otherValue item entry) :
    Reads ⟨otherName, name⟩ ⟨otherValue, value⟩ item entry.1 (.str entry.2) := by
  obtain ⟨fields, rfl, hname, hvalue, hotherName, hotherValue⟩ := h
  refine ⟨fields, rfl, fun paramName => ?_, ?_⟩
  · simp [field, hname, hotherName, eqStr, Bool.beq_eq_decide_eq]
  · simp [field, hvalue, hotherValue, truthy]

/-! ## Independence of the shape -/

/-- What the functions that try these keys first find in records that are written with them. -/
theorem lookup_first {name value otherName otherValue : String} {p : Params} {resp : Json}
    {items : List Json} (hresp : resp.get "data" resp = .ok (.arr items))
    (hrecords : Records name value otherName otherValue p items) (paramName : String) :
    lookup ⟨name, otherName⟩ ⟨value, otherValue⟩ resp paramName =
      .ok (((p.value paramName).map unlessEmpty).getD .null) := by
  obtain ⟨entries, hperm, hitems⟩ := hrecords
  rw [lookup, hresp, Params.value, ← lookup_perm p.nodup hperm]
  exact findRecord_eq (hitems.imp fun _ _ => reads_first) paramName

/-- What the functions that try these keys second find in them. -/
theorem lookup_second {name value otherName otherValue : String} {p : Params} {resp : Json}
    {items : List Json} (hresp : resp.get "data" resp = .ok (.arr items))
    (hrecords : Records name value otherName otherValue p items) (paramName : String) :
    lookup ⟨otherName, name⟩ ⟨otherValue, value⟩ resp paramName =
      .ok (orNone (p.value paramName)) := by
  obtain ⟨entries, hperm, hitems⟩ := hrecords
  rw [lookup, hresp, Params.value, ← lookup_perm p.nodup hperm]
  exact findRecord_eq (hitems.imp fun _ _ => reads_second) paramName

/-- In a dictionary, every function finds the value. -/
theorem lookup_object {names values : Keys} {p : Params} {resp : Json} {fields : List (String × Json)}
    (hresp : resp.get "data" resp = .ok (.obj fields))
    (hfields : ∀ name, fields.lookup name = (p.value name).map .str) (paramName : String) :
    lookup names values resp paramName = .ok (orNone (p.value paramName)) := by
  rw [lookup, hresp]
  refine congrArg Except.ok ?_
  rw [field, hfields, orNone]

/-- A value that is not empty is found. -/
theorem unlessEmpty_of_ne {value : Option String} (h : value ≠ some "") :
    (value.map unlessEmpty).getD .null = orNone value := by
  cases value with
  | none => rfl
  | some value => exact if_neg fun hempty => h (congrArg some hempty)

theorem independent_of_ne {p : Params} {name : String} (h : p.value name ≠ some "") :
    Independent p name := by
  intro resp shape hcarries f hf
  have hblank := unlessEmpty_of_ne h
  simp only [lookups, List.mem_cons, List.not_mem_nil, or_false] at hf
  cases shape with
  | object =>
    obtain ⟨fields, hresp, hfields⟩ := hcarries
    rcases hf with rfl | rfl | rfl <;> exact lookup_object hresp hfields name
  | snake =>
    obtain ⟨items, hresp, hrecords⟩ := hcarries
    rcases hf with rfl | rfl | rfl
    · exact hblank ▸ lookup_first hresp hrecords name
    · exact lookup_second hresp hrecords name
    · exact lookup_second hresp hrecords name
  | camel =>
    obtain ⟨items, hresp, hrecords⟩ := hcarries
    rcases hf with rfl | rfl | rfl
    · exact lookup_second hresp hrecords name
    · exact hblank ▸ lookup_first hresp hrecords name
    · exact hblank ▸ lookup_first hresp hrecords name

/-- A reply with the parameters in records with `param_name` and `param_value`. -/
def snakeReply (p : Params) : Json :=
  .obj [("data", .arr (p.entries.map fun entry =>
    .obj [("param_name", .str entry.1), ("param_value", .str entry.2)]))]

theorem carries_snakeReply (p : Params) : Carries p (snakeReply p) .snake := by
  refine ⟨_, rfl, p.entries, .refl _, ?_⟩
  rw [List.forall₂_map_left_iff, List.forall₂_same]
  exact fun entry _ => ⟨_, rfl, rfl, rfl, rfl, rfl⟩

/-- There, an empty value is not found by `_extract_system_param_value`. -/
theorem extract_snakeReply (p : Params) (name : String) :
    extractSystemParamValue (snakeReply p) name =
      .ok (((p.value name).map unlessEmpty).getD .null) := by
  obtain ⟨items, hresp, hrecords⟩ := carries_snakeReply p
  exact lookup_first hresp hrecords name

/-- **The value of a parameter is found in replies of all shapes exactly if it is not the empty
text**, and the fixture puts the machine type back exactly if it was not.

In a dictionary the empty text is found. In a record the value is looked for under two keys, the
second if what stands under the first is taken to be false, so there it is not. -/
theorem independent_iff (p : Params) (name : String) (repr : Json → String) :
    (Independent p name ↔ p.value name ≠ some "") ∧
      (Restores repr p ↔ p.value "CurrentMachineType" ≠ some "") := by
  refine ⟨⟨fun h hempty => ?_, independent_of_ne⟩, fun h hempty => ?_, fun h => ?_⟩
  · have hfound := h _ .snake (carries_snakeReply p) extractSystemParamValue (List.mem_cons_self ..)
    rw [extract_snakeReply, hempty] at hfound
    cases hfound
  · have hsent := h _ .snake (carries_snakeReply p)
    rw [restoreCurrentMachineType, extract_snakeReply, hempty] at hsent
    cases hsent
  · intro resp shape hcarries
    have hfound := independent_of_ne h resp shape hcarries _ (List.mem_cons_self ..)
    rw [restoreCurrentMachineType, hfound]
    cases p.value "CurrentMachineType" <;> rfl

/-- The machine type is the empty text. -/
def noMachineType : Params where
  entries := [("CurrentMachineType", "")]
  nodup := List.nodup_singleton _

/-- In records with `param_name` and `param_value` it is not found, and it is not put back. -/
theorem empty_value_lost : ¬∀ (p : Params) (name : String) (repr : Json → String),
    Independent p name ∧ Restores repr p := by
  intro h
  have hsent := (h noMachineType "CurrentMachineType" fun _ => "").2 _ .snake
    (carries_snakeReply noMachineType)
  cases hsent

end SasTests.SystemParamLookup
