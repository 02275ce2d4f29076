import SasTests.Python.Float
import Mathlib.Data.Rat.Lemmas

/-!
# Restoring the barcode bindings

The test of the barcode bindings reads them, turns them into a request
(`_request_bindings_payload`), adds one of its own, and in the end sends the request without it, to
restore what was there. The request names the fields differently, and it has a value for every
field.

`restores_iff` says exactly when the server then holds the bindings that were read.
-/

namespace SasTests.BarcodeBindings

open Python Json

/-! ## The code -/

/-- The items of a dictionary. -/
abbrev Fields : Type := List (String × Json)

/-- One pass of the loop in `_request_bindings_payload`; `int` is `int` of a text. -/
def requestBinding (int : String → Except PyError ℤ) (item : Json) : Except PyError Fields := do
  let key ← item.get "barcode_key"
  let targetId ← item.get "screw_id"
  let enabled ← item.get "enabled" (.bool true)
  let policy ← item.get "policy"
  let maxScrewCount ← item.get "max_screw_count" (.num 1)
  let maxScrewCount ← (if maxScrewCount.truthy then maxScrewCount else .num 1).toInt int
  let ngStrategy ← item.get "ng_strategy" (.str "RETRY")
  return [("key", key), ("target_id", targetId), ("enabled", .bool enabled.truthy),
    ("policy", policy), ("max_screw_count", .num maxScrewCount), ("ng_strategy", ngStrategy)]

/-- `_request_bindings_payload` -/
def requestBindingsPayload (int : String → Except PyError ℤ) (bindingsFromQuery : List Json) :
    Except PyError (List Fields) :=
  bindingsFromQuery.mapM (requestBinding int)

/-! ## The server -/

/-- The binding that the server holds after a `barcode_bindings_update` with this one. -/
def stored (request : Fields) : Fields :=
  [("barcode_key", field request "key"), ("screw_id", field request "target_id"),
    ("enabled", field request "enabled"), ("policy", field request "policy"),
    ("max_screw_count", field request "max_screw_count"),
    ("ng_strategy", field request "ng_strategy")]

/-- The fields of a binding. -/
def bindingKeys : List String :=
  ["barcode_key", "screw_id", "enabled", "policy", "max_screw_count", "ng_strategy"]

/-- All fields of the binding are what they were. -/
def Unchanged (before after : Fields) : Prop :=
  ∀ key ∈ bindingKeys, after.lookup key = before.lookup key

/-- Writing back what the query returned leaves as many bindings, in the same order, unchanged. -/
def Restores (int : String → Except PyError ℤ) (bindings : List Fields) : Prop :=
  ∃ payload, requestBindingsPayload int (bindings.map .obj) = .ok payload ∧
    List.Forall₂ Unchanged bindings (payload.map stored)

/-! ## What is restored -/

/-- A binding that the request can express: it has all fields, it is enabled or not, and its number
of screws is a number of screws, and not 0. -/
structure Plain (item : Fields) : Prop where
  present : ∀ key ∈ bindingKeys, (item.lookup key).isSome
  enabled : ∃ b, item.lookup "enabled" = some (.bool b)
  maxScrewCount : ∃ n : ℤ, n ≠ 0 ∧ item.lookup "max_screw_count" = some (.num n)

/-- The request for a binding, but for its number of screws. -/
def request (item : Fields) (maxScrewCount : ℤ) : Fields :=
  [("key", field item "barcode_key"), ("target_id", field item "screw_id"),
    ("enabled", .bool (field item "enabled" (.bool true)).truthy),
    ("policy", field item "policy"), ("max_screw_count", .num maxScrewCount),
    ("ng_strategy", field item "ng_strategy" (.str "RETRY"))]

/-- `item.get("max_screw_count", 1) or 1` -/
def countOrOne (item : Fields) : Json :=
  let maxScrewCount := field item "max_screw_count" (.num 1)
  if maxScrewCount.truthy then maxScrewCount else .num 1

/-- Only the number of screws can be refused. -/
theorem requestBinding_eq_ok {int : String → Except PyError ℤ} {item r : Fields} :
    requestBinding int (.obj item) = .ok r ↔
      ∃ n, (countOrOne item).toInt int = .ok n ∧ r = request item n := by
  have hcode : requestBinding int (.obj item) =
      (countOrOne item).toInt int >>= fun n => .ok (request item n) := rfl
  rw [hcode]
  constructor
  · intro h
    obtain ⟨n, hn, h⟩ := bind_eq_ok h
    exact ⟨n, hn, (Except.ok.inj h).symm⟩
  · rintro ⟨n, hn, rfl⟩
    rw [hn]
    rfl

/-- A field with a default is unchanged if it is there. -/
theorem some_field_iff {item : Fields} {key : String} {default : Json} :
    some (field item key default) = item.lookup key ↔ (item.lookup key).isSome := by
  rw [field]
  cases item.lookup key <;> simp

/-- A truth value is unchanged if it is one. -/
theorem some_bool_iff {item : Fields} {key : String} {default : Json} :
    some (.bool (field item key default).truthy) = item.lookup key ↔
      ∃ b, item.lookup key = some (.bool b) := by
  rw [field]
  constructor
  · exact fun h => ⟨_, h.symm⟩
  · rintro ⟨b, h⟩
    rw [h]
    rfl

/-- `int(x or 1)` is `x` for the integers other than 0 only. -/
theorem toInt_countOrOne {int : String → Except PyError ℤ} {item : Fields} {n : ℤ}
    (h : item.lookup "max_screw_count" = some (.num n)) :
    (countOrOne item).toInt int = .ok n ↔ n ≠ 0 := by
  rw [countOrOne, field_of_lookup h]
  by_cases hn : n = 0
  · subst hn
    simp [truthy, toInt, number?]
  · have htruthy : (num (n : ℚ)).truthy = true := by simpa [truthy] using hn
    rw [if_pos htruthy]
    simp [toInt, number?, hn]

/-- What the server holds is the binding if all fields are. -/
theorem unchanged_request_iff {item : Fields} {n : ℤ} :
    Unchanged item (stored (request item n)) ↔
      (∀ key ∈ bindingKeys, (item.lookup key).isSome) ∧
        (∃ b, item.lookup "enabled" = some (.bool b)) ∧
        item.lookup "max_screw_count" = some (.num n) := by
  have hstored : Unchanged item (stored (request item n)) ↔
      some (field item "barcode_key") = item.lookup "barcode_key" ∧
        some (field item "screw_id") = item.lookup "screw_id" ∧
        some (.bool (field item "enabled" (.bool true)).truthy) = item.lookup "enabled" ∧
        some (field item "policy") = item.lookup "policy" ∧
        some (.num n) = item.lookup "max_screw_count" ∧
        some (field item "ng_strategy" (.str "RETRY")) = item.lookup "ng_strategy" := by
    simp only [Unchanged, bindingKeys, List.forall_mem_cons, List.not_mem_nil, false_implies,
      implies_true, and_true]
    rfl
  rw [hstored]
  simp only [some_field_iff, some_bool_iff, bindingKeys, List.forall_mem_cons, List.not_mem_nil,
    false_implies, implies_true, and_true]
  constructor
  · rintro ⟨hkey, hid, ⟨b, henabled⟩, hpolicy, hcount, hstrategy⟩
    exact ⟨⟨hkey, hid, by simp [henabled], hpolicy, by simp [← hcount], hstrategy⟩,
      ⟨b, henabled⟩, hcount.symm⟩
  · rintro ⟨⟨hkey, hid, -, hpolicy, -, hstrategy⟩, henabled, hcount⟩
    exact ⟨hkey, hid, henabled, hpolicy, hcount.symm, hstrategy⟩

/-- A binding is restored if it is plain. -/
theorem restored_iff {int : String → Except PyError ℤ} {item : Fields} :
    (∃ r, requestBinding int (.obj item) = .ok r ∧ Unchanged item (stored r)) ↔ Plain item := by
  constructor
  · rintro ⟨r, hr, h⟩
    obtain ⟨n, hn, rfl⟩ := requestBinding_eq_ok.mp hr
    obtain ⟨hpresent, henabled, hcount⟩ := unchanged_request_iff.mp h
    exact ⟨hpresent, henabled, n, (toInt_countOrOne hcount).mp hn, hcount⟩
  · rintro ⟨hpresent, henabled, n, hn, hcount⟩
    exact ⟨_, requestBinding_eq_ok.mpr ⟨n, (toInt_countOrOne hcount).mpr hn, rfl⟩,
      unchanged_request_iff.mpr ⟨hpresent, henabled, hcount⟩⟩

/-- **Writing the bindings back restores them exactly if all of them are plain.**

The request has a value for every field, a truth value for `enabled`, and a number of screws that is
an integer and not 0; what was anything else comes back changed, or `int` raises and nothing comes
back. What `int` makes of a text does not matter for this. -/
theorem restores_iff (int : String → Except PyError ℤ) (bindings : List Fields) :
    Restores int bindings ↔ ∀ item ∈ bindings, Plain item := by
  simp only [Restores, requestBindingsPayload, List.mapM_map, List.forall₂_map_right_iff,
    mapM_forall₂_iff, Function.comp_def, restored_iff]

/-- A binding without a limit on its screws. -/
def unlimited : Fields :=
  [("barcode_key", .str "A-1"), ("screw_id", .num 3), ("enabled", .bool true),
    ("policy", .str "ONE_TO_ONE"), ("max_screw_count", .num 0), ("ng_strategy", .str "RETRY")]

/-- It comes back with a limit of 1. -/
theorem zero_becomes_one : ¬∀ (int : String → Except PyError ℤ) (bindings : List Fields),
    Restores int bindings := by
  intro h
  obtain ⟨payload, hrun, hsame⟩ := h (fun _ => .error .valueError) [unlimited]
  obtain rfl : [request unlimited 1] = payload := Except.ok.inj hrun
  have hcount := (List.forall₂_cons.mp hsame).1 "max_screw_count" (by decide)
  have hone : some (Json.num 1) = some (.num 0) := hcount
  cases hone

end SasTests.BarcodeBindings
