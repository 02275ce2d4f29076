import SasTests.Python.Json

/-!
# Dictionaries with keys of any kind

`dict(x)` of a JSON value: a copy of a dictionary, or a dictionary made of a sequence of pairs,
whose keys need not be strings. The items are in insertion order. A key that is there already keeps
its first spelling (`True` stays `True` when `1` is assigned to).
-/

namespace Python

/-- The items of a dictionary whose keys are hashable values. -/
abbrev Items : Type := List (Json × Json)

namespace Items

/-- The two values are one key. -/
def sameKey (x y : Json) : Bool := x.key.toOption == y.key.toOption

/-- `d[key]`, if it is there. -/
def find (items : Items) (key : Json) : Option Json :=
  match items with
  | [] => none
  | (k, v) :: rest => if sameKey key k then some v else find rest key

/-- `d[key] = value` -/
def assign (key value : Json) : Items → Items
  | [] => [(key, value)]
  | (k, v) :: rest => if sameKey key k then (k, value) :: rest else (k, v) :: assign key value rest

/-- `{**d, **items}` -/
def update (d items : Items) : Items := items.foldl (fun d p => assign p.1 p.2 d) d

/-- The dictionary that `json.loads` made. -/
def ofFields (fields : List (String × Json)) : Items := fields.map fun p => (.str p.1, p.2)

/-- An element of a sequence of pairs: a sequence of two. -/
def pair : Json → Except PyError (Json × Json)
  | .arr [k, v] => .ok (k, v)
  | .arr _ => .error .valueError
  | .str s => match s.toList with
    | [c, d] => .ok (.str (String.singleton c), .str (String.singleton d))
    | _ => .error .valueError
  | .obj [(k, _), (k', _)] => .ok (.str k, .str k')
  | .obj _ => .error .valueError
  | _ => .error .typeError

/-- `dict` of a sequence. -/
def ofPairs (elements : List Json) : Except PyError Items :=
  elements.foldlM (fun d x => do
    let (k, v) ← pair x
    let _ ← k.key
    return assign k v d) []

/-- `dict(x)` -/
def dict : Json → Except PyError Items
  | .obj fields => .ok (ofFields fields)
  | .arr elements => ofPairs elements
  | .str s => ofPairs (s.toList.map fun c => .str (String.singleton c))
  | _ => .error .typeError

/-- What `json.dumps` writes for a key; `number` says what it writes for a number. -/
def keyText (number : ℚ → String) : Json → String
  | .str s => s
  | .null => "null"
  | .bool b => if b then "true" else "false"
  | .num q => number q
  | .nonFinite name => name
  | _ => ""

/-- What `json.loads` makes of `json.dumps` of a dictionary. -/
def dumped (number : ℚ → String) (items : Items) : List (String × Json) :=
  Json.update [] (items.map fun p => (keyText number p.1, p.2))

example : dict (.arr [.arr [.bool true, .null], .str "ab", .arr [.num 1, .str "x"]]) =
    .ok [(.bool true, .str "x"), (.str "a", .str "b")] := by rfl

@[simp] theorem sameKey_self (x : Json) : sameKey x x = true := beq_self_eq_true _

theorem sameKey_str (s t : String) : sameKey (.str s) (.str t) = decide (s = t) := by
  by_cases h : s = t <;> simp [sameKey, Json.key, Except.toOption, h]

theorem sameKey_trans {x y : Json} (h : sameKey x y = true) (z : Json) :
    sameKey z x = sameKey z y := by
  rw [sameKey, sameKey, eq_of_beq h]

theorem find_assign (key key' value : Json) (d : Items) :
    (assign key value d).find key' = if sameKey key' key then some value else d.find key' := by
  induction d with
  | nil => rfl
  | cons p d ih =>
    by_cases hk : sameKey key p.1
    · have hk' := sameKey_trans hk key'
      by_cases h : sameKey key' key <;> simp_all [assign, find]
    · rw [assign, if_neg hk, find, find, ih]
      by_cases hp : sameKey key' p.1
      · have hne : ¬ sameKey key' key = true := by
          intro h
          rw [sameKey, eq_of_beq h] at hp
          exact hk hp
        rw [if_pos hp, if_neg hne, if_pos hp]
      · rw [if_neg hp, if_neg hp]

/-- What an update leaves under a key depends on what was there under this key only. -/
theorem find_update_congr {d d' : Items} {key : Json} (h : d.find key = d'.find key)
    (items : Items) : (update d items).find key = (update d' items).find key := by
  induction items generalizing d d' with
  | nil => exact h
  | cons p items ih =>
    rw [update, update, List.foldl_cons, List.foldl_cons]
    apply ih
    rw [find_assign, find_assign, h]

/-- Assigning to a key before an update leaves the other keys alone. -/
theorem find_update_assign {key key' : Json} (h : sameKey key' key = false) (value : Json)
    (d items : Items) : (update d (assign key value items)).find key' =
      (update d items).find key' := by
  have hassign : ∀ (k v : Json) (d : Items), sameKey key k = true →
      (assign k v d).find key' = d.find key' := by
    intro k v d hk
    rw [find_assign, ← sameKey_trans hk, h, if_neg Bool.false_ne_true]
  induction items generalizing d with
  | nil => exact hassign key value d (sameKey_self key)
  | cons p items ih =>
    rw [assign]
    split
    next hk =>
      rw [update, update, List.foldl_cons, List.foldl_cons]
      apply find_update_congr
      rw [hassign p.1 value d hk, hassign p.1 p.2 d hk]
    next => exact ih _

theorem assign_of_find_eq_none {d : Items} {key : Json} (h : d.find key = none) (value : Json) :
    assign key value d = d ++ [(key, value)] := by
  induction d with
  | nil => rfl
  | cons p d ih =>
    rw [find] at h
    split at h
    next => cases h
    next hk => rw [assign, if_neg hk, ih h, List.cons_append]

/-- An update with new keys appends the items. -/
theorem update_ofFields {d : Items} {fields : List (String × Json)}
    (hnew : ∀ p ∈ fields, d.find (.str p.1) = none) (hkeys : (fields.map Prod.fst).Nodup) :
    update d (ofFields fields) = d ++ ofFields fields := by
  induction fields generalizing d with
  | nil => exact (List.append_nil d).symm
  | cons p fields ih =>
    obtain ⟨hp, hnew⟩ := List.forall_mem_cons.mp hnew
    rw [List.map_cons, List.nodup_cons] at hkeys
    rw [update, ofFields, List.map_cons, List.foldl_cons, assign_of_find_eq_none hp, ← update,
      ← ofFields, ih _ hkeys.2, List.append_assoc, List.singleton_append]
    intro q hq
    have hne : q.1 ≠ p.1 := fun h => hkeys.1 (List.mem_map.mpr ⟨q, hq, h⟩)
    rw [← assign_of_find_eq_none hp p.2, find_assign, sameKey_str, decide_eq_false hne]
    exact hnew q hq

theorem find_ofFields (fields : List (String × Json)) (key : String) :
    (ofFields fields).find (.str key) = fields.lookup key := by
  induction fields with
  | nil => rfl
  | cons p fields ih =>
    rw [ofFields, List.map_cons, find, ← ofFields, ih, sameKey_str, List.lookup_cons]
    by_cases h : key = p.1
    · simp [h]
    · simp [h, beq_eq_false_iff_ne.mpr h]

theorem assign_ofFields (key : String) (value : Json) (fields : List (String × Json)) :
    assign (.str key) value (ofFields fields) = ofFields (Json.assign key value fields) := by
  induction fields with
  | nil => rfl
  | cons p fields ih =>
    rw [ofFields, List.map_cons, assign, ← ofFields, ih, sameKey_str, Json.assign]
    by_cases h : key = p.1
    · simp [ofFields, h]
    · simp [ofFields, h, Ne.symm h]

/-- Dumping a dictionary that was loaded gives it back. -/
theorem lookup_dumped_ofFields (number : ℚ → String) {fields : List (String × Json)}
    (hkeys : (fields.map Prod.fst).Nodup) (key : String) :
    (dumped number (ofFields fields)).lookup key = fields.lookup key := by
  have hmap : (ofFields fields).map (fun p => (keyText number p.1, p.2)) = fields := by
    rw [ofFields, List.map_map]
    exact List.map_id _
  rw [dumped, hmap]
  by_cases h : key ∈ fields.map Prod.fst
  · obtain ⟨p, hp, rfl⟩ := List.mem_map.mp h
    obtain ⟨before, after, rfl⟩ := List.append_of_mem hp
    rw [Json.lookup_update_of_mem hp hkeys, eq_comm, List.lookup_eq_some_iff]
    refine ⟨before, after, rfl, fun q hq => bne_iff_ne.mpr fun heq => ?_⟩
    rw [List.map_append, List.nodup_append] at hkeys
    exact hkeys.2.2 q.1 (List.mem_map_of_mem hq) p.1 (by simp) heq.symm
  · rw [Json.lookup_update_of_notMem h, eq_comm, List.lookup_nil, List.lookup_eq_none_iff]
    intro p hp
    exact bne_iff_ne.mpr fun heq => h (List.mem_map.mpr ⟨p, hp, heq.symm⟩)

end Items

end Python
