import Mathlib.Data.List.Forall2
import Mathlib.Data.List.Infix
import Mathlib.Data.Rat.Defs

/-!
# JSON values as Python sees them

`json.loads` turns a JSON text into `None`, booleans, numbers, strings, lists and dictionaries.
Numbers are exact rationals. A dictionary is the list of its items in insertion order; looking a
key up finds its first item, and assigning to a key replaces the value in place or appends.

Every operation that Python refuses on a value of the wrong type returns the exception it raises.
-/

namespace Python

/-- The exceptions the modelled code raises, catches or lets through. -/
inductive PyError
  /-- `json.JSONDecodeError`, a subclass of `ValueError` -/
  | jsonDecodeError
  /-- `UnicodeDecodeError`, a subclass of `ValueError` -/
  | unicodeDecodeError
  /-- `UnicodeEncodeError`, a subclass of `ValueError` -/
  | unicodeEncodeError
  /-- a plain `ValueError`, raised by a built-in -/
  | valueError
  /-- a plain `ValueError` with its message -/
  | valueErrorText (text : String)
  /-- `RecursionError` -/
  | recursionError
  /-- `TypeError` -/
  | typeError
  /-- `AttributeError` -/
  | attributeError
  /-- `KeyError` -/
  | keyError
  /-- `AssertionError` with its message -/
  | assertionError (text : String)
  /-- `TimeoutError` with its message -/
  | timeoutError (text : String)
  /-- `websockets.ConnectionClosed` -/
  | connectionClosed
  /-- `RuntimeError` with its message -/
  | runtimeError (text : String)
  /-- `struct.error` -/
  | structError
  /-- `IndexError` -/
  | indexError
  /-- `ZeroDivisionError` -/
  | zeroDivisionError
  /-- `OverflowError` -/
  | overflowError
  deriving DecidableEq

/-- Inversion for two computations in a row: both returned. -/
theorem bind_eq_ok {α β : Type} {x : Except PyError α} {f : α → Except PyError β} {b : β}
    (h : x >>= f = .ok b) : ∃ a, x = .ok a ∧ f a = .ok b := by
  cases x with
  | error e => cases h
  | ok a => exact ⟨a, rfl, h⟩

/-- Two computations in a row return if the first one does, and the second one does for its
result. -/
theorem exists_bind_iff {α β : Type} {x : Except PyError α} {f : α → Except PyError β} :
    (∃ b, x >>= f = .ok b) ↔ ∃ a, x = .ok a ∧ ∃ b, f a = .ok b := by
  cases x with
  | error e => simp [bind, Except.bind]
  | ok a => simp [bind, Except.bind]

/-- A loop whose passes all return. -/
theorem mapM_eq_ok_map {α β : Type} {f : α → Except PyError β} {g : α → β} {l : List α}
    (h : ∀ a ∈ l, f a = .ok (g a)) : l.mapM f = .ok (l.map g) := by
  induction l with
  | nil => rfl
  | cons a l ih =>
    obtain ⟨ha, hl⟩ := List.forall_mem_cons.mp h
    rw [List.mapM_cons, ha, ih hl]
    rfl

/-- A loop whose passes return `g` of their elements, as far as these have `P`. -/
theorem mapM_eq_ok_iff {α β : Type} {f : α → Except PyError β} {g : α → β} {P : α → Prop}
    (h : ∀ a b, f a = .ok b ↔ P a ∧ b = g a) {l : List α} {bs : List β} :
    l.mapM f = .ok bs ↔ (∀ a ∈ l, P a) ∧ bs = l.map g := by
  induction l generalizing bs with
  | nil => simp [pure, Except.pure, eq_comm]
  | cons a l ih =>
    rw [List.mapM_cons, List.forall_mem_cons, List.map_cons]
    constructor
    · intro hrun
      obtain ⟨b, hb, hrun⟩ := bind_eq_ok hrun
      obtain ⟨bs', hbs, hrun⟩ := bind_eq_ok hrun
      obtain rfl := Except.ok.inj hrun
      obtain ⟨ha, rfl⟩ := (h a b).mp hb
      obtain ⟨hl, rfl⟩ := ih.mp hbs
      exact ⟨⟨ha, hl⟩, rfl⟩
    · rintro ⟨⟨ha, hl⟩, rfl⟩
      rw [(h a _).mpr ⟨ha, rfl⟩, ih.mpr ⟨hl, rfl⟩]
      rfl

/-- A loop whose passes all return something with `Q`. -/
theorem exists_mapM_eq_ok {α β : Type} {f : α → Except PyError β} {Q : β → Prop} {l : List α}
    (h : ∀ a ∈ l, ∃ b, f a = .ok b ∧ Q b) :
    ∃ bs, l.mapM f = .ok bs ∧ bs.length = l.length ∧ ∀ b ∈ bs, Q b := by
  induction l with
  | nil => exact ⟨[], rfl, rfl, nofun⟩
  | cons a l ih =>
    obtain ⟨⟨b, hb, hQ⟩, hl⟩ := List.forall_mem_cons.mp h
    obtain ⟨bs, hbs, hlength, hall⟩ := ih hl
    refine ⟨b :: bs, ?_, congrArg (· + 1) hlength, List.forall_mem_cons.mpr ⟨hQ, hall⟩⟩
    rw [List.mapM_cons, hb, hbs]
    rfl

/-- A loop whose passes all return something in relation to their element. -/
theorem mapM_forall₂_iff {α β : Type} {f : α → Except PyError β} {R : α → β → Prop} {l : List α} :
    (∃ bs, l.mapM f = .ok bs ∧ List.Forall₂ R l bs) ↔ ∀ a ∈ l, ∃ b, f a = .ok b ∧ R a b := by
  induction l with
  | nil => exact ⟨fun _ => nofun, fun _ => ⟨[], rfl, .nil⟩⟩
  | cons a l ih =>
    rw [List.forall_mem_cons, ← ih, List.mapM_cons]
    constructor
    · rintro ⟨_, hrun, hR⟩
      obtain ⟨b, hb, hrun⟩ := bind_eq_ok hrun
      obtain ⟨bs, hbs, hrun⟩ := bind_eq_ok hrun
      obtain rfl := Except.ok.inj hrun
      obtain ⟨hab, hR⟩ := List.forall₂_cons.mp hR
      exact ⟨⟨b, hb, hab⟩, bs, hbs, hR⟩
    · rintro ⟨⟨b, hb, hab⟩, bs, hbs, hR⟩
      refine ⟨b :: bs, ?_, .cons hab hR⟩
      rw [hb, hbs]
      rfl

/-- A JSON value. -/
inductive Json
  /-- `None` -/
  | null
  /-- `True` or `False` -/
  | bool (b : Bool)
  /-- an `int`, or a finite `float` -/
  | num (q : ℚ)
  /-- `NaN`, `Infinity` or `-Infinity`, which `json.loads` accepts -/
  | nonFinite (name : String)
  /-- a `str` -/
  | str (s : String)
  /-- a `list` -/
  | arr (items : List Json)
  /-- a `dict`: its items in insertion order -/
  | obj (fields : List (String × Json))

namespace Json

/-- `d.get(key, default)` on the items of a dictionary. -/
def field (fields : List (String × Json)) (key : String) (default : Json := null) : Json :=
  (fields.lookup key).getD default

/-- `d[key] = value` on the items of a dictionary. -/
def assign (key : String) (value : Json) : List (String × Json) → List (String × Json)
  | [] => [(key, value)]
  | (k, v) :: rest => if k = key then (k, value) :: rest else (k, v) :: assign key value rest

/-- `d.update(items)` on the items of a dictionary. -/
def update (fields items : List (String × Json)) : List (String × Json) :=
  items.foldl (fun d p => assign p.1 p.2 d) fields

/-- `d.setdefault(key, value)` on the items of a dictionary. -/
def setDefault (key : String) (value : Json) (fields : List (String × Json)) :
    List (String × Json) :=
  if (fields.lookup key).isSome then fields else assign key value fields

/-- `x.get(key, default)`: only a dictionary has a `get`. -/
def get (x : Json) (key : String) (default : Json := null) : Except PyError Json :=
  match x with
  | obj fields => .ok (field fields key default)
  | _ => .error .attributeError

/-- `x[key]` for a string key. -/
def getItem (x : Json) (key : String) : Except PyError Json :=
  match x with
  | obj fields => match fields.lookup key with
    | some v => .ok v
    | none => .error .keyError
  | _ => .error .typeError

/-- `key in x` for a string key: a key of a dictionary, an element of a list, a part of a
string. -/
def contains (x : Json) (key : String) : Except PyError Bool :=
  match x with
  | obj fields => .ok (fields.lookup key).isSome
  | arr items => .ok (items.any fun v => match v with
    | str s => s == key
    | _ => false)
  | str s => .ok (decide (key.toList <:+: s.toList))
  | _ => .error .typeError

/-- `bool(x)`. -/
def truthy : Json → Bool
  | null => false
  | bool b => b
  | num q => q ≠ 0
  | nonFinite _ => true
  | str s => s ≠ ""
  | arr items => !items.isEmpty
  | obj fields => !fields.isEmpty

/-- `x == s` for a string `s`. -/
def eqStr (x : Json) (s : String) : Bool :=
  match x with
  | str s' => s' == s
  | _ => false

/-- `x <= q` for a number `q`. -/
def leNum (x : Json) (q : ℚ) : Except PyError Bool :=
  match x with
  | num r => .ok (r ≤ q)
  | bool b => .ok ((if b then 1 else 0) ≤ q)
  | nonFinite name => .ok (name = "-Infinity")
  | _ => .error .typeError

/-- Does `hash(x)` succeed? Lists and dictionaries are unhashable. -/
def hashable : Json → Bool
  | arr _ => false
  | obj _ => false
  | _ => true

/-- A key of a dictionary. Equal values are one key: `True` is `1`. -/
inductive Key
  | none
  | num (q : ℚ)
  | nonFinite (name : String)
  | str (s : String)
  deriving DecidableEq

/-- The key that `x` is. -/
def key : Json → Except PyError Key
  | null => .ok .none
  | bool b => .ok (.num (if b then 1 else 0))
  | num q => .ok (.num q)
  | nonFinite name => .ok (.nonFinite name)
  | str s => .ok (.str s)
  | arr _ => .error .typeError
  | obj _ => .error .typeError

@[simp] theorem get_obj (fields : List (String × Json)) (key : String) (default : Json) :
    (obj fields).get key default = .ok (field fields key default) := rfl

/-- The key of a value that has one. -/
theorem exists_key {x : Json} (h : x.hashable = true) : ∃ k, x.key = .ok k := by
  cases x with
  | arr => cases h
  | obj => cases h
  | _ => exact ⟨_, rfl⟩

@[simp] theorem eqStr_iff {x : Json} {s : String} : x.eqStr s = true ↔ x = str s := by
  cases x <;> simp [eqStr]

theorem field_of_lookup {fields : List (String × Json)} {key : String} {value : Json}
    (h : fields.lookup key = some value) (default : Json) : field fields key default = value := by
  rw [field, h, Option.getD_some]

theorem lookup_assign_self (key : String) (value : Json) (fields : List (String × Json)) :
    (assign key value fields).lookup key = some value := by
  induction fields with
  | nil => simp [assign]
  | cons p rest ih =>
    by_cases hk : p.1 = key
    · simp [assign, hk]
    · have hne : (key == p.1) = false := beq_eq_false_iff_ne.mpr (Ne.symm hk)
      rw [assign, if_neg hk, List.lookup_cons, hne]
      exact ih

/-- Assigning to a key what it holds changes nothing. -/
theorem assign_of_lookup {key : String} {value : Json} {fields : List (String × Json)}
    (h : fields.lookup key = some value) : assign key value fields = fields := by
  induction fields with
  | nil => cases h
  | cons p rest ih =>
    obtain ⟨k, v⟩ := p
    by_cases hk : k = key
    · subst hk
      rw [List.lookup_cons_self] at h
      simp [assign, Option.some.inj h]
    · have hne : (key == k) = false := beq_eq_false_iff_ne.mpr (Ne.symm hk)
      rw [List.lookup_cons, hne] at h
      rw [assign, if_neg hk, ih h]

/-- Assigning to a key leaves the other keys alone. -/
theorem lookup_assign_of_ne {key key' : String} (value : Json) (fields : List (String × Json))
    (h : key' ≠ key) : (assign key value fields).lookup key' = fields.lookup key' := by
  induction fields with
  | nil => simp [assign, List.lookup_cons, beq_eq_false_iff_ne.mpr h]
  | cons p rest ih =>
    obtain ⟨k, v⟩ := p
    by_cases hk : k = key
    · subst hk
      simp [assign, List.lookup_cons, beq_eq_false_iff_ne.mpr h]
    · simp only [assign, if_neg hk, List.lookup_cons, ih]

/-- Assigning keeps the keys apart. -/
theorem nodup_assign (key : String) (value : Json) {fields : List (String × Json)}
    (h : (fields.map Prod.fst).Nodup) : ((assign key value fields).map Prod.fst).Nodup := by
  have hmem : ∀ (fields : List (String × Json)), ∀ k ∈ (assign key value fields).map Prod.fst,
      k = key ∨ k ∈ fields.map Prod.fst := by
    intro fields
    induction fields with
    | nil => simp [assign]
    | cons p rest ih =>
      by_cases hk : p.1 = key
      · simp [assign, hk]
      · simp only [assign, if_neg hk, List.map_cons, List.mem_cons]
        rintro k (rfl | hmem)
        · exact .inr (.inl rfl)
        · exact (ih k hmem).imp_right .inr
  induction fields with
  | nil => simp [assign]
  | cons p rest ih =>
    rw [List.map_cons, List.nodup_cons] at h
    by_cases hk : p.1 = key
    · rw [assign, if_pos hk, List.map_cons, List.nodup_cons]
      exact h
    · rw [assign, if_neg hk, List.map_cons, List.nodup_cons]
      exact ⟨fun hp => (hmem rest _ hp).elim hk h.1, ih h.2⟩

/-- Assigning to a key leaves what `get` returns for the other keys alone. -/
theorem field_assign_of_ne {key key' : String} (value default : Json)
    (fields : List (String × Json)) (h : key' ≠ key) :
    field (assign key value fields) key' default = field fields key' default := by
  rw [field, lookup_assign_of_ne value fields h, ← field]

/-- An update leaves the keys that it does not have alone. -/
theorem lookup_update_of_notMem {key : String} {items : List (String × Json)}
    (h : key ∉ items.map Prod.fst) (fields : List (String × Json)) :
    (update fields items).lookup key = fields.lookup key := by
  induction items generalizing fields with
  | nil => rfl
  | cons p items ih =>
    rw [List.map_cons, List.mem_cons, not_or] at h
    rw [update, List.foldl_cons, ← update, ih h.2, lookup_assign_of_ne _ _ h.1]

/-- An update with distinct keys stores its items. -/
theorem lookup_update_of_mem {p : String × Json} {items : List (String × Json)} (hp : p ∈ items)
    (h : (items.map Prod.fst).Nodup) (fields : List (String × Json)) :
    (update fields items).lookup p.1 = some p.2 := by
  induction items generalizing fields with
  | nil => cases hp
  | cons q items ih =>
    rw [List.map_cons, List.nodup_cons] at h
    rw [update, List.foldl_cons, ← update]
    rcases List.mem_cons.mp hp with rfl | hp
    · rw [lookup_update_of_notMem h.1, lookup_assign_self]
    · exact ih hp h.2 _

/-- An update with items that are there changes nothing. -/
theorem update_of_lookup {fields items : List (String × Json)}
    (h : ∀ p ∈ items, fields.lookup p.1 = some p.2) : update fields items = fields := by
  induction items with
  | nil => rfl
  | cons p items ih =>
    obtain ⟨hp, hitems⟩ := List.forall_mem_cons.mp h
    rw [update, List.foldl_cons, assign_of_lookup hp, ← update, ih hitems]

/-! ## Numbers in a dictionary -/

/-- The number under `key`. -/
def number (d : List (String × Json)) (key : String) : ℚ :=
  match d.lookup key with
  | some (.num q) => q
  | _ => 0

/-- There are numbers under the keys. -/
def HasNumbers (d : List (String × Json)) (keys : List String) : Prop :=
  ∀ key ∈ keys, d.lookup key = some (.num (number d key))

theorem number_congr {d d' : List (String × Json)} {key : String}
    (h : d'.lookup key = d.lookup key) : number d' key = number d key := by
  rw [number, h, ← number]

theorem number_of_lookup {d : List (String × Json)} {key : String} {q : ℚ}
    (h : d.lookup key = some (.num q)) : number d key = q := by
  rw [number, h]

theorem lookup_number {d : List (String × Json)} {key : String} {q : ℚ}
    (h : d.lookup key = some (.num q)) : d.lookup key = some (.num (number d key)) := by
  rw [number_of_lookup h, h]

theorem HasNumbers.congr {d d' : List (String × Json)} {keys : List String}
    (h : HasNumbers d keys) (hsame : ∀ key ∈ keys, d'.lookup key = d.lookup key) :
    HasNumbers d' keys := by
  intro key hkey
  rw [hsame key hkey, number_congr (hsame key hkey)]
  exact h key hkey

end Json

end Python
