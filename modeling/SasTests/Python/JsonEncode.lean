import SasTests.Python.JsonDumps
import SasTests.Python.JsonLoads

/-!
# `json.dumps`

The encoder of Python's standard library with its default separators, for values made of
dictionaries with string keys, lists, strings, numbers, booleans and `None`, with `ensure_ascii` or
without.

How a number is written is a parameter: `int.__repr__` and `float.__repr__` choose the shortest
text that denotes it. `NumberText` says what such a text looks like.

A dictionary has no key twice, and the three values that are not finite have one name each
(`Writable`); `depth` counts how deep lists and dictionaries are nested.
-/

namespace Python

namespace Json

/-- Induction on a value: the elements of a list and the values of a dictionary come first. -/
theorem induction {motive : Json → Prop} (null : motive .null) (bool : ∀ b, motive (.bool b))
    (num : ∀ q, motive (.num q)) (nonFinite : ∀ name, motive (.nonFinite name))
    (str : ∀ s, motive (.str s)) (arr : ∀ items, (∀ v ∈ items, motive v) → motive (.arr items))
    (obj : ∀ fields, (∀ p ∈ fields, motive p.2) → motive (.obj fields)) (v : Json) : motive v := by
  refine Json.rec (motive_1 := motive) (motive_2 := fun items => ∀ v ∈ items, motive v)
    (motive_3 := fun fields => ∀ p ∈ fields, motive p.2) (motive_4 := fun p => motive p.2)
    null bool num nonFinite str arr obj ?_ ?_ ?_ ?_ (fun _ _ h => h) v
  · exact fun _ h => absurd h List.not_mem_nil
  · exact fun _ _ hv hvs => List.forall_mem_cons.mpr ⟨hv, hvs⟩
  · exact fun _ h => absurd h List.not_mem_nil
  · exact fun _ _ hp hps => List.forall_mem_cons.mpr ⟨hp, hps⟩

end Json

/-! ## Numbers -/

/-- The text of a number: an optional minus, digits, and then, if it is a `float`, digits after a
point or an exponent with its sign, or both. -/
structure NumberText where
  /-- is there a minus? -/
  negative : Bool
  /-- the digits before the point -/
  digits : List Char
  /-- the digits after the point; empty if there is none -/
  fraction : List Char
  /-- the exponent: is it negative, and its digits -/
  exponent : Option (Bool × List Char)

namespace NumberText

/-- The point and the digits after it. -/
def fractionText (n : NumberText) : List Char := if n.fraction = [] then [] else '.' :: n.fraction

/-- The exponent, with its sign. -/
def exponentText (n : NumberText) : List Char :=
  match n.exponent with
  | none => []
  | some (negative, ds) => 'e' :: (if negative then '-' else '+') :: ds

/-- What is written. -/
def text (n : NumberText) : List Char :=
  (if n.negative then ['-'] else []) ++ (n.digits ++ (n.fractionText ++ n.exponentText))

/-- The number in the exponent. -/
def exponentValue (n : NumberText) : ℤ :=
  match n.exponent with
  | none => 0
  | some (negative, ds) =>
    if negative then -(JsonDecoder.digitsValue ds : ℤ) else JsonDecoder.digitsValue ds

/-- The number without its sign. -/
def magnitude (n : NumberText) : ℚ :=
  JsonDecoder.digitsValue (n.digits ++ n.fraction) *
    (10 : ℚ) ^ (n.exponentValue - n.fraction.length)

/-- The number that the text denotes. -/
def value (n : NumberText) : ℚ := if n.negative then -n.magnitude else n.magnitude

/-- It is an `int`. -/
def isInt (n : NumberText) : Bool := n.fraction.isEmpty && n.exponent.isNone

/-- The text is one that Python writes, of a number it can read. -/
structure Valid (n : NumberText) : Prop where
  /-- there is a digit before the point -/
  nonempty : n.digits ≠ []
  /-- and nothing but digits -/
  digits : ∀ c ∈ n.digits, c.isDigit = true
  /-- no leading zero -/
  noLeadingZero : n.digits.head? = some '0' → n.digits = ['0']
  /-- digits after the point -/
  fraction : ∀ c ∈ n.fraction, c.isDigit = true
  /-- and in the exponent -/
  exponent : ∀ negative ds, n.exponent = some (negative, ds) →
    ds ≠ [] ∧ ∀ c ∈ ds, c.isDigit = true
  /-- an `int` is not too long -/
  short : n.isInt = true → n.digits.length ≤ maxStrDigits
  /-- a `float` is not too large -/
  finite : n.isInt = false → n.magnitude < 2 ^ 1024 - 2 ^ 970

end NumberText

/-- The text denotes the number `q`. -/
def Denotes (text : List Char) (q : ℚ) : Prop :=
  ∃ n : NumberText, n.Valid ∧ n.text = text ∧ n.value = q

namespace JsonEncoder

/-! ## Strings -/

/-- What `ESCAPE.sub(replace, s)` puts in the place of one character. -/
def escapeBasic (c : Char) : List Char :=
  if c = '"' ∨ c = '\\' then ['\\', c]
  else if c = '\n' then ['\\', 'n']
  else if c = '\r' then ['\\', 'r']
  else if c = '\t' then ['\\', 't']
  else if c = Char.ofNat 0x0C then ['\\', 'f']
  else if c = Char.ofNat 0x08 then ['\\', 'b']
  else if c.toNat < 0x20 then unicodeEscape c.toNat
  else [c]

/-- One character of a string. -/
def escape (ensureAscii : Bool) (c : Char) : List Char :=
  if ensureAscii then escapeAscii c else escapeBasic c

section encoder

variable (ensureAscii : Bool) (number : ℚ → List Char)

/-- A string, after its opening quote. -/
def strTail (s : String) : List Char := s.toList.flatMap (escape ensureAscii) ++ ['"']

mutual

/-- `json.dumps(value, ensure_ascii=ensureAscii)` -/
def dumps : Json → List Char
  | .null => ['n', 'u', 'l', 'l']
  | .bool true => ['t', 'r', 'u', 'e']
  | .bool false => ['f', 'a', 'l', 's', 'e']
  | .num q => number q
  | .nonFinite name => name.toList
  | .str s => '"' :: strTail ensureAscii s
  | .arr items => '[' :: dumpsItems true items
  | .obj fields => '{' :: dumpsFields true fields

/-- The elements of a list; `first` says whether the separator is left out. -/
def dumpsItems (first : Bool) : List Json → List Char
  | [] => [']']
  | v :: vs => (if first then [] else [',', ' ']) ++ (dumps v ++ dumpsItems false vs)

/-- The members of a dictionary. -/
def dumpsFields (first : Bool) : List (String × Json) → List Char
  | [] => ['}']
  | (k, v) :: ps => (if first then [] else [',', ' ']) ++
      '"' :: (strTail ensureAscii k ++ ':' :: ' ' :: (dumps v ++ dumpsFields false ps))

end

end encoder

mutual

/-- How deep the lists and dictionaries of a value are nested. -/
def depth : Json → ℕ
  | .arr items => depthItems items + 1
  | .obj fields => depthFields fields + 1
  | _ => 0

/-- The deepest of the elements of a list. -/
def depthItems : List Json → ℕ
  | [] => 0
  | v :: vs => max (depth v) (depthItems vs)

/-- The deepest of the values of a dictionary. -/
def depthFields : List (String × Json) → ℕ
  | [] => 0
  | (_, v) :: ps => max (depth v) (depthFields ps)

end

section writable

variable (number : ℚ → List Char)

mutual

/-- The value can be written: the text of every number in it denotes the number, the numbers that
are not finite are the three that there are, and no dictionary has a key twice. -/
def Writable : Json → Prop
  | .num q => Denotes (number q) q
  | .nonFinite name => name ∈ ["NaN", "Infinity", "-Infinity"]
  | .arr items => WritableItems items
  | .obj fields => (fields.map Prod.fst).Nodup ∧ WritableFields fields
  | _ => True

/-- The elements of a list can be written. -/
def WritableItems : List Json → Prop
  | [] => True
  | v :: vs => Writable v ∧ WritableItems vs

/-- The values of a dictionary can be written. -/
def WritableFields : List (String × Json) → Prop
  | [] => True
  | (_, v) :: ps => Writable v ∧ WritableFields ps

end

theorem writableItems_iff {items : List Json} :
    WritableItems number items ↔ ∀ v ∈ items, Writable number v := by
  induction items with
  | nil =>
    rw [WritableItems]
    exact iff_of_true trivial fun _ h => absurd h List.not_mem_nil
  | cons v vs ih => rw [WritableItems, ih, List.forall_mem_cons]

theorem writableFields_iff {fields : List (String × Json)} :
    WritableFields number fields ↔ ∀ p ∈ fields, Writable number p.2 := by
  induction fields with
  | nil =>
    rw [WritableFields]
    exact iff_of_true trivial fun _ h => absurd h List.not_mem_nil
  | cons p ps ih => rw [WritableFields, ih, List.forall_mem_cons]

end writable

theorem depthItems_le_iff {items : List Json} {d : ℕ} :
    depthItems items ≤ d ↔ ∀ v ∈ items, depth v ≤ d := by
  induction items with
  | nil =>
    rw [depthItems]
    exact iff_of_true (Nat.zero_le d) fun _ h => absurd h List.not_mem_nil
  | cons v vs ih => rw [depthItems, max_le_iff, ih, List.forall_mem_cons]

theorem depthFields_le_iff {fields : List (String × Json)} {d : ℕ} :
    depthFields fields ≤ d ↔ ∀ p ∈ fields, depth p.2 ≤ d := by
  induction fields with
  | nil =>
    rw [depthFields]
    exact iff_of_true (Nat.zero_le d) fun _ h => absurd h List.not_mem_nil
  | cons p ps ih => rw [depthFields, max_le_iff, ih, List.forall_mem_cons]

end JsonEncoder

end Python
