import Mathlib.Data.List.Basic

/-!
# `json.dumps` of a string

With `ensure_ascii`, which is the default: what is not printable ASCII becomes an escape sequence,
and so do the double quote and the backslash. A character beyond U+FFFF becomes the escapes of its
two surrogates.
-/

namespace Python

/-- `f"{n:04x}"` for `n < 0x10000`. -/
def hex4 (n : ℕ) : List Char :=
  [n / 0x1000, n / 0x100, n / 0x10, n].map fun k => (k % 0x10).digitChar

/-- `"\\u{0:04x}".format(n)` -/
def unicodeEscape (n : ℕ) : List Char := '\\' :: 'u' :: hex4 n

/-- A character that stands for itself in a text of printable ASCII. -/
def printable (c : Char) : Bool := 0x20 ≤ c.toNat && c.toNat ≤ 0x7E

/-- What `ESCAPE_ASCII.sub(replace, s)` puts in the place of one character. -/
def escapeAscii (c : Char) : List Char :=
  if c = '"' ∨ c = '\\' then ['\\', c]
  else if printable c then [c]
  else if c = '\n' then ['\\', 'n']
  else if c = '\r' then ['\\', 'r']
  else if c = '\t' then ['\\', 't']
  else if c = Char.ofNat 0x0C then ['\\', 'f']
  else if c = Char.ofNat 0x08 then ['\\', 'b']
  else if c.toNat < 0x10000 then unicodeEscape c.toNat
  else
    let n := c.toNat - 0x10000
    unicodeEscape (0xD800 + n / 0x400) ++ unicodeEscape (0xDC00 + n % 0x400)

/-- `json.dumps(s)` -/
def dumpsStr (s : String) : List Char := '"' :: s.toList.flatMap escapeAscii ++ ['"']

example : dumpsStr "a\"\\\n名" = "\"a\\\"\\\\\\n\\u540d\"".toList := by decide +kernel

/-- The escape sequence of a character that is not printable: a backslash and a letter, or one or
two Unicode escapes. -/
theorem escapeAscii_of_not_printable {c : Char} (h : printable c = false) :
    (∃ d, escapeAscii c = ['\\', d] ∧ d.isAlphanum = true) ∨
      (∃ n, escapeAscii c = unicodeEscape n) ∨
        ∃ n k, escapeAscii c = unicodeEscape n ++ unicodeEscape k := by
  have hne : ¬(c = '"' ∨ c = '\\') := by
    rintro (rfl | rfl) <;> cases h
  simp only [escapeAscii, if_neg hne, h, Bool.false_eq_true, if_false]
  split
  · exact .inl ⟨_, rfl, by decide⟩
  split
  · exact .inl ⟨_, rfl, by decide⟩
  split
  · exact .inl ⟨_, rfl, by decide⟩
  split
  · exact .inl ⟨_, rfl, by decide⟩
  split
  · exact .inl ⟨_, rfl, by decide⟩
  split
  · exact .inr (.inl ⟨_, rfl⟩)
  · exact .inr (.inr ⟨_, _, rfl⟩)

theorem isAlphanum_digitChar {n : ℕ} (h : n < 0x10) : n.digitChar.isAlphanum = true := by
  have hall : ∀ n : Fin 0x10, (n : ℕ).digitChar.isAlphanum = true := by decide
  exact hall ⟨n, h⟩

theorem isAlphanum_of_mem_hex4 {n : ℕ} {c : Char} (h : c ∈ hex4 n) : c.isAlphanum = true := by
  obtain ⟨k, -, rfl⟩ := List.mem_map.mp h
  exact isAlphanum_digitChar (Nat.mod_lt _ (by decide))

end Python
