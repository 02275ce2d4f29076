import SasTests.Python.Format
import SasTests.Python.Json
import Mathlib.Algebra.Group.Nat.Defs
import Mathlib.Data.List.Basic

/-!
# Decimal numbers and ASCII texts

What Python's `f"{n:04d}"`, `int`, `str.strip`, `str.encode("ascii")` and `bytes.decode("ascii")`
do. A text is the list of its characters.

* `formatInt` — a decimal number, filled up with zeros between the sign and the digits;
  `formatDecimal` raises if there are too many of them.
* `parseInt` — `int(text)`: surrounding blanks, a sign, and single underscores between digits are
  accepted. It inverts `formatInt` (`parseInt_formatInt`).
* `encodeAscii`, `decodeAscii` — `decodeAscii` leaves out what is not ASCII; of what `encodeAscii`
  made it loses nothing (`decodeAscii_encode`).
-/

namespace Python

/-! ## Numbers -/

/-- What `f"{n:0<width>d}"` writes. -/
def formatInt (width : ℕ) (n : ℤ) : List Char :=
  let digits := Nat.toDigits 10 n.natAbs
  let sign := if n < 0 then ['-'] else []
  sign ++ List.replicate (width - sign.length - digits.length) '0' ++ digits

/-- How many decimal digits an integer has. -/
def decimalDigits (n : ℤ) : ℕ := (Nat.toDigits 10 n.natAbs).length

/-- `f"{n:0<width>d}"`, which refuses to write an integer with too many digits. -/
def formatDecimal (width : ℕ) (n : ℤ) : Except PyError (List Char) :=
  if maxStrDigits < decimalDigits n then .error .valueError else .ok (formatInt width n)

/-- The blanks that `int` skips around a number. -/
def isBlank (c : Char) : Bool := c.toNat = 0x20 || (0x09 ≤ c.toNat && c.toNat ≤ 0x0D)

/-- The value of a digit. -/
def digitValue (c : Char) : ℕ := c.toNat - 48

/-- More digits, with single underscores between them, after digits of value `acc`. -/
def digitsFrom : List Char → ℕ → Option ℕ
  | [], acc => some acc
  | '_' :: c :: rest, acc =>
    if c.isDigit then digitsFrom rest (acc * 10 + digitValue c) else none
  | c :: rest, acc => if c.isDigit then digitsFrom rest (acc * 10 + digitValue c) else none

/-- Digits, at least one. -/
def parseDigits : List Char → Option ℕ
  | [] => none
  | c :: rest => if c.isDigit then digitsFrom rest (digitValue c) else none

/-- `text` without the characters at both ends for which `p` holds. -/
def stripBy (p : Char → Bool) (text : List Char) : List Char :=
  ((text.dropWhile p).reverse.dropWhile p).reverse

/-- `int(text)` for an ASCII text. -/
def parseInt (text : List Char) : Except PyError ℤ :=
  let value : Option ℤ := match stripBy isBlank text with
    | '+' :: rest => (parseDigits rest).map fun n => (n : ℤ)
    | '-' :: rest => (parseDigits rest).map fun n => -(n : ℤ)
    | rest => (parseDigits rest).map fun n => (n : ℤ)
  match value with
  | some n => .ok n
  | none => .error .valueError

/-- The characters that `str.strip` removes, as far as they are ASCII. -/
def isSpace (c : Char) : Bool := isBlank c || (0x1C ≤ c.toNat && c.toNat ≤ 0x1F)

/-- `text.strip()` for an ASCII text. -/
def strip (text : List Char) : List Char := stripBy isSpace text

theorem stripBy_of_forall {p : Char → Bool} {text : List Char} (h : ∀ c ∈ text, p c = false) :
    stripBy p text = text := by
  have keep : ∀ l : List Char, (∀ c ∈ l, p c = false) → l.dropWhile p = l := by
    intro l hl
    cases l with
    | nil => rfl
    | cons c l => exact List.dropWhile_cons_of_neg (by simp [hl c (List.mem_cons_self ..)])
  rw [stripBy, keep text h, keep text.reverse fun c hc => h c (List.mem_reverse.mp hc),
    List.reverse_reverse]

theorem isDigit_iff {c : Char} : c.isDigit = true ↔ 48 ≤ c.toNat ∧ c.toNat ≤ 57 := by
  simp only [Char.isDigit, Bool.and_eq_true, decide_eq_true_eq, ge_iff_le, UInt32.le_iff_toNat_le]
  exact Iff.rfl

theorem isSpace_of_isDigit {c : Char} (h : c.isDigit = true) : isSpace c = false := by
  obtain ⟨h₁, h₂⟩ := isDigit_iff.mp h
  simp only [isSpace, isBlank, Bool.or_eq_false_iff, decide_eq_false_iff_not, Bool.and_eq_false_iff]
  omega

theorem isBlank_of_isDigit {c : Char} (h : c.isDigit = true) : isBlank c = false :=
  (Bool.or_eq_false_iff.mp (isSpace_of_isDigit h)).1

/-- Plain digits are read as the number they write. -/
theorem digitsFrom_of_digits {text : List Char} (h : ∀ c ∈ text, c.isDigit = true) (acc : ℕ) :
    digitsFrom text acc = some (Nat.ofDigitChars 10 text acc) := by
  induction text generalizing acc with
  | nil => rfl
  | cons c text ih =>
    have hc := h c (List.mem_cons_self ..)
    have hne : c ≠ '_' := by
      rintro rfl
      cases hc
    rw [digitsFrom, if_pos hc, ih fun c hc => h c (List.mem_cons_of_mem _ hc),
      Nat.ofDigitChars_cons, Nat.mul_comm]
    · rfl
    · rintro c' rest rfl
      exact absurd rfl hne

theorem parseInt_of_digits {text : List Char} (hne : text ≠ [])
    (h : ∀ c ∈ text, c.isDigit = true) : parseInt text = .ok (Nat.ofDigitChars 10 text 0) := by
  obtain ⟨c, rest, rfl⟩ := List.exists_cons_of_ne_nil hne
  have hc := h c (List.mem_cons_self ..)
  have hplus : c ≠ '+' := by
    rintro rfl
    cases hc
  have hminus : c ≠ '-' := by
    rintro rfl
    cases hc
  have hdigits : parseDigits (c :: rest) = some (Nat.ofDigitChars 10 (c :: rest) 0) := by
    rw [parseDigits, if_pos hc, digitsFrom_of_digits fun c hc => h c (List.mem_cons_of_mem _ hc),
      Nat.ofDigitChars_cons]
    simp [digitValue]
  have hstrip := stripBy_of_forall fun c hc => isBlank_of_isDigit (h c hc)
  simp [parseInt, hstrip, hplus, hminus, hdigits]

theorem formatInt_ne_nil (width : ℕ) (n : ℤ) : formatInt width n ≠ [] := by
  simp [formatInt, Nat.toDigits_ne_nil]

/-- A number that is not negative is written with digits only. -/
theorem isDigit_of_mem_formatInt {width n : ℕ} {c : Char} (h : c ∈ formatInt width n) :
    c.isDigit = true := by
  simp only [formatInt, Int.natAbs_natCast, List.mem_append, List.mem_replicate] at h
  rcases h with (h | ⟨-, rfl⟩) | h
  · rw [if_neg (by omega)] at h
    cases h
  · rfl
  · exact Nat.isDigit_of_mem_toDigits (by decide) (by decide) h

/-- A number that has at most `width` digits is written with exactly `width` of them. -/
theorem length_formatInt {width n : ℕ} (hw : 0 < width) (h : n < 10 ^ width) :
    (formatInt width n).length = width := by
  have hlen : (Nat.toDigits 10 n).length ≤ width :=
    (Nat.length_toDigits_le_iff (by decide) hw).mpr h
  have hsign : ¬(n : ℤ) < 0 := by omega
  simp only [formatInt, Int.natAbs_natCast, if_neg hsign, List.length_append,
    List.length_replicate, List.length_nil]
  omega

/-- Numbers of the width of a header field are written. -/
theorem formatDecimal_of_lt (width : ℕ) {n : ℕ} (h : n < 10 ^ 4) :
    formatDecimal width n = .ok (formatInt width n) := by
  have hlen : decimalDigits n ≤ 4 := (Nat.length_toDigits_le_iff (by decide) (by decide)).mpr h
  exact if_neg (Nat.not_lt.mpr (hlen.trans (by decide)))

/-- **`int` reads back what `f"{n:0wd}"` wrote.** -/
theorem parseInt_formatInt (width n : ℕ) : parseInt (formatInt width n) = .ok n := by
  have hsign : ¬(n : ℤ) < 0 := by omega
  rw [parseInt_of_digits (formatInt_ne_nil width n) fun c hc => isDigit_of_mem_formatInt hc]
  simp only [formatInt, Int.natAbs_natCast, if_neg hsign, List.nil_append,
    Nat.ofDigitChars_append, Nat.ofDigitChars_replicate_zero]
  simp

@[simp] theorem strip_formatInt (width n : ℕ) : strip (formatInt width n) = formatInt width n :=
  stripBy_of_forall fun _ hc => isSpace_of_isDigit (isDigit_of_mem_formatInt hc)

/-! ## Texts and bytes -/

/-- The byte of an ASCII character. -/
def asciiByte (c : Char) : UInt8 := UInt8.ofNat c.toNat

/-- `text.encode("ascii")`. -/
def encodeAscii (text : List Char) : Except PyError (List UInt8) :=
  if text.all fun c => c.toNat < 128 then .ok (text.map asciiByte) else .error .unicodeEncodeError

/-- `data.decode("ascii", errors="ignore")`. -/
def decodeAscii (data : List UInt8) : List Char :=
  (data.filter fun b => b.toNat < 128).map fun b => Char.ofNat b.toNat

theorem toNat_asciiByte {c : Char} (h : c.toNat < 128) : (asciiByte c).toNat = c.toNat := by
  simp only [asciiByte, UInt8.toNat_ofNat']
  omega

/-- What was encoded is decoded again. -/
@[simp] theorem decodeAscii_map_asciiByte {text : List Char} (h : ∀ c ∈ text, c.toNat < 128) :
    decodeAscii (text.map asciiByte) = text := by
  induction text with
  | nil => rfl
  | cons c text ih =>
    have hc : c.toNat < 128 := h c (List.mem_cons_self ..)
    have ih := ih fun c hc => h c (List.mem_cons_of_mem _ hc)
    simp only [decodeAscii] at ih
    simp [decodeAscii, toNat_asciiByte hc, hc, ih]

theorem encodeAscii_eq_ok {text : List Char} {data : List UInt8} :
    encodeAscii text = .ok data ↔ (∀ c ∈ text, c.toNat < 128) ∧ text.map asciiByte = data := by
  have hall : (text.all fun c => c.toNat < 128) = true ↔ ∀ c ∈ text, c.toNat < 128 := by
    simp
  rw [← hall, encodeAscii]
  split
  · rename_i h
    simp only [Except.ok.injEq, h, true_and]
  · rename_i h
    simp only [reduceCtorEq, h, false_and]

end Python
