import SasTests.Python.Ascii
import SasTests.Python.JsonEncode

/-!
# `json.loads` reads what `json.dumps` writes

`loads_dumps`: a value that can be written and is not nested too deep is read back, whichever way
its strings are escaped. Each part of the scanner is shown to invert the corresponding part of the
encoder, with any text after it that cannot be mistaken for a part of a number (`Stops`): strings
first, character by character, then numbers, and last, by induction on the value, lists and
dictionaries.
-/

namespace Python

open JsonEncoder JsonDecoder

/-! ## Strings -/

namespace JsonDecoder

theorem scanstring_plain {c : Char} (hquote : c ≠ '"') (hbackslash : c ≠ '\\')
    (hc : 0x1F < c.toNat) (rest acc : List Char) :
    scanstring (c :: rest) acc none = scanstring rest (acc ++ [c]) none := by
  rw [scanstring]
  · rw [if_neg (not_le.mpr hc), flush, Option.map_none, Option.toList_none, List.append_nil]
  · exact fun h => hquote h
  · exact fun _ _ _ _ _ h => absurd h hbackslash
  · exact fun _ _ h => absurd h hbackslash

theorem scanstring_escaped {c d : Char} (h : unescape c = some d) (hu : c ≠ 'u')
    (rest acc : List Char) :
    scanstring ('\\' :: c :: rest) acc none = scanstring rest (acc ++ [d]) none := by
  rw [scanstring]
  · rw [h]
    simp only [flush, Option.map_none, Option.toList_none, List.append_nil]
  · exact fun _ _ _ _ _ h => absurd h hu

theorem hexDigit_digitChar {k : ℕ} (h : k < 0x10) : hexDigit k.digitChar = some k := by
  have hall : ∀ k : Fin 0x10, hexDigit (k : ℕ).digitChar = some k := by decide
  exact hall ⟨k, h⟩

/-- Four digits are read as the number they write. -/
theorem hex4_hex4 {n : ℕ} (h : n < 0x10000) {a b c d : Char} (hn : Python.hex4 n = [a, b, c, d]) :
    hex4 a b c d = .ok n := by
  simp only [Python.hex4, List.map_cons, List.map_nil, List.cons.injEq, and_true] at hn
  obtain ⟨rfl, rfl, rfl, rfl⟩ := hn
  have hdigit : ∀ k, hexDigit (k % 0x10).digitChar = some (k % 0x10) := fun k =>
    hexDigit_digitChar (Nat.mod_lt k (by decide))
  simp only [hex4, hdigit, Except.ok.injEq]
  omega

theorem exists_hex4 (n : ℕ) : ∃ a b c d, Python.hex4 n = [a, b, c, d] := ⟨_, _, _, _, rfl⟩

/-- An escape of a code point that is no surrogate. -/
theorem scanstring_unicodeEscape {n : ℕ} (h : n < 0x10000) (hhigh : isHighSurrogate n = false)
    (rest acc : List Char) :
    scanstring (unicodeEscape n ++ rest) acc none = scanstring rest (acc ++ [charOf n]) none := by
  obtain ⟨a, b, c, d, hn⟩ := exists_hex4 n
  rw [unicodeEscape, hn]
  change scanstring ('\\' :: 'u' :: a :: b :: c :: d :: rest) acc none = _
  rw [scanstring, hex4_hex4 h hn]
  simp only [bind, Except.bind, hhigh, Bool.false_eq_true, if_false]

/-- The escapes of the two surrogates of a character. -/
theorem scanstring_surrogates {high low : ℕ} (hhigh : isHighSurrogate high = true)
    (hlow : isLowSurrogate low = true) (rest acc : List Char) :
    scanstring (unicodeEscape high ++ (unicodeEscape low ++ rest)) acc none =
      scanstring rest (acc ++ [joinSurrogates high low]) none := by
  have hlt : ∀ {n}, isHighSurrogate n = true ∨ isLowSurrogate n = true → n < 0x10000 := by
    intro n hn
    simp only [isHighSurrogate, isLowSurrogate, Bool.and_eq_true, decide_eq_true_eq] at hn
    omega
  obtain ⟨a, b, c, d, hn⟩ := exists_hex4 high
  obtain ⟨a', b', c', d', hn'⟩ := exists_hex4 low
  rw [unicodeEscape, hn, unicodeEscape, hn']
  change scanstring ('\\' :: 'u' :: a :: b :: c :: d ::
    '\\' :: 'u' :: a' :: b' :: c' :: d' :: rest) acc none = _
  rw [scanstring, hex4_hex4 (hlt (.inl hhigh)) hn]
  simp only [bind, Except.bind, hhigh, if_true]
  rw [scanstring, hex4_hex4 (hlt (.inr hlow)) hn']
  simp only [bind, Except.bind, hlow, if_true]

theorem charOf_toNat (c : Char) : charOf c.toNat = c := by
  have hvalid : c.toNat.isValidChar := c.valid
  rw [charOf, if_pos hvalid, Char.ofNat_toNat]

/-- A character is no surrogate. -/
theorem isHighSurrogate_toNat (c : Char) : isHighSurrogate c.toNat = false := by
  have hvalid : c.toNat.isValidChar := c.valid
  rw [isHighSurrogate, Bool.and_eq_false_iff, decide_eq_false_iff_not, decide_eq_false_iff_not]
  rcases hvalid with h | ⟨h, -⟩ <;> omega

/-- The surrogates of a character make the character. -/
theorem joinSurrogates_split {c : Char} (h : 0x10000 ≤ c.toNat) :
    joinSurrogates (0xD800 + (c.toNat - 0x10000) / 0x400)
      (0xDC00 + (c.toNat - 0x10000) % 0x400) = c := by
  have hnat : 0x10000 + (0xD800 + (c.toNat - 0x10000) / 0x400 - 0xD800) * 0x400 +
      (0xDC00 + (c.toNat - 0x10000) % 0x400 - 0xDC00) = c.toNat := by omega
  rw [joinSurrogates, hnat, Char.ofNat_toNat]

theorem scanstring_escapeAscii (c : Char) (rest acc : List Char) :
    scanstring (escapeAscii c ++ rest) acc none = scanstring rest (acc ++ [c]) none := by
  rw [escapeAscii]
  split
  next h =>
    rcases h with rfl | rfl
    · exact scanstring_escaped (by decide) (by decide) rest acc
    · exact scanstring_escaped (by decide) (by decide) rest acc
  next h =>
  rw [not_or] at h
  split
  next hprint =>
    rw [printable, Bool.and_eq_true, decide_eq_true_eq, decide_eq_true_eq] at hprint
    exact scanstring_plain h.1 h.2 (by omega) rest acc
  split
  next hc => exact hc ▸ scanstring_escaped (by decide) (by decide) rest acc
  split
  next hc => exact hc ▸ scanstring_escaped (by decide) (by decide) rest acc
  split
  next hc => exact hc ▸ scanstring_escaped (by decide) (by decide) rest acc
  split
  next hc => exact hc ▸ scanstring_escaped (by decide) (by decide) rest acc
  split
  next hc => exact hc ▸ scanstring_escaped (by decide) (by decide) rest acc
  split
  next hlt =>
    rw [scanstring_unicodeEscape hlt (isHighSurrogate_toNat c), charOf_toNat]
  next hlt =>
    have hmax : c.toNat < 0x110000 := by
      rcases c.valid with h | ⟨-, h⟩
      · exact h.trans (by decide)
      · exact h
    rw [List.append_assoc, scanstring_surrogates, joinSurrogates_split (not_lt.mp hlt)]
    · rw [isHighSurrogate, Bool.and_eq_true, decide_eq_true_eq, decide_eq_true_eq]
      omega
    · rw [isLowSurrogate, Bool.and_eq_true, decide_eq_true_eq, decide_eq_true_eq]
      omega

theorem scanstring_escapeBasic (c : Char) (rest acc : List Char) :
    scanstring (escapeBasic c ++ rest) acc none = scanstring rest (acc ++ [c]) none := by
  rw [escapeBasic]
  split
  next h =>
    rcases h with rfl | rfl
    · exact scanstring_escaped (by decide) (by decide) rest acc
    · exact scanstring_escaped (by decide) (by decide) rest acc
  next h =>
  rw [not_or] at h
  split
  next hc => exact hc ▸ scanstring_escaped (by decide) (by decide) rest acc
  split
  next hc => exact hc ▸ scanstring_escaped (by decide) (by decide) rest acc
  split
  next hc => exact hc ▸ scanstring_escaped (by decide) (by decide) rest acc
  split
  next hc => exact hc ▸ scanstring_escaped (by decide) (by decide) rest acc
  split
  next hc => exact hc ▸ scanstring_escaped (by decide) (by decide) rest acc
  split
  next hlt =>
    rw [scanstring_unicodeEscape (hlt.trans (by decide)) (isHighSurrogate_toNat c), charOf_toNat]
  next hlt => exact scanstring_plain h.1 h.2 (by omega) rest acc

/-- **One character of a string is read back**, however it has been escaped. -/
theorem scanstring_escape (ensureAscii : Bool) (c : Char) (rest acc : List Char) :
    scanstring (escape ensureAscii c ++ rest) acc none = scanstring rest (acc ++ [c]) none := by
  cases ensureAscii with
  | true => exact scanstring_escapeAscii c rest acc
  | false => exact scanstring_escapeBasic c rest acc

/-- **A string is read back.** -/
theorem scanstring_strTail (ensureAscii : Bool) (s : String) (rest : List Char) :
    scanstring (strTail ensureAscii s ++ rest) [] none = .ok (s, rest) := by
  have hall : ∀ cs acc, scanstring (cs.flatMap (escape ensureAscii) ++ '"' :: rest) acc none =
      .ok (String.ofList (acc ++ cs), rest) := by
    intro cs
    induction cs with
    | nil =>
      intro acc
      rw [List.flatMap_nil, List.nil_append, scanstring, flush, Option.map_none,
        Option.toList_none, List.append_nil]
    | cons c cs ih =>
      intro acc
      rw [List.flatMap_cons, List.append_assoc, scanstring_escape, ih, List.append_assoc]
      rfl
  rw [strTail, List.append_assoc]
  exact (hall s.toList []).trans (by rw [List.nil_append, String.ofList_toList])

/-! ## Numbers -/

/-- What comes after a value in a text: nothing, a newline, a comma, or the end of a list or
dictionary. -/
def Stops (rest : List Char) : Prop := ∀ c ∈ rest.head?, c = '\n' ∨ c = ',' ∨ c = ']' ∨ c = '}'

theorem Stops.nil : Stops [] := fun _ h => by cases h

/-- A text that does not go on with digits. -/
def NoDigit (rest : List Char) : Prop := ∀ c ∈ rest.head?, c.isDigit = false

theorem Stops.noDigit {rest : List Char} (h : Stops rest) : NoDigit rest := by
  intro c hc
  rcases h c hc with rfl | rfl | rfl | rfl <;> rfl

theorem span_digits {ds rest : List Char} (hds : ∀ c ∈ ds, c.isDigit = true)
    (hrest : NoDigit rest) : (ds ++ rest).span Char.isDigit = (ds, rest) := by
  have hstop : rest.takeWhile Char.isDigit = [] ∧ rest.dropWhile Char.isDigit = rest := by
    cases rest with
    | nil => exact ⟨rfl, rfl⟩
    | cons c rest =>
      have hc := Bool.eq_false_iff.mp (hrest c rfl)
      exact ⟨List.takeWhile_cons_of_neg hc, List.dropWhile_cons_of_neg hc⟩
  rw [List.span_eq_takeWhile_dropWhile, List.takeWhile_append_of_pos hds,
    List.dropWhile_append_of_pos hds, hstop.1, hstop.2, List.append_nil]

section number

variable {n : NumberText} {rest : List Char}

theorem noDigit_exponentText (hrest : Stops rest) : NoDigit (n.exponentText ++ rest) := by
  rw [NumberText.exponentText]
  rcases n.exponent with _ | ⟨negative, ds⟩
  · exact hrest.noDigit
  · intro c hc
    cases hc
    rfl

theorem noDigit_fractionText (hrest : Stops rest) :
    NoDigit (n.fractionText ++ (n.exponentText ++ rest)) := by
  rw [NumberText.fractionText]
  split
  · exact noDigit_exponentText hrest
  · intro c hc
    cases hc
    rfl

theorem exponentPart_of_stops (hrest : Stops rest) : exponentPart rest = none := by
  cases rest with
  | nil => rfl
  | cons c rest =>
    have hc : ¬(c = 'e' ∨ c = 'E') := by
      rcases hrest c rfl with rfl | rfl | rfl | rfl <;> decide
    simp only [exponentPart]
    exact if_neg fun h => hc h.1

theorem signPart_cons (negative : Bool) (s : List Char) :
    signPart ((if negative then '-' else '+') :: s) = (negative, s) := by
  cases negative <;> rfl

/-- The exponent is read, if there is one. -/
theorem exponentPart_exponentText (hn : n.Valid) (hrest : Stops rest) :
    exponentPart (n.exponentText ++ rest) =
      if n.exponent.isSome then some (n.exponentValue, rest) else none := by
  rw [NumberText.exponentText, NumberText.exponentValue]
  rcases hexponent : n.exponent with _ | ⟨negative, ds⟩
  · exact exponentPart_of_stops hrest
  · obtain ⟨hne, hds⟩ := hn.exponent negative ds hexponent
    simp only [List.cons_append, exponentPart, signPart_cons, span_digits hds hrest.noDigit]
    rw [if_pos ⟨.inl trivial, hne⟩]
    rfl

/-- The digits after the point are read, if there are any. -/
theorem fractionPart_fractionText (hn : n.Valid) (hrest : Stops rest) :
    fractionPart (n.fractionText ++ (n.exponentText ++ rest)) =
      (n.fraction, n.exponentText ++ rest) := by
  have hother : ∀ s : List Char, (∀ c ∈ s.head?, c ≠ '.') → fractionPart s = ([], s) := by
    intro s hs
    rw [fractionPart]
    rintro s' rfl
    exact hs '.' rfl rfl
  rw [NumberText.fractionText]
  split
  next hnil =>
    rw [hnil, List.nil_append]
    apply hother
    rw [NumberText.exponentText]
    rcases n.exponent with _ | ⟨negative, ds⟩
    · intro c hc
      rcases hrest c hc with rfl | rfl | rfl | rfl <;> decide
    · intro c hc
      cases hc
      decide
  next hne =>
    rw [List.cons_append, fractionPart, span_digits hn.fraction (noDigit_exponentText hrest)]
    exact if_neg hne

/-- What comes after the digits before the point is read. -/
theorem matchFraction_text (hn : n.Valid) (hrest : Stops rest) :
    matchFraction n.negative n.digits (n.fractionText ++ (n.exponentText ++ rest)) =
      .ok (.num n.value, rest) := by
  have hfloat : n.isInt = false →
      parseFloat n.negative n.digits n.fraction n.exponentValue = .num n.value := by
    intro hint
    have hfinite := hn.finite hint
    rw [NumberText.magnitude] at hfinite
    simp only [parseFloat]
    rw [if_neg (not_le.mpr hfinite)]
    rfl
  simp only [matchFraction]
  rw [fractionPart_fractionText hn hrest]
  simp only
  rw [exponentPart_exponentText hn hrest]
  rcases hexponent : n.exponent with _ | e
  · rw [Option.isSome_none, if_neg Bool.false_ne_true]
    have htext : n.exponentText = [] := by rw [NumberText.exponentText, hexponent]
    have hvalue : n.exponentValue = 0 := by rw [NumberText.exponentValue, hexponent]
    by_cases hfraction : n.fraction = []
    · have hint : n.isInt = true := by rw [NumberText.isInt, hfraction, hexponent]; rfl
      have hmagnitude : n.magnitude = digitsValue n.digits := by
        rw [NumberText.magnitude, hvalue, hfraction]
        simp
      rw [if_pos hfraction, parseInt, if_neg (not_lt.mpr (hn.short hint)), htext,
        NumberText.value, hmagnitude]
      rfl
    · have hint : n.isInt = false := by
        rw [NumberText.isInt, Bool.and_eq_false_iff]
        exact .inl (List.isEmpty_eq_false_iff.mpr hfraction)
      rw [if_neg hfraction, htext, ← hfloat hint, hvalue]
      rfl
  · have hint : n.isInt = false := by rw [NumberText.isInt, hexponent, Bool.and_eq_false_iff]; simp
    rw [Option.isSome_some, if_pos rfl, ← hfloat hint]

/-- The number after its sign is read. -/
theorem matchNumber_text (hn : n.Valid) (hrest : Stops rest) :
    matchNumber n.negative (n.digits ++ (n.fractionText ++ (n.exponentText ++ rest))) =
      .ok (.num n.value, rest) := by
  obtain ⟨c, ds, hdigits⟩ := List.exists_cons_of_ne_nil hn.nonempty
  have hc : c.isDigit = true := hn.digits c (hdigits ▸ List.mem_cons_self)
  have hspan := span_digits hn.digits (noDigit_fractionText (n := n) hrest)
  have hfraction := matchFraction_text hn hrest
  rw [hdigits, List.cons_append] at hspan ⊢
  rw [matchNumber]
  by_cases hzero : c = '0'
  · have hds : ds = [] := by
      have hhead := hn.noLeadingZero (by rw [hdigits, hzero]; rfl)
      rw [hdigits] at hhead
      exact (List.cons.inj hhead).2
    rw [hdigits, hds] at hfraction
    rw [if_pos hzero, hds]
    exact hfraction
  · rw [if_neg hzero, if_pos hc, hspan, ← hdigits]
    exact hfraction

end number

/-! ## Values -/

theorem skipWs_cons {c : Char} (h : c ≠ ' ' ∧ c ≠ '\t' ∧ c ≠ '\n' ∧ c ≠ '\r') (s : List Char) :
    skipWs (c :: s) = c :: s := by
  refine List.dropWhile_cons_of_neg ?_
  simp only [Bool.or_eq_true, decide_eq_true_eq]
  rintro (((rfl | rfl) | rfl) | rfl)
  · exact h.1 rfl
  · exact h.2.1 rfl
  · exact h.2.2.1 rfl
  · exact h.2.2.2 rfl

theorem skipWs_blank (s : List Char) : skipWs (' ' :: s) = skipWs s := rfl

theorem scanOnce_atom (d : ℕ) {c : Char} (hlist : c ≠ '[') (hdict : c ≠ '{') (s : List Char) :
    scanOnce d (c :: s) = scanAtom (c :: s) := by
  cases d with
  | zero =>
    rw [scanOnce]
    · exact fun _ h => absurd (List.cons.inj h).1 hlist
    · exact fun _ h => absurd (List.cons.inj h).1 hdict
  | succ d =>
    rw [scanOnce]
    · exact fun _ h => absurd (List.cons.inj h).1 hlist
    · exact fun _ h => absurd (List.cons.inj h).1 hdict

/-- The first character of a value: an ASCII character, not a blank, and not the end of a list. -/
def Opens (s : List Char) : Prop :=
  ∃ c rest, s = c :: rest ∧ c.toNat < 0x80 ∧ c ≠ ']' ∧
    c ≠ ' ' ∧ c ≠ '\t' ∧ c ≠ '\n' ∧ c ≠ '\r'

theorem Opens.skipWs {s : List Char} (h : Opens s) (rest : List Char) :
    JsonDecoder.skipWs (s ++ rest) = s ++ rest := by
  obtain ⟨c, s', rfl, -, -, hc⟩ := h
  exact skipWs_cons hc _

theorem ne_of_isDigit {c d : Char} (hc : c.isDigit = true) (hd : d.isDigit = false) : c ≠ d := by
  rintro rfl
  rw [hc] at hd
  cases hd

section number

variable {n : NumberText} {rest : List Char}

theorem opens_text (hn : n.Valid) : Opens n.text := by
  obtain ⟨c, ds, hdigits⟩ := List.exists_cons_of_ne_nil hn.nonempty
  have hc : c.isDigit = true := hn.digits c (hdigits ▸ List.mem_cons_self)
  rw [NumberText.text, hdigits]
  cases n.negative with
  | true => exact ⟨'-', _, rfl, by decide⟩
  | false =>
    have hascii : c.toNat < 0x80 := (isDigit_iff.mp hc).2.trans_lt (by decide)
    exact ⟨c, _, rfl, hascii, ne_of_isDigit hc rfl, ne_of_isDigit hc rfl, ne_of_isDigit hc rfl,
      ne_of_isDigit hc rfl, ne_of_isDigit hc rfl⟩

/-- **A number is read back.** -/
theorem scanOnce_text (d : ℕ) (hn : n.Valid) (hrest : Stops rest) :
    scanOnce d (n.text ++ rest) = .ok (.num n.value, rest) := by
  obtain ⟨c, ds, hdigits⟩ := List.exists_cons_of_ne_nil hn.nonempty
  have hc : c.isDigit = true := hn.digits c (hdigits ▸ List.mem_cons_self)
  have hnumber := matchNumber_text hn hrest
  rw [NumberText.text, List.append_assoc, List.append_assoc, List.append_assoc]
  rw [hdigits] at hnumber ⊢
  cases hnegative : n.negative with
  | true =>
    rw [hnegative] at hnumber
    rw [if_pos rfl, List.singleton_append, scanOnce_atom d (by decide) (by decide), scanAtom]
    · exact hnumber
    · exact fun _ h => absurd (List.cons.inj h).1 (ne_of_isDigit hc rfl)
  | false =>
    rw [hnegative] at hnumber
    rw [if_neg Bool.false_ne_true, List.nil_append, List.cons_append,
      scanOnce_atom d (ne_of_isDigit hc rfl) (ne_of_isDigit hc rfl), scanAtom]
    · exact hnumber
    all_goals exact fun _ h => absurd (List.cons.inj h).1 (ne_of_isDigit hc rfl)

end number

section value

variable {ensureAscii : Bool} {number : ℚ → List Char}

theorem opens_dumps {v : Json} (h : Writable number v) : Opens (dumps ensureAscii number v) := by
  have opens : ∀ {c : Char} (s : List Char), (c.toNat < 0x80 ∧ c ≠ ']' ∧
      c ≠ ' ' ∧ c ≠ '\t' ∧ c ≠ '\n' ∧ c ≠ '\r') → Opens (c :: s) := fun s hc => ⟨_, s, rfl, hc⟩
  cases v with
  | null => exact opens _ (by decide)
  | bool b => cases b <;> exact opens _ (by decide)
  | num q =>
    obtain ⟨n, hn, htext, -⟩ := h
    rw [dumps, ← htext]
    exact opens_text hn
  | nonFinite name =>
    have hname : name ∈ ["NaN", "Infinity", "-Infinity"] := h
    simp only [List.mem_cons, List.not_mem_nil, or_false] at hname
    rcases hname with rfl | rfl | rfl <;> exact opens _ (by decide)
  | str s => exact opens _ (by decide)
  | arr items =>
    rw [dumps]
    exact opens _ (by decide)
  | obj fields =>
    rw [dumps]
    exact opens _ (by decide)

/-- The scanner reads the text of `v` back. -/
def Reads (ensureAscii : Bool) (number : ℚ → List Char)
    (value : List Char → Except PyError (Json × List Char)) (v : Json) : Prop :=
  ∀ rest, Stops rest → value (dumps ensureAscii number v ++ rest) = .ok (v, rest)

variable {value : List Char → Except PyError (Json × List Char)}

variable (ensureAscii number) in
theorem stops_dumpsItems (vs : List Json) (rest : List Char) :
    Stops (dumpsItems ensureAscii number false vs ++ rest) := by
  intro c hc
  cases vs with
  | nil =>
    rw [dumpsItems] at hc
    cases hc
    exact .inr (.inr (.inl rfl))
  | cons v vs =>
    rw [dumpsItems] at hc
    cases hc
    exact .inr (.inl rfl)

variable (ensureAscii number) in
theorem stops_dumpsFields (ps : List (String × Json)) (rest : List Char) :
    Stops (dumpsFields ensureAscii number false ps ++ rest) := by
  intro c hc
  cases ps with
  | nil =>
    rw [dumpsFields] at hc
    cases hc
    exact .inr (.inr (.inr rfl))
  | cons p ps =>
    rw [dumpsFields] at hc
    cases hc
    exact .inr (.inl rfl)

/-- The elements of a list are read back. -/
theorem arrayItems_dumps {v : Json} {vs : List Json}
    (hreads : ∀ x ∈ v :: vs, Reads ensureAscii number value x)
    (hwritable : ∀ x ∈ v :: vs, Writable number x) {fuel : ℕ} (hfuel : vs.length < fuel)
    (acc : List Json) (rest : List Char) :
    arrayItems value fuel (dumpsItems ensureAscii number true (v :: vs) ++ rest) acc =
      .ok (.arr (acc ++ v :: vs), rest) := by
  induction vs generalizing v fuel acc with
  | nil =>
    obtain ⟨fuel, rfl⟩ : ∃ k, fuel = k + 1 := ⟨fuel - 1, by omega⟩
    have hv := hreads v List.mem_cons_self _ (stops_dumpsItems ensureAscii number [] rest)
    rw [dumpsItems, if_pos rfl, List.nil_append, List.append_assoc, arrayItems, hv, dumpsItems]
    rfl
  | cons w vs ih =>
    obtain ⟨fuel, rfl⟩ : ∃ k, fuel = k + 1 := ⟨fuel - 1, by omega⟩
    have hv := hreads v List.mem_cons_self _ (stops_dumpsItems ensureAscii number (w :: vs) rest)
    have htail := ih (fun x hx => hreads x (List.mem_cons_of_mem v hx))
      (fun x hx => hwritable x (List.mem_cons_of_mem v hx)) (Nat.lt_of_succ_lt_succ hfuel)
      (acc ++ [v])
    rw [dumpsItems, if_pos rfl, List.nil_append, List.append_assoc] at htail
    rw [dumpsItems, if_pos rfl, List.nil_append, List.append_assoc, arrayItems, hv, dumpsItems,
      if_neg Bool.false_ne_true, List.append_assoc]
    -- the comma, and the blank after it
    change arrayItems value fuel
      (skipWs (' ' :: ((dumps ensureAscii number w ++ dumpsItems ensureAscii number false vs) ++
        rest))) (acc ++ [v]) = _
    rw [skipWs_blank, List.append_assoc,
      (opens_dumps (hwritable w (List.mem_cons_of_mem v List.mem_cons_self))).skipWs, htail,
      List.append_assoc]
    rfl

theorem assign_of_notMem {key : String} {fields : List (String × Json)}
    (h : key ∉ fields.map Prod.fst) (v : Json) :
    Json.assign key v fields = fields ++ [(key, v)] := by
  induction fields with
  | nil => rfl
  | cons p fields ih =>
    obtain ⟨k, x⟩ := p
    rw [List.map_cons, List.mem_cons, not_or] at h
    rw [Json.assign, if_neg (Ne.symm h.1), ih h.2]
    rfl

section member

variable {v : Json} (hread : Reads ensureAscii number value v) (hwritable : Writable number v)
  (fuel : ℕ) (key : String) (acc : List (String × Json)) (rest : List Char)
include hread hwritable

/-- The last member of a dictionary is read back. -/
theorem objectItems_last :
    objectItems value (fuel + 1)
        ('"' :: (strTail ensureAscii key ++ ':' :: ' ' ::
          (dumps ensureAscii number v ++ '}' :: rest))) acc =
      .ok (.obj (Json.assign key v acc), rest) := by
  have hv := hread ('}' :: rest) (stops_dumpsFields ensureAscii number [] rest)
  rw [objectItems, scanstring_strTail]
  simp only [bind, Except.bind]
  rw [skipWs_cons (by decide)]
  simp only
  rw [skipWs_blank, (opens_dumps hwritable).skipWs, hv]
  rfl

/-- A member of a dictionary is read back, and the reader goes on with the next one. -/
theorem objectItems_next :
    objectItems value (fuel + 1)
        ('"' :: (strTail ensureAscii key ++ ':' :: ' ' ::
          (dumps ensureAscii number v ++ ',' :: ' ' :: '"' :: rest))) acc =
      objectItems value fuel ('"' :: rest) (Json.assign key v acc) := by
  have hv := hread (',' :: ' ' :: '"' :: rest) fun c hc => by
    cases hc
    exact .inr (.inl rfl)
  rw [objectItems, scanstring_strTail]
  simp only [bind, Except.bind]
  rw [skipWs_cons (by decide)]
  simp only
  rw [skipWs_blank, (opens_dumps hwritable).skipWs, hv]
  rfl

end member

/-- The members of a dictionary are read back. -/
theorem objectItems_dumps {p : String × Json} {ps : List (String × Json)}
    (hreads : ∀ x ∈ p :: ps, Reads ensureAscii number value x.2)
    (hwritable : ∀ x ∈ p :: ps, Writable number x.2) {fuel : ℕ} (hfuel : ps.length < fuel)
    (acc : List (String × Json)) (hkeys : ((acc ++ p :: ps).map Prod.fst).Nodup)
    (rest : List Char) :
    objectItems value fuel (dumpsFields ensureAscii number true (p :: ps) ++ rest) acc =
      .ok (.obj (acc ++ p :: ps), rest) := by
  have hfields : ∀ (first : Bool) (p : String × Json) ps,
      dumpsFields ensureAscii number first (p :: ps) ++ rest =
        (if first then [] else [',', ' ']) ++ '"' :: (strTail ensureAscii p.1 ++ ':' :: ' ' ::
          (dumps ensureAscii number p.2 ++ (dumpsFields ensureAscii number false ps ++ rest))) := by
    intro first p ps
    rw [dumpsFields]
    simp only [List.append_assoc, List.cons_append]
  induction ps generalizing p fuel acc with
  | nil =>
    obtain ⟨fuel, rfl⟩ : ∃ k, fuel = k + 1 := ⟨fuel - 1, by omega⟩
    have hnew : p.1 ∉ acc.map Prod.fst := by
      rw [List.map_append, List.nodup_append] at hkeys
      exact fun hmem => hkeys.2.2 p.1 hmem p.1 List.mem_cons_self rfl
    rw [hfields, if_pos rfl, List.nil_append, dumpsFields, List.singleton_append,
      objectItems_last (hreads p List.mem_cons_self) (hwritable p List.mem_cons_self),
      assign_of_notMem hnew]
  | cons q ps ih =>
    obtain ⟨fuel, rfl⟩ : ∃ k, fuel = k + 1 := ⟨fuel - 1, by omega⟩
    have hnew : p.1 ∉ acc.map Prod.fst := by
      rw [List.map_append, List.nodup_append] at hkeys
      exact fun hmem => hkeys.2.2 p.1 hmem p.1 List.mem_cons_self rfl
    have htail := ih (fun x hx => hreads x (List.mem_cons_of_mem p hx))
      (fun x hx => hwritable x (List.mem_cons_of_mem p hx)) (Nat.lt_of_succ_lt_succ hfuel)
      (acc ++ [p]) (by rwa [List.append_assoc])
    rw [hfields, if_pos rfl, List.nil_append, List.append_assoc] at htail
    rw [hfields, if_pos rfl, List.nil_append, hfields, if_neg Bool.false_ne_true, List.cons_append,
      List.cons_append, List.nil_append,
      objectItems_next (hreads p List.mem_cons_self) (hwritable p List.mem_cons_self),
      assign_of_notMem hnew, htail]
    rfl

variable (ensureAscii number) in
/-- Every element but the first takes at least its separator. -/
theorem length_le_dumpsItems (vs : List Json) :
    vs.length ≤ (dumpsItems ensureAscii number false vs).length := by
  induction vs with
  | nil => exact Nat.zero_le _
  | cons v vs ih =>
    rw [dumpsItems, if_neg Bool.false_ne_true]
    simp only [List.length_append, List.length_cons]
    omega

variable (ensureAscii number) in
theorem length_le_dumpsFields (ps : List (String × Json)) :
    ps.length ≤ (dumpsFields ensureAscii number false ps).length := by
  induction ps with
  | nil => exact Nat.zero_le _
  | cons p ps ih =>
    rw [dumpsFields, if_neg Bool.false_ne_true]
    simp only [List.length_append, List.length_cons]
    omega

/-- **A list is read back.** -/
theorem parseArray_dumps {items : List Json}
    (hreads : ∀ x ∈ items, Reads ensureAscii number value x)
    (hwritable : ∀ x ∈ items, Writable number x) (rest : List Char) :
    parseArray value (dumpsItems ensureAscii number true items ++ rest) =
      .ok (.arr items, rest) := by
  cases items with
  | nil =>
    rw [dumpsItems]
    rfl
  | cons v vs =>
    have htext : dumpsItems ensureAscii number true (v :: vs) ++ rest =
        dumps ensureAscii number v ++ (dumpsItems ensureAscii number false vs ++ rest) := by
      rw [dumpsItems, if_pos rfl, List.nil_append, List.append_assoc]
    obtain ⟨c, s, hs, -, hc, hblank⟩ : Opens (dumps ensureAscii number v) :=
      opens_dumps (hwritable v List.mem_cons_self)
    have hfuel : vs.length < (dumpsItems ensureAscii number true (v :: vs) ++ rest).length + 1 := by
      have hlength := length_le_dumpsItems ensureAscii number vs
      rw [htext]
      simp only [List.length_append]
      omega
    have hitems := arrayItems_dumps hreads hwritable hfuel [] rest
    rw [htext, hs, List.cons_append] at hitems ⊢
    rw [parseArray, skipWs_cons hblank]
    split
    next heq => exact absurd (List.cons.inj heq).1 hc
    next => exact hitems

/-- **A dictionary is read back.** -/
theorem parseObject_dumps {fields : List (String × Json)}
    (hreads : ∀ x ∈ fields, Reads ensureAscii number value x.2)
    (hwritable : ∀ x ∈ fields, Writable number x.2) (hkeys : (fields.map Prod.fst).Nodup)
    (rest : List Char) :
    parseObject value (dumpsFields ensureAscii number true fields ++ rest) =
      .ok (.obj fields, rest) := by
  cases fields with
  | nil =>
    rw [dumpsFields]
    rfl
  | cons p ps =>
    have hfuel : ps.length <
        (dumpsFields ensureAscii number true (p :: ps) ++ rest).length + 1 := by
      have hlength := length_le_dumpsFields ensureAscii number ps
      rw [dumpsFields]
      simp only [List.length_append, List.length_cons]
      omega
    have hitems := objectItems_dumps hreads hwritable hfuel [] hkeys rest
    rw [dumpsFields, if_pos rfl, List.nil_append, List.cons_append] at hitems ⊢
    rw [parseObject, skipWs_cons (by decide)]
    exact hitems

/-- **Every value is read back**, by a scanner that allows for its depth. -/
theorem scanOnce_dumps (v : Json) (hwritable : Writable number v) {d : ℕ} (hd : depth v ≤ d) :
    Reads ensureAscii number (scanOnce d) v := by
  intro rest hrest
  induction v using Json.induction generalizing d rest with
  | null =>
    exact scanOnce_atom d (by decide) (by decide) _
  | bool b =>
    cases b <;> exact scanOnce_atom d (by decide) (by decide) _
  | num q =>
    obtain ⟨n, hn, htext, rfl⟩ := hwritable
    rw [dumps, ← htext]
    exact scanOnce_text d hn hrest
  | nonFinite name =>
    have hname : name ∈ ["NaN", "Infinity", "-Infinity"] := hwritable
    simp only [List.mem_cons, List.not_mem_nil, or_false] at hname
    rcases hname with rfl | rfl | rfl <;> exact scanOnce_atom d (by decide) (by decide) _
  | str s =>
    rw [dumps, List.cons_append, scanOnce_atom d (by decide) (by decide), scanAtom,
      scanstring_strTail]
    rfl
  | arr items ih =>
    rw [Writable, writableItems_iff] at hwritable
    rw [depth] at hd
    obtain ⟨d, rfl⟩ : ∃ k, d = k + 1 := ⟨d - 1, by omega⟩
    have hdepth := depthItems_le_iff.mp (Nat.le_of_succ_le_succ hd)
    rw [dumps, List.cons_append, scanOnce]
    exact parseArray_dumps
      (fun x hx rest hrest => ih x hx (hwritable x hx) (hdepth x hx) rest hrest)
      hwritable rest
  | obj fields ih =>
    rw [Writable, writableFields_iff] at hwritable
    rw [depth] at hd
    obtain ⟨d, rfl⟩ : ∃ k, d = k + 1 := ⟨d - 1, by omega⟩
    have hdepth := depthFields_le_iff.mp (Nat.le_of_succ_le_succ hd)
    rw [dumps, List.cons_append, scanOnce]
    exact parseObject_dumps
      (fun x hx rest hrest => ih x hx (hwritable.2 x hx) (hdepth x hx) rest hrest)
      hwritable.2 hwritable.1 rest

end value

end JsonDecoder

/-! ## Whole texts -/

/-- **`json.loads` reads what `json.dumps` writes.** The text may be followed by a newline, which
`print` writes. -/
theorem loads_dumps {number : ℚ → List Char} {maxDepth : ℕ} {v : Json} (ensureAscii : Bool)
    (hwritable : Writable number v) (hdepth : depth v ≤ maxDepth) {newline : List Char}
    (hnewline : newline = [] ∨ newline = ['\n']) :
    loads maxDepth (.str (String.ofList (dumps ensureAscii number v ++ newline))) = .ok v := by
  have hstops : Stops newline := by
    rintro c hc
    rcases hnewline with rfl | rfl
    · cases hc
    · cases hc
      exact .inl rfl
  have hreads : Reads ensureAscii number (scanOnce maxDepth) v := scanOnce_dumps v hwritable hdepth
  have hscan := hreads newline hstops
  have hopens : Opens (dumps ensureAscii number v) := opens_dumps hwritable
  have hskip : skipWs newline = [] := by
    rcases hnewline with rfl | rfl <;> rfl
  have hbom : (dumps ensureAscii number v ++ newline).head? ≠ some (Char.ofNat 0xFEFF) := by
    obtain ⟨c, s, hs, hascii, -⟩ := hopens
    rw [hs]
    intro h
    obtain rfl := Option.some.inj h
    exact absurd hascii (by decide)
  rw [loads, String.toList_ofList, if_neg hbom, decode, hopens.skipWs, hscan]
  simp only [bind, Except.bind, hskip, if_true]
  rfl

/-! ## Integers -/

theorem digitsValue_toDigits (n : ℕ) : digitsValue (Nat.toDigits 10 n) = n := by
  have hvalue : ∀ ds, digitsValue ds = Nat.ofDigitChars 10 ds 0 := by
    intro ds
    rw [digitsValue, Nat.ofDigitChars_eq_foldl]
    simp only [Nat.mul_comm]
  rw [hvalue, Nat.ofDigitChars_ten_toDigits]

theorem head_toDigits_ne_zero (n : ℕ) (h : 0 < n) : (Nat.toDigits 10 n).head? ≠ some '0' := by
  induction n using Nat.strong_induction_on with
  | h n ih =>
    rcases Nat.lt_or_ge n 10 with hlt | hge
    · rw [Nat.toDigits_of_lt_base hlt]
      have hall : ∀ k : Fin 10, 0 < (k : ℕ) → [(k : ℕ).digitChar].head? ≠ some '0' := by decide
      exact hall ⟨n, hlt⟩ h
    · rw [Nat.toDigits_of_base_le (by decide) hge,
        List.head?_append_of_ne_nil _ Nat.toDigits_ne_nil]
      exact ih (n / 10) (by omega) (by omega)

/-- **What `int.__repr__` writes denotes the integer**, unless it is too long to be read. -/
theorem denotes_formatInt (n : ℤ) (h : (Nat.toDigits 10 n.natAbs).length ≤ maxStrDigits) :
    Denotes (formatInt 0 n) n := by
  refine ⟨⟨decide (n < 0), Nat.toDigits 10 n.natAbs, [], none⟩,
    ⟨Nat.toDigits_ne_nil, ?_, ?_, ?_, ?_, fun _ => h, ?_⟩, ?_, ?_⟩
  · exact fun c hc => Nat.isDigit_of_mem_toDigits (by decide) (by decide) hc
  · intro hhead
    rcases Nat.eq_zero_or_pos n.natAbs with hzero | hpos
    · rw [hzero]
      rfl
    · exact absurd hhead (head_toDigits_ne_zero _ hpos)
  · exact fun c hc => absurd hc List.not_mem_nil
  · exact fun negative ds hexponent => by cases hexponent
  · exact fun hint => by cases hint
  · simp [NumberText.text, NumberText.fractionText, NumberText.exponentText, formatInt]
  · have hmagnitude : NumberText.magnitude
        ⟨decide (n < 0), Nat.toDigits 10 n.natAbs, [], none⟩ = (n.natAbs : ℚ) := by
      simp [NumberText.magnitude, NumberText.exponentValue, digitsValue_toDigits]
    rw [NumberText.value, hmagnitude]
    rcases lt_or_ge n 0 with hneg | hpos
    · rw [if_pos (decide_eq_true hneg), ← Int.cast_natCast, Int.ofNat_natAbs_of_nonpos hneg.le]
      simp
    · rw [if_neg (by simpa using hpos), ← Int.cast_natCast, Int.natAbs_of_nonneg hpos]

end Python
