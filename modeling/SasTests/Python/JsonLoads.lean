import SasTests.Python.Format
import SasTests.Python.Json
import Mathlib.Data.Rat.Floor

/-!
# `json.loads`

The decoder of Python's standard library, for a `str` and for `bytes`, with every way in which it
can fail: bytes that are not text in the detected encoding raise `UnicodeDecodeError`, integers of
more than 4300 digits raise `ValueError`, nesting beyond the limit of the interpreter raises
`RecursionError`, and everything else that is wrong raises `JSONDecodeError`.

A lone surrogate, which a Python string may contain and a Lean string may not, is read as U+FFFD.
Floating-point numbers are kept exact, except that those beyond the range of a double are infinite.

* `detectEncoding`, `decodeBytes` — from bytes to text.
* `scanstring`, `matchNumber`, `scanOnce` — the scanner. The loops over the elements of an array and
  the members of an object run on fuel; `arrayItems_fuel` and `objectItems_fuel` say that one more
  than the length of the text is always enough.
-/

namespace Python

/-- What arrives on a WebSocket: the content of a text frame, or of a binary frame. -/
inductive Raw
  /-- a text frame -/
  | str (s : String)
  /-- a binary frame -/
  | bytes (b : List UInt8)

namespace JsonDecoder

/-! ## Text -/

/-- The encodings `json.detect_encoding` may find. -/
inductive Encoding
  | utf8
  | utf8Sig
  /-- with a byte order mark or without; `big` is the order of the bytes -/
  | utf16 (bom big : Bool)
  | utf32 (bom big : Bool)
  deriving DecidableEq

/-- `detect_encoding`. -/
def detectEncoding (b : List UInt8) : Encoding :=
  if [0x00, 0x00, 0xFE, 0xFF].isPrefixOf b then .utf32 true true
  else if [0xFF, 0xFE, 0x00, 0x00].isPrefixOf b then .utf32 true false
  else if [0xFE, 0xFF].isPrefixOf b then .utf16 true true
  else if [0xFF, 0xFE].isPrefixOf b then .utf16 true false
  else if [0xEF, 0xBB, 0xBF].isPrefixOf b then .utf8Sig
  else match b with
    | b₀ :: b₁ :: b₂ :: b₃ :: _ =>
      if b₀ = 0 then if b₁ ≠ 0 then .utf16 false true else .utf32 false true
      else if b₁ = 0 then if b₂ ≠ 0 ∨ b₃ ≠ 0 then .utf16 false false else .utf32 false false
      else .utf8
    | [b₀, b₁] => if b₀ = 0 then .utf16 false true else if b₁ = 0 then .utf16 false false else .utf8
    | _ => .utf8

/-- The character with code point `n`; a lone surrogate becomes U+FFFD. -/
def charOf (n : ℕ) : Char := if n.isValidChar then Char.ofNat n else Char.ofNat 0xFFFD

/-- Is `b` a continuation byte of UTF-8? -/
def isTail (b : UInt8) : Bool := 0x80 ≤ b && b < 0xC0

/-- The six bits of a continuation byte. -/
def tailBits (b : UInt8) : ℕ := b.toNat % 0x40

/-- `b.decode("utf-8", "surrogatepass")`. -/
def decodeUtf8 : List UInt8 → Except PyError (List Char)
  | [] => .ok []
  | a :: rest =>
    if a < 0x80 then (Char.ofNat a.toNat :: ·) <$> decodeUtf8 rest
    else match rest with
      | [] => .error .unicodeDecodeError
      | b :: rest =>
        if !isTail b then .error .unicodeDecodeError
        else if 0xC2 ≤ a && a < 0xE0 then
          (Char.ofNat (a.toNat % 0x20 * 0x40 + tailBits b) :: ·) <$> decodeUtf8 rest
        else match rest with
          | [] => .error .unicodeDecodeError
          | c :: rest =>
            if !isTail c then .error .unicodeDecodeError
            else if 0xE0 ≤ a && a < 0xF0 then
              let n := (a.toNat % 0x10 * 0x40 + tailBits b) * 0x40 + tailBits c
              if n < 0x800 then .error .unicodeDecodeError
              else (charOf n :: ·) <$> decodeUtf8 rest
            else match rest with
              | [] => .error .unicodeDecodeError
              | d :: rest =>
                let n := ((a.toNat % 8 * 0x40 + tailBits b) * 0x40 + tailBits c) * 0x40 + tailBits d
                if isTail d && 0xF0 ≤ a && a < 0xF5 && 0x10000 ≤ n && n < 0x110000 then
                  (Char.ofNat n :: ·) <$> decodeUtf8 rest
                else .error .unicodeDecodeError

/-- Is `n` the first half of a surrogate pair? -/
def isHighSurrogate (n : ℕ) : Bool := 0xD800 ≤ n && n < 0xDC00

/-- Is `n` the second half of a surrogate pair? -/
def isLowSurrogate (n : ℕ) : Bool := 0xDC00 ≤ n && n < 0xE000

/-- The character of a surrogate pair. -/
def joinSurrogates (high low : ℕ) : Char :=
  Char.ofNat (0x10000 + (high - 0xD800) * 0x400 + (low - 0xDC00))

/-- The characters of a list of UTF-16 code units. -/
def joinUtf16 : List ℕ → List Char
  | high :: low :: rest =>
    if isHighSurrogate high && isLowSurrogate low then joinSurrogates high low :: joinUtf16 rest
    else charOf high :: joinUtf16 (low :: rest)
  | [n] => [charOf n]
  | [] => []

/-- The 16-bit units of `b`. -/
def units16 (big : Bool) : List UInt8 → Except PyError (List ℕ)
  | [] => .ok []
  | [_] => .error .unicodeDecodeError
  | a :: b :: rest =>
    ((if big then a.toNat * 0x100 + b.toNat else b.toNat * 0x100 + a.toNat) :: ·) <$>
      units16 big rest

/-- `b.decode("utf-32-be")` or `"utf-32-le"`, with `"surrogatepass"`. -/
def decodeUtf32 (big : Bool) : List UInt8 → Except PyError (List Char)
  | [] => .ok []
  | a :: b :: c :: d :: rest =>
    let ds := if big then [a, b, c, d] else [d, c, b, a]
    let n := ds.foldl (fun n x => n * 0x100 + x.toNat) 0
    if n < 0x110000 then (charOf n :: ·) <$> decodeUtf32 big rest
    else .error .unicodeDecodeError
  | _ => .error .unicodeDecodeError

/-- `b.decode(detect_encoding(b), "surrogatepass")`. -/
def decodeBytes (b : List UInt8) : Except PyError (List Char) :=
  match detectEncoding b with
  | .utf8 => decodeUtf8 b
  | .utf8Sig => decodeUtf8 (b.drop 3)
  | .utf16 bom big => joinUtf16 <$> units16 big (if bom then b.drop 2 else b)
  | .utf32 bom big => decodeUtf32 big (if bom then b.drop 4 else b)

/-! ## The scanner -/

/-- Skip `" \t\n\r"`. -/
def skipWs (s : List Char) : List Char :=
  s.dropWhile fun c => c = ' ' || c = '\t' || c = '\n' || c = '\r'

/-- The value of a hexadecimal digit. -/
def hexDigit (c : Char) : Option ℕ :=
  if '0' ≤ c ∧ c ≤ '9' then some (c.toNat - '0'.toNat)
  else if 'a' ≤ c ∧ c ≤ 'f' then some (c.toNat - 'a'.toNat + 10)
  else if 'A' ≤ c ∧ c ≤ 'F' then some (c.toNat - 'A'.toNat + 10)
  else none

/-- The number of four hexadecimal digits. -/
def hex4 (a b c d : Char) : Except PyError ℕ :=
  match hexDigit a, hexDigit b, hexDigit c, hexDigit d with
  | some a, some b, some c, some d => .ok (((a * 16 + b) * 16 + c) * 16 + d)
  | _, _, _, _ => .error .jsonDecodeError

/-- The character that a backslash and `c` stand for. -/
def unescape (c : Char) : Option Char :=
  if c = '"' ∨ c = '\\' ∨ c = '/' then some c
  else if c = 'b' then some (Char.ofNat 8)
  else if c = 'f' then some (Char.ofNat 12)
  else if c = 'n' then some '\n'
  else if c = 'r' then some '\r'
  else if c = 't' then some '\t'
  else none

/-- What has been read of a string: the characters, then the first half of a surrogate pair, if the
last thing read was one. -/
def flush (acc : List Char) (high : Option ℕ) : List Char := acc ++ (high.map charOf).toList

/-- `scanstring`, after the opening quote. `acc` and `high` are what has been read. -/
def scanstring : List Char → List Char → Option ℕ → Except PyError (String × List Char)
  | '"' :: s, acc, high => .ok (String.ofList (flush acc high), s)
  | '\\' :: 'u' :: a :: b :: c :: d :: s, acc, high => do
    let n ← hex4 a b c d
    match high with
    | some h =>
      if isLowSurrogate n then scanstring s (acc ++ [joinSurrogates h n]) none
      else if isHighSurrogate n then scanstring s (flush acc high) (some n)
      else scanstring s (flush acc high ++ [charOf n]) none
    | none =>
      if isHighSurrogate n then scanstring s acc (some n)
      else scanstring s (acc ++ [charOf n]) none
  | '\\' :: c :: s, acc, high => match unescape c with
    | some c => scanstring s (flush acc high ++ [c]) none
    | none => .error .jsonDecodeError
  | c :: s, acc, high =>
    if c.toNat ≤ 0x1F then .error .jsonDecodeError
    else scanstring s (flush acc high ++ [c]) none
  | [], _, _ => .error .jsonDecodeError

/-- The number of a list of decimal digits. -/
def digitsValue (ds : List Char) : ℕ := ds.foldl (fun n c => n * 10 + (c.toNat - '0'.toNat)) 0

/-- `int(text)` for a text that matched the grammar. -/
def parseInt (negative : Bool) (ds : List Char) : Except PyError Json :=
  if maxStrDigits < ds.length then .error .valueError
  else .ok (.num (if negative then -(digitsValue ds : ℚ) else digitsValue ds))

/-- `float(text)` for a text that matched the grammar; what would round to `2 ** 1024` is
infinite. -/
def parseFloat (negative : Bool) (ds frac : List Char) (exponent : ℤ) : Json :=
  let q : ℚ := digitsValue (ds ++ frac) * (10 : ℚ) ^ (exponent - frac.length)
  if 2 ^ 1024 - 2 ^ 970 ≤ q then .nonFinite (if negative then "-Infinity" else "Infinity")
  else .num (if negative then -q else q)

/-- The fractional digits of a number, if there are any, and the rest. -/
def fractionPart : List Char → List Char × List Char
  | '.' :: s => if (s.span Char.isDigit).1 = [] then ([], '.' :: s) else s.span Char.isDigit
  | s => ([], s)

/-- An optional sign (is it a minus?) and the rest. -/
def signPart : List Char → Bool × List Char
  | '-' :: s => (true, s)
  | '+' :: s => (false, s)
  | s => (false, s)

/-- The exponent of a number, if there is a complete one: its value, and the rest. -/
def exponentPart : List Char → Option (ℤ × List Char)
  | e :: s =>
    let (negative, s) := signPart s
    let (ds, rest) := s.span Char.isDigit
    if (e = 'e' ∨ e = 'E') ∧ ds ≠ [] then
      some (if negative then -(digitsValue ds : ℤ) else digitsValue ds, rest)
    else none
  | [] => none

/-- What follows the integer part `ds` of a number. -/
def matchFraction (negative : Bool) (ds s : List Char) : Except PyError (Json × List Char) :=
  let (frac, s) := fractionPart s
  match exponentPart s with
  | some (exponent, rest) => .ok (parseFloat negative ds frac exponent, rest)
  | none =>
    if frac = [] then (fun v => (v, s)) <$> parseInt negative ds
    else .ok (parseFloat negative ds frac 0, s)

/-- `_match_number`. -/
def matchNumber (negative : Bool) (s : List Char) : Except PyError (Json × List Char) :=
  match s with
  | c :: rest =>
    if c = '0' then matchFraction negative [c] rest
    else if c.isDigit then matchFraction negative (s.span Char.isDigit).1 (s.span Char.isDigit).2
    else .error .jsonDecodeError
  | [] => .error .jsonDecodeError

/-- A value that is neither a list nor a dictionary. -/
def scanAtom : List Char → Except PyError (Json × List Char)
  | '"' :: s => (fun p => (.str p.1, p.2)) <$> scanstring s [] none
  | 'n' :: 'u' :: 'l' :: 'l' :: s => .ok (.null, s)
  | 't' :: 'r' :: 'u' :: 'e' :: s => .ok (.bool true, s)
  | 'f' :: 'a' :: 'l' :: 's' :: 'e' :: s => .ok (.bool false, s)
  | 'N' :: 'a' :: 'N' :: s => .ok (.nonFinite "NaN", s)
  | 'I' :: 'n' :: 'f' :: 'i' :: 'n' :: 'i' :: 't' :: 'y' :: s => .ok (.nonFinite "Infinity", s)
  | '-' :: 'I' :: 'n' :: 'f' :: 'i' :: 'n' :: 'i' :: 't' :: 'y' :: s =>
    .ok (.nonFinite "-Infinity", s)
  | '-' :: s => matchNumber true s
  | s => matchNumber false s

section Loops

variable (value : List Char → Except PyError (Json × List Char))

/-- The rest of a list, from the first character of an element on. -/
def arrayItems : ℕ → List Char → List Json → Except PyError (Json × List Char)
  | 0, _, _ => .error .jsonDecodeError
  | n + 1, s, acc => do
    let (v, s) ← value s
    match skipWs s with
    | ']' :: s => return (.arr (acc ++ [v]), s)
    | ',' :: s => arrayItems n (skipWs s) (acc ++ [v])
    | _ => .error .jsonDecodeError

/-- The rest of a dictionary, from the first character of a member on. -/
def objectItems : ℕ → List Char → List (String × Json) → Except PyError (Json × List Char)
  | 0, _, _ => .error .jsonDecodeError
  | n + 1, s, acc => match s with
    | '"' :: s => do
      let (key, s) ← scanstring s [] none
      match skipWs s with
      | ':' :: s => do
        let (v, s) ← value (skipWs s)
        match skipWs s with
        | '}' :: s => return (.obj (Json.assign key v acc), s)
        | ',' :: s => objectItems n (skipWs s) (Json.assign key v acc)
        | _ => .error .jsonDecodeError
      | _ => .error .jsonDecodeError
    | _ => .error .jsonDecodeError

/-- `JSONArray`, after the opening bracket. -/
def parseArray (s : List Char) : Except PyError (Json × List Char) :=
  match skipWs s with
  | ']' :: s => .ok (.arr [], s)
  | s => arrayItems value (s.length + 1) s []

/-- `JSONObject`, after the opening brace. -/
def parseObject (s : List Char) : Except PyError (Json × List Char) :=
  match skipWs s with
  | '}' :: s => .ok (.obj [], s)
  | s => objectItems value (s.length + 1) s []

end Loops

/-- `scan_once`, when lists and dictionaries may be nested `depth` deep. -/
def scanOnce : ℕ → List Char → Except PyError (Json × List Char)
  | 0, s => match s with
    | '[' :: _ => .error .recursionError
    | '{' :: _ => .error .recursionError
    | s => scanAtom s
  | depth + 1, s => match s with
    | '[' :: s => parseArray (scanOnce depth) s
    | '{' :: s => parseObject (scanOnce depth) s
    | s => scanAtom s

/-- `JSONDecoder.decode`. -/
def decode (maxDepth : ℕ) (s : List Char) : Except PyError Json := do
  let (v, rest) ← scanOnce maxDepth (skipWs s)
  if skipWs rest = [] then return v
  .error .jsonDecodeError

/-! ## Fuel -/

/-- `f` leaves less of the text than it was given. -/
def Consumes {α : Type} (f : List Char → Except PyError (α × List Char)) : Prop :=
  ∀ s v rest, f s = .ok (v, rest) → rest.length < s.length

theorem length_skipWs_le (s : List Char) : (skipWs s).length ≤ s.length :=
  (List.dropWhile_sublist _).length_le

theorem length_span_le (p : Char → Bool) (s : List Char) : (s.span p).2.length ≤ s.length := by
  rw [List.span_eq_takeWhile_dropWhile]
  exact (List.dropWhile_sublist p).length_le

/-- Inversion for a change of the result of a scanner. -/
theorem map_eq_ok {α β : Type} {x : Except PyError α} {f : α → β} {b : β}
    (h : f <$> x = .ok b) : ∃ a, x = .ok a ∧ f a = b := by
  cases x with
  | error e => cases h
  | ok a => exact ⟨a, rfl, Except.ok.inj h⟩

theorem scanstring_consumes (acc : List Char) (high : Option ℕ) :
    Consumes fun s => scanstring s acc high := by
  intro s v rest h
  simp only at h
  fun_induction scanstring s acc high generalizing v rest with
  | case1 s acc high =>
    cases h
    exact Nat.lt_succ_self _
  | case2 a b c d s acc high ih₅ ih₄ ih₃ ih₂ ih₁ =>
    obtain ⟨n, -, h⟩ := bind_eq_ok h
    have hlt : rest.length < s.length := by
      cases high with
      | some high =>
        simp only at h
        split at h
        · exact ih₅ _ _ _ _ h
        · split at h
          · exact ih₄ _ _ _ h
          · exact ih₃ _ _ _ h
      | none =>
        simp only at h
        split at h
        · exact ih₂ _ _ _ h
        · exact ih₁ _ _ _ h
    simp only [List.length_cons]
    omega
  | case3 _ _ _ _ _ _ _ ih => exact (ih _ _ h).trans (by simp only [List.length_cons]; omega)
  | case4 => cases h
  | case5 => cases h
  | case6 _ _ _ _ _ _ _ _ ih => exact (ih _ _ h).trans (Nat.lt_succ_self _)
  | case7 => cases h

theorem length_fractionPart_le (s : List Char) : (fractionPart s).2.length ≤ s.length := by
  simp only [fractionPart]
  split
  · split
    · exact le_rfl
    · exact (length_span_le _ _).trans (Nat.le_succ _)
  · exact le_rfl

theorem length_signPart_le (s : List Char) : (signPart s).2.length ≤ s.length := by
  simp only [signPart]
  split <;> simp

theorem length_exponentPart_lt {s rest : List Char} {exponent : ℤ}
    (h : exponentPart s = some (exponent, rest)) : rest.length < s.length := by
  cases s with
  | nil => cases h
  | cons e s =>
    simp only [exponentPart] at h
    split at h
    · obtain ⟨-, rfl⟩ := Prod.mk.inj (Option.some.inj h)
      exact Nat.lt_succ_of_le ((length_span_le _ _).trans (length_signPart_le s))
    · cases h

theorem length_matchFraction_le {negative : Bool} {ds s rest : List Char} {v : Json}
    (h : matchFraction negative ds s = .ok (v, rest)) : rest.length ≤ s.length := by
  have hfrac := length_fractionPart_le s
  simp only [matchFraction] at h
  split at h
  · rename_i hexp
    cases h
    exact (length_exponentPart_lt hexp).le.trans hfrac
  · split at h
    · obtain ⟨_, -, h⟩ := map_eq_ok h
      cases h
      exact hfrac
    · cases h
      exact hfrac

theorem matchNumber_consumes (negative : Bool) : Consumes (matchNumber negative) := by
  intro s v rest h
  cases s with
  | nil => cases h
  | cons c s =>
    simp only [matchNumber] at h
    split at h
    · exact Nat.lt_succ_of_le (length_matchFraction_le h)
    · split at h
      · rename_i hdigit
        apply (length_matchFraction_le h).trans_lt
        rw [List.span_eq_takeWhile_dropWhile, List.dropWhile_cons_of_pos hdigit]
        exact Nat.lt_succ_of_le (List.dropWhile_sublist _).length_le
      · cases h

theorem scanAtom_consumes : Consumes scanAtom := by
  intro s v rest h
  simp only [scanAtom] at h
  split at h
  · obtain ⟨p, hp, h⟩ := map_eq_ok h
    cases h
    exact (scanstring_consumes [] none _ _ _ hp).trans (Nat.lt_succ_self _)
  all_goals first
    | exact matchNumber_consumes _ _ _ _ h
    | exact (matchNumber_consumes _ _ _ _ h).trans (Nat.lt_succ_self _)
    | (cases h; simp only [List.length_cons]; omega)

section Loops

variable {value : List Char → Except PyError (Json × List Char)}

/-- One more than the length of the text is enough fuel for the elements of a list. -/
theorem arrayItems_fuel (hv : Consumes value) {n n' : ℕ} {s : List Char} {acc : List Json}
    (h : s.length < n) (h' : s.length < n') :
    arrayItems value n s acc = arrayItems value n' s acc := by
  induction n generalizing n' s acc with
  | zero => cases h
  | succ n ih =>
    obtain ⟨n', rfl⟩ : ∃ k, n' = k + 1 := ⟨n' - 1, by omega⟩
    simp only [arrayItems]
    rcases hval : value s with e | ⟨v, rest⟩
    · rfl
    · -- the element, and the comma after it, are gone when the loop goes round
      have hlt := hv s v rest hval
      have hle := length_skipWs_le rest
      simp only [bind, Except.bind]
      split
      · rfl
      · rename_i s' hs'
        have := length_skipWs_le s'
        rw [hs', List.length_cons] at hle
        exact ih (by omega) (by omega)
      · rfl

/-- One more than the length of the text is enough fuel for the members of a dictionary. -/
theorem objectItems_fuel (hv : Consumes value) {n n' : ℕ} {s : List Char}
    {acc : List (String × Json)} (h : s.length < n) (h' : s.length < n') :
    objectItems value n s acc = objectItems value n' s acc := by
  induction n generalizing n' s acc with
  | zero => cases h
  | succ n ih =>
    obtain ⟨n', rfl⟩ : ∃ k, n' = k + 1 := ⟨n' - 1, by omega⟩
    simp only [objectItems]
    split
    · rename_i s₁
      rcases hkey : scanstring s₁ [] none with e | ⟨key, s₂⟩
      · rfl
      have hlt₂ := scanstring_consumes [] none s₁ key s₂ hkey
      have hle₂ := length_skipWs_le s₂
      simp only [bind, Except.bind]
      split
      · rename_i s₃ hs₃
        have hle₃ := length_skipWs_le s₃
        rw [hs₃] at hle₂
        rcases hval : value (skipWs s₃) with e | ⟨v, s₄⟩
        · rfl
        have hlt₄ := hv _ v s₄ hval
        have hle₄ := length_skipWs_le s₄
        simp only
        split
        · rfl
        · rename_i s₅ hs₅
          have hle₅ := length_skipWs_le s₅
          rw [hs₅] at hle₄
          simp only [List.length_cons] at h h' hle₂ hle₄
          exact ih (by omega) (by omega)
        · rfl
      · rfl
    · rfl

theorem arrayItems_consumes (hv : Consumes value) (n : ℕ) (acc : List Json) :
    Consumes fun s => arrayItems value n s acc := by
  intro s v rest h
  induction n generalizing s acc with
  | zero => cases h
  | succ n ih =>
    obtain ⟨⟨v', s₁⟩, hval, h⟩ := bind_eq_ok h
    have hlt := hv s v' s₁ hval
    have hle := length_skipWs_le s₁
    simp only at h
    split at h
    · rename_i s₂ hs₂
      cases h
      rw [hs₂, List.length_cons] at hle
      omega
    · rename_i s₂ hs₂
      have := ih _ _ h
      have := length_skipWs_le s₂
      rw [hs₂, List.length_cons] at hle
      omega
    · cases h

theorem objectItems_consumes (hv : Consumes value) (n : ℕ) (acc : List (String × Json)) :
    Consumes fun s => objectItems value n s acc := by
  intro s v rest h
  induction n generalizing s acc with
  | zero => cases h
  | succ n ih =>
    simp only [objectItems] at h
    split at h
    · rename_i s₁
      obtain ⟨⟨key, s₂⟩, hkey, h⟩ := bind_eq_ok h
      have hlt₂ := scanstring_consumes [] none s₁ key s₂ hkey
      have hle₂ := length_skipWs_le s₂
      simp only at h
      split at h
      · rename_i s₃ hs₃
        obtain ⟨⟨v', s₄⟩, hval, h⟩ := bind_eq_ok h
        have hlt₄ := hv _ v' s₄ hval
        have hle₃ := length_skipWs_le s₃
        have hle₄ := length_skipWs_le s₄
        rw [hs₃] at hle₂
        simp only at h
        split at h
        · rename_i s₅ hs₅
          cases h
          rw [hs₅] at hle₄
          simp only [List.length_cons] at *
          omega
        · rename_i s₅ hs₅
          have hlt := ih _ _ h
          have hle₅ := length_skipWs_le s₅
          rw [hs₅] at hle₄
          simp only [List.length_cons] at *
          omega
        · cases h
      · cases h
    · cases h

theorem parseArray_consumes (hv : Consumes value) {s rest : List Char} {v : Json}
    (h : parseArray value s = .ok (v, rest)) : rest.length < s.length + 1 := by
  have hle := length_skipWs_le s
  rw [parseArray] at h
  split at h
  · rename_i hs
    cases h
    rw [hs, List.length_cons] at hle
    omega
  · exact (arrayItems_consumes hv _ _ _ _ _ h).trans_le (hle.trans (Nat.le_succ _))

theorem parseObject_consumes (hv : Consumes value) {s rest : List Char} {v : Json}
    (h : parseObject value s = .ok (v, rest)) : rest.length < s.length + 1 := by
  have hle := length_skipWs_le s
  rw [parseObject] at h
  split at h
  · rename_i hs
    cases h
    rw [hs, List.length_cons] at hle
    omega
  · exact (objectItems_consumes hv _ _ _ _ _ h).trans_le (hle.trans (Nat.le_succ _))

end Loops

/-- `scan_once` consumes, so that the loops it starts never run out of fuel. -/
theorem scanOnce_consumes (depth : ℕ) : Consumes (scanOnce depth) := by
  induction depth with
  | zero =>
    intro s v rest h
    simp only [scanOnce] at h
    split at h
    · cases h
    · cases h
    · exact scanAtom_consumes _ _ _ h
  | succ depth ih =>
    intro s v rest h
    simp only [scanOnce] at h
    split at h
    · exact parseArray_consumes ih h
    · exact parseObject_consumes ih h
    · exact scanAtom_consumes _ _ _ h

/-- More fuel changes nothing for a list. -/
theorem parseArray_fuel (depth : ℕ) {n : ℕ} {s : List Char} (h : s.length < n) :
    arrayItems (scanOnce depth) n s [] = arrayItems (scanOnce depth) (s.length + 1) s [] :=
  arrayItems_fuel (scanOnce_consumes depth) h (Nat.lt_succ_self _)

/-- More fuel changes nothing for a dictionary. -/
theorem parseObject_fuel (depth : ℕ) {n : ℕ} {s : List Char} (h : s.length < n) :
    objectItems (scanOnce depth) n s [] = objectItems (scanOnce depth) (s.length + 1) s [] :=
  objectItems_fuel (scanOnce_consumes depth) h (Nat.lt_succ_self _)

end JsonDecoder

/-- `json.loads`, under an interpreter that allows values to be nested `maxDepth` deep. -/
def loads (maxDepth : ℕ) : Raw → Except PyError Json
  | .str s =>
    if s.toList.head? = some (Char.ofNat 0xFEFF) then .error .jsonDecodeError
    else JsonDecoder.decode maxDepth s.toList
  | .bytes b => JsonDecoder.decodeBytes b >>= JsonDecoder.decode maxDepth

end Python
