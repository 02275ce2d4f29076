import SasTests.Python.Ascii
import Mathlib.Data.List.TakeWhile

/-!
# The texts that `int` accepts

The grammar of `int` for ASCII texts, and the number that a text stands for: blanks, a sign or none,
digits with single underscores between them, blanks (`IntText`). `parseInt` accepts exactly these
texts (`parseInt_eq_ok`).
-/

namespace Python

/-- Digits, with single underscores between them. -/
inductive DigitText : List Char → Prop
  | single {c : Char} : c.isDigit = true → DigitText [c]
  | digit {c : Char} {text : List Char} : c.isDigit = true → DigitText text → DigitText (c :: text)
  | underscore {c : Char} {text : List Char} :
      c.isDigit = true → DigitText text → DigitText (c :: '_' :: text)

/-- The number written by digits with underscores between them. -/
def digitTextValue (text : List Char) : ℕ := Nat.ofDigitChars 10 (text.filter (· ≠ '_')) 0

/-- `text` stands for the integer `n`. -/
def IntText (text : List Char) (n : ℤ) : Prop :=
  ∃ before sign digits after, text = before ++ (sign ++ digits) ++ after ∧
    (∀ c ∈ before, isBlank c = true) ∧ (∀ c ∈ after, isBlank c = true) ∧ DigitText digits ∧
    ((sign = [] ∨ sign = ['+']) ∧ n = digitTextValue digits ∨
      sign = ['-'] ∧ n = -(digitTextValue digits : ℤ))

/-! ## Digits -/

theorem DigitText.head {c : Char} {text : List Char} (h : DigitText (c :: text)) :
    c.isDigit = true := by
  cases h <;> assumption

theorem DigitText.ne_nil {text : List Char} (h : DigitText text) : text ≠ [] := by
  cases h <;> simp

/-- The last character is a digit, too. -/
theorem DigitText.getLast {text : List Char} (h : DigitText text) :
    (text.getLast h.ne_nil).isDigit = true := by
  induction h with
  | single hc => exact hc
  | digit hc h ih => rwa [List.getLast_cons h.ne_nil]
  | underscore hc h ih =>
    rwa [List.getLast_cons (List.cons_ne_nil _ _), List.getLast_cons h.ne_nil]

theorem ne_underscore {c : Char} (h : c.isDigit = true) : c ≠ '_' := by
  rintro rfl
  cases h

theorem digitText_cons {c d : Char} {text : List Char} (hc : c.isDigit = true) (hd : d ≠ '_') :
    DigitText (c :: d :: text) ↔ DigitText (d :: text) := by
  constructor
  · intro h
    cases h with
    | digit _ h => exact h
    | underscore => exact absurd rfl hd
  · exact .digit hc

theorem digitText_underscore {c : Char} {text : List Char} (hc : c.isDigit = true) :
    DigitText (c :: '_' :: text) ↔ DigitText text := by
  constructor
  · intro h
    cases h with
    | digit _ h => exact absurd rfl (ne_underscore h.head)
    | underscore _ h => exact h
  · exact .underscore hc

/-- What `digitsFrom` accepts behind a digit, and what it makes of it. -/
theorem digitsFrom_eq_some {text : List Char} {c : Char} (hc : c.isDigit = true) {acc n : ℕ} :
    digitsFrom text acc = some n ↔
      DigitText (c :: text) ∧ Nat.ofDigitChars 10 (text.filter (· ≠ '_')) acc = n := by
  -- one more digit, whether there is an underscore before it or not
  have step : ∀ {d : Char} {rest : List Char} {acc : ℕ}, d.isDigit = true →
      Nat.ofDigitChars 10 ((d :: rest).filter (· ≠ '_')) acc =
        Nat.ofDigitChars 10 (rest.filter (· ≠ '_')) (acc * 10 + digitValue d) := by
    intro d rest acc hd
    rw [List.filter_cons_of_pos (by simpa using ne_underscore hd), Nat.ofDigitChars_cons,
      Nat.mul_comm]
    rfl
  fun_induction digitsFrom text acc generalizing c with
  | case1 acc =>
    rw [List.filter_nil, Nat.ofDigitChars_nil, Option.some.injEq]
    exact ⟨fun h => ⟨.single hc, h⟩, fun h => h.2⟩
  | case2 d rest acc hd ih =>
    rw [digitText_underscore hc, List.filter_cons_of_neg (by simp), step hd]
    exact ih hd
  | case3 d rest acc hd =>
    refine iff_of_false nofun fun h => hd ?_
    exact ((digitText_underscore hc).mp h.1).head
  | case4 d rest acc _ hd ih =>
    rw [digitText_cons hc (ne_underscore hd), step hd]
    exact ih hd
  | case5 d rest acc hne hd =>
    refine iff_of_false nofun fun h => ?_
    by_cases hd' : d = '_'
    · subst hd'
      have hrest := (digitText_underscore hc).mp h.1
      obtain ⟨e, rest, rfl⟩ := List.exists_cons_of_ne_nil hrest.ne_nil
      exact hne e rest rfl rfl
    · exact hd ((digitText_cons hc hd').mp h.1).head

theorem parseDigits_eq_some {text : List Char} {n : ℕ} :
    parseDigits text = some n ↔ DigitText text ∧ digitTextValue text = n := by
  cases text with
  | nil => exact iff_of_false (by simp [parseDigits]) fun h => h.1.ne_nil rfl
  | cons c text =>
    rw [parseDigits]
    split
    · rename_i hc
      rw [digitsFrom_eq_some hc, digitTextValue,
        List.filter_cons_of_pos (by simpa using ne_underscore hc), Nat.ofDigitChars_cons,
        Nat.mul_zero, Nat.zero_add]
      rfl
    · rename_i hc
      exact iff_of_false (by simp) fun h => hc h.1.head

/-! ## Blanks -/

/-- A text is what `stripBy` leaves of it, with characters for which `p` holds on both sides. -/
theorem exists_stripBy (p : Char → Bool) (text : List Char) :
    ∃ before after, text = before ++ stripBy p text ++ after ∧ (∀ c ∈ before, p c = true) ∧
      ∀ c ∈ after, p c = true := by
  refine ⟨text.takeWhile p, ((text.dropWhile p).reverse.takeWhile p).reverse, ?_,
    fun c hc => List.mem_takeWhile_imp hc,
    fun c hc => List.mem_takeWhile_imp (List.mem_reverse.mp hc)⟩
  rw [stripBy, List.append_assoc, ← List.reverse_append, List.takeWhile_append_dropWhile,
    List.reverse_reverse, List.takeWhile_append_dropWhile]

/-- What stands between characters for which `p` holds is left, if it neither begins nor ends with
one. -/
theorem stripBy_append {p : Char → Bool} {before text after : List Char} (hne : text ≠ [])
    (hbefore : ∀ c ∈ before, p c = true) (hafter : ∀ c ∈ after, p c = true)
    (hhead : p (text.head hne) = false) (hlast : p (text.getLast hne) = false) :
    stripBy p (before ++ text ++ after) = text := by
  have hfirst : (before ++ text ++ after).dropWhile p = text ++ after := by
    rw [List.append_assoc, List.dropWhile_append_of_pos hbefore]
    obtain ⟨c, rest, rfl⟩ := List.exists_cons_of_ne_nil hne
    exact List.dropWhile_cons_of_neg (by simpa using hhead)
  have hsecond : (text ++ after).reverse.dropWhile p = text.reverse := by
    rw [List.reverse_append,
      List.dropWhile_append_of_pos fun c hc => hafter c (List.mem_reverse.mp hc)]
    obtain ⟨c, rest, hrev⟩ := List.exists_cons_of_ne_nil (List.reverse_ne_nil_iff.mpr hne)
    have hc : c = text.getLast hne := by
      rw [← List.head_reverse (List.reverse_ne_nil_iff.mpr hne)]
      simp [hrev]
    rw [hrev]
    exact List.dropWhile_cons_of_neg (by simp [hc, hlast])
  rw [stripBy, hfirst, hsecond, List.reverse_reverse]

/-! ## Integers -/

/-- A sign, or none, and digits: blanks around them do not matter. -/
theorem stripBy_sign_digits {before sign digits after : List Char}
    (hbefore : ∀ c ∈ before, isBlank c = true) (hafter : ∀ c ∈ after, isBlank c = true)
    (hdigits : DigitText digits) (hsign : sign = [] ∨ sign = ['+'] ∨ sign = ['-']) :
    stripBy isBlank (before ++ (sign ++ digits) ++ after) = sign ++ digits := by
  have hne : sign ++ digits ≠ [] := by simp [hdigits.ne_nil]
  apply stripBy_append hne hbefore hafter
  · rcases hsign with rfl | rfl | rfl
    · obtain ⟨c, rest, rfl⟩ := List.exists_cons_of_ne_nil hdigits.ne_nil
      exact isBlank_of_isDigit hdigits.head
    · rfl
    · rfl
  · rw [List.getLast_append_of_ne_nil hne hdigits.ne_nil]
    exact isBlank_of_isDigit hdigits.getLast

/-- **`int` accepts exactly the texts that stand for an integer**, and returns this integer. -/
theorem parseInt_eq_ok {text : List Char} {n : ℤ} : parseInt text = .ok n ↔ IntText text n := by
  constructor
  · intro h
    obtain ⟨before, after, htext, hbefore, hafter⟩ := exists_stripBy isBlank text
    have digits : ∀ {sign rest : List Char} {f : ℤ → ℤ}, stripBy isBlank text = sign ++ rest →
        ((parseDigits rest).bind fun k => some (k : ℤ)).map f = some n →
        ((sign = [] ∨ sign = ['+']) ∧ f = (fun k => k) ∨ sign = ['-'] ∧ f = fun k => -k) →
        IntText text n := by
      intro sign rest f hstrip hn hf
      obtain ⟨k, hk, hkn⟩ : ∃ k, parseDigits rest = some k ∧ f k = n := by
        rcases hrest : parseDigits rest with _ | k <;> rw [hrest] at hn
        · cases hn
        · exact ⟨k, rfl, Option.some.inj hn⟩
      obtain ⟨hdigits, rfl⟩ := parseDigits_eq_some.mp hk
      rw [hstrip] at htext
      refine ⟨before, sign, rest, after, htext, hbefore, hafter, hdigits, ?_⟩
      rcases hf with ⟨hsign, rfl⟩ | ⟨hsign, rfl⟩
      · exact .inl ⟨hsign, hkn.symm⟩
      · exact .inr ⟨hsign, hkn.symm⟩
    simp only [parseInt] at h
    split at h
    · rename_i k hk
      obtain rfl := Except.ok.inj h
      split at hk
      · rename_i rest hstrip
        exact digits hstrip hk (.inl ⟨.inr rfl, rfl⟩)
      · rename_i rest hstrip
        exact digits hstrip hk (.inr ⟨rfl, rfl⟩)
      · exact digits rfl hk (.inl ⟨.inl rfl, rfl⟩)
    · cases h
  · rintro ⟨before, sign, digits, after, rfl, hbefore, hafter, hdigits, hsign⟩
    have hsigns : sign = [] ∨ sign = ['+'] ∨ sign = ['-'] := by
      rcases hsign with ⟨hsign | hsign, -⟩ | ⟨hsign, -⟩
      · exact .inl hsign
      · exact .inr (.inl hsign)
      · exact .inr (.inr hsign)
    have hstrip := stripBy_sign_digits hbefore hafter hdigits hsigns
    have hparse : parseDigits digits = some (digitTextValue digits) :=
      parseDigits_eq_some.mpr ⟨hdigits, rfl⟩
    rcases hsign with ⟨rfl | rfl, rfl⟩ | ⟨rfl, rfl⟩
    · obtain ⟨c, rest, rfl⟩ := List.exists_cons_of_ne_nil hdigits.ne_nil
      have hplus : c ≠ '+' := by
        rintro rfl
        cases hdigits.head
      have hminus : c ≠ '-' := by
        rintro rfl
        cases hdigits.head
      rw [List.nil_append] at hstrip
      rw [parseInt, List.nil_append, hstrip]
      simp [hplus, hminus, hparse]
    · rw [parseInt, hstrip]
      simp [hparse]
    · rw [parseInt, hstrip]
      simp [hparse]

end Python
