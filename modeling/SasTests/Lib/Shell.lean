import Mathlib.Data.List.Basic

/-!
# How a POSIX shell splits a command line

A line of plain characters, blanks and double quotes is cut into words. Inside double quotes a
backslash escapes one of `$`, backquote, double quote, backslash and newline, and stands for itself
before anything else; an unescaped `$` or backquote starts an expansion. A line that asks the shell
for more than that has no words here, but a reason why.

* `split` — the words of a line.
* `Passes` — a text inside double quotes that adds given characters to the word, whatever stands
  around it. Such texts can be put in a row (`Passes.append`), and quoted, they are words
  (`splitFrom_quoted`).
-/

namespace Shell

/-- What makes a line more than a list of words. -/
inductive Special
  /-- an expansion or a command substitution starts -/
  | expansion
  /-- an unquoted character that is not plain -/
  | unquoted
  /-- a double quote is not closed -/
  | unterminated
  deriving DecidableEq

/-- The backquote. -/
def backquote : Char := Char.ofNat 0x60

/-- Does this character start an expansion, unless it is escaped? -/
def expands (c : Char) : Bool := c = '$' || c = backquote

/-- What a backslash escapes inside double quotes. -/
def escapable (c : Char) : Bool := expands c || c = '"' || c = '\\' || c = '\n'

/-- The characters that mean nothing to the shell outside of quotes, wherever they stand. -/
def plain (c : Char) : Bool := c.isAlphanum || c = '-' || c = '_' || c = '.' || c = '/'

/-- Is this a blank? -/
def blank (c : Char) : Bool := c = ' ' || c = '\t'

/-- Where in a line a character stands. -/
inductive Mode
  /-- outside of quotes -/
  | bare
  /-- inside double quotes -/
  | quoted
  /-- inside double quotes, behind a backslash -/
  | escaped
  deriving DecidableEq

/-- The words of the rest of a line, which begins in the given mode. `word` is what has been read of
the word in which it begins, if there is one. -/
def splitFrom : Mode → Option (List Char) → List Char → Except Special (List (List Char))
  | .bare, word, [] => .ok word.toList
  | _, _, [] => .error .unterminated
  | .bare, word, c :: s =>
    if blank c then (word.toList ++ ·) <$> splitFrom .bare none s
    else if c = '"' then splitFrom .quoted (some (word.getD [])) s
    else if plain c then splitFrom .bare (some (word.getD [] ++ [c])) s
    else if expands c then .error .expansion
    else .error .unquoted
  | .quoted, word, c :: s =>
    if c = '"' then splitFrom .bare word s
    else if expands c then .error .expansion
    else if c = '\\' then splitFrom .escaped word s
    else splitFrom .quoted (some (word.getD [] ++ [c])) s
  | .escaped, word, c :: s =>
    -- an escaped newline is removed
    if c = '\n' then splitFrom .quoted word s
    else if escapable c then splitFrom .quoted (some (word.getD [] ++ [c])) s
    else splitFrom .quoted (some (word.getD [] ++ ['\\', c])) s

theorem splitFrom_bare_nil (word : Option (List Char)) :
    splitFrom .bare word [] = .ok word.toList := rfl

theorem splitFrom_bare_cons (word : Option (List Char)) (c : Char) (s : List Char) :
    splitFrom .bare word (c :: s) =
      if blank c then (word.toList ++ ·) <$> splitFrom .bare none s
      else if c = '"' then splitFrom .quoted (some (word.getD [])) s
      else if plain c then splitFrom .bare (some (word.getD [] ++ [c])) s
      else if expands c then .error .expansion
      else .error .unquoted := rfl

theorem splitFrom_quoted_cons (word : Option (List Char)) (c : Char) (s : List Char) :
    splitFrom .quoted word (c :: s) =
      if c = '"' then splitFrom .bare word s
      else if expands c then .error .expansion
      else if c = '\\' then splitFrom .escaped word s
      else splitFrom .quoted (some (word.getD [] ++ [c])) s := rfl

theorem splitFrom_escaped_cons (word : Option (List Char)) (c : Char) (s : List Char) :
    splitFrom .escaped word (c :: s) =
      if c = '\n' then splitFrom .quoted word s
      else if escapable c then splitFrom .quoted (some (word.getD [] ++ [c])) s
      else splitFrom .quoted (some (word.getD [] ++ ['\\', c])) s := rfl

/-- The words of a line. -/
def split (line : List Char) : Except Special (List (List Char)) := splitFrom .bare none line

example : split "ls  -l \"a b\"c \"\"".toList =
    .ok ["ls".toList, "-l".toList, "a bc".toList, []] := by decide +kernel

/-! ## Texts inside double quotes -/

/-- Inside double quotes, `text` adds `content` to the word. -/
def Passes (text content : List Char) : Prop :=
  ∀ word rest, splitFrom .quoted (some word) (text ++ rest) =
    splitFrom .quoted (some (word ++ content)) rest

namespace Passes

theorem nil : Passes [] [] := fun word rest => by rw [List.append_nil, List.nil_append]

theorem append {text text' content content' : List Char} (h : Passes text content)
    (h' : Passes text' content') : Passes (text ++ text') (content ++ content') := by
  intro word rest
  rw [List.append_assoc, h, h', List.append_assoc]

/-- Texts in a row. -/
theorem flatMap {α : Type} {text content : α → List Char} {xs : List α}
    (h : ∀ x ∈ xs, Passes (text x) (content x)) :
    Passes (xs.flatMap text) (xs.flatMap content) := by
  induction xs with
  | nil => exact nil
  | cons x xs ih =>
    rw [List.flatMap_cons, List.flatMap_cons]
    exact (h x (List.mem_cons_self ..)).append (ih fun y hy => h y (List.mem_cons_of_mem _ hy))

/-- A character that needs no escape. -/
theorem single {c : Char} (h : escapable c = false) : Passes [c] [c] := by
  intro word rest
  simp only [escapable, Bool.or_eq_false_iff, decide_eq_false_iff_not] at h
  obtain ⟨⟨⟨hexp, hquote⟩, hback⟩, -⟩ := h
  simp only [List.singleton_append, splitFrom_quoted_cons, if_neg hquote, hexp, Bool.false_eq_true,
    if_false, if_neg hback, Option.getD_some]

/-- An escaped character. -/
theorem escaped {c : Char} (h : escapable c = true) (hc : c ≠ '\n') : Passes ['\\', c] [c] := by
  intro word rest
  have hexp : expands '\\' = false := by decide +kernel
  have hback : ('\\' : Char) ≠ '"' := by decide
  simp only [List.cons_append, List.nil_append, splitFrom_quoted_cons, splitFrom_escaped_cons,
    if_neg hback, hexp, Bool.false_eq_true, if_false, if_true, if_neg hc, h, Option.getD_some]

/-- A backslash that escapes nothing stands for itself. -/
theorem backslash {c : Char} (h : escapable c = false) : Passes ['\\', c] ['\\', c] := by
  intro word rest
  have hc : c ≠ '\n' := by
    rintro rfl
    exact Bool.noConfusion ((by decide +kernel : escapable '\n' = true).symm.trans h)
  have hexp : expands '\\' = false := by decide +kernel
  have hback : ('\\' : Char) ≠ '"' := by decide
  simp only [List.cons_append, List.nil_append, splitFrom_quoted_cons, splitFrom_escaped_cons,
    if_neg hback, hexp, Bool.false_eq_true, if_false, if_true, if_neg hc, h, Option.getD_some]

end Passes

/-- A character that starts an expansion. -/
theorem splitFrom_expands {c : Char} (h : expands c = true) (word rest : List Char) :
    splitFrom .quoted (some word) (c :: rest) = .error .expansion := by
  have hc : c ≠ '"' := by
    rintro rfl
    exact Bool.noConfusion ((by decide +kernel : expands '"' = false).symm.trans h)
  simp only [splitFrom_quoted_cons, if_neg hc, h, if_true]

/-- Letters and digits are nothing special. -/
theorem escapable_of_isAlphanum {c : Char} (h : c.isAlphanum = true) : escapable c = false := by
  simp only [escapable, expands, Bool.or_eq_false_iff, decide_eq_false_iff_not]
  refine ⟨⟨⟨⟨?_, ?_⟩, ?_⟩, ?_⟩, ?_⟩
  all_goals
    rintro rfl
    exact absurd h (by decide)

/-! ## Words -/

theorem blank_of_plain {c : Char} (h : plain c = true) : blank c = false := by
  by_contra hb
  simp only [blank, Bool.not_eq_false, Bool.or_eq_true, decide_eq_true_eq] at hb
  rcases hb with rfl | rfl <;> exact absurd h (by decide)

/-- Plain characters add to the word. -/
theorem splitFrom_plain {w : List Char} (h : ∀ c ∈ w, plain c = true) (word rest : List Char) :
    splitFrom .bare (some word) (w ++ rest) = splitFrom .bare (some (word ++ w)) rest := by
  induction w generalizing word with
  | nil => rw [List.append_nil, List.nil_append]
  | cons c w ih =>
    have hc := h c (List.mem_cons_self ..)
    have hblank := blank_of_plain hc
    have hquote : c ≠ '"' := by
      rintro rfl
      exact absurd hc (by decide)
    rw [List.cons_append, splitFrom_bare_cons, if_neg (by simp [hblank]), if_neg hquote, if_pos hc,
      Option.getD_some, ih fun d hd => h d (List.mem_cons_of_mem _ hd), List.append_assoc]
    rfl

/-- A plain word, and a blank. -/
theorem splitFrom_word {w : List Char} (hne : w ≠ []) (h : ∀ c ∈ w, plain c = true)
    (rest : List Char) :
    splitFrom .bare none (w ++ ' ' :: rest) = (w :: ·) <$> splitFrom .bare none rest := by
  obtain ⟨c, w, rfl⟩ := List.exists_cons_of_ne_nil hne
  have hfirst : splitFrom .bare none (c :: w ++ ' ' :: rest) =
      splitFrom .bare (some []) (c :: w ++ ' ' :: rest) := by
    have hblank := blank_of_plain (h c (List.mem_cons_self ..))
    simp only [List.cons_append, splitFrom_bare_cons, hblank, Bool.false_eq_true, if_false,
      Option.getD_none, Option.getD_some]
  rw [hfirst, splitFrom_plain h, List.nil_append]
  simp [splitFrom_bare_cons, blank]

/-- A quoted word, and a blank. -/
theorem splitFrom_quoted {text content : List Char} (h : Passes text content) (rest : List Char) :
    splitFrom .bare none ('"' :: text ++ '"' :: ' ' :: rest) =
      (content :: ·) <$> splitFrom .bare none rest := by
  have hopen : splitFrom .bare none ('"' :: text ++ '"' :: ' ' :: rest) =
      splitFrom .quoted (some []) (text ++ '"' :: ' ' :: rest) := by
    simp [splitFrom_bare_cons, blank]
  rw [hopen, h, List.nil_append]
  simp [splitFrom_quoted_cons, splitFrom_bare_cons, blank]

/-- A quoted word at the end of the line. -/
theorem splitFrom_quoted_end {text content : List Char} (h : Passes text content) :
    splitFrom .bare none ('"' :: text ++ ['"']) = .ok [content] := by
  have hopen : splitFrom .bare none ('"' :: text ++ ['"']) =
      splitFrom .quoted (some []) (text ++ ['"']) := by
    simp [splitFrom_bare_cons, blank]
  rw [hopen, h, List.nil_append]
  simp [splitFrom_quoted_cons, splitFrom_bare_nil]

/-- A quoted word in which an expansion starts somewhere: what stands before the first such
character passes. -/
theorem splitFrom_quoted_expands {α : Type} {text content : α → List Char} {xs : List α}
    (h : ∀ x ∈ xs, Passes (text x) (content x) ∨ ∃ c, text x = [c] ∧ expands c = true)
    (hc : ∃ x ∈ xs, ∃ c, text x = [c] ∧ expands c = true) (rest : List Char) :
    splitFrom .bare none ('"' :: xs.flatMap text ++ rest) = .error .expansion := by
  have hopen : splitFrom .bare none ('"' :: xs.flatMap text ++ rest) =
      splitFrom .quoted (some []) (xs.flatMap text ++ rest) := by
    simp [splitFrom_bare_cons, blank]
  rw [hopen]
  generalize [] = word
  induction xs generalizing word with
  | nil =>
    obtain ⟨x, hx, -⟩ := hc
    cases hx
  | cons x xs ih =>
    rw [List.flatMap_cons, List.append_assoc]
    by_cases hx : ∃ c, text x = [c] ∧ expands c = true
    · obtain ⟨c, hx, hexp⟩ := hx
      rw [hx]
      exact splitFrom_expands hexp word _
    · obtain ⟨y, hy, hyc⟩ := hc
      have hpass := (h x (List.mem_cons_self ..)).resolve_right hx
      have hxs : y ∈ xs := (List.mem_cons.mp hy).resolve_left fun heq => hx (heq ▸ hyc)
      rw [hpass]
      exact ih (fun z hz => h z (List.mem_cons_of_mem _ hz)) ⟨y, hxs, hyc⟩
        (by simp [splitFrom_bare_cons, blank]) _

end Shell
