import Mathlib.Data.List.Basic

/-!
# `csv`

`csv.reader` and `csv.writer` of Python's standard library with the default dialect `excel`: fields
are separated by commas, a field that has a comma, a double quote or a line break in it is quoted,
and a double quote in it is written twice. The reader is the state machine of the C module. It is
given lines, which end behind each newline, and is told where each of them ends.

`reader_writer`: what the writer wrote is read back, as long as no field is longer than the reader
allows. The proof runs the machine over the whole text (`scan`), not line by line: the lines of a
text are not the lines of its rows, since a quoted field may go over several lines.
-/

namespace Python

namespace Csv

/-- The fields of one record. -/
abbrev Row : Type := List (List Char)

/-- `_csv.Error` -/
inductive Error
  /-- `new-line character seen in unquoted field` -/
  | newLine
  /-- `field larger than field limit (131072)` -/
  | fieldLimit
  deriving DecidableEq

/-- `csv.field_size_limit()` -/
def fieldLimit : ℕ := 131072

/-! ## The reader -/

/-- The states of the reader. -/
inductive Mode
  | startRecord
  | startField
  | inField
  | inQuotedField
  | quoteInQuotedField
  | eatCrnl
  deriving DecidableEq

/-- A reader in the middle of a record. -/
structure Reader where
  /-- its state -/
  mode : Mode
  /-- what has been read of a field -/
  field : List Char
  /-- the fields before it -/
  fields : Row

namespace Reader

/-- `parse_reset` -/
def new : Reader := ⟨.startRecord, [], []⟩

/-- `parse_add_char` -/
def addChar (r : Reader) (c : Char) (mode : Mode) : Except Error Reader :=
  if fieldLimit ≤ r.field.length then .error .fieldLimit
  else .ok { r with mode := mode, field := r.field ++ [c] }

/-- `parse_save_field` -/
def saveField (r : Reader) (mode : Mode) : Reader := ⟨mode, [], r.fields ++ [r.field]⟩

/-- The character ends a line. -/
def isBreak (c : Char) : Bool := c = '\n' || c = '\r'

/-- `parse_process_char`; `none` is the end of the line. -/
def process (r : Reader) (c : Option Char) : Except Error Reader :=
  match r.mode, c with
  | .startRecord, none => .ok r
  | .startRecord, some c =>
    if isBreak c then .ok { r with mode := .eatCrnl }
    else if c = '"' then .ok { r with mode := .inQuotedField }
    else if c = ',' then .ok (r.saveField .startField)
    else r.addChar c .inField
  | .startField, none => .ok (r.saveField .startRecord)
  | .startField, some c =>
    if isBreak c then .ok (r.saveField .eatCrnl)
    else if c = '"' then .ok { r with mode := .inQuotedField }
    else if c = ',' then .ok (r.saveField .startField)
    else r.addChar c .inField
  | .inField, none => .ok (r.saveField .startRecord)
  | .inField, some c =>
    if isBreak c then .ok (r.saveField .eatCrnl)
    else if c = ',' then .ok (r.saveField .startField)
    else r.addChar c .inField
  | .inQuotedField, none => .ok r
  | .inQuotedField, some c =>
    if c = '"' then .ok { r with mode := .quoteInQuotedField } else r.addChar c .inQuotedField
  | .quoteInQuotedField, none => .ok (r.saveField .startRecord)
  | .quoteInQuotedField, some c =>
    if c = '"' then r.addChar c .inQuotedField
    else if c = ',' then .ok (r.saveField .startField)
    else if isBreak c then .ok (r.saveField .eatCrnl)
    else r.addChar c .inField
  | .eatCrnl, none => .ok { r with mode := .startRecord }
  | .eatCrnl, some c => if isBreak c then .ok r else .error .newLine

/-- A line, with its end. -/
def readLine (r : Reader) (line : List Char) : Except Error Reader := do
  let r ← line.foldlM (fun r c => r.process (some c)) r
  r.process none

/-- `list(reader)`, from the middle of a record on: each time the reader is back at the start of a
record, the record is complete. -/
def readRows : List (List Char) → Reader → Except Error (List Row)
  | [], r =>
    if r.field ≠ [] ∨ r.mode = .inQuotedField then .ok [r.fields ++ [r.field]] else .ok []
  | line :: lines, r => do
    let r ← r.readLine line
    if r.mode = .startRecord then (r.fields :: ·) <$> readRows lines new else readRows lines r

end Reader

/-- The lines of `io.StringIO(text)`, each with its newline. -/
def lines : List Char → List (List Char)
  | [] => []
  | c :: text =>
    if c = '\n' then [c] :: lines text
    else match lines text with
      | [] => [[c]]
      | line :: rest => (c :: line) :: rest

/-- `list(csv.reader(io.StringIO(text)))` -/
def reader (text : List Char) : Except Error (List Row) := Reader.readRows (lines text) .new

/-! ## The writer -/

/-- A field with this character in it is quoted. -/
def special (c : Char) : Bool := c = ',' || c = '"' || c = '\r' || c = '\n'

/-- A character in a quoted field. -/
def double (c : Char) : List Char := if c = '"' then ['"', '"'] else [c]

/-- `join_append` -/
def writeField (field : List Char) : List Char :=
  if field.any special then '"' :: (field.flatMap double ++ ['"']) else field

/-- The fields of a record, with commas between them. -/
def joinFields : Row → List Char
  | [] => []
  | [field] => writeField field
  | field :: rest => writeField field ++ ',' :: joinFields rest

/-- `writer.writerow(row)`: a record that is one empty field is not left empty. -/
def writeRow (row : Row) : List Char :=
  (if row = [[]] then ['"', '"'] else joinFields row) ++ ['\r', '\n']

/-- `csv.writer(out).writerows(rows)` -/
def writer (rows : List Row) : List Char := rows.flatMap writeRow

example : writer ["a".toList :: ["b,\"c\"".toList], [[]], []] =
    "a,\"b,\"\"c\"\"\"\r\n\"\"\r\n\r\n".toList := by decide +kernel

example : reader "a,\"b\r\n\"\"c\"\r\n\n\"\"\n".toList =
    .ok [["a".toList, "b\r\n\"c".toList], [], [[]]] := by decide +kernel

/-! ## The machine over a whole text -/

namespace Reader

/-- A line has ended; `rest` is what the machine makes of the text behind it. -/
def endLine (rest : Reader → Except Error (List Row)) (r : Reader) : Except Error (List Row) := do
  let r ← r.process none
  if r.mode = .startRecord then (r.fields :: ·) <$> rest new else rest r

/-- The machine on a text. `inLine` says whether it is in the middle of a line. -/
def scan : Bool → List Char → Reader → Except Error (List Row)
  | false, [], r => readRows [] r
  | true, [], r => endLine (readRows []) r
  | _, c :: text, r => do
    let r ← r.process (some c)
    if c = '\n' then endLine (scan false text) r else scan true text r

theorem readRows_cons (line : List Char) (lines : List (List Char)) (r : Reader) :
    readRows (line :: lines) r =
      line.foldlM (fun r c => r.process (some c)) r >>= endLine (readRows lines) := by
  rw [readRows, readLine, bind_assoc]
  rfl

/-- Running line by line is running over the text. -/
theorem readRows_lines (text : List Char) :
    (∀ r, readRows (lines text) r = scan false text r) ∧
      ∀ r, (if lines text = [] then endLine (readRows []) r else readRows (lines text) r) =
        scan true text r := by
  induction text with
  | nil => exact ⟨fun r => rfl, fun r => if_pos rfl⟩
  | cons c text ih =>
    have hcons : ∀ inLine r, readRows (lines (c :: text)) r = scan inLine (c :: text) r := by
      intro inLine r
      rw [lines, scan]
      by_cases hc : c = '\n'
      · have hrest : readRows (lines text) = scan false text := funext ih.1
        rw [if_pos hc, readRows_cons, hrest, List.foldlM_cons, bind_assoc]
        simp only [hc, if_true]
        rfl
      · simp only [hc, if_false]
        rcases hlines : lines text with _ | ⟨line, rest⟩
        · have hrest : endLine (readRows []) = scan true text := by
            funext r
            rw [← ih.2 r, hlines, if_pos rfl]
          simp only
          rw [readRows_cons, hrest, List.foldlM_cons, bind_assoc]
          rfl
        · have hrest : readRows (line :: rest) = scan true text := by
            funext r
            rw [← ih.2 r, hlines, if_neg (List.cons_ne_nil line rest)]
          simp only
          rw [readRows_cons, List.foldlM_cons, bind_assoc, ← hrest]
          refine congrArg _ (funext fun r => ?_)
          rw [readRows_cons]
    have hne : lines (c :: text) ≠ [] := by
      rw [lines]
      split
      · exact List.cons_ne_nil _ _
      · split <;> exact List.cons_ne_nil _ _
    refine ⟨hcons false, fun r => ?_⟩
    rw [if_neg hne]
    exact hcons true r

/-! ## What the writer wrote -/

variable {inLine : Bool} {c : Char} {rest field acc : List Char} {done : Row}

/-- Whether the machine is in the middle of a line matters only at the end of the text. -/
theorem scan_inLine {r : Reader} (h : rest ≠ []) : scan inLine rest r = scan true rest r := by
  obtain ⟨c, rest, rfl⟩ := List.exists_cons_of_ne_nil h
  cases inLine <;> rfl

/-- A character that is not a newline. -/
theorem scan_cons {r r' : Reader} (hc : c ≠ '\n') (h : r.process (some c) = .ok r') :
    scan inLine (c :: rest) r = scan true rest r' := by
  rw [scan, h]
  exact if_neg hc

theorem addChar_eq {r : Reader} {mode : Mode} (h : r.field.length < fieldLimit) :
    r.addChar c mode = .ok { r with mode := mode, field := r.field ++ [c] } :=
  if_neg (Nat.not_le.mpr h)

/-- A character of a quoted field is read, and the field may go on behind the end of a line. -/
theorem scan_double (hrest : rest ≠ []) (h : acc.length < fieldLimit) :
    scan inLine (double c ++ rest) ⟨.inQuotedField, acc, done⟩ =
      scan true rest ⟨.inQuotedField, acc ++ [c], done⟩ := by
  obtain ⟨d, rest, rfl⟩ := List.exists_cons_of_ne_nil hrest
  rw [double]
  split
  next hc =>
    subst hc
    have hprocess : process ⟨.quoteInQuotedField, acc, done⟩ (some '"') =
        .ok ⟨.inQuotedField, acc ++ ['"'], done⟩ := addChar_eq h
    exact (scan_cons (by decide) rfl).trans (scan_cons (by decide) hprocess)
  next hc =>
    have hprocess : process ⟨.inQuotedField, acc, done⟩ (some c) =
        .ok ⟨.inQuotedField, acc ++ [c], done⟩ := (if_neg hc).trans (addChar_eq h)
    by_cases hnewline : c = '\n'
    · rw [List.singleton_append, scan, hprocess]
      exact if_pos hnewline
    · exact scan_cons hnewline hprocess

theorem scan_doubles (hrest : rest ≠ []) (h : acc.length + field.length ≤ fieldLimit) :
    scan inLine (field.flatMap double ++ rest) ⟨.inQuotedField, acc, done⟩ =
      scan true rest ⟨.inQuotedField, acc ++ field, done⟩ := by
  induction field generalizing inLine acc with
  | nil =>
    rw [List.append_nil]
    exact scan_inLine hrest
  | cons c field ih =>
    rw [List.length_cons] at h
    have hacc : (acc ++ [c]).length + field.length ≤ fieldLimit := by
      rw [List.length_append, List.length_singleton]
      omega
    rw [List.flatMap_cons, List.append_assoc, scan_double (by simp [hrest]) (by omega), ih hacc,
      List.append_assoc]
    rfl

/-- The characters of a field that is not quoted. -/
theorem scan_plain (hfield : ∀ c ∈ field, special c = false)
    (h : acc.length + field.length ≤ fieldLimit) (hrest : rest ≠ []) :
    scan inLine (field ++ rest) ⟨.inField, acc, done⟩ =
      scan true rest ⟨.inField, acc ++ field, done⟩ := by
  induction field generalizing inLine acc with
  | nil =>
    rw [List.append_nil]
    exact scan_inLine hrest
  | cons c field ih =>
    obtain ⟨hc, hfield⟩ := List.forall_mem_cons.mp hfield
    simp only [special, Bool.or_eq_false_iff, decide_eq_false_iff_not] at hc
    obtain ⟨⟨⟨hcomma, -⟩, hreturn⟩, hnewline⟩ := hc
    rw [List.length_cons] at h
    have hacc : (acc ++ [c]).length + field.length ≤ fieldLimit := by
      rw [List.length_append, List.length_singleton]
      omega
    have hprocess : process ⟨.inField, acc, done⟩ (some c) = .ok ⟨.inField, acc ++ [c], done⟩ := by
      simp only [process, isBreak, hcomma, hreturn, hnewline, Bool.or_self, decide_false,
        Bool.false_eq_true, if_false]
      exact addChar_eq (by simp only; omega)
    rw [List.cons_append, scan_cons hnewline hprocess, ih hfield hacc, List.append_assoc]
    rfl

/-- A field has ended at `c`. -/
def afterField (c : Char) : Mode := if c = ',' then .startField else .eatCrnl

/-- **A field is read back**, when a comma or a carriage return comes after it. -/
theorem scan_writeField (hc : c = ',' ∨ c = '\r') (h : field.length ≤ fieldLimit) :
    scan inLine (writeField field ++ c :: rest) ⟨.startField, [], done⟩ =
      scan true rest ⟨afterField c, [], done ++ [field]⟩ := by
  have hc' : c ≠ '\n' := by
    rcases hc with rfl | rfl <;> decide
  rw [writeField]
  split
  next hspecial =>
    have hquote : process ⟨.quoteInQuotedField, field, done⟩ (some c) =
        .ok ⟨afterField c, [], done ++ [field]⟩ := by
      rcases hc with rfl | rfl <;> rfl
    rw [List.cons_append, scan_cons (by decide) rfl, List.append_assoc]
    change scan true (field.flatMap double ++ '"' :: c :: rest) ⟨.inQuotedField, [], done⟩ = _
    rw [scan_doubles (List.cons_ne_nil _ _) (by simpa using h), List.nil_append]
    exact (scan_cons (by decide) rfl).trans (scan_cons hc' hquote)
  next hplain =>
    have hend : ∀ mode, mode = .startField ∧ field = [] ∨ mode = .inField →
        process ⟨mode, field, done⟩ (some c) = .ok ⟨afterField c, [], done ++ [field]⟩ := by
      rintro mode (⟨rfl, rfl⟩ | rfl) <;> rcases hc with rfl | rfl <;> rfl
    have hfield : ∀ d ∈ field, special d = false := by simpa using hplain
    cases field with
    | nil => exact scan_cons hc' (hend _ (.inl ⟨rfl, rfl⟩))
    | cons d field =>
      obtain ⟨hd, hfield⟩ := List.forall_mem_cons.mp hfield
      simp only [special, Bool.or_eq_false_iff, decide_eq_false_iff_not] at hd
      obtain ⟨⟨⟨hcomma, hquote⟩, hreturn⟩, hnewline⟩ := hd
      have hprocess : process ⟨.startField, [], done⟩ (some d) = .ok ⟨.inField, [d], done⟩ := by
        simp only [process, isBreak, hcomma, hquote, hreturn, hnewline, Bool.or_self, decide_false,
          Bool.false_eq_true, if_false]
        exact addChar_eq (show 0 < fieldLimit by decide)
      rw [List.cons_append, scan_cons hnewline hprocess,
        scan_plain hfield (by simpa [Nat.add_comm] using h) (List.cons_ne_nil _ _)]
      exact scan_cons hc' (hend _ (.inr rfl))

/-- The fields of a record are read back. -/
theorem scan_joinFields {fields : Row} (h : ∀ f ∈ field :: fields, f.length ≤ fieldLimit) :
    scan inLine (joinFields (field :: fields) ++ '\r' :: rest) ⟨.startField, [], done⟩ =
      scan true rest ⟨.eatCrnl, [], done ++ field :: fields⟩ := by
  induction fields generalizing inLine field done with
  | nil => exact scan_writeField (.inr rfl) (h field List.mem_cons_self)
  | cons next fields ih =>
    obtain ⟨hfield, hfields⟩ := List.forall_mem_cons.mp h
    rw [joinFields, List.append_assoc, List.cons_append, scan_writeField (.inl rfl) hfield]
    · exact (ih hfields).trans (by rw [List.append_assoc]; rfl)
    · exact List.cons_ne_nil _ _

/-- At the start of a record, a field starts as it does behind a comma. -/
theorem scan_startRecord (hc : isBreak c = false) :
    scan false (c :: rest) new = scan false (c :: rest) ⟨.startField, [], []⟩ := by
  have hprocess : process new (some c) = process ⟨.startField, [], []⟩ (some c) := by
    simp only [process, new, hc, Bool.false_eq_true, if_false]
    rfl
  rw [scan, scan, hprocess]

theorem exists_writeField (h : field ≠ [] ∨ c = ',') :
    ∃ d rest', writeField field ++ c :: rest = d :: rest' ∧ isBreak d = false := by
  rw [writeField]
  split
  next => exact ⟨'"', _, rfl, rfl⟩
  next hplain =>
    cases field with
    | nil => exact ⟨c, rest, rfl, by rw [h.resolve_left fun hne => hne rfl]; rfl⟩
    | cons d field =>
      refine ⟨d, _, rfl, ?_⟩
      have hd : special d = false := by simp_all
      simp only [special, Bool.or_eq_false_iff] at hd
      rw [isBreak, hd.1.2, hd.2]
      rfl

/-- **A record is read back.** -/
theorem scan_writeRow {row : Row} (h : ∀ field ∈ row, field.length ≤ fieldLimit) :
    scan false (writeRow row ++ rest) new = (row :: ·) <$> scan false rest new := by
  rw [writeRow, List.append_assoc]
  split
  next hrow =>
    subst hrow
    rfl
  next hrow =>
    rcases row with _ | ⟨field, fields⟩
    · rfl
    have hstart : scan false (joinFields (field :: fields) ++ '\r' :: '\n' :: rest) new =
        scan false (joinFields (field :: fields) ++ '\r' :: '\n' :: rest)
          ⟨.startField, [], []⟩ := by
      obtain ⟨d, rest', htext, hd⟩ : ∃ d rest',
          joinFields (field :: fields) ++ '\r' :: '\n' :: rest = d :: rest' ∧
            isBreak d = false := by
        cases fields with
        | nil => exact exists_writeField (.inl fun hnil => hrow (by rw [hnil]))
        | cons next fields =>
          rw [joinFields, List.append_assoc]
          · exact exists_writeField (.inr rfl)
          · exact List.cons_ne_nil _ _
      rw [htext]
      exact scan_startRecord hd
    exact hstart.trans (scan_joinFields h)

end Reader

/-- **The reader reads what the writer wrote**, whatever characters are in the fields. -/
theorem reader_writer {rows : List Row}
    (h : ∀ row ∈ rows, ∀ field ∈ row, field.length ≤ fieldLimit) :
    reader (writer rows) = .ok rows := by
  rw [reader, (Reader.readRows_lines _).1]
  induction rows with
  | nil => rfl
  | cons row rows ih =>
    obtain ⟨hrow, hrows⟩ := List.forall_mem_cons.mp h
    rw [writer, List.flatMap_cons, Reader.scan_writeRow hrow]
    exact congrArg ((row :: ·) <$> ·) (ih hrows)

/-! ## What the reader returns -/

namespace Reader

/-- No field is too long. -/
def Bounded (r : Reader) : Prop :=
  r.field.length ≤ fieldLimit ∧ ∀ field ∈ r.fields, field.length ≤ fieldLimit

theorem Bounded.saveField {r : Reader} (h : r.Bounded) (mode : Mode) :
    (r.saveField mode).Bounded := by
  refine ⟨Nat.zero_le _, fun field hfield => ?_⟩
  rcases List.mem_append.mp hfield with hfield | hfield
  · exact h.2 field hfield
  · exact List.mem_singleton.mp hfield ▸ h.1

/-- What a character can do: change the state, or also end the field, or also go into the field. -/
theorem process_cases {r r' : Reader} {c : Option Char} (h : r.process c = .ok r') :
    (∃ mode, r' = { r with mode := mode }) ∨ (∃ mode, r' = r.saveField mode) ∨
      ∃ d mode, r.addChar d mode = .ok r' := by
  have keep : ∀ mode, (.ok { r with mode := mode } : Except Error Reader) = .ok r' →
      ∃ mode, r' = { r with mode := mode } := fun mode h => ⟨mode, (Except.ok.inj h).symm⟩
  have save : ∀ mode, (.ok (r.saveField mode) : Except Error Reader) = .ok r' →
      ∃ mode, r' = r.saveField mode := fun mode h => ⟨mode, (Except.ok.inj h).symm⟩
  obtain ⟨mode, field, fields⟩ := r
  -- each state, at the end of a line or at a character, and each branch there
  cases mode <;> rcases c with _ | c <;> simp only [process] at h <;> (repeat' split at h) <;>
    first
    | exact .inl (keep _ h)
    | exact .inr (.inl (save _ h))
    | exact .inr (.inr ⟨_, _, h⟩)
    | cases h

theorem Bounded.process {r r' : Reader} {c : Option Char} (h : r.Bounded)
    (hr : r.process c = .ok r') : r'.Bounded := by
  rcases process_cases hr with ⟨mode, rfl⟩ | ⟨mode, rfl⟩ | ⟨d, mode, hadd⟩
  · exact h
  · exact h.saveField mode
  · rw [addChar] at hadd
    split at hadd
    · cases hadd
    next hlt =>
      obtain rfl := Except.ok.inj hadd
      refine ⟨?_, h.2⟩
      rw [List.length_append, List.length_singleton]
      omega

theorem Bounded.endLine {r : Reader} {rest : Reader → Except Error (List Row)} {rows : List Row}
    (h : r.Bounded) (hr : endLine rest r = .ok rows)
    (hrest : ∀ {r rows}, Bounded r → rest r = .ok rows →
      ∀ row ∈ rows, ∀ field ∈ row, field.length ≤ fieldLimit) :
    ∀ row ∈ rows, ∀ field ∈ row, field.length ≤ fieldLimit := by
  rw [Reader.endLine] at hr
  rcases hprocess : r.process none with e | r' <;> rw [hprocess] at hr
  · cases hr
  have hbounded := h.process hprocess
  change (if r'.mode = .startRecord then _ else _) = _ at hr
  split at hr
  · rcases hrows : rest new with e | rows' <;> rw [hrows] at hr
    · cases hr
    obtain rfl := Except.ok.inj hr
    exact List.forall_mem_cons.mpr ⟨hbounded.2,
      hrest ⟨Nat.zero_le _, fun _ h => absurd h List.not_mem_nil⟩ hrows⟩
  · exact hrest hbounded hr

theorem Bounded.readRows {lines : List (List Char)} {r : Reader} {rows : List Row} (h : r.Bounded)
    (hr : readRows lines r = .ok rows) :
    ∀ row ∈ rows, ∀ field ∈ row, field.length ≤ fieldLimit := by
  induction lines generalizing r rows with
  | nil =>
    rw [Reader.readRows] at hr
    split at hr
    · obtain rfl := Except.ok.inj hr
      intro row hrow field hfield
      obtain rfl := List.mem_singleton.mp hrow
      exact (h.saveField .startRecord).2 field hfield
    · obtain rfl := Except.ok.inj hr
      exact fun row hrow => absurd hrow List.not_mem_nil
  | cons line lines ih =>
    rw [readRows_cons] at hr
    have hline : ∀ {line : List Char} {r : Reader}, r.Bounded →
        line.foldlM (fun r c => r.process (some c)) r >>= Reader.endLine (Reader.readRows lines) =
          .ok rows → ∀ row ∈ rows, ∀ field ∈ row, field.length ≤ fieldLimit := by
      intro line
      induction line with
      | nil => exact fun h hr => h.endLine hr ih
      | cons c line ihline =>
        intro r h hr
        rw [List.foldlM_cons] at hr
        rcases hprocess : r.process (some c) with e | r' <;> rw [hprocess] at hr
        · cases hr
        · exact ihline (h.process hprocess) hr
    exact hline h hr

end Reader

/-- **The reader returns no field that is too long**, so that the writer may write what it returned
to be read again. -/
theorem bounded_of_reader {text : List Char} {rows : List Row} (h : reader text = .ok rows) :
    ∀ row ∈ rows, ∀ field ∈ row, field.length ≤ fieldLimit :=
  Reader.Bounded.readRows ⟨Nat.zero_le _, fun _ h => absurd h List.not_mem_nil⟩ h

end Csv

end Python
