import SasTests.Python.Csv
import SasTests.Python.Json

/-!
# The exported specs under another number

`test_export_then_import_consistent` takes the CSV text that the server has exported, puts another
number in the place of the spec's, and has the server import the text again. What it sends is,
read as CSV, the exported table with nothing changed but the numbers (`rewrite_eq_ok_iff`): no row
is lost or added, and no other field changes, whatever commas, quotes and line breaks the fields
hold.
-/

namespace SasTests

open Python

namespace CsvRewrite

/-- What the rewriting may raise. -/
inductive Failure
  /-- `_csv.Error` -/
  | csv (e : Csv.Error)
  /-- another exception -/
  | python (e : PyError)
  deriving DecidableEq

/-- `if r and r[id_idx] == a: r[id_idx] = b` -/
def rewriteRow (idx : ℕ) (a b : List Char) (r : Csv.Row) : Except PyError Csv.Row :=
  if r = [] then .ok r
  else match r[idx]? with
    | none => .error .indexError
    | some field => .ok (if field = a then r.set idx b else r)

/-- The text that `test_export_then_import_consistent` makes of `content`, with number `b` in the
place of `a`. -/
def rewrite (a b content : List Char) : Except Failure (List Char) :=
  match Csv.reader content with
  | .error e => .error (.csv e)
  | .ok [] => .error (.python .indexError)
  | .ok (header :: rows) =>
    -- `header.index("spec_id")`
    if "spec_id".toList ∈ header then
      match rows.mapM (rewriteRow (header.idxOf "spec_id".toList) a b) with
      | .error e => .error (.python e)
      | .ok rows => .ok (Csv.writer (header :: rows))
    else .error (.python .valueError)

/-- The row with number `b` in column `idx`, if it has `a` there. -/
def retarget (idx : ℕ) (a b : List Char) (r : Csv.Row) : Csv.Row :=
  if r[idx]? = some a then r.set idx b else r

/-- A row that has the column, or is empty, is rewritten. -/
theorem rewriteRow_eq_ok_iff {idx : ℕ} {a b : List Char} {r r' : Csv.Row} :
    rewriteRow idx a b r = .ok r' ↔ (r = [] ∨ idx < r.length) ∧ r' = retarget idx a b r := by
  rw [rewriteRow, retarget]
  split
  next hnil =>
    subst hnil
    constructor
    · intro h
      obtain rfl := Except.ok.inj h
      exact ⟨.inl rfl, rfl⟩
    · rintro ⟨-, rfl⟩
      rfl
  next hne =>
    rcases hfield : r[idx]? with _ | field
    · have hlt : ¬idx < r.length := not_lt.mpr (List.getElem?_eq_none_iff.mp hfield)
      exact iff_of_false (fun h => by cases h) fun h => h.1.elim hne hlt
    · have hlt : idx < r.length := (List.getElem?_eq_some_iff.mp hfield).1
      simp only [Except.ok.injEq, Option.some.injEq, hlt, or_true, true_and]
      exact eq_comm

theorem mapM_rewriteRow {idx : ℕ} {a b : List Char} {rows rows' : List Csv.Row} :
    rows.mapM (rewriteRow idx a b) = .ok rows' ↔
      (∀ r ∈ rows, r = [] ∨ idx < r.length) ∧ rows' = rows.map (retarget idx a b) := by
  induction rows generalizing rows' with
  | nil =>
    constructor
    · intro h
      obtain rfl := Except.ok.inj h
      exact ⟨fun _ h => absurd h List.not_mem_nil, rfl⟩
    · rintro ⟨-, rfl⟩
      rfl
  | cons r rows ih =>
    rw [List.mapM_cons, List.forall_mem_cons, List.map_cons]
    constructor
    · intro h
      obtain ⟨r₁, hr, h⟩ := bind_eq_ok h
      obtain ⟨rows₁, hrows, h⟩ := bind_eq_ok h
      obtain rfl := Except.ok.inj h
      obtain ⟨hcolumn, rfl⟩ := rewriteRow_eq_ok_iff.mp hr
      obtain ⟨hcolumns, rfl⟩ := ih.mp hrows
      exact ⟨⟨hcolumn, hcolumns⟩, rfl⟩
    · rintro ⟨⟨hcolumn, hcolumns⟩, rfl⟩
      rw [rewriteRow_eq_ok_iff.mpr ⟨hcolumn, rfl⟩, ih.mpr ⟨hcolumns, rfl⟩]
      rfl

/-- **What is imported is what was exported, under the other number.**

The rewriting succeeds exactly on a CSV text whose header has a column `spec_id` and whose other
rows have this column, unless they are empty; and then what it makes of the text is read as the same
header and the same rows, in which nothing has changed but the field in that column where it was
`a`. -/
theorem rewrite_eq_ok_iff {a b content out : List Char} (hb : b.length ≤ Csv.fieldLimit) :
    rewrite a b content = .ok out ↔
      ∃ header rows, Csv.reader content = .ok (header :: rows) ∧ "spec_id".toList ∈ header ∧
        (∀ r ∈ rows, r = [] ∨ header.idxOf "spec_id".toList < r.length) ∧
        out = Csv.writer (header :: rows.map (retarget (header.idxOf "spec_id".toList) a b)) ∧
        Csv.reader out =
          .ok (header :: rows.map (retarget (header.idxOf "spec_id".toList) a b)) := by
  constructor
  · intro h
    rw [rewrite] at h
    rcases hread : Csv.reader content with e | _ | ⟨header, rows⟩ <;> rw [hread] at h
    · cases h
    · cases h
    simp only at h
    split at h
    next hheader =>
      rcases hrows : rows.mapM (rewriteRow (header.idxOf "spec_id".toList) a b) with e | rows' <;>
        rw [hrows] at h
      · cases h
      obtain rfl := Except.ok.inj h
      obtain ⟨hcolumns, rfl⟩ := mapM_rewriteRow.mp hrows
      refine ⟨header, rows, rfl, hheader, hcolumns, rfl, Csv.reader_writer ?_⟩
      -- the new fields are `b` or fields that the reader returned
      have hbounded := List.forall_mem_cons.mp (Csv.bounded_of_reader hread)
      refine List.forall_mem_cons.mpr ⟨hbounded.1, fun row hrow field hfield => ?_⟩
      obtain ⟨r, hr, rfl⟩ := List.mem_map.mp hrow
      rw [retarget] at hfield
      split at hfield
      · rcases List.mem_or_eq_of_mem_set hfield with hfield | rfl
        · exact hbounded.2 r hr field hfield
        · exact hb
      · exact hbounded.2 r hr field hfield
    next => cases h
  · rintro ⟨header, rows, hread, hheader, hcolumns, rfl, -⟩
    rw [rewrite, hread]
    simp only
    rw [if_pos hheader, mapM_rewriteRow.mpr ⟨hcolumns, rfl⟩]

/-- The name of a spec that was exported has a comma and quotes in it. -/
theorem rewrite_eq_ok_iff_quoted :
    Csv.reader "spec_id,screw_name\r\n121,\"M5, \"\"long\"\"\"\r\n".toList =
      .ok [["spec_id".toList, "screw_name".toList], ["121".toList, "M5, \"long\"".toList]] := by
  have hrewrite : rewrite "120".toList "121".toList
      "spec_id,screw_name\r\n120,\"M5, \"\"long\"\"\"\r\n".toList =
        .ok "spec_id,screw_name\r\n121,\"M5, \"\"long\"\"\"\r\n".toList := by decide +kernel
  obtain ⟨header, rows, hread, -, -, -, hout⟩ := (rewrite_eq_ok_iff (by decide +kernel)).mp hrewrite
  have hcontent : Csv.reader "spec_id,screw_name\r\n120,\"M5, \"\"long\"\"\"\r\n".toList =
      .ok [["spec_id".toList, "screw_name".toList], ["120".toList, "M5, \"long\"".toList]] := by
    decide +kernel
  rw [hcontent] at hread
  obtain ⟨rfl, rfl⟩ := List.cons.inj (Except.ok.inj hread)
  exact hout

end CsvRewrite

end SasTests
