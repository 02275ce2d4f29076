import SasTests.Python.JsonRoundtrip
import SasTests.RemoteBackend

/-!
# What `query_db` returns

A query goes a long way: the SQL string is quoted, put on a command line and taken apart by a shell;
a script on the host runs it and prints the rows as a JSON text; the client reads the text. What
comes out is what the database answers (`queryDb_eq`): its rows, and nothing else, in their order;
an empty list if there are none; the text of the exception if there is one.

The shell may still have changed the question: a character that is not printable arrives as an
escape sequence (`passed`).
-/

namespace SasTests

open Python JsonEncoder

namespace RemoteBackend

/-- A row: `dict(r)` of an `sqlite3.Row`. -/
abbrev Row : Type := List (String × Json)

/-- The database on the host, as the script sees it. -/
structure Database where
  /-- the rows that a statement yields, or the traceback of the exception it raises -/
  execute : List Char → Except String (List Row)
  /-- how Python writes numbers -/
  number : ℚ → List Char
  /-- a row can be written: it has every column once, and there is a text for every value in it -/
  writable : ∀ sql rows, execute sql = .ok rows → ∀ row ∈ rows, Writable number (.obj row)
  /-- the values in a row are no lists or dictionaries -/
  flat : ∀ sql rows, execute sql = .ok rows → ∀ row ∈ rows, depth (.obj row) ≤ 1

namespace Database

variable (db : Database)

/-- What the script writes on its two outputs when it is given `sql`, and its exit status: `print`
adds a newline, and an exception that nobody catches ends Python with status 1. -/
def run (sql : List Char) : String × String × ℤ :=
  match db.execute sql with
  | .ok rows => (String.ofList (dumps true db.number (.arr (rows.map .obj)) ++ ['\n']), "", 0)
  | .error traceback => ("", traceback, 1)

/-- The answer to `sql`. -/
def answer (sql : List Char) : Except PyError Json :=
  match db.execute sql with
  | .ok rows => .ok (.arr (rows.map .obj))
  | .error traceback => .error (.runtimeError ("query_db error (code=" ++ toString (1 : ℤ) ++
      "): " ++ String.ofList (strip traceback.toList)))

/-- `_exec` on a host with this database: a command line that the shell splits into the call of the
script with an argument runs the script on this argument. -/
def Serves (exec : List Char → String × String × ℤ) : Prop :=
  ∀ command sql, Shell.split command =
    .ok ["python3".toList, "-c".toList, pyScript.toList, sql] → exec command = db.run sql

end Database

/-- A text that has more than blanks in it. -/
theorem strip_ne_nil {text : List Char} {c : Char} (hc : c ∈ text) (hspace : isSpace c = false) :
    strip text ≠ [] := by
  have hkeep : ∀ {l : List Char}, c ∈ l → c ∈ l.dropWhile isSpace := by
    intro l hl
    induction l with
    | nil => exact hl
    | cons d l ih =>
      by_cases hd : isSpace d = true
      · rw [List.dropWhile_cons_of_pos hd]
        refine ih ((List.mem_cons.mp hl).resolve_left ?_)
        rintro rfl
        rw [hspace] at hd
        cases hd
      · rwa [List.dropWhile_cons_of_neg hd]
  have hmem : c ∈ strip text :=
    List.mem_reverse.mpr (hkeep (List.mem_reverse.mpr (hkeep hc)))
  exact List.ne_nil_of_mem hmem

/-- **`query_db` returns the answer to what it has asked.** If the SQL string starts no expansion in
the shell, the result is the answer of the database to the string that arrives; and if the string is
printable ASCII, that is the SQL string. -/
theorem queryDb_eq {db : Database} {exec : List Char → String × String × ℤ}
    (h : db.Serves exec) {maxDepth : ℕ} (hdepth : 2 ≤ maxDepth) {sql : String}
    (hexpands : sql.toList.any Shell.expands = false) :
    queryDb maxDepth exec sql = db.answer (sql.toList.flatMap passed) ∧
      ((∀ c ∈ sql.toList, printable c = true) →
        queryDb maxDepth exec sql = db.answer sql.toList) := by
  have hexec : exec (queryDbCommand sql) = db.run (sql.toList.flatMap passed) := by
    apply h
    rw [split_queryDbCommand, hexpands, if_neg Bool.false_ne_true]
  have heq : queryDb maxDepth exec sql = db.answer (sql.toList.flatMap passed) := by
    simp only [queryDb]
    rw [hexec]
    rcases hrows : db.execute (sql.toList.flatMap passed) with traceback | rows
    · simp only [Database.run, Database.answer, hrows]
      rfl
    · have hwritable : Writable db.number (.arr (rows.map .obj)) := by
        rw [Writable, writableItems_iff]
        intro v hv
        obtain ⟨row, hrow, rfl⟩ := List.mem_map.mp hv
        exact db.writable _ rows hrows row hrow
      have hflat : depth (.arr (rows.map .obj)) ≤ maxDepth := by
        rw [depth]
        refine le_trans (Nat.succ_le_succ (depthItems_le_iff.mpr fun v hv => ?_)) hdepth
        obtain ⟨row, hrow, rfl⟩ := List.mem_map.mp hv
        exact db.flat _ rows hrows row hrow
      have hread := loads_dumps true hwritable hflat (.inr rfl)
      have hstrip : strip (dumps true db.number (.arr (rows.map .obj)) ++ ['\n']) ≠ [] := by
        rw [dumps, List.cons_append]
        exact strip_ne_nil List.mem_cons_self rfl
      simp only [Database.run, Database.answer, hrows, String.toList_ofList]
      rw [if_neg (not_not.mpr rfl), if_pos hstrip, hread]
  refine ⟨heq, fun hprintable => ?_⟩
  rw [heq, flatMap_passed_eq_iff.mpr hprintable]

/-- A database that answers every statement with one row. -/
def oneRow : Database where
  execute _ := .ok [[("id", .num 115), ("screw_name", .str "\"M5\" 名")]]
  number q := formatInt 0 q.num
  writable := by
    rintro sql rows ⟨⟩ row hrow
    obtain rfl := List.mem_singleton.mp hrow
    rw [Writable, writableFields_iff]
    refine ⟨by decide, fun p hp => ?_⟩
    rcases List.mem_cons.mp hp with rfl | hp
    · exact denotes_formatInt 115 (by decide)
    · obtain rfl := List.mem_singleton.mp hp
      trivial
  flat := by
    rintro sql rows ⟨⟩ row hrow
    obtain rfl := List.mem_singleton.mp hrow
    decide

/-- `_exec` on a host where only the script can be run. -/
def execOneRow (command : List Char) : String × String × ℤ :=
  match Shell.split command with
  | .ok [_, _, _, sql] => oneRow.run sql
  | _ => ("", "command not found", 127)

theorem queryDb_eq_oneRow :
    queryDb 2 execOneRow "SELECT id, screw_name FROM Mode1_Screw_Param WHERE id=115" =
      .ok (.arr [.obj [("id", .num 115), ("screw_name", .str "\"M5\" 名")]]) := by
  have hserves : oneRow.Serves execOneRow := by
    intro command sql hsplit
    rw [execOneRow, hsplit]
  have hprintable : ∀ c ∈ "SELECT id, screw_name FROM Mode1_Screw_Param WHERE id=115".toList,
      printable c = true := forall_mem_literal rfl (by decide)
  have hexpands : "SELECT id, screw_name FROM Mode1_Screw_Param WHERE id=115".toList.any
      Shell.expands = false := by decide +kernel
  exact (queryDb_eq hserves le_rfl hexpands).2 hprintable

end RemoteBackend

end SasTests
