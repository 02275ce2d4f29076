import SasTests.Lib.Shell
import SasTests.Python.Ascii
import SasTests.Python.JsonDumps
import SasTests.Python.JsonLoads

/-!
# `RemoteBackend`

The service on the remote host is controlled over SSH: every method runs one command line in the
login shell of the host, and most of them ignore what becomes of it.

`query_db` puts a Python script and an SQL string on a command line, and lets `json.dumps` quote
them. A shell reads double quotes differently: `split_queryDbCommand` says what arrives for any SQL
string, and `queryPasses_iff` when it is the SQL string.
-/

namespace SasTests

open Python

namespace RemoteBackend

/-- `SERVICE_NAME` -/
def serviceName : String := "asa-backend"
/-- `DB_PATH` -/
def dbPath : String := "/home/pi/data/SAS.db"
/-- `BACKUP_PATH` -/
def backupPath : String := "/tmp/SAS_test_backup.db"

/-! ## The service and its database file -/

/-- The commands with which `DatabaseIsolation` acts on the host. -/
inductive Command
  /-- `stop_backend` -/
  | stopBackend
  /-- `start_backend` -/
  | startBackend
  /-- `backup_database` -/
  | backupDatabase
  /-- `restore_database` -/
  | restoreDatabase
  /-- the `rm` of `use_clean_db` -/
  | removeDatabase
  deriving DecidableEq

/-- The command line that `_exec` is given. -/
def Command.line : Command → String
  | stopBackend => "sudo systemctl stop " ++ serviceName
  | startBackend => "sudo systemctl start " ++ serviceName
  | backupDatabase => "cp " ++ dbPath ++ " " ++ backupPath
  | restoreDatabase => "cp " ++ backupPath ++ " " ++ dbPath
  | removeDatabase => "rm -f " ++ dbPath

/-- The remote host: the files at `DB_PATH` and `BACKUP_PATH`, if they exist, and the service. -/
structure Host (α : Type) where
  /-- the content of the database file -/
  db : Option α
  /-- the content of the backup file -/
  backup : Option α
  /-- is the service running? -/
  running : Bool
  deriving DecidableEq

/-- What a command does that takes effect. There is nothing to copy if the file does not exist. -/
def Command.effect {α : Type} : Command → Host α → Option (Host α)
  | stopBackend, host => some { host with running := false }
  | startBackend, host => some { host with running := true }
  | backupDatabase, host => host.db.map fun content => { host with backup := some content }
  | restoreDatabase, host => host.backup.map fun content => { host with db := some content }
  | removeDatabase, host => some { host with db := none }

/-- `_exec` on one of these commands: the host afterwards, and whether the exit status is zero. `ok`
says whether the command takes effect, if it can. -/
def exec {α : Type} (host : Host α) (command : Command) (ok : Bool) : Host α × Bool :=
  match ok, command.effect host with
  | true, some host' => (host', true)
  | _, _ => (host, false)

/-! ## `query_db` -/

/-- `py_script` -/
def pyScript : String :=
  "import sqlite3, json, sys; " ++
  "db = sqlite3.connect('" ++ dbPath ++ "'); " ++
  "db.row_factory = sqlite3.Row; " ++
  "cur = db.execute(sys.argv[1]); " ++
  "rows = [dict(r) for r in cur.fetchall()]; " ++
  "print(json.dumps(rows))"

/-- `cmd` in `query_db` -/
def queryDbCommand (sql : String) : List Char :=
  "python3 -c ".toList ++ dumpsStr pyScript ++ ' ' :: dumpsStr sql

/-- `query_db`, where `exec` is `_exec`: what the command writes on its two outputs, and its exit
status. -/
def queryDb (maxDepth : ℕ) (exec : List Char → String × String × ℤ) (sql : String) :
    Except PyError Json :=
  let (stdout, stderr, code) := exec (queryDbCommand sql)
  if code ≠ 0 then
    .error (.runtimeError ("query_db error (code=" ++ toString code ++ "): " ++
      String.ofList (strip stderr.toList)))
  else if strip stdout.toList ≠ [] then loads maxDepth (.str stdout)
  else .ok (.arr [])

/-- What the shell makes of one character that `json.dumps` has put inside double quotes. -/
def passed (c : Char) : List Char := if printable c then [c] else escapeAscii c

open Shell in
/-- Escaped by `json.dumps`, a character that starts no expansion passes the shell: as itself if it
is printable, and otherwise as the escape sequence. -/
theorem passes_escapeAscii {c : Char} (h : expands c = false) :
    Passes (escapeAscii c) (passed c) := by
  by_cases hquote : c = '"' ∨ c = '\\'
  · have hescape : escapeAscii c = ['\\', c] := by rw [escapeAscii, if_pos hquote]
    rw [hescape]
    rcases hquote with rfl | rfl
    · exact .escaped (by decide +kernel) (by decide)
    · exact .escaped (by decide +kernel) (by decide)
  by_cases hprint : printable c = true
  · have hescape : escapeAscii c = [c] := by rw [escapeAscii, if_neg hquote, if_pos hprint]
    have hnewline : c ≠ '\n' := by
      rintro rfl
      cases hprint
    rw [passed, if_pos hprint, hescape]
    rw [not_or] at hquote
    exact .single (by simp [escapable, h, hquote, hnewline])
  · -- a backslash before a letter is nothing special, and neither are letters and digits
    have hprint : printable c = false := by simpa using hprint
    have hunicode : ∀ n, Passes (unicodeEscape n) (unicodeEscape n) := by
      intro n
      have hhex : Passes (hex4 n) (hex4 n) := by
        have hdigits : Passes ((hex4 n).flatMap fun d => [d]) ((hex4 n).flatMap fun d => [d]) :=
          .flatMap fun d hd => .single (escapable_of_isAlphanum (isAlphanum_of_mem_hex4 hd))
        simpa using hdigits
      exact (Passes.backslash (escapable_of_isAlphanum (by decide))).append hhex
    rw [passed, if_neg (by simp [hprint])]
    rcases escapeAscii_of_not_printable hprint with ⟨d, hd, halpha⟩ | ⟨n, hn⟩ | ⟨n, k, hnk⟩
    · rw [hd]
      exact .backslash (escapable_of_isAlphanum halpha)
    · rw [hn]
      exact hunicode n
    · rw [hnk]
      exact (hunicode n).append (hunicode k)

/-- Only printable text passes unchanged: an escape sequence is longer than the character. -/
theorem flatMap_passed_eq_iff {text : List Char} :
    text.flatMap passed = text ↔ ∀ c ∈ text, printable c = true := by
  have hlength : ∀ c, printable c = false → 2 ≤ (passed c).length := by
    intro c hc
    rw [passed, if_neg (by simp [hc])]
    rcases escapeAscii_of_not_printable hc with ⟨d, hd, -⟩ | ⟨n, hn⟩ | ⟨n, k, hnk⟩
    · simp [hd]
    · simp [hn, unicodeEscape]
    · simp [hnk, unicodeEscape]
  have hgrow : ∀ text : List Char, text.length ≤ (text.flatMap passed).length := by
    intro text
    induction text with
    | nil => exact Nat.zero_le _
    | cons c text ih =>
      rw [List.flatMap_cons, List.length_cons, List.length_append]
      by_cases hc : printable c = true
      · have : passed c = [c] := if_pos hc
        rw [this, List.length_singleton]
        omega
      · have := hlength c (by simpa using hc)
        omega
  induction text with
  | nil => simp
  | cons c text ih =>
    rw [List.flatMap_cons, List.forall_mem_cons]
    by_cases hc : printable c = true
    · have : passed c = [c] := if_pos hc
      rw [this, List.singleton_append, List.cons_inj_right]
      exact ⟨fun h => ⟨hc, ih.mp h⟩, fun h => ih.mpr h.2⟩
    · refine iff_of_false (fun h => ?_) fun h => hc h.1
      have hlen := congrArg List.length h
      have := hlength c (by simpa using hc)
      have := hgrow text
      rw [List.length_append, List.length_cons] at hlen
      omega

/-- What holds of the characters of a literal, one by one. -/
theorem forall_mem_literal {P : Char → Prop} [DecidablePred P] {s : String} {text : List Char}
    (hs : s = String.ofList text) (h : text.all (fun c => P c) = true) : ∀ c ∈ s.toList, P c := by
  rw [hs, String.toList_ofList]
  simpa using h

open Shell in
/-- The words before the SQL string, for a script that the shell leaves alone. -/
theorem split_python {script : String}
    (hscript : Passes (script.toList.flatMap escapeAscii) script.toList) (rest : List Char) :
    split ("python3 -c ".toList ++ dumpsStr script ++ ' ' :: rest) =
      (["python3".toList, "-c".toList, script.toList] ++ ·) <$> splitFrom .bare none rest := by
  have hwords : "python3 -c ".toList = "python3".toList ++ ' ' :: ("-c".toList ++ [' ']) := by
    simp
  have hcommand : "python3 -c ".toList ++ dumpsStr script ++ ' ' :: rest =
      "python3".toList ++ ' ' :: ("-c".toList ++ ' ' ::
        ('"' :: script.toList.flatMap escapeAscii ++ '"' :: ' ' :: rest)) := by
    rw [hwords, dumpsStr]
    simp only [List.append_assoc, List.cons_append, List.nil_append]
  have hpython : ∀ c ∈ "python3".toList, plain c = true := forall_mem_literal rfl (by decide)
  have hoption : ∀ c ∈ "-c".toList, plain c = true := forall_mem_literal rfl (by decide)
  rw [split, hcommand, splitFrom_word (by simp) hpython, splitFrom_word (by simp) hoption,
    splitFrom_quoted hscript]
  simp [Functor.map_map]

open Shell in
/-- **What the shell makes of a command of `query_db`.** -/
theorem split_queryDbCommand (sql : String) :
    split (queryDbCommand sql) =
      if sql.toList.any expands then .error .expansion
      else .ok ["python3".toList, "-c".toList, pyScript.toList, sql.toList.flatMap passed] := by
  -- the script is printable and starts no expansion, so it passes as it is
  have hscript : Passes (pyScript.toList.flatMap escapeAscii) pyScript.toList := by
    have hsafe : ∀ c ∈ pyScript.toList, expands c = false ∧ printable c = true := by
      unfold pyScript dbPath
      simp only [String.toList_append, List.forall_mem_append]
      refine ⟨⟨⟨⟨⟨⟨⟨?_, ?_⟩, ?_⟩, ?_⟩, ?_⟩, ?_⟩, ?_⟩, ?_⟩
      all_goals exact forall_mem_literal rfl (by decide)
    have := Passes.flatMap fun c hc => passes_escapeAscii (hsafe c hc).1
    rwa [flatMap_passed_eq_iff.mpr fun c hc => (hsafe c hc).2] at this
  apply (split_python hscript (dumpsStr sql)).trans
  by_cases hany : sql.toList.any expands = true
  · obtain ⟨c, hc, hexp⟩ := List.any_eq_true.mp hany
    have hsingle : ∀ {d}, expands d = true → escapeAscii d = [d] := by
      intro d hd
      simp only [expands, Bool.or_eq_true, decide_eq_true_eq] at hd
      rcases hd with rfl | rfl <;> decide +kernel
    have hpass : ∀ d ∈ sql.toList, Passes (escapeAscii d) (passed d) ∨
        ∃ c, escapeAscii d = [c] ∧ expands c = true := by
      intro d _
      by_cases hd : expands d = true
      · exact .inr ⟨d, hsingle hd, hd⟩
      · exact .inl (passes_escapeAscii (by simpa using hd))
    rw [if_pos hany, dumpsStr, splitFrom_quoted_expands hpass ⟨c, hc, c, hsingle hexp, hexp⟩]
    rfl
  · have hsafe : ∀ c ∈ sql.toList, expands c = false := by simpa using hany
    rw [if_neg hany, dumpsStr,
      splitFrom_quoted_end (Passes.flatMap fun c hc => passes_escapeAscii (hsafe c hc))]
    rfl

/-- The command runs `python3` with the script as its program and exactly the SQL string as its
argument, and the shell does nothing else. -/
def QueryPasses (sql : String) : Prop :=
  Shell.split (queryDbCommand sql) =
    .ok ["python3".toList, "-c".toList, pyScript.toList, sql.toList]

/-- **The SQL string arrives unchanged if and only if it is printable ASCII without `$` and
backquotes.**

What `json.dumps` puts in front of quotes and backslashes, the shell takes away again. But it does
not know the escape sequences for other characters, and between double quotes it still expands what
begins with `$` or a backquote. -/
theorem queryPasses_iff (sql : String) :
    QueryPasses sql ↔
      ∀ c ∈ sql.toList, printable c = true ∧ c ≠ '$' ∧ c ≠ Shell.backquote := by
  have hexpands : sql.toList.any Shell.expands = true ↔
      ¬∀ c ∈ sql.toList, c ≠ '$' ∧ c ≠ Shell.backquote := by
    simp [Shell.expands, or_iff_not_imp_left]
  rw [QueryPasses, split_queryDbCommand]
  split
  · rename_i hany
    refine iff_of_false (by simp) fun h => hexpands.mp hany fun c hc => (h c hc).2
  · rename_i hany
    have hsafe := not_not.mp (mt hexpands.mpr hany)
    rw [Except.ok.injEq]
    simp only [List.cons.injEq, true_and, and_true]
    rw [flatMap_passed_eq_iff]
    exact ⟨fun h c hc => ⟨h c hc, hsafe c hc⟩, fun h c hc => (h c hc).1⟩

/-- A query for a Chinese name: what arrives is its escape sequence. -/
theorem chinese_name_garbled : ¬∀ sql : String, QueryPasses sql := by
  intro h
  have hname := h "SELECT id FROM Mode1_Screw_Param WHERE screw_name = '名'"
  have hchar : '名' ∈ "SELECT id FROM Mode1_Screw_Param WHERE screw_name = '名'".toList := by simp
  rw [QueryPasses, split_queryDbCommand] at hname
  split at hname
  · cases hname
  · simp only [Except.ok.injEq, List.cons.injEq, true_and, and_true] at hname
    exact absurd (flatMap_passed_eq_iff.mp hname '名' hchar) (by decide)

end RemoteBackend

end SasTests
