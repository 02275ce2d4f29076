import SasTests.Lib.Run
import SasTests.RemoteBackend
import Mathlib.Logic.Function.Basic

/-!
# `DatabaseIsolation`

`snapshot` copies the database file to the backup path, and `restore` stops the service, copies the
file back and starts the service again. There is one backup path for everybody on the host, and
nobody looks at the exit status of a command.

A run interleaves the commands of any number of objects, and what the service writes in between. Two
history variables say what should happen: `saved` is what the database held at the last `snapshot()`
of each object, and `fresh` is the object whose last `snapshot()` wrote what is at the backup path.
`Fresh` connects them to the backup file in every run; so an object that copies its own backup and
is left alone has restored the database (`restored`).
-/

namespace SasTests

open RemoteBackend

namespace DatabaseIsolation

/-- Where an object is in its current call. -/
inductive Phase
  /-- no call is going on -/
  | idle
  /-- `restore` has stopped the service -/
  | stopped
  /-- `restore` has copied the backup file -/
  | copied
  /-- `use_clean_db` has stopped the service -/
  | cleaning
  /-- `use_clean_db` has removed the database file -/
  | removed
  deriving DecidableEq

/-- The host, the objects that use it, and the history. -/
structure State (α : Type) where
  /-- the host -/
  host : Host α
  /-- `_snapshot_taken` of each object -/
  snapshotTaken : ℕ → Bool
  /-- where each object is in its current call -/
  phase : ℕ → Phase
  /-- what the database file was at the last `snapshot()` of each object -/
  saved : ℕ → Option (Option α)
  /-- the object whose last `snapshot()` wrote the backup file -/
  fresh : Option ℕ

variable {α : Type}

/-- New objects, on a host on which anything may have happened before. -/
def initial (host : Host α) : State α :=
  ⟨host, fun _ => false, fun _ => .idle, fun _ => none, none⟩

/-- What can happen next. `ok` says whether the command takes effect, if it can. -/
inductive Label (α : Type)
  /-- the service writes to the database, which is `content` afterwards -/
  | write (content : α)
  /-- `snapshot` of object `i` -/
  | snapshot (i : ℕ) (ok : Bool)
  /-- `restore` of object `i` begins: it returns, or stops the service -/
  | restore (i : ℕ) (ok : Bool)
  /-- `restore` of object `i` copies the backup file -/
  | copyBack (i : ℕ) (ok : Bool)
  /-- `use_clean_db` of object `i` begins: it stops the service -/
  | useCleanDb (i : ℕ) (ok : Bool)
  /-- `use_clean_db` of object `i` removes the database file -/
  | remove (i : ℕ) (ok : Bool)
  /-- `restore` or `use_clean_db` of object `i` starts the service -/
  | start (i : ℕ) (ok : Bool)

/-- One atomic step. -/
def State.step (s : State α) : Label α → Option (State α)
  | .write content =>
    if s.host.running then some { s with host := { s.host with db := some content } } else none
  | .snapshot i ok =>
    if s.phase i = .idle then
      let (host, success) := exec s.host .backupDatabase ok
      some { s with
        host := host
        snapshotTaken := Function.update s.snapshotTaken i true
        saved := Function.update s.saved i (some s.host.db)
        fresh := if success then some i else if s.fresh = some i then none else s.fresh }
    else none
  | .restore i ok =>
    if s.phase i = .idle then
      if s.snapshotTaken i then
        some { s with
          host := (exec s.host .stopBackend ok).1
          phase := Function.update s.phase i .stopped }
      else some s
    else none
  | .copyBack i ok =>
    if s.phase i = .stopped then
      some { s with
        host := (exec s.host .restoreDatabase ok).1
        phase := Function.update s.phase i .copied }
    else none
  | .useCleanDb i ok =>
    if s.phase i = .idle then
      some { s with
        host := (exec s.host .stopBackend ok).1
        phase := Function.update s.phase i .cleaning }
    else none
  | .remove i ok =>
    if s.phase i = .cleaning then
      some { s with
        host := (exec s.host .removeDatabase ok).1
        phase := Function.update s.phase i .removed }
    else none
  | .start i ok =>
    if s.phase i = .copied ∨ s.phase i = .removed then
      some { s with
        host := (exec s.host .startBackend ok).1
        phase := Function.update s.phase i .idle }
    else none

/-! ## What makes `restore` restore -/

/-- `restore` of object `i` copies, with effect, what the last `snapshot()` of `i` has written; and
nothing else changes the database file until it starts the service. -/
def Own (i : ℕ) (s : State α) : Label α → Prop
  | .copyBack j ok => if j = i then ok = true ∧ s.fresh = some i else s.phase i ≠ .copied
  | .write _ => s.phase i ≠ .copied
  | .remove _ _ => s.phase i ≠ .copied
  | _ => True

/-- The database file is what it was at the last `snapshot()` of object `i`. -/
def Restored (s : State α) (i : ℕ) : Prop := s.saved i = some s.host.db

/-- The backup file is the database at the last `snapshot()` of the object that wrote it. -/
def Fresh (s : State α) : Prop :=
  ∀ j, s.fresh = some j → ∃ content, s.host.backup = some content ∧
    s.saved j = some (some content)

/-- The service is stopped or started: the files stay. -/
theorem exec_service (host : Host α) (ok : Bool) {command : Command}
    (h : command = .stopBackend ∨ command = .startBackend) :
    (exec host command ok).1.db = host.db ∧ (exec host command ok).1.backup = host.backup := by
  rcases h with rfl | rfl <;> cases ok <;> exact ⟨rfl, rfl⟩

/-- A change of the database file is no change of the backup file. -/
theorem exec_database (host : Host α) (ok : Bool) {command : Command}
    (h : command = .restoreDatabase ∨ command = .removeDatabase) :
    (exec host command ok).1.backup = host.backup := by
  rcases h with rfl | rfl
  · rcases ok with _ | _
    · rfl
    · rcases hbackup : host.backup with _ | content <;> simp [exec, Command.effect, hbackup]
  · cases ok <;> rfl

/-- A backup either fails, or there was something to copy. -/
theorem exec_backup (host : Host α) (ok : Bool) :
    exec host .backupDatabase ok = (host, false) ∨
      ∃ content, host.db = some content ∧
        exec host .backupDatabase ok = ({ host with backup := some content }, true) := by
  rcases ok with _ | _
  · exact .inl rfl
  rcases hdb : host.db with _ | content
  · exact .inl (by simp [exec, Command.effect, hdb])
  · exact .inr ⟨content, rfl, by simp [exec, Command.effect, hdb]⟩

/-- What a step does to the files and to the history. -/
inductive Effect (s s' : State α) : Label α → Prop
  /-- the files stay, and nobody has copied anything back -/
  | quiet {l : Label α} : s'.host.db = s.host.db → s'.host.backup = s.host.backup →
      s'.saved = s.saved → s'.fresh = s.fresh →
      (∀ j, s'.phase j = .copied → s.phase j = .copied) → Effect s s' l
  /-- a copy that fails: the object has no backup of its own -/
  | unsaved {i : ℕ} {ok : Bool} : s.phase i = .idle → s'.phase = s.phase → s'.host = s.host →
      s'.saved = Function.update s.saved i (some s.host.db) →
      s'.fresh = (if s.fresh = some i then none else s.fresh) → Effect s s' (.snapshot i ok)
  | saved {i : ℕ} {ok : Bool} {content : α} : s.phase i = .idle → s'.phase = s.phase →
      s.host.db = some content → s'.host = { s.host with backup := some content } →
      s'.saved = Function.update s.saved i (some s.host.db) → s'.fresh = some i →
      Effect s s' (.snapshot i ok)
  | copyBack {i : ℕ} {ok : Bool} : s.phase i = .stopped →
      s'.phase = Function.update s.phase i .copied →
      s'.host = (exec s.host .restoreDatabase ok).1 → s'.saved = s.saved → s'.fresh = s.fresh →
      Effect s s' (.copyBack i ok)
  /-- somebody else changes the database file -/
  | changed {l : Label α} : (∀ i, Own i s l → s.phase i ≠ .copied) →
      s'.host.backup = s.host.backup → s'.saved = s.saved → s'.fresh = s.fresh →
      (∀ j, s'.phase j = .copied → s.phase j = .copied) → Effect s s' l

section step

variable {s s' : State α}

/-- An object that goes on to another phase than `copied`. -/
theorem copied_of_update {i : ℕ} {phase : Phase} (hphase : phase ≠ .copied) (j : ℕ)
    (hj : Function.update s.phase i phase j = .copied) : s.phase j = .copied := by
  by_cases hji : j = i
  · subst hji
    rw [Function.update_self] at hj
    exact absurd hj hphase
  · rwa [Function.update_of_ne hji] at hj

theorem step_effect {l : Label α} (h : s.step l = some s') : Effect s s' l := by
  cases l with
  | write content =>
    simp only [State.step] at h
    split at h
    · obtain rfl := Option.some.inj h
      exact .changed (fun _ hl => hl) rfl rfl rfl fun _ hj => hj
    · cases h
  | snapshot i ok =>
    simp only [State.step] at h
    split at h
    · rename_i hidle
      rcases exec_backup s.host ok with hexec | ⟨content, hdb, hexec⟩ <;> rw [hexec] at h <;>
        obtain rfl := Option.some.inj h
      · exact .unsaved hidle rfl rfl rfl rfl
      · exact .saved hidle rfl hdb rfl rfl rfl
    · cases h
  | restore i ok =>
    simp only [State.step] at h
    split at h
    · split at h <;> obtain rfl := Option.some.inj h
      · obtain ⟨hdb, hbackup⟩ := exec_service s.host ok (.inl rfl)
        exact .quiet hdb hbackup rfl rfl (copied_of_update (by decide))
      · exact .quiet rfl rfl rfl rfl fun _ hj => hj
    · cases h
  | copyBack i ok =>
    simp only [State.step] at h
    split at h
    · rename_i hstopped
      obtain rfl := Option.some.inj h
      exact .copyBack hstopped rfl rfl rfl rfl
    · cases h
  | useCleanDb i ok =>
    simp only [State.step] at h
    split at h
    · obtain rfl := Option.some.inj h
      obtain ⟨hdb, hbackup⟩ := exec_service s.host ok (.inl rfl)
      exact .quiet hdb hbackup rfl rfl (copied_of_update (by decide))
    · cases h
  | remove i ok =>
    simp only [State.step] at h
    split at h
    · obtain rfl := Option.some.inj h
      exact .changed (fun _ hl => hl) (exec_database s.host ok (.inr rfl)) rfl rfl
        (copied_of_update (by decide))
    · cases h
  | start i ok =>
    simp only [State.step] at h
    split at h
    · obtain rfl := Option.some.inj h
      obtain ⟨hdb, hbackup⟩ := exec_service s.host ok (.inr rfl)
      exact .quiet hdb hbackup rfl rfl (copied_of_update (by decide))
    · cases h

/-- **Every step** keeps account of who has written the backup file. -/
theorem step_fresh (h : Fresh s) {l : Label α} (hl : s.step l = some s') : Fresh s' := by
  have same : s'.host.backup = s.host.backup → s'.saved = s.saved → s'.fresh = s.fresh →
      Fresh s' := by
    intro hbackup hsaved hfresh j hj
    rw [hbackup, hsaved]
    exact h j (hfresh ▸ hj)
  cases step_effect hl with
  | quiet _ hbackup hsaved hfresh _ => exact same hbackup hsaved hfresh
  | changed _ hbackup hsaved hfresh _ => exact same hbackup hsaved hfresh
  | copyBack _ _ hhost hsaved hfresh =>
    exact same (hhost ▸ exec_database s.host _ (.inl rfl)) hsaved hfresh
  | @unsaved i ok _ _ hhost hsaved hfresh =>
    -- the backup of another object is still there
    intro j hj
    rw [hfresh] at hj
    split at hj
    · cases hj
    · rename_i hne
      have hji : j ≠ i := by
        rintro rfl
        exact hne hj
      rw [hhost, hsaved, Function.update_of_ne hji]
      exact h j hj
  | @saved i ok content _ _ hdb hhost hsaved hfresh =>
    intro j hj
    obtain rfl : i = j := Option.some.inj (hfresh.symm.trans hj)
    rw [hhost, hsaved, Function.update_self, hdb]
    exact ⟨content, rfl, rfl⟩

/-- **Every step** that meets `Own` leaves object `i`, once it has copied, with the database of its
last `snapshot()`. -/
theorem step_restored {i : ℕ} (hfresh : Fresh s) (h : s.phase i = .copied → Restored s i)
    {l : Label α} (hown : Own i s l) (hl : s.step l = some s') :
    s'.phase i = .copied → Restored s' i := by
  intro hi
  have snapshot : ∀ {j}, s.phase j = .idle → s'.phase = s.phase → s'.host.db = s.host.db →
      s'.saved = Function.update s.saved j (some s.host.db) → Restored s' i := by
    intro j hj hphase hdb hsaved
    rw [hphase] at hi
    have hij : i ≠ j := by
      rintro rfl
      rw [hj] at hi
      cases hi
    rw [Restored, hsaved, hdb, Function.update_of_ne hij]
    exact h hi
  cases step_effect hl with
  | quiet hdb _ hsaved _ hphase =>
    rw [Restored, hsaved, hdb]
    exact h (hphase i hi)
  | changed hother _ _ _ hphase => exact absurd (hphase i hi) (hother i hown)
  | unsaved hidle hphase hhost hsaved _ =>
    exact snapshot hidle hphase (congrArg Host.db hhost) hsaved
  | saved hidle hphase _ hhost hsaved _ => exact snapshot hidle hphase (by rw [hhost]) hsaved
  | @copyBack j ok _ hphase hhost hsaved _ =>
    rw [Own] at hown
    split at hown
    · rename_i hji
      subst hji
      obtain ⟨rfl, hj⟩ := hown
      obtain ⟨content, hbackup, hcontent⟩ := hfresh j hj
      rw [Restored, hsaved, hcontent, hhost]
      simp [exec, Command.effect, hbackup]
    · rename_i hji
      rw [hphase, Function.update_of_ne (Ne.symm hji)] at hi
      exact absurd hi hown

end step

/-- **Isolation**: if `restore` of an object copies, with effect, what the last `snapshot()` of the
object has written, and nothing else changes the database file before it starts the service, it
starts the service on the database of that `snapshot()`; whatever else happens on the host. -/
theorem restored {host : Host α} {ls : List (Label α)} {s : State α} (i : ℕ)
    (hown : Lts.Along State.step (Own i) (initial host) ls)
    (h : Lts.run State.step (initial host) ls = some s) (hi : s.phase i = .copied) :
    Restored s i := by
  have hinit : Fresh (initial host) ∧
      ((initial host).phase i = .copied → Restored (initial host) i) := ⟨nofun, nofun⟩
  have hsound := Lts.run_invariant_along
    (I := fun s => Fresh s ∧ (s.phase i = .copied → Restored s i)) hinit
    (fun _ _ _ hs hl hstep => ⟨step_fresh hs.1 hstep, step_restored hs.1 hs.2 hl hstep⟩) hown h
  exact hsound.2 hi

/-- A test suite that writes between the two calls. -/
def suite : List (Label String) :=
  [.snapshot 0 true, .write "test", .restore 0 true, .copyBack 0 true]

theorem restored_suite :
    ∃ s, Lts.run State.step (initial ⟨some "production", some "stale", true⟩) suite = some s ∧
      Restored s 0 := by
  have hrun : Lts.run State.step (initial ⟨some "production", some "stale", true⟩) suite = some _ :=
    rfl
  refine ⟨_, hrun, restored 0 ?_ hrun rfl⟩
  refine Lts.along_cons.mpr ⟨trivial, fun s₁ hs₁ => Lts.along_cons.mpr ⟨?_, fun s₂ hs₂ => ?_⟩⟩
  · obtain rfl := Option.some.inj hs₁
    exact Phase.noConfusion
  · obtain rfl := Option.some.inj hs₁
    obtain rfl := Option.some.inj hs₂
    refine Lts.along_cons.mpr ⟨trivial, fun s₃ hs₃ => Lts.along_cons.mpr ⟨?_, ?_⟩⟩
    · obtain rfl := Option.some.inj hs₃
      exact ⟨rfl, rfl⟩
    · exact fun _ _ => Lts.along_nil

/-- The copy of `snapshot()` fails, and `restore()` puts what was at the backup path into the place
of the database. -/
theorem stale_backup_restored :
    ¬∀ (host : Host String) (ls : List (Label String)) (s : State String) (i : ℕ),
      Lts.run State.step (initial host) ls = some s → s.phase i = .copied → Restored s i := by
  intro h
  have hdb : some (some "production") = some (some "stale") :=
    h ⟨some "production", some "stale", true⟩
      [.snapshot 0 false, .restore 0 true, .copyBack 0 true] _ 0 rfl rfl
  exact absurd hdb (by decide)

end DatabaseIsolation

end SasTests
