import DigitalColleagues.Lib.Process
import Mathlib.Data.String.Basic

/-!
# Restoring a backup

`restore_database` installs the database of a verified backup. The content of a
database is spread over its main file and a write-ahead log next to it; the log
is removed before the main file is replaced. Every call of the operating system
can fail, and the process can stop before it.

## Main definitions

- `Sqlite` — what SQLite reads from a database and its log
- `Volume` — the files that a restore touches
- `restoreDatabase` — the restore
- `AllOrNothing` — what a restore may leave behind
- `LogIsSpent` — the log holds nothing that the main file lacks
-/

namespace DigitalColleagues.BackupRestore

-- ════════════════════════════════════════════════════════════════════════
-- Files
-- ════════════════════════════════════════════════════════════════════════

/-- What a path leads to. -/
inductive Node
  | absent
  | file (bytes : List UInt8)
  | symlink (target : String)
  | directory
  | special
deriving DecidableEq

/-- `Path.is_symlink`. -/
def Node.isSymlink : Node → Bool
  | symlink _ => true
  | _ => false

/-- The database of a restore, its sidecars, and other paths that it is given. -/
inductive RestorePath
  | database
  | wal
  | shm
  | elsewhere (path : String)
deriving DecidableEq

/-- SQLite's reading of a main file and the log next to it. `readOnly` is the log
    after a read-only connection, which may have created it. -/
structure Sqlite (κ : Type) where
  content : Node → Node → κ
  readOnly : Node → Node → Node
  content_readOnly : ∀ main wal, content main (readOnly main wal) = content main wal

/-- The files around the destination; `staging` is the file under the temporary
    name, and `pending` says whether the restore still owns it. -/
structure Volume where
  node : RestorePath → Node
  staging : Node
  pending : Bool
  installed : Bool

namespace Volume

def write (v : Volume) (path : RestorePath) (node : Node) : Volume :=
  { v with node := fun p => if p = path then node else v.node p }

@[simp] theorem node_write (v : Volume) (path p : RestorePath) (node : Node) :
    (v.write path node).node p = if p = path then node else v.node p := rfl

@[simp] theorem installed_write (v : Volume) (path : RestorePath) (node : Node) :
    (v.write path node).installed = v.installed := rfl

@[simp] theorem pending_write (v : Volume) (path : RestorePath) (node : Node) :
    (v.write path node).pending = v.pending := rfl

@[simp] theorem staging_write (v : Volume) (path : RestorePath) (node : Node) :
    (v.write path node).staging = v.staging := rfl

/-- The content that the next open of the destination reads. -/
def content {κ : Type} (v : Volume) (sqlite : Sqlite κ) : κ :=
  sqlite.content (v.node .database) (v.node .wal)

end Volume

-- ════════════════════════════════════════════════════════════════════════
-- Calls
-- ════════════════════════════════════════════════════════════════════════

/-- What leaves the restore: a `BackupError` with its category, an `OSError`, or the
    stop of the process. -/
inductive Halt
  | backup (category : String)
  | os
  | stopped
deriving DecidableEq

/-- The process still runs after it. -/
def Halt.raised : Halt → Bool
  | stopped => false
  | _ => true

/-- The calls of the operating system, in the order in which they are made. -/
inductive Site
  | parent
  | destinationLink
  | destinationExists
  | mkstemp
  | closeTemporary
  | unlinkTemporary
  | extract
  | openDatabase
  | linkRollback
  | unlinkRollback
  | sidecarLink (suffix : String)
  | sidecarUnlink (suffix : String)
  | chmod
  | replace
  | openInstalled
  | fsyncInstalled
  | fsyncDirectory
  | unlinkStaging
deriving DecidableEq

/-- How a call goes wrong: it fails, or the process stops before it. -/
inductive Fault
  | fails
  | stops
deriving DecidableEq

def Fault.halt : Fault → Halt
  | fails => .os
  | stops => .stopped

/-- The calls that go wrong. -/
abbrev Faults := Site → Option Fault

abbrev RestoreM (α : Type) := Process Volume Halt α

/-- A call that changes the files, unless it goes wrong. -/
def call (faults : Faults) (site : Site) (f : Volume → Volume) : RestoreM Unit := fun v =>
  match faults site with
  | none => (.ok (), f v)
  | some fault => (.error fault.halt, v)

/-- `if not c: _raise(category)`. -/
def ensure (c : Prop) [Decidable c] (category : String) : RestoreM Unit :=
  if c then pure () else Process.raise (.backup category)

/-- A look at the files. -/
def look {α : Type} (f : Volume → α) : RestoreM α := fun v => (.ok (f v), v)

/-- A change of the files that cannot go wrong. -/
def edit (f : Volume → Volume) : RestoreM Unit := fun v => (.ok (), f v)

/-- `if p: raise e`, after a look at the files. -/
def refuse (p : Volume → Prop) [DecidablePred p] (e : Halt) : RestoreM Unit := fun v =>
  if p v then (.error e, v) else (.ok (), v)

/-- `try: ... except OSError: _raise(category)`. -/
def onOsError {α : Type} (category : String) (x : RestoreM α) : RestoreM α :=
  x.handle fun e => Process.raise (if e = .os then .backup category else e)

/-- `try: ... finally: ...`; a stopped process runs no handler. -/
def finallyDo {α : Type} (x : RestoreM α) (handler : RestoreM Unit) : RestoreM α := fun v =>
  match x v with
  | (.ok a, w) => (do handler; pure a : RestoreM α) w
  | (.error e, w) =>
    if e.raised = true then (do handler; Process.raise e : RestoreM α) w else (.error e, w)

-- ════════════════════════════════════════════════════════════════════════
-- Restore
-- ════════════════════════════════════════════════════════════════════════

/-- A backup that passed its verification, with its manifest as far as it is reported. -/
structure VerifiedBackup where
  database : List UInt8
  schemaVersion : ℕ
  migrationCount : ℕ
  releaseVersion : String
  sourceCommit : String

/-- The outside of a restore: `_verified_backup` on the bytes of an archive, and
    the archive that `backup_database` builds of the present database. -/
structure BackupPorts where
  verifiedBackup : List UInt8 → Except String VerifiedBackup
  rollbackArchive : Except String (List UInt8 × String)

structure RestoreArguments where
  archivePath : RestorePath
  currentSourceBinding : Bool
  replace : Bool
  offlineConfirmed : Bool
  rollbackBackup : Option RestorePath
  safeParent : Bool

structure RestoreReport where
  schemaVersion : ℕ
  migrationCount : ℕ
  rollbackBackupCreated : Bool
  restoredSourceVersion : String
  restoredSourceCommit : String
  replacedSourceVersion : Option String
deriving DecidableEq

section Restore

variable {κ : Type} (sqlite : Sqlite κ) (ports : BackupPorts) (faults : Faults)

/-- `_verified_backup`: the database of the archive is in the staging file. -/
def verifyArchive (archive : RestorePath) : RestoreM VerifiedBackup := do
  let node ← look fun v => v.node archive
  match node with
  | .file bytes => do
    onOsError "backup_archive_invalid" (call faults .extract id)
    match ports.verifiedBackup bytes with
    | .ok backup => do
      edit fun v => { v with staging := .file backup.database }
      pure backup
    | .error category => Process.raise (.backup category)
  | _ => Process.raise (.backup "backup_archive_invalid")

/-- `Path.is_file`, for what is no symbolic link. -/
def Node.isFile : Node → Bool
  | file _ => true
  | _ => false

/-- `backup_database` of the destination; the source version of its report. -/
def backupDatabase (output : RestorePath) : RestoreM String := do
  refuse (fun v => (v.node .database).isFile = false) (.backup "database_source_invalid")
  call faults .openDatabase fun v =>
    v.write .wal (sqlite.readOnly (v.node .database) (v.node .wal))
  match ports.rollbackArchive with
  | .error category => Process.raise (.backup category)
  | .ok (bytes, version) => do
    refuse (fun v => v.node output ≠ .absent) (.backup "backup_destination_exists")
    onOsError "backup_write_failed" (call faults .linkRollback fun v =>
      v.write output (.file bytes))
    onOsError "backup_write_failed" (call faults .unlinkRollback id)
    pure version

/-- A sidecar is removed, unless it is a symbolic link. -/
def removeSidecar (suffix : String) (sidecar : RestorePath) : RestoreM Unit := do
  call faults (.sidecarLink suffix) id
  refuse (fun v => (v.node sidecar).isSymlink = true) (.backup "restore_destination_invalid")
  onOsError "restore_destination_busy" do
    refuse (fun v => v.node sidecar = .directory) .os
    call faults (.sidecarUnlink suffix) fun v => v.write sidecar .absent

/-- An existing destination is backed up, and its sidecars are removed. -/
def backUpExisting (args : RestoreArguments) (destinationExists : Bool) :
    RestoreM (Option String) :=
  if destinationExists = true then do
    let rollbackBackup ← Process.lift (match args.rollbackBackup with
      | some path => .ok path
      | none => .error (.backup "restore_existing_state_refused"))
    let version ← backupDatabase sqlite ports faults rollbackBackup
    removeSidecar faults "-wal" .wal
    removeSidecar faults "-shm" .shm
    pure (some version)
  else pure none

/-- The part of `restore_database` under its `try`. -/
def install (args : RestoreArguments) (destinationExists : Bool) : RestoreM RestoreReport := do
  call faults .mkstemp fun v => { v with staging := .file [] }
  call faults .closeTemporary fun v => { v with pending := true }
  call faults .unlinkTemporary fun v => { v with staging := .absent }
  let backup ← verifyArchive ports faults args.archivePath
  let replaced ← backUpExisting sqlite ports faults args destinationExists
  call faults .chmod id
  call faults .replace fun v =>
    { v.write .database v.staging with staging := .absent, pending := false, installed := true }
  call faults .openInstalled id
  call faults .fsyncInstalled id
  call faults .fsyncDirectory id
  pure
    { schemaVersion := backup.schemaVersion
      migrationCount := backup.migrationCount
      rollbackBackupCreated := replaced.isSome
      restoredSourceVersion := backup.releaseVersion
      restoredSourceCommit := backup.sourceCommit
      replacedSourceVersion := replaced }

/-- The `finally` of `restore_database`: the staging file goes, if it can. -/
def removeStaging : RestoreM Unit := fun v =>
  if v.pending = true then
    match faults .unlinkStaging with
    | none => (.ok (), { v with staging := .absent, pending := false })
    | some .fails => (.ok (), v)
    | some .stops => (.error .stopped, v)
  else (.ok (), v)

/-- `restore_database`. -/
def restoreDatabase (args : RestoreArguments) : RestoreM RestoreReport := do
  onOsError "destination_parent_invalid" (call faults .parent id)
  ensure (args.safeParent = true) "destination_parent_invalid"
  call faults .destinationLink id
  refuse (fun v => (v.node .database).isSymlink = true) (.backup "restore_destination_invalid")
  call faults .destinationExists id
  let destinationExists ← look fun v => decide (v.node .database ≠ .absent)
  ensure (¬(destinationExists = true ∧ (args.replace = false ∨ args.offlineConfirmed = false ∨
    args.rollbackBackup = none))) "restore_existing_state_refused"
  ensure (¬(destinationExists = true ∧ args.currentSourceBinding = false))
    "restore_current_source_binding_required"
  ensure (¬(destinationExists = false ∧ (args.replace = true ∨ args.offlineConfirmed = true ∨
    args.rollbackBackup ≠ none))) "restore_options_invalid"
  ensure (args.rollbackBackup ≠ some args.archivePath) "rollback_backup_invalid"
  finallyDo (onOsError "restore_install_failed"
    (install sqlite ports faults args destinationExists)) (removeStaging faults)

end Restore

-- ════════════════════════════════════════════════════════════════════════
-- What a restore may leave behind
-- ════════════════════════════════════════════════════════════════════════

section Restored

variable {κ : Type} (sqlite : Sqlite κ) (ports : BackupPorts) (args : RestoreArguments)
  (files : RestorePath → Node)

/-- The destination before a restore. -/
def Volume.initial : Volume := ⟨files, .absent, false, false⟩

/-- The backup in the archive. -/
def verified : Option VerifiedBackup :=
  match files args.archivePath with
  | .file bytes => (ports.verifiedBackup bytes).toOption
  | _ => none

/-- What the destination reads with a backup installed. -/
def VerifiedBackup.content {κ : Type} (sqlite : Sqlite κ) (backup : VerifiedBackup) : κ :=
  sqlite.content (.file backup.database) .absent

/-- The destination holds what it held before or the backup; what it held before if
    the restore raised without installing the backup, and the backup if it reported
    success. -/
structure AllOrNothing (r : Except Halt RestoreReport × Volume) : Prop where
  either : r.2.content sqlite = (Volume.initial files).content sqlite ∨
    ∃ backup, verified ports args files = some backup ∧
      r.2.content sqlite = backup.content sqlite
  raised : ∀ e, r.1 = .error e → e.raised = true → r.2.installed = false →
    r.2.content sqlite = (Volume.initial files).content sqlite
  restored : ∀ report, r.1 = .ok report → ∃ backup, verified ports args files = some backup ∧
    r.2.content sqlite = backup.content sqlite

/-- The options fit a destination that is there, or one that is not. -/
structure Accepted (exists_ : Bool) : Prop where
  parent : args.safeParent = true
  replacing : exists_ = true → args.replace = true ∧ args.offlineConfirmed = true ∧
    args.rollbackBackup ≠ none ∧ args.currentSourceBinding = true
  creating : exists_ = false → args.replace = false ∧ args.offlineConfirmed = false ∧
    args.rollbackBackup = none
  rollback : args.rollbackBackup ≠ some args.archivePath

/-- The log holds nothing that the main file lacks when it is removed, and nothing at
    all when there is no main file that it belongs to. -/
structure LogIsSpent : Prop where
  removed : ∀ main output bytes version, files .database = .file main → Accepted args true →
    verified ports args files ≠ none → args.rollbackBackup = some output →
    ports.rollbackArchive = .ok (bytes, version) → output ≠ .wal → files output = .absent →
    (sqlite.readOnly (.file main) (files .wal)).isSymlink = false →
    sqlite.readOnly (.file main) (files .wal) ≠ .directory →
    sqlite.content (.file main) .absent = sqlite.content (.file main) (files .wal)
  overwritten : ∀ main bytes version, files .database = .file main → Accepted args true →
    verified ports args files ≠ none → args.rollbackBackup = some .wal →
    ports.rollbackArchive = .ok (bytes, version) →
    sqlite.readOnly (.file main) (files .wal) = .absent →
    sqlite.content (.file main) (.file bytes) = sqlite.content (.file main) (files .wal)
  leftOver : ∀ backup, files .database = .absent → Accepted args false →
    verified ports args files = some backup →
    sqlite.content (.file backup.database) (files .wal) = backup.content sqlite

end Restored

-- ════════════════════════════════════════════════════════════════════════
-- Where a restore ends
-- ════════════════════════════════════════════════════════════════════════

section Ends

variable {κ : Type} {sqlite : Sqlite κ} {ports : BackupPorts} {faults : Faults}
  {args : RestoreArguments} {files : RestorePath → Node} {v : Volume} {E : Volume → Prop}

theorem ends_call {site : Site} {f : Volume → Volume} {Q : Unit → Volume → Prop}
    (hE : E v) (hQ : Q () (f v)) : Process.Ends (call faults site f) v Q E := by
  cases h : faults site with
  | none => exact Process.ends_of_ok (by rw [call, h]) hQ
  | some fault => exact Process.ends_of_error (e := fault.halt) (by rw [call, h]) hE

theorem ends_onOsError {α : Type} {category : String} {x : RestoreM α}
    {Q : α → Volume → Prop} (h : Process.Ends x v Q E) :
    Process.Ends (onOsError category x) v Q E :=
  h.handle fun _ _ ht => Process.ends_raise ht

theorem ends_refuse {p : Volume → Prop} [DecidablePred p] {e : Halt}
    {Q : Unit → Volume → Prop} (hE : E v) (hQ : ¬p v → Q () v) :
    Process.Ends (refuse p e) v Q E := by
  by_cases h : p v
  · exact Process.ends_of_error (by rw [refuse, if_pos h]) hE
  · exact Process.ends_of_ok (by rw [refuse, if_neg h]) (hQ h)

theorem ends_ensure {c : Prop} [Decidable c] {category : String} {Q : Unit → Volume → Prop}
    (hE : E v) (hQ : c → Q () v) : Process.Ends (ensure c category) v Q E := by
  unfold ensure
  split
  · rename_i h
    exact Process.ends_pure (hQ h)
  · exact Process.ends_raise hE

/-- The backup is in the staging file after it was verified. -/
theorem ends_verifyArchive {archive : RestorePath} (hE : E v) :
    Process.Ends (verifyArchive ports faults archive) v (fun backup w =>
      (∃ bytes, v.node archive = .file bytes ∧ ports.verifiedBackup bytes = .ok backup) ∧
        w = { v with staging := .file backup.database }) E := by
  unfold verifyArchive
  refine Process.Ends.bind (Q := fun node w => node = v.node archive ∧ w = v)
    (Process.ends_of_ok rfl ⟨rfl, rfl⟩) ?_
  rintro node w ⟨hnode, hw⟩
  rw [hw]
  cases node with
  | file bytes =>
    refine Process.Ends.bind (Q := fun _ w => w = v) (ends_onOsError (ends_call hE rfl)) ?_
    intro _ w hw
    rw [hw]
    cases h : ports.verifiedBackup bytes with
    | error category => exact Process.ends_raise hE
    | ok backup =>
      refine Process.Ends.bind (Q := fun _ w => w = { v with staging := .file backup.database })
        (Process.ends_of_ok rfl rfl) ?_
      intro _ w hw
      exact Process.ends_pure ⟨⟨bytes, hnode.symm, h⟩, hw⟩
  | absent | symlink | directory | special => exact Process.ends_raise hE

/-- A sidecar that could be removed was no symbolic link and no directory. -/
theorem ends_removeSidecar {suffix : String} {sidecar : RestorePath} (hE : E v) :
    Process.Ends (removeSidecar faults suffix sidecar) v (fun _ w =>
      ((v.node sidecar).isSymlink = false ∧ v.node sidecar ≠ .directory) ∧
        w = v.write sidecar .absent) E := by
  unfold removeSidecar
  refine Process.Ends.bind (Q := fun _ w => w = v) (ends_call hE rfl) ?_
  intro _ w hw
  rw [hw]
  refine Process.Ends.bind (Q := fun _ w => (v.node sidecar).isSymlink = false ∧ w = v)
    (ends_refuse hE fun h => ⟨Bool.eq_false_of_not_eq_true h, rfl⟩) ?_
  rintro _ w ⟨hlink, hw⟩
  rw [hw]
  refine ends_onOsError (Process.Ends.bind (Q := fun _ w => v.node sidecar ≠ .directory ∧ w = v)
    (ends_refuse hE fun h => ⟨h, rfl⟩) ?_)
  rintro _ w ⟨hdirectory, hw⟩
  rw [hw]
  exact ends_call hE ⟨⟨hlink, hdirectory⟩, rfl⟩

/-- The destination reads what it read before. -/
def Unchanged (sqlite : Sqlite κ) (files : RestorePath → Node) (v : Volume) : Prop :=
  v.installed = false ∧ v.content sqlite = (Volume.initial files).content sqlite

/-- The destination after its backup: its log can be removed without a change. -/
structure BackedUp (sqlite : Sqlite κ) (files : RestorePath → Node) (staging : Node)
    (v : Volume) : Prop where
  unchanged : Unchanged sqlite files v
  staged : v.staging = staging
  removal : (v.node .wal).isSymlink = false → v.node .wal ≠ .directory →
    Unchanged sqlite files (v.write .wal .absent)

theorem content_initial {main : List UInt8} (hmain : files .database = .file main) :
    (Volume.initial files).content sqlite = sqlite.content (.file main) (files .wal) := by
  show sqlite.content (files .database) (files .wal) = _
  rw [hmain]

/-- The archive of a rollback backup is written where there was no file. -/
theorem LogIsSpent.backedUp {u : Volume} {main bytes : List UInt8} {version : String}
    {output : RestorePath} (h : LogIsSpent sqlite ports args files)
    (haccepted : Accepted args true) (hverified : verified ports args files ≠ none)
    (houtput : args.rollbackBackup = some output) (hmain : files .database = .file main)
    (harchive : ports.rollbackArchive = .ok (bytes, version))
    (hnode : ∀ p, p ≠ .wal → u.node p = files p)
    (hwal : u.node .wal = sqlite.readOnly (.file main) (files .wal))
    (hu : Unchanged sqlite files u) (habsent : u.node output = .absent) :
    BackedUp sqlite files u.staging (u.write output (.file bytes)) := by
  have hdatabase : u.node .database = .file main := by rw [hnode _ (by simp), hmain]
  obtain ⟨hinstalled, hcontent⟩ := hu
  by_cases heq : output = .wal
  · subst heq
    refine ⟨⟨hinstalled, ?_⟩, rfl, fun _ _ => ⟨hinstalled, ?_⟩⟩
    · show sqlite.content (u.node .database) (.file bytes) = _
      rw [hdatabase, content_initial hmain]
      exact h.overwritten main bytes version hmain haccepted hverified houtput harchive
        (hwal.symm.trans habsent)
    · show sqlite.content (u.node .database) .absent = _
      rw [← habsent]
      exact hcontent
  · have hother : output ≠ .database := by
      rintro rfl
      exact absurd (hdatabase.symm.trans habsent) (by simp)
    have hkept (p : RestorePath) (hp : p ≠ output) :
        (u.write output (.file bytes)).node p = u.node p := if_neg hp
    refine ⟨⟨hinstalled, ?_⟩, rfl, fun hlink hdirectory => ⟨hinstalled, ?_⟩⟩
    · rw [Volume.content, hkept _ (Ne.symm hother), hkept _ (Ne.symm heq)]
      exact hcontent
    · rw [hkept _ (Ne.symm heq), hwal] at hlink hdirectory
      show sqlite.content ((u.write output (.file bytes)).node .database) .absent = _
      rw [hkept _ (Ne.symm hother), hdatabase, content_initial hmain]
      exact h.removed main output bytes version hmain haccepted hverified houtput harchive heq
        ((hnode _ heq).symm.trans habsent) hlink hdirectory

/-- A rollback backup leaves the destination readable, and its log can be removed. -/
theorem ends_backupDatabase {output : RestorePath} (h : LogIsSpent sqlite ports args files)
    (haccepted : Accepted args true) (hverified : verified ports args files ≠ none)
    (houtput : args.rollbackBackup = some output) (hnode : v.node = files)
    (hinstalled : v.installed = false) :
    Process.Ends (backupDatabase sqlite ports faults output) v
      (fun _ => BackedUp sqlite files v.staging) (Unchanged sqlite files) := by
  have hv : Unchanged sqlite files v := by
    refine ⟨hinstalled, ?_⟩
    rw [Volume.content, hnode]
    rfl
  unfold backupDatabase
  refine Process.Ends.bind (Q := fun _ w => (∃ main, files .database = .file main) ∧ w = v)
    (ends_refuse hv fun hfile => ⟨?_, rfl⟩) ?_
  · rw [hnode] at hfile
    cases hdatabase : files .database with
    | file main => exact ⟨main, rfl⟩
    | absent | symlink | directory | special => exact absurd (by rw [hdatabase]; rfl) hfile
  rintro _ w ⟨⟨main, hmain⟩, hw⟩
  rw [hw]
  have hopened : Unchanged sqlite files
      (v.write .wal (sqlite.readOnly (.file main) (files .wal))) := by
    refine ⟨hinstalled, ?_⟩
    simp only [Volume.content, Volume.node_write, reduceCtorEq, if_false, if_true, hnode, hmain,
      sqlite.content_readOnly]
    rw [← hmain]
    rfl
  refine Process.Ends.bind
    (Q := fun _ w => w = v.write .wal (sqlite.readOnly (.file main) (files .wal)))
    (ends_call hv (by rw [hnode, hmain])) ?_
  intro _ w hw
  rw [hw]
  cases harchive : ports.rollbackArchive with
  | error category => exact Process.ends_raise hopened
  | ok archive =>
    obtain ⟨bytes, version⟩ := archive
    refine Process.Ends.bind (Q := fun _ w =>
      (v.write .wal (sqlite.readOnly (.file main) (files .wal))).node output = .absent ∧
        w = v.write .wal (sqlite.readOnly (.file main) (files .wal)))
      (ends_refuse hopened fun h => ⟨not_not.mp h, rfl⟩) ?_
    rintro _ w ⟨habsent, hw⟩
    rw [hw]
    have hbacked : BackedUp sqlite files v.staging ((v.write .wal
        (sqlite.readOnly (.file main) (files .wal))).write output (.file bytes)) :=
      h.backedUp haccepted hverified houtput hmain harchive
        (fun p hp => (if_neg hp).trans (congrFun hnode p)) (by rw [Volume.node_write, if_pos rfl])
        hopened habsent
    refine Process.Ends.bind (Q := fun _ w => w = (v.write .wal
      (sqlite.readOnly (.file main) (files .wal))).write output (.file bytes))
      (ends_onOsError (ends_call hopened rfl)) ?_
    intro _ w hw
    rw [hw]
    refine Process.Ends.bind (Q := fun _ w => w = (v.write .wal
      (sqlite.readOnly (.file main) (files .wal))).write output (.file bytes))
      (ends_onOsError (ends_call hbacked.unchanged rfl)) ?_
    intro _ w hw
    rw [hw]
    exact Process.ends_pure hbacked

/-- The destination reads the backup in the archive. -/
def Restored (sqlite : Sqlite κ) (ports : BackupPorts) (args : RestoreArguments)
    (files : RestorePath → Node) (v : Volume) : Prop :=
  v.installed = true ∧ ∃ backup, verified ports args files = some backup ∧
    v.content sqlite = backup.content sqlite

/-- Either, and the backup only once it was installed. -/
def Settled (sqlite : Sqlite κ) (ports : BackupPorts) (args : RestoreArguments)
    (files : RestorePath → Node) (v : Volume) : Prop :=
  Unchanged sqlite files v ∨ Restored sqlite ports args files v

/-- The destination before the main file is replaced: the log is gone, or it belongs
    to no main file. -/
structure Ready (sqlite : Sqlite κ) (files : RestorePath → Node) (backup : VerifiedBackup)
    (v : Volume) : Prop where
  unchanged : Unchanged sqlite files v
  staged : v.staging = .file backup.database
  replaces : sqlite.content (.file backup.database) (v.node .wal) = backup.content sqlite

theorem ends_install (h : LogIsSpent sqlite ports args files) {destinationExists : Bool}
    (haccepted : Accepted args destinationExists)
    (hexists : destinationExists = decide (files .database ≠ .absent)) (hnode : v.node = files)
    (hinstalled : v.installed = false) :
    Process.Ends (install sqlite ports faults args destinationExists) v
      (fun _ w => Restored sqlite ports args files w) (Settled sqlite ports args files) := by
  have hunchanged {w : Volume} (hw : w.node = files ∧ w.installed = false) :
      Unchanged sqlite files w := by
    refine ⟨hw.2, ?_⟩
    rw [Volume.content, hw.1]
    rfl
  have hkept {site : Site} {f : Volume → Volume} {w : Volume}
      (hw : w.node = files ∧ w.installed = false)
      (hf : (f w).node = files ∧ (f w).installed = false) :
      Process.Ends (call faults site f) w (fun _ u => u.node = files ∧ u.installed = false)
        (Settled sqlite ports args files) :=
    ends_call (.inl (hunchanged hw)) hf
  unfold install
  refine Process.Ends.bind (hkept ⟨hnode, hinstalled⟩ ⟨hnode, hinstalled⟩) fun _ w hw => ?_
  refine Process.Ends.bind (hkept hw hw) fun _ w hw => ?_
  refine Process.Ends.bind (hkept hw hw) fun _ w hw => ?_
  refine Process.Ends.bind (ends_verifyArchive (.inl (hunchanged hw))) ?_
  rintro backup u ⟨⟨bytes, hbytes, hbackup⟩, hu⟩
  have hverified : verified ports args files = some backup := by
    rw [← hw.1, verified, hbytes]
    show (ports.verifiedBackup bytes).toOption = some backup
    rw [hbackup]
    rfl
  refine Process.Ends.bind (Q := fun _ u => Ready sqlite files backup u) ?_
    fun replaced u hready => ?_
  · rw [hu]
    cases destinationExists with
    | false =>
      have habsent : files .database = .absent := by
        by_contra hne
        exact absurd hexists (by simp [hne])
      refine Process.ends_pure ⟨hunchanged hw, rfl, ?_⟩
      show sqlite.content (.file backup.database) (w.node .wal) = backup.content sqlite
      rw [hw.1]
      exact h.leftOver backup habsent haccepted hverified
    | true =>
      obtain ⟨output, houtput⟩ := Option.ne_none_iff_exists'.mp (haccepted.replacing rfl).2.2.1
      refine Process.Ends.bind (Q := fun path u => path = output ∧
        u = { w with staging := .file backup.database }) ?_ ?_
      · exact Process.ends_of_ok (by rw [houtput]; rfl) ⟨rfl, rfl⟩
      rintro path u ⟨hpath, hu⟩
      rw [hpath, hu]
      have hbacked : Process.Ends (backupDatabase sqlite ports faults output)
          { w with staging := .file backup.database }
          (fun _ => BackedUp sqlite files (.file backup.database)) (Unchanged sqlite files) :=
        ends_backupDatabase h haccepted (by rw [hverified]; simp) houtput hw.1 hw.2
      refine Process.Ends.bind (hbacked.mono (fun _ _ hQ => hQ) fun _ hE => .inl hE) ?_
      rintro version u ⟨hopened, hstaged, hremoval⟩
      refine Process.Ends.bind (ends_removeSidecar (.inl hopened)) ?_
      rintro _ u' ⟨⟨hlink, hdirectory⟩, hu'⟩
      have hremoved : Unchanged sqlite files u' := by
        rw [hu']
        exact hremoval hlink hdirectory
      refine Process.Ends.bind (ends_removeSidecar (.inl hremoved)) ?_
      rintro _ u'' ⟨_, hu''⟩
      refine Process.ends_pure ⟨?_, ?_, ?_⟩
      · rw [hu'']
        exact hremoved
      · rw [hu'', hu']
        exact hstaged
      · rw [hu'', hu']
        rfl
  · refine Process.Ends.bind (Q := fun _ w => w = u)
      (ends_call (.inl hready.unchanged) rfl) fun _ w hw => ?_
    rw [hw]
    refine Process.Ends.bind (Q := fun _ w => Restored sqlite ports args files w)
      (ends_call (.inl hready.unchanged) ?_) fun _ w hw => ?_
    · refine ⟨rfl, backup, hverified, ?_⟩
      show sqlite.content u.staging (u.node .wal) = backup.content sqlite
      rw [hready.staged]
      exact hready.replaces
    refine Process.Ends.bind (Q := fun _ w => Restored sqlite ports args files w)
      (ends_call (.inr hw) hw) fun _ w hw => ?_
    refine Process.Ends.bind (Q := fun _ w => Restored sqlite ports args files w)
      (ends_call (.inr hw) hw) fun _ w hw => ?_
    refine Process.Ends.bind (Q := fun _ w => Restored sqlite ports args files w)
      (ends_call (.inr hw) hw) fun _ w hw => ?_
    exact Process.ends_pure hw

/-- Removing the staging file leaves the destination alone. -/
theorem ends_removeStaging {P Q : Volume → Prop} (hP : P v) (hQ : Q v)
    (hremoved : Q { v with staging := .absent, pending := false }) :
    Process.Ends (removeStaging faults) v (fun _ => Q) P := by
  unfold removeStaging
  by_cases hpending : v.pending = true
  · cases hfault : faults .unlinkStaging with
    | none => exact Process.ends_of_ok (by simp only [hpending, if_true]; rfl) hremoved
    | some fault =>
      cases fault with
      | fails => exact Process.ends_of_ok (by simp only [hpending, if_true]; rfl) hQ
      | stops => exact Process.ends_of_error (by simp only [hpending, if_true]; rfl) hP
  · exact Process.ends_of_ok (by simp only [hpending]; rfl) hQ

theorem ends_finallyDo {α : Type} {x : RestoreM α} {P Q : Volume → Prop}
    (hx : Process.Ends x v (fun _ => Q) P) (hQP : ∀ w, Q w → P w)
    (hP : ∀ w, P w → P { w with staging := .absent, pending := false })
    (hQ : ∀ w, Q w → Q { w with staging := .absent, pending := false }) :
    Process.Ends (finallyDo x (removeStaging faults)) v (fun _ => Q) P := by
  unfold Process.Ends at hx
  split at hx
  · rename_i a w heq
    have hrun : finallyDo x (removeStaging faults) v =
        (removeStaging faults >>= fun _ => (pure a : RestoreM α)) w := by rw [finallyDo, heq]
    have hend : Process.Ends (removeStaging faults >>= fun _ => (pure a : RestoreM α)) w
        (fun _ => Q) P :=
      Process.Ends.bind (ends_removeStaging (hQP _ hx) hx (hQ _ hx))
        fun _ _ hw => Process.ends_pure hw
    rw [Process.Ends, hrun]
    exact hend
  · rename_i e w heq
    by_cases hraised : e.raised = true
    · have hrun : finallyDo x (removeStaging faults) v =
          (removeStaging faults >>= fun _ => (Process.raise e : RestoreM α)) w := by
        rw [finallyDo, heq]
        simp only [hraised, if_true]
      have hend : Process.Ends (removeStaging faults >>= fun _ => (Process.raise e : RestoreM α)) w
          (fun _ => Q) P :=
        Process.Ends.bind (ends_removeStaging hx hx (hP _ hx)) fun _ _ hw => Process.ends_raise hw
      rw [Process.Ends, hrun]
      exact hend
    · exact Process.ends_of_error (e := e) (by rw [finallyDo, heq]; simp only [hraised]; rfl) hx

/-- A restore ends with the content that was there, or with the backup. -/
theorem ends_restoreDatabase (h : LogIsSpent sqlite ports args files) :
    Process.Ends (restoreDatabase sqlite ports faults args) (.initial files)
      (fun _ => Restored sqlite ports args files) (Settled sqlite ports args files) := by
  have hstart : Settled sqlite ports args files (.initial files) := .inl ⟨rfl, rfl⟩
  unfold restoreDatabase
  refine Process.Ends.bind (Q := fun _ w => w = .initial files)
    (ends_onOsError (ends_call hstart rfl)) fun _ w hw => ?_
  rw [hw]
  refine Process.Ends.bind (Q := fun _ w => args.safeParent = true ∧ w = .initial files)
    (ends_ensure hstart fun hparent => ⟨hparent, rfl⟩) ?_
  rintro _ w ⟨hparent, hw⟩
  rw [hw]
  refine Process.Ends.bind (Q := fun _ w => w = .initial files)
    (ends_call hstart rfl) fun _ w hw => ?_
  rw [hw]
  refine Process.Ends.bind (Q := fun _ w => w = .initial files)
    (ends_refuse hstart fun _ => rfl) fun _ w hw => ?_
  rw [hw]
  refine Process.Ends.bind (Q := fun _ w => w = .initial files)
    (ends_call hstart rfl) fun _ w hw => ?_
  rw [hw]
  refine Process.Ends.bind (Q := fun destinationExists w =>
    destinationExists = decide (files .database ≠ .absent) ∧ w = .initial files)
    (Process.ends_of_ok rfl ⟨rfl, rfl⟩) ?_
  rintro destinationExists w ⟨hexists, hw⟩
  rw [hw]
  refine Process.Ends.bind (Q := fun _ w => (¬(destinationExists = true ∧ (args.replace = false ∨
    args.offlineConfirmed = false ∨ args.rollbackBackup = none))) ∧ w = .initial files)
    (ends_ensure hstart fun h => ⟨h, rfl⟩) ?_
  rintro _ w ⟨hoptions, hw⟩
  rw [hw]
  refine Process.Ends.bind (Q := fun _ w => (¬(destinationExists = true ∧
    args.currentSourceBinding = false)) ∧ w = .initial files)
    (ends_ensure hstart fun h => ⟨h, rfl⟩) ?_
  rintro _ w ⟨hbinding, hw⟩
  rw [hw]
  refine Process.Ends.bind (Q := fun _ w => (¬(destinationExists = false ∧ (args.replace = true ∨
    args.offlineConfirmed = true ∨ args.rollbackBackup ≠ none))) ∧ w = .initial files)
    (ends_ensure hstart fun h => ⟨h, rfl⟩) ?_
  rintro _ w ⟨hnew, hw⟩
  rw [hw]
  refine Process.Ends.bind (Q := fun _ w => args.rollbackBackup ≠ some args.archivePath ∧
    w = .initial files) (ends_ensure hstart fun h => ⟨h, rfl⟩) ?_
  rintro _ w ⟨hrollback, hw⟩
  rw [hw]
  have haccepted : Accepted args destinationExists := by
    refine ⟨hparent, fun hexists => ?_, fun hexists => ?_, hrollback⟩
    · simp only [hexists, true_and, not_or] at hoptions hbinding
      exact ⟨by simpa using hoptions.1, by simpa using hoptions.2.1, hoptions.2.2,
        by simpa using hbinding⟩
    · simp only [hexists, true_and, not_or] at hnew
      exact ⟨by simpa using hnew.1, by simpa using hnew.2.1, by simpa using hnew.2.2⟩
  exact ends_finallyDo (ends_onOsError (ends_install h haccepted hexists rfl rfl))
    (fun _ => .inr) (fun _ hw => hw) fun _ hw => hw

/-- One call goes wrong, and no other. -/
def onlyAt (site : Site) (fault : Fault) : Faults := fun other =>
  if other = site then some fault else none

/-- The checks before the `try` pass. -/
theorem restoreDatabase_eq (haccepted : Accepted args (decide (files .database ≠ .absent)))
    (hlink : (files .database).isSymlink = false) (hparent : faults .parent = none)
    (hdestination : faults .destinationLink = none) (hexists : faults .destinationExists = none) :
    restoreDatabase sqlite ports faults args (.initial files) =
      finallyDo (onOsError "restore_install_failed" (install sqlite ports faults args
        (decide (files .database ≠ .absent)))) (removeStaging faults) (.initial files) := by
  obtain ⟨hsafe, hreplacing, hcreating, hrollback⟩ := haccepted
  by_cases habsent : files .database = .absent
  · obtain ⟨hreplace, hoffline, hnone⟩ := hcreating (by simp [habsent])
    simp [restoreDatabase, Process.bind_eq, refuse, look, onOsError, Process.handle, call,
      hparent, ensure, hsafe, hdestination, hexists, Volume.initial, Node.isSymlink, habsent,
      hreplace, hoffline, hnone]
  · obtain ⟨hreplace, hoffline, hsome, hbinding⟩ := hreplacing (by simp [habsent])
    simp [restoreDatabase, Process.bind_eq, refuse, look, onOsError, Process.handle, call,
      hparent, ensure, hsafe, hdestination, hexists, Volume.initial, hlink, habsent, hreplace,
      hoffline, hsome, hbinding, hrollback]

/-- The archive in use is a file. -/
theorem verified_eq_some {backup : VerifiedBackup} (h : verified ports args files = some backup) :
    ∃ bytes, files args.archivePath = .file bytes ∧ ports.verifiedBackup bytes = .ok backup := by
  unfold verified at h
  split at h
  · rename_i bytes hbytes
    refine ⟨bytes, hbytes, ?_⟩
    cases hbackup : ports.verifiedBackup bytes with
    | error category => exact absurd h (by simp [hbackup, Except.toOption])
    | ok verifiedBackup => simpa [hbackup, Except.toOption] using h
  · exact absurd h (by simp)

/-- A fault after the log was removed. -/
theorem exists_removed (sqlite : Sqlite κ) {main bytes : List UInt8} {version : String}
    {output : RestorePath} {backup : VerifiedBackup} (hmain : files .database = .file main)
    (haccepted : Accepted args true) (hverified : verified ports args files = some backup)
    (houtput : args.rollbackBackup = some output)
    (harchive : ports.rollbackArchive = .ok (bytes, version)) (hwal : output ≠ .wal)
    (habsent : files output = .absent)
    (hlink : (sqlite.readOnly (.file main) (files .wal)).isSymlink = false)
    (hdirectory : sqlite.readOnly (.file main) (files .wal) ≠ .directory) :
    let r := restoreDatabase sqlite ports (onlyAt (.sidecarLink "-shm") .fails) args
      (.initial files)
    r.1 = .error (.backup "restore_install_failed") ∧ r.2.installed = false ∧
      r.2.node .database = .file main ∧ r.2.node .wal = .absent := by
  obtain ⟨content, hcontent, hbackup⟩ := verified_eq_some hverified
  have hdatabase : output ≠ .database := by
    rintro rfl
    exact absurd (hmain.symm.trans habsent) (by simp)
  have hexists : decide (files .database ≠ .absent) = true := by simp [hmain]
  rw [restoreDatabase_eq (by rwa [hexists]) (by rw [hmain]; rfl) rfl rfl rfl, hexists]
  simp [finallyDo, onOsError, Process.handle, install, Process.bind_eq, call, onlyAt,
    verifyArchive, look, Volume.initial, hcontent, hbackup, edit, backUpExisting, houtput,
    backupDatabase, refuse, hmain, Node.isFile, harchive, hwal, habsent, removeSidecar, hlink,
    hdirectory, Ne.symm hwal, Ne.symm hdatabase, Fault.halt, Halt.raised, removeStaging]

/-- A fault after the rollback backup was written to the path of the log. -/
theorem exists_overwritten (sqlite : Sqlite κ) {main bytes : List UInt8} {version : String}
    {backup : VerifiedBackup} (hmain : files .database = .file main)
    (haccepted : Accepted args true) (hverified : verified ports args files = some backup)
    (houtput : args.rollbackBackup = some .wal)
    (harchive : ports.rollbackArchive = .ok (bytes, version))
    (habsent : sqlite.readOnly (.file main) (files .wal) = .absent) :
    let r := restoreDatabase sqlite ports (onlyAt .unlinkRollback .fails) args (.initial files)
    r.1 = .error (.backup "backup_write_failed") ∧ r.2.installed = false ∧
      r.2.node .database = .file main ∧ r.2.node .wal = .file bytes := by
  obtain ⟨content, hcontent, hbackup⟩ := verified_eq_some hverified
  have hexists : decide (files .database ≠ .absent) = true := by simp [hmain]
  rw [restoreDatabase_eq (by rwa [hexists]) (by rw [hmain]; rfl) rfl rfl rfl, hexists]
  simp [finallyDo, onOsError, Process.handle, install, Process.bind_eq, call, onlyAt,
    verifyArchive, look, Volume.initial, hcontent, hbackup, edit, backUpExisting, houtput,
    backupDatabase, refuse, hmain, Node.isFile, harchive, habsent, Fault.halt, Halt.raised,
    removeStaging]

/-- Nothing goes wrong, and there was no database. -/
theorem exists_leftOver (sqlite : Sqlite κ) {backup : VerifiedBackup}
    (habsent : files .database = .absent) (haccepted : Accepted args false)
    (hverified : verified ports args files = some backup) :
    let r := restoreDatabase sqlite ports (fun _ => none) args (.initial files)
    (∃ report, r.1 = .ok report) ∧ r.2.node .database = .file backup.database ∧
      r.2.node .wal = files .wal := by
  obtain ⟨content, hcontent, hbackup⟩ := verified_eq_some hverified
  have hexists : decide (files .database ≠ .absent) = false := by simp [habsent]
  rw [restoreDatabase_eq (by rwa [hexists]) (by rw [habsent]; rfl) rfl rfl rfl, hexists]
  simp [finallyDo, onOsError, Process.handle, install, Process.bind_eq, call, verifyArchive, look,
    Volume.initial, hcontent, hbackup, edit, backUpExisting, removeStaging]

end Ends

/-- A restore is all or nothing under every fault exactly when the log is spent. -/
theorem restore_allOrNothing_iff {κ : Type} (sqlite : Sqlite κ) (ports : BackupPorts)
    (args : RestoreArguments) (files : RestorePath → Node) :
    (∀ faults, AllOrNothing sqlite ports args files
      (restoreDatabase sqlite ports faults args (.initial files))) ↔
      LogIsSpent sqlite ports args files := by
  constructor
  · intro hall
    refine ⟨fun main output bytes version hmain haccepted hverified houtput harchive hwal habsent
      hlink hdirectory => ?_, fun main bytes version hmain haccepted hverified houtput harchive
      habsent => ?_, fun backup habsent haccepted hverified => ?_⟩
    · obtain ⟨backup, hbackup⟩ := Option.ne_none_iff_exists'.mp hverified
      obtain ⟨herror, hinstalled, hdatabase, hlog⟩ := exists_removed sqlite hmain
        haccepted hbackup houtput harchive hwal habsent hlink hdirectory
      have h := (hall (onlyAt (.sidecarLink "-shm") .fails)).raised _ herror rfl hinstalled
      rwa [Volume.content, hdatabase, hlog, content_initial hmain] at h
    · obtain ⟨backup, hbackup⟩ := Option.ne_none_iff_exists'.mp hverified
      obtain ⟨herror, hinstalled, hdatabase, hlog⟩ := exists_overwritten sqlite hmain
        haccepted hbackup houtput harchive habsent
      have h := (hall (onlyAt .unlinkRollback .fails)).raised _ herror rfl hinstalled
      rwa [Volume.content, hdatabase, hlog, content_initial hmain] at h
    · obtain ⟨⟨report, hok⟩, hdatabase, hlog⟩ := exists_leftOver sqlite habsent
        haccepted hverified
      obtain ⟨other, hother, h⟩ := (hall fun _ => none).restored report hok
      obtain rfl := Option.some.inj (hverified.symm.trans hother)
      rwa [Volume.content, hdatabase, hlog] at h
  · intro hspent faults
    have hends : Process.Ends (restoreDatabase sqlite ports faults args) (.initial files)
        (fun _ => Restored sqlite ports args files) (Settled sqlite ports args files) :=
      ends_restoreDatabase hspent
    cases hrun : restoreDatabase sqlite ports faults args (.initial files) with
    | mk result w =>
      rw [Process.Ends, hrun] at hends
      cases result with
      | ok report =>
        obtain ⟨_, hrestored⟩ := hends
        exact ⟨.inr hrestored, fun _ he => absurd he (by simp), fun _ _ => hrestored⟩
      | error e =>
        obtain ⟨_, hunchanged⟩ | ⟨hinstalled, hrestored⟩ := hends
        · exact ⟨.inl hunchanged, fun _ _ _ _ => hunchanged, fun _ hok => absurd hok (by simp)⟩
        · exact ⟨.inr hrestored, fun _ _ _ hnot => absurd hinstalled (by rw [hnot]; simp),
            fun _ hok => absurd hok (by simp)⟩

/-- The bytes of a file. -/
def Node.bytes : Node → List UInt8
  | file bytes => bytes
  | _ => []

/-- A log that is appended to a database which is not empty. -/
def sampleSqlite : Sqlite (List UInt8) where
  content main wal := if main.bytes = [] then [] else main.bytes ++ wal.bytes
  readOnly _ wal := wal
  content_readOnly _ _ := rfl

def sampleBackup : VerifiedBackup := ⟨[3], 8, 8, "1.0.0", "0123abc"⟩

def sampleBackupPorts : BackupPorts := ⟨fun _ => .ok sampleBackup, .ok ([4], "1.0.0")⟩

/-- The options of a restore over a database that is there. -/
def sampleReplacement : RestoreArguments where
  archivePath := .elsewhere "backup.tar.gz"
  currentSourceBinding := true
  replace := true
  offlineConfirmed := true
  rollbackBackup := some (.elsewhere "rollback.tar.gz")
  safeParent := true

/-- A database whose last transaction is in its log. -/
def sampleFiles : RestorePath → Node
  | .database => .file [1]
  | .wal => .file [2]
  | .shm => .absent
  | .elsewhere path => if path = "backup.tar.gz" then .file [9] else .absent

theorem accepted_sampleReplacement : Accepted sampleReplacement true :=
  ⟨rfl, fun _ => ⟨rfl, rfl, by decide, rfl⟩, fun h => absurd h (by decide), by decide⟩

theorem not_restore_allOrNothing :
    ¬∀ (sqlite : Sqlite (List UInt8)) (ports : BackupPorts) (args : RestoreArguments)
      (files : RestorePath → Node) (faults : Faults), AllOrNothing sqlite ports args files
        (restoreDatabase sqlite ports faults args (.initial files)) := by
  intro hall
  have hverified : verified sampleBackupPorts sampleReplacement sampleFiles =
      some sampleBackup := rfl
  have hmain : sampleFiles .database = .file [1] := rfl
  have harchive : sampleBackupPorts.rollbackArchive = .ok ([4], "1.0.0") := rfl
  obtain ⟨herror, hinstalled, hdatabase, hlog⟩ := exists_removed sampleSqlite hmain
    accepted_sampleReplacement hverified rfl harchive (by decide) rfl rfl (by decide)
  have h := (hall sampleSqlite sampleBackupPorts sampleReplacement sampleFiles
    (onlyAt (.sidecarLink "-shm") .fails)).raised _ herror rfl hinstalled
  rw [Volume.content, hdatabase, hlog] at h
  exact absurd h (by decide)

end DigitalColleagues.BackupRestore
