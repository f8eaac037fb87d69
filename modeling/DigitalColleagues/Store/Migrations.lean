import DigitalColleagues.Core.Common
import DigitalColleagues.Lib.Connection
import Mathlib.Data.List.Sort

/-!
# Migrations of the database

`MigrationRunner` reads a manifest of numbered migrations and applies those that the
ledger `schema_migrations` does not list, each in a transaction of its own. The
content of a file, its digest and the meaning of a statement are parameters.

## Main definitions

- `MigrationLedger` — the rows of `schema_migrations`, by version
- `MigrationRunner.load` — the manifest, checked
- `MigrationRunner.apply` — the run
- `MigrationRunner.migrate` — what a migration does to the database
- `PrefixAtomic` — a run that leaves a prefix of the manifest applied
- `MigrationRunner.Safe` — the inputs on which every run does

## Main results

- `apply_prefixAtomic_iff` — runs are prefix-atomic exactly on safe inputs
-/

namespace DigitalColleagues

-- ═══════════════════════════════════════════════════════════════════
-- Manifest and ledger
-- ═══════════════════════════════════════════════════════════════════

structure Migration where
  version : ℤ
  name : String
  file : String
  checksum : String
deriving DecidableEq

/-- What a run raises; `κ` are the exceptions of a call of SQLite. -/
inductive MigrationException (κ : Type)
  | os
  | unicode
  | sqlite (error : κ)
  | migration (message : String)

/-- `except (OSError, UnicodeError, sqlite3.Error, ValueError)`. -/
def MigrationException.caught {κ : Type} : MigrationException κ → Bool
  | .os | .unicode | .sqlite _ => true
  | .migration _ => false

/-- The migrations on disk. `manifest` is the decoded `manifest.json`, if it is
    available and has the shape of a manifest. -/
structure MigrationDirectory where
  manifest : Option (ℤ × List Migration)
  bytes : String → Option (List UInt8)
  sqlFiles : List String
  sha256 : List UInt8 → String
  decode : List UInt8 → Option String

structure MigrationRow where
  version : ℤ
  name : String
  checksum : String
  appliedAt : Instant

def MigrationRow.identity (r : MigrationRow) : ℤ × String × String := (r.version, r.name, r.checksum)

def Migration.identity (m : Migration) : ℤ × String × String := (m.version, m.name, m.checksum)

/-- The rows of `schema_migrations`, whose primary key is the version, in its order. -/
structure MigrationLedger where
  rows : List MigrationRow
  sorted : (rows.map MigrationRow.version).Pairwise (· < ·)

namespace MigrationLedger

theorem sorted_insert (l : MigrationLedger) (r : MigrationRow) :
    ((l.rows.filter (fun x => decide (x.version < r.version)) ++
      r :: l.rows.filter (fun x => decide (r.version < x.version))).map
        MigrationRow.version).Pairwise (· < ·) := by
  have hsorted := List.pairwise_map.mp l.sorted
  rw [List.pairwise_map, List.pairwise_append, List.pairwise_cons]
  refine ⟨hsorted.filter _, ⟨fun x hx => ?_, hsorted.filter _⟩, fun x hx y hy => ?_⟩
  · exact of_decide_eq_true (List.mem_filter.mp hx).2
  · have hxr : x.version < r.version := of_decide_eq_true (List.mem_filter.mp hx).2
    obtain rfl | hy := List.mem_cons.mp hy
    · exact hxr
    · exact hxr.trans (of_decide_eq_true (List.mem_filter.mp hy).2)

/-- `INSERT INTO schema_migrations`. -/
def insert? (l : MigrationLedger) (r : MigrationRow) : Option MigrationLedger :=
  if r.version ∈ l.rows.map MigrationRow.version then none
  else some ⟨_, l.sorted_insert r⟩

/-- The ledger lists the given migrations and nothing else. -/
def Holds (l : MigrationLedger) (ms : List Migration) : Prop :=
  l.rows.map MigrationRow.identity = ms.map Migration.identity

/-- The ledger lists none but the given migrations. -/
def Accepted (l : MigrationLedger) (ms : List Migration) : Prop :=
  ∀ row ∈ l.rows, row.identity ∈ ms.map Migration.identity

/-- The migrations that the ledger does not list. -/
def pending (l : MigrationLedger) (ms : List Migration) : List Migration :=
  ms.filter fun m => decide (m.version ∉ l.rows.map MigrationRow.version)

theorem mem_insert? {l l' : MigrationLedger} {r : MigrationRow} (h : l.insert? r = some l') :
    r ∈ l'.rows := by
  unfold insert? at h
  split at h
  · exact absurd h (by simp)
  · obtain rfl := Option.some.inj h
    exact List.mem_append_right _ List.mem_cons_self

theorem subset_insert? {l l' : MigrationLedger} {r : MigrationRow} (h : l.insert? r = some l')
    {x : MigrationRow} (hx : x ∈ l.rows) : x ∈ l'.rows := by
  unfold insert? at h
  split at h
  · exact absurd h (by simp)
  · rename_i hnew
    obtain rfl := Option.some.inj h
    obtain hlt | heq | hgt := lt_trichotomy x.version r.version
    · exact List.mem_append_left _ (List.mem_filter.mpr ⟨hx, decide_eq_true hlt⟩)
    · exact absurd (heq ▸ List.mem_map_of_mem hx) hnew
    · exact List.mem_append_right _
        (List.mem_cons_of_mem r (List.mem_filter.mpr ⟨hx, decide_eq_true hgt⟩))

/-- A row later than all others goes to the end. -/
theorem rows_insert?_of_lt {l l' : MigrationLedger} {r : MigrationRow} (h : l.insert? r = some l')
    (hlast : ∀ x ∈ l.rows, x.version < r.version) : l'.rows = l.rows ++ [r] := by
  unfold insert? at h
  split at h
  · exact absurd h (by simp)
  · obtain rfl := Option.some.inj h
    have hbefore : l.rows.filter (fun x => decide (x.version < r.version)) = l.rows :=
      List.filter_eq_self.mpr fun x hx => decide_eq_true (hlast x hx)
    have hafter : l.rows.filter (fun x => decide (r.version < x.version)) = [] :=
      List.filter_eq_nil_iff.mpr fun x hx => by simpa using (hlast x hx).le
    simp only [hbefore, hafter]

end MigrationLedger

structure MigrationDatabase (σ : Type) where
  schema : σ
  ledger : MigrationLedger

-- ═══════════════════════════════════════════════════════════════════
-- Statements of a content
-- ═══════════════════════════════════════════════════════════════════

/-- The two classes of runners; the second one asks SQLite where a statement ends. -/
inductive StatementSplitter
  | base
  | p11 (completeStatement : String → Bool)

/-- One character of the loop of `_P11MigrationRunner._statements`. -/
def splitCharacter (completeStatement : String → Bool) (state : List String × String) (c : Char) :
    List String × String :=
  let buffer := state.2.push c
  if c = ';' ∧ completeStatement buffer = true then (state.1 ++ [strip buffer], "")
  else (state.1, buffer)

/-- `_statements`. -/
def StatementSplitter.statements {κ : Type} (content : String) :
    StatementSplitter → Except (MigrationException κ) (List String)
  | .base =>
    let statements := ((content.toList.splitOn ';').map fun part => strip (String.ofList part)).filter
      (· ≠ "")
    if statements = [] then .error (.migration "a migration contains no SQL statements")
    else .ok statements
  | .p11 completeStatement =>
    let split := content.toList.foldl (splitCharacter completeStatement) ([], "")
    if strip split.2 ≠ "" ∨ split.1 = [] then
      .error (.migration "a migration contains incomplete SQL")
    else .ok split.1

-- ═══════════════════════════════════════════════════════════════════
-- The runner
-- ═══════════════════════════════════════════════════════════════════

structure MigrationRunner (σ κ : Type) where
  directory : MigrationDirectory
  splitter : StatementSplitter
  db : SqlEngine (MigrationDatabase σ) κ
  /-- The error of an insert whose primary key is taken. -/
  integrityError : κ

namespace MigrationRunner

variable {σ κ : Type}

/-- `if c: raise MigrationError(message)`. -/
def refuse (c : Prop) [Decidable c] (message : String) : Except (MigrationException κ) Unit :=
  if c then .error (.migration message) else .ok ()

/-- The parts of a `PurePosixPath`. -/
def pathParts (path : String) : List (List Char) :=
  (path.toList.splitOn '/').filter fun part => part ≠ [] ∧ part ≠ ['.']

/-- `f"{position:03d}_{name}.sql"`. -/
def fileName (position : ℕ) (name : String) : String :=
  String.ofList ((toString position).toList.leftpad 3 '0') ++ "_" ++ name ++ ".sql"

variable (r : MigrationRunner σ κ)

/-- One entry of the manifest. -/
def loadEntry (position : ℕ) (m : Migration) : Except (MigrationException κ) Unit := do
  refuse (m.version ≠ position ∨ m.name = "" ∨ m.file.toList.head? = some '/' ∨
    (pathParts m.file).length ≠ 1 ∨
    (pathParts m.file).getLast? ≠ some (fileName position m.name).toList)
    "migration order or identity is invalid"
  match r.directory.bytes m.file with
  | none => .error (.migration "migration content is unavailable")
  | some content =>
    refuse (r.directory.sha256 content ≠ m.checksum)
      "migration checksum does not match immutable manifest"

def loadEntries : ℕ → List Migration → Except (MigrationException κ) Unit
  | _, [] => .ok ()
  | position, m :: ms => do
    r.loadEntry position m
    loadEntries (position + 1) ms

/-- `_load`. -/
def load : Except (MigrationException κ) (List Migration) :=
  match r.directory.manifest with
  | none => .error (.migration "migration manifest is unavailable or invalid")
  | some (schemaVersion, migrations) => do
    refuse (schemaVersion ≠ 1) "migration manifest version is unsupported"
    r.loadEntries 1 migrations
    refuse (migrations = []) "at least one migration is required"
    refuse (¬(r.directory.sqlFiles ⊆ migrations.map Migration.file ∧
      migrations.map Migration.file ⊆ r.directory.sqlFiles))
      "unmanifested or missing migration content was found"
    pure migrations

/-- `read_text(encoding="utf-8")`. -/
def readText (m : Migration) : Except (MigrationException κ) String :=
  match r.directory.bytes m.file with
  | none => .error .os
  | some content =>
    match r.directory.decode content with
    | none => .error .unicode
    | some text => .ok text

/-- The checks of `apply` on the rows of the ledger. -/
def checkLedger (migrations : List Migration) (rows : List MigrationRow) :
    Except (MigrationException κ) Unit := do
  refuse (∃ row ∈ rows, row.version < 1) "applied migration metadata is invalid"
  refuse ((rows.getLast?.any fun last =>
    migrations.getLast?.any fun m => decide (m.version < last.version)) = true)
    "database schema is newer than this runtime"
  refuse (∃ row ∈ rows, row.identity ∉ migrations.map Migration.identity)
    "an applied migration identity or checksum changed"

/-- A call of SQLite, as the runner sees it. -/
def sql {α : Type} (x : Process (Connection (MigrationDatabase σ)) κ α) :
    Process (Connection (MigrationDatabase σ)) (MigrationException κ) α :=
  x.mapError .sqlite

theorem sql_of_ok {α : Type} {x : Process (Connection (MigrationDatabase σ)) κ α}
    {c t : Connection (MigrationDatabase σ)} {a : α} (h : x c = (.ok a, t)) :
    sql x c = (.ok a, t) :=
  Process.mapError_of_ok MigrationException.sqlite h

theorem sql_of_error {α : Type} {x : Process (Connection (MigrationDatabase σ)) κ α}
    {c t : Connection (MigrationDatabase σ)} {e : κ} (h : x c = (.error e, t)) :
    sql x c = (.error (.sqlite e), t) :=
  Process.mapError_of_error MigrationException.sqlite h

/-- The row of an applied migration, added to the ledger. -/
def recordMigration (appliedAt : Instant) (m : Migration) (s : MigrationDatabase σ) :
    Except (SqlFault κ) (MigrationDatabase σ) :=
  match s.ledger.insert? ⟨m.version, m.name, m.checksum, appliedAt⟩ with
  | none => .error ⟨r.integrityError, false⟩
  | some ledger => .ok { s with ledger := ledger }

/-- `self._statements(content)`. -/
def statements (content : String) : Except (MigrationException κ) (List String) :=
  r.splitter.statements content

/-- The body of the `try` of `apply`. The splitter is called inside the transaction. -/
def tryMigration (appliedAt : Instant) (m : Migration) :
    Process (Connection (MigrationDatabase σ)) (MigrationException κ) Unit := do
  let content ← Process.lift (r.readText m)
  sql r.db.begin
  let statements ← Process.lift (r.statements content)
  sql (Process.each r.db.execute statements)
  sql (r.db.write (r.recordMigration appliedAt m))
  sql r.db.commit

/-- The handler of that `try`. -/
def rollBack (e : MigrationException κ) :
    Process (Connection (MigrationDatabase σ)) (MigrationException κ) Unit :=
  if e.caught then do
    Process.handle (sql r.db.rollback) fun _ => pure ()
    Process.raise (.migration "migration application failed atomically")
  else Process.raise e

def applyMigration (appliedAt : Instant) (m : Migration) :
    Process (Connection (MigrationDatabase σ)) (MigrationException κ) Unit :=
  (r.tryMigration appliedAt m).handle r.rollBack

/-- `apply`. A missing ledger is an empty one, so that `CREATE TABLE IF NOT EXISTS`
    changes nothing. -/
def apply (appliedAt : Instant) :
    Process (Connection (MigrationDatabase σ)) (MigrationException κ) (List Migration) := do
  let migrations ← Process.lift r.load
  sql (r.db.write .ok)
  let rows ← sql (r.db.query fun s => s.ledger.rows)
  Process.lift (checkLedger migrations rows)
  Process.each (fun m => if m.version ∉ rows.map MigrationRow.version then r.applyMigration appliedAt m
    else pure ()) migrations
  pure migrations

-- ═══════════════════════════════════════════════════════════════════
-- One migration
-- ═══════════════════════════════════════════════════════════════════

/-- What a migration does to the database, if it can be applied at all. -/
def migrate (appliedAt : Instant) (m : Migration) (s : MigrationDatabase σ) :
    Option (MigrationDatabase σ) := do
  let content ← (r.readText m).toOption
  let statements ← (r.statements content).toOption
  let changed ← (r.db.script statements s).toOption
  let recorded ← (r.recordMigration appliedAt m changed).toOption
  let _ ← (r.db.commits recorded).toOption
  pure recorded

/-- What migrations do, one after the other. -/
def migrateAll (appliedAt : Instant) (ms : List Migration) (s : MigrationDatabase σ) :
    Option (MigrationDatabase σ) :=
  ms.foldlM (fun s m => r.migrate appliedAt m s) s

/-- A content that can be read and that the splitter refuses. -/
def Refused (m : Migration) : Prop :=
  ∃ content e, r.readText m = .ok content ∧ r.statements content = .error e

/-- A content of plain statements, none of which writes the ledger. -/
def Plain (m : Migration) : Prop :=
  ∀ content statements, r.readText m = .ok content → r.statements content = .ok statements →
    ∀ x ∈ statements, r.db.IsPlain x ∧ ∀ s t, r.db.effect x s = .ok t → t.ledger = s.ledger

variable {r}

theorem not_caught_of_statements {content : String} {e : MigrationException κ}
    (h : r.statements content = .error e) : e.caught = false := by
  unfold statements at h
  cases hs : r.splitter with
  | base =>
    simp only [hs, StatementSplitter.statements] at h
    split at h
    · obtain rfl := Except.error.inj h
      rfl
    · exact absurd h (by simp)
  | p11 completeStatement =>
    simp only [hs, StatementSplitter.statements] at h
    split at h
    · obtain rfl := Except.error.inj h
      rfl
    · exact absurd h (by simp)

theorem caught_of_readText {m : Migration} {e : MigrationException κ}
    (h : r.readText m = .error e) : e.caught = true := by
  unfold readText at h
  split at h
  · obtain rfl := Except.error.inj h
    rfl
  · split at h
    · obtain rfl := Except.error.inj h
      rfl
    · exact absurd h (by simp)

/-- The handler rolls back what it catches. -/
theorem rollBack_of_caught {e : MigrationException κ} (he : e.caught = true)
    (c : Connection (MigrationDatabase σ)) :
    r.rollBack e c = (.error (.migration "migration application failed atomically"),
      ⟨c.committed, none, c.calls + 1⟩) := by
  have hsnd : (sql r.db.rollback c).2 = ⟨c.committed, none, c.calls + 1⟩ := by
    rw [sql, Process.mapError_snd, SqlEngine.rollback_snd]
  have hhandle : Process.handle (sql r.db.rollback) (fun _ => pure ()) c =
      (.ok (), ⟨c.committed, none, c.calls + 1⟩) := by
    rw [← hsnd]
    unfold Process.handle
    split <;> rename_i h <;> rw [h]
    rfl
  rw [rollBack, if_pos he, Process.bind_of_ok hhandle]
  rfl

/-- An exception that SQLite raises in the `try` ends the transaction. -/
theorem handle_of_sql {x : Process (Connection (MigrationDatabase σ)) (MigrationException κ) Unit}
    {c t : Connection (MigrationDatabase σ)} {e : MigrationException κ} (he : e.caught = true)
    (h : x c = (.error e, t)) :
    x.handle r.rollBack c = (.error (.migration "migration application failed atomically"),
      ⟨t.committed, none, t.calls + 1⟩) := by
  unfold Process.handle
  rw [h]
  exact rollBack_of_caught he t

/-- In a transaction, the statements and the row of a migration are committed as a
    whole, or not at all. -/
theorem statements_cases {appliedAt : Instant} {m : Migration} {statements : List String}
    (hplain : ∀ x ∈ statements, r.db.IsPlain x) {c : Connection (MigrationDatabase σ)}
    {s : MigrationDatabase σ} (hopen : c.working = some s) :
    (∃ changed recorded n, r.db.script statements s = .ok changed ∧
      r.recordMigration appliedAt m changed = .ok recorded ∧ r.db.commits recorded = .ok () ∧
      (do
        sql (Process.each r.db.execute statements)
        sql (r.db.write (r.recordMigration appliedAt m))
        sql r.db.commit) c = (.ok (), ⟨recorded, none, n⟩)) ∨
    ∃ e t, (do
        sql (Process.each r.db.execute statements)
        sql (r.db.write (r.recordMigration appliedAt m))
        sql r.db.commit) c = (.error (.sqlite e), t) ∧ t.committed = c.committed := by
  obtain ⟨changed, n, hscript, heach⟩ | ⟨e, t, heach, ht⟩ :=
    SqlEngine.each_execute_cases hplain hopen
  · rw [Process.bind_of_ok (sql_of_ok heach)]
    obtain ⟨recorded, hrecorded, hwrite⟩ | ⟨e, t, hwrite, ht⟩ :=
      @SqlEngine.write_cases _ _ r.db (r.recordMigration appliedAt m)
        ⟨c.committed, some changed, n⟩ changed rfl
    · rw [Process.bind_of_ok (sql_of_ok hwrite)]
      obtain ⟨hcommits, hcommit⟩ | ⟨e, t, hcommit, ht⟩ :=
        @SqlEngine.commit_cases _ _ r.db ⟨c.committed, some recorded, n + 1⟩ recorded rfl
      · exact .inl ⟨changed, recorded, _, hscript, hrecorded, hcommits,
          sql_of_ok hcommit⟩
      · exact .inr ⟨e, t, sql_of_error hcommit, ht⟩
    · exact .inr ⟨e, t, Process.bind_of_error
        (sql_of_error hwrite), ht⟩
  · exact .inr ⟨e, t, Process.bind_of_error
      (sql_of_error heach), ht⟩

theorem exceptToOption_eq_some {ε α : Type} {x : Except ε α} {a : α} :
    x.toOption = some a ↔ x = .ok a := by
  cases x <;> simp [Except.toOption]

/-- What a migration does is what its statements and its row do. -/
theorem migrate_eq_some {appliedAt : Instant} {m : Migration} {s t : MigrationDatabase σ} :
    r.migrate appliedAt m s = some t ↔ ∃ content statements changed, r.readText m = .ok content ∧
      r.statements content = .ok statements ∧ r.db.script statements s = .ok changed ∧
      r.recordMigration appliedAt m changed = .ok t ∧ r.db.commits t = .ok () := by
  simp only [migrate, Option.bind_eq_bind, Option.bind_eq_some_iff,
    exceptToOption_eq_some, pure,
    Option.some.injEq]
  constructor
  · rintro ⟨content, hread, statements, hsplit, changed, hscript, recorded, hrecord, _, hcommits,
      rfl⟩
    exact ⟨content, statements, changed, hread, hsplit, hscript, hrecord, hcommits⟩
  · rintro ⟨content, statements, changed, hread, hsplit, hscript, hrecord, hcommits⟩
    exact ⟨content, hread, statements, hsplit, changed, hscript, t, hrecord, (), hcommits, rfl⟩

/-- From a connection without a transaction, a migration is applied as a whole, or not
    at all. A content that the splitter refuses leaves its transaction open. -/
theorem applyMigration_cases {appliedAt : Instant} {m : Migration} (hplain : r.Plain m)
    {c : Connection (MigrationDatabase σ)} (hclosed : c.working = none) :
    (∃ s n, r.migrate appliedAt m c.committed = some s ∧
      r.applyMigration appliedAt m c = (.ok (), ⟨s, none, n⟩)) ∨
    (∃ e n, r.applyMigration appliedAt m c = (.error e, ⟨c.committed, none, n⟩)) ∨
    (r.Refused m ∧ ∃ e n,
      r.applyMigration appliedAt m c = (.error e, ⟨c.committed, some c.committed, n⟩)) := by
  have hfails : ∀ e t, r.tryMigration appliedAt m c = (.error e, t) → e.caught = true →
      t.committed = c.committed →
      ∃ e n, r.applyMigration appliedAt m c = (.error e, ⟨c.committed, none, n⟩) := by
    intro e t h he ht
    exact ⟨_, t.calls + 1, ht ▸ (Process.handle_of_error h).trans (rollBack_of_caught he t)⟩
  cases hread : r.readText m with
  | error e =>
    have hlift : Process.lift (r.readText m) c = (.error e, c) := by rw [hread]; rfl
    exact .inr (.inl (hfails e c (Process.bind_of_error hlift) (caught_of_readText hread) rfl))
  | ok content =>
    have hlift : Process.lift (r.readText m) c = (.ok content, c) := by rw [hread]; rfl
    obtain hbegin | ⟨e, hbegin⟩ := @SqlEngine.begin_cases _ _ r.db c hclosed
    · have hopened := sql_of_ok hbegin
      let started : Connection (MigrationDatabase σ) :=
        ⟨c.committed, some c.committed, c.calls + 1⟩
      have htry : r.tryMigration appliedAt m c = (Process.lift (r.statements content) >>=
          fun statements => do
            sql (Process.each r.db.execute statements)
            sql (r.db.write (r.recordMigration appliedAt m))
            sql r.db.commit) started := by
        rw [tryMigration, Process.bind_of_ok hlift]
        exact Process.bind_of_ok hopened
      cases hsplit : r.statements content with
      | error e =>
        have hsplit' : Process.lift (r.statements content) started = (.error e, started) := by
          rw [hsplit]
          rfl
        refine .inr (.inr ⟨⟨content, e, hread, hsplit⟩, e, c.calls + 1, ?_⟩)
        rw [applyMigration, Process.handle_of_error (htry.trans (Process.bind_of_error hsplit')),
          rollBack, if_neg (by simp [not_caught_of_statements hsplit])]
        rfl
      | ok statements =>
        have hsplit' : Process.lift (r.statements content) started = (.ok statements, started) := by
          rw [hsplit]
          rfl
        rw [Process.bind_of_ok hsplit'] at htry
        obtain ⟨changed, recorded, n, hscript, hrecord, hcommits, hdone⟩ | ⟨e, t, hfail, ht⟩ :=
          @statements_cases _ _ r appliedAt m statements
            (fun x hx => (hplain content statements hread hsplit x hx).1) started c.committed rfl
        · refine .inl ⟨recorded, n, ?_, Process.handle_of_ok (htry.trans hdone)⟩
          exact migrate_eq_some.mpr ⟨content, statements, changed, hread, hsplit, hscript, hrecord,
            hcommits⟩
        · exact .inr (.inl (hfails _ t (htry.trans hfail) rfl ht))
    · refine .inr (.inl (hfails (.sqlite e) ⟨c.committed, none, c.calls + 1⟩ ?_ rfl rfl))
      rw [tryMigration, Process.bind_of_ok hlift]
      exact Process.bind_of_error (sql_of_error hbegin)

-- ═══════════════════════════════════════════════════════════════════
-- The loop
-- ═══════════════════════════════════════════════════════════════════

/-- The loop applies the first of the migrations, and stops at one that fails. -/
theorem each_applyMigration_cases {appliedAt : Instant} {ms : List Migration}
    (hplain : ∀ m ∈ ms, r.Plain m) {c : Connection (MigrationDatabase σ)}
    (hclosed : c.working = none) :
    ∃ done rest s, ms = done ++ rest ∧ r.migrateAll appliedAt done c.committed = some s ∧
      ((rest = [] ∧ ∃ n, Process.each (r.applyMigration appliedAt) ms c = (.ok (), ⟨s, none, n⟩)) ∨
      (rest ≠ [] ∧ ∃ e n,
        Process.each (r.applyMigration appliedAt) ms c = (.error e, ⟨s, none, n⟩)) ∨
      (∃ m after, rest = m :: after ∧ r.Refused m ∧ ∃ e n,
        Process.each (r.applyMigration appliedAt) ms c = (.error e, ⟨s, some s, n⟩))) := by
  induction ms generalizing c with
  | nil => exact ⟨[], [], c.committed, rfl, rfl, .inl ⟨rfl, c.calls, by rw [← hclosed]; rfl⟩⟩
  | cons m ms ih =>
    have hrest : ∀ m' ∈ ms, r.Plain m' := fun m' hm' => hplain m' (List.mem_cons_of_mem m hm')
    obtain ⟨s₁, n, hmigrate, hdone⟩ | ⟨e, n, hfail⟩ | ⟨hrefused, e, n, hfail⟩ :=
      applyMigration_cases (hplain m List.mem_cons_self) hclosed
    · obtain ⟨done, rest, s, rfl, hall, hcases⟩ := @ih hrest ⟨s₁, none, n⟩ rfl
      have heach : Process.each (r.applyMigration appliedAt) (m :: (done ++ rest)) c =
          Process.each (r.applyMigration appliedAt) (done ++ rest) ⟨s₁, none, n⟩ := by
        rw [Process.each, Process.bind_of_ok hdone]
      refine ⟨m :: done, rest, s, rfl, ?_, ?_⟩
      · rw [migrateAll, List.foldlM_cons, hmigrate]
        exact hall
      · rw [heach]
        exact hcases
    · refine ⟨[], m :: ms, c.committed, rfl, rfl, .inr (.inl ⟨by simp, e, n, ?_⟩)⟩
      rw [Process.each, Process.bind_of_error hfail]
    · refine ⟨[], m :: ms, c.committed, rfl, rfl, .inr (.inr ⟨m, ms, rfl, hrefused, e, n, ?_⟩)⟩
      rw [Process.each, Process.bind_of_error hfail]

/-- Without outside faults, migrations that can be applied are applied. -/
theorem applyMigration_of_migrate (hfaults : ∀ n, r.db.faults n = none) {appliedAt : Instant}
    {m : Migration} (hplain : r.Plain m) {c : Connection (MigrationDatabase σ)}
    {s : MigrationDatabase σ} (hclosed : c.working = none)
    (h : r.migrate appliedAt m c.committed = some s) :
    ∃ n, r.applyMigration appliedAt m c = (.ok (), ⟨s, none, n⟩) := by
  obtain ⟨content, statements, changed, hread, hsplit, hscript, hrecord, hcommits⟩ :=
    migrate_eq_some.mp h
  have hlift : Process.lift (r.readText m) c = (.ok content, c) := by rw [hread]; rfl
  have hopened := sql_of_ok (SqlEngine.begin_of_closed hfaults hclosed)
  let started : Connection (MigrationDatabase σ) := ⟨c.committed, some c.committed, c.calls + 1⟩
  have hsplit' : Process.lift (r.statements content) started = (.ok statements, started) := by
    rw [hsplit]
    rfl
  obtain ⟨n, heach⟩ := @SqlEngine.each_execute_of_ok _ _ r.db hfaults statements
    (fun x hx => (hplain content statements hread hsplit x hx).1) started c.committed changed rfl
    hscript
  have hwrite := @SqlEngine.write_of_ok _ _ r.db hfaults (r.recordMigration appliedAt m)
    ⟨started.committed, some changed, n⟩ changed s rfl hrecord
  have hcommit := @SqlEngine.commit_of_ok _ _ r.db hfaults
    ⟨started.committed, some s, n + 1⟩ s rfl hcommits
  refine ⟨n + 1 + 1, Process.handle_of_ok ?_⟩
  rw [tryMigration, Process.bind_of_ok hlift, Process.bind_of_ok hopened,
    Process.bind_of_ok hsplit', Process.bind_of_ok (sql_of_ok heach),
    Process.bind_of_ok (sql_of_ok hwrite)]
  exact sql_of_ok hcommit

theorem applyMigration_of_refused (hfaults : ∀ n, r.db.faults n = none) {appliedAt : Instant}
    {m : Migration} {c : Connection (MigrationDatabase σ)} (hclosed : c.working = none)
    (h : r.Refused m) :
    ∃ e n, r.applyMigration appliedAt m c = (.error e, ⟨c.committed, some c.committed, n⟩) := by
  obtain ⟨content, e, hread, hsplit⟩ := h
  have hlift : Process.lift (r.readText m) c = (.ok content, c) := by rw [hread]; rfl
  have hopened := sql_of_ok (SqlEngine.begin_of_closed hfaults hclosed)
  let started : Connection (MigrationDatabase σ) := ⟨c.committed, some c.committed, c.calls + 1⟩
  have hsplit' : Process.lift (r.statements content) started = (.error e, started) := by
    rw [hsplit]
    rfl
  refine ⟨e, c.calls + 1, ?_⟩
  have htry : r.tryMigration appliedAt m c = (.error e, started) := by
    rw [tryMigration, Process.bind_of_ok hlift, Process.bind_of_ok hopened]
    exact Process.bind_of_error hsplit'
  rw [applyMigration, Process.handle_of_error htry, rollBack,
    if_neg (by simp [not_caught_of_statements hsplit])]
  rfl

theorem each_of_migrateAll (hfaults : ∀ n, r.db.faults n = none) {appliedAt : Instant}
    {ms : List Migration} (hplain : ∀ m ∈ ms, r.Plain m) {c : Connection (MigrationDatabase σ)}
    {s : MigrationDatabase σ} (hclosed : c.working = none)
    (h : r.migrateAll appliedAt ms c.committed = some s) :
    ∃ n, Process.each (r.applyMigration appliedAt) ms c = (.ok (), ⟨s, none, n⟩) := by
  induction ms generalizing c with
  | nil =>
    obtain rfl : c.committed = s := Option.some.inj h
    exact ⟨c.calls, by rw [← hclosed]; rfl⟩
  | cons m ms ih =>
    rw [migrateAll, List.foldlM_cons, Option.bind_eq_bind, Option.bind_eq_some_iff] at h
    obtain ⟨s₁, hmigrate, hrest⟩ := h
    obtain ⟨n, hdone⟩ := applyMigration_of_migrate hfaults (hplain m List.mem_cons_self) hclosed
      hmigrate
    rw [Process.each, Process.bind_of_ok hdone]
    exact @ih (fun m' hm' => hplain m' (List.mem_cons_of_mem m hm')) ⟨s₁, none, n⟩ rfl hrest

-- ═══════════════════════════════════════════════════════════════════
-- The ledger
-- ═══════════════════════════════════════════════════════════════════

/-- The order of a manifest: versions count up from one. -/
structure InOrder (ms : List Migration) : Prop where
  positive : ∀ m ∈ ms, 1 ≤ m.version
  increasing : ms.Pairwise fun m m' => m.version < m'.version

/-- A plain migration adds its row and nothing else to the ledger. -/
theorem insert?_of_migrate {appliedAt : Instant} {m : Migration} (hplain : r.Plain m)
    {s t : MigrationDatabase σ} (h : r.migrate appliedAt m s = some t) :
    s.ledger.insert? ⟨m.version, m.name, m.checksum, appliedAt⟩ = some t.ledger := by
  obtain ⟨content, statements, changed, hread, hsplit, hscript, hrecord, _⟩ := migrate_eq_some.mp h
  have hkept : changed.ledger = s.ledger :=
    SqlEngine.script_keeps MigrationDatabase.ledger
      (fun x hx => (hplain content statements hread hsplit x hx).2) hscript
  unfold recordMigration at hrecord
  split at hrecord
  · exact absurd hrecord (by simp)
  · rename_i ledger hinsert
    obtain rfl := Except.ok.inj hrecord
    rw [← hkept]
    exact hinsert

theorem versions_of_holds {l : MigrationLedger} {ms : List Migration} (h : l.Holds ms) :
    l.rows.map MigrationRow.version = ms.map Migration.version := by
  have hfst := congrArg (List.map Prod.fst) h
  rw [List.map_map, List.map_map] at hfst
  exact hfst

/-- Migrations later than all that the ledger lists go to its end, one after the other. -/
theorem holds_of_migrateAll {appliedAt : Instant} {before done : List Migration}
    (hplain : ∀ m ∈ done, r.Plain m)
    (horder : (before ++ done).Pairwise fun m m' => m.version < m'.version)
    {s t : MigrationDatabase σ} (hs : s.ledger.Holds before)
    (h : r.migrateAll appliedAt done s = some t) : t.ledger.Holds (before ++ done) := by
  induction done generalizing before s with
  | nil =>
    obtain rfl : s = t := Option.some.inj h
    rwa [List.append_nil]
  | cons m done ih =>
    rw [migrateAll, List.foldlM_cons, Option.bind_eq_bind, Option.bind_eq_some_iff] at h
    obtain ⟨s₁, hmigrate, hrest⟩ := h
    have hlast : ∀ x ∈ s.ledger.rows, x.version < m.version := by
      intro x hx
      have hversion := List.mem_map_of_mem (f := MigrationRow.version) hx
      rw [versions_of_holds hs] at hversion
      obtain ⟨m', hm', heq⟩ := List.mem_map.mp hversion
      rw [← heq]
      exact (List.pairwise_append.mp horder).2.2 m' hm' m List.mem_cons_self
    have hrows := MigrationLedger.rows_insert?_of_lt
      (insert?_of_migrate (hplain m List.mem_cons_self) hmigrate) hlast
    have hs₁ : s₁.ledger.Holds (before ++ [m]) := by
      rw [MigrationLedger.Holds, hrows, List.map_append, List.map_append, hs]
      rfl
    rw [List.append_cons] at horder ⊢
    exact ih (fun m' hm' => hplain m' (List.mem_cons_of_mem m hm')) horder hs₁ hrest

/-- What a ledger lists stays listed. -/
theorem subset_of_migrateAll {appliedAt : Instant} {ms : List Migration}
    (hplain : ∀ m ∈ ms, r.Plain m) {s t : MigrationDatabase σ}
    (h : r.migrateAll appliedAt ms s = some t) {x : MigrationRow} (hx : x ∈ s.ledger.rows) :
    x ∈ t.ledger.rows := by
  induction ms generalizing s with
  | nil =>
    obtain rfl : s = t := Option.some.inj h
    exact hx
  | cons m ms ih =>
    rw [migrateAll, List.foldlM_cons, Option.bind_eq_bind, Option.bind_eq_some_iff] at h
    obtain ⟨s₁, hmigrate, hrest⟩ := h
    exact ih (fun m' hm' => hplain m' (List.mem_cons_of_mem m hm')) hrest
      (MigrationLedger.subset_insert? (insert?_of_migrate (hplain m List.mem_cons_self) hmigrate) hx)

/-- Behind a prefix of the manifest, the rest of it is pending. -/
theorem pending_of_holds {l : MigrationLedger} {before after : List Migration}
    (horder : (before ++ after).Pairwise fun m m' => m.version < m'.version)
    (h : l.Holds before) : l.pending (before ++ after) = after := by
  have hbefore : before.filter (fun m => decide (m.version ∉ l.rows.map MigrationRow.version)) =
      [] := by
    refine List.filter_eq_nil_iff.mpr fun m hm => ?_
    rw [versions_of_holds h]
    simpa using ⟨m, hm, rfl⟩
  have hafter : after.filter (fun m => decide (m.version ∉ l.rows.map MigrationRow.version)) =
      after := by
    refine List.filter_eq_self.mpr fun m hm => decide_eq_true ?_
    rw [versions_of_holds h]
    intro hmem
    obtain ⟨m', hm', heq⟩ := List.mem_map.mp hmem
    exact absurd heq ((List.pairwise_append.mp horder).2.2 m' hm' m hm).ne
  rw [MigrationLedger.pending, List.filter_append, hbefore, hafter, List.nil_append]

theorem accepted_of_holds {l : MigrationLedger} {before after : List Migration}
    (h : l.Holds before) : l.Accepted (before ++ after) := by
  intro row hrow
  have hmem := List.mem_map_of_mem (f := MigrationRow.identity) hrow
  rw [h] at hmem
  rw [List.map_append]
  exact List.mem_append_left _ hmem

/-- A ledger that lists none but the migrations of a manifest, and all of them, lists
    them in order. -/
theorem holds_of_pending_eq_nil {l : MigrationLedger} {ms : List Migration} (horder : InOrder ms)
    (haccepted : l.Accepted ms) (hpending : l.pending ms = []) : l.Holds ms := by
  let earlier : ℤ × String × String → ℤ × String × String → Prop := fun a b => a.1 < b.1
  have hirrefl : Std.Irrefl earlier := ⟨fun a => lt_irrefl a.1⟩
  have hantisymm : Std.Antisymm earlier := ⟨fun a b hab hba => absurd hab hba.le.not_gt⟩
  have hrows : (l.rows.map MigrationRow.identity).Pairwise earlier :=
    List.pairwise_map.mpr ((List.pairwise_map.mp l.sorted).imp id)
  have hms : (ms.map Migration.identity).Pairwise earlier :=
    List.pairwise_map.mpr horder.increasing
  refine hrows.eq_of_mem_iff hms fun a => ⟨fun ha => ?_, fun ha => ?_⟩
  · obtain ⟨row, hrow, rfl⟩ := List.mem_map.mp ha
    exact haccepted row hrow
  · obtain ⟨m, hm, rfl⟩ := List.mem_map.mp ha
    have hlisted := List.filter_eq_nil_iff.mp hpending m hm
    simp only [decide_eq_true_eq, not_not] at hlisted
    obtain ⟨row, hrow, hversion⟩ := List.mem_map.mp hlisted
    obtain ⟨m', hm', hidentity⟩ := List.mem_map.mp (haccepted row hrow)
    have hsame : m'.version = m.version := (congrArg Prod.fst hidentity).trans hversion
    have hnodup : (ms.map Migration.version).Nodup :=
      (List.pairwise_map.mpr horder.increasing).imp ne_of_lt
    obtain rfl := List.inj_on_of_nodup_map hnodup hm' hm hsame
    exact hidentity ▸ List.mem_map_of_mem hrow

-- ═══════════════════════════════════════════════════════════════════
-- The manifest
-- ═══════════════════════════════════════════════════════════════════

theorem refuse_eq_ok {c : Prop} [Decidable c] {message : String} {u : Unit} :
    (refuse c message : Except (MigrationException κ) Unit) = .ok u ↔ ¬c := by
  unfold refuse
  split <;> simp_all

theorem exceptBind_eq_ok {ε α β : Type} {x : Except ε α} {f : α → Except ε β} {b : β} :
    (x >>= f) = .ok b ↔ ∃ a, x = .ok a ∧ f a = .ok b := by
  cases x <;> simp [bind, Except.bind]

theorem version_of_loadEntry {position : ℕ} {m : Migration} (h : r.loadEntry position m = .ok ()) :
    m.version = position := by
  unfold loadEntry at h
  rw [exceptBind_eq_ok] at h
  obtain ⟨_, hentry, _⟩ := h
  have hne := refuse_eq_ok.mp hentry
  by_contra hversion
  exact hne (.inl hversion)

/-- The entries of a manifest are numbered from the first position on. -/
theorem inOrder_of_loadEntries {position : ℕ} {ms : List Migration}
    (h : r.loadEntries position ms = .ok ()) :
    (∀ m ∈ ms, (position : ℤ) ≤ m.version) ∧
      ms.Pairwise fun m m' => m.version < m'.version := by
  induction ms generalizing position with
  | nil => exact ⟨fun m hm => absurd hm (List.not_mem_nil), List.Pairwise.nil⟩
  | cons m ms ih =>
    rw [loadEntries, exceptBind_eq_ok] at h
    obtain ⟨_, hentry, hrest⟩ := h
    have hversion := version_of_loadEntry hentry
    obtain ⟨hlater, hincreasing⟩ := ih hrest
    refine ⟨fun m' hm' => ?_, List.pairwise_cons.mpr ⟨fun m' hm' => ?_, hincreasing⟩⟩
    · obtain rfl | hm' := List.mem_cons.mp hm'
      · exact hversion.ge
      · have hle := hlater m' hm'
        omega
    · have hle := hlater m' hm'
      omega

theorem inOrder_of_load {ms : List Migration} (h : r.load = .ok ms) : InOrder ms := by
  unfold load at h
  split at h
  · exact absurd h (by simp)
  · simp only [exceptBind_eq_ok] at h
    obtain ⟨_, _, _, hentries, _, _, _, _, hms⟩ := h
    obtain rfl := Except.ok.inj hms
    obtain ⟨hpositive, hincreasing⟩ := inOrder_of_loadEntries hentries
    exact ⟨by simpa using hpositive, hincreasing⟩

/-- The checks pass exactly for a ledger that lists none but the migrations. -/
theorem checkLedger_eq_ok {ms : List Migration} (horder : InOrder ms) {l : MigrationLedger} :
    (checkLedger ms l.rows : Except (MigrationException κ) Unit) = .ok () ↔ l.Accepted ms := by
  have hrow : l.Accepted ms → ∀ row ∈ l.rows, ∃ m ∈ ms, m.version = row.version := by
    intro haccepted row hrow
    obtain ⟨m, hm, hidentity⟩ := List.mem_map.mp (haccepted row hrow)
    exact ⟨m, hm, congrArg Prod.fst hidentity⟩
  simp only [checkLedger, exceptBind_eq_ok, refuse_eq_ok]
  constructor
  · rintro ⟨_, _, _, _, hlisted⟩ row hrow
    by_contra hnot
    exact hlisted ⟨row, hrow, hnot⟩
  · intro haccepted
    refine ⟨(), ?_, (), ?_, ?_⟩
    · rintro ⟨row, hmem, hlt⟩
      obtain ⟨m, hm, hversion⟩ := hrow haccepted row hmem
      have hpositive := horder.positive m hm
      omega
    · intro hnewer
      simp only [Option.any_eq_true, decide_eq_true_eq] at hnewer
      obtain ⟨row, hlast, last, hms, hlt⟩ := hnewer
      obtain ⟨m, hm, hversion⟩ := hrow haccepted row (List.mem_of_getLast? hlast)
      obtain ⟨init, rfl⟩ := List.getLast?_eq_some_iff.mp hms
      obtain hinit | hlast' := List.mem_append.mp hm
      · have hbefore := (List.pairwise_append.mp horder.increasing).2.2 m hinit last (by simp)
        omega
      · obtain rfl := List.mem_singleton.mp hlast'
        omega
    · rintro ⟨row, hmem, hnot⟩
      exact hnot (haccepted row hmem)

-- ═══════════════════════════════════════════════════════════════════
-- Whole runs
-- ═══════════════════════════════════════════════════════════════════

/-- A run from `s` left a prefix of the manifest applied and no transaction open. It
    returned only after all of it, and did nothing where `s` did not list a prefix. -/
structure PrefixAtomic (r : MigrationRunner σ κ) (appliedAt : Instant) (ms : List Migration)
    (s : MigrationDatabase σ) (result : Except (MigrationException κ) (List Migration))
    (c : Connection (MigrationDatabase σ)) : Prop where
  closed : c.working = none
  applied : ∀ k ≤ ms.length, s.ledger.Holds (ms.take k) →
    ∃ k', k ≤ k' ∧ k' ≤ ms.length ∧ c.committed.ledger.Holds (ms.take k') ∧
      r.migrateAll appliedAt ((ms.take k').drop k) s = some c.committed
  returned : ∀ v, result = .ok v → c.committed.ledger.Holds ms
  unlisted : (∀ k, ¬s.ledger.Holds (ms.take k)) → (∃ e, result = .error e) ∧ c.committed = s

/-- The splitter refuses no migration that is reached, and where the ledger has a gap,
    the migration in the gap cannot be applied anyway. -/
structure Safe (r : MigrationRunner σ κ) (appliedAt : Instant) (ms : List Migration)
    (s : MigrationDatabase σ) : Prop where
  split : s.ledger.Accepted ms → ∀ before m after, s.ledger.pending ms = before ++ m :: after →
    (∃ t, r.migrateAll appliedAt before s = some t) → ¬r.Refused m
  gapless : s.ledger.Accepted ms → (∃ k, s.ledger.Holds (ms.take k)) ∨
    ∀ m, (s.ledger.pending ms).head? = some m → r.migrate appliedAt m s = none

/-- The same runner, with given failures from outside. -/
def withFaults (r : MigrationRunner σ κ) (faults : ℕ → Option (SqlFault κ)) :
    MigrationRunner σ κ :=
  { r with db := { r.db with faults := faults } }

/-- A run fails before its loop and changes nothing, or is its loop. -/
theorem apply_cases {appliedAt : Instant} {ms : List Migration} (hload : r.load = .ok ms)
    (s : MigrationDatabase σ) (calls : ℕ) :
    (∃ e n, r.apply appliedAt ⟨s, none, calls⟩ = (.error e, ⟨s, none, n⟩)) ∨
    s.ledger.Accepted ms ∧ ∃ n, r.apply appliedAt ⟨s, none, calls⟩ =
      (Process.each (r.applyMigration appliedAt) (s.ledger.pending ms) >>= fun _ => pure ms)
        ⟨s, none, n⟩ := by
  have hlift : Process.lift r.load (⟨s, none, calls⟩ : Connection (MigrationDatabase σ)) =
      (.ok ms, ⟨s, none, calls⟩) := by
    rw [hload]
    rfl
  rw [apply, Process.bind_of_ok hlift]
  obtain hcreate | ⟨e, hcreate⟩ := @SqlEngine.touch_cases _ _ r.db ⟨s, none, calls⟩ rfl
  · rw [Process.bind_of_ok (sql_of_ok hcreate)]
    obtain htouch | ⟨e, htouch⟩ := @SqlEngine.touch_cases _ _ r.db ⟨s, none, calls + 1⟩ rfl
    · rw [Process.bind_of_ok (sql_of_ok (SqlEngine.query_of_touch (fun s => s.ledger.rows) htouch))]
      cases hcheck : (checkLedger ms s.ledger.rows : Except (MigrationException κ) Unit) with
      | error e => exact .inl ⟨e, calls + 1 + 1, Process.bind_of_error rfl⟩
      | ok _ =>
        refine .inr ⟨(checkLedger_eq_ok (inOrder_of_load hload)).mp hcheck, calls + 1 + 1, ?_⟩
        rw [Process.each_ite]
        exact Process.bind_of_ok rfl
    · exact .inl ⟨.sqlite e, calls + 1 + 1,
        Process.bind_of_error (sql_of_error (Process.bind_of_error htouch))⟩
  · exact .inl ⟨.sqlite e, calls + 1, Process.bind_of_error (sql_of_error hcreate)⟩

/-- Without outside faults, a run over an accepted ledger is its loop. -/
theorem apply_of_accepted (hfaults : ∀ n, r.db.faults n = none) {appliedAt : Instant}
    {ms : List Migration} (hload : r.load = .ok ms) {s : MigrationDatabase σ}
    (haccepted : s.ledger.Accepted ms) (calls : ℕ) :
    ∃ n, r.apply appliedAt ⟨s, none, calls⟩ =
      (Process.each (r.applyMigration appliedAt) (s.ledger.pending ms) >>= fun _ => pure ms)
        ⟨s, none, n⟩ := by
  have hlift : Process.lift r.load (⟨s, none, calls⟩ : Connection (MigrationDatabase σ)) =
      (.ok ms, ⟨s, none, calls⟩) := by
    rw [hload]
    rfl
  have hcheck : (checkLedger ms s.ledger.rows : Except (MigrationException κ) Unit) = .ok () :=
    (checkLedger_eq_ok (inOrder_of_load hload)).mpr haccepted
  have hcreate := @SqlEngine.touch_of_closed _ _ r.db hfaults ⟨s, none, calls⟩ rfl
  have htouch := @SqlEngine.touch_of_closed _ _ r.db hfaults ⟨s, none, calls + 1⟩ rfl
  refine ⟨calls + 1 + 1, ?_⟩
  rw [apply, Process.bind_of_ok hlift, Process.bind_of_ok (sql_of_ok hcreate),
    Process.bind_of_ok (sql_of_ok (SqlEngine.query_of_touch (fun s => s.ledger.rows) htouch)),
    Process.each_ite, hcheck]
  exact Process.bind_of_ok rfl

/-- Every run from a safe input is prefix-atomic. -/
theorem prefixAtomic_of_safe {appliedAt : Instant} {ms : List Migration} (hload : r.load = .ok ms)
    (hplain : ∀ m ∈ ms, r.Plain m) {s : MigrationDatabase σ} (hsafe : r.Safe appliedAt ms s)
    (calls : ℕ) :
    r.PrefixAtomic appliedAt ms s (r.apply appliedAt ⟨s, none, calls⟩).1
      (r.apply appliedAt ⟨s, none, calls⟩).2 := by
  have horder := inOrder_of_load hload
  obtain ⟨e, n, hfail⟩ | ⟨haccepted, n, hloop⟩ := apply_cases hload s calls
  · rw [hfail]
    exact {
      closed := rfl
      applied := fun k hk hs => ⟨k, le_rfl, hk, hs, by rw [List.drop_take_self]; rfl⟩
      returned := fun v hv => absurd hv (by simp)
      unlisted := fun _ => ⟨⟨e, rfl⟩, rfl⟩ }
  · have hplain' : ∀ m ∈ s.ledger.pending ms, r.Plain m :=
      fun m hm => hplain m (List.mem_filter.mp hm).1
    obtain ⟨done, rest, t, hpending, hall, hcases⟩ :=
      @each_applyMigration_cases _ _ r appliedAt _ hplain' ⟨s, none, n⟩ rfl
    have hplainDone : ∀ m ∈ done, r.Plain m := by
      intro m hm
      exact hplain' m (hpending ▸ List.mem_append_left rest hm)
    obtain ⟨result, n', hends, hresult⟩ : ∃ result n',
        r.apply appliedAt ⟨s, none, calls⟩ = (result, ⟨t, none, n'⟩) ∧
          (rest = [] ∧ result = .ok ms ∨ rest ≠ [] ∧ ∃ e, result = .error e) := by
      rw [hloop]
      obtain ⟨hrest, n', heach⟩ | ⟨hrest, e, n', heach⟩ | ⟨m, after, rfl, hrefused, _⟩ := hcases
      · exact ⟨.ok ms, n', Process.bind_of_ok heach, .inl ⟨hrest, rfl⟩⟩
      · exact ⟨.error e, n', Process.bind_of_error heach, .inr ⟨hrest, e, rfl⟩⟩
      · exact absurd hrefused (hsafe.split haccepted done m after hpending ⟨t, hall⟩)
    -- Where the ledger is no prefix, the loop stopped at once.
    have hstuck : (∀ k, ¬s.ledger.Holds (ms.take k)) → done = [] ∧ rest ≠ [] := by
      intro hnone
      have hne : s.ledger.pending ms ≠ [] := by
        intro hnil
        have hall := holds_of_pending_eq_nil horder haccepted hnil
        exact hnone ms.length (by rwa [List.take_length])
      obtain ⟨k, hk⟩ | hfirst := hsafe.gapless haccepted
      · exact absurd hk (hnone k)
      · cases done with
        | nil => exact ⟨rfl, by rwa [hpending, List.nil_append] at hne⟩
        | cons m done =>
          rw [migrateAll, List.foldlM_cons, hfirst m (by rw [hpending]; rfl)] at hall
          exact absurd hall (by simp)
    have hprefix : ∀ k, s.ledger.Holds (ms.take k) → ms.take k ++ done ++ rest = ms ∧
        t.ledger.Holds (ms.take k ++ done) := by
      intro k hk
      have hdrop : s.ledger.pending ms = ms.drop k := by
        conv_lhs => rw [← List.take_append_drop k ms]
        exact pending_of_holds (by rw [List.take_append_drop]; exact horder.increasing) hk
      have hsplit : ms.take k ++ done ++ rest = ms := by
        rw [List.append_assoc, ← hpending, hdrop, List.take_append_drop]
      refine ⟨hsplit, holds_of_migrateAll hplainDone ?_ hk hall⟩
      exact (List.pairwise_append.mp (hsplit.symm ▸ horder.increasing)).1
    rw [hends]
    refine ⟨rfl, fun k hk hs => ?_, fun v hv => ?_, fun hnone => ?_⟩
    · obtain ⟨hsplit, hholds⟩ := hprefix k hs
      have hlength : (ms.take k).length = k := List.length_take_of_le hk
      have htake : ms.take (k + done.length) = ms.take k ++ done := by
        conv_lhs => rw [← hsplit]
        exact List.take_left' (by rw [List.length_append, hlength])
      have hle : k + done.length ≤ ms.length := by
        have hsum := congrArg List.length hsplit
        simp only [List.length_append, hlength] at hsum
        omega
      refine ⟨k + done.length, Nat.le_add_right k _, hle, htake ▸ hholds, ?_⟩
      rw [htake, List.drop_left' hlength]
      exact hall
    · obtain ⟨rfl, _⟩ | ⟨_, e, rfl⟩ := hresult
      · by_contra hnot
        have hnone : ∀ k, ¬s.ledger.Holds (ms.take k) := by
          intro k hk
          obtain ⟨hsplit, hholds⟩ := hprefix k hk
          rw [List.append_nil] at hsplit
          exact hnot (hsplit ▸ hholds)
        exact (hstuck hnone).2 rfl
      · exact absurd hv (by simp)
    · obtain ⟨rfl, hne⟩ := hstuck hnone
      obtain rfl : s = t := Option.some.inj hall
      obtain ⟨hnil, _⟩ | ⟨_, e, rfl⟩ := hresult
      · exact absurd hnil hne
      · exact ⟨⟨e, rfl⟩, rfl⟩

/-- A run without outside faults that is prefix-atomic had a safe input. -/
theorem safe_of_prefixAtomic (hfaults : ∀ n, r.db.faults n = none) {appliedAt : Instant}
    {ms : List Migration} (hload : r.load = .ok ms) (hplain : ∀ m ∈ ms, r.Plain m)
    {s : MigrationDatabase σ} {calls : ℕ}
    (h : r.PrefixAtomic appliedAt ms s (r.apply appliedAt ⟨s, none, calls⟩).1
      (r.apply appliedAt ⟨s, none, calls⟩).2) : r.Safe appliedAt ms s := by
  have hplain' : ∀ m ∈ s.ledger.pending ms, r.Plain m :=
    fun m hm => hplain m (List.mem_filter.mp hm).1
  refine ⟨fun haccepted before m after hpending hbefore hrefused => ?_, fun haccepted => ?_⟩
  · obtain ⟨t, ht⟩ := hbefore
    obtain ⟨n, hloop⟩ := apply_of_accepted hfaults hload haccepted calls
    obtain ⟨n₁, hdone⟩ := @each_of_migrateAll _ _ r hfaults appliedAt before
      (fun m' hm' => hplain' m' (hpending ▸ List.mem_append_left _ hm')) ⟨s, none, n⟩ t rfl ht
    obtain ⟨e, n₂, hfail⟩ := @applyMigration_of_refused _ _ r hfaults appliedAt m
      ⟨t, none, n₁⟩ rfl hrefused
    have heach : Process.each (r.applyMigration appliedAt) (m :: after) ⟨t, none, n₁⟩ =
        (.error e, ⟨t, some t, n₂⟩) := by
      rw [Process.each]
      exact Process.bind_of_error hfail
    rw [← Process.each_append_of_ok hdone, ← hpending] at heach
    have hclosed := h.closed
    rw [hloop, Process.bind_of_error heach] at hclosed
    exact absurd hclosed (by simp)
  · by_contra hgap
    rw [not_or, not_exists, not_forall] at hgap
    obtain ⟨hnone, m, hm⟩ := hgap
    rw [Classical.not_imp] at hm
    obtain ⟨hfirst, happlies⟩ := hm
    obtain ⟨after, hpending⟩ := List.head?_eq_some_iff.mp hfirst
    obtain ⟨t, ht⟩ := Option.ne_none_iff_exists'.mp happlies
    obtain ⟨n, hloop⟩ := apply_of_accepted hfaults hload haccepted calls
    obtain ⟨n₁, hdone⟩ := @applyMigration_of_migrate _ _ r hfaults appliedAt m
      (hplain' m (by rw [hpending]; exact List.mem_cons_self)) ⟨s, none, n⟩ t rfl ht
    obtain ⟨done, rest, u, rfl, hall, hcases⟩ := @each_applyMigration_cases _ _ r appliedAt after
      (fun m' hm' => hplain' m' (hpending ▸ List.mem_cons_of_mem m hm')) ⟨t, none, n₁⟩ rfl
    have hcommitted : (r.apply appliedAt ⟨s, none, calls⟩).2.committed = u := by
      have heach : Process.each (r.applyMigration appliedAt) (m :: (done ++ rest)) ⟨s, none, n⟩ =
          Process.each (r.applyMigration appliedAt) (done ++ rest) ⟨t, none, n₁⟩ := by
        rw [Process.each, Process.bind_of_ok hdone]
      rw [hloop, hpending]
      obtain ⟨_, n₂, hends⟩ | ⟨_, e, n₂, hends⟩ | ⟨_, _, _, _, e, n₂, hends⟩ := hcases
      · rw [Process.bind_of_ok (heach.trans hends)]
        rfl
      · rw [Process.bind_of_error (heach.trans hends)]
      · rw [Process.bind_of_error (heach.trans hends)]
    have hkept := (h.unlisted hnone).2
    rw [hcommitted] at hkept
    subst hkept
    have hlisted := subset_of_migrateAll
      (fun m' hm' => hplain' m' (hpending ▸ List.mem_cons_of_mem m (List.mem_append_left rest hm')))
      hall (MigrationLedger.mem_insert? (insert?_of_migrate (hplain' m (by
        rw [hpending]; exact List.mem_cons_self)) ht))
    have hnew : m ∈ u.ledger.pending ms := by rw [hpending]; exact List.mem_cons_self
    exact absurd (List.mem_map_of_mem (f := MigrationRow.version) hlisted)
      (of_decide_eq_true (List.mem_filter.mp hnew).2)

theorem loadEntries_withFaults (faults : ℕ → Option (SqlFault κ)) (position : ℕ)
    (ms : List Migration) :
    (r.withFaults faults).loadEntries position ms = r.loadEntries position ms := by
  induction ms generalizing position with
  | nil => rfl
  | cons m ms ih =>
    rw [loadEntries, loadEntries, ih]
    rfl

theorem load_withFaults (faults : ℕ → Option (SqlFault κ)) :
    (r.withFaults faults).load = r.load := by
  simp only [load, loadEntries_withFaults]
  rfl

/-- What is safe and what is prefix-atomic does not depend on failures from outside. -/
theorem safe_withFaults {faults : ℕ → Option (SqlFault κ)} {appliedAt : Instant}
    {ms : List Migration} {s : MigrationDatabase σ} :
    (r.withFaults faults).Safe appliedAt ms s ↔ r.Safe appliedAt ms s :=
  ⟨fun h => ⟨h.split, h.gapless⟩, fun h => ⟨h.split, h.gapless⟩⟩

theorem prefixAtomic_withFaults {faults : ℕ → Option (SqlFault κ)} {appliedAt : Instant}
    {ms : List Migration} {s : MigrationDatabase σ}
    {result : Except (MigrationException κ) (List Migration)}
    {c : Connection (MigrationDatabase σ)} :
    (r.withFaults faults).PrefixAtomic appliedAt ms s result c ↔
      r.PrefixAtomic appliedAt ms s result c :=
  ⟨fun h => ⟨h.closed, h.applied, h.returned, h.unlisted⟩,
    fun h => ⟨h.closed, h.applied, h.returned, h.unlisted⟩⟩

end MigrationRunner

-- ═══════════════════════════════════════════════════════════════════
-- Concrete runs
-- ═══════════════════════════════════════════════════════════════════

/-- A database whose schema is the list of its statements, for concrete runs. -/
def sampleEngine : SqlEngine (MigrationDatabase (List String)) String where
  control
    | "BEGIN" => some .begin
    | "COMMIT" => some .commit
    | "ROLLBACK" => some .rollback
    | _ => none
  effect statement s := .ok { s with schema := s.schema ++ [statement] }
  commits _ := .ok ()
  faults _ := none
  noTransaction := "no transaction is active"
  nestedTransaction := "cannot start a transaction within a transaction"

def sampleMigration : Migration := ⟨1, "initial", "001_initial.sql", "sha256:0"⟩

/-- One migration with the given content, for concrete runs. -/
def sampleMigrations (splitter : StatementSplitter) (content : String) :
    MigrationRunner (List String) String where
  directory :=
    { manifest := some (1, [sampleMigration])
      bytes file := if file = "001_initial.sql" then
        some (content.toList.map fun c => UInt8.ofNat c.toNat) else none
      sqlFiles := ["001_initial.sql"]
      sha256 _ := "sha256:0"
      decode bytes := some (String.ofList (bytes.map fun b => Char.ofNat b.toNat)) }
  splitter := splitter
  db := sampleEngine
  integrityError := "UNIQUE constraint failed"

theorem emptyLedger_sorted :
    (([] : List MigrationRow).map MigrationRow.version).Pairwise (· < ·) := List.Pairwise.nil

/-- A database without tables, for concrete runs. -/
def emptyDatabase : MigrationDatabase (List String) := ⟨[], ⟨[], emptyLedger_sorted⟩⟩

theorem load_sampleMigrations (splitter : StatementSplitter) (content : String) :
    (sampleMigrations splitter content).load = .ok [sampleMigration] := by
  rfl

theorem readText_create (splitter : StatementSplitter) :
    (sampleMigrations splitter "CREATE TABLE t(a);").readText sampleMigration =
      .ok "CREATE TABLE t(a);" := by
  rfl

theorem statements_create :
    (sampleMigrations .base "CREATE TABLE t(a);").statements "CREATE TABLE t(a);" =
      .ok ["CREATE TABLE t(a)"] := by
  rfl

theorem plain_create : (sampleMigrations .base "CREATE TABLE t(a);").Plain sampleMigration := by
  intro content statements hread hsplit x hx
  obtain rfl := Except.ok.inj ((readText_create .base).symm.trans hread)
  obtain rfl := Except.ok.inj (statements_create.symm.trans hsplit)
  obtain rfl := List.mem_singleton.mp hx
  refine ⟨rfl, fun s t h => ?_⟩
  obtain rfl := Except.ok.inj h
  rfl

theorem safe_create : (sampleMigrations .base "CREATE TABLE t(a);").Safe 0 [sampleMigration]
    emptyDatabase := by
  refine ⟨fun _ before m after hpending _ hrefused => ?_, fun _ => .inl ⟨0, rfl⟩⟩
  have hmem : m ∈ [sampleMigration] :=
    (List.mem_filter.mp (hpending ▸ List.mem_append_right before List.mem_cons_self)).1
  obtain rfl := List.mem_singleton.mp hmem
  obtain ⟨content, e, hread, hsplit⟩ := hrefused
  obtain rfl := Except.ok.inj ((readText_create .base).symm.trans hread)
  exact absurd (statements_create.symm.trans hsplit) (by simp)

end DigitalColleagues
