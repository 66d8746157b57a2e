import Tesbo.Text
import Mathlib.Data.List.Sort

/-!
# The migrator

A run of the migrator reads a directory of SQL files and executes those the table
`schema_migrations` does not know by their version, their name or their checksum.  What the lock and
the session of the database are set to is left out, and so is what the migrator only prints.
-/

namespace Tesbo.Migrate

open Reasoning

/-! ## Files -/

structure SqlFile where
  filename : String
  sql : String
deriving DecidableEq, Repr

/-- `files` is `none` where there is no such directory. -/
structure Directory where
  path : String
  files : Option (List SqlFile)

/-- `sql` is what the file at the migration's path holds when it is applied. -/
structure MigrationFile where
  version : ℕ
  name : String
  filename : String
  checksum : String
  sql : String
deriving DecidableEq, Repr

/-- How names are ordered; the order is a matter of the locale. -/
class Locale where
  localeCompare : String → String → Ordering

def lineTerminator (c : Char) : Bool :=
  c = '\n' || c = '\r' || c.toNat = 0x2028 || c.toNat = 0x2029

def isSqlSuffix (cs : List Char) : Bool := cs.map Char.toLower = ".sql".toList

/-- `toLowerCase().endsWith(".sql")` -/
def endsWithSql (filename : String) : Bool :=
  isSqlSuffix (filename.toList.drop (filename.toList.length - 4))

def parseInt (digits : List Char) : ℕ :=
  digits.foldl (fun n c ↦ 10 * n + (c.toNat - '0'.toNat)) 0

/-- `/^V(\d+)_(.+)\.sql$/i` -/
def parseMigrationFilename (filename : String) : Option (ℕ × String) :=
  match filename.toList with
  | [] => none
  | v :: cs =>
      let digits := cs.takeWhile Char.isDigit
      match cs.dropWhile Char.isDigit with
      | '_' :: rest =>
          let name := rest.take (rest.length - 4)
          if v.toLower = 'v' ∧ digits ≠ [] ∧ name ≠ [] ∧ name.all (!lineTerminator ·) ∧
              isSqlSuffix (rest.drop (rest.length - 4)) then
            some (parseInt digits, String.ofList name)
          else none
      | _ => none

section Reading

variable [Sha256] [Locale]

/-- `left.version - right.version || left.filename.localeCompare(right.filename)` is not positive. -/
def inOrder (left right : MigrationFile) : Prop :=
  left.version < right.version ∨
    left.version = right.version ∧ Locale.localeCompare left.filename right.filename ≠ .gt

instance (left right : MigrationFile) : Decidable (inOrder left right) :=
  inferInstanceAs (Decidable (_ ∨ _))

def readMigration (file : SqlFile) : Except String MigrationFile :=
  match parseMigrationFilename file.filename with
  | none =>
      .error s!"Invalid migration filename \"{file.filename}\". Expected V<number>_<name>.sql"
  | some (version, name) =>
      .ok ⟨version, name, file.filename, Sha256.hex file.sql, file.sql⟩

def readMigrations (dir : Directory) : Except String (List MigrationFile) :=
  match dir.files with
  | none => .error s!"Migrations directory not found: {dir.path}"
  | some files => do
      let migrations ← (files.filter fun file ↦ endsWithSql file.filename).mapM readMigration
      .ok (migrations.insertionSort inOrder)

end Reading

/-! ## The database -/

structure MigrationRow where
  version : ℕ
  name : String
  filename : String
  checksum : String
deriving DecidableEq, Repr

abbrev SchemaMigrations := Table MigrationRow.version

/-- How a statement turns out: it is refused, or done without the migrator being told. -/
inductive Answer where
  | done
  | refused
  | lost
deriving DecidableEq, Repr

/-- `changelog` is the table of the tool used before, where there is one.  `executed` are the
migrations whose transaction is committed, and `recorded` those taken over from the changelog; the
migrator reads neither. -/
structure Database where
  schemaMigrations : SchemaMigrations
  changelog : Option (List String)
  answers : ℕ → Answer
  executed : List String
  recorded : List String

def Database.next (s : Database) : Database := { s with answers := fun n ↦ s.answers (n + 1) }

def statement {α : Type} (f : Database → Except String (α × Database)) :
    Service String Database α := fun s ↦
  match s.answers 0 with
  | .done =>
      match f s.next with
      | .ok (a, s') => (.ok a, s')
      | .error e => (.error e, s.next)
  | .refused => (.error "Connection terminated unexpectedly", s.next)
  | .lost =>
      match f s.next with
      | .ok (_, s') => (.error "Connection terminated unexpectedly", s')
      | .error _ => (.error "Connection terminated unexpectedly", s.next)

def reading {α : Type} (f : Database → α) : Service String Database α :=
  statement fun s ↦ .ok (f s, s)

/-- A row is refused where its version or its file name is taken, or its version is no `INT`. -/
def insertRow (row : MigrationRow) (t : SchemaMigrations) : Except String SchemaMigrations :=
  if 2 ^ 31 ≤ row.version then .error "value is out of range for type integer"
  else if ∃ r ∈ t, r.filename = row.filename then
    .error "duplicate key value violates unique constraint \"schema_migrations_filename_key\""
  else
    match t.insert row with
    | none => .error "duplicate key value violates unique constraint \"schema_migrations_pkey\""
    | some t' => .ok t'

namespace MigrationFile

def row (migration : MigrationFile) : MigrationRow :=
  ⟨migration.version, migration.name, migration.filename, migration.checksum⟩

end MigrationFile

/-! ## Taking over what the tool used before has applied -/

/-- `path.basename` -/
def basename (path : String) : String :=
  let trimmed := path.toList.reverse.dropWhile (· = '/')
  String.ofList (trimmed.takeWhile (· ≠ '/')).reverse

/-- `ON CONFLICT (version) DO NOTHING` -/
def recordMigration (migration : MigrationFile) : Service String Database Unit :=
  statement fun s ↦
    if ∃ r ∈ s.schemaMigrations, r.version = migration.version then .ok ((), s)
    else do
      let t ← insertRow migration.row s.schemaMigrations
      .ok ((), { s with schemaMigrations := t, recorded := migration.sql :: s.recorded })

def bootstrapFromLegacyChangelog (migrations : List MigrationFile) :
    Service String Database Unit := do
  let count ← reading fun s ↦ s.schemaMigrations.rows.length
  if 0 < count then pure ()
  else do
    let legacyTable ← reading fun s ↦ s.changelog.isSome
    if legacyTable = false then pure ()
    else do
      let changelog ← reading fun s ↦ s.changelog.getD []
      let appliedFilenames := changelog.map basename
      Service.forEach recordMigration
        (migrations.filter fun migration ↦ migration.filename ∈ appliedFilenames)

/-! ## What is applied and what is pending -/

/-- Of several migrations of a version the last. -/
def byVersion (migrations : List MigrationFile) (version : ℕ) : Option MigrationFile :=
  migrations.reverse.find? fun migration ↦ migration.version = version

def validateRow (migrations : List MigrationFile) (row : MigrationRow) : Except String Unit :=
  match byVersion migrations row.version with
  -- a version of another branch
  | none => .ok ()
  | some sameVersion =>
      if sameVersion.checksum = row.checksum then .ok ()
      -- a fork of the version
      else if (∃ m ∈ migrations, m.checksum = row.checksum) ∨
          ∃ m ∈ migrations, m.filename = row.filename then .ok ()
      else
        .error (s!"Checksum mismatch for migration {sameVersion.filename}. " ++
          "Create a new migration instead of editing an applied one.")

def validateAppliedChecksums (migrations : List MigrationFile) : Service String Database Unit := do
  let applied ← reading fun s ↦ s.schemaMigrations.rows
  Service.ofExcept (applied.forM (validateRow migrations))

def pendingMigrations (migrations : List MigrationFile) (applied : List MigrationRow) :
    List MigrationFile :=
  migrations.filter fun migration ↦
    migration.version ∉ applied.map MigrationRow.version ∧
      migration.filename ∉ applied.map MigrationRow.filename ∧
      migration.checksum ∉ applied.map MigrationRow.checksum

/-- The file and its row in one transaction. -/
def applyMigration (migration : MigrationFile) : Service String Database Unit :=
  statement fun s ↦ do
    let t ← insertRow migration.row s.schemaMigrations
    .ok ((), { s with schemaMigrations := t, executed := migration.sql :: s.executed })

def main [Sha256] [Locale] (dir : Directory) : Service String Database Unit := do
  let migrations ← Service.ofExcept (readMigrations dir)
  -- the lock and the table
  reading fun _ ↦ ()
  bootstrapFromLegacyChangelog migrations
  validateAppliedChecksums migrations
  let applied ← reading fun s ↦ s.schemaMigrations.rows
  Service.forEach applyMigration (pendingMigrations migrations applied)

end Tesbo.Migrate
