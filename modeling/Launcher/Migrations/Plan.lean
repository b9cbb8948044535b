import Mathlib.Data.List.Sort
import Launcher.Domain.Validation

set_option autoImplicit false

/-! # Migrations on disk and the plan

A directory holds the migrations as files `NNNN_name.sql`; the table `schema_migrations` holds
a row for each one the database has run. This file models `discoverMigrations` and
`planMigrations` of `migrations/MigrationRunner.cpp`: reading the directory in version order,
and deciding what still has to run or that the history was tampered with. SHA-256 is a
parameter; nothing here depends on which function it is. -/

namespace Launcher.Migrations

structure MigrationFile where
  version : Bytes
  name : Bytes
  path : Bytes
  sql : Bytes
  checksum : Bytes
  deriving DecidableEq, Repr

/-- A row of `schema_migrations` as `loadApplied` reads it. -/
structure AppliedMigration where
  version : Bytes
  checksum : Bytes
  deriving DecidableEq, Repr

structure MigrationPlan where
  pending : List MigrationFile
  alreadyApplied : Nat
  deriving DecidableEq, Repr

/-- What the history records of a migration. -/
def MigrationFile.applied (migration : MigrationFile) : AppliedMigration :=
  { version := migration.version, checksum := migration.checksum }

/-! ## Reading the directory -/

def underscore : UInt8 := 0x5f

/-- The dash of the source's message, in UTF-8. -/
def emDash : Bytes := [0xe2, 0x80, 0x94]

/-- What follows the last dot of a file name, all of it when there is no dot. -/
def afterLastDot (fileName : Bytes) : Bytes := (fileName.reverse.takeWhile (· != dot)).reverse

/-- `path::stem` and `path::extension`: a leading dot begins no extension, and the two names
of dots alone have none. -/
def stemAndExtension (fileName : Bytes) : Bytes × Bytes :=
  let stem := fileName.take (fileName.length - (afterLastDot fileName).length - 1)
  if fileName == ascii ".." || !fileName.contains dot || stem.isEmpty then (fileName, [])
  else (stem, dot :: afterLastDot fileName)

def isAllDigits (text : Bytes) : Bool :=
  !text.isEmpty && text.all (fun c => 0x30 ≤ c && c ≤ 0x39)

/-- Splits `0001_initial_schema` into `0001` and `initial_schema`. -/
def parseFileName (stem : Bytes) : Option (Bytes × Bytes) :=
  let version := stem.takeWhile (· != underscore)
  let name := (stem.dropWhile (· != underscore)).drop 1
  if stem.contains underscore && isAllDigits version && !name.isEmpty then some (version, name)
  else none

/-- An entry of a directory; `content` is `none` when the file cannot be opened. -/
structure DirectoryEntry where
  path : Bytes
  fileName : Bytes
  isRegularFile : Bool
  content : Option Bytes
  deriving DecidableEq, Repr

/-- A directory at one moment; `entries` is `none` when `path` is no directory. -/
structure Directory where
  path : Bytes
  entries : Option (List DirectoryEntry)
  deriving DecidableEq, Repr

section Discovery

variable (sha256Hex : Bytes → Bytes)

/-- The loop over the directory, in the order the file system lists it. -/
def readMigrations : List DirectoryEntry → Result (List MigrationFile)
  | [] => .ok []
  | entry :: rest =>
      if !entry.isRegularFile || (stemAndExtension entry.fileName).2 != ascii ".sql" then
        readMigrations rest
      else
        match parseFileName (stemAndExtension entry.fileName).1, entry.content with
        | none, _ =>
            failure .InvalidInput
              (ascii "migration file does not follow the NNNN_name.sql pattern: "
                ++ entry.fileName)
        | some _, none =>
            failure .Internal (ascii "cannot read migration: " ++ entry.path)
        | some (version, name), some sql => do
            let migrations ← readMigrations rest
            .ok ({ version, name, path := entry.path, sql, checksum := sha256Hex sql }
              :: migrations)

/-- The loop that compares neighbours of the sorted list. -/
def duplicateVersion : List MigrationFile → Option Bytes
  | first :: second :: rest =>
      if second.version == first.version then some second.version
      else duplicateVersion (second :: rest)
  | _ => none

def discoverMigrations (directory : Directory) : Result (List MigrationFile) := do
  match directory.entries with
  | none =>
      failure .NotFound (ascii "migrations directory not found: " ++ directory.path)
  | some entries => do
      let migrations ← readMigrations sha256Hex entries
      let sorted := migrations.insertionSort (fun lhs rhs => lhs.version ≤ rhs.version)
      match duplicateVersion sorted with
      | some version => failure .Conflict (ascii "duplicate migration version: " ++ version)
      | none => .ok sorted

end Discovery

/-! ## The plan -/

/-- `appliedByVersion.find`: of two rows of one version `emplace` keeps the first. -/
def appliedByVersion (applied : List AppliedMigration) (version : Bytes) : Option Bytes :=
  (applied.find? (·.version == version)).map (·.checksum)

def highestApplied (applied : List AppliedMigration) : Bytes :=
  applied.foldl (fun highest row => max highest row.version) []

/-- The loop over the discovered migrations, with what is pending and how many matched. -/
def planLoop (applied : List AppliedMigration) :
    List MigrationFile → List MigrationFile → Nat → Result (List MigrationFile × Nat)
  | [], pending, matched => .ok (pending, matched)
  | migration :: rest, pending, matched =>
      match appliedByVersion applied migration.version with
      | none =>
          if !(highestApplied applied).isEmpty
              && decide (migration.version < highestApplied applied) then
            failure .Conflict (ascii "migration " ++ migration.version ++
              ascii " was added behind already applied migration " ++ highestApplied applied ++
              ascii "; renumber it to run after the current head")
          else planLoop applied rest (pending ++ [migration]) matched
      | some checksum =>
          if checksum != migration.checksum then
            failure .Conflict (ascii "migration " ++ migration.version ++ ascii " (" ++
              migration.name ++ ascii ") has changed since it was applied; migrations are " ++
              ascii "immutable once merged " ++ emDash ++ ascii " add a new migration instead")
          else planLoop applied rest pending (matched + 1)

def planMigrations (discovered : List MigrationFile) (applied : List AppliedMigration) :
    Result MigrationPlan := do
  let (pending, matched) ← planLoop applied discovered [] 0
  if matched != applied.length then
    failure .Conflict
      (ascii "the database reports migrations that no longer exist on disk; refusing to run")
  else .ok { pending, alreadyApplied := matched }

/-! ## What the directory gives -/

/-- The order migrations run in. -/
def StrictlyIncreasing (discovered : List MigrationFile) : Prop :=
  discovered.Pairwise (fun lhs rhs => lhs.version < rhs.version)

theorem StrictlyIncreasing.nodup {discovered : List MigrationFile}
    (h : StrictlyIncreasing discovered) : (discovered.map (·.version)).Nodup := by
  rw [List.Nodup, List.pairwise_map]
  exact h.imp (fun hlt => ne_of_lt hlt)

theorem strictlyIncreasing_of_sorted {l : List MigrationFile}
    (hsorted : l.Pairwise (fun lhs rhs => lhs.version ≤ rhs.version))
    (hdup : duplicateVersion l = none) : StrictlyIncreasing l := by
  induction l with
  | nil => exact List.Pairwise.nil
  | cons first rest ih =>
      cases rest with
      | nil => exact List.pairwise_singleton _ first
      | cons second rest =>
          rw [duplicateVersion] at hdup
          split at hdup
          · cases hdup
          · rename_i hne
            have htail : StrictlyIncreasing (second :: rest) := ih hsorted.tail hdup
            have hle : first.version ≤ second.version :=
              List.rel_of_pairwise_cons hsorted List.mem_cons_self
            have hlt : first.version < second.version :=
              lt_of_le_of_ne hle (fun heq => hne (by simp [heq]))
            refine List.pairwise_cons.mpr ⟨fun other hmem => ?_, htail⟩
            rcases List.mem_cons.mp hmem with rfl | hmem
            · exact hlt
            · exact hlt.trans (List.rel_of_pairwise_cons htail hmem)

instance : Std.Total (fun lhs rhs : MigrationFile => lhs.version ≤ rhs.version) :=
  ⟨fun a b => le_total a.version b.version⟩

instance : IsTrans MigrationFile (fun lhs rhs => lhs.version ≤ rhs.version) :=
  ⟨fun _ _ _ h h' => le_trans h h'⟩

theorem discoverMigrations_increasing {sha256Hex : Bytes → Bytes} {directory : Directory}
    {discovered : List MigrationFile}
    (h : discoverMigrations sha256Hex directory = .ok discovered) :
    StrictlyIncreasing discovered := by
  unfold discoverMigrations at h
  split at h
  · cases h
  · rename_i entries _
    cases hread : readMigrations sha256Hex entries with
    | error err => rw [hread] at h; cases h
    | ok migrations =>
        rw [hread] at h
        simp only [Except.bind, bind] at h
        split at h
        · cases h
        · rename_i hdup
          cases h
          exact strictlyIncreasing_of_sorted (List.pairwise_insertionSort _ _) hdup

end Launcher.Migrations
