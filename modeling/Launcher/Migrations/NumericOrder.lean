import Launcher.Lib.Numerals
import Launcher.Migrations.Runner

set_option autoImplicit false

/-! # Version texts and version numbers

A version is the numeric prefix of a file name, "which orders execution". The list is sorted and
searched for duplicates by the text of the prefix, which has any number of digits. The two
orders agree on a directory exactly when of two of its versions the one that comes first as
a text also has the significant digits that come first. -/

namespace Launcher.Migrations

open Launcher.Lib

def digitValue (c : UInt8) : Nat := c.toNat - 0x30

/-- The number a version denotes. -/
def versionNumber (version : Bytes) : Nat := Numerals.value 10 digitValue version

def NumericallyIncreasing (migrations : List MigrationFile) : Prop :=
  migrations.Pairwise (fun lhs rhs => versionNumber lhs.version < versionNumber rhs.version)

/-! ## The versions of a directory -/

/-- The version of an entry, if it is a migration. -/
def DirectoryEntry.version (entry : DirectoryEntry) : Option Bytes :=
  if !entry.isRegularFile || (stemAndExtension entry.fileName).2 != ascii ".sql" then none
  else (parseFileName (stemAndExtension entry.fileName).1).map Prod.fst

def Directory.versions (directory : Directory) : List Bytes :=
  (directory.entries.getD []).filterMap (·.version)

/-- Of two versions, the one before the other as a text has fewer significant digits, or as
many that come before the other's as a text. -/
def OrderedAsNumbers (versions : List Bytes) : Prop :=
  ∀ v ∈ versions, ∀ w ∈ versions, v < w →
    Numerals.Precedes (Numerals.significant digitValue v) (Numerals.significant digitValue w)

theorem isAllDigits_of_parse {stem version name : Bytes}
    (h : parseFileName stem = some (version, name)) : isAllDigits version = true := by
  simp only [parseFileName] at h
  split at h
  · rename_i hvalid
    obtain ⟨rfl, _⟩ := Prod.mk.inj (Option.some.inj h)
    simp only [Bool.and_eq_true] at hvalid
    exact hvalid.1.2
  · cases h

/-- Reading a directory keeps the version of each entry that has one. -/
theorem readMigrations_versions {sha256Hex : Bytes → Bytes} {entries : List DirectoryEntry}
    {migrations : List MigrationFile} (h : readMigrations sha256Hex entries = .ok migrations) :
    migrations.map (·.version) = entries.filterMap (·.version) := by
  induction entries generalizing migrations with
  | nil => cases h; rfl
  | cons entry rest ih =>
      rw [readMigrations] at h
      split at h
      · rename_i hskip
        rw [ih h, List.filterMap_cons_none]
        rw [DirectoryEntry.version, if_pos hskip]
      · rename_i hkeep
        split at h
        · cases h
        · cases h
        · rename_i version name sql hparse _
          have hversion : entry.version = some version := by
            rw [DirectoryEntry.version, if_neg hkeep, hparse]
            rfl
          cases hrest : readMigrations sha256Hex rest with
          | error err => rw [hrest] at h; cases h
          | ok tail =>
              rw [hrest] at h
              cases h
              rw [List.filterMap_cons_some hversion, ← ih hrest]
              rfl

theorem discoverMigrations_versions {sha256Hex : Bytes → Bytes} {directory : Directory}
    {discovered : List MigrationFile}
    (h : discoverMigrations sha256Hex directory = .ok discovered) :
    (discovered.map (·.version)).Perm directory.versions := by
  unfold discoverMigrations at h
  split at h
  · cases h
  · rename_i entries hentries
    cases hread : readMigrations sha256Hex entries with
    | error err => rw [hread] at h; cases h
    | ok migrations =>
        rw [hread] at h
        simp only [Except.bind, bind] at h
        split at h
        · cases h
        · cases h
          rw [Directory.versions, hentries, Option.getD_some, ← readMigrations_versions hread]
          exact (List.perm_insertionSort _ _).map _

theorem version_digits {directory : Directory} {version : Bytes}
    (h : version ∈ directory.versions) : ∀ c ∈ version, c ∈ {c : UInt8 | 0x30 ≤ c ∧ c ≤ 0x39} := by
  obtain ⟨entry, _, hversion⟩ := List.mem_filterMap.mp h
  rw [DirectoryEntry.version] at hversion
  split at hversion
  · cases hversion
  · obtain ⟨⟨v, name⟩, hparse, rfl⟩ := Option.map_eq_some_iff.mp hversion
    have hdigits := isAllDigits_of_parse hparse
    simp only [isAllDigits, Bool.and_eq_true, List.all_eq_true, decide_eq_true_eq] at hdigits
    exact hdigits.2

/-! ## Both orders -/

theorem digitValue_lt (c : UInt8) (h : c ∈ {c : UInt8 | 0x30 ≤ c ∧ c ≤ 0x39}) :
    digitValue c < 10 := by
  have hle : c.toNat ≤ 0x39 := UInt8.le_iff_toNat_le.mp h.2
  unfold digitValue
  omega

theorem digitValue_strictMonoOn :
    StrictMonoOn digitValue {c : UInt8 | 0x30 ≤ c ∧ c ≤ 0x39} := by
  intro c hc d _ hlt
  have hlo : 0x30 ≤ c.toNat := UInt8.le_iff_toNat_le.mp hc.1
  have hlt' : c.toNat < d.toNat := UInt8.lt_iff_toNat_lt.mp hlt
  unfold digitValue
  omega

theorem versionNumber_lt_iff {directory : Directory} {v w : Bytes}
    (hv : v ∈ directory.versions) (hw : w ∈ directory.versions) :
    versionNumber v < versionNumber w ↔
      Numerals.Precedes (Numerals.significant digitValue v)
        (Numerals.significant digitValue w) :=
  Numerals.value_lt_iff digitValue_lt digitValue_strictMonoOn (version_digits hv)
    (version_digits hw)

/-- Of two members of a strictly increasing list, the smaller stands first. -/
theorem StrictlyIncreasing.rel {R : MigrationFile → MigrationFile → Prop}
    {discovered : List MigrationFile} (hinc : StrictlyIncreasing discovered)
    (hR : discovered.Pairwise R) {m m' : MigrationFile} (hm : m ∈ discovered)
    (hm' : m' ∈ discovered) (hlt : m.version < m'.version) : R m m' := by
  have hkeep : discovered.Pairwise (fun a b => a.version < b.version → R a b) := by
    refine hR.imp ?_
    intro a b hab _
    exact hab
  have hflip : discovered.Pairwise (fun a b => b.version < a.version → R b a) :=
    hinc.imp (fun hab hba => absurd hba (lt_asymm hab))
  exact hkeep.forall_of_forall_of_flip (fun m _ hself => absurd hself (lt_irrefl m.version))
    hflip hm hm' hlt

/-- Where all versions have as many digits, as in `NNNN_name.sql`, the two orders agree. -/
theorem orderedAsNumbers_of_length {directory : Directory} {n : Nat}
    (h : ∀ v ∈ directory.versions, v.length = n) : OrderedAsNumbers directory.versions := by
  intro v hv w hw hlt
  rw [← versionNumber_lt_iff hv hw]
  apply (Numerals.value_lt_iff_of_length_eq digitValue_lt digitValue_strictMonoOn
    (version_digits hv) (version_digits hw) ((h v hv).trans (h w hw).symm)).mpr
  exact hlt

/-- **Migrations run in numeric order exactly where text order is numeric.** -/
theorem discovered_numeric_iff {sha256Hex : Bytes → Bytes} {directory : Directory}
    {discovered : List MigrationFile}
    (h : discoverMigrations sha256Hex directory = .ok discovered) :
    NumericallyIncreasing discovered ↔ OrderedAsNumbers directory.versions := by
  have hinc : StrictlyIncreasing discovered := discoverMigrations_increasing h
  have hperm := discoverMigrations_versions h
  constructor
  · intro hnum v hv w hw hlt
    rw [← versionNumber_lt_iff hv hw]
    obtain ⟨m, hm, rfl⟩ := List.mem_map.mp (hperm.mem_iff.mpr hv)
    obtain ⟨m', hm', rfl⟩ := List.mem_map.mp (hperm.mem_iff.mpr hw)
    exact hinc.rel hnum hm hm' hlt
  · intro hordered
    refine List.Pairwise.imp_of_mem (fun {m m'} hm hm' hlt => ?_) hinc
    have hv := hperm.mem_iff.mp (List.mem_map_of_mem (f := (·.version)) hm)
    have hw := hperm.mem_iff.mp (List.mem_map_of_mem (f := (·.version)) hm')
    exact (versionNumber_lt_iff hv hw).mpr (hordered _ hv _ hw hlt)

def directoryOf (entries : List DirectoryEntry) : Directory :=
  { path := ascii "migrations", entries := some entries }

/-- Versions of four digits each. -/
theorem discovered_numeric_two_files :
    ∃ discovered, discoverMigrations id
        (directoryOf [fileOf "0010_games.sql" "b", fileOf "0009_users.sql" "a"]) = .ok discovered ∧
      NumericallyIncreasing discovered := by
  have h : discoverMigrations id
      (directoryOf [fileOf "0010_games.sql" "b", fileOf "0009_users.sql" "a"]) = .ok _ := rfl
  refine ⟨_, h, (discovered_numeric_iff h).mpr ?_⟩
  exact orderedAsNumbers_of_length (n := 4) (by decide +kernel)

/-- `10_games.sql` is accepted before `9_users.sql`, and `1_users.sql` beside `01_games.sql`. -/
theorem discovered_numeric_fails :
    (∃ discovered, discoverMigrations id
        (directoryOf [fileOf "9_users.sql" "a", fileOf "10_games.sql" "b"]) = .ok discovered ∧
      discovered.map (·.version) = [ascii "10", ascii "9"] ∧
      ¬ NumericallyIncreasing discovered) ∧
    ∃ discovered, discoverMigrations id
        (directoryOf [fileOf "1_users.sql" "a", fileOf "01_games.sql" "b"]) = .ok discovered ∧
      discovered.map (fun m => versionNumber m.version) = [1, 1] ∧
      ¬ NumericallyIncreasing discovered := by
  refine ⟨⟨_, rfl, by decide +kernel, ?_⟩, _, rfl, by decide +kernel, ?_⟩
  · unfold NumericallyIncreasing
    decide +kernel
  · unfold NumericallyIncreasing
    decide +kernel

end Launcher.Migrations
