import Launcher.Common.Signature
import Launcher.Database.Timestamptz
import Launcher.Lib.Programs
import Launcher.Lib.Table
import Launcher.Lib.Utf8
import Launcher.Releases.Document
import Launcher.Storage.BlobStore

set_option autoImplicit false

/-! # What the release commands act on

The table of migration 0005 and the files below the release root, with the calls that the
publishing and retiring commands make on them: those on files (`storage/ReleaseStore.cpp`) and
the two statements of `app/ReleasePublish.cpp`. The command talks to the file system and the
database one call at a time; each may fail, a copy may stop half-way, and a statement may take
effect although its answer is lost.

`findLatest` is the one query of the public route
(`repositories/postgres/PgLauncherReleaseRepository.cpp`). -/

namespace Launcher.Releases

open Lib

/-- The parameters of the model. -/
structure Env where
  jsoncpp : JsonCpp
  crypto : Crypto
  sha256Hex : Bytes → Bytes

structure ReleaseQuery where
  channel : ReleaseChannel
  platform : ReleasePlatform
  arch : ReleaseArch
  deriving DecidableEq, Repr

/-- A row of `launcher_releases`. The last field is not a column: the key that was configured
when the row was inserted. -/
structure LauncherReleaseRow where
  id : Uuid
  channel : Bytes
  version : Bytes
  versionMajor : Nat
  versionMinor : Nat
  versionPatch : Nat
  platform : Bytes
  arch : Bytes
  artifactSha256 : Bytes
  artifactSize : Int
  storageKey : Bytes
  document : Bytes
  signature : Bytes
  releasedAt : Timestamptz
  createdAt : Timestamptz
  retiredAt : Option Timestamptz
  publicKey : Bytes
  deriving DecidableEq, Repr

/-- The thirteen parameters of `PUBLISH_SQL`, and the configured key. -/
structure NewRelease where
  channel : Bytes
  version : Bytes
  versionMajor : Nat
  versionMinor : Nat
  versionPatch : Nat
  platform : Bytes
  arch : Bytes
  artifactSha256 : Bytes
  artifactSize : Int
  storageKey : Bytes
  document : Bytes
  signature : Bytes
  releasedAt : Bytes
  publicKey : Bytes
  deriving DecidableEq, Repr

structure State where
  /-- The regular files below the release root. -/
  files : Files
  releases : Table LauncherReleaseRow.id

/-! ## Calls -/

inductive Call : Type → Type
  | isRegularFile (path : Path) : Call Bool
  | createDirectories (path : Path) : Call (Option Bytes)
  | removeFile (path : Path) : Call Unit
  | sha256File (content : Bytes) : Call (Result Bytes)
  | copyFile (content : Bytes) (target : Path) : Call (Option Bytes)
  | rename (source target : Path) : Call (Option Bytes)
  | connect : Call (Option Bytes)
  | publish (release : NewRelease) : Call (Except Bytes Nat)
  | retire (query : ReleaseQuery) (version : Bytes) : Call (Except Bytes Nat)

/-- What goes wrong in a call, if anything does. -/
inductive Fault
  | none
  | refused
  | short (written : Nat)
  | digest (error : Error)
  | unanswered
  deriving DecidableEq, Repr

structure Choice where
  fault : Fault
  /-- What is said when a call is refused. -/
  message : Bytes
  /-- `gen_random_uuid()`. -/
  id : Uuid
  /-- `now()`. -/
  now : Timestamptz
  deriving DecidableEq, Repr

/-! ## Statements -/

def LauncherReleaseRow.of (query : ReleaseQuery) (row : LauncherReleaseRow) : Bool :=
  row.channel == query.channel.name && row.platform == query.platform.name &&
    row.arch == query.arch.name

/-- `retired_at IS NULL`. -/
def LauncherReleaseRow.live (row : LauncherReleaseRow) : Bool := row.retiredAt.isNone

/-- `launcher_releases_identity_idx`. -/
def LauncherReleaseRow.sameIdentity (row : LauncherReleaseRow) (release : NewRelease) : Bool :=
  row.channel == release.channel && row.platform == release.platform &&
    row.arch == release.arch && row.version == release.version

/-- The constraints of the table. -/
def NewRelease.checked (release : NewRelease) : Bool :=
  !release.channel.isEmpty && !release.version.isEmpty && !release.platform.isEmpty &&
    !release.arch.isEmpty && isSha256Hex release.artifactSha256 &&
    decide (0 < release.artifactSize) && !release.document.isEmpty && !release.signature.isEmpty

def NewRelease.row (release : NewRelease) (id : Uuid) (releasedAt now : Timestamptz) :
    LauncherReleaseRow where
  id := id
  channel := release.channel
  version := release.version
  versionMajor := release.versionMajor
  versionMinor := release.versionMinor
  versionPatch := release.versionPatch
  platform := release.platform
  arch := release.arch
  artifactSha256 := release.artifactSha256
  artifactSize := release.artifactSize
  storageKey := release.storageKey
  document := release.document
  signature := release.signature
  releasedAt := releasedAt
  createdAt := now
  retiredAt := none
  publicKey := release.publicKey

namespace State

variable (s : State)

/-- `PUBLISH_SQL`: the number of rows inserted. -/
def publish (choice : Choice) (release : NewRelease) : Except Bytes Nat × State :=
  if !Utf8.valid release.document || !Utf8.valid release.signature then
    (.error choice.message, s)
  else
    match Timestamptz.cast release.releasedAt with
    | none => (.error choice.message, s)
    | some releasedAt =>
        if !release.checked then (.error choice.message, s)
        else if (s.releases.find? choice.id).isSome ||
            s.releases.rows.any (fun row => row.sameIdentity release) then (.ok 0, s)
        else
          (.ok 1, { s with
            releases := s.releases.insert (release.row choice.id releasedAt choice.now) })

def retires (query : ReleaseQuery) (version : Bytes) (row : LauncherReleaseRow) : Bool :=
  row.of query && row.version == version && row.live

/-- `RETIRE_SQL`: the number of rows updated. -/
def retire (choice : Choice) (query : ReleaseQuery) (version : Bytes) :
    Except Bytes Nat × State :=
  (.ok (s.releases.rows.countP (retires query version)),
    { s with
      releases := s.releases.updateWhere (retires query version)
        ⟨fun row => { row with retiredAt := some choice.now }, fun _ => rfl⟩ })

/-- The order of `ORDER BY version_major DESC, version_minor DESC, version_patch DESC`, the
greatest first. -/
def numbers (row : LauncherReleaseRow) : ℕ ×ₗ ℕ ×ₗ ℕ :=
  toLex (row.versionMajor, toLex (row.versionMinor, row.versionPatch))

/-- The row that the query of `findLatest` selects. -/
def selectLatest (query : ReleaseQuery) : Option LauncherReleaseRow :=
  (s.releases.rows.filter (fun row => row.of query && row.live)).argmax numbers

end State

/-- A statement whose answer may be lost. -/
def answered {α : Type} (choice : Choice) (outcome : Except Bytes α × State) :
    Except Bytes α × State :=
  if choice.fault = .unanswered then (.error choice.message, outcome.2) else outcome

def exec (env : Env) (choice : Choice) : {α : Type} → Call α → State → α × State
  | _, .isRegularFile path, s => (choice.fault != .refused && (s.files path).isSome, s)
  | _, .createDirectories _, s =>
      (if choice.fault = .refused then some choice.message else none, s)
  | _, .removeFile path, s =>
      ((), if choice.fault = .refused then s else { s with files := s.files.remove path })
  | _, .sha256File content, s =>
      (match choice.fault with
        | .digest error => .error error
        | _ => .ok (env.sha256Hex content), s)
  | _, .copyFile content target, s =>
      match choice.fault with
      | .refused => (some choice.message, s)
      | .short written =>
          (some choice.message, { s with files := s.files.set target (content.take written) })
      | _ => (none, { s with files := s.files.set target content })
  | _, .rename source target, s =>
      match choice.fault, s.files source with
      | .refused, _ => (some choice.message, s)
      | _, none => (some choice.message, s)
      | _, some content =>
          (none, { s with files := (s.files.remove source).set target content })
  | _, .connect, s => (if choice.fault = .refused then some choice.message else none, s)
  | _, .publish release, s =>
      if choice.fault = .refused then (.error choice.message, s)
      else answered choice (s.publish choice release)
  | _, .retire query version, s =>
      if choice.fault = .refused then (.error choice.message, s)
      else answered choice (s.retire choice query version)

/-! ## Reading -/

/-- A stored release. -/
structure LauncherRelease where
  id : Bytes
  parsed : ReleaseDocument
  document : Bytes
  signature : Bytes
  storageKey : Bytes
  createdAt : Bytes
  retiredAt : Bytes
  deriving DecidableEq, Repr

def mapRelease (row : LauncherReleaseRow) (query : ReleaseQuery) : LauncherRelease where
  id := uuidText row.id
  document := row.document
  signature := row.signature
  storageKey := row.storageKey
  createdAt := row.createdAt.toChar
  retiredAt := (row.retiredAt.map Timestamptz.toChar).getD []
  parsed :=
    { schema := RELEASE_DOCUMENT_SCHEMA
      channel := query.channel
      platform := query.platform
      arch := query.arch
      version := ⟨row.versionMajor, row.versionMinor, row.versionPatch, row.version⟩
      artifactSha256 := row.artifactSha256
      artifactSize := row.artifactSize
      releasedAt := row.releasedAt.toChar
      notes := [] }

def State.findLatest (s : State) (query : ReleaseQuery) : Option LauncherRelease :=
  (s.selectLatest query).map (fun row => mapRelease row query)

/-! ## What the statements do to the table -/

theorem publish_cases (s : State) (choice : Choice) (release : NewRelease) :
    (s.publish choice release).2 = s ∨
      ∃ releasedAt, Timestamptz.cast release.releasedAt = some releasedAt ∧
        s.releases.find? choice.id = none ∧
        (∀ row ∈ s.releases, row.sameIdentity release = false) ∧
        s.publish choice release = (.ok 1, { s with
          releases := s.releases.insert (release.row choice.id releasedAt choice.now) }) := by
  unfold State.publish
  split
  case isTrue => exact Or.inl rfl
  case isFalse =>
    cases hcast : Timestamptz.cast release.releasedAt with
    | none => exact Or.inl rfl
    | some releasedAt =>
        simp only
        split
        case isTrue => exact Or.inl rfl
        case isFalse =>
          split
          case isTrue => exact Or.inl rfl
          case isFalse hconflict =>
            simp only [Bool.or_eq_true, not_or, Bool.not_eq_true, Option.isSome_eq_false_iff,
              Option.isNone_iff_eq_none, List.any_eq_false] at hconflict
            exact Or.inr ⟨releasedAt, rfl, hconflict.1, hconflict.2, rfl⟩

/-- The same row, perhaps retired since. -/
def LauncherReleaseRow.Keeps (row row' : LauncherReleaseRow) : Prop :=
  ∃ retiredAt, row' = { row with retiredAt := retiredAt }

theorem LauncherReleaseRow.Keeps.refl (row : LauncherReleaseRow) : row.Keeps row :=
  ⟨row.retiredAt, rfl⟩

theorem LauncherReleaseRow.Keeps.trans {row row' row'' : LauncherReleaseRow}
    (h : row.Keeps row') (h' : row'.Keeps row'') : row.Keeps row'' := by
  obtain ⟨t, rfl⟩ := h
  obtain ⟨t', rfl⟩ := h'
  exact ⟨t', rfl⟩

/-- The columns that are written once. -/
structure NewRelease.Columns (release : NewRelease) (row : LauncherReleaseRow) : Prop where
  channel : row.channel = release.channel
  version : row.version = release.version
  versionMajor : row.versionMajor = release.versionMajor
  versionMinor : row.versionMinor = release.versionMinor
  versionPatch : row.versionPatch = release.versionPatch
  platform : row.platform = release.platform
  arch : row.arch = release.arch
  artifactSha256 : row.artifactSha256 = release.artifactSha256
  artifactSize : row.artifactSize = release.artifactSize
  storageKey : row.storageKey = release.storageKey
  document : row.document = release.document
  signature : row.signature = release.signature

theorem NewRelease.columns {release : NewRelease} {id : Uuid} {releasedAt now : Timestamptz}
    {row : LauncherReleaseRow} (h : (release.row id releasedAt now).Keeps row) :
    release.Columns row := by
  obtain ⟨t, rfl⟩ := h
  exact ⟨rfl, rfl, rfl, rfl, rfl, rfl, rfl, rfl, rfl, rfl, rfl, rfl⟩

theorem mem_retire {s : State} {choice : Choice} {query : ReleaseQuery} {version : Bytes}
    {row' : LauncherReleaseRow} (h : row' ∈ (s.retire choice query version).2.releases) :
    ∃ row ∈ s.releases, row.Keeps row' := by
  obtain ⟨row, hrow, heq⟩ := Table.mem_updateWhere.mp h
  refine ⟨row, hrow, ?_⟩
  rw [heq]
  split
  · exact ⟨some choice.now, rfl⟩
  · exact .refl row

theorem retire_keeps {s : State} {row : LauncherReleaseRow} (h : row ∈ s.releases)
    (choice : Choice) (query : ReleaseQuery) (version : Bytes) :
    ∃ row' ∈ (s.retire choice query version).2.releases, row.Keeps row' := by
  refine ⟨_, Table.mem_updateWhere.mpr ⟨row, h, rfl⟩, ?_⟩
  split
  · exact ⟨some choice.now, rfl⟩
  · exact .refl row

theorem publish_keeps {s : State} {row : LauncherReleaseRow} (h : row ∈ s.releases)
    (choice : Choice) (release : NewRelease) :
    row ∈ (s.publish choice release).2.releases := by
  rcases publish_cases s choice release with hsame | ⟨releasedAt, -, -, -, heq⟩
  · rwa [hsame]
  · rw [heq]
    exact Table.mem_insert_of_mem h

end Launcher.Releases
