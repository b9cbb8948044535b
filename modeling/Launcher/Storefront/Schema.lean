import Launcher.Database.Statements
import Launcher.Domain.Delta
import Launcher.Domain.Publishing

set_option autoImplicit false

/-! # The catalog's tables

What the catalog, artwork, devlog and download services keep besides the tables of the upload
side (`State.core`): the remaining columns of `games`, `game_versions`, `builds` and `users`,
the tables `game_media`, `patch_notes`, `user_games` and `download_events` of migrations 0001,
0003 and 0008, and the media store's files. The columns are functions of the row's id; what
they give for an id without a row is never read.

A nullable column that is read as the empty string is the empty list; timestamps are kept as
such, before `to_char` renders them. -/

namespace Launcher.Storefront

open Launcher.Lib

/-! ## Rows -/

/-- The columns of `games` that the upload side does not read. -/
structure GameColumns where
  title : Bytes
  summary : Bytes
  description : Bytes
  /-- `YYYY-MM-DD`, empty when there is none. -/
  releaseDate : Bytes
  createdAt : Nat
  updatedAt : Nat
  deriving DecidableEq, Repr

/-- The other columns of `game_versions`. -/
structure VersionColumns where
  semver : Semver
  stage : BuildStage
  releaseNotes : Bytes
  /-- Read only while the version is published. -/
  publishedAt : Nat
  createdAt : Nat
  deriving DecidableEq, Repr

/-- The other columns of `builds`. -/
structure BuildColumns where
  createdAt : Nat
  readyAt : Option Nat
  deriving DecidableEq, Repr

/-- A row of `game_media`. -/
structure GameMedia where
  id : Uuid
  gameId : Uuid
  kind : MediaKind
  storageKey : Bytes
  sha256 : Bytes
  contentType : Bytes
  sizeBytes : Nat
  altText : Bytes
  sortOrder : Int
  createdAt : Nat
  deriving DecidableEq, Repr

/-- A row of `patch_notes`. -/
structure PatchNoteRow where
  id : Uuid
  gameId : Uuid
  gameVersionId : Option Uuid
  title : Bytes
  bodyMarkdown : Bytes
  authorUserId : Option Uuid
  publishedAt : Option Nat
  createdAt : Nat
  updatedAt : Nat
  deriving DecidableEq, Repr

/-- A row of `user_games`. -/
structure UserGame where
  userId : Uuid
  gameId : Uuid
  addedAt : Nat
  deriving DecidableEq, Repr

def UserGame.key (row : UserGame) : Uuid × Uuid := (row.userId, row.gameId)

/-- A row of `download_events`, without its serial number. -/
structure DownloadEventRow where
  gameId : Uuid
  buildId : Option Uuid
  userId : Option Uuid
  fromVersionId : Option Uuid
  kind : DownloadKind
  bytesPlanned : Int
  createdAt : Nat
  deriving DecidableEq, Repr

/-- Everything the services share. -/
structure State where
  core : Launcher.State
  gameColumns : Uuid → GameColumns
  versionColumns : Uuid → VersionColumns
  buildColumns : Uuid → BuildColumns
  displayNames : Uuid → Bytes
  media : Table GameMedia.id
  notes : Table PatchNoteRow.id
  library : Table UserGame.key
  events : List DownloadEventRow
  /-- The media store: the file at each storage key. -/
  artwork : Bytes → Option Bytes

/-! ## What the repositories return -/

/-- `domain::Game`. -/
structure GameRecord extends Game where
  title : Bytes
  summary : Bytes
  description : Bytes
  publisherDisplayName : Bytes
  releaseDate : Bytes
  createdAt : Nat
  updatedAt : Nat
  /-- Empty when there is no cover. -/
  coverStorageKey : Bytes
  deriving DecidableEq, Repr

/-- `domain::GameVersion`. -/
structure VersionRecord extends GameVersion where
  semver : Semver
  stage : BuildStage
  releaseNotes : Bytes
  publishedAt : Option Nat
  createdAt : Nat
  deriving DecidableEq, Repr

/-- `domain::Build`. -/
structure BuildRecord extends Build where
  createdAt : Nat
  readyAt : Option Nat
  deriving DecidableEq, Repr

/-- `domain::PatchNote`. -/
structure PatchNote extends PatchNoteRow where
  authorDisplayName : Bytes
  deriving DecidableEq, Repr

/-- `IMediaRepository::Stored`; the replaced key is empty when no file was displaced. -/
structure StoredMedia where
  media : GameMedia
  replacedStorageKey : Bytes
  deriving DecidableEq, Repr

structure NewGame where
  slug : Bytes
  title : Bytes
  summary : Bytes
  description : Bytes
  publisherUserId : Uuid
  releaseDate : Bytes
  visibility : GameVisibility
  deriving DecidableEq, Repr

/-- A partial update: an absent field is left untouched. -/
structure GameUpdate where
  title : Option Bytes := none
  summary : Option Bytes := none
  description : Option Bytes := none
  /-- The empty string clears the date. -/
  releaseDate : Option Bytes := none
  visibility : Option GameVisibility := none
  deriving DecidableEq, Repr

def GameUpdate.empty (changes : GameUpdate) : Bool :=
  changes.title.isNone && changes.summary.isNone && changes.description.isNone &&
    changes.releaseDate.isNone && changes.visibility.isNone

structure NewGameVersion where
  gameId : Uuid
  version : Semver
  stage : BuildStage
  releaseNotes : Bytes
  publish : Bool
  deriving DecidableEq, Repr

structure GameVersionUpdate where
  stage : Option BuildStage := none
  releaseNotes : Option Bytes := none
  published : Option Bool := none
  deriving DecidableEq, Repr

def GameVersionUpdate.empty (changes : GameVersionUpdate) : Bool :=
  changes.stage.isNone && changes.releaseNotes.isNone && changes.published.isNone

structure NewGameMedia where
  gameId : Uuid
  kind : MediaKind
  storageKey : Bytes
  sha256 : Bytes
  contentType : Bytes
  sizeBytes : Nat
  altText : Bytes
  sortOrder : Int
  deriving DecidableEq, Repr

structure GameMediaUpdate where
  altText : Option Bytes := none
  sortOrder : Option Int := none
  deriving DecidableEq, Repr

def GameMediaUpdate.empty (changes : GameMediaUpdate) : Bool :=
  changes.altText.isNone && changes.sortOrder.isNone

structure NewPatchNote where
  gameId : Uuid
  gameVersionId : Option Uuid
  title : Bytes
  bodyMarkdown : Bytes
  authorUserId : Uuid
  publish : Bool
  deriving DecidableEq, Repr

structure PatchNoteUpdate where
  title : Option Bytes := none
  bodyMarkdown : Option Bytes := none
  /-- The empty string detaches the note from its version. -/
  gameVersionId : Option Bytes := none
  published : Option Bool := none
  deriving DecidableEq, Repr

def PatchNoteUpdate.empty (changes : PatchNoteUpdate) : Bool :=
  changes.title.isNone && changes.bodyMarkdown.isNone && changes.gameVersionId.isNone &&
    changes.published.isNone

structure DownloadEvent where
  gameId : Uuid
  buildId : Uuid
  userId : Uuid
  /-- Absent for a first install. -/
  fromVersionId : Option Uuid
  kind : DownloadKind
  bytesPlanned : Int
  deriving DecidableEq, Repr

/-! ## What an update leaves of a row -/

def GameColumns.apply (columns : GameColumns) (changes : GameUpdate) (now : Nat) : GameColumns where
  title := changes.title.getD columns.title
  summary := changes.summary.getD columns.summary
  description := changes.description.getD columns.description
  releaseDate := changes.releaseDate.getD columns.releaseDate
  createdAt := columns.createdAt
  updatedAt := now

/-- Publishing again keeps the date the version first went out. -/
def VersionColumns.apply (columns : VersionColumns) (published : Bool)
    (changes : GameVersionUpdate) (now : Nat) : VersionColumns where
  semver := columns.semver
  stage := changes.stage.getD columns.stage
  releaseNotes := changes.releaseNotes.getD columns.releaseNotes
  publishedAt := if published then columns.publishedAt else now
  createdAt := columns.createdAt

/-- The row an upload leaves, under the given id and date. -/
def NewGameMedia.row (media : NewGameMedia) (id : Uuid) (createdAt : Nat) : GameMedia :=
  { id := id, gameId := media.gameId, kind := media.kind, storageKey := media.storageKey,
    sha256 := media.sha256, contentType := media.contentType, sizeBytes := media.sizeBytes,
    altText := media.altText, sortOrder := media.sortOrder, createdAt := createdAt }

def GameMedia.apply (media : GameMedia) (changes : GameMediaUpdate) : GameMedia :=
  { media with
    altText := changes.altText.getD media.altText
    sortOrder := changes.sortOrder.getD media.sortOrder }

/-- The version a note is moved to: an empty text detaches it. -/
def PatchNoteUpdate.version (changes : PatchNoteUpdate) (old : Option Uuid) : Option Uuid :=
  match changes.gameVersionId with
  | none => old
  | some text => if text.isEmpty then none else some (uuidOf text)

def PatchNoteRow.apply (note : PatchNoteRow) (changes : PatchNoteUpdate) (now : Nat) :
    PatchNoteRow :=
  { note with
    title := changes.title.getD note.title
    bodyMarkdown := changes.bodyMarkdown.getD note.bodyMarkdown
    gameVersionId := changes.version note.gameVersionId
    publishedAt := match changes.published with
      | none => note.publishedAt
      | some true => some (note.publishedAt.getD now)
      | some false => none
    updatedAt := now }

/-! ## Queries -/

inductive GameSort
  | ReleaseDate
  | Title
  | RecentlyAdded
  deriving DecidableEq, Repr

structure GameQuery where
  search : Bytes := []
  sort : GameSort := .ReleaseDate
  limit : Int := 20
  offset : Int := 0
  publisherUserId : Option Uuid := none
  includeUnpublished : Bool := false
  deriving DecidableEq, Repr

structure GamePage where
  items : List GameRecord
  total : Nat
  deriving DecidableEq, Repr

structure PatchNoteQuery where
  gameId : Uuid
  includeUnpublished : Bool
  limit : Int
  offset : Int
  deriving DecidableEq, Repr

structure PatchNotePage where
  items : List PatchNote
  total : Nat
  deriving DecidableEq, Repr

/-- How a coroutine ends without a value: it refuses the request, or a statement throws. -/
inductive Failure
  | refused (error : Error)
  | threw (error : SqlError)
  /-- A text that does not read as a uuid was cast to one. -/
  | invalidUuid
  deriving DecidableEq, Repr

/-! ## Settings and the parts of the system that are not in the repository -/

structure MediaLimits where
  maxBytes : Int
  maxVideoBytes : Int
  deriving DecidableEq, Repr

structure SignedUrlSettings where
  publicBaseUrl : Bytes
  secret : Bytes
  ttl : Nat
  deriving DecidableEq, Repr

/-- Besides the settings and the functions of the upload side: PostgreSQL's cast from text to
`uuid` (which takes more than the one spelling `isUuid` knows), `ILIKE '%' || … || '%'` and
`lower`; the digest in a signed URL; and the comparison of a plan's transferred and installed
bytes with the threshold ratio, which the server makes in floating point. -/
structure Env where
  core : Launcher.Env
  castUuid : Bytes → Option Uuid
  ilike : Bytes → Bytes → Bool
  lower : Bytes → Bytes
  media : MediaLimits
  signing : SignedUrlSettings
  md5Base64Url : Bytes → Bytes
  exceedsThreshold : Int → Int → Bool

end Launcher.Storefront
