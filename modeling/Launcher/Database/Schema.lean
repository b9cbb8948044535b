import Launcher.Lib.Table
import Launcher.Domain.Catalog
import Launcher.Storage.BlobStore

set_option autoImplicit false

/-! # The tables and the state the server's coroutines share

The tables of migrations 0001 and 0002 that publishing a build goes through, the blob store's
files, and the clock. A column with a `CHECK (… >= 0)` is a natural number. The state also
keeps the ids `gen_random_uuid()` has handed out: it never hands one out twice. -/

namespace Launcher

open Launcher.Lib

/-- Timestamps count microseconds, the resolution of `timestamptz`. -/
def second : Nat := 1000000

/-- The columns of `users` that uploads read and write. -/
structure User where
  id : Uuid
  uploadQuotaBytes : Nat
  uploadUsedBytes : Nat
  deriving DecidableEq, Repr

/-- A row of `blobs`. -/
structure BlobRow where
  sha256 : Bytes
  sizeBytes : Nat
  storageKey : Bytes
  createdAt : Nat
  uploadedByUserId : Option Uuid
  deriving DecidableEq, Repr

inductive UploadSessionStatus
  | Pending
  | Completed
  | Aborted
  deriving DecidableEq, Repr

/-- A row of `upload_sessions`. -/
structure UploadSessionRow where
  id : Uuid
  buildId : Uuid
  userId : Uuid
  blobSha256 : Bytes
  declaredSizeBytes : Nat
  receivedBytes : Nat
  status : UploadSessionStatus
  expiresAt : Nat
  deriving DecidableEq, Repr

/-- A row of `build_files`. -/
structure BuildFileRow where
  buildId : Uuid
  relativePath : Bytes
  blobSha256 : Bytes
  isExecutable : Bool
  deriving DecidableEq, Repr

def BuildFileRow.key (row : BuildFileRow) : Uuid × Bytes := (row.buildId, row.relativePath)

/-- Everything the coroutines share. -/
structure State where
  now : Nat
  issued : List Uuid
  users : Table User.id
  games : Table Game.id
  versions : Table GameVersion.id
  builds : Table Build.id
  buildFiles : Table BuildFileRow.key
  blobs : Table BlobRow.sha256
  sessions : Table UploadSessionRow.id
  files : Files

/-! ## What the repositories return -/

/-- An upload session as a statement returns it; `expired` is `expires_at <= now()` then. -/
structure UploadSession where
  id : Uuid
  buildId : Uuid
  userId : Uuid
  blobSha256 : Bytes
  declaredSizeBytes : Nat
  receivedBytes : Nat
  status : UploadSessionStatus
  expired : Bool
  deriving DecidableEq, Repr

def UploadSession.complete (session : UploadSession) : Bool :=
  decide (session.declaredSizeBytes ≤ session.receivedBytes)

/-- `mapUploadSession`. -/
def UploadSessionRow.read (row : UploadSessionRow) (now : Nat) : UploadSession where
  id := row.id
  buildId := row.buildId
  userId := row.userId
  blobSha256 := row.blobSha256
  declaredSizeBytes := row.declaredSizeBytes
  receivedBytes := row.receivedBytes
  status := row.status
  expired := decide (row.expiresAt ≤ now)

structure NewUploadSession where
  buildId : Uuid
  userId : Uuid
  blobSha256 : Bytes
  declaredSizeBytes : Nat
  ttl : Nat
  deriving DecidableEq, Repr

structure BlobRecord where
  sha256 : Bytes
  sizeBytes : Nat
  storageKey : Bytes
  deriving DecidableEq, Repr

def BlobRow.read (row : BlobRow) : BlobRecord :=
  ⟨row.sha256, row.sizeBytes, row.storageKey⟩

/-- A blob nothing points at, with the account to refund; `none` is the empty id. -/
structure CollectableBlob where
  sha256 : Bytes
  sizeBytes : Nat
  storageKey : Bytes
  uploadedByUserId : Option Uuid
  deriving DecidableEq, Repr

def BlobRow.collectable (row : BlobRow) : CollectableBlob :=
  ⟨row.sha256, row.sizeBytes, row.storageKey, row.uploadedByUserId⟩

structure NewBuild where
  gameVersionId : Uuid
  name : Bytes
  platform : BuildPlatform
  architecture : BuildArchitecture
  deriving DecidableEq, Repr

/-- Everything the manifest of a finished build asserts. -/
structure FinalizedManifest where
  files : List ManifestEntry
  entrypointRelativePath : Bytes
  defaultLaunchArgs : Bytes
  manifestSha256 : Bytes
  totalSizeBytes : Int
  deriving DecidableEq, Repr

/-- Why a statement throws. -/
inductive SqlError
  | foreignKeyViolation
  | uniqueViolation
  | checkViolation
  | characterNotInRepertoire
  deriving DecidableEq, Repr

/-! ## Settings and the parts of the system that are not in the repository -/

structure UploadSettings where
  maxBlobBytes : Int
  maxChunkBytes : Int
  sessionTtl : Nat
  maxOpenSessionsPerUser : Int
  maxNegotiationBatch : Nat
  deriving DecidableEq, Repr

structure RetentionSettings where
  blobGraceSeconds : Nat
  batchSize : Nat
  deriving DecidableEq, Repr

/-- Settings, and the third-party functions the server calls: SHA-256 in lower-case hex, which
text parameters PostgreSQL takes (valid UTF-8), the text `->>` gives back for a string that
the JSON writer wrote into a `jsonb` parameter, and the database's order of texts. -/
structure Env where
  uploads : UploadSettings
  retention : RetentionSettings
  sha256Hex : Bytes → Bytes
  acceptsText : Bytes → Bool
  jsonText : Bytes → Bytes
  collation : Bytes → Bytes → Bool

/-- How long a blob must have existed before it can be collected, in clock units. -/
def Env.blobGrace (env : Env) : Nat := env.retention.blobGraceSeconds * second

end Launcher
