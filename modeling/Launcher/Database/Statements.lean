import Launcher.Database.Schema

set_option autoImplicit false

/-! # The repositories' statements

Each repository method is one SQL statement (`UploadSessionRepository::create` is two), hence
one atomic step on the shared state; each blob store call is one atomic step on the files.
`Call` lists them, indexed by the type of the reply, and `exec` runs one. A statement that
violates a constraint throws (`Except SqlError`) and changes nothing.

The statements keep the names of the repository methods
(`repositories/postgres/Pg{,Upload,Catalog}Repositories.cpp`). -/

namespace Launcher

open Launcher.Lib

/-- What a call cannot decide by itself: the id `gen_random_uuid()` draws and the operation
the operating system refuses. -/
structure Choice where
  uuid : Uuid
  fault : IoFault
  deriving DecidableEq, Repr

instance : Nonempty Choice := ⟨⟨0, .none⟩⟩

namespace State

variable (env : Env) (s : State)

/-! ## Users -/

def chargeUpload (userId : Uuid) (bytes : Nat) : Bool × State :=
  match s.users.find? userId with
  | some user =>
      if user.uploadUsedBytes + bytes ≤ user.uploadQuotaBytes then
        (true, { s with
          users := s.users.modify userId
            ⟨fun u => { u with uploadUsedBytes := u.uploadUsedBytes + bytes }, fun _ => rfl⟩ })
      else (false, s)
  | none => (false, s)

/-- `GREATEST(0, upload_used_bytes - $2)` is the truncated subtraction. -/
def releaseUpload (userId : Uuid) (bytes : Nat) : State :=
  { s with
    users := s.users.modify userId
      ⟨fun u => { u with uploadUsedBytes := u.uploadUsedBytes - bytes }, fun _ => rfl⟩ }

/-! ## Blobs -/

def findMissing (sha256s : List Bytes) : List Bytes :=
  sha256s.filter (fun sha256 => (s.blobs.find? sha256).isNone)

def findMany (sha256s : List Bytes) : List BlobRecord :=
  (s.blobs.rows.filter (fun b => sha256s.contains b.sha256)).map BlobRow.read

/-- `PgBlobRepository::record`: true when the row is new. -/
def recordBlob (sha256 : Bytes) (sizeBytes : Nat) (storageKey : Bytes)
    (uploadedByUserId : Option Uuid) : Bool × State :=
  match s.blobs.find? sha256 with
  | some _ => (false, s)
  | none =>
      (true, { s with
        blobs := s.blobs.insert
          { sha256 := sha256, sizeBytes := sizeBytes, storageKey := storageKey,
            createdAt := s.now, uploadedByUserId := uploadedByUserId } })

/-- The three conditions under which a blob may be collected: old enough, named by no
manifest, and no open upload session is waiting on it. -/
def isCollectable (minimumAge : Nat) (b : BlobRow) : Bool :=
  decide (b.createdAt + minimumAge < s.now) &&
    s.buildFiles.rows.all (fun f => f.blobSha256 != b.sha256) &&
    s.sessions.rows.all (fun u => u.blobSha256 != b.sha256 || u.status != .Pending)

def findUnreferenced (minimumAge limit : Nat) : List CollectableBlob :=
  (((s.blobs.rows.filter (s.isCollectable minimumAge)).insertionSort
    (fun a b => a.createdAt ≤ b.createdAt)).take limit).map BlobRow.collectable

/-- The row that was deleted. The source keeps only whether there was one; the row is kept
for the account of what was paid for it. -/
def deleteIfUnreferenced (sha256 : Bytes) (minimumAge : Nat) : Option BlobRow × State :=
  match s.blobs.find? sha256 with
  | none => (none, s)
  | some b =>
      if s.isCollectable minimumAge b then
        (some b, { s with blobs := s.blobs.delete (fun r => decide (r.sha256 = sha256)) })
      else (none, s)

/-! ## Upload sessions -/

/-- The open session of a build for a hash, if there is one. -/
def openSession (buildId : Uuid) (sha256 : Bytes) : Option UploadSessionRow :=
  s.sessions.rows.find? (fun u =>
    u.buildId == buildId && u.blobSha256 == sha256 && u.status == .Pending)

/-- The `INSERT` of `create`: `none` when an open session of the build covers the hash. -/
def insertSession (choice : Choice) (session : NewUploadSession) :
    Except SqlError (Option UploadSession) × State :=
  if (s.builds.find? session.buildId).isNone || (s.users.find? session.userId).isNone then
    (.error .foreignKeyViolation, s)
  else if !isSha256Hex session.blobSha256 then (.error .checkViolation, s)
  else
    match s.openSession session.buildId session.blobSha256 with
    | some _ => (.ok none, s)
    | none =>
        if s.issued.contains choice.uuid then (.error .uniqueViolation, s)
        else
          let row : UploadSessionRow :=
            { id := choice.uuid, buildId := session.buildId, userId := session.userId,
              blobSha256 := session.blobSha256,
              declaredSizeBytes := session.declaredSizeBytes, receivedBytes := 0,
              status := .Pending, expiresAt := s.now + session.ttl * second }
          (.ok (some (row.read s.now)),
            { s with sessions := s.sessions.insert row, issued := choice.uuid :: s.issued })

def findSession (id : Uuid) : Option UploadSession :=
  (s.sessions.find? id).map (fun row => row.read s.now)

def reserveBytes (id : Uuid) (expectedOffset : Int) (byteCount : Nat) :
    Option UploadSession × State :=
  match s.sessions.find? id with
  | none => (none, s)
  | some row =>
      if row.status = .Pending ∧ s.now < row.expiresAt ∧ (row.receivedBytes : Int) = expectedOffset
          ∧ row.receivedBytes + byteCount ≤ row.declaredSizeBytes then
        let row' := { row with receivedBytes := row.receivedBytes + byteCount }
        (some (row'.read s.now), { s with
          sessions := s.sessions.modify id
            ⟨fun u => { u with receivedBytes := u.receivedBytes + byteCount }, fun _ => rfl⟩ })
      else (none, s)

/-- `UPDATE … SET status = … WHERE id = … AND status = 'pending'`: `markCompleted` and
`markAborted`. -/
def closeSession (id : Uuid) (status : UploadSessionStatus) : Bool × State :=
  match s.sessions.find? id with
  | none => (false, s)
  | some row =>
      if row.status = .Pending then
        (true, { s with
          sessions := s.sessions.modify id
            ⟨fun u => { u with status := status }, fun _ => rfl⟩ })
      else (false, s)

def countOpenForUser (userId : Uuid) : Nat :=
  (s.sessions.rows.filter (fun u =>
    u.userId == userId && u.status == .Pending && decide (s.now < u.expiresAt))).length

def findExpired (limit : Nat) : List UploadSession :=
  (((s.sessions.rows.filter (fun u =>
      u.status == .Pending && decide (u.expiresAt ≤ s.now))).insertionSort
    (fun a b => a.expiresAt ≤ b.expiresAt)).take limit).map (fun u => u.read s.now)

def deleteSession (id : Uuid) : Bool × State :=
  ((s.sessions.find? id).isSome,
    { s with sessions := s.sessions.delete (fun u => decide (u.id = id)) })

/-! ## Catalog -/

def findBySlug (slug : Bytes) : Option Game := s.games.rows.find? (fun g => g.slug == slug)

/-- build → version → game in one query. -/
def findOwnership (buildId : Uuid) : Option BuildOwnership := do
  let b ← s.builds.find? buildId
  let v ← s.versions.find? b.gameVersionId
  let g ← s.games.find? v.gameId
  pure
    { buildId := b.id, gameVersionId := b.gameVersionId, gameId := v.gameId,
      publisherUserId := g.publisherUserId, visibility := g.visibility, status := b.status,
      versionPublished := v.published }

def createBuild (choice : Choice) (build : NewBuild) : Except SqlError (Option Build) × State :=
  if (s.versions.find? build.gameVersionId).isNone then (.error .foreignKeyViolation, s)
  else if s.builds.rows.any (fun b => b.gameVersionId == build.gameVersionId &&
      b.platform == build.platform && b.architecture == build.architecture) then (.ok none, s)
  else if s.issued.contains choice.uuid then (.error .uniqueViolation, s)
  else
    let row : Build :=
      { id := choice.uuid, gameVersionId := build.gameVersionId, name := build.name,
        platform := build.platform, architecture := build.architecture, status := .Uploading,
        manifestSha256 := [], totalSizeBytes := 0, fileCount := 0,
        entrypointRelativePath := [], defaultLaunchArgs := [] }
    (.ok (some row),
      { s with builds := s.builds.insert row, issued := choice.uuid :: s.issued })

/-- A `build_files` row joined with its blob. -/
def joinBlob (f : BuildFileRow) : Option ManifestEntry :=
  (s.blobs.find? f.blobSha256).map (fun b =>
    { relativePath := f.relativePath, blobSha256 := f.blobSha256, sizeBytes := b.sizeBytes,
      isExecutable := f.isExecutable })

def filesFor (buildId : Uuid) : List ManifestEntry :=
  ((s.buildFiles.rows.filter (fun f => decide (f.buildId = buildId))).filterMap s.joinBlob)
    |>.insertionSort (fun a b => env.collation a.relativePath b.relativePath = true)

/-- The CHECK `build_files_relative_path_safe`. -/
def relativePathSafe (path : Bytes) : Bool :=
  !path.isEmpty && path.head? != some slash && !(path.splitOn slash).contains (ascii "..") &&
    !path.contains 0x5c &&
    !(path[1]? == some 0x3a && (path.head?.map isAlpha).getD false)

/-- The rows the manifest's files become. Paths and hashes travel as one JSON parameter; a
hash is plain ASCII and arrives as it is. -/
def manifestRows (buildId : Uuid) (files : List ManifestEntry) : List BuildFileRow :=
  files.map (fun f => ⟨buildId, env.jsonText f.relativePath, f.blobSha256, f.isExecutable⟩)

/-- `PgBuildRepository::finalize`: the status update and the insert of the file list in one
statement; `none` when the build is not uploading. -/
def finalizeBuild (buildId : Uuid) (manifest : FinalizedManifest) :
    Except SqlError (Option Build) × State :=
  if !env.acceptsText manifest.entrypointRelativePath ||
      !env.acceptsText manifest.defaultLaunchArgs then
    (.error .characterNotInRepertoire, s)
  else
    match s.builds.find? buildId with
    | none => (.ok none, s)
    | some build =>
        if build.status ≠ .Uploading then (.ok none, s)
        else
          let ready := fun b : Build => { b with
            status := .Ready
            manifestSha256 := manifest.manifestSha256
            totalSizeBytes := manifest.totalSizeBytes
            fileCount := manifest.files.length
            entrypointRelativePath := manifest.entrypointRelativePath
            defaultLaunchArgs := manifest.defaultLaunchArgs }
          let rows := manifestRows env buildId manifest.files
          if rows.any (fun f => !relativePathSafe f.relativePath) then
            (.error .checkViolation, s)
          else if rows.any (fun f => (s.blobs.find? f.blobSha256).isNone) then
            (.error .foreignKeyViolation, s)
          else
            match s.buildFiles.insertAll rows with
            | none => (.error .uniqueViolation, s)
            | some buildFiles =>
                (.ok (some (ready build)), { s with
                  builds := s.builds.modify buildId ⟨ready, fun _ => rfl⟩
                  buildFiles := buildFiles })

def markFailed (buildId : Uuid) : Bool × State :=
  match s.builds.find? buildId with
  | none => (false, s)
  | some build =>
      if build.status ≠ .Ready then
        (true, { s with
          builds := s.builds.modify buildId
            ⟨fun b => { b with status := .Failed }, fun _ => rfl⟩ })
      else (false, s)

/-- Delete builds; their manifest rows and upload sessions go by cascade. -/
def cascadeBuilds (doomed : Build → Bool) : State :=
  let gone := fun id : Uuid => ((s.builds.find? id).map doomed).getD false
  { s with
    builds := s.builds.delete doomed
    buildFiles := s.buildFiles.delete (fun f => gone f.buildId)
    sessions := s.sessions.delete (fun u => gone u.buildId) }

def removeBuild (buildId : Uuid) : Bool × State :=
  ((s.builds.find? buildId).isSome, s.cascadeBuilds (fun b => decide (b.id = buildId)))

/-- Delete versions; their builds go by cascade. -/
def cascadeVersions (doomed : GameVersion → Bool) : State :=
  { s.cascadeBuilds (fun b => ((s.versions.find? b.gameVersionId).map doomed).getD false) with
    versions := s.versions.delete doomed }

def removeVersion (versionId : Uuid) : Bool × State :=
  ((s.versions.find? versionId).isSome, s.cascadeVersions (fun v => decide (v.id = versionId)))

def removeGame (gameId : Uuid) : Bool × State :=
  ((s.games.find? gameId).isSome,
    { s.cascadeVersions (fun v => decide (v.gameId = gameId)) with
      games := s.games.delete (fun g => decide (g.id = gameId)) })

end State

/-! ## Calls -/

/-- A call a coroutine awaits, by the type of its reply. -/
inductive Call : Type → Type
  | findUser (id : Uuid) : Call (Option User)
  | chargeUpload (userId : Uuid) (bytes : Nat) : Call Bool
  | releaseUpload (userId : Uuid) (bytes : Nat) : Call Unit
  | findMissing (sha256s : List Bytes) : Call (List Bytes)
  | findBySha256 (sha256 : Bytes) : Call (Option BlobRecord)
  | findMany (sha256s : List Bytes) : Call (List BlobRecord)
  | recordBlob (sha256 : Bytes) (sizeBytes : Nat) (storageKey : Bytes)
      (uploadedByUserId : Option Uuid) : Call Bool
  | findUnreferenced (minimumAge limit : Nat) : Call (List CollectableBlob)
  | deleteIfUnreferenced (sha256 : Bytes) (minimumAge : Nat) : Call (Option BlobRow)
  | insertSession (session : NewUploadSession) : Call (Except SqlError (Option UploadSession))
  | selectOpenSession (buildId : Uuid) (sha256 : Bytes) : Call (Option UploadSession)
  | findSession (id : Uuid) : Call (Option UploadSession)
  | reserveBytes (id : Uuid) (expectedOffset : Int) (byteCount : Nat) :
      Call (Option UploadSession)
  | markCompleted (id : Uuid) : Call Bool
  | markAborted (id : Uuid) : Call Bool
  | countOpenForUser (userId : Uuid) : Call Nat
  | findExpired (limit : Nat) : Call (List UploadSession)
  | deleteSession (id : Uuid) : Call Bool
  | findGame (id : Uuid) : Call (Option Game)
  | findBySlug (slug : Bytes) : Call (Option Game)
  | findVersion (id : Uuid) : Call (Option GameVersion)
  | findBuild (id : Uuid) : Call (Option Build)
  | findOwnership (buildId : Uuid) : Call (Option BuildOwnership)
  | createBuild (build : NewBuild) : Call (Except SqlError (Option Build))
  | filesFor (buildId : Uuid) : Call (List ManifestEntry)
  | finalizeBuild (buildId : Uuid) (manifest : FinalizedManifest) :
      Call (Except SqlError (Option Build))
  | markFailed (buildId : Uuid) : Call Bool
  | removeBuild (buildId : Uuid) : Call Bool
  | removeVersion (versionId : Uuid) : Call Bool
  | removeGame (gameId : Uuid) : Call Bool
  | writeAt (staging : Path) (offset : Int) (data : Bytes) : Call VoidResult
  | commit (staging : Path) (sha256 : Bytes) : Call VoidResult
  | discard (path : Path) : Call Unit

/-- Run one call. -/
def exec (env : Env) (choice : Choice) : {α : Type} → Call α → State → α × State
  | _, .findUser id, s => (s.users.find? id, s)
  | _, .chargeUpload userId bytes, s => s.chargeUpload userId bytes
  | _, .releaseUpload userId bytes, s => ((), s.releaseUpload userId bytes)
  | _, .findMissing sha256s, s => (s.findMissing sha256s, s)
  | _, .findBySha256 sha256, s => ((s.blobs.find? sha256).map BlobRow.read, s)
  | _, .findMany sha256s, s => (s.findMany sha256s, s)
  | _, .recordBlob sha256 size key userId, s => s.recordBlob sha256 size key userId
  | _, .findUnreferenced minimumAge limit, s => (s.findUnreferenced minimumAge limit, s)
  | _, .deleteIfUnreferenced sha256 minimumAge, s => s.deleteIfUnreferenced sha256 minimumAge
  | _, .insertSession session, s => s.insertSession choice session
  | _, .selectOpenSession buildId sha256, s =>
      ((s.openSession buildId sha256).map (fun row => row.read s.now), s)
  | _, .findSession id, s => (s.findSession id, s)
  | _, .reserveBytes id offset count, s => s.reserveBytes id offset count
  | _, .markCompleted id, s => s.closeSession id .Completed
  | _, .markAborted id, s => s.closeSession id .Aborted
  | _, .countOpenForUser userId, s => (s.countOpenForUser userId, s)
  | _, .findExpired limit, s => (s.findExpired limit, s)
  | _, .deleteSession id, s => s.deleteSession id
  | _, .findGame id, s => (s.games.find? id, s)
  | _, .findBySlug slug, s => (s.findBySlug slug, s)
  | _, .findVersion id, s => (s.versions.find? id, s)
  | _, .findBuild id, s => (s.builds.find? id, s)
  | _, .findOwnership buildId, s => (s.findOwnership buildId, s)
  | _, .createBuild build, s => s.createBuild choice build
  | _, .filesFor buildId, s => (s.filesFor env buildId, s)
  | _, .finalizeBuild buildId manifest, s => s.finalizeBuild env buildId manifest
  | _, .markFailed buildId, s => s.markFailed buildId
  | _, .removeBuild buildId, s => s.removeBuild buildId
  | _, .removeVersion versionId, s => s.removeVersion versionId
  | _, .removeGame gameId, s => s.removeGame gameId
  | _, .writeAt staging offset data, s =>
      let r := writeAt s.files choice.fault staging offset data
      (r.1, { s with files := r.2 })
  | _, .commit staging sha256, s =>
      let r := commit env.sha256Hex s.files choice.fault staging sha256
      (r.1, { s with files := r.2 })
  | _, .discard path, s => ((), { s with files := discard s.files path })

end Launcher
