import Launcher.Lib.Coroutines
import Launcher.Database.Statements

set_option autoImplicit false

/-! # `UploadService`

The coroutines of `services/UploadService.cpp`. Each is a type whose constructors are the
places where it is suspended, with the variables it still needs, and `answered` with what it
returned; `next` gives the awaited call and what the coroutine does with the reply up to the
next call. The part of a coroutine before its first call is the function that carries the
source's name (`uploadChunk`, `beginUpload`, …). A statement that throws ends the coroutine
in `threw`: the request is answered with a server error. -/

namespace Launcher

open Launcher.Lib

def NO_SUCH_BUILD : Bytes := ascii "no such build"
def NO_SUCH_SESSION : Bytes := ascii "no such upload session"

/-- How many expired sessions one sweep reclaims. -/
def SWEEP_BATCH : Nat := 100

/-- Missing blobs reported back on a rejected manifest. -/
def MAX_REPORTED_MISSING : Nat := 20

structure BlobDeclaration where
  sha256 : Bytes
  sizeBytes : Int
  deriving DecidableEq, Repr

structure FinalizeBuildCommand where
  files : List ManifestEntry
  entrypointRelativePath : Bytes
  defaultLaunchArgs : Bytes
  deriving DecidableEq, Repr

structure ManifestDocument where
  sha256 : Bytes
  json : Bytes
  deriving DecidableEq, Repr

/-- The elements of a list in order of their first occurrence. -/
def distinctOf (values : List Bytes) : List Bytes :=
  (values.foldl (fun seen v => if seen.contains v then seen else v :: seen) []).reverse

/-! ## `writableBuild`

The checks that every upload route makes before and after it resolves the build's owner. -/

/-- Before the query. -/
def writableBuildRequest (actor : Actor) (buildId : Bytes) : Result Uuid :=
  if !actor.can .BUILD_UPLOAD then failure .Forbidden (ascii "you cannot upload builds")
  else if !isUuid buildId then failure .NotFound NO_SUCH_BUILD
  else .ok (uuidOf buildId)

/-- After the query. -/
def writableBuild (actor : Actor) (ownership : Option BuildOwnership) : Result BuildOwnership :=
  match ownership with
  | none => failure .NotFound NO_SUCH_BUILD
  | some ownership =>
      if !mayPublishBuild ownership actor then failure .NotFound NO_SUCH_BUILD
      else if ownership.status ≠ .Uploading then
        failure .Conflict (ascii "this build has already been finalized")
      else .ok ownership

/-- The two checks on a declared blob. -/
def checkDeclaration (env : Env) (blob : BlobDeclaration) : VoidResult :=
  if !isSha256Hex blob.sha256 then
    failure .InvalidInput (ascii "sha256 must be 64 lowercase hex characters")
  else if blob.sizeBytes < 0 || env.uploads.maxBlobBytes < blob.sizeBytes then
    failure .InvalidInput
      (ascii "a single file may be at most " ++ decimal env.uploads.maxBlobBytes ++ ascii " bytes")
  else .ok ()

/-! ## `missingBlobs` -/

inductive MissingBlobs
  | findOwnership (actor : Actor) (buildId : Uuid) (blobs : List BlobDeclaration)
  | findMissing (candidates : List Bytes)
  | answered (result : Result (List Bytes))

def missingBlobs (actor : Actor) (buildId : Bytes) (blobs : List BlobDeclaration) : MissingBlobs :=
  match writableBuildRequest actor buildId with
  | .error e => .answered (.error e)
  | .ok id => .findOwnership actor id blobs

/-- What `missingBlobs` does once the build is known to be writable. -/
def negotiate (env : Env) (blobs : List BlobDeclaration) : MissingBlobs :=
  if blobs.isEmpty then .answered (.ok [])
  else if env.uploads.maxNegotiationBatch < blobs.length then
    .answered (failure .InvalidInput (ascii "ask about at most " ++
      decimal env.uploads.maxNegotiationBatch ++ ascii " blobs per request"))
  else
    match blobs.forM (checkDeclaration env) with
    | .error e => .answered (.error e)
    | .ok () => .findMissing (distinctOf (blobs.map (·.sha256)))

def MissingBlobs.next (env : Env) : MissingBlobs → Suspended Call MissingBlobs
  | .findOwnership actor buildId blobs => .call (.findOwnership buildId) fun ownership =>
      match writableBuild actor ownership with
      | .error e => .answered (.error e)
      | .ok _ => negotiate env blobs
  -- an empty list is answered without asking the database; it was never sent here
  | .findMissing candidates => .call (.findMissing candidates) fun missing =>
      .answered (.ok missing)
  | .answered _ => .done

/-! ## `beginUpload` -/

inductive BeginUpload
  | findOwnership (actor : Actor) (buildId : Uuid) (blob : BlobDeclaration)
  | findBySha256 (actor : Actor) (build : BuildOwnership) (blob : BlobDeclaration)
  | countOpenForUser (actor : Actor) (build : BuildOwnership) (blob : BlobDeclaration)
  | findUser (actor : Actor) (build : BuildOwnership) (blob : BlobDeclaration)
  | insertSession (actor : Actor) (request : NewUploadSession)
  | selectOpenSession (actor : Actor) (request : NewUploadSession)
  | answered (result : Result UploadSession)
  | threw (error : SqlError)

def beginUpload (actor : Actor) (buildId : Bytes) (blob : BlobDeclaration) : BeginUpload :=
  match writableBuildRequest actor buildId with
  | .error e => .answered (.error e)
  | .ok id => .findOwnership actor id blob

/-- The last check: a session that another account opened is not handed out. -/
def openedSession (actor : Actor) (session : UploadSession) : BeginUpload :=
  if session.userId ≠ actor.userId then
    .answered (failure .Conflict (ascii "another session is already uploading this file"))
  else .answered (.ok session)

def BeginUpload.next (env : Env) : BeginUpload → Suspended Call BeginUpload
  | .findOwnership actor buildId blob => .call (.findOwnership buildId) fun ownership =>
      match writableBuild actor ownership with
      | .error e => .answered (.error e)
      | .ok build =>
          match checkDeclaration env blob with
          | .error e => .answered (.error e)
          | .ok () => .findBySha256 actor build blob
  | .findBySha256 actor build blob => .call (.findBySha256 blob.sha256) fun
      | some _ => .answered (failure .Conflict (ascii "the server already holds this content"))
      | none => .countOpenForUser actor build blob
  | .countOpenForUser actor build blob => .call (.countOpenForUser actor.userId) fun openSessions =>
      if env.uploads.maxOpenSessionsPerUser ≤ openSessions then
        .answered (failure .Conflict (ascii ("you have too many uploads in flight; " ++
          "finish or abort one before starting another")))
      else .findUser actor build blob
  | .findUser actor build blob => .call (.findUser actor.userId) fun
      | none => .answered (failure .Unauthenticated (ascii "no such account"))
      | some user =>
          -- an advisory check: the binding one is the charge when the upload completes
          if user.uploadQuotaBytes < user.uploadUsedBytes + blob.sizeBytes then
            .answered (failure .QuotaExceeded
              (ascii "this upload would take you past your quota of " ++
                decimal user.uploadQuotaBytes ++ ascii " bytes"))
          else
            .insertSession actor
              { buildId := build.buildId, userId := actor.userId, blobSha256 := blob.sha256,
                declaredSizeBytes := blob.sizeBytes.toNat, ttl := env.uploads.sessionTtl }
  | .insertSession actor request => .call (.insertSession request) fun
      | .error e => .threw e
      | .ok none => .selectOpenSession actor request
      | .ok (some session) => openedSession actor session
  | .selectOpenSession actor request =>
      .call (.selectOpenSession request.buildId request.blobSha256) fun
        | none => .answered (failure .Conflict
            (ascii "this blob has just finished uploading for that build"))
        | some session => openedSession actor session
  | .answered _ => .done
  | .threw _ => .done

/-! ## `sessionStatus`

The check shared by every route that names a session. -/

def sessionStatus (actor : Actor) (session : Option UploadSession) : Result UploadSession :=
  match session with
  | none => failure .NotFound NO_SUCH_SESSION
  | some session =>
      if session.userId ≠ actor.userId then failure .NotFound NO_SUCH_SESSION
      else .ok session

/-! ## `uploadChunk` and `completeSession` -/

/-- Where `completeSession` is suspended. `Held` is its first exit (the content is already
stored), `Refused` the second (over quota), `Failed` the third (the bytes do not hash to the
declared address). -/
inductive CompletePoint
  | findBySha256
  | discardHeld
  | markHeld
  | chargeUpload
  | discardRefused
  | abortRefused
  | commit
  | releaseFailed (error : Error)
  | abortFailed (error : Error)
  | recordBlob
  | releaseLost
  | markCompleted
  deriving DecidableEq, Repr

inductive UploadChunk
  | findSession (actor : Actor) (sessionId : Uuid) (offset : Int) (chunk : Bytes)
  | reserveBytes (session : UploadSession) (offset : Int) (chunk : Bytes)
  | writeAt (session reserved : UploadSession) (offset : Int) (chunk : Bytes)
  | abortUnwritten (session : UploadSession) (error : Error)
  | discardUnwritten (session : UploadSession) (error : Error)
  | completing (session : UploadSession) (point : CompletePoint)
  | answered (result : Result UploadSession)

def uploadChunk (actor : Actor) (sessionId : Bytes) (offset : Int) (chunk : Bytes) : UploadChunk :=
  if !isUuid sessionId then .answered (failure .NotFound NO_SUCH_SESSION)
  else .findSession actor (uuidOf sessionId) offset chunk

/-- The checks against the snapshot of the session, before anything is reserved. -/
def admitChunk (env : Env) (session : UploadSession) (offset : Int) (chunk : Bytes) :
    VoidResult :=
  if session.status ≠ .Pending then
    failure .Conflict (ascii "this upload has already finished")
  else if session.expired then
    failure .Conflict (ascii "this upload expired; start it again from the beginning")
  else if env.uploads.maxChunkBytes < chunk.length then
    failure .InvalidInput
      (ascii "a chunk may be at most " ++ decimal env.uploads.maxChunkBytes ++ ascii " bytes")
  else if offset ≠ session.receivedBytes then
    failure .Conflict (ascii "this upload is at offset " ++ decimal session.receivedBytes ++
      ascii ", not " ++ decimal offset)
  else if (session.declaredSizeBytes : Int) < offset + chunk.length then
    failure .InvalidInput (ascii "this chunk runs past the declared file size")
  else .ok ()

/-- With the session's row in hand. -/
def admitted (env : Env) (actor : Actor) (offset : Int) (chunk : Bytes)
    (found : Option UploadSession) : UploadChunk :=
  match sessionStatus actor found with
  | .error e => .answered (.error e)
  | .ok session =>
      match admitChunk env session offset chunk with
      | .error e => .answered (.error e)
      | .ok () => .reserveBytes session offset chunk

/-- After the write: the request that reserved the last byte completes the session. -/
def written (session reserved : UploadSession) : VoidResult → UploadChunk
  | .error e => .abortUnwritten session e
  | .ok () =>
      if reserved.complete then .completing reserved .findBySha256 else .answered (.ok reserved)

/-- `completeSession` succeeded: the answer is the session as completed. -/
def finished (session : UploadSession) : UploadChunk :=
  .answered (.ok { session with status := .Completed })

def UploadChunk.next (env : Env) : UploadChunk → Suspended Call UploadChunk
  | .findSession actor sessionId offset chunk =>
      .call (.findSession sessionId) (admitted env actor offset chunk)
  | .reserveBytes session offset chunk =>
      -- reserve first, write second: the database decides who owns this range
      .call (.reserveBytes session.id offset chunk.length) fun
        | none => .answered (failure .Conflict
            (ascii "another request is writing to this upload; retry after a status check"))
        | some reserved => .writeAt session reserved offset chunk
  | .writeAt session reserved offset chunk =>
      .call (.writeAt (stagingPathFor session.id) offset chunk) (written session reserved)
  | .abortUnwritten session e => .call (.markAborted session.id) fun _ =>
      .discardUnwritten session e
  | .discardUnwritten session e => .call (.discard (stagingPathFor session.id)) fun _ =>
      .answered (.error e)
  | .completing s .findBySha256 => .call (.findBySha256 s.blobSha256) fun
      | some _ => .completing s .discardHeld
      | none => .completing s .chargeUpload
  | .completing s .discardHeld => .call (.discard (stagingPathFor s.id)) fun _ =>
      .completing s .markHeld
  | .completing s .markHeld => .call (.markCompleted s.id) fun _ => finished s
  | .completing s .chargeUpload => .call (.chargeUpload s.userId s.declaredSizeBytes) fun charged =>
      if charged then .completing s .commit else .completing s .discardRefused
  | .completing s .discardRefused => .call (.discard (stagingPathFor s.id)) fun _ =>
      .completing s .abortRefused
  | .completing s .abortRefused => .call (.markAborted s.id) fun _ =>
      .answered (failure .QuotaExceeded
        (ascii "storing this file would take you past your upload quota"))
  | .completing s .commit => .call (.commit (stagingPathFor s.id) s.blobSha256) fun
      | .error e => .completing s (.releaseFailed e)
      | .ok () => .completing s .recordBlob
  | .completing s (.releaseFailed e) => .call (.releaseUpload s.userId s.declaredSizeBytes)
      fun _ => .completing s (.abortFailed e)
  | .completing s (.abortFailed e) => .call (.markAborted s.id) fun _ => .answered (.error e)
  | .completing s .recordBlob =>
      .call (.recordBlob s.blobSha256 s.declaredSizeBytes (storageKeyFor s.blobSha256)
        (some s.userId)) fun stored =>
          if stored then .completing s .markCompleted else .completing s .releaseLost
  | .completing s .releaseLost => .call (.releaseUpload s.userId s.declaredSizeBytes) fun _ =>
      .completing s .markCompleted
  | .completing s .markCompleted => .call (.markCompleted s.id) fun _ => finished s
  | .answered _ => .done

theorem sessionStatus_ok {actor : Actor} {found : Option UploadSession} {session : UploadSession}
    (h : sessionStatus actor found = .ok session) :
    found = some session ∧ session.userId = actor.userId := by
  unfold sessionStatus at h
  cases found with
  | none => cases h
  | some x =>
      by_cases hu : x.userId = actor.userId
      · simp only [ne_eq, hu, not_true_eq_false, if_false] at h
        cases h
        exact ⟨rfl, hu⟩
      · simp only [ne_eq, hu, not_false_eq_true, if_true] at h
        cases h

/-- A request goes on only from a session of the caller that passed every check. -/
theorem admitted_cases (env : Env) (actor : Actor) (offset : Int) (chunk : Bytes)
    (found : Option UploadSession) :
    (∃ r, admitted env actor offset chunk found = .answered (.error r)) ∨
    ∃ session, found = some session ∧ session.userId = actor.userId ∧
      admitChunk env session offset chunk = .ok () ∧
      admitted env actor offset chunk found = .reserveBytes session offset chunk := by
  unfold admitted
  cases hs : sessionStatus actor found with
  | error e => exact Or.inl ⟨e, rfl⟩
  | ok session =>
      obtain ⟨hf, hu⟩ := sessionStatus_ok hs
      cases ha : admitChunk env session offset chunk with
      | error e => exact Or.inl ⟨e, by simp only [ha]⟩
      | ok _ => exact Or.inr ⟨session, hf, hu, ha, by simp only [ha]⟩

theorem written_cases (session reserved : UploadSession) (r : VoidResult) :
    (∃ e, r = .error e ∧ written session reserved r = .abortUnwritten session e) ∨
    (r = .ok () ∧ reserved.complete = true ∧
      written session reserved r = .completing reserved .findBySha256) ∨
    (r = .ok () ∧ reserved.complete = false ∧
      written session reserved r = .answered (.ok reserved)) := by
  cases r with
  | error e => exact Or.inl ⟨e, rfl, rfl⟩
  | ok _ =>
      right
      cases hc : reserved.complete with
      | true => exact Or.inl ⟨rfl, rfl, by simp [written, hc]⟩
      | false => exact Or.inr ⟨rfl, rfl, by simp [written, hc]⟩

/-! ## `abortUpload` -/

inductive AbortUpload
  | findSession (actor : Actor) (sessionId : Uuid)
  | markAborted (session : UploadSession)
  | discard (session : UploadSession)
  | answered (result : VoidResult)

def abortUpload (actor : Actor) (sessionId : Bytes) : AbortUpload :=
  if !isUuid sessionId then .answered (failure .NotFound NO_SUCH_SESSION)
  else .findSession actor (uuidOf sessionId)

def AbortUpload.next : AbortUpload → Suspended Call AbortUpload
  | .findSession actor sessionId => .call (.findSession sessionId) fun found =>
      match sessionStatus actor found with
      | .error e => .answered (.error e)
      | .ok session => .markAborted session
  | .markAborted session => .call (.markAborted session.id) fun _ => .discard session
  | .discard session => .call (.discard (stagingPathFor session.id)) fun _ => .answered (.ok ())
  | .answered _ => .done

/-! ## `finalizeBuild` and `manifest` -/

inductive FinalizeBuild
  | findOwnership (actor : Actor) (buildId : Uuid) (command : FinalizeBuildCommand)
  | findMany (build : BuildOwnership) (command : FinalizeBuildCommand)
  | finalize (build : BuildOwnership) (command : FinalizeBuildCommand)
      (manifest : FinalizedManifest)
  | answered (result : Result Build)
  | threw (error : SqlError)

def finalizeBuild (actor : Actor) (buildId : Bytes) (command : FinalizeBuildCommand) :
    FinalizeBuild :=
  match writableBuildRequest actor buildId with
  | .error e => .answered (.error e)
  | .ok id => .findOwnership actor id command

/-- The checks on the submitted manifest, in the source's order. -/
def checkCommand (command : FinalizeBuildCommand) : VoidResult :=
  if MAX_LAUNCH_ARGS_LENGTH < command.defaultLaunchArgs.length then
    failure .InvalidInput (ascii "launchArgs must be at most " ++
      decimal MAX_LAUNCH_ARGS_LENGTH ++ ascii " characters")
  else validateManifest command.files (trim command.entrypointRelativePath)

/-- The size the store reports for a hash; `sizes` keeps the first record of each. -/
def sizeOf (records : List BlobRecord) (sha256 : Bytes) : Option Nat :=
  (records.find? (fun r => r.sha256 == sha256)).map (·.sizeBytes)

/-- The hashes of the manifest the store does not hold. -/
def missingFrom (records : List BlobRecord) (files : List ManifestEntry) : List Bytes :=
  (distinctOf (files.map (·.blobSha256))).filter (fun sha256 => (sizeOf records sha256).isNone)

/-- Names up to `MAX_REPORTED_MISSING` missing hashes. -/
def missingDetail (missing : List Bytes) : Bytes :=
  ascii "upload these blobs before finalizing the build:" ++
    (missing.take MAX_REPORTED_MISSING).flatMap (fun sha256 => ascii " " ++ sha256) ++
    (if MAX_REPORTED_MISSING < missing.length then ascii " and more" else [])

/-- The manifest to store. Sizes come from the store, never from the request. -/
def finalizedManifest (env : Env) (records : List BlobRecord) (command : FinalizeBuildCommand) :
    FinalizedManifest :=
  let files := command.files.map (fun f =>
    { f with sizeBytes := ((sizeOf records f.blobSha256).getD 0 : Nat) })
  let entrypoint := trim command.entrypointRelativePath
  { files := files
    entrypointRelativePath := entrypoint
    defaultLaunchArgs := command.defaultLaunchArgs
    manifestSha256 :=
      env.sha256Hex (canonicalManifestDocument files entrypoint command.defaultLaunchArgs)
    totalSizeBytes := (files.map (·.sizeBytes)).sum }

def FinalizeBuild.next (env : Env) : FinalizeBuild → Suspended Call FinalizeBuild
  | .findOwnership actor buildId command => .call (.findOwnership buildId) fun ownership =>
      match writableBuild actor ownership with
      | .error e => .answered (.error e)
      | .ok build =>
          match checkCommand command with
          | .error e => .answered (.error e)
          | .ok () => .findMany build command
  | .findMany build command =>
      .call (.findMany (distinctOf (command.files.map (·.blobSha256)))) fun records =>
        let missing := missingFrom records command.files
        if missing.isEmpty then
          .finalize build command (finalizedManifest env records command)
        else .answered (failure .InvalidInput (missingDetail missing))
  | .finalize build _ manifest => .call (.finalizeBuild build.buildId manifest) fun
      | .error e => .threw e
      | .ok none =>
          .answered (failure .Conflict (ascii "this build has already been finalized"))
      | .ok (some finalized) => .answered (.ok finalized)
  | .answered _ => .done
  | .threw _ => .done

inductive Manifest
  | findOwnership (actor : Actor) (buildId : Uuid)
  | findBuild (buildId : Uuid)
  | filesFor (build : Build)
  | answered (result : Result ManifestDocument)

def manifest (actor : Actor) (buildId : Bytes) : Manifest :=
  if !actor.can .GAME_DOWNLOAD then
    .answered (failure .Forbidden (ascii "you cannot download builds"))
  else if !isUuid buildId then .answered (failure .NotFound NO_SUCH_BUILD)
  else .findOwnership actor (uuidOf buildId)

def Manifest.next : Manifest → Suspended Call Manifest
  | .findOwnership actor buildId => .call (.findOwnership buildId) fun
      | none => .answered (failure .NotFound NO_SUCH_BUILD)
      | some ownership =>
          if !mayReadBuild ownership actor then .answered (failure .NotFound NO_SUCH_BUILD)
          else if ownership.status ≠ .Ready then
            .answered (failure .NotFound (ascii "this build is not downloadable yet"))
          else .findBuild buildId
  | .findBuild buildId => .call (.findBuild buildId) fun
      | none => .answered (failure .NotFound NO_SUCH_BUILD)
      | some build => .filesFor build
  | .filesFor build => .call (.filesFor build.id) fun files =>
      .answered (.ok
        { sha256 := build.manifestSha256
          json := canonicalManifestDocument files build.entrypointRelativePath
            build.defaultLaunchArgs })
  | .answered _ => .done

/-! ## `sweepExpiredSessions` -/

inductive SweepSessions
  | findExpired
  | discard (session : UploadSession) (rest : List UploadSession) (reclaimed : Nat)
  | deleteSession (session : UploadSession) (rest : List UploadSession) (reclaimed : Nat)
  | finished (reclaimed : Nat)

/-- The loop over the expired sessions. -/
def SweepSessions.loop : List UploadSession → Nat → SweepSessions
  | [], reclaimed => .finished reclaimed
  | session :: rest, reclaimed => .discard session rest reclaimed

def SweepSessions.next : SweepSessions → Suspended Call SweepSessions
  | .findExpired => .call (.findExpired SWEEP_BATCH) fun expired => .loop expired 0
  | .discard session rest reclaimed => .call (.discard (stagingPathFor session.id)) fun _ =>
      .deleteSession session rest reclaimed
  | .deleteSession session rest reclaimed => .call (.deleteSession session.id) fun deleted =>
      .loop rest (if deleted then reclaimed + 1 else reclaimed)
  | .finished _ => .done

end Launcher
