import Launcher.Domain.DeltaPlans
import Launcher.Services.Upload
import Launcher.Storefront.Catalog

set_option autoImplicit false

/-! # `DownloadService`

`services/DownloadService.cpp`: the plan that takes a client from one build to another, and the
comparison of an install with the manifest it should match. Both answer with signed URLs
(`storage/DownloadUrlSigner.cpp`); the bytes themselves are served by the file server. -/

namespace Launcher.Storefront

open Launcher.Lib

/-! ## Signed URLs -/

def withoutTrailingSlash (text : Bytes) : Bytes :=
  (text.reverse.dropWhile (· == slash)).reverse

/-- The path nginx sees: what follows the host. -/
def pathComponentOf (url : Bytes) : Bytes :=
  let searchFrom := match url.tails.findIdx? (fun rest => startsWith rest (ascii "://")) with
    | none => 0
    | some scheme => scheme + 3
  match (url.drop searchFrom).idxOf? slash with
  | none => []
  | some path => withoutTrailingSlash (url.drop (searchFrom + path))

/-- `DownloadUrlSigner::expiryFor`, in seconds. -/
def Env.expiryFor (env : Env) (now : Nat) : Nat := now / second + env.signing.ttl

/-- `DownloadUrlSigner::sign`. -/
def Env.sign (env : Env) (storageKey : Bytes) (expiresAt : Nat) : Bytes :=
  let expires := decimal expiresAt
  let uri := pathComponentOf env.signing.publicBaseUrl ++ [slash] ++ storageKey
  let token := env.md5Base64Url (expires ++ uri ++ ascii " " ++ env.signing.secret)
  withoutTrailingSlash env.signing.publicBaseUrl ++ [slash] ++ storageKey ++
    ascii "?token=" ++ token ++ ascii "&expires=" ++ expires

structure DownloadFile where
  entry : ManifestEntry
  copyFromRelativePath : Bytes
  url : Bytes
  deriving DecidableEq, Repr

/-- Paths that share a blob share its URL: it depends on nothing else. -/
def Env.signAll (env : Env) (files : List DeltaFile) (expiresAt : Nat) : List DownloadFile :=
  files.map (fun file => ⟨file.entry, file.copyFromRelativePath,
    env.sign (storageKeyFor file.entry.blobSha256) expiresAt⟩)

/-! ## Which builds may be downloaded -/

def CANNOT_DOWNLOAD : Bytes := ascii "you cannot download builds"
def NOT_DOWNLOADABLE_YET : Bytes := ascii "this build is not downloadable yet"

/-- The part of `downloadableBuild` before its query. -/
def downloadableRequest (actor : Actor) (buildId : Bytes) : Result Uuid :=
  if !actor.can .GAME_DOWNLOAD then failure .Forbidden CANNOT_DOWNLOAD
  else if !isUuid buildId then failure .NotFound NO_SUCH_BUILD
  else .ok (uuidOf buildId)

/-- The part after it. -/
def downloadable (actor : Actor) (ownership : Option BuildOwnership) : Result BuildOwnership :=
  match ownership with
  | none => failure .NotFound NO_SUCH_BUILD
  | some ownership =>
      if !mayReadBuild ownership actor then failure .NotFound NO_SUCH_BUILD
      else if ownership.status ≠ .Ready then failure .NotFound NOT_DOWNLOADABLE_YET
      else .ok ownership

/-- Answers with the refusal instead of ending in it: `plan` looks at it. -/
def downloadableBuild (actor : Actor) (buildId : Bytes) : Coroutine (Result BuildOwnership) :=
  match downloadableRequest actor buildId with
  | .error e => pure (.error e)
  | .ok id => do
      let ownership ← .await (.core (.findOwnership id))
      pure (downloadable actor ownership)

/-! ## `plan` -/

structure DownloadPlan where
  buildId : Uuid
  gameId : Uuid
  gameVersionId : Uuid
  kind : DownloadKind
  manifestSha256 : Bytes
  entrypointRelativePath : Bytes
  defaultLaunchArgs : Bytes
  files : List DownloadFile
  unchanged : List ManifestEntry
  remove : List Bytes
  downloadBytes : Int
  totalBytes : Int
  urlsExpireAt : Nat
  deriving DecidableEq, Repr

/-- The files of the build the client has, with its version, when the caller may still read
it; a source that cannot be read counts as nothing installed. -/
def installedFrom (actor : Actor) (target : BuildOwnership) (fromBuildId : Bytes) :
    Coroutine (Option Uuid × List ManifestEntry) := do
  if fromBuildId.isEmpty then pure (none, [])
  else
    match ← downloadableBuild actor fromBuildId with
    | .error _ => pure (none, [])
    | .ok source =>
        if source.gameId ≠ target.gameId then
          refuse .InvalidInput
            (ascii "the build you are updating from belongs to a different game")
        else
          let installed ← .await (.core (.filesFor (uuidOf fromBuildId)))
          pure (some source.gameVersionId, installed)

/-- The delta, or a full download when nothing is installed or the delta is not worth it. -/
def Env.chooseDelta (env : Env) (installed files : List ManifestEntry) : BuildDelta :=
  if installed.isEmpty then fullDownload installed files
  else
    let delta := computeDelta installed files
    if env.exceedsThreshold delta.downloadBytes delta.totalBytes then fullDownload installed files
    else delta

def Env.planOf (env : Env) (target : BuildOwnership) (build : Build) (delta : BuildDelta)
    (now : Nat) : DownloadPlan where
  buildId := target.buildId
  gameId := target.gameId
  gameVersionId := target.gameVersionId
  kind := delta.kind
  manifestSha256 := build.manifestSha256
  entrypointRelativePath := build.entrypointRelativePath
  defaultLaunchArgs := build.defaultLaunchArgs
  files := env.signAll delta.fetch (env.expiryFor now)
  unchanged := delta.unchanged
  remove := delta.remove
  downloadBytes := delta.downloadBytes
  totalBytes := delta.totalBytes
  urlsExpireAt := env.expiryFor now

/-- A plan with nothing to fetch is not counted as a download. -/
def recordPlan (actor : Actor) (fromVersionId : Option Uuid) (plan : DownloadPlan) :
    Coroutine Unit :=
  if plan.files.isEmpty then pure ()
  else statement (.recordEvent
    { gameId := plan.gameId, buildId := plan.buildId, userId := actor.userId,
      fromVersionId := fromVersionId, kind := plan.kind, bytesPlanned := plan.downloadBytes })

def plan (env : Env) (actor : Actor) (buildId fromBuildId : Bytes) : Coroutine DownloadPlan := do
  let target ← require (← downloadableBuild actor buildId)
  let (fromVersionId, installed) ← installedFrom actor target fromBuildId
  match ← .await (.core (.findBuild (uuidOf buildId))) with
  | none => refuse .NotFound NO_SUCH_BUILD
  | some build =>
      let files ← .await (.core (.filesFor (uuidOf buildId)))
      let now ← .await .clock
      let plan := env.planOf target build (env.chooseDelta installed files) now
      recordPlan actor fromVersionId plan
      pure plan

/-! ## `verifyInstall` -/

/-- A file of the install, as the client reports it. -/
structure InstalledFile where
  relativePath : Bytes
  sha256 : Bytes
  deriving DecidableEq, Repr

structure IntegrityReport where
  buildId : Uuid
  manifestSha256 : Bytes
  intact : Bool
  missing : List Bytes
  corrupt : List Bytes
  unexpected : List Bytes
  repair : List DownloadFile
  repairBytes : Int
  urlsExpireAt : Nat
  deriving DecidableEq, Repr

abbrev Observed := Table InstalledFile.relativePath

/-- One round of the loop over the reported files. -/
def observe (observed : Observed) (file : InstalledFile) : Result Observed :=
  if file.relativePath.isEmpty || MAX_RELATIVE_PATH_LENGTH < file.relativePath.length then
    failure .InvalidInput (ascii "each reported file needs a path of at most " ++
      decimal MAX_RELATIVE_PATH_LENGTH ++ ascii " characters")
  else if !isSha256Hex file.sha256 then
    failure .InvalidInput
      (ascii "sha256 must be 64 lowercase hex characters, for " ++ file.relativePath)
  else if (observed.find? file.relativePath).isSome then
    failure .Conflict (ascii "you reported " ++ file.relativePath ++ ascii " twice")
  else .ok (observed.insert file)

def checkInstalled (installed : List InstalledFile) : Result Observed :=
  if MAX_MANIFEST_ENTRIES < installed.length then
    failure .InvalidInput (ascii "an install may contain at most " ++
      decimal MAX_MANIFEST_ENTRIES ++ ascii " files")
  else installed.foldlM observe Table.empty

/-- The lists the loop over the manifest fills. -/
structure Comparison where
  missing : List Bytes := []
  corrupt : List Bytes := []
  damaged : List DeltaFile := []
  deriving DecidableEq, Repr

/-- One round of the loop over the manifest. -/
def compareEntry (observed : Observed) (found : Comparison) (entry : ManifestEntry) :
    Comparison :=
  match observed.find? entry.relativePath with
  | none => { found with
      missing := found.missing ++ [entry.relativePath]
      damaged := found.damaged ++ [⟨entry, []⟩] }
  | some file =>
      if file.sha256 ≠ entry.blobSha256 then { found with
        corrupt := found.corrupt ++ [entry.relativePath]
        damaged := found.damaged ++ [⟨entry, []⟩] }
      else found

def distinctBlobBytes (files : List DownloadFile) : Int :=
  (files.foldl (fun (counted : List Bytes × Int) file =>
    if counted.1.contains file.entry.blobSha256 then counted
    else (file.entry.blobSha256 :: counted.1, counted.2 + file.entry.sizeBytes)) ([], 0)).2

def Env.reportOf (env : Env) (ownership : BuildOwnership) (build : Build)
    (installed : List InstalledFile) (observed : Observed) (expected : List ManifestEntry)
    (now : Nat) : IntegrityReport :=
  let found := expected.foldl (compareEntry observed) {}
  let manifestPaths := expected.map (·.relativePath)
  let repair := env.signAll found.damaged (env.expiryFor now)
  { buildId := ownership.buildId
    manifestSha256 := build.manifestSha256
    -- files the manifest never mentioned do not make an install broken
    intact := found.missing.isEmpty && found.corrupt.isEmpty
    missing := found.missing
    corrupt := found.corrupt
    unexpected := ((installed.map (·.relativePath)).filter
      (fun path => !manifestPaths.contains path)).insertionSort (fun lhs rhs => lhs ≤ rhs)
    repair := repair
    repairBytes := distinctBlobBytes repair
    urlsExpireAt := env.expiryFor now }

def verifyInstall (env : Env) (actor : Actor) (buildId : Bytes) (installed : List InstalledFile) :
    Coroutine IntegrityReport := do
  let ownership ← require (← downloadableBuild actor buildId)
  let observed ← require (checkInstalled installed)
  match ← .await (.core (.findBuild (uuidOf buildId))) with
  | none => refuse .NotFound NO_SUCH_BUILD
  | some build =>
      let expected ← .await (.core (.filesFor (uuidOf buildId)))
      let now ← .await .clock
      pure (env.reportOf ownership build installed observed expected now)

end Launcher.Storefront
