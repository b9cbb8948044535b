import Launcher.Lib.Serial
import Launcher.Releases.Statements

set_option autoImplicit false

/-! # Publishing and retiring

The two commands of `app/ReleasePublish.cpp`, with `ReleaseStore::store`, as programs over the
calls of `Releases/Statements.lean`. The operator's own files are those that are there while the
command runs; a command ends with an answer, a refusal, or an exception of jsoncpp's. -/

namespace Launcher.Releases

open Lib

/-- How a command ends without an answer. -/
inductive Refusal
  | error (e : Error)
  | thrown (e : LogicError)
  deriving DecidableEq, Repr

abbrev Command (α : Type) := Program Call Refusal α

def refuse {α : Type} (code : ErrorCode) (detail : Bytes) : Command α :=
  .fail (.error { code := code, detail := detail })

def orRefuse {α : Type} : Result α → Command α
  | .ok a => pure a
  | .error e => .fail (.error e)

/-! ## The release store -/

namespace ReleaseStore

def ARTIFACT_EXTENSION : Bytes := ascii ".zip"

def storageKeyFor (sha256 : Bytes) : Bytes :=
  if isSha256Hex sha256 then
    sha256.take 2 ++ [slash] ++ (sha256.drop 2).take 2 ++ [slash] ++ sha256 ++ ARTIFACT_EXTENSION
  else []

/-- `root_ / storageKey`. -/
def under (storageKey : Bytes) : Path := storageKey.splitOn slash

def stagingFor (sha256 : Bytes) : Path := [STAGING_DIRECTORY, sha256 ++ ARTIFACT_EXTENSION]

def ensureDirectory (directory : Path) : Command Unit := do
  match ← Program.await (.createDirectories directory) with
  | none => pure ()
  | some message =>
      refuse .DependencyFailure (ascii "cannot create the release directory: " ++ message)

/-- Copies the artifact into staging and moves it to its place. -/
def place (content sha256 key : Bytes) : Command Bytes := do
  ensureDirectory [STAGING_DIRECTORY]
  ensureDirectory (under key).dropLast
  let staging := stagingFor sha256
  Program.await (.removeFile staging)
  match ← Program.await (.copyFile content staging) with
  | some message => refuse .DependencyFailure (ascii "cannot stage the artifact: " ++ message)
  | none =>
      match ← Program.await (.rename staging (under key)) with
      | none => pure key
      | some message =>
          if ← Program.await (.isRegularFile (under key)) then
            Program.await (.removeFile staging)
            pure key
          else
            Program.await (.removeFile staging)
            refuse .DependencyFailure
              (ascii "cannot move the artifact into storage: " ++ message)

/-- `store`, given what is at the path of the artifact. -/
def store (artifactPath : Bytes) (artifact : Option Bytes) (expectedSha256 : Bytes) :
    Command Bytes := do
  let key := storageKeyFor expectedSha256
  if key.isEmpty then
    refuse .InvalidInput (ascii "the expected hash is not a SHA-256 digest")
  else
    match artifact with
    | none => refuse .InvalidInput (ascii "no such file: " ++ artifactPath)
    | some content =>
        let actual ← (Program.await (.sha256File content) >>= orRefuse : Command Bytes)
        if actual ≠ expectedSha256 then
          refuse .InvalidInput
            (ascii ("the artifact does not match the hash in the signed document: " ++
              "it hashes to ") ++ actual ++ ascii ", the document names " ++ expectedSha256)
        else if ← Program.await (.isRegularFile (under key)) then pure key
        else place content actual key

end ReleaseStore

/-! ## publishRelease -/

/-- The paths of the command line. -/
structure ReleasePublishRequest where
  documentPath : Bytes
  signaturePath : Bytes
  artifactPath : Bytes
  deriving DecidableEq, Repr

inductive ReleasePublishOutcome
  | Published
  | AlreadyPublished
  deriving DecidableEq, Repr

/-- The operator's files, by path. -/
abbrev Sources := Bytes → Option Bytes

def readWholeFile (sources : Sources) (path : Bytes) : Result Bytes :=
  match sources path with
  | none => failure .InvalidInput (ascii "cannot read " ++ path)
  | some content => .ok content

def isSpace (c : UInt8) : Bool := c == 0x20 || c == 0x09 || c == 0x0d || c == 0x0a

def withoutSurroundingWhitespace (text : Bytes) : Bytes :=
  ((text.reverse.dropWhile isSpace).reverse).dropWhile isSpace

/-- `PQerrorMessage` without its line break. -/
def trimmed (message : Bytes) : Bytes :=
  (message.reverse.dropWhile (fun c => c == 0x0a || c == 0x0d)).reverse

/-- What libpq sees of a `std::string` it is given by `c_str()`. -/
def cString (text : Bytes) : Bytes := text.takeWhile (· != 0)

def parseDocument (env : Env) (json : Bytes) : Command ReleaseDocument :=
  match parseReleaseDocument env.jsoncpp json with
  | .error thrown => .fail (.thrown thrown)
  | .ok result => orRefuse result

/-- The parameters of the insert. -/
def newRelease (publicKey document signature storageKey : Bytes) (release : ReleaseDocument) :
    NewRelease where
  channel := release.channel.name
  version := cString release.version.text
  versionMajor := release.version.major
  versionMinor := release.version.minor
  versionPatch := release.version.patch
  platform := release.platform.name
  arch := release.arch.name
  artifactSha256 := cString release.artifactSha256
  artifactSize := release.artifactSize
  storageKey := cString storageKey
  document := cString document
  signature := cString signature
  releasedAt := cString release.releasedAt
  publicKey := publicKey

def connect : Command Unit := do
  match ← Program.await .connect with
  | none => pure ()
  | some message =>
      refuse .DependencyFailure (ascii "cannot connect to the database: " ++ trimmed message)

/-- The insert, once the artifact is stored. -/
def record (release : NewRelease) : Command ReleasePublishOutcome := do
  connect
  match ← Program.await (.publish release) with
  | .error message =>
      refuse .DependencyFailure (ascii "cannot record the release: " ++ trimmed message)
  | .ok tuples => pure (if tuples = 0 then .AlreadyPublished else .Published)

def publishRelease (env : Env) (publicKey : Bytes) (sources : Sources)
    (request : ReleasePublishRequest) : Command ReleasePublishOutcome := do
  if publicKey.isEmpty then
    refuse .InvalidInput (ascii ("no release signing key is configured: set " ++
      "LAUNCHER_RELEASE_PUBLIC_KEY to the public half of the key you sign releases with"))
  else
    let document ← orRefuse (readWholeFile sources request.documentPath)
    let signatureBytes ← orRefuse (readWholeFile sources request.signaturePath)
    let signature := withoutSurroundingWhitespace signatureBytes
    let release ← parseDocument env document
    match verifyP256Signature env.crypto publicKey signature document with
    | .error e =>
        refuse .InvalidInput
          (ascii "the signature does not check out against the configured public key: " ++
            e.detail)
    | .ok () =>
        let storageKey ← ReleaseStore.store request.artifactPath (sources request.artifactPath)
          release.artifactSha256
        record (newRelease publicKey document signature storageKey release)

/-! ## retireRelease -/

inductive ReleaseRetireOutcome
  | Retired
  | NotLive
  deriving DecidableEq, Repr

def retireRelease (query : ReleaseQuery) (version : Bytes) : Command ReleaseRetireOutcome := do
  connect
  match ← Program.await (.retire query (cString version)) with
  | .error message =>
      refuse .DependencyFailure (ascii "cannot retire the release: " ++ trimmed message)
  | .ok tuples => pure (if tuples = 0 then .NotLive else .Retired)

/-! ## Runs -/

/-- A command as it is given: the configured key and the operator's files, or a release. -/
inductive Request
  | publish (publicKey : Bytes) (sources : Sources) (request : ReleasePublishRequest)
  | retire (query : ReleaseQuery) (version : Bytes)

def Request.program (env : Env) : Request → Command Unit
  | .publish publicKey sources request => do
      let _ ← publishRelease env publicKey sources request
      pure ()
  | .retire query version => do
      let _ ← retireRelease query version
      pure ()

def serial (env : Env) : Serial Call Refusal State Request Choice where
  program := Request.program env
  exec := exec env

abbrev Event := Serial.Event Request Choice

/-- Nothing published, nothing stored. -/
def State.initial : State where
  files := fun _ => none
  releases := Table.empty

/-- Where the commands have come to. -/
def run (env : Env) (events : List Event) : Serial.Point Call Refusal State Request :=
  (serial env).run (.initial State.initial) events

end Launcher.Releases
