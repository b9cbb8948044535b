import Launcher.Database.Frame
import Launcher.Services.Upload
import Launcher.Services.Retention
import Launcher.Services.Catalog

set_option autoImplicit false

/-! # The server

All coroutines together, as one `System`: clients and timers start any of them at any time
(`Request`), and the other services change the accounts, games and versions this part of the
server reads (`Outside`). `Initial` is a deployment before its first upload.

The lemmas at the end say which coroutine can change which table, so that an invariant of a
table is proved by looking only at the coroutines that write it. -/

namespace Launcher

open Launcher.Lib

inductive Task
  | missingBlobs (t : MissingBlobs)
  | beginUpload (t : BeginUpload)
  | uploadChunk (t : UploadChunk)
  | abortUpload (t : AbortUpload)
  | finalizeBuild (t : FinalizeBuild)
  | manifest (t : Manifest)
  | sweepSessions (t : SweepSessions)
  | collectBlobs (t : CollectBlobs)
  | createBuild (t : CreateBuild)
  | deleteBuild (t : DeleteBuild)
  | deleteVersion (t : DeleteVersion)
  | deleteGame (t : DeleteGame)
  | markFailed (buildId : Uuid)
  | markedFailed (marked : Bool)

inductive Request
  | missingBlobs (actor : Actor) (buildId : Bytes) (blobs : List BlobDeclaration)
  | beginUpload (actor : Actor) (buildId : Bytes) (blob : BlobDeclaration)
  | uploadChunk (actor : Actor) (sessionId : Bytes) (offset : Int) (chunk : Bytes)
  | abortUpload (actor : Actor) (sessionId : Bytes)
  | finalizeBuild (actor : Actor) (buildId : Bytes) (command : FinalizeBuildCommand)
  | manifest (actor : Actor) (buildId : Bytes)
  | sweepExpiredSessions
  | collectUnreferencedBlobs
  | createBuild (actor : Actor) (gameId : Bytes) (command : CreateBuildCommand)
  | deleteBuild (actor : Actor) (buildId : Bytes)
  | deleteVersion (actor : Actor) (gameId versionId : Bytes)
  | deleteGame (actor : Actor) (idOrSlug : Bytes)
  | markFailed (buildId : Uuid)

/-- What happens to the shared tables from elsewhere: time passes, an account registers, and
the catalog service creates and updates games and versions. -/
inductive Outside
  | tick (duration : Nat)
  | registerUser (id : Uuid) (uploadQuotaBytes : Nat)
  | createGame (game : Game)
  | updateGame (id : Uuid) (visibility : GameVisibility)
  | createVersion (version : GameVersion)
  | updateVersion (id : Uuid) (published : Bool)

def entry : Request → Task
  | .missingBlobs actor buildId blobs => .missingBlobs (missingBlobs actor buildId blobs)
  | .beginUpload actor buildId blob => .beginUpload (beginUpload actor buildId blob)
  | .uploadChunk actor sessionId offset chunk =>
      .uploadChunk (uploadChunk actor sessionId offset chunk)
  | .abortUpload actor sessionId => .abortUpload (abortUpload actor sessionId)
  | .finalizeBuild actor buildId command => .finalizeBuild (finalizeBuild actor buildId command)
  | .manifest actor buildId => .manifest (manifest actor buildId)
  | .sweepExpiredSessions => .sweepSessions .findExpired
  | .collectUnreferencedBlobs => .collectBlobs .findUnreferenced
  | .createBuild actor gameId command => .createBuild (createBuild actor gameId command)
  | .deleteBuild actor buildId => .deleteBuild (deleteBuild actor buildId)
  | .deleteVersion actor gameId versionId => .deleteVersion (.findGame actor gameId versionId)
  | .deleteGame actor idOrSlug => .deleteGame (.findGame actor idOrSlug)
  | .markFailed buildId => .markFailed buildId

def Task.next (env : Env) : Task → Suspended Call Task
  | .missingBlobs t => (t.next env).map .missingBlobs
  | .beginUpload t => (t.next env).map .beginUpload
  | .uploadChunk t => (t.next env).map .uploadChunk
  | .abortUpload t => t.next.map .abortUpload
  | .finalizeBuild t => (t.next env).map .finalizeBuild
  | .manifest t => t.next.map .manifest
  | .sweepSessions t => t.next.map .sweepSessions
  | .collectBlobs t => (t.next env).map .collectBlobs
  | .createBuild t => t.next.map .createBuild
  | .deleteBuild t => t.next.map .deleteBuild
  | .deleteVersion t => t.next.map .deleteVersion
  | .deleteGame t => t.next.map .deleteGame
  | .markFailed buildId => .call (.markFailed buildId) .markedFailed
  | .markedFailed _ => .done

def outside : Outside → State → State
  | .tick duration, s => { s with now := s.now + duration }
  | .registerUser id quota, s => { s with users := s.users.insert ⟨id, quota, 0⟩ }
  | .createGame game, s => { s with games := s.games.insert game }
  | .updateGame id visibility, s => { s with
      games := s.games.modify id ⟨fun g => { g with visibility := visibility }, fun _ => rfl⟩ }
  | .createVersion version, s => { s with versions := s.versions.insert version }
  | .updateVersion id published, s => { s with
      versions := s.versions.modify id ⟨fun v => { v with published := published }, fun _ => rfl⟩ }

/-- The server as a system of interleaved coroutines. -/
def server (env : Env) : System State Task Request Choice Outside Call where
  entry := entry
  next := Task.next env
  exec := exec env
  outside := outside

abbrev Server := World State Task

/-- A step of the server: who moves. -/
abbrev Move := Label Request Choice Outside

/-- Before the first upload: accounts, games and versions may exist, but no build, session,
blob or file, and nobody has used any quota. -/
structure Initial (w : Server) : Prop where
  tasks : w.tasks = []
  used : ∀ u ∈ w.shared.users, u.uploadUsedBytes = 0
  builds : w.shared.builds = Table.empty
  buildFiles : w.shared.buildFiles = Table.empty
  blobs : w.shared.blobs = Table.empty
  sessions : w.shared.sessions = Table.empty
  issued : w.shared.issued = []
  files : ∀ p, w.shared.files p = none

/-- No coroutine is suspended: every request has been answered. -/
def Quiescent (env : Env) (w : Server) : Prop := ∀ t ∈ w.tasks, (t.next env).isDone = true

/-! ## Which coroutine writes which table -/

inductive Kind
  | missingBlobs
  | beginUpload
  | uploadChunk
  | abortUpload
  | finalizeBuild
  | manifest
  | sweepSessions
  | collectBlobs
  | createBuild
  | deletion
  | markFailed
  deriving DecidableEq, Repr

def Task.kind : Task → Kind
  | .missingBlobs _ => .missingBlobs
  | .beginUpload _ => .beginUpload
  | .uploadChunk _ => .uploadChunk
  | .abortUpload _ => .abortUpload
  | .finalizeBuild _ => .finalizeBuild
  | .manifest _ => .manifest
  | .sweepSessions _ => .sweepSessions
  | .collectBlobs _ => .collectBlobs
  | .createBuild _ => .createBuild
  | .deleteBuild _ => .deletion
  | .deleteVersion _ => .deletion
  | .deleteGame _ => .deletion
  | .markFailed _ => .markFailed
  | .markedFailed _ => .markFailed

namespace Kind

def writesUsers (k : Kind) : Bool := k == .uploadChunk || k == .collectBlobs

def writesBlobs (k : Kind) : Bool := k == .uploadChunk || k == .collectBlobs

def writesSessions (k : Kind) : Bool :=
  k == .beginUpload || k == .uploadChunk || k == .abortUpload || k == .sweepSessions ||
    k == .deletion

def writesBuilds (k : Kind) : Bool :=
  k == .createBuild || k == .finalizeBuild || k == .deletion || k == .markFailed

def writesFiles (k : Kind) : Bool :=
  k == .uploadChunk || k == .abortUpload || k == .sweepSessions || k == .collectBlobs

def reserves (k : Kind) : Bool := k == .uploadChunk

def issues (k : Kind) : Bool := k == .beginUpload || k == .createBuild

end Kind

/-- A coroutine of kind `k` may make the call `c`. -/
structure Permits (k : Kind) {α : Type} (c : Call α) : Prop where
  users : c.writesUsers = true → k.writesUsers = true
  blobs : c.writesBlobs = true → k.writesBlobs = true
  sessions : c.writesSessions = true → k.writesSessions = true
  builds : c.writesBuilds = true → k.writesBuilds = true
  files : c.writesFiles = true → k.writesFiles = true
  reserves : c.reserves = true → k.reserves = true
  issues : c.issues = true → k.issues = true

/-- The conditions of `Permits` as one test, which evaluates at every program point. -/
def permits (k : Kind) {α : Type} (c : Call α) : Bool :=
  (!c.writesUsers || k.writesUsers) && (!c.writesBlobs || k.writesBlobs) &&
    (!c.writesSessions || k.writesSessions) && (!c.writesBuilds || k.writesBuilds) &&
    (!c.writesFiles || k.writesFiles) && (!c.reserves || k.reserves) && (!c.issues || k.issues)

theorem permits_iff {k : Kind} {α : Type} {c : Call α} : permits k c = true ↔ Permits k c := by
  simp only [permits, Bool.and_eq_true, Bool.or_eq_true, Bool.not_eq_true', ← Bool.not_eq_true,
    ← imp_iff_not_or]
  exact ⟨fun ⟨⟨⟨⟨⟨⟨h1, h2⟩, h3⟩, h4⟩, h5⟩, h6⟩, h7⟩ => ⟨h1, h2, h3, h4, h5, h6, h7⟩,
    fun ⟨h1, h2, h3, h4, h5, h6, h7⟩ => ⟨⟨⟨⟨⟨⟨h1, h2⟩, h3⟩, h4⟩, h5⟩, h6⟩, h7⟩⟩

/-- The task is a `deleteGame`. -/
def Task.deletesGame : Task → Bool
  | .deleteGame _ => true
  | _ => false

/-- What every program point of a task is tested for: its call, and what becomes of it. -/
theorem Task.next_tested (env : Env) (t : Task) :
    (t.next env).All (fun c k =>
      (permits t.kind c = true ∧ (t.deletesGame || !c.removesGame) = true) ∧
        ∀ a, (k a).kind = t.kind ∧ (k a).deletesGame = t.deletesGame) := by
  cases t with
  | missingBlobs t => cases t <;> first | trivial | exact ⟨⟨rfl, rfl⟩, fun _ => ⟨rfl, rfl⟩⟩
  | beginUpload t => cases t <;> first | trivial | exact ⟨⟨rfl, rfl⟩, fun _ => ⟨rfl, rfl⟩⟩
  | uploadChunk t =>
      cases t with
      | completing u p => cases p <;> exact ⟨⟨rfl, rfl⟩, fun _ => ⟨rfl, rfl⟩⟩
      | _ => first | trivial | exact ⟨⟨rfl, rfl⟩, fun _ => ⟨rfl, rfl⟩⟩
  | abortUpload t => cases t <;> first | trivial | exact ⟨⟨rfl, rfl⟩, fun _ => ⟨rfl, rfl⟩⟩
  | finalizeBuild t => cases t <;> first | trivial | exact ⟨⟨rfl, rfl⟩, fun _ => ⟨rfl, rfl⟩⟩
  | manifest t => cases t <;> first | trivial | exact ⟨⟨rfl, rfl⟩, fun _ => ⟨rfl, rfl⟩⟩
  | sweepSessions t => cases t <;> first | trivial | exact ⟨⟨rfl, rfl⟩, fun _ => ⟨rfl, rfl⟩⟩
  | collectBlobs t => cases t <;> first | trivial | exact ⟨⟨rfl, rfl⟩, fun _ => ⟨rfl, rfl⟩⟩
  | createBuild t =>
      cases t with
      | findGame actor gameId command =>
          refine ⟨?_, fun _ => ⟨rfl, rfl⟩⟩
          unfold Catalog.findGame
          split <;> exact ⟨rfl, rfl⟩
      | _ => first | trivial | exact ⟨⟨rfl, rfl⟩, fun _ => ⟨rfl, rfl⟩⟩
  | deleteBuild t => cases t <;> first | trivial | exact ⟨⟨rfl, rfl⟩, fun _ => ⟨rfl, rfl⟩⟩
  | deleteVersion t =>
      cases t with
      | findGame actor gameId versionId =>
          refine ⟨?_, fun _ => ⟨rfl, rfl⟩⟩
          unfold Catalog.findGame
          split <;> exact ⟨rfl, rfl⟩
      | _ => first | trivial | exact ⟨⟨rfl, rfl⟩, fun _ => ⟨rfl, rfl⟩⟩
  | deleteGame t =>
      cases t with
      | findGame actor idOrSlug =>
          refine ⟨?_, fun _ => ⟨rfl, rfl⟩⟩
          unfold Catalog.findGame
          split <;> exact ⟨rfl, rfl⟩
      | _ => first | trivial | exact ⟨⟨rfl, rfl⟩, fun _ => ⟨rfl, rfl⟩⟩
  | markFailed id => exact ⟨⟨rfl, rfl⟩, fun _ => ⟨rfl, rfl⟩⟩
  | markedFailed m => trivial

/-- A task makes only calls its kind permits, and stays of its kind. -/
theorem Task.next_permits (env : Env) (t : Task) :
    (t.next env).All (fun c k => Permits t.kind c ∧ ∀ a, (k a).kind = t.kind) :=
  (t.next_tested env).mono (fun _ _ h => ⟨permits_iff.mp h.1.1, fun a => (h.2 a).1⟩)

/-- No other task deletes a game. -/
theorem Task.next_removesGame (env : Env) {t : Task} (h : t.deletesGame = false) :
    (t.next env).All (fun c k => c.removesGame = false ∧ ∀ a, (k a).deletesGame = false) := by
  refine (t.next_tested env).mono (fun c k htested => ⟨?_, fun a => (htested.2 a).2.trans h⟩)
  have hremoves := htested.1.2
  rw [h, Bool.false_or] at hremoves
  simpa using hremoves

/-- What a step of a coroutine of kind `k` leaves alone. -/
structure Keeps (k : Kind) (s s' : State) : Prop where
  now : s'.now = s.now
  users : k.writesUsers = false → s'.users = s.users
  blobs : k.writesBlobs = false → s'.blobs = s.blobs
  sessions : k.writesSessions = false → s'.sessions = s.sessions
  builds : k.writesBuilds = false → s'.builds = s.builds
  buildFiles : k.writesBuilds = false → s'.buildFiles = s.buildFiles
  files : k.writesFiles = false → s'.files = s.files
  issued : k.issues = false → s'.issued = s.issued

theorem Permits.keeps {k : Kind} {α : Type} {c : Call α} (h : Permits k c) {s s' : State}
    (hf : Frame c s s') : Keeps k s s' where
  now := hf.now
  users hk := hf.users (by_contra fun hc => by simp [h.users (by simpa using hc)] at hk)
  blobs hk := hf.blobs (by_contra fun hc => by simp [h.blobs (by simpa using hc)] at hk)
  sessions hk := hf.sessions (by_contra fun hc => by simp [h.sessions (by simpa using hc)] at hk)
  builds hk := hf.builds (by_contra fun hc => by simp [h.builds (by simpa using hc)] at hk)
  buildFiles hk := hf.buildFiles (by_contra fun hc => by simp [h.builds (by simpa using hc)] at hk)
  files hk := hf.files (by_contra fun hc => by simp [h.files (by simpa using hc)] at hk)
  issued hk := hf.issued (by_contra fun hc => by simp [h.issues (by simpa using hc)] at hk)

theorem Task.next_keeps (env : Env) (choice : Choice) (s : State) (t : Task) :
    (t.next env).Wp (exec env) choice s (fun s' t' => Keeps t.kind s s' ∧ t'.kind = t.kind) := by
  refine (t.next_permits env).wp (fun c k h r s' e => ⟨?_, h.2 r⟩)
  have hf := Frame.of_exec e
  exact h.1.keeps hf

/-! ## A small deployment

Two accounts, one game with one version, and requests to build runs from: the witnesses and
counterexamples of the invariants run on it. `sha256Hex` agrees with SHA-256 on the contents
that are hashed in them. -/

namespace Demo

/-- The publisher of the game. -/
def alice : Actor := ⟨1, [.GAME_DOWNLOAD, .GAME_PUBLISH, .BUILD_UPLOAD]⟩

/-- An administrator, who may upload to every game. -/
def bob : Actor := ⟨2, [.GAME_DOWNLOAD, .BUILD_UPLOAD, .ADMIN_GAMES_MANAGE]⟩

/-- SHA-256 of the empty string. -/
def shaEmpty : Bytes :=
  ascii "e3b0c44298fc1c149afbf4c8996fb92427ae41e4649b934ca495991b7852b855"

def contentA : Bytes := ascii "a"

/-- SHA-256 of `contentA`. -/
def shaA : Bytes :=
  ascii "ca978112ca1bbdcafac231b39a23dc4da786eff8147c4e72b9807785afee48bb"

def env : Env where
  uploads := ⟨1000, 1000, 3600, 10, 100⟩
  retention := ⟨10, 100⟩
  sha256Hex := fun content => if content = contentA then shaA else shaEmpty
  acceptsText := fun _ => true
  jsonText := fun text => text
  collation := fun a b => decide (a ≤ b)

def start : Server where
  shared :=
    { now := 0, issued := []
      users := (Table.empty.insert ⟨1, 100, 0⟩).insert ⟨2, 100, 0⟩
      games := Table.empty.insert ⟨4, ascii "game", 1, .Public⟩
      versions := Table.empty.insert ⟨5, 4, true⟩
      builds := .empty, buildFiles := .empty, blobs := .empty, sessions := .empty
      files := fun _ => none }
  tasks := []

theorem initial_start : Initial start where
  tasks := rfl
  used := by
    intro u hu
    have : ∀ u ∈ start.shared.users.rows, u.uploadUsedBytes = 0 := by decide
    exact this u hu
  builds := rfl
  buildFiles := rfl
  blobs := rfl
  sessions := rfl
  issued := rfl
  files := fun _ => rfl

/-- Task `i` makes its next `n` calls; `id` is the id drawn if one of them inserts a row. -/
def drawing (id : Uuid) (i n : Nat) : List Move := List.replicate n (.resume i ⟨id, .none⟩)

/-- Task `i` makes its next `n` calls, none of which draws an id. -/
def go (i n : Nat) : List Move := drawing 0 i n

def after (seconds : Nat) : List Move := [.outside (.tick (seconds * second))]

/-- Task 0 creates build 10. -/
def buildCreated : List Move :=
  .request (.createBuild alice (uuidText 4)
    { versionId := uuidText 5, name := [], platform := .Linux, architecture := .X64 })
    :: drawing 10 0 3

/-- Task `i` opens the upload session `id` of build 10 for `sha256`. -/
def sessionOpened (i : Nat) (actor : Actor) (sha256 : Bytes) (size : Nat) (id : Uuid) :
    List Move :=
  .request (.beginUpload actor (uuidText 10) ⟨sha256, size⟩) :: drawing id i 5

def chunkSent (actor : Actor) (id : Uuid) (offset : Nat) (chunk : Bytes) : Move :=
  .request (.uploadChunk actor (uuidText id) offset chunk)

/-- Tasks `i` and `i + 1` upload `contentA` in one chunk, and the server stores it. -/
def uploadedA (i : Nat) (actor : Actor) (id : Uuid) : List Move :=
  sessionOpened i actor shaA 1 id ++ chunkSent actor id 0 contentA :: go (i + 1) 8

/-- Tasks 0 to 2: alice creates build 10 and uploads `contentA` to it in session 20. -/
def stored : List Move := buildCreated ++ uploadedA 1 alice 20

/-- Tasks 0 to 4: alice declares the hash of `contentA` with size 2 and writes the first byte. The request
for the second byte (task 3) reserves its range and is suspended; an empty chunk at offset 2
(task 4) completes the session. -/
def completedShort : List Move :=
  buildCreated ++ sessionOpened 1 alice shaA 2 20
    ++ chunkSent alice 20 0 contentA :: go 2 3
    ++ chunkSent alice 20 1 contentA :: go 3 2
    ++ chunkSent alice 20 2 [] :: go 4 8

end Demo

end Launcher
