import Launcher.Server.System
import Launcher.Storefront.Devlog
import Launcher.Storefront.Downloads
import Launcher.Storefront.Frame

set_option autoImplicit false

/-! # The whole catalog

All services over the catalog as one `System`: the coroutines of the upload side and the
programs of this layer, each with the actor who asked for it. From elsewhere, time passes and
accounts are registered and renamed; an erased account keeps its row. `Initial` is a deployment
in which nothing has been published yet. -/

namespace Launcher.Storefront

open Launcher.Lib

/-- What the services answer. -/
inductive Reply
  | nothing
  | game (game : GameRecord)
  | games (games : List GameRecord)
  | page (page : GamePage)
  | detail (detail : GameDetail)
  | version (version : VersionRecord)
  | media (media : GameMedia)
  | gallery (media : List GameMedia)
  | note (note : PatchNote)
  | notes (page : PatchNotePage)
  | plan (plan : DownloadPlan)
  | report (report : IntegrityReport)
  deriving DecidableEq, Repr

/-- Where a coroutine stands. -/
inductive Body : Type 1
  | core (t : Launcher.Task)
  | program (p : Coroutine Reply)

/-- A coroutine and who asked for it; the timers ask for nobody. -/
structure Task : Type 1 where
  actor : Option Actor
  body : Body

inductive Request
  /-- A request of the upload side. Deleting a game also reclaims its artwork (`entry`). -/
  | core (r : Launcher.Request)
  | createGame (actor : Actor) (command : CreateGameCommand)
  | updateGame (actor : Actor) (gameId : Bytes) (changes : GameUpdate)
  | gameDetail (actor : Actor) (idOrSlug : Bytes)
  | explore (actor : Actor) (query : GameQuery)
  | publishedByActor (actor : Actor) (query : GameQuery)
  | createVersion (actor : Actor) (gameId : Bytes) (command : CreateVersionCommand)
  | updateVersion (actor : Actor) (gameId versionId : Bytes) (changes : GameVersionUpdate)
  | addToLibrary (actor : Actor) (gameId : Bytes)
  | removeFromLibrary (actor : Actor) (gameId : Bytes)
  | library (actor : Actor)
  | listMedia (actor : Actor) (idOrSlug : Bytes)
  | uploadMedia (actor : Actor) (gameId : Bytes) (command : Media.UploadMediaCommand)
  | updateMedia (actor : Actor) (mediaId : Bytes) (changes : GameMediaUpdate)
  | removeMedia (actor : Actor) (mediaId : Bytes)
  | listNotes (actor : Actor) (idOrSlug : Bytes) (limit offset : Int)
  | createNote (actor : Actor) (gameId : Bytes) (command : Notes.CreatePatchNoteCommand)
  | updateNote (actor : Actor) (noteId : Bytes) (changes : PatchNoteUpdate)
  | removeNote (actor : Actor) (noteId : Bytes)
  | plan (actor : Actor) (buildId fromBuildId : Bytes)
  | verifyInstall (actor : Actor) (buildId : Bytes) (installed : List InstalledFile)

inductive Outside
  | tick (duration : Nat)
  | registerUser (id : Uuid) (uploadQuotaBytes : Nat) (displayName : Bytes)
  | renameUser (id : Uuid) (displayName : Bytes)

def coreActor : Launcher.Request → Option Actor
  | .missingBlobs actor _ _ => some actor
  | .beginUpload actor _ _ => some actor
  | .uploadChunk actor _ _ _ => some actor
  | .abortUpload actor _ => some actor
  | .finalizeBuild actor _ _ => some actor
  | .manifest actor _ => some actor
  | .sweepExpiredSessions => none
  | .collectUnreferencedBlobs => none
  | .createBuild actor _ _ => some actor
  | .deleteBuild actor _ => some actor
  | .deleteVersion actor _ _ => some actor
  | .deleteGame actor _ => some actor
  | .markFailed _ => none

/-- A program of a service, with its answer among all answers. -/
def start {α : Type} (actor : Actor) (p : Coroutine α) (reply : α → Reply) : Task :=
  ⟨some actor, .program (p >>= fun a => pure (reply a))⟩

def entry (env : Env) : Request → Task
  | .core (.deleteGame actor idOrSlug) =>
      start actor (deleteGame actor idOrSlug) (fun _ => .nothing)
  | .core r => ⟨coreActor r, .core (Launcher.entry r)⟩
  | .createGame actor command => start actor (createGame actor command) .game
  | .updateGame actor gameId changes => start actor (updateGame actor gameId changes) .game
  | .gameDetail actor idOrSlug => start actor (gameDetail actor idOrSlug) .detail
  | .explore actor query => start actor (explore actor query) .page
  | .publishedByActor actor query => start actor (publishedByActor actor query) .page
  | .createVersion actor gameId command =>
      start actor (createVersion actor gameId command) .version
  | .updateVersion actor gameId versionId changes =>
      start actor (updateVersion actor gameId versionId changes) .version
  | .addToLibrary actor gameId => start actor (addToLibrary actor gameId) (fun _ => .nothing)
  | .removeFromLibrary actor gameId =>
      start actor (removeFromLibrary actor gameId) (fun _ => .nothing)
  | .library actor => start actor (library actor) .games
  | .listMedia actor idOrSlug => start actor (Media.listForGame actor idOrSlug) .gallery
  | .uploadMedia actor gameId command =>
      start actor (Media.upload env actor gameId command) .media
  | .updateMedia actor mediaId changes => start actor (Media.update actor mediaId changes) .media
  | .removeMedia actor mediaId => start actor (Media.remove actor mediaId) (fun _ => .nothing)
  | .listNotes actor idOrSlug limit offset =>
      start actor (Notes.listForGame actor idOrSlug limit offset) .notes
  | .createNote actor gameId command => start actor (Notes.create actor gameId command) .note
  | .updateNote actor noteId changes => start actor (Notes.update actor noteId changes) .note
  | .removeNote actor noteId => start actor (Notes.remove actor noteId) (fun _ => .nothing)
  | .plan actor buildId fromBuildId => start actor (plan env actor buildId fromBuildId) .plan
  | .verifyInstall actor buildId installed =>
      start actor (verifyInstall env actor buildId installed) .report

def Body.next (env : Env) : Body → Suspended Call Body
  | .core t => ((t.next env.core).lift Call.core).map .core
  | .program p => p.next.map .program

def Task.next (env : Env) (t : Task) : Suspended Call Task :=
  (t.body.next env).map (fun body => ⟨t.actor, body⟩)

def outside : Outside → State → State
  | .tick duration, s => { s with core := { s.core with now := s.core.now + duration } }
  | .registerUser id quota displayName, s => { s with
      core := { s.core with users := s.core.users.insert ⟨id, quota, 0⟩ }
      displayNames := Function.update s.displayNames id displayName }
  | .renameUser id displayName, s =>
      { s with displayNames := Function.update s.displayNames id displayName }

/-- The catalog as a system of interleaved coroutines. -/
def storefront (env : Env) : System State Task Request Choice Outside Call where
  entry := entry env
  next := Task.next env
  exec := exec env
  outside := outside

abbrev Server := World State Task

/-- A step of the catalog: who moves. -/
abbrev Move := Label Request Choice Outside

/-- Before anything is published: accounts may exist, but no game and nothing that hangs off
one. -/
structure Initial (w : Server) : Prop where
  tasks : w.tasks = []
  issued : w.shared.core.issued = []
  games : w.shared.core.games = Table.empty
  versions : w.shared.core.versions = Table.empty
  builds : w.shared.core.builds = Table.empty
  buildFiles : w.shared.core.buildFiles = Table.empty
  sessions : w.shared.core.sessions = Table.empty
  media : w.shared.media = Table.empty
  notes : w.shared.notes = Table.empty
  library : w.shared.library = Table.empty
  events : w.shared.events = []

/-! ## A deployment to try things on -/

namespace Demo

open Launcher.Demo (alice bob)

/-- The spelling of `isUuid`, or the same without its hyphens; PostgreSQL reads both. -/
def castUuid (text : Bytes) : Option Uuid :=
  if isUuid text || (text.length == 32 && text.all isHexDigit) then some (uuidOf text) else none

def env : Env where
  core := Launcher.Demo.env
  castUuid := castUuid
  ilike := fun title search => title.tails.any (fun rest => startsWith rest search)
  lower := fun text => text.map toLower
  media := ⟨1000, 1000⟩
  signing := ⟨ascii "https://files.example/blobs/", ascii "secret", 60⟩
  md5Base64Url := fun text => text.take 22
  exceedsThreshold := fun transferred installed => decide (7 * installed < 10 * transferred)

/-- A player, who may browse, download and keep a library. -/
def carol : Actor := ⟨3, [.GAME_READ, .GAME_DOWNLOAD, .LIBRARY_READ, .LIBRARY_MANAGE]⟩

def noColumns : GameColumns := ⟨[], [], [], [], 0, 0⟩

def noVersion : VersionColumns := ⟨⟨0, 0, 0, []⟩, .Release, [], 0, 0⟩

/-- Accounts 1 to 3 exist, and nothing has been published. -/
def empty : State where
  core :=
    { now := 0, issued := []
      users := ((Table.empty.insert ⟨1, 100, 0⟩).insert ⟨2, 100, 0⟩).insert ⟨3, 100, 0⟩
      games := .empty, versions := .empty, builds := .empty, buildFiles := .empty
      blobs := .empty, sessions := .empty, files := fun _ => none }
  gameColumns := fun _ => noColumns
  versionColumns := fun _ => noVersion
  buildColumns := fun _ => ⟨0, none⟩
  displayNames := fun _ => []
  media := .empty
  notes := .empty
  library := .empty
  events := []
  artwork := fun _ => none

def opened : Server := ⟨empty, []⟩

theorem initial_opened : Initial opened :=
  ⟨rfl, rfl, rfl, rfl, rfl, rfl, rfl, rfl, rfl, rfl, rfl⟩

/-- Task `i` makes its next `n` calls; `id` is the id drawn if one of them inserts a row. -/
def drawing (id : Uuid) (i n : Nat) : List Move := List.replicate n (.resume i ⟨id, .none⟩)

end Demo

end Launcher.Storefront
