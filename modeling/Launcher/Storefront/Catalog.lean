import Launcher.Lib.Programs
import Launcher.Services.Catalog
import Launcher.Storefront.Statements

set_option autoImplicit false

/-! # `CatalogService` and `MediaReclaimer`

The coroutines of `services/CatalogService.cpp` that `Services/Catalog.lean` does not have, as
programs over the statements. A refusal (`refuse`, `require`) is the coroutine's failed
`Result`; a statement that throws ends the coroutine as well (`statement`). Two checks that
every service makes, `visibleGame` and `editableGame`, are here; `MediaService` and
`PatchNoteService` write them out with the same two answers. -/

namespace Launcher.Storefront

open Launcher.Lib

/-- A coroutine of the services, up to its answer. -/
abbrev Coroutine (α : Type) := Program Call Failure α

def refuse {α : Type} (code : ErrorCode) (detail : Bytes) : Coroutine α :=
  .fail (.refused { code := code, detail := detail })

/-- Go on if a check passed, and answer with its error if not. -/
def require {α : Type} (check : Result α) : Coroutine α := .ofExcept (check.mapError .refused)

/-- A statement that may throw. -/
def statement {α : Type} (c : Call (Except Failure α)) : Coroutine α := do
  .ofExcept (← .await c)

/-- The permission check at the top of a route. -/
def demand (actor : Actor) (permission : Permission) (detail : Bytes) : Coroutine Unit :=
  if actor.can permission then pure () else refuse .Forbidden detail

def CANNOT_PUBLISH : Bytes := ascii "you cannot publish games"
def CANNOT_BROWSE : Bytes := ascii "you cannot browse the catalog"
def CANNOT_CHANGE_LIBRARY : Bytes := ascii "you cannot change your library"
def NOT_IN_LIBRARY : Bytes := ascii "that game is not in your library"

open Catalog (NO_SUCH_GAME NOT_YOURS NO_SUCH_VERSION)

/-! ## Finding a game -/

/-- A slug and a uuid are told apart by shape. -/
def findGame (idOrSlug : Bytes) : Coroutine (Option GameRecord) :=
  if isUuid idOrSlug then .await (.findGameById (uuidOf idOrSlug))
  else statement (.findGameBySlug idOrSlug)

def visibleGame (actor : Actor) (idOrSlug : Bytes) : Coroutine GameRecord := do
  match ← findGame idOrSlug with
  | none => refuse .NotFound NO_SUCH_GAME
  | some game =>
      if mayViewGame game.toGame actor then pure game else refuse .NotFound NO_SUCH_GAME

def editableGame (actor : Actor) (gameId : Bytes) : Coroutine GameRecord := do
  let game ← visibleGame actor gameId
  if mayEditGame game.toGame actor then pure game else refuse .Forbidden NOT_YOURS

/-! ## Games -/

structure CreateGameCommand where
  title : Bytes
  slug : Bytes
  summary : Bytes
  description : Bytes
  releaseDate : Bytes
  visibility : GameVisibility
  deriving DecidableEq, Repr

/-- The checks of `createGame`, and the game they leave to insert. -/
def newGame (actor : Actor) (command : CreateGameCommand) : Result NewGame := do
  let title := trim command.title
  let summary := trim command.summary
  let releaseDate := trim command.releaseDate
  checkTitle title
  checkLength summary MAX_SUMMARY_LENGTH (ascii "summary") (ascii "summary_too_long")
  checkLength command.description MAX_DESCRIPTION_LENGTH (ascii "description")
    (ascii "description_too_long")
  checkOptionalDate releaseDate
  let slug := if (trim command.slug).isEmpty then slugify title else trim command.slug
  validateSlug slug
  .ok { slug := slug, title := title, summary := summary, description := command.description,
        publisherUserId := actor.userId, releaseDate := releaseDate,
        visibility := command.visibility }

def createGame (actor : Actor) (command : CreateGameCommand) : Coroutine GameRecord := do
  demand actor .GAME_PUBLISH CANNOT_PUBLISH
  let game ← require (newGame actor command)
  match ← statement (.createGame game) with
  | none => refuse .Conflict (ascii "a game with that slug already exists")
  | some game => pure game

/-- The checks of `updateGame`, and the changes they leave. -/
def GameUpdate.checked (changes : GameUpdate) : Result GameUpdate := do
  let title := changes.title.map trim
  let releaseDate := changes.releaseDate.map trim
  title.forM checkTitle
  changes.summary.forM (fun summary =>
    checkLength summary MAX_SUMMARY_LENGTH (ascii "summary") (ascii "summary_too_long"))
  changes.description.forM (fun description =>
    checkLength description MAX_DESCRIPTION_LENGTH (ascii "description")
      (ascii "description_too_long"))
  releaseDate.forM checkOptionalDate
  .ok { changes with title := title, releaseDate := releaseDate }

/-- The game is looked up by id or slug; the update names it by the same text again. -/
def updateGame (actor : Actor) (gameId : Bytes) (changes : GameUpdate) :
    Coroutine GameRecord := do
  let existing ← editableGame actor gameId
  if changes.empty then pure existing
  else
    let changes ← require changes.checked
    match ← statement (.updateGame gameId changes) with
    | none => refuse .NotFound NO_SUCH_GAME
    | some updated => pure updated

/-- `domain::GameDetail`. -/
structure GameDetail where
  game : GameRecord
  versions : List VersionRecord
  builds : List BuildRecord
  media : List GameMedia
  inLibrary : Bool
  deriving DecidableEq, Repr

/-- An empty list is answered without asking the database. -/
def listForVersions (versionIds : List Uuid) : Coroutine (List BuildRecord) :=
  if versionIds.isEmpty then pure [] else .await (.listBuilds versionIds)

def gameDetail (actor : Actor) (idOrSlug : Bytes) : Coroutine GameDetail := do
  demand actor .GAME_READ CANNOT_BROWSE
  let game ← visibleGame actor idOrSlug
  let versions ← .await (.listVersions game.id (mayEditGame game.toGame actor))
  let builds ← listForVersions (versions.map (fun version => version.id))
  let media ← .await (.listMedia game.id)
  let inLibrary ← .await (.libraryContains actor.userId game.id)
  pure { game := game, versions := versions, builds := builds, media := media,
         inLibrary := inLibrary }

def MAX_GAME_PAGE_SIZE : Int := 100

def GameQuery.clamped (query : GameQuery) : GameQuery :=
  { query with
    limit := max 1 (min query.limit MAX_GAME_PAGE_SIZE)
    offset := max query.offset 0 }

/-- `PgGameRepository::search`. -/
def search (query : GameQuery) : Coroutine GamePage := do
  let items ← statement (.searchGames query)
  let total ← statement (.countGames query)
  pure { items := items, total := total }

def explore (actor : Actor) (query : GameQuery) : Coroutine GamePage := do
  demand actor .GAME_READ CANNOT_BROWSE
  search { query.clamped with includeUnpublished := false, publisherUserId := none }

def publishedByActor (actor : Actor) (query : GameQuery) : Coroutine GamePage := do
  demand actor .GAME_PUBLISH CANNOT_PUBLISH
  search { query.clamped with includeUnpublished := true, publisherUserId := some actor.userId }

/-! ## Versions -/

structure CreateVersionCommand where
  semver : Bytes
  stage : BuildStage
  releaseNotes : Bytes
  publish : Bool
  deriving DecidableEq, Repr

def checkReleaseNotes (releaseNotes : Bytes) : VoidResult :=
  checkLength releaseNotes MAX_RELEASE_NOTES_LENGTH (ascii "releaseNotes")
    (ascii "release_notes_too_long")

def createVersion (actor : Actor) (gameId : Bytes) (command : CreateVersionCommand) :
    Coroutine VersionRecord := do
  demand actor .GAME_PUBLISH CANNOT_PUBLISH
  let game ← editableGame actor gameId
  let version ← require (parseSemver command.semver)
  require (checkReleaseNotes command.releaseNotes)
  match ← statement (.createVersion
      { gameId := game.id, version := version, stage := command.stage,
        releaseNotes := command.releaseNotes, publish := command.publish }) with
  | none => refuse .Conflict (ascii "this game already has a version " ++ version.text)
  | some version => pure version

/-- The version named in a request, if it is one of the game's. -/
def versionOf (gameId : Uuid) (versionId : Bytes) : Coroutine VersionRecord := do
  if !isUuid versionId then refuse .NotFound NO_SUCH_VERSION
  else
    match ← .await (.findVersionById (uuidOf versionId)) with
    | none => refuse .NotFound NO_SUCH_VERSION
    | some version =>
        if version.gameId = gameId then pure version else refuse .NotFound NO_SUCH_VERSION

def updateVersion (actor : Actor) (gameId versionId : Bytes) (changes : GameVersionUpdate) :
    Coroutine VersionRecord := do
  demand actor .GAME_PUBLISH CANNOT_PUBLISH
  let game ← editableGame actor gameId
  let existing ← versionOf game.id versionId
  if changes.empty then pure existing
  else
    require (changes.releaseNotes.forM checkReleaseNotes)
    match ← statement (.updateVersion (uuidOf versionId) changes) with
    | none => refuse .NotFound NO_SUCH_VERSION
    | some updated => pure updated

/-! ## Deleting a game -/

/-- `MediaReclaimer::reclaim`: remove a file unless another row still names it. -/
def reclaim (storageKey : Bytes) : Coroutine Unit := do
  if storageKey.isEmpty then pure ()
  else
    let stillUsed ← .await (.isStorageKeyReferenced storageKey)
    if stillUsed then pure () else .await (.removeArtwork storageKey)

def reclaimAll : List Bytes → Coroutine Unit
  | [] => pure ()
  | storageKey :: rest => do
      reclaim storageKey
      reclaimAll rest

def deleteGame (actor : Actor) (idOrSlug : Bytes) : Coroutine Unit := do
  let game ← editableGame actor idOrSlug
  match ← .await (.removeGame game.id) with
  | none => refuse .NotFound NO_SUCH_GAME
  | some mediaStorageKeys => reclaimAll mediaStorageKeys

/-! ## Libraries -/

def addToLibrary (actor : Actor) (gameId : Bytes) : Coroutine Unit := do
  demand actor .LIBRARY_MANAGE CANNOT_CHANGE_LIBRARY
  let game ← visibleGame actor gameId
  let present ← statement (.addToLibrary actor.userId game.id)
  if present then pure () else refuse .NotFound NO_SUCH_GAME

def removeFromLibrary (actor : Actor) (gameId : Bytes) : Coroutine Unit := do
  demand actor .LIBRARY_MANAGE CANNOT_CHANGE_LIBRARY
  if !isUuid gameId then refuse .NotFound NOT_IN_LIBRARY
  else
    let removed ← .await (.removeFromLibrary actor.userId (uuidOf gameId))
    if removed then pure () else refuse .NotFound NOT_IN_LIBRARY

def library (actor : Actor) : Coroutine (List GameRecord) := do
  demand actor .LIBRARY_READ (ascii "you cannot read your library")
  .await (.listLibrary actor.userId)

end Launcher.Storefront
