import Launcher.Storefront.Catalog

set_option autoImplicit false

/-! # `MediaService` and `PatchNoteService`

A game's artwork (`services/MediaService.cpp`) and its devlog (`services/PatchNoteService.cpp`). -/

namespace Launcher.Storefront

open Launcher.Lib
open Catalog (NO_SUCH_GAME NOT_YOURS NO_SUCH_VERSION)

/-! ## Artwork -/

namespace Media

def NO_SUCH_MEDIA : Bytes := ascii "no such image"

structure UploadMediaCommand where
  kind : MediaKind
  altText : Bytes
  sortOrder : Int
  bytes : Bytes
  deriving DecidableEq, Repr

def listForGame (actor : Actor) (idOrSlug : Bytes) : Coroutine (List GameMedia) := do
  demand actor .GAME_READ CANNOT_BROWSE
  let game ← visibleGame actor idOrSlug
  .await (.listMedia game.id)

/-- The checks of an upload, and the format its bytes are in. -/
def checkUpload (limits : MediaLimits) (command : UploadMediaCommand) : Result StoredFormat := do
  let video := isVideoKind command.kind
  let limit := if video then limits.maxVideoBytes else limits.maxBytes
  if command.bytes.isEmpty then failure .InvalidInput (ascii "the request body is empty")
  else if limit < command.bytes.length then
    failure .InvalidInput (ascii (if video then "a video" else "an image") ++
      ascii " must be at most " ++ decimal limit ++ ascii " bytes")
  else
    validateAltText command.altText
    -- what the bytes are, not what the request said they are
    match if video then sniffVideoFormat command.bytes else sniffImageFormat command.bytes with
    | none => failure .InvalidInput (ascii (if video then "the body is not an MP4 or WebM video"
        else "the body is not a PNG, JPEG or WebP image"))
    | some format => .ok format

/-- How many of a kind that is not a singleton a game may have. -/
def galleryCap (kind : MediaKind) : Nat :=
  if isVideoKind kind then MAX_VIDEOS_PER_GAME else MAX_SCREENSHOTS_PER_GAME

/-- Counted before anything is written. -/
def checkGallery (gameId : Uuid) (kind : MediaKind) : Coroutine Unit := do
  if isSingletonKind kind then pure ()
  else
    let existing ← .await (.countMedia gameId kind)
    if galleryCap kind ≤ existing then
      refuse .Conflict (ascii "a game may have at most " ++ decimal (galleryCap kind) ++
        ascii (if isVideoKind kind then " videos" else " screenshots"))
    else pure ()

/-- The row for a stored file; the hash is read off its storage key. -/
def mediaRow (gameId : Uuid) (command : UploadMediaCommand) (format : StoredFormat)
    (storageKey : Bytes) : NewGameMedia :=
  { gameId := gameId, kind := command.kind, storageKey := storageKey,
    sha256 := (storageKey.drop 6).take 64, contentType := format.contentType,
    sizeBytes := command.bytes.length, altText := command.altText,
    sortOrder := command.sortOrder }

def upload (env : Env) (actor : Actor) (gameId : Bytes) (command : UploadMediaCommand) :
    Coroutine GameMedia := do
  let game ← editableGame actor gameId
  let format ← require (checkUpload env.media command)
  checkGallery game.id command.kind
  let storageKey ← require (← .await (.storeMedia command.bytes format))
  let created ← statement (.createMedia (mediaRow game.id command format storageKey))
  reclaim created.replacedStorageKey
  pure created.media

def editableMedia (actor : Actor) (mediaId : Bytes) : Coroutine GameMedia := do
  if !isUuid mediaId then refuse .NotFound NO_SUCH_MEDIA
  else
    match ← .await (.findMedia (uuidOf mediaId)) with
    | none => refuse .NotFound NO_SUCH_MEDIA
    | some media =>
        match ← .await (.findGameById media.gameId) with
        | none => refuse .NotFound NO_SUCH_MEDIA
        | some game =>
            if !mayViewGame game.toGame actor then refuse .NotFound NO_SUCH_MEDIA
            else if !mayEditGame game.toGame actor then refuse .Forbidden NOT_YOURS
            else pure media

def update (actor : Actor) (mediaId : Bytes) (changes : GameMediaUpdate) :
    Coroutine GameMedia := do
  let existing ← editableMedia actor mediaId
  if changes.empty then pure existing
  else
    require (changes.altText.forM validateAltText)
    match ← statement (.updateMedia (uuidOf mediaId) changes) with
    | none => refuse .NotFound NO_SUCH_MEDIA
    | some updated => pure updated

def remove (actor : Actor) (mediaId : Bytes) : Coroutine Unit := do
  let _ ← editableMedia actor mediaId
  match ← .await (.removeMedia (uuidOf mediaId)) with
  | none => refuse .NotFound NO_SUCH_MEDIA
  | some removed => reclaim removed.storageKey

end Media

/-! ## The devlog -/

namespace Notes

def NO_SUCH_NOTE : Bytes := ascii "no such patch note"

structure CreatePatchNoteCommand where
  title : Bytes
  bodyMarkdown : Bytes
  versionId : Bytes
  publish : Bool
  deriving DecidableEq, Repr

def MAX_PATCH_NOTE_PAGE_SIZE : Int := 100

/-- `PgPatchNoteRepository::search`. -/
def search (query : PatchNoteQuery) : Coroutine PatchNotePage := do
  let items ← .await (.searchNotes query)
  let total ← .await (.countNotes query)
  pure { items := items, total := total }

def listForGame (actor : Actor) (idOrSlug : Bytes) (limit offset : Int) :
    Coroutine PatchNotePage := do
  demand actor .GAME_READ CANNOT_BROWSE
  let game ← visibleGame actor idOrSlug
  search
    { gameId := game.id
      -- everybody but the publisher sees the published devlog only
      includeUnpublished := mayEditGame game.toGame actor
      limit := max 1 (min limit MAX_PATCH_NOTE_PAGE_SIZE)
      offset := max offset 0 }

/-- The version a note is about: none, or one of the game's. -/
def noteVersion (gameId : Uuid) (versionId : Bytes) : Coroutine (Option Uuid) := do
  if versionId.isEmpty then pure none
  else
    let version ← versionOf gameId versionId
    pure (some version.id)

def create (actor : Actor) (gameId : Bytes) (command : CreatePatchNoteCommand) :
    Coroutine PatchNote := do
  let game ← editableGame actor gameId
  let title := trim command.title
  require (validatePatchNoteTitle title)
  require (validatePatchNoteBody command.bodyMarkdown)
  let gameVersionId ← noteVersion game.id (trim command.versionId)
  statement (.createNote
    { gameId := game.id, gameVersionId := gameVersionId, title := title,
      bodyMarkdown := command.bodyMarkdown, authorUserId := actor.userId,
      publish := command.publish })

def editableNote (actor : Actor) (noteId : Bytes) : Coroutine PatchNote := do
  if !isUuid noteId then refuse .NotFound NO_SUCH_NOTE
  else
    match ← .await (.findNote (uuidOf noteId)) with
    | none => refuse .NotFound NO_SUCH_NOTE
    | some note =>
        match ← .await (.findGameById note.gameId) with
        | none => refuse .NotFound NO_SUCH_NOTE
        | some game =>
            if !mayViewGame game.toGame actor then refuse .NotFound NO_SUCH_NOTE
            else if !mayEditGame game.toGame actor then refuse .Forbidden NOT_YOURS
            else pure note

/-- The first two checks of an update, with the trimmed fields. -/
def checkUpdate (changes : PatchNoteUpdate) : Result PatchNoteUpdate := do
  let title := changes.title.map trim
  title.forM validatePatchNoteTitle
  changes.bodyMarkdown.forM validatePatchNoteBody
  .ok { changes with title := title, gameVersionId := changes.gameVersionId.map trim }

def update (actor : Actor) (noteId : Bytes) (changes : PatchNoteUpdate) :
    Coroutine PatchNote := do
  let existing ← editableNote actor noteId
  if changes.empty then pure existing
  else
    let changes ← require (checkUpdate changes)
    let _ ← noteVersion existing.gameId (changes.gameVersionId.getD [])
    match ← statement (.updateNote (uuidOf noteId) changes) with
    | none => refuse .NotFound NO_SUCH_NOTE
    | some updated => pure updated

def remove (actor : Actor) (noteId : Bytes) : Coroutine Unit := do
  let _ ← editableNote actor noteId
  let removed ← .await (.removeNote (uuidOf noteId))
  if removed then pure () else refuse .NotFound NO_SUCH_NOTE

end Notes

end Launcher.Storefront
