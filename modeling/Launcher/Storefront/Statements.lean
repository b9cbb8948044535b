import Launcher.Storefront.Schema

set_option autoImplicit false

/-! # The catalog's statements

The methods of `PgCatalogRepositories.cpp` and `PgDownloadRepositories.cpp` that the upload side
does not use, and the two calls of the media store. As there, a statement is one atomic step,
and one that throws changes nothing. Searches are two statements, one for the page and one for
the total.

A statement of the upload side (`Call.core`) may delete games, versions and builds; the rows of
this layer that reference them go with them or lose the reference (`State.afterCore`). -/

namespace Launcher.Storefront

open Launcher.Lib

namespace State

variable (env : Env) (s : State)

/-! ## Reading rows -/

/-- The cover's storage key. A game has at most one cover. -/
def coverOf (gameId : Uuid) : Bytes :=
  ((s.media.rows.find? (fun m => m.gameId == gameId && m.kind == .Cover)).map
    (·.storageKey)).getD []

/-- `mapGame`. Every game has a publisher, so the join with `users` drops no row. -/
def readGame (game : Game) : GameRecord where
  toGame := game
  title := (s.gameColumns game.id).title
  summary := (s.gameColumns game.id).summary
  description := (s.gameColumns game.id).description
  publisherDisplayName := s.displayNames game.publisherUserId
  releaseDate := (s.gameColumns game.id).releaseDate
  createdAt := (s.gameColumns game.id).createdAt
  updatedAt := (s.gameColumns game.id).updatedAt
  coverStorageKey := s.coverOf game.id

/-- `mapVersion`. -/
def readVersion (version : GameVersion) : VersionRecord where
  toGameVersion := version
  semver := (s.versionColumns version.id).semver
  stage := (s.versionColumns version.id).stage
  releaseNotes := (s.versionColumns version.id).releaseNotes
  publishedAt := if version.published then some (s.versionColumns version.id).publishedAt else none
  createdAt := (s.versionColumns version.id).createdAt

/-- `mapBuild`. -/
def readBuild (build : Build) : BuildRecord where
  toBuild := build
  createdAt := (s.buildColumns build.id).createdAt
  readyAt := (s.buildColumns build.id).readyAt

/-- `mapPatchNote`; the author is a left join. -/
def readNote (note : PatchNoteRow) : PatchNote where
  toPatchNoteRow := note
  authorDisplayName := (note.authorUserId.map s.displayNames).getD []

/-! ## What follows a statement of the upload side -/

/-- The state after a statement of the upload side has left its tables as `core'`. Rows that
reference a game it deleted go too, references to a version or build it deleted are set to
NULL; a new build is stamped, and so is one that became ready. -/
def afterCore (core' : Launcher.State) : State :=
  let gameGone := fun id : Uuid => (s.core.games.find? id).isSome && (core'.games.find? id).isNone
  let versionGone := fun id : Uuid =>
    (s.core.versions.find? id).isSome && (core'.versions.find? id).isNone
  let buildGone := fun id : Uuid => (s.core.builds.find? id).isSome && (core'.builds.find? id).isNone
  let readyIn := fun (t : Launcher.State) (id : Uuid) =>
    ((t.builds.find? id).map (fun b => b.status == .Ready)).getD false
  { s with
    core := core'
    buildColumns := fun id =>
      if (s.core.builds.find? id).isNone && (core'.builds.find? id).isSome then
        ⟨s.core.now, none⟩
      else if !readyIn s.core id && readyIn core' id then
        { s.buildColumns id with readyAt := some s.core.now }
      else s.buildColumns id
    media := s.media.delete (fun m => gameGone m.gameId)
    notes := (s.notes.delete (fun n => gameGone n.gameId)).updateWhere
      (fun n => (n.gameVersionId.map versionGone).getD false)
      ⟨fun n => { n with gameVersionId := none }, fun _ => rfl⟩
    library := s.library.delete (fun u => gameGone u.gameId)
    events := (s.events.filter (fun e => !gameGone e.gameId)).map (fun e => { e with
      buildId := e.buildId.filter (fun id => !buildGone id)
      fromVersionId := e.fromVersionId.filter (fun id => !versionGone id) }) }

/-! ## Games -/

/-- Every text parameter of a statement has to be valid UTF-8. -/
def acceptsAll (texts : List Bytes) : Bool := texts.all env.core.acceptsText

def createGame (choice : Choice) (game : NewGame) :
    Except Failure (Option GameRecord) × State :=
  if !acceptsAll env [game.slug, game.title, game.summary, game.description] then
    (.error (.threw .characterNotInRepertoire), s)
  else
    match s.core.findBySlug game.slug with
    | some _ => (.ok none, s)
    | none =>
        if s.core.issued.contains choice.uuid then (.error (.threw .uniqueViolation), s)
        else if (s.core.users.find? game.publisherUserId).isNone then
          (.error (.threw .foreignKeyViolation), s)
        else
          let row : Game :=
            { id := choice.uuid, slug := game.slug, publisherUserId := game.publisherUserId,
              visibility := game.visibility }
          let s' := { s with
            core := { s.core with
              games := s.core.games.insert row
              issued := choice.uuid :: s.core.issued }
            gameColumns := Function.update s.gameColumns choice.uuid
              { title := game.title, summary := game.summary, description := game.description,
                releaseDate := game.releaseDate, createdAt := s.core.now,
                updatedAt := s.core.now } }
          (.ok (some (s'.readGame row)), s')

/-- `WHERE id = $1::uuid`, with the id as the text the request carried. -/
def updateGame (id : Bytes) (changes : GameUpdate) : Except Failure (Option GameRecord) × State :=
  match env.castUuid id with
  | none => (.error .invalidUuid, s)
  | some id =>
      if !acceptsAll env (changes.title.toList ++ changes.summary.toList ++
          changes.description.toList) then
        (.error (.threw .characterNotInRepertoire), s)
      else
        match s.core.games.find? id with
        | none => (.ok none, s)
        | some game =>
            let apply := fun g : Game =>
              { g with visibility := changes.visibility.getD g.visibility }
            let s' := { s with
              core := { s.core with games := s.core.games.modify id ⟨apply, fun _ => rfl⟩ }
              gameColumns := Function.update s.gameColumns id
                ((s.gameColumns id).apply changes s.core.now) }
            (.ok (some (s'.readGame (apply game))), s')

/-- The filter of a search. -/
def admits (query : GameQuery) (game : Game) : Bool :=
  (game.visibility == .Public || query.includeUnpublished) &&
    query.publisherUserId.all (· == game.publisherUserId) &&
    (query.search.isEmpty || env.ilike (s.gameColumns game.id).title query.search)

/-- `created_at DESC, id`. -/
def newestFirst (a b : GameRecord) : Bool :=
  decide (b.createdAt < a.createdAt) ||
    (a.createdAt == b.createdAt && decide (a.id.toNat ≤ b.id.toNat))

/-- `orderByFor`. -/
def gameLe (sort : GameSort) (a b : GameRecord) : Bool :=
  match sort with
  | .Title =>
      let before := env.core.collation (env.lower a.title) (env.lower b.title)
      if before && env.core.collation (env.lower b.title) (env.lower a.title) then newestFirst a b
      else before
  | .RecentlyAdded => newestFirst a b
  | .ReleaseDate =>
      if a.releaseDate = b.releaseDate then newestFirst a b
      -- NULLS LAST
      else if a.releaseDate.isEmpty then false
      else b.releaseDate.isEmpty || decide (b.releaseDate < a.releaseDate)

def sortGames (sort : GameSort) (games : List GameRecord) : List GameRecord :=
  games.insertionSort (fun a b => gameLe env sort a b = true)

def page {α : Type} (limit offset : Int) (rows : List α) : List α :=
  (rows.drop offset.toNat).take limit.toNat

def searchGames (query : GameQuery) : Except Failure (List GameRecord) :=
  if !acceptsAll env [query.search] then .error (.threw .characterNotInRepertoire)
  else .ok (page query.limit query.offset
    (sortGames env query.sort ((s.core.games.rows.filter (s.admits env query)).map s.readGame)))

def countGames (query : GameQuery) : Except Failure Nat :=
  if !acceptsAll env [query.search] then .error (.threw .characterNotInRepertoire)
  else .ok (s.core.games.rows.filter (s.admits env query)).length

/-- `PgGameRepository::remove`: the storage keys of the artwork that went with the game. -/
def removeGame (gameId : Uuid) : Option (List Bytes) × State :=
  let keys := (s.media.rows.filter (fun m => m.gameId == gameId)).map (·.storageKey)
  let r := s.core.removeGame gameId
  (if r.1 then some keys else none, s.afterCore r.2)

/-! ## Versions and builds -/

def createVersion (choice : Choice) (version : NewGameVersion) :
    Except Failure (Option VersionRecord) × State :=
  if !acceptsAll env [version.releaseNotes] then (.error (.threw .characterNotInRepertoire), s)
  else if s.core.versions.rows.any (fun v => v.gameId == version.gameId &&
      (s.versionColumns v.id).semver.text == version.version.text) then (.ok none, s)
  else if s.core.issued.contains choice.uuid then (.error (.threw .uniqueViolation), s)
  else if (s.core.games.find? version.gameId).isNone then
    (.error (.threw .foreignKeyViolation), s)
  else
    let row : GameVersion :=
      { id := choice.uuid, gameId := version.gameId, published := version.publish }
    let s' := { s with
      core := { s.core with
        versions := s.core.versions.insert row
        issued := choice.uuid :: s.core.issued }
      versionColumns := Function.update s.versionColumns choice.uuid
        { semver := version.version, stage := version.stage,
          releaseNotes := version.releaseNotes, publishedAt := s.core.now,
          createdAt := s.core.now } }
    (.ok (some (s'.readVersion row)), s')

def updateVersion (id : Uuid) (changes : GameVersionUpdate) :
    Except Failure (Option VersionRecord) × State :=
  if !acceptsAll env changes.releaseNotes.toList then
    (.error (.threw .characterNotInRepertoire), s)
  else
    match s.core.versions.find? id with
    | none => (.ok none, s)
    | some version =>
        let apply := fun v : GameVersion =>
          { v with published := changes.published.getD v.published }
        let s' := { s with
          core := { s.core with versions := s.core.versions.modify id ⟨apply, fun _ => rfl⟩ }
          versionColumns := Function.update s.versionColumns id
            ((s.versionColumns id).apply version.published changes s.core.now) }
        (.ok (some (s'.readVersion (apply version))), s')

/-- Newest version first. -/
def versionLe (a b : VersionRecord) : Bool :=
  if a.semver.major ≠ b.semver.major then decide (b.semver.major < a.semver.major)
  else if a.semver.minor ≠ b.semver.minor then decide (b.semver.minor < a.semver.minor)
  else if a.semver.patch ≠ b.semver.patch then decide (b.semver.patch < a.semver.patch)
  else decide (b.createdAt ≤ a.createdAt)

def listVersions (gameId : Uuid) (includeUnpublished : Bool) : List VersionRecord :=
  ((s.core.versions.rows.filter (fun v => v.gameId == gameId &&
    (v.published || includeUnpublished))).map s.readVersion).insertionSort
      (fun a b => versionLe a b = true)

/-- `listForVersions`. -/
def listBuilds (versionIds : List Uuid) : List BuildRecord :=
  ((s.core.builds.rows.filter (fun b => versionIds.contains b.gameVersionId)).map
    s.readBuild).insertionSort (fun a b => b.createdAt ≤ a.createdAt)

/-! ## Artwork -/

/-- The row an upload of a singleton kind replaces. -/
def replacedMedia (media : NewGameMedia) : Option GameMedia :=
  if isSingletonKind media.kind then
    s.media.rows.find? (fun m => m.gameId == media.gameId && m.kind == media.kind)
  else none

/-- One upsert. The other constraints on the row hold of every upload the service sends. -/
def createMedia (choice : Choice) (media : NewGameMedia) : Except Failure StoredMedia × State :=
  if !acceptsAll env [media.altText] then (.error (.threw .characterNotInRepertoire), s)
  else
    match s.replacedMedia media with
    | some old =>
        let row := media.row old.id old.createdAt
        (.ok ⟨row, if old.storageKey = row.storageKey then [] else old.storageKey⟩, { s with
          media := s.media.modify old.id
            ⟨fun m => media.row m.id m.createdAt, fun _ => rfl⟩ })
    | none =>
        if s.core.issued.contains choice.uuid then (.error (.threw .uniqueViolation), s)
        else if (s.core.games.find? media.gameId).isNone then
          (.error (.threw .foreignKeyViolation), s)
        else
          let row := media.row choice.uuid s.core.now
          (.ok ⟨row, []⟩, { s with
            core := { s.core with issued := choice.uuid :: s.core.issued }
            media := s.media.insert row })

def mediaLe (a b : GameMedia) : Bool :=
  if a.kind ≠ b.kind then decide (a.kind.rank < b.kind.rank)
  else if a.sortOrder ≠ b.sortOrder then decide (a.sortOrder < b.sortOrder)
  else if a.createdAt ≠ b.createdAt then decide (a.createdAt < b.createdAt)
  else decide (a.id.toNat ≤ b.id.toNat)

def listMedia (gameId : Uuid) : List GameMedia :=
  (s.media.rows.filter (fun m => m.gameId == gameId)).insertionSort (fun a b => mediaLe a b = true)

def updateMedia (id : Uuid) (changes : GameMediaUpdate) :
    Except Failure (Option GameMedia) × State :=
  if !acceptsAll env changes.altText.toList then (.error (.threw .characterNotInRepertoire), s)
  else
    (.ok ((s.media.find? id).map (fun m => m.apply changes)),
      { s with media := s.media.modify id ⟨fun m => m.apply changes, fun _ => rfl⟩ })

def removeMedia (id : Uuid) : Option GameMedia × State :=
  (s.media.find? id, { s with media := s.media.delete (fun m => decide (m.id = id)) })

def countMedia (gameId : Uuid) (kind : MediaKind) : Nat :=
  (s.media.rows.filter (fun m => m.gameId == gameId && m.kind == kind)).length

def isStorageKeyReferenced (storageKey : Bytes) : Bool :=
  s.media.rows.any (fun m => m.storageKey == storageKey)

/-! ## Patch notes -/

def createNote (choice : Choice) (note : NewPatchNote) : Except Failure PatchNote × State :=
  if !acceptsAll env [note.title, note.bodyMarkdown] then
    (.error (.threw .characterNotInRepertoire), s)
  else if s.core.issued.contains choice.uuid then (.error (.threw .uniqueViolation), s)
  else if (s.core.games.find? note.gameId).isNone ||
      note.gameVersionId.any (fun id => (s.core.versions.find? id).isNone) ||
      (s.core.users.find? note.authorUserId).isNone then
    (.error (.threw .foreignKeyViolation), s)
  else
    let row : PatchNoteRow :=
      { id := choice.uuid, gameId := note.gameId, gameVersionId := note.gameVersionId,
        title := note.title, bodyMarkdown := note.bodyMarkdown,
        authorUserId := some note.authorUserId,
        publishedAt := if note.publish then some s.core.now else none,
        createdAt := s.core.now, updatedAt := s.core.now }
    (.ok (s.readNote row), { s with
      core := { s.core with issued := choice.uuid :: s.core.issued }
      notes := s.notes.insert row })

def updateNote (id : Uuid) (changes : PatchNoteUpdate) :
    Except Failure (Option PatchNote) × State :=
  if !acceptsAll env (changes.title.toList ++ changes.bodyMarkdown.toList) then
    (.error (.threw .characterNotInRepertoire), s)
  else
    match s.notes.find? id with
    | none => (.ok none, s)
    | some note =>
        let row := note.apply changes s.core.now
        if row.gameVersionId.any (fun id => (s.core.versions.find? id).isNone) then
          (.error (.threw .foreignKeyViolation), s)
        else
          (.ok (some (s.readNote row)), { s with
            notes := s.notes.modify id
              ⟨fun n => n.apply changes s.core.now, fun _ => rfl⟩ })

def removeNote (id : Uuid) : Bool × State :=
  ((s.notes.find? id).isSome, { s with notes := s.notes.delete (fun n => decide (n.id = id)) })

def admitsNote (query : PatchNoteQuery) (note : PatchNoteRow) : Bool :=
  note.gameId == query.gameId && (query.includeUnpublished || note.publishedAt.isSome)

def noteLe (a b : PatchNote) : Bool :=
  let dateOf := fun n : PatchNote => n.publishedAt.getD n.createdAt
  decide (dateOf b < dateOf a) || (dateOf a == dateOf b && decide (a.id.toNat ≤ b.id.toNat))

def searchNotes (query : PatchNoteQuery) : List PatchNote :=
  page query.limit query.offset
    (((s.notes.rows.filter (admitsNote query)).map s.readNote).insertionSort
      (fun a b => noteLe a b = true))

def countNotes (query : PatchNoteQuery) : Nat := (s.notes.rows.filter (admitsNote query)).length

/-! ## Libraries -/

/-- `PgLibraryRepository::add`: whether the entry is there afterwards. -/
def addToLibrary (userId gameId : Uuid) : Except Failure Bool × State :=
  match s.library.find? (userId, gameId) with
  | some _ => (.ok true, s)
  | none =>
      if (s.core.games.find? gameId).isNone then (.ok false, s)
      else if (s.core.users.find? userId).isNone then (.error (.threw .foreignKeyViolation), s)
      else (.ok true, { s with library := s.library.insert ⟨userId, gameId, s.core.now⟩ })

def removeFromLibrary (userId gameId : Uuid) : Bool × State :=
  ((s.library.find? (userId, gameId)).isSome,
    { s with library := s.library.delete (fun u => decide (u.key = (userId, gameId))) })

/-- `PgLibraryRepository::list`: the entries joined with their games. -/
def listLibrary (userId : Uuid) : List GameRecord :=
  sortGames env .ReleaseDate
    (((s.library.rows.filter (fun u => u.userId == userId)).filterMap
      (fun u => s.core.games.find? u.gameId)).map s.readGame)

/-! ## Downloads -/

def recordEvent (event : DownloadEvent) : Except Failure Unit × State :=
  if (s.core.games.find? event.gameId).isNone || (s.core.builds.find? event.buildId).isNone ||
      (s.core.users.find? event.userId).isNone ||
      event.fromVersionId.any (fun id => (s.core.versions.find? id).isNone) then
    (.error (.threw .foreignKeyViolation), s)
  else if event.bytesPlanned < 0 then (.error (.threw .checkViolation), s)
  else
    (.ok (), { s with
      events := s.events ++ [{
        gameId := event.gameId, buildId := some event.buildId, userId := some event.userId,
        fromVersionId := event.fromVersionId, kind := event.kind,
        bytesPlanned := event.bytesPlanned, createdAt := s.core.now }] })

/-! ## The media store -/

/-- `MediaStore::storageKeyFor`. -/
def mediaKeyFor (sha256 : Bytes) (format : StoredFormat) : Bytes :=
  if isSha256Hex sha256 then storageKeyFor sha256 ++ [dot] ++ format.extension else []

/-- `MediaStore::store`. Whatever fails, the staging file does not stay behind. -/
def storeMedia (fault : IoFault) (bytes : Bytes) (format : StoredFormat) : Result Bytes × State :=
  let key := mediaKeyFor (env.core.sha256Hex bytes) format
  if key.isEmpty then (failure .Internal (ascii "cannot derive a storage key"), s)
  else if (s.artwork key).isSome then (.ok key, s)
  else
    match fault with
    | .directory message =>
        (failure .DependencyFailure (ascii "cannot create the media directory: " ++ message), s)
    | .create =>
        (failure .DependencyFailure (ascii "cannot create the media staging file"), s)
    | .write _ => (failure .DependencyFailure (ascii "cannot write the uploaded file"), s)
    | .rename message =>
        (failure .DependencyFailure (ascii "cannot move the file into storage: " ++ message), s)
    | _ => (.ok key, { s with artwork := Function.update s.artwork key (some bytes) })

/-- `MediaStore::remove`. -/
def removeArtwork (storageKey : Bytes) : State :=
  { s with artwork := Function.update s.artwork storageKey none }

end State

/-! ## Calls -/

/-- A call a coroutine awaits, by the type of its reply. -/
inductive Call : Type → Type 1
  | core {α : Type} (c : Launcher.Call α) : Call α
  | findGameById (id : Uuid) : Call (Option GameRecord)
  | findGameBySlug (slug : Bytes) : Call (Except Failure (Option GameRecord))
  | createGame (game : NewGame) : Call (Except Failure (Option GameRecord))
  | updateGame (id : Bytes) (changes : GameUpdate) : Call (Except Failure (Option GameRecord))
  | searchGames (query : GameQuery) : Call (Except Failure (List GameRecord))
  | countGames (query : GameQuery) : Call (Except Failure Nat)
  | removeGame (id : Uuid) : Call (Option (List Bytes))
  | createVersion (version : NewGameVersion) : Call (Except Failure (Option VersionRecord))
  | findVersionById (id : Uuid) : Call (Option VersionRecord)
  | listVersions (gameId : Uuid) (includeUnpublished : Bool) : Call (List VersionRecord)
  | updateVersion (id : Uuid) (changes : GameVersionUpdate) :
      Call (Except Failure (Option VersionRecord))
  | listBuilds (versionIds : List Uuid) : Call (List BuildRecord)
  | createMedia (media : NewGameMedia) : Call (Except Failure StoredMedia)
  | listMedia (gameId : Uuid) : Call (List GameMedia)
  | findMedia (id : Uuid) : Call (Option GameMedia)
  | updateMedia (id : Uuid) (changes : GameMediaUpdate) : Call (Except Failure (Option GameMedia))
  | removeMedia (id : Uuid) : Call (Option GameMedia)
  | countMedia (gameId : Uuid) (kind : MediaKind) : Call Nat
  | isStorageKeyReferenced (storageKey : Bytes) : Call Bool
  | createNote (note : NewPatchNote) : Call (Except Failure PatchNote)
  | findNote (id : Uuid) : Call (Option PatchNote)
  | searchNotes (query : PatchNoteQuery) : Call (List PatchNote)
  | countNotes (query : PatchNoteQuery) : Call Nat
  | updateNote (id : Uuid) (changes : PatchNoteUpdate) : Call (Except Failure (Option PatchNote))
  | removeNote (id : Uuid) : Call Bool
  | addToLibrary (userId gameId : Uuid) : Call (Except Failure Bool)
  | removeFromLibrary (userId gameId : Uuid) : Call Bool
  | libraryContains (userId gameId : Uuid) : Call Bool
  | listLibrary (userId : Uuid) : Call (List GameRecord)
  | recordEvent (event : DownloadEvent) : Call (Except Failure Unit)
  | clock : Call Nat
  | storeMedia (bytes : Bytes) (format : StoredFormat) : Call (Result Bytes)
  | removeArtwork (storageKey : Bytes) : Call Unit

/-- Run one call. -/
def exec (env : Env) (choice : Choice) : {α : Type} → Call α → State → α × State
  | _, .core c, s =>
      let r := Launcher.exec env.core choice c s.core
      (r.1, s.afterCore r.2)
  | _, .findGameById id, s => ((s.core.games.find? id).map s.readGame, s)
  | _, .findGameBySlug slug, s =>
      (if !env.core.acceptsText slug then .error (.threw .characterNotInRepertoire)
        else .ok ((s.core.findBySlug slug).map s.readGame), s)
  | _, .createGame game, s => s.createGame env choice game
  | _, .updateGame id changes, s => s.updateGame env id changes
  | _, .searchGames query, s => (s.searchGames env query, s)
  | _, .countGames query, s => (s.countGames env query, s)
  | _, .removeGame id, s => s.removeGame id
  | _, .createVersion version, s => s.createVersion env choice version
  | _, .findVersionById id, s => ((s.core.versions.find? id).map s.readVersion, s)
  | _, .listVersions gameId includeUnpublished, s => (s.listVersions gameId includeUnpublished, s)
  | _, .updateVersion id changes, s => s.updateVersion env id changes
  | _, .listBuilds versionIds, s => (s.listBuilds versionIds, s)
  | _, .createMedia media, s => s.createMedia env choice media
  | _, .listMedia gameId, s => (s.listMedia gameId, s)
  | _, .findMedia id, s => (s.media.find? id, s)
  | _, .updateMedia id changes, s => s.updateMedia env id changes
  | _, .removeMedia id, s => s.removeMedia id
  | _, .countMedia gameId kind, s => (s.countMedia gameId kind, s)
  | _, .isStorageKeyReferenced key, s => (s.isStorageKeyReferenced key, s)
  | _, .createNote note, s => s.createNote env choice note
  | _, .findNote id, s => ((s.notes.find? id).map s.readNote, s)
  | _, .searchNotes query, s => (s.searchNotes query, s)
  | _, .countNotes query, s => (s.countNotes query, s)
  | _, .updateNote id changes, s => s.updateNote env id changes
  | _, .removeNote id, s => s.removeNote id
  | _, .addToLibrary userId gameId, s => s.addToLibrary userId gameId
  | _, .removeFromLibrary userId gameId, s => s.removeFromLibrary userId gameId
  | _, .libraryContains userId gameId, s => ((s.library.find? (userId, gameId)).isSome, s)
  | _, .listLibrary userId, s => (s.listLibrary env userId, s)
  | _, .recordEvent event, s => s.recordEvent event
  | _, .clock, s => (s.core.now, s)
  | _, .storeMedia bytes format, s => s.storeMedia env choice.fault bytes format
  | _, .removeArtwork key, s => ((), s.removeArtwork key)

end Launcher.Storefront
