import Launcher.Common.Basic

set_option autoImplicit false

/-! # Actors, games and builds

Who makes a request and what they may do (`domain/Actor.h`, `domain/Role.h`), and the catalog
records the upload side and the deletions read (`domain/Catalog.h`). Of games and versions
only the columns those functions look at are kept. -/

namespace Launcher

/-! ## Actors -/

/-- The permission keys seeded by the migrations. -/
inductive Permission
  | LIBRARY_READ
  | LIBRARY_MANAGE
  | GAME_READ
  | GAME_DOWNLOAD
  | GAME_PUBLISH
  | BUILD_UPLOAD
  | PATCHNOTE_WRITE
  | ADMIN_USERS_MANAGE
  | ADMIN_ROLES_MANAGE
  | ADMIN_GAMES_MANAGE
  | ADMIN_SETTINGS_MANAGE
  | ADMIN_CRASHES_READ
  deriving DecidableEq, Repr

/-- Who is making a request, from the verified access token. -/
structure Actor where
  userId : Uuid
  permissions : List Permission
  deriving DecidableEq, Repr

def Actor.can (actor : Actor) (permission : Permission) : Bool :=
  actor.permissions.contains permission

def Actor.managesAnyGame (actor : Actor) : Bool := actor.can .ADMIN_GAMES_MANAGE

def Actor.owns (actor : Actor) (publisherUserId : Uuid) : Bool := actor.userId == publisherUserId

/-! ## Catalog records -/

inductive GameVisibility
  | Draft
  | Unlisted
  | Public
  deriving DecidableEq, Repr

inductive BuildPlatform
  | Windows
  | Linux
  | MacOS
  deriving DecidableEq, Repr

inductive BuildArchitecture
  | X64
  | Arm64
  deriving DecidableEq, Repr

inductive BuildStatus
  | Uploading
  | Ready
  | Failed
  deriving DecidableEq, Repr

structure Game where
  id : Uuid
  slug : Bytes
  publisherUserId : Uuid
  visibility : GameVisibility
  deriving DecidableEq, Repr

structure GameVersion where
  id : Uuid
  gameId : Uuid
  /-- `published_at IS NOT NULL`. -/
  published : Bool
  deriving DecidableEq, Repr

/-- A build; a NULL manifest hash or entrypoint is the empty string, as `mapBuild` reads it. -/
structure Build where
  id : Uuid
  gameVersionId : Uuid
  name : Bytes
  platform : BuildPlatform
  architecture : BuildArchitecture
  status : BuildStatus
  manifestSha256 : Bytes
  totalSizeBytes : Int
  fileCount : Nat
  entrypointRelativePath : Bytes
  defaultLaunchArgs : Bytes
  deriving DecidableEq, Repr

/-- What an authorization check needs about a build, resolved in one query. -/
structure BuildOwnership where
  buildId : Uuid
  gameVersionId : Uuid
  gameId : Uuid
  publisherUserId : Uuid
  visibility : GameVisibility
  status : BuildStatus
  versionPublished : Bool
  deriving DecidableEq, Repr

def mayEditGame (game : Game) (actor : Actor) : Bool :=
  actor.owns game.publisherUserId || actor.managesAnyGame

def mayViewGame (game : Game) (actor : Actor) : Bool :=
  game.visibility != .Draft || mayEditGame game actor

def mayPublishBuild (ownership : BuildOwnership) (actor : Actor) : Bool :=
  actor.owns ownership.publisherUserId || actor.managesAnyGame

def mayReadBuild (ownership : BuildOwnership) (actor : Actor) : Bool :=
  (ownership.visibility != .Draft && ownership.versionPublished) ||
    mayPublishBuild ownership actor

def MAX_BUILD_NAME_LENGTH : Nat := 100

/-- `rules::BUILD_NAME_TOO_LONG`. -/
def BUILD_NAME_TOO_LONG : Bytes := ascii "build_name_too_long"

/-- The length check of `CatalogService`, naming the field and the rule. -/
def checkLength (value : Bytes) (limit : Nat) (field rule : Bytes) : VoidResult :=
  if value.length > limit then
    .error
      { code := .InvalidInput
        detail := field ++ ascii " must be at most " ++ decimal limit ++ ascii " characters"
        rule := rule
        ruleArgs := [decimal limit] }
  else .ok ()

end Launcher
