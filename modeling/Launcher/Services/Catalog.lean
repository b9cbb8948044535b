import Launcher.Lib.Coroutines
import Launcher.Database.Statements

set_option autoImplicit false

/-! # `CatalogService`: creating and deleting builds

The coroutines of `services/CatalogService.cpp` that add and remove the rows uploads hang off:
`createBuild`, `deleteBuild`, `deleteVersion` and `deleteGame`. What `deleteGame` does with
the artwork of the game touches neither these tables nor the blob store and is left out. -/

namespace Launcher

open Launcher.Lib

namespace Catalog

def NO_SUCH_GAME : Bytes := ascii "no such game"
def NOT_YOURS : Bytes := ascii "this game belongs to another publisher"
def NO_SUCH_BUILD : Bytes := ascii "no such build"
def NO_SUCH_VERSION : Bytes := ascii "no such version"

/-- `visibleGame`, after the query. -/
def visibleGame (actor : Actor) (game : Option Game) : Result Game :=
  match game with
  | none => failure .NotFound NO_SUCH_GAME
  | some game =>
      if mayViewGame game actor then .ok game else failure .NotFound NO_SUCH_GAME

/-- `editableGame`, after the query. -/
def editableGame (actor : Actor) (game : Option Game) : Result Game := do
  let game ← visibleGame actor game
  if mayEditGame game actor then .ok game else failure .Forbidden NOT_YOURS

/-- A uuid and a slug are told apart by shape. -/
def findGame (idOrSlug : Bytes) : Call (Option Game) :=
  if isUuid idOrSlug then .findGame (uuidOf idOrSlug) else .findBySlug idOrSlug

/-- The version named in a request, if it is one of the game's. -/
def versionOf (game : Game) (version : Option GameVersion) : Result GameVersion :=
  match version with
  | none => failure .NotFound NO_SUCH_VERSION
  | some version =>
      if version.gameId = game.id then .ok version else failure .NotFound NO_SUCH_VERSION

end Catalog

open Catalog

structure CreateBuildCommand where
  versionId : Bytes
  name : Bytes
  platform : BuildPlatform
  architecture : BuildArchitecture
  deriving DecidableEq, Repr

/-! ## `createBuild` -/

inductive CreateBuild
  | findGame (actor : Actor) (gameId : Bytes) (command : CreateBuildCommand)
  | findVersion (game : Game) (command : CreateBuildCommand)
  | createBuild (build : NewBuild)
  | answered (result : Result Build)
  | threw (error : SqlError)

def createBuild (actor : Actor) (gameId : Bytes) (command : CreateBuildCommand) : CreateBuild :=
  if !actor.can .BUILD_UPLOAD then
    .answered (failure .Forbidden (ascii "you cannot upload builds"))
  else .findGame actor gameId command

def CreateBuild.next : CreateBuild → Suspended Call CreateBuild
  | .findGame actor gameId command => .call (Catalog.findGame gameId) fun game =>
      match editableGame actor game with
      | .error e => .answered (.error e)
      | .ok game =>
          if !isUuid command.versionId then .answered (failure .NotFound NO_SUCH_VERSION)
          else .findVersion game command
  | .findVersion game command => .call (.findVersion (uuidOf command.versionId)) fun version =>
      match versionOf game version with
      | .error e => .answered (.error e)
      | .ok version =>
          let name := trim command.name
          match checkLength name MAX_BUILD_NAME_LENGTH (ascii "name") BUILD_NAME_TOO_LONG with
          | .error e => .answered (.error e)
          | .ok () => .createBuild
              { gameVersionId := version.id, name := name, platform := command.platform,
                architecture := command.architecture }
  | .createBuild build => .call (.createBuild build) fun
      | .error e => .threw e
      | .ok none => .answered (failure .Conflict
          (ascii "this version already has a build for that platform"))
      | .ok (some build) => .answered (.ok build)
  | .answered _ => .done
  | .threw _ => .done

/-! ## `deleteBuild` -/

inductive DeleteBuild
  | findOwnership (actor : Actor) (buildId : Uuid)
  | removeBuild (buildId : Uuid)
  | answered (result : VoidResult)

def deleteBuild (actor : Actor) (buildId : Bytes) : DeleteBuild :=
  if !isUuid buildId then .answered (failure .NotFound Catalog.NO_SUCH_BUILD)
  else .findOwnership actor (uuidOf buildId)

def DeleteBuild.next : DeleteBuild → Suspended Call DeleteBuild
  | .findOwnership actor buildId => .call (.findOwnership buildId) fun
      | none => .answered (failure .NotFound Catalog.NO_SUCH_BUILD)
      | some ownership =>
          if !mayReadBuild ownership actor then
            .answered (failure .NotFound Catalog.NO_SUCH_BUILD)
          else if !mayPublishBuild ownership actor then
            .answered (failure .Forbidden NOT_YOURS)
          else .removeBuild buildId
  | .removeBuild buildId => .call (.removeBuild buildId) fun removed =>
      if removed then .answered (.ok ())
      else .answered (failure .NotFound Catalog.NO_SUCH_BUILD)
  | .answered _ => .done

/-! ## `deleteVersion` and `deleteGame` -/

inductive DeleteVersion
  | findGame (actor : Actor) (gameId versionId : Bytes)
  | findVersion (game : Game) (versionId : Uuid)
  | removeVersion (versionId : Uuid)
  | answered (result : VoidResult)

def DeleteVersion.next : DeleteVersion → Suspended Call DeleteVersion
  | .findGame actor gameId versionId => .call (Catalog.findGame gameId) fun game =>
      match editableGame actor game with
      | .error e => .answered (.error e)
      | .ok game =>
          if !isUuid versionId then .answered (failure .NotFound NO_SUCH_VERSION)
          else .findVersion game (uuidOf versionId)
  | .findVersion game versionId => .call (.findVersion versionId) fun version =>
      match versionOf game version with
      | .error e => .answered (.error e)
      | .ok _ => .removeVersion versionId
  | .removeVersion versionId => .call (.removeVersion versionId) fun removed =>
      if removed then .answered (.ok ()) else .answered (failure .NotFound NO_SUCH_VERSION)
  | .answered _ => .done

inductive DeleteGame
  | findGame (actor : Actor) (idOrSlug : Bytes)
  | removeGame (gameId : Uuid)
  | answered (result : VoidResult)

def DeleteGame.next : DeleteGame → Suspended Call DeleteGame
  | .findGame actor idOrSlug => .call (Catalog.findGame idOrSlug) fun game =>
      match editableGame actor game with
      | .error e => .answered (.error e)
      | .ok game => .removeGame game.id
  | .removeGame gameId => .call (.removeGame gameId) fun removed =>
      if removed then .answered (.ok ()) else .answered (failure .NotFound NO_SUCH_GAME)
  | .answered _ => .done

end Launcher
