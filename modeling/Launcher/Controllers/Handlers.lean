import Launcher.Accounts.UserPatch
import Launcher.Deployment.System
import Launcher.Filters.Admitted

set_option autoImplicit false

/-! # From a handler to the services

What the controllers do once the filters have let a request through. A handler has read its path
parameters and its body by then; what is left is who asks, and which coroutine of the services
answers. Most handlers await one coroutine. A sign-in on the administrative surface awaits a second
one where the session it was given is not an administrator's, and the PATCH of a user awaits up to
two. -/

namespace Launcher

open Lib

/-! ## Actors -/

/-- The keys of `domain/Role.h`. -/
def Permission.key : Permission → Bytes
  | .LIBRARY_READ => ascii "library.read"
  | .LIBRARY_MANAGE => ascii "library.manage"
  | .GAME_READ => ascii "game.read"
  | .GAME_DOWNLOAD => ascii "game.download"
  | .GAME_PUBLISH => ascii "game.publish"
  | .BUILD_UPLOAD => ascii "build.upload"
  | .PATCHNOTE_WRITE => ascii "patchnote.write"
  | .ADMIN_USERS_MANAGE => ascii "admin.users.manage"
  | .ADMIN_ROLES_MANAGE => ascii "admin.roles.manage"
  | .ADMIN_GAMES_MANAGE => ascii "admin.games.manage"
  | .ADMIN_SETTINGS_MANAGE => ascii "admin.settings.manage"
  | .ADMIN_CRASHES_READ => ascii "admin.crashes.read"

/-- No service asks for a key that is none of these. -/
def Permission.ofKey (key : Bytes) : Option Permission :=
  Accounts.permissionsByKey.find? (fun permission => permission.key == key)

theorem Permission.ofKey_key (permission : Permission) :
    ofKey permission.key = some permission := by
  cases permission <;> decide

namespace Controllers

open Filters (HttpRequest Attributes Endpoint)
open TokenService (AccessTokenClaims)
open Accounts (AuthTokens ClientContext)

def actorOf (claims : AccessTokenClaims) : Actor :=
  ⟨uuidOf claims.userId, claims.permissions.filterMap Permission.ofKey⟩

/-- What `issueSession` has an access token assert. -/
def claimsOf (claims : Accounts.AccessTokenClaims) : AccessTokenClaims where
  userId := uuidText claims.userId
  email := claims.email
  permissions := claims.permissions.map Permission.key
  passwordChangeRequired := claims.passwordChangeRequired

theorem actorOf_claimsOf (claims : Accounts.AccessTokenClaims) :
    actorOf (claimsOf claims) = ⟨claims.userId, claims.permissions⟩ := by
  unfold actorOf claimsOf
  dsimp only
  rw [uuidOf_uuidText, List.filterMap_map]
  congr 1
  have hsome : Permission.ofKey ∘ Permission.key = some := funext Permission.ofKey_key
  rw [hsome, List.filterMap_some]

/-! ## The administrative surface's sessions -/

/-- `AdminAuthController::login` and `refresh`. -/
inductive AdminSession
  | signingIn (t : Accounts.Login)
  | rotating (t : Accounts.Refresh)
  /-- The session was not an administrator's, and is signed out again. -/
  | retiring (tokens : AuthTokens) (t : Accounts.Logout)
  | answered (result : Result AuthTokens)
  | threw (error : SqlError)

def NOT_AN_ADMINISTRATOR : Bytes := ascii "this account is not an administrator"

def adoptAdminSession (tokens : AuthTokens) : AdminSession :=
  if Filters.mayUseAdminSurface (tokens.permissions.map Permission.key) then .answered (.ok tokens)
  else .retiring tokens (.findByHash tokens.refreshToken)

/-- A sign-in that succeeds has its session from `issuing`. -/
def afterLogin : Accounts.Login → AdminSession
  | .answered (.error e) => .answered (.error e)
  | .issuing (.answered tokens) => adoptAdminSession tokens
  | .issuing (.threw e) => .threw e
  | t => .signingIn t

def afterRefresh : Accounts.Refresh → AdminSession
  | .answered (.error e) => .answered (.error e)
  | .issuing (.answered tokens) => adoptAdminSession tokens
  | .issuing (.threw e) => .threw e
  | t => .rotating t

def afterLogout (tokens : AuthTokens) : Accounts.Logout → AdminSession
  | .answered _ => .answered (failure .Forbidden NOT_AN_ADMINISTRATOR)
  | t => .retiring tokens t

def AdminSession.next (env : Accounts.Env) : AdminSession → Suspended Accounts.Call AdminSession
  | .signingIn t => (t.next env).map afterLogin
  | .rotating t => (t.next env).map afterRefresh
  | .retiring tokens t => (t.next env).map (afterLogout tokens)
  | .answered _ => .done
  | .threw _ => .done

/-! ## The handlers -/

/-- A handler, with what it has read of the path, the query and the body. -/
inductive Handler
  | registerUser (command : Accounts.RegisterCommand)
  | login (email password : Bytes)
  | refresh (refreshToken : Bytes)
  | logout (refreshToken : Bytes)
  | verifyEmail (token : Bytes)
  | resendVerification (email : Bytes)
  | requestPasswordReset (email : Bytes)
  | confirmPasswordReset (token password : Bytes)
  | changePassword (currentPassword newPassword : Bytes)
  | requestErasure (command : Accounts.EraseAccountCommand)
  | library
  | addToLibrary (idOrSlug : Bytes)
  | removeFromLibrary (gameId : Bytes)
  | explore (query : Storefront.GameQuery)
  | createGame (command : Storefront.CreateGameCommand)
  | myGames (query : Storefront.GameQuery)
  | gameDetail (idOrSlug : Bytes)
  | updateGame (idOrSlug : Bytes) (changes : Storefront.GameUpdate)
  | deleteGame (idOrSlug : Bytes)
  | createVersion (idOrSlug : Bytes) (command : Storefront.CreateVersionCommand)
  | createBuild (idOrSlug : Bytes) (command : CreateBuildCommand)
  | updateVersion (idOrSlug versionId : Bytes) (changes : Storefront.GameVersionUpdate)
  | deleteVersion (idOrSlug versionId : Bytes)
  | listMedia (idOrSlug : Bytes)
  | uploadMedia (idOrSlug : Bytes) (command : Storefront.Media.UploadMediaCommand)
  | updateMedia (mediaId : Bytes) (changes : Storefront.GameMediaUpdate)
  | removeMedia (mediaId : Bytes)
  | listNotes (idOrSlug : Bytes) (limit offset : Int)
  | createNote (idOrSlug : Bytes) (command : Storefront.Notes.CreatePatchNoteCommand)
  | updateNote (noteId : Bytes) (changes : Storefront.PatchNoteUpdate)
  | removeNote (noteId : Bytes)
  | downloadPlan (buildId fromBuildId : Bytes)
  | verifyInstall (buildId : Bytes) (installed : List Storefront.InstalledFile)
  | missingBlobs (buildId : Bytes) (blobs : List BlobDeclaration)
  | beginUpload (buildId : Bytes) (blob : BlobDeclaration)
  | finalizeBuild (buildId : Bytes) (command : FinalizeBuildCommand)
  | manifest (buildId : Bytes)
  | removeBuild (buildId : Bytes)
  | uploadChunk (sessionId : Bytes) (offset : Int) (chunk : Bytes)
  | abortUpload (sessionId : Bytes)
  | adminLogin (email password : Bytes)
  | adminRefresh (refreshToken : Bytes)
  | adminLogout (refreshToken : Bytes)
  | adminUpdateUser (userId : Bytes) (body : Option Json)
  | adminTemporaryPassword (userId : Bytes)
  | adminGrantRole (userId roleKey : Bytes)
  | adminRevokeRole (userId roleKey : Bytes)
  /-- It answers without any of the coroutines that are modelled: a document of the server, a page
  of a listing, or what is wrong with the request. -/
  | answers (endpoint : Endpoint)

/-- The route of a handler. -/
def Handler.endpoint : Handler → Endpoint
  | .registerUser _ => .registerUser
  | .login _ _ => .login
  | .refresh _ => .refresh
  | .logout _ => .logout
  | .verifyEmail _ => .verifyEmail
  | .resendVerification _ => .resendVerification
  | .requestPasswordReset _ => .requestPasswordReset
  | .confirmPasswordReset _ _ => .confirmPasswordReset
  | .changePassword _ _ => .changePassword
  | .requestErasure _ => .requestErasure
  | .library => .library
  | .addToLibrary _ => .addToLibrary
  | .removeFromLibrary _ => .removeFromLibrary
  | .explore _ => .explore
  | .createGame _ => .createGame
  | .myGames _ => .myGames
  | .gameDetail _ => .gameDetail
  | .updateGame _ _ => .updateGame
  | .deleteGame _ => .deleteGame
  | .createVersion _ _ => .createVersion
  | .createBuild _ _ => .createBuild
  | .updateVersion _ _ _ => .updateVersion
  | .deleteVersion _ _ => .deleteVersion
  | .listMedia _ => .listMedia
  | .uploadMedia _ _ => .uploadMedia
  | .updateMedia _ _ => .updateMedia
  | .removeMedia _ => .removeMedia
  | .listNotes _ _ _ => .listNotes
  | .createNote _ _ => .createNote
  | .updateNote _ _ => .updateNote
  | .removeNote _ => .removeNote
  | .downloadPlan _ _ => .downloadPlan
  | .verifyInstall _ _ => .verifyInstall
  | .missingBlobs _ _ => .missingBlobs
  | .beginUpload _ _ => .beginUpload
  | .finalizeBuild _ _ => .finalizeBuild
  | .manifest _ => .manifest
  | .removeBuild _ => .removeBuild
  | .uploadChunk _ _ _ => .uploadChunk
  | .abortUpload _ => .abortUpload
  | .adminLogin _ _ => .adminLogin
  | .adminRefresh _ => .adminRefresh
  | .adminLogout _ => .adminLogout
  | .adminUpdateUser _ _ => .adminUpdateUser
  | .adminTemporaryPassword _ => .adminTemporaryPassword
  | .adminGrantRole _ _ => .adminGrantRole
  | .adminRevokeRole _ _ => .adminRevokeRole
  | .answers endpoint => endpoint

/-- What a handler is suspended in. -/
inductive Work : Type 1
  | service (t : Deployment.Task)
  | adopting (t : AdminSession)
  | updating (t : Accounts.AdminUserController.Update)
  /-- It has answered without a coroutine. -/
  | answered

structure Env where
  gate : Filters.Env
  services : Deployment.Env
  jsoncpp : JsonCpp

section Start

variable (env : Env) (request : HttpRequest) (userAgent : Bytes) (attributes : Attributes)

def clientContextOf : ClientContext :=
  ⟨userAgent, Filters.clientAddressOf env.gate.config request⟩

def account (r : Accounts.Request) : Work := .service (Deployment.entry env.services (.accounts r))

def catalog (r : Storefront.Request) : Work := .service (Deployment.entry env.services (.catalog r))

/-- `requireClaims`; without claims the handler throws. -/
def requireClaims (k : AccessTokenClaims → Work) : Work :=
  match attributes with
  | none => .answered
  | some claims => k claims

/-- A handler of the catalog, which acts for the caller. -/
def catalogFor (r : Actor → Storefront.Request) : Work :=
  requireClaims attributes fun claims => catalog env (r (actorOf claims))

/-- A handler of the accounts that acts for the caller. -/
def accountFor (r : Actor → Accounts.Request) : Work :=
  requireClaims attributes fun claims => account env (r (actorOf claims))

/-- The handler up to its first call. -/
def Handler.start : Handler → Work
  | .registerUser command => account env (.registerUser command)
  | .login email password =>
      account env (.login email password (clientContextOf env request userAgent))
  | .refresh refreshToken =>
      account env (.refresh refreshToken (clientContextOf env request userAgent))
  | .logout refreshToken => account env (.logout refreshToken)
  | .verifyEmail token => account env (.verifyEmail token)
  | .resendVerification email => account env (.resendVerification email)
  | .requestPasswordReset email => account env (.requestPasswordReset email)
  | .confirmPasswordReset token password => account env (.resetPassword token password)
  | .changePassword currentPassword newPassword =>
      requireClaims attributes fun claims => account env (.changePassword (uuidOf claims.userId)
        currentPassword newPassword (clientContextOf env request userAgent))
  | .requestErasure command => accountFor env attributes (.erase · command)
  | .library => catalogFor env attributes .library
  | .addToLibrary idOrSlug => catalogFor env attributes (.addToLibrary · idOrSlug)
  | .removeFromLibrary gameId => catalogFor env attributes (.removeFromLibrary · gameId)
  | .explore query => catalogFor env attributes (.explore · query)
  | .createGame command => catalogFor env attributes (.createGame · command)
  | .myGames query => catalogFor env attributes (.publishedByActor · query)
  | .gameDetail idOrSlug => catalogFor env attributes (.gameDetail · idOrSlug)
  | .updateGame idOrSlug changes => catalogFor env attributes (.updateGame · idOrSlug changes)
  | .deleteGame idOrSlug => catalogFor env attributes (.core <| .deleteGame · idOrSlug)
  | .createVersion idOrSlug command =>
      catalogFor env attributes (.createVersion · idOrSlug command)
  | .createBuild idOrSlug command =>
      catalogFor env attributes (.core <| .createBuild · idOrSlug command)
  | .updateVersion idOrSlug versionId changes =>
      catalogFor env attributes (.updateVersion · idOrSlug versionId changes)
  | .deleteVersion idOrSlug versionId =>
      catalogFor env attributes (.core <| .deleteVersion · idOrSlug versionId)
  | .listMedia idOrSlug => catalogFor env attributes (.listMedia · idOrSlug)
  | .uploadMedia idOrSlug command => catalogFor env attributes (.uploadMedia · idOrSlug command)
  | .updateMedia mediaId changes => catalogFor env attributes (.updateMedia · mediaId changes)
  | .removeMedia mediaId => catalogFor env attributes (.removeMedia · mediaId)
  | .listNotes idOrSlug limit offset =>
      catalogFor env attributes (.listNotes · idOrSlug limit offset)
  | .createNote idOrSlug command => catalogFor env attributes (.createNote · idOrSlug command)
  | .updateNote noteId changes => catalogFor env attributes (.updateNote · noteId changes)
  | .removeNote noteId => catalogFor env attributes (.removeNote · noteId)
  | .downloadPlan buildId fromBuildId => catalogFor env attributes (.plan · buildId fromBuildId)
  | .verifyInstall buildId installed =>
      catalogFor env attributes (.verifyInstall · buildId installed)
  | .missingBlobs buildId blobs =>
      catalogFor env attributes (.core <| .missingBlobs · buildId blobs)
  | .beginUpload buildId blob => catalogFor env attributes (.core <| .beginUpload · buildId blob)
  | .finalizeBuild buildId command =>
      catalogFor env attributes (.core <| .finalizeBuild · buildId command)
  | .manifest buildId => catalogFor env attributes (.core <| .manifest · buildId)
  | .removeBuild buildId => catalogFor env attributes (.core <| .deleteBuild · buildId)
  | .uploadChunk sessionId offset chunk =>
      catalogFor env attributes (.core <| .uploadChunk · sessionId offset chunk)
  | .abortUpload sessionId => catalogFor env attributes (.core <| .abortUpload · sessionId)
  | .adminLogin email password =>
      .adopting (.signingIn (.findByEmail email password (clientContextOf env request userAgent)))
  | .adminRefresh refreshToken =>
      .adopting (.rotating (.findByHash refreshToken (clientContextOf env request userAgent)))
  | .adminLogout refreshToken => account env (.logout refreshToken)
  | .adminUpdateUser userId body => requireClaims attributes fun claims =>
      .updating
        (Accounts.AdminUserController.update env.jsoncpp (actorOf claims) userId body)
  | .adminTemporaryPassword userId => accountFor env attributes (.setTemporaryPassword · userId)
  | .adminGrantRole userId roleKey => accountFor env attributes (.grantRole · userId roleKey)
  | .adminRevokeRole userId roleKey => accountFor env attributes (.revokeRole · userId roleKey)
  | .answers _ => .answered

variable {env request userAgent attributes}

/-- What a handler can start with. A request to the catalog is made for the caller. -/
theorem Handler.start_cases {P : Work → Prop} (answered : P .answered)
    (account : ∀ r, P (account env r))
    (catalog : ∀ claims r, attributes = some claims →
      (Storefront.entry env.services.catalog r).actor = some (actorOf claims) →
      P (catalog env r))
    (signingIn : ∀ email password client,
      P (.adopting (.signingIn (.findByEmail email password client))))
    (rotating : ∀ refreshToken client,
      P (.adopting (.rotating (.findByHash refreshToken client))))
    (updating : ∀ actor userId body,
      P (.updating (Accounts.AdminUserController.update env.jsoncpp actor userId body)))
    (handler : Handler) : P (handler.start env request userAgent attributes) := by
  have hclaims : ∀ k : AccessTokenClaims → Work, (∀ claims, attributes = some claims →
      P (k claims)) → P (requireClaims attributes k) := by
    intro k hk
    cases ha : attributes with
    | none => exact answered
    | some claims => exact hk claims ha
  cases handler with
  | answers endpoint => exact answered
  | adminLogin email password => exact signingIn _ _ _
  | adminRefresh refreshToken => exact rotating _ _
  | adminUpdateUser userId body => exact hclaims _ (fun claims _ => updating _ _ _)
  | changePassword currentPassword newPassword => exact hclaims _ (fun claims _ => account _)
  | requestErasure command => exact hclaims _ (fun claims _ => account _)
  | adminTemporaryPassword userId => exact hclaims _ (fun claims _ => account _)
  | adminGrantRole userId roleKey => exact hclaims _ (fun claims _ => account _)
  | adminRevokeRole userId roleKey => exact hclaims _ (fun claims _ => account _)
  | registerUser command => exact account _
  | login email password => exact account _
  | refresh refreshToken => exact account _
  | logout refreshToken => exact account _
  | adminLogout refreshToken => exact account _
  | verifyEmail token => exact account _
  | resendVerification email => exact account _
  | requestPasswordReset email => exact account _
  | confirmPasswordReset token password => exact account _
  | _ => exact hclaims _ (fun claims h => catalog claims _ h rfl)

end Start

/-- The handler from one call to the next. -/
def Work.next (env : Env) : Work → Suspended Deployment.Call Work
  | .service t => (t.next env.services).map .service
  | .adopting t => ((t.next env.services.accounts).lift Deployment.Call.accounts).map .adopting
  | .updating t => ((t.next env.jsoncpp).lift Deployment.Call.accounts).map .updating
  | .answered => .done

end Controllers

end Launcher
