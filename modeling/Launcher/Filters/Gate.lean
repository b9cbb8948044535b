import Launcher.Common.ClientAddress
import Launcher.Common.RateLimiter
import Launcher.Lib.Admissions
import Launcher.Services.TokenService

set_option autoImplicit false

/-! # The filters in front of the handlers

`filters/`: what a request goes through before its handler sees it. A filter either answers the
request itself or lets it proceed; on the way it may take a token from a bucket or have the access
token verified, and the filters of other requests run in between. `Endpoint.filters` is the
filter list each handler is registered with. -/

namespace Launcher.Filters

open Lib
open TokenService (AccessTokenClaims)

/-! ## Requests -/

/-- The handlers, under the names of the controllers' methods. -/
inductive Endpoint
  | registerUser | login | refresh | logout | verifyEmail | resendVerification
  | requestPasswordReset | confirmPasswordReset | changePassword | currentUser
  | requestErasure
  | capabilities | liveness | readiness | latestRelease | verifyEmailPage | passwordResetPage
  | submitCrashReport
  | library | addToLibrary | removeFromLibrary
  | explore | createGame | myGames | gameDetail | updateGame | deleteGame
  | createVersion | createBuild | updateVersion | deleteVersion
  | listMedia | uploadMedia | updateMedia | removeMedia
  | listNotes | createNote | updateNote | removeNote
  | downloadPlan | verifyInstall
  | missingBlobs | beginUpload | finalizeBuild | manifest | removeBuild
  | uploadStatus | uploadChunk | abortUpload
  | adminIndex | adminLogin | adminRefresh | adminLogout | adminSession
  | adminDownloads | adminCrashGroups | adminCrashReports | adminCrashReport
  | adminUsers | adminUser | adminUpdateUser | adminTemporaryPassword
  | adminGrantRole | adminRevokeRole | adminRoles | adminAudit
  deriving DecidableEq, Repr

inductive Filter
  | authRateLimit
  | mailRateLimit
  | crashRateLimit
  | jwtAuth
  | adminSurface
  | adminOperator
  deriving DecidableEq, Repr

/-- The filters of `ADD_METHOD_TO`, in their order. -/
def Endpoint.filters : Endpoint → List Filter
  | .refresh | .logout | .verifyEmail | .capabilities | .liveness | .readiness | .latestRelease
  | .verifyEmailPage | .passwordResetPage => []
  | .registerUser | .login | .confirmPasswordReset => [.authRateLimit]
  | .resendVerification => [.mailRateLimit]
  | .requestPasswordReset => [.authRateLimit, .mailRateLimit]
  | .changePassword => [.authRateLimit, .jwtAuth]
  | .submitCrashReport => [.crashRateLimit]
  | .adminIndex | .adminLogout => [.adminSurface]
  | .adminLogin | .adminRefresh => [.adminSurface, .authRateLimit]
  | .adminSession | .adminDownloads | .adminCrashGroups | .adminCrashReports | .adminCrashReport
  | .adminUsers | .adminUser | .adminUpdateUser | .adminTemporaryPassword | .adminGrantRole
  | .adminRevokeRole | .adminRoles | .adminAudit => [.adminSurface, .jwtAuth, .adminOperator]
  | _ => [.jwtAuth]

/-- What the filters read of a request. A header that is not there reads as empty. -/
structure HttpRequest where
  peerAddr : Bytes
  localPort : Nat
  path : Bytes
  forwardedFor : Bytes
  authorization : Bytes

/-! ## The surroundings of a filter -/

inductive Limiter
  | auth
  | mail
  | crash
  | account
  deriving DecidableEq, Repr

/-- What of the configuration the filters and the limiters are given. -/
structure Config where
  trustedProxies : List Bytes
  mailEnabled : Bool
  crashReportsEnabled : Bool
  adminEnabled : Bool
  adminPort : Nat
  /-- `authAttempts`, `sendAttempts`, `submitAttempts` and `accountRequests`. -/
  attempts : Limiter → Nat
  windowSeconds : Limiter → Int

def Config.limits (config : Config) (limiter : Limiter) : RateLimiter.Limits :=
  RateLimiter.applyLimits (config.attempts limiter) (config.windowSeconds limiter)

structure Env where
  config : Config
  jwt : TokenService.JwtCpp
  settings : TokenService.TokenSettings

/-- An error response, with its `Retry-After` if it has one. -/
structure Refusal where
  error : Error
  retryAfter : Option Int
  deriving DecidableEq

/-- The steps of a filter that others can come between. -/
inductive Call : Type → Type
  | verifyAccessToken (token : Bytes) : Call (Result AccessTokenClaims)
  | tryAcquire (limiter : Limiter) (key : Bytes) : Call Bool
  | retryAfter (limiter : Limiter) (key : Bytes) : Call Int

/-- `AUTH_CLAIMS_ATTRIBUTE` of the request. -/
abbrev Attributes := Option AccessTokenClaims

abbrev Chain (α : Type) := Program Call Refusal α

def refuse {α : Type} (code : ErrorCode) (detail : Bytes) : Chain α :=
  .fail ⟨{ code := code, detail := detail }, none⟩

/-! ## The filters -/

section Filters

variable (config : Config) (request : HttpRequest)

def clientAddressOf : Bytes :=
  ClientAddress.resolveClientAddress request.peerAddr request.forwardedFor config.trustedProxies

/-- A token for `key`, or a refusal that says when to come back. -/
def acquire (limiter : Limiter) (message key : Bytes) : Chain Unit := do
  let acquired ← .await (.tryAcquire limiter key)
  if acquired then return ()
  else
    let retryAfter ← .await (.retryAfter limiter key)
    .fail ⟨{ code := .RateLimited, detail := message }, some retryAfter⟩

def AuthRateLimitFilter.doFilter : Chain Unit :=
  acquire .auth (ascii "too many attempts; please wait and try again")
    (clientAddressOf config request)

def MailRateLimitFilter.doFilter : Chain Unit :=
  if !config.mailEnabled then refuse .NotFound (ascii "no such endpoint")
  else acquire .mail (ascii "too many messages requested; please wait and try again")
    (clientAddressOf config request)

def CrashRateLimitFilter.doFilter : Chain Unit :=
  if !config.crashReportsEnabled then refuse .NotFound (ascii "no such endpoint")
  else acquire .crash (ascii "too many crash reports; please wait and try again")
    (clientAddressOf config request)

def BEARER_PREFIX : Bytes := ascii "Bearer "

def extractBearerToken : Bytes :=
  if request.authorization.length ≤ BEARER_PREFIX.length ||
      request.authorization.take BEARER_PREFIX.length != BEARER_PREFIX then []
  else request.authorization.drop BEARER_PREFIX.length

def PASSWORD_CHANGE_PATH : Bytes := ascii "/api/v1/me/password"

def JwtAuthFilter.doFilter : Chain AccessTokenClaims := do
  let token := extractBearerToken request
  if token.isEmpty then refuse .Unauthenticated (ascii "a bearer access token is required")
  else
    let verified ← .await (.verifyAccessToken token)
    let claims ← .ofExcept (verified.mapError fun e => ⟨e, none⟩)
    acquire .account (ascii "too many requests on this account; please slow down") claims.userId
    if claims.passwordChangeRequired && request.path != PASSWORD_CHANGE_PATH then
      refuse .PasswordChangeRequired
        (ascii "this account is using a temporary password and must choose a new one")
    else return claims

def AdminSurfaceFilter.doFilter : Chain Unit :=
  if !config.adminEnabled || request.localPort != config.adminPort then
    refuse .NotFound (ascii "The requested resource does not exist.")
  else return ()

def ADMINISTRATIVE_PREFIX : Bytes := ascii "admin."

def isAdministrativePermission (permission : Bytes) : Bool :=
  decide (ADMINISTRATIVE_PREFIX.length < permission.length) &&
    permission.take ADMINISTRATIVE_PREFIX.length == ADMINISTRATIVE_PREFIX

def mayUseAdminSurface (permissions : List Bytes) : Bool :=
  permissions.any isAdministrativePermission

def MISSING_AUTHENTICATION_FILTER : Bytes :=
  ascii "this route is missing its authentication filter"

def AdminOperatorFilter.doFilter (attributes : Attributes) : Chain Unit :=
  match attributes with
  | none => refuse .Internal MISSING_AUTHENTICATION_FILTER
  | some claims =>
      if !mayUseAdminSurface claims.permissions then
        refuse .Forbidden (ascii "this account is not an administrator")
      else return ()

/-- A filter, with the attributes the request has then. -/
def Filter.doFilter (attributes : Attributes) : Filter → Chain Attributes
  | .authRateLimit => do
      AuthRateLimitFilter.doFilter config request
      return attributes
  | .mailRateLimit => do
      MailRateLimitFilter.doFilter config request
      return attributes
  | .crashRateLimit => do
      CrashRateLimitFilter.doFilter config request
      return attributes
  | .jwtAuth => do
      let claims ← JwtAuthFilter.doFilter request
      return some claims
  | .adminSurface => do
      AdminSurfaceFilter.doFilter config request
      return attributes
  | .adminOperator => do
      AdminOperatorFilter.doFilter attributes
      return attributes

/-- The filters one after the other; what is answered are the attributes the handler finds. -/
def doFilters : List Filter → Attributes → Chain Attributes
  | [], attributes => return attributes
  | filter :: rest, attributes => do
      let attributes ← filter.doFilter config request attributes
      doFilters rest attributes

end Filters

/-! ## The system -/

structure State where
  /-- `steady_clock::now()`. -/
  steady : RateLimiter.TimePoint
  /-- `system_clock::now()`. -/
  wall : TokenService.TimePoint
  buckets : Limiter → RateLimiter.Buckets

def exec (env : Env) (_ : Unit) : {α : Type} → Call α → State → α × State
  | _, .verifyAccessToken token, s =>
      (TokenService.verifyAccessToken env.jwt env.settings s.wall token, s)
  | _, .tryAcquire limiter key, s =>
      let r := RateLimiter.tryAcquire (env.config.limits limiter) (s.buckets limiter) s.steady key
      (r.1, { s with buckets := Function.update s.buckets limiter r.2 })
  | _, .retryAfter limiter key, s =>
      let r := RateLimiter.retryAfter (env.config.limits limiter) (s.buckets limiter) s.steady key
      (r.1, { s with buckets := Function.update s.buckets limiter r.2 })

/-- A request on its way to the handler of an endpoint. -/
structure Task where
  endpoint : Endpoint
  request : HttpRequest
  chain : Chain Attributes

inductive Outside
  /-- Time passes; the clock of the system may be set meanwhile. -/
  | tick (duration : Nat) (wall : TokenService.TimePoint)

def outside : Outside → State → State
  | .tick duration wall, s => { s with steady := s.steady + duration, wall := wall }

/-- What arrives: a request, for the endpoint it is routed to. -/
structure Arrival where
  endpoint : Endpoint
  request : HttpRequest

/-- The filters as a system of requests on their way. -/
def gate (env : Env) : System State Task Arrival Unit Outside Call where
  entry arrival := ⟨arrival.endpoint, arrival.request,
    doFilters env.config arrival.request arrival.endpoint.filters none⟩
  next t := t.chain.next.map (fun chain => ⟨t.endpoint, t.request, chain⟩)
  exec := exec env
  outside := outside

abbrev Gate := World State Task

abbrev Move := Label Arrival Unit Outside

/-- A server that has just started. -/
structure Initial (w : Gate) : Prop where
  tasks : w.tasks = []
  buckets : ∀ limiter, w.shared.buckets limiter = RateLimiter.noBuckets

/-- The attributes of a request that has reached its handler. -/
def Task.admitted (t : Task) : Option Attributes :=
  match t.chain with
  | .done (.ok attributes) => some attributes
  | _ => none

/-! ## A small deployment -/

namespace Demo

def config : Config where
  trustedProxies := []
  mailEnabled := false
  crashReportsEnabled := true
  adminEnabled := true
  adminPort := 9090
  attempts := fun _ => 2
  windowSeconds := fun _ => 60

def env : Env := ⟨config, TokenService.demoJwt, TokenService.demoSettings⟩

def request : HttpRequest where
  peerAddr := ascii "203.0.113.7"
  localPort := 8080
  path := ascii "/api/v1/library"
  forwardedFor := []
  authorization := BEARER_PREFIX ++ TokenService.demoToken

/-- A hundred seconds after the token of the request was issued. -/
def start : Gate := ⟨⟨0, 1700000100000000000, fun _ => RateLimiter.noBuckets⟩, []⟩

theorem initial_start : Initial start := ⟨rfl, fun _ => rfl⟩

/-- The library is asked for; the token is verified and the limiter asked. -/
def moves : List Move := [.request ⟨.library, request⟩, .resume 0 (), .resume 0 ()]

end Demo

end Launcher.Filters
