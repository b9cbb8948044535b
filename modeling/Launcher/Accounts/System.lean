import Launcher.Accounts.Auth
import Launcher.Accounts.Administration

set_option autoImplicit false

/-! # The account services as one system of coroutines

Every request of the authentication, administration and account services, interleaved in any
order, over the account tables. Time passes from outside. -/

namespace Launcher.Accounts

open Launcher.Lib

inductive Task
  | registerUser (t : RegisterUser)
  | resendVerification (t : ResendVerification)
  | login (t : Login)
  | refresh (t : Refresh)
  | logout (t : Logout)
  | verifyEmail (t : VerifyEmail)
  | requestPasswordReset (t : RequestPasswordReset)
  | resetPassword (t : ResetPassword)
  | changePassword (t : ChangePassword)
  | setUploadQuota (t : SetUploadQuota)
  | setActive (t : SetActive)
  | setTemporaryPassword (t : SetTemporaryPassword)
  | changeRole (t : ChangeRole)
  | erase (t : Erase)

/-- An administrative request carries the actor its access token names: an account id and the
permissions the account held when the token was minted, however long ago. -/
inductive Request
  | registerUser (command : RegisterCommand)
  | resendVerification (email : Bytes)
  | login (email password : Bytes) (client : ClientContext)
  | refresh (refreshToken : Bytes) (client : ClientContext)
  | logout (refreshToken : Bytes)
  | verifyEmail (token : Bytes)
  | requestPasswordReset (email : Bytes)
  | resetPassword (token newPassword : Bytes)
  | changePassword (userId : Uuid) (currentPassword newPassword : Bytes) (client : ClientContext)
  | setUploadQuota (actor : Actor) (userId : Bytes) (quotaBytes : Int)
  | setActive (actor : Actor) (userId : Bytes) (active : Bool)
  | setTemporaryPassword (actor : Actor) (userId : Bytes)
  | grantRole (actor : Actor) (userId roleKey : Bytes)
  | revokeRole (actor : Actor) (userId roleKey : Bytes)
  | erase (actor : Actor) (command : EraseAccountCommand)

def entry : Request → Task
  | .registerUser command => .registerUser (registerUser command)
  | .resendVerification email => .resendVerification (.findByEmail email)
  | .login email password client => .login (.findByEmail email password client)
  | .refresh refreshToken client => .refresh (.findByHash refreshToken client)
  | .logout refreshToken => .logout (.findByHash refreshToken)
  | .verifyEmail token => .verifyEmail (.consume token)
  | .requestPasswordReset email => .requestPasswordReset (.findByEmail email)
  | .resetPassword token newPassword => .resetPassword (resetPassword token newPassword)
  | .changePassword userId currentPassword newPassword client =>
      .changePassword (changePassword userId currentPassword newPassword client)
  | .setUploadQuota actor userId quotaBytes =>
      .setUploadQuota (setUploadQuota actor userId quotaBytes)
  | .setActive actor userId active => .setActive (setActive actor userId active)
  | .setTemporaryPassword actor userId =>
      .setTemporaryPassword (setTemporaryPassword actor userId)
  | .grantRole actor userId roleKey => .changeRole (grantRole actor userId roleKey)
  | .revokeRole actor userId roleKey => .changeRole (revokeRole actor userId roleKey)
  | .erase actor command => .erase (erase actor command)

def Task.next (env : Env) : Task → Suspended Call Task
  | .registerUser t => (t.next env).map .registerUser
  | .resendVerification t => (t.next env).map .resendVerification
  | .login t => (t.next env).map .login
  | .refresh t => (t.next env).map .refresh
  | .logout t => (t.next env).map .logout
  | .verifyEmail t => (t.next env).map .verifyEmail
  | .requestPasswordReset t => (t.next env).map .requestPasswordReset
  | .resetPassword t => (t.next env).map .resetPassword
  | .changePassword t => (t.next env).map .changePassword
  | .setUploadQuota t => t.next.map .setUploadQuota
  | .setActive t => t.next.map .setActive
  | .setTemporaryPassword t => t.next.map .setTemporaryPassword
  | .changeRole t => t.next.map .changeRole
  | .erase t => (t.next env).map .erase

/-- Time passes. -/
inductive Outside
  | tick (duration : Nat)

def outside : Outside → State → State
  | .tick duration, s => { s with now := s.now + duration }

/-- The account services as a system of interleaved coroutines. -/
def server (env : Env) : System State Task Request Choice Outside Call where
  entry := entry
  next := Task.next env
  exec := exec env
  outside := outside

abbrev Server := World State Task

/-- A step of the server: who moves. -/
abbrev Move := Label Request Choice Outside

/-- Before the first session: accounts and roles may exist in any state, but no request has
arrived, and there are no sessions and no links. -/
structure Initial (w : Server) : Prop where
  tasks : w.tasks = []
  refreshTokens : w.shared.refreshTokens = Table.empty
  userTokens : w.shared.userTokens = Table.empty

/-! ## A small deployment

Two administrators, and requests to build runs from: the witnesses and counterexamples of the
invariants run on it. `sha256Hex` agrees with SHA-256 on the tokens that occur in them. The
hasher keeps the password readable in the encoding; what a hash made with earlier parameters
looks like differs in its first part, as Argon2id encodings do. -/

namespace Demo

def currentParameters : Bytes := ascii "$argon2id$m=65536$"
def earlierParameters : Bytes := ascii "$argon2id$m=8192$"

def sha256Hex (token : Bytes) : Bytes :=
  if token = ascii "t1" then
    ascii "628b49d96dcde97a430dd4f597705899e09a968f793491e4b704cae33a40dc02"
  else if token = ascii "t2" then
    ascii "c44474038d459e40e4714afefa7bf8dae9f9834b22f5e8ec1dd434ecb62b512e"
  else if token = ascii "t3" then
    ascii "cece8a9cecfb6c7e7ee4f3346d5e2544138bfb6e33bec6042a17333a4d3180b0"
  else ascii "2804bad6fe94a55f18b2b37e300919a5fd517b95aa81e95db574c0ba069a3740"

def env : Env where
  settings := ⟨false, 2592000, 86400, 3600, ascii "player", true⟩
  sha256Hex := sha256Hex
  hash := fun password _ => .ok (currentParameters ++ password)
  verify := fun password hash =>
    hash == currentParameters ++ password || hash == earlierParameters ++ password
  needsRehash := fun hash => earlierParameters.isPrefixOf hash
  lower := fun text => text.map toLower
  charLength := List.length

/-- The permissions an access token of one of the two accounts carries. -/
def adminPermissions : List Permission := permissionsByKey

/-- Account 1, whose hash was made with earlier parameters. -/
def ada : Account :=
  ⟨1, ascii "ada@example.com", ascii "Ada", earlierParameters ++ ascii "password1", true, true,
    false, 100, 0, none⟩

def grace : Account :=
  ⟨2, ascii "grace@example.com", ascii "Grace", currentParameters ++ ascii "password2", true,
    true, false, 100, 0, none⟩

def asAda : Actor := ⟨1, adminPermissions⟩
def asGrace : Actor := ⟨2, adminPermissions⟩

def start : Server where
  shared :=
    { now := 0, issued := []
      users := (Table.empty.insert ada).insert grace
      roles := (Table.empty.insert ⟨ascii "player", []⟩).insert ⟨ascii "admin", adminPermissions⟩
      userRoles := (Table.empty.insert ⟨1, ascii "admin", none⟩).insert ⟨2, ascii "admin", none⟩
      refreshTokens := .empty, userTokens := .empty, audit := [], deletionRequests := [] }
  tasks := []

theorem initial_start : Initial start := ⟨rfl, rfl, rfl⟩

def client : ClientContext := ⟨[], []⟩

/-- Task `i` makes its next call, drawing `uuid`, `family` and `token` if it stores a row. -/
def drawing (uuid family : Uuid) (token : String) (i : Nat) : Move :=
  .resume i ⟨uuid, family, ascii token, [], true⟩

/-- Task `i` makes its next `n` calls, none of which draws anything. -/
def go (i n : Nat) : List Move := List.replicate n (drawing 0 0 "" i)

/-- Task 0: grace signs in and is given the token `t1`, row 11 of family 21. -/
def signedIn : List Move :=
  .request (.login (ascii "grace@example.com") (ascii "password2") client)
    :: go 0 3 ++ [drawing 11 21 "t1" 0]

/-- Task `i` presents the token `t1` and gets as far as the rotating statement. -/
def presented (i : Nat) : List Move := .request (.refresh (ascii "t1") client) :: go i 3

end Demo

end Launcher.Accounts
