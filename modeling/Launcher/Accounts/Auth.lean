import Launcher.Lib.Coroutines
import Launcher.Accounts.Statements

set_option autoImplicit false

/-! # `AuthService`

The coroutines of `services/AuthService.cpp`. Each is a type whose constructors are the places
where it is suspended, with the parameters and variables it still needs, and `answered` with
what it returned; `next` gives the awaited call and what the coroutine does with the reply up
to the next call. A statement that throws ends the coroutine in `threw`. -/

namespace Launcher.Accounts

open Launcher.Lib

def INVALID_CREDENTIALS : Bytes := ascii "email or password is incorrect"
def INVALID_REFRESH_TOKEN : Bytes := ascii "the refresh token is missing, expired or invalid"
def ACCOUNT_DISABLED : Bytes := ascii "this account has been disabled"

/-- What an access token asserts. -/
structure AccessTokenClaims where
  userId : Uuid
  email : Bytes
  permissions : List Permission
  passwordChangeRequired : Bool
  deriving DecidableEq, Repr

structure AuthTokens where
  accessToken : AccessTokenClaims
  refreshToken : Bytes
  permissions : List Permission
  user : Account
  deriving DecidableEq, Repr

/-! ## `issueSession` -/

/-- `origin` is the token being rotated; a session that starts a new family has none. -/
inductive IssueSession
  | permissionsForUser (user : Account) (origin : Option RefreshTokenRecord)
      (client : ClientContext)
  | store (user : Account) (permissions : List Permission) (origin : Option RefreshTokenRecord)
      (client : ClientContext)
  | answered (tokens : AuthTokens)
  | threw (error : SqlError)

/-- The statement that stores the session's refresh token. -/
def storeCall (user : Account) (origin : Option RefreshTokenRecord) (client : ClientContext) :
    Call (Except SqlError (Uuid × Bytes)) :=
  match origin with
  | some previous => .rotate previous.id user.id previous.familyId client
  | none => .issueToken user.id client

def issuedTokens (user : Account) (permissions : List Permission) (refreshToken : Bytes) :
    AuthTokens where
  accessToken := ⟨user.id, user.email, permissions, user.passwordChangeRequired⟩
  refreshToken := refreshToken
  permissions := permissions
  user := user

def IssueSession.next : IssueSession → Suspended Call IssueSession
  | .permissionsForUser user origin client => .call (.permissionsForUser user.id)
      fun permissions => .store user permissions origin client
  | .store user permissions origin client => .call (storeCall user origin client) fun
      | .error e => .threw e
      | .ok (_, refreshToken) => .answered (issuedTokens user permissions refreshToken)
  | .answered _ => .done
  | .threw _ => .done

/-! ## `login` -/

inductive Login
  | findByEmail (email password : Bytes) (client : ClientContext)
  | hash (user : Account) (password : Bytes) (client : ClientContext)
  | rehashPassword (user : Account) (password upgraded : Bytes) (client : ClientContext)
  | recordSuccessfulLogin (user : Account) (client : ClientContext)
  | issuing (t : IssueSession)
  | answered (result : Result AuthTokens)

/-- With the account's row in hand. An unknown address costs a dummy hash and gets the answer a
wrong password gets. -/
def admitLogin (env : Env) (password : Bytes) (client : ClientContext) (found : Option Account) :
    Login :=
  match found with
  | none => .answered (failure .Unauthenticated INVALID_CREDENTIALS)
  | some user =>
      if !env.verify password user.passwordHash then
        .answered (failure .Unauthenticated INVALID_CREDENTIALS)
      else if !user.isActive then .answered (failure .Forbidden ACCOUNT_DISABLED)
      else if env.settings.requireVerifiedEmail && !user.emailVerified then
        .answered (failure .Forbidden (ascii "confirm your email address before signing in"))
      else if env.needsRehash user.passwordHash then .hash user password client
      else .recordSuccessfulLogin user client

def Login.next (env : Env) : Login → Suspended Call Login
  | .findByEmail email password client =>
      .call (.findByEmail (normalizeEmail email)) (admitLogin env password client)
  | .hash user password client => .call (.hash password) fun
      | .error _ => .recordSuccessfulLogin user client
      | .ok upgraded => .rehashPassword user password upgraded client
  | .rehashPassword user _ upgraded client => .call (.rehashPassword user.id upgraded) fun _ =>
      .recordSuccessfulLogin user client
  | .recordSuccessfulLogin user client => .call (.recordSuccessfulLogin user.id) fun _ =>
      .issuing (.permissionsForUser user none client)
  | .issuing t => t.next.map .issuing
  | .answered _ => .done

/-! ## `refresh` and `logout` -/

inductive Refresh
  | findByHash (refreshToken : Bytes) (client : ClientContext)
  | revokeReused (stored : RefreshTokenRecord)
  | revokeExpired (stored : RefreshTokenRecord)
  | findUser (stored : RefreshTokenRecord) (client : ClientContext)
  | revokeOrphaned (stored : RefreshTokenRecord)
  | revokeInactive (user : Account)
  | issuing (t : IssueSession)
  | answered (result : Result AuthTokens)

/-- With the presented token's row in hand. -/
def admitRefresh (client : ClientContext) (found : Option RefreshTokenRecord) : Refresh :=
  match found with
  | none => .answered (failure .Unauthenticated INVALID_REFRESH_TOKEN)
  | some stored =>
      -- an already rotated token: whoever replays it, the family can no longer be trusted
      if stored.revoked then .revokeReused stored
      else if stored.expired then .revokeExpired stored
      else .findUser stored client

def Refresh.next (env : Env) : Refresh → Suspended Call Refresh
  | .findByHash refreshToken client =>
      .call (.findByHash (env.sha256Hex refreshToken)) (admitRefresh client)
  | .revokeReused stored => .call (.revokeFamily stored.familyId) fun _ =>
      .answered (failure .Unauthenticated INVALID_REFRESH_TOKEN)
  | .revokeExpired stored => .call (.revokeById stored.id) fun _ =>
      .answered (failure .Unauthenticated INVALID_REFRESH_TOKEN)
  | .findUser stored client => .call (.findById stored.userId) fun
      | none => .revokeOrphaned stored
      | some user =>
          if !user.isActive then .revokeInactive user
          else .issuing (.permissionsForUser user (some stored) client)
  | .revokeOrphaned stored => .call (.revokeFamily stored.familyId) fun _ =>
      .answered (failure .Unauthenticated INVALID_REFRESH_TOKEN)
  | .revokeInactive user => .call (.revokeAllForUser user.id) fun _ =>
      .answered (failure .Forbidden ACCOUNT_DISABLED)
  | .issuing t => t.next.map .issuing
  | .answered _ => .done

inductive Logout
  | findByHash (refreshToken : Bytes)
  | revokeById (id : Uuid)
  | answered (result : VoidResult)

def Logout.next (env : Env) : Logout → Suspended Call Logout
  | .findByHash refreshToken => .call (.findByHash (env.sha256Hex refreshToken)) fun
      | none => .answered (.ok ())
      | some stored => .revokeById stored.id
  | .revokeById id => .call (.revokeById id) fun _ => .answered (.ok ())
  | .answered _ => .done

/-! ## Registration and the verification link -/

/-- `sendVerificationLink`; `sent` says whether the message went out. -/
inductive SendVerificationLink
  | issueUserToken (user : Account)
  | sendMail (user : Account) (token : Bytes)
  | sent (delivered : Bool)
  | threw (error : SqlError)

def sendVerificationLink (env : Env) (user : Account) : SendVerificationLink :=
  if !env.settings.mailEnabled then .sent false else .issueUserToken user

def SendVerificationLink.next (env : Env) :
    SendVerificationLink → Suspended Call SendVerificationLink
  | .issueUserToken user =>
      .call (.issueUserToken user.id .EmailVerification env.settings.emailVerificationTtl) fun
        | .error e => .threw e
        | .ok token => .sendMail user token
  | .sendMail user token =>
      .call (.sendMail ⟨.EmailVerification, user.email, user.displayName, token⟩) .sent
  | .sent _ => .done
  | .threw _ => .done

structure RegisterCommand where
  email : Bytes
  password : Bytes
  displayName : Bytes
  deriving DecidableEq, Repr

inductive RegisterUser
  | hash (email displayName password : Bytes)
  | createUser (user : NewUser)
  | assignRole (user : Account)
  | sending (user : Account) (t : SendVerificationLink)
  | answered (result : VoidResult)
  | threw (error : SqlError)

def registerUser (command : RegisterCommand) : RegisterUser :=
  let email := normalizeEmail command.email
  let displayName := trim command.displayName
  match (do
    validateEmail email
    validateDisplayName displayName
    validatePassword command.password : VoidResult) with
  | .error e => .answered (.error e)
  | .ok () => .hash email displayName command.password

def RegisterUser.next (env : Env) : RegisterUser → Suspended Call RegisterUser
  | .hash email displayName password => .call (.hash password) fun
      | .error e => .answered (.error e)
      | .ok passwordHash => .createUser ⟨email, displayName, passwordHash⟩
  | .createUser user => .call (.createUser user) fun
      | .error e => .threw e
      | .ok none =>
          .answered (failure .Conflict (ascii "that email address is already registered"))
      | .ok (some user) => .assignRole user
  | .assignRole user => .call (.assignRole user.id env.settings.defaultRole) fun _ =>
      .sending user (sendVerificationLink env user)
  -- a message that does not go out does not undo the registration
  | .sending user t => (t.next env).map (.sending user)
  | .answered _ => .done
  | .threw _ => .done

inductive ResendVerification
  | findByEmail (email : Bytes)
  | invalidateAll (user : Account)
  | sending (t : SendVerificationLink)
  | answered (result : VoidResult)

def ResendVerification.next (env : Env) : ResendVerification → Suspended Call ResendVerification
  | .findByEmail email => .call (.findByEmail (normalizeEmail email)) fun
      | none => .answered (.ok ())
      | some user =>
          if user.emailVerified || !user.isActive then .answered (.ok ()) else .invalidateAll user
  | .invalidateAll user => .call (.invalidateAll user.id .EmailVerification) fun _ =>
      .sending (sendVerificationLink env user)
  | .sending t => (t.next env).map .sending
  | .answered _ => .done

inductive VerifyEmail
  | consume (token : Bytes)
  | markEmailVerified (userId : Uuid)
  | answered (result : VoidResult)

def VerifyEmail.next (env : Env) : VerifyEmail → Suspended Call VerifyEmail
  | .consume token => .call (.consume (env.sha256Hex token) .EmailVerification) fun
      | none => .answered (failure .InvalidInput
          (ascii "this verification link is invalid or has expired"))
      | some userId => .markEmailVerified userId
  | .markEmailVerified userId => .call (.markEmailVerified userId) fun _ => .answered (.ok ())
  | .answered _ => .done

/-! ## Passwords -/

inductive RequestPasswordReset
  | findByEmail (email : Bytes)
  | invalidateAll (user : Account)
  | issueUserToken (user : Account)
  | sendMail (user : Account) (token : Bytes)
  | answered (result : VoidResult)
  | threw (error : SqlError)

def RequestPasswordReset.next (env : Env) :
    RequestPasswordReset → Suspended Call RequestPasswordReset
  | .findByEmail email => .call (.findByEmail (normalizeEmail email)) fun
      | none => .answered (.ok ())
      | some user =>
          if !env.settings.mailEnabled then .answered (.ok ()) else .invalidateAll user
  | .invalidateAll user => .call (.invalidateAll user.id .PasswordReset) fun _ =>
      .issueUserToken user
  | .issueUserToken user =>
      .call (.issueUserToken user.id .PasswordReset env.settings.passwordResetTtl) fun
        | .error e => .threw e
        | .ok token => .sendMail user token
  | .sendMail user token =>
      .call (.sendMail ⟨.PasswordReset, user.email, user.displayName, token⟩) fun _ =>
        .answered (.ok ())
  | .answered _ => .done
  | .threw _ => .done

inductive ResetPassword
  | consume (token newPassword : Bytes)
  | hash (userId : Uuid) (newPassword : Bytes)
  | updatePasswordHash (userId : Uuid) (newPassword passwordHash : Bytes)
  | revokeAllForUser (userId : Uuid)
  | invalidateAll (userId : Uuid)
  | answered (result : VoidResult)

def resetPassword (token newPassword : Bytes) : ResetPassword :=
  match validatePassword newPassword with
  | .error e => .answered (.error e)
  | .ok () => .consume token newPassword

def ResetPassword.next (env : Env) : ResetPassword → Suspended Call ResetPassword
  | .consume token newPassword => .call (.consume (env.sha256Hex token) .PasswordReset) fun
      | none =>
          .answered (failure .InvalidInput (ascii "this reset link is invalid or has expired"))
      | some userId => .hash userId newPassword
  | .hash userId newPassword => .call (.hash newPassword) fun
      | .error e => .answered (.error e)
      | .ok passwordHash => .updatePasswordHash userId newPassword passwordHash
  | .updatePasswordHash userId _ passwordHash =>
      .call (.updatePasswordHash userId passwordHash) fun _ => .revokeAllForUser userId
  | .revokeAllForUser userId => .call (.revokeAllForUser userId) fun _ => .invalidateAll userId
  | .invalidateAll userId => .call (.invalidateAll userId .PasswordReset) fun _ =>
      .answered (.ok ())
  | .answered _ => .done

inductive ChangePassword
  | findById (userId : Uuid) (currentPassword newPassword : Bytes) (client : ClientContext)
  | hash (user : Account) (currentPassword newPassword : Bytes) (client : ClientContext)
  | updatePasswordHash (user : Account) (currentPassword newPassword passwordHash : Bytes)
      (client : ClientContext)
  | revokeAllForUser (user : Account) (client : ClientContext)
  | invalidateAll (user : Account) (client : ClientContext)
  | findUpdated (user : Account) (client : ClientContext)
  | issuing (t : IssueSession)
  | answered (result : Result AuthTokens)

def changePassword (userId : Uuid) (currentPassword newPassword : Bytes)
    (client : ClientContext) : ChangePassword :=
  match validatePassword newPassword with
  | .error e => .answered (.error e)
  | .ok () => .findById userId currentPassword newPassword client

/-- With the account's row in hand. -/
def admitChange (env : Env) (currentPassword newPassword : Bytes) (client : ClientContext)
    (found : Option Account) : ChangePassword :=
  match found with
  | none => .answered (failure .Unauthenticated INVALID_CREDENTIALS)
  | some user =>
      if !env.verify currentPassword user.passwordHash then
        .answered (failure .Unauthenticated (ascii "that is not your current password"))
      else if !user.isActive then .answered (failure .Forbidden ACCOUNT_DISABLED)
      else if env.verify newPassword user.passwordHash then
        .answered (.error (invalidInput
          (ascii "the new password has to be different from the current one")
          (ascii "password_unchanged") []))
      else .hash user currentPassword newPassword client

def ChangePassword.next (env : Env) : ChangePassword → Suspended Call ChangePassword
  | .findById userId currentPassword newPassword client =>
      .call (.findById userId) (admitChange env currentPassword newPassword client)
  | .hash user currentPassword newPassword client => .call (.hash newPassword) fun
      | .error e => .answered (.error e)
      | .ok passwordHash => .updatePasswordHash user currentPassword newPassword passwordHash client
  | .updatePasswordHash user _ _ passwordHash client =>
      .call (.updatePasswordHash user.id passwordHash) fun _ => .revokeAllForUser user client
  | .revokeAllForUser user client => .call (.revokeAllForUser user.id) fun _ =>
      .invalidateAll user client
  | .invalidateAll user client => .call (.invalidateAll user.id .PasswordReset) fun _ =>
      .findUpdated user client
  | .findUpdated user client => .call (.findById user.id) fun
      | none => .answered (failure .Unauthenticated INVALID_CREDENTIALS)
      | some updated => .issuing (.permissionsForUser updated none client)
  | .issuing t => t.next.map .issuing
  | .answered _ => .done

end Launcher.Accounts
