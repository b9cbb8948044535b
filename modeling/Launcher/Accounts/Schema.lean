import Launcher.Database.Schema
import Launcher.Domain.Validation

set_option autoImplicit false

/-! # The tables behind signing in

The tables of migrations 0001 and 0007 that accounts, sessions, links and roles live in, and
the state the coroutines of the authentication, administration and account services share.
Uploads and the catalog do not touch these tables, and these services do not touch theirs
(an erasure also empties the account's library and detaches its download events, which no
function modelled here reads).

Ids, session families and token texts come from the random generators: the state keeps the
ids handed out, and none is handed out twice. -/

namespace Launcher.Accounts

open Launcher.Lib

/-- A row of `users`. -/
structure Account where
  id : Uuid
  email : Bytes
  displayName : Bytes
  passwordHash : Bytes
  emailVerified : Bool
  isActive : Bool
  passwordChangeRequired : Bool
  uploadQuotaBytes : Nat
  uploadUsedBytes : Nat
  lastLoginAt : Option Nat
  deriving DecidableEq, Repr

/-- A role, with the permissions `role_permissions` gives it. -/
structure Role where
  key : Bytes
  permissions : List Permission
  deriving DecidableEq, Repr

/-- A row of `user_roles`. -/
structure UserRole where
  userId : Uuid
  roleKey : Bytes
  grantedBy : Option Uuid
  deriving DecidableEq, Repr

def UserRole.key (row : UserRole) : Uuid × Bytes := (row.userId, row.roleKey)

/-- Where a request came from. -/
structure ClientContext where
  userAgent : Bytes
  ipAddress : Bytes
  deriving DecidableEq, Repr

/-- A row of `refresh_tokens`. -/
structure RefreshToken where
  id : Uuid
  userId : Uuid
  familyId : Uuid
  tokenHash : Bytes
  issuedAt : Nat
  expiresAt : Nat
  revokedAt : Option Nat
  replacedBy : Option Uuid
  client : ClientContext
  deriving DecidableEq, Repr

/-- `revoked_at IS NULL`. -/
def RefreshToken.live (row : RefreshToken) : Bool := row.revokedAt.isNone

inductive UserTokenPurpose
  | EmailVerification
  | PasswordReset
  deriving DecidableEq, Repr

/-- A row of `user_tokens`. -/
structure UserToken where
  id : Uuid
  userId : Uuid
  purpose : UserTokenPurpose
  tokenHash : Bytes
  expiresAt : Nat
  consumedAt : Option Nat
  deriving DecidableEq, Repr

/-- A row of `audit_log`. -/
structure AuditEntry where
  actorUserId : Uuid
  action : Bytes
  entityType : Bytes
  entityId : Bytes
  metadata : List (Bytes × Bytes)
  deriving DecidableEq, Repr

/-- A row of `account_deletion_requests`; the service only writes completed ones. -/
structure DeletionRequest where
  userId : Uuid
  reason : Bytes
  deriving DecidableEq, Repr

/-- Everything these services share. -/
structure State where
  now : Nat
  issued : List Uuid
  users : Table Account.id
  roles : Table Role.key
  userRoles : Table UserRole.key
  refreshTokens : Table RefreshToken.id
  userTokens : Table UserToken.id
  audit : List AuditEntry
  deletionRequests : List DeletionRequest

/-! ## What the repositories take and return -/

/-- A refresh token as `findByHash` returns it; `expired` is `expires_at <= now()` then. -/
structure RefreshTokenRecord where
  id : Uuid
  userId : Uuid
  familyId : Uuid
  revoked : Bool
  expired : Bool
  deriving DecidableEq, Repr

def RefreshToken.read (row : RefreshToken) (now : Nat) : RefreshTokenRecord where
  id := row.id
  userId := row.userId
  familyId := row.familyId
  revoked := !row.live
  expired := decide (row.expiresAt ≤ now)

structure NewUser where
  email : Bytes
  displayName : Bytes
  passwordHash : Bytes
  deriving DecidableEq, Repr

/-- The identity an erased row carries. -/
structure ErasedIdentity where
  email : Bytes
  displayName : Bytes
  passwordHash : Bytes
  reason : Bytes
  deriving DecidableEq, Repr

/-- An account as the operator console reads it: without the password hash, with its roles. -/
structure AdminUserSummary where
  id : Uuid
  email : Bytes
  displayName : Bytes
  emailVerified : Bool
  isActive : Bool
  passwordChangeRequired : Bool
  uploadQuotaBytes : Nat
  uploadUsedBytes : Nat
  roles : List Bytes
  deriving DecidableEq, Repr

inductive RoleChange
  | NoSuchUser
  | NoSuchRole
  | Applied
  | AlreadyInThatState
  deriving DecidableEq, Repr

/-- A message handed to the mail transport; the templates fill in the text around these. -/
structure MailMessage where
  purpose : UserTokenPurpose
  recipient : Bytes
  displayName : Bytes
  token : Bytes
  deriving DecidableEq, Repr

/-! ## Settings and the parts of the system that are not in the repository -/

structure AuthSettings where
  requireVerifiedEmail : Bool
  refreshTokenTtl : Nat
  emailVerificationTtl : Nat
  passwordResetTtl : Nat
  defaultRole : Bytes
  mailEnabled : Bool
  deriving DecidableEq, Repr

/-- Settings, and the third-party functions the services call: SHA-256 in lower-case hex, the
three functions of the password hasher (`hash` with the salt it draws), the database's `lower`,
by which `citext` compares, and its `char_length`. -/
structure Env where
  settings : AuthSettings
  sha256Hex : Bytes → Bytes
  hash : Bytes → Bytes → Result Bytes
  verify : Bytes → Bytes → Bool
  needsRehash : Bytes → Bool
  lower : Bytes → Bytes
  charLength : Bytes → Nat

/-- What a call cannot decide by itself: the ids, the session family, the token text or
password and the salt that are drawn, and whether the mail relay takes a message. -/
structure Choice where
  uuid : Uuid
  family : Uuid
  token : Bytes
  salt : Bytes
  delivered : Bool
  deriving DecidableEq, Repr

/-- The permission keys in the order of their names. -/
def permissionsByKey : List Permission :=
  [.ADMIN_CRASHES_READ, .ADMIN_GAMES_MANAGE, .ADMIN_ROLES_MANAGE, .ADMIN_SETTINGS_MANAGE,
    .ADMIN_USERS_MANAGE, .BUILD_UPLOAD, .GAME_DOWNLOAD, .GAME_PUBLISH, .GAME_READ,
    .LIBRARY_MANAGE, .LIBRARY_READ, .PATCHNOTE_WRITE]

end Launcher.Accounts
