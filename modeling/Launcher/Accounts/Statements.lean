import Launcher.Accounts.Schema

set_option autoImplicit false

/-! # The statements on the account tables

Each repository method is one SQL statement, hence one atomic step; hashing a password and
handing a message to the relay are steps too, which leave the tables alone. `Call` lists them,
indexed by the type of the reply, and `exec` runs one. A statement that violates a constraint
throws (`Except SqlError`) and changes nothing.

The statements keep the names of the repository methods
(`repositories/postgres/Pg{,Admin}Repositories.cpp`). A text that a service draws and stores
only the hash of (a refresh token, a link) is drawn by the statement that stores it. -/

namespace Launcher.Accounts

open Launcher.Lib

namespace State

variable (env : Env) (s : State)

/-! ## Users -/

/-- The comparison is `citext`'s. -/
def findByEmail (email : Bytes) : Option Account :=
  s.users.rows.find? (fun u => env.lower u.email == env.lower email)

/-- `INSERT … ON CONFLICT (email) DO NOTHING`: `none` when the address is taken. -/
def createUser (choice : Choice) (user : NewUser) : Except SqlError (Option Account) × State :=
  if env.charLength user.displayName < 2 || 64 < env.charLength user.displayName then
    (.error .checkViolation, s)
  else if (s.findByEmail env user.email).isSome then (.ok none, s)
  else if s.issued.contains choice.uuid then (.error .uniqueViolation, s)
  else
    let row : Account :=
      { id := choice.uuid, email := user.email, displayName := user.displayName,
        passwordHash := user.passwordHash, emailVerified := false, isActive := true,
        passwordChangeRequired := false, uploadQuotaBytes := 5368709120, uploadUsedBytes := 0,
        lastLoginAt := none }
    (.ok (some row), { s with users := s.users.insert row, issued := choice.uuid :: s.issued })

/-- `UPDATE users SET … WHERE id = $1`. -/
def updateUser (userId : Uuid) (f : Table.Update Account.id) : State :=
  { s with users := s.users.modify userId f }

def markEmailVerified (userId : Uuid) : State :=
  s.updateUser userId ⟨fun u => { u with emailVerified := true }, fun _ => rfl⟩

/-- Stores a password the owner chose, and clears the flag in the same statement. -/
def updatePasswordHash (userId : Uuid) (passwordHash : Bytes) : State :=
  s.updateUser userId
    ⟨fun u => { u with passwordHash := passwordHash, passwordChangeRequired := false },
      fun _ => rfl⟩

/-- Stores another encoding of the same password; the flag is left alone. -/
def rehashPassword (userId : Uuid) (passwordHash : Bytes) : State :=
  s.updateUser userId ⟨fun u => { u with passwordHash := passwordHash }, fun _ => rfl⟩

def recordSuccessfulLogin (userId : Uuid) : State :=
  s.updateUser userId ⟨fun u => { u with lastLoginAt := some s.now }, fun _ => rfl⟩

/-! ## Roles -/

/-- `user_roles` joined with `role_permissions`: the account holds the permission. -/
def holds (userId : Uuid) (permission : Permission) : Bool :=
  s.userRoles.rows.any (fun row => row.userId == userId &&
    ((s.roles.find? row.roleKey).map (fun r => r.permissions.contains permission)).getD false)

def permissionsForUser (userId : Uuid) : List Permission :=
  permissionsByKey.filter (s.holds userId)

def rolesForUser (userId : Uuid) : List Bytes :=
  ((s.userRoles.rows.filter (fun row => row.userId == userId)).map (·.roleKey)).insertionSort
    (fun a b => a ≤ b)

/-- The `INSERT … ON CONFLICT DO NOTHING` of `assignRole` and `grantRole`: nothing when there
is no such account or role. (What `assignRole` reads back afterwards is not used.) -/
def insertRole (userId : Uuid) (roleKey : Bytes) (grantedBy : Option Uuid) : State :=
  if (s.users.find? userId).isSome && (s.roles.find? roleKey).isSome then
    { s with userRoles := s.userRoles.insert ⟨userId, roleKey, grantedBy⟩ }
  else s

/-- How many active accounts besides one hold a permission. -/
def countOtherHoldersOf (permission : Permission) (excludingUserId : Uuid) : Nat :=
  (s.users.rows.filter (fun u =>
    u.isActive && u.id != excludingUserId && s.holds u.id permission)).length

/-! ## Refresh tokens -/

/-- A row to insert: the id and the token text are drawn, the hash must be new. -/
def insertToken (choice : Choice) (userId familyId : Uuid) (client : ClientContext) :
    Except SqlError (Uuid × Bytes) × State :=
  if (s.users.find? userId).isNone then (.error .foreignKeyViolation, s)
  else if s.issued.contains choice.uuid ||
      s.refreshTokens.rows.any (fun t => t.tokenHash == env.sha256Hex choice.token) then
    (.error .uniqueViolation, s)
  else
    let row : RefreshToken :=
      { id := choice.uuid, userId := userId, familyId := familyId,
        tokenHash := env.sha256Hex choice.token, issuedAt := s.now,
        expiresAt := s.now + env.settings.refreshTokenTtl * second, revokedAt := none,
        replacedBy := none, client := client }
    (.ok (choice.uuid, choice.token),
      { s with refreshTokens := s.refreshTokens.insert row, issued := choice.uuid :: s.issued })

/-- `issue`, for a new session: its family is drawn as well. -/
def issueToken (choice : Choice) (userId : Uuid) (client : ClientContext) :
    Except SqlError (Uuid × Bytes) × State :=
  if s.issued.contains choice.family then (.error .uniqueViolation, s)
  else
    let drawn := { s with issued := choice.family :: s.issued }
    match drawn.insertToken env choice userId choice.family client with
    | (.error e, _) => (.error e, s)
    | (.ok reply, s') => (.ok reply, s')

/-- `SET revoked_at = now() WHERE … AND revoked_at IS NULL`. -/
def revokeWhere (p : RefreshToken → Bool) : State :=
  { s with
    refreshTokens := s.refreshTokens.updateWhere (fun t => p t && t.live)
      ⟨fun t => { t with revokedAt := some s.now }, fun _ => rfl⟩ }

/-- The `UPDATE` of `ROTATE_REFRESH_TOKEN`, which does not see the row the statement inserts. -/
def replaceToken (previousId nextId : Uuid) : State :=
  { s with
    refreshTokens := s.refreshTokens.updateWhere (fun t => t.id == previousId && t.live)
      ⟨fun t => { t with revokedAt := some s.now, replacedBy := some nextId }, fun _ => rfl⟩ }

/-- `ROTATE_REFRESH_TOKEN`: the insert does not ask whether there was a row to revoke. -/
def rotate (choice : Choice) (previousId userId familyId : Uuid) (client : ClientContext) :
    Except SqlError (Uuid × Bytes) × State :=
  match (s.replaceToken previousId choice.uuid).insertToken env choice userId familyId client with
  | (.error e, _) => (.error e, s)
  | (.ok reply, s') => (.ok reply, s')

def findByHash (tokenHash : Bytes) : Option RefreshTokenRecord :=
  (s.refreshTokens.rows.find? (fun t => t.tokenHash == tokenHash)).map (·.read s.now)

def revokeById (id : Uuid) : State := s.revokeWhere (fun t => t.id == id)

def revokeFamily (familyId : Uuid) : State := s.revokeWhere (fun t => t.familyId == familyId)

def revokeAllForUser (userId : Uuid) : State := s.revokeWhere (fun t => t.userId == userId)

/-! ## Links -/

/-- Returns the text of the link's token; only its hash is stored. -/
def issueUserToken (choice : Choice) (userId : Uuid) (purpose : UserTokenPurpose) (ttl : Nat) :
    Except SqlError Bytes × State :=
  if (s.users.find? userId).isNone then (.error .foreignKeyViolation, s)
  else if s.issued.contains choice.uuid ||
      s.userTokens.rows.any (fun t => t.tokenHash == env.sha256Hex choice.token) then
    (.error .uniqueViolation, s)
  else
    let row : UserToken :=
      { id := choice.uuid, userId := userId, purpose := purpose,
        tokenHash := env.sha256Hex choice.token, expiresAt := s.now + ttl * second,
        consumedAt := none }
    (.ok choice.token,
      { s with userTokens := s.userTokens.insert row, issued := choice.uuid :: s.issued })

/-- A link that `consume` takes: unspent, unexpired and for the purpose. -/
def redeemable (tokenHash : Bytes) (purpose : UserTokenPurpose) : Option UserToken :=
  s.userTokens.rows.find? (fun t => t.tokenHash == tokenHash && t.purpose == purpose &&
    t.consumedAt.isNone && decide (s.now < t.expiresAt))

def consumeWhere (p : UserToken → Bool) : State :=
  { s with
    userTokens := s.userTokens.updateWhere (fun t => p t && t.consumedAt.isNone)
      ⟨fun t => { t with consumedAt := some s.now }, fun _ => rfl⟩ }

def consume (tokenHash : Bytes) (purpose : UserTokenPurpose) : Option Uuid × State :=
  match s.redeemable tokenHash purpose with
  | none => (none, s)
  | some link => (some link.userId, s.consumeWhere (fun t => t.id == link.id))

def invalidateAll (userId : Uuid) (purpose : UserTokenPurpose) : State :=
  s.consumeWhere (fun t => t.userId == userId && t.purpose == purpose)

/-! ## Erasure -/

/-- Anonymises the row and everything that identified its owner, unless the row already
carries the placeholder address. -/
def erase (userId : Uuid) (identity : ErasedIdentity) (audit : AuditEntry) :
    Except SqlError Bool × State :=
  match s.users.find? userId with
  | none => (.ok false, s)
  | some user =>
      if env.lower user.email == env.lower identity.email then (.ok false, s)
      else if (s.findByEmail env identity.email).isSome then (.error .uniqueViolation, s)
      else
        (.ok true, { s with
          users := s.users.modify userId
            ⟨fun u => { u with
              email := identity.email, displayName := identity.displayName,
              passwordHash := identity.passwordHash, emailVerified := false,
              lastLoginAt := none, isActive := false }, fun _ => rfl⟩
          refreshTokens := s.refreshTokens.delete (fun t => t.userId == userId)
          userTokens := s.userTokens.delete (fun t => t.userId == userId)
          deletionRequests := s.deletionRequests ++ [⟨userId, identity.reason⟩]
          audit := s.audit ++ [audit] })

/-- What `erase` leaves when it finds the account. -/
def anonymised (userId : Uuid) (identity : ErasedIdentity) (audit : AuditEntry) : State :=
  { s with
    users := s.users.modify userId
      ⟨fun u => { u with
        email := identity.email, displayName := identity.displayName,
        passwordHash := identity.passwordHash, emailVerified := false,
        lastLoginAt := none, isActive := false }, fun _ => rfl⟩
    refreshTokens := s.refreshTokens.delete (fun t => t.userId == userId)
    userTokens := s.userTokens.delete (fun t => t.userId == userId)
    deletionRequests := s.deletionRequests ++ [⟨userId, identity.reason⟩]
    audit := s.audit ++ [audit] }

/-! ## Administration -/

/-- `mapSummary`. -/
def summaryOf (user : Account) : AdminUserSummary where
  id := user.id
  email := user.email
  displayName := user.displayName
  emailVerified := user.emailVerified
  isActive := user.isActive
  passwordChangeRequired := user.passwordChangeRequired
  uploadQuotaBytes := user.uploadQuotaBytes
  uploadUsedBytes := user.uploadUsedBytes
  roles := s.rolesForUser user.id

def findSummary (userId : Uuid) : Option AdminUserSummary :=
  (s.users.find? userId).map s.summaryOf

/-- The row a statement's `RETURNING` describes, after the change and its audit entry. -/
def updateAudited (userId : Uuid) (f : Table.Update Account.id) (audit : AuditEntry) : State :=
  { s with users := s.users.modify userId f, audit := s.audit ++ [audit] }

def setUploadQuota (userId : Uuid) (quotaBytes : Nat) (audit : AuditEntry) :
    Option AdminUserSummary × State :=
  match s.users.find? userId with
  | none => (none, s)
  | some _ =>
      let s' := s.updateAudited userId
        ⟨fun u => { u with uploadQuotaBytes := quotaBytes }, fun _ => rfl⟩ audit
      (s'.findSummary userId, s')

/-- Deactivating revokes the account's live refresh tokens in the same statement. -/
def setActive (userId : Uuid) (active : Bool) (audit : AuditEntry) :
    Option AdminUserSummary × State :=
  match s.users.find? userId with
  | none => (none, s)
  | some _ =>
      let s' := s.updateAudited userId ⟨fun u => { u with isActive := active }, fun _ => rfl⟩ audit
      let s'' := if active then s' else s'.revokeAllForUser userId
      (s''.findSummary userId, s'')

/-- The hash and the flag, the sessions and the reset links in one statement. -/
def setTemporaryPassword (userId : Uuid) (passwordHash : Bytes) (audit : AuditEntry) :
    Option AdminUserSummary × State :=
  match s.users.find? userId with
  | none => (none, s)
  | some _ =>
      let s' := s.updateAudited userId
        ⟨fun u => { u with passwordHash := passwordHash, passwordChangeRequired := true },
          fun _ => rfl⟩ audit
      let s'' := (s'.revokeAllForUser userId).invalidateAll userId .PasswordReset
      (s''.findSummary userId, s'')

def classifyRoleChange (userId : Uuid) (roleKey : Bytes) (changed : Bool) : RoleChange :=
  if (s.users.find? userId).isNone then .NoSuchUser
  else if (s.roles.find? roleKey).isNone then .NoSuchRole
  else if changed then .Applied else .AlreadyInThatState

def grantRole (userId : Uuid) (roleKey : Bytes) (audit : AuditEntry) : RoleChange × State :=
  let absent := (s.userRoles.find? (userId, roleKey)).isNone
  let change := s.classifyRoleChange userId roleKey absent
  if change = .Applied then
    (change, { s.insertRole userId roleKey (some audit.actorUserId) with
      audit := s.audit ++ [audit] })
  else (change, s)

def revokeRole (userId : Uuid) (roleKey : Bytes) (audit : AuditEntry) : RoleChange × State :=
  let present := (s.userRoles.find? (userId, roleKey)).isSome
  let change := s.classifyRoleChange userId roleKey present
  if change = .Applied then
    (change, { s with
      userRoles := s.userRoles.delete (fun row => row.key == (userId, roleKey))
      audit := s.audit ++ [audit] })
  else (change, s)

end State

/-! ## Calls -/

/-- A call a coroutine awaits, by the type of its reply. -/
inductive Call : Type → Type
  | hash (password : Bytes) : Call (Result Bytes)
  | randomTemporaryPassword : Call Bytes
  | sendMail (message : MailMessage) : Call Bool
  | findById (id : Uuid) : Call (Option Account)
  | findByEmail (email : Bytes) : Call (Option Account)
  | createUser (user : NewUser) : Call (Except SqlError (Option Account))
  | markEmailVerified (userId : Uuid) : Call Unit
  | updatePasswordHash (userId : Uuid) (passwordHash : Bytes) : Call Unit
  | rehashPassword (userId : Uuid) (passwordHash : Bytes) : Call Unit
  | recordSuccessfulLogin (userId : Uuid) : Call Unit
  | permissionsForUser (userId : Uuid) : Call (List Permission)
  | assignRole (userId : Uuid) (roleKey : Bytes) : Call Unit
  | issueToken (userId : Uuid) (client : ClientContext) : Call (Except SqlError (Uuid × Bytes))
  | rotate (previousId userId familyId : Uuid) (client : ClientContext) :
      Call (Except SqlError (Uuid × Bytes))
  | findByHash (tokenHash : Bytes) : Call (Option RefreshTokenRecord)
  | revokeById (id : Uuid) : Call Unit
  | revokeFamily (familyId : Uuid) : Call Unit
  | revokeAllForUser (userId : Uuid) : Call Unit
  | issueUserToken (userId : Uuid) (purpose : UserTokenPurpose) (ttl : Nat) :
      Call (Except SqlError Bytes)
  | consume (tokenHash : Bytes) (purpose : UserTokenPurpose) : Call (Option Uuid)
  | invalidateAll (userId : Uuid) (purpose : UserTokenPurpose) : Call Unit
  | erase (userId : Uuid) (identity : ErasedIdentity) (audit : AuditEntry) :
      Call (Except SqlError Bool)
  | findSummary (userId : Uuid) : Call (Option AdminUserSummary)
  | setUploadQuota (userId : Uuid) (quotaBytes : Nat) (audit : AuditEntry) :
      Call (Option AdminUserSummary)
  | setActive (userId : Uuid) (active : Bool) (audit : AuditEntry) :
      Call (Option AdminUserSummary)
  | setTemporaryPassword (userId : Uuid) (passwordHash : Bytes) (audit : AuditEntry) :
      Call (Option AdminUserSummary)
  | grantRole (userId : Uuid) (roleKey : Bytes) (audit : AuditEntry) : Call RoleChange
  | revokeRole (userId : Uuid) (roleKey : Bytes) (audit : AuditEntry) : Call RoleChange
  | countOtherHoldersOf (permission : Permission) (excludingUserId : Uuid) : Call Nat

/-- Run one call. -/
def exec (env : Env) (choice : Choice) : {α : Type} → Call α → State → α × State
  | _, .hash password, s => (env.hash password choice.salt, s)
  | _, .randomTemporaryPassword, s => (choice.token, s)
  | _, .sendMail _, s => (choice.delivered, s)
  | _, .findById id, s => (s.users.find? id, s)
  | _, .findByEmail email, s => (s.findByEmail env email, s)
  | _, .createUser user, s => s.createUser env choice user
  | _, .markEmailVerified userId, s => ((), s.markEmailVerified userId)
  | _, .updatePasswordHash userId hash, s => ((), s.updatePasswordHash userId hash)
  | _, .rehashPassword userId hash, s => ((), s.rehashPassword userId hash)
  | _, .recordSuccessfulLogin userId, s => ((), s.recordSuccessfulLogin userId)
  | _, .permissionsForUser userId, s => (s.permissionsForUser userId, s)
  | _, .assignRole userId roleKey, s => ((), s.insertRole userId roleKey none)
  | _, .issueToken userId client, s => s.issueToken env choice userId client
  | _, .rotate previousId userId familyId client, s =>
      s.rotate env choice previousId userId familyId client
  | _, .findByHash tokenHash, s => (s.findByHash tokenHash, s)
  | _, .revokeById id, s => ((), s.revokeById id)
  | _, .revokeFamily familyId, s => ((), s.revokeFamily familyId)
  | _, .revokeAllForUser userId, s => ((), s.revokeAllForUser userId)
  | _, .issueUserToken userId purpose ttl, s => s.issueUserToken env choice userId purpose ttl
  | _, .consume tokenHash purpose, s => s.consume tokenHash purpose
  | _, .invalidateAll userId purpose, s => ((), s.invalidateAll userId purpose)
  | _, .erase userId identity audit, s => s.erase env userId identity audit
  | _, .findSummary userId, s => (s.findSummary userId, s)
  | _, .setUploadQuota userId quotaBytes audit, s => s.setUploadQuota userId quotaBytes audit
  | _, .setActive userId active audit, s => s.setActive userId active audit
  | _, .setTemporaryPassword userId hash audit, s => s.setTemporaryPassword userId hash audit
  | _, .grantRole userId roleKey audit, s => s.grantRole userId roleKey audit
  | _, .revokeRole userId roleKey audit, s => s.revokeRole userId roleKey audit
  | _, .countOtherHoldersOf permission userId, s => (s.countOtherHoldersOf permission userId, s)

end Launcher.Accounts
