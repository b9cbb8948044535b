import Launcher.Lib.Coroutines
import Launcher.Accounts.Statements

set_option autoImplicit false

/-! # `AdminUserService` and `AccountService`

The coroutines of `services/AdminUserService.cpp` that change an account, and the erasure of
`services/AccountService.cpp`, in the form of the other services. The listings of accounts,
roles and audit entries read and change nothing that is modelled here. -/

namespace Launcher.Accounts

open Launcher.Lib

def NO_SUCH_ACCOUNT : Bytes := ascii "no such account"
def NO_SUCH_SESSION : Bytes := ascii "this session no longer belongs to an account"
def LAST_ADMINISTRATOR : Bytes :=
  ascii "this is the only active account that can manage users; grant another one first"

/-- `actor.owns(userId)`: the id in the token, as the server renders it, against the text of
the request. -/
def ownsText (actor : Actor) (userId : Bytes) : Bool := uuidText actor.userId == userId

/-- `requirePermission` and `requireUserId`, which every one of these routes starts with. -/
def administer (actor : Actor) (permission : Permission) (userId : Bytes) : Result Uuid :=
  if !actor.can permission then
    failure .Forbidden (ascii "you do not have permission to do that")
  else if !isUuid userId then failure .NotFound NO_SUCH_ACCOUNT
  else .ok (uuidOf userId)

def auditFor (actor : Actor) (action : String) (userId : Bytes)
    (metadata : List (Bytes × Bytes)) : AuditEntry where
  actorUserId := actor.userId
  action := ascii action
  entityType := ascii "user"
  entityId := userId
  metadata := metadata

/-- The account after the change, or the answer for an account that is not there. -/
def summaryResult : Option AdminUserSummary → Result AdminUserSummary
  | none => failure .NotFound NO_SUCH_ACCOUNT
  | some summary => .ok summary

/-! ## `setUploadQuota` -/

inductive SetUploadQuota
  | setUploadQuota (userId : Uuid) (quotaBytes : Nat) (audit : AuditEntry)
  | answered (result : Result AdminUserSummary)

def setUploadQuota (actor : Actor) (userId : Bytes) (quotaBytes : Int) : SetUploadQuota :=
  match administer actor .ADMIN_USERS_MANAGE userId with
  | .error e => .answered (.error e)
  | .ok id =>
      if quotaBytes < 0 then
        .answered (failure .InvalidInput (ascii "quotaBytes cannot be negative"))
      else
        .setUploadQuota id quotaBytes.toNat
          (auditFor actor "user.quota.changed" userId [(ascii "quotaBytes", decimal quotaBytes)])

def SetUploadQuota.next : SetUploadQuota → Suspended Call SetUploadQuota
  | .setUploadQuota userId quotaBytes audit =>
      .call (.setUploadQuota userId quotaBytes audit) fun updated =>
        .answered (summaryResult updated)
  | .answered _ => .done

/-! ## `setActive` -/

inductive SetActive
  | countOtherHoldersOf (userId : Uuid) (audit : AuditEntry)
  | setActive (userId : Uuid) (active : Bool) (audit : AuditEntry)
  | answered (result : Result AdminUserSummary)

def setActive (actor : Actor) (userId : Bytes) (active : Bool) : SetActive :=
  match administer actor .ADMIN_USERS_MANAGE userId with
  | .error e => .answered (.error e)
  | .ok id =>
      if active then .setActive id true (auditFor actor "user.activated" userId [])
      else if ownsText actor userId then
        .answered (failure .InvalidInput
          (ascii "an operator cannot deactivate their own account; ask another one"))
      else .countOtherHoldersOf id (auditFor actor "user.deactivated" userId [])

def SetActive.next : SetActive → Suspended Call SetActive
  -- `refuseIfLastAdministrator`
  | .countOtherHoldersOf userId audit =>
      .call (.countOtherHoldersOf .ADMIN_USERS_MANAGE userId) fun others =>
        if 0 < others then .setActive userId false audit
        else .answered (failure .Conflict LAST_ADMINISTRATOR)
  | .setActive userId active audit => .call (.setActive userId active audit) fun updated =>
      .answered (summaryResult updated)
  | .answered _ => .done

/-! ## `setTemporaryPassword` -/

structure TemporaryPassword where
  user : AdminUserSummary
  password : Bytes
  deriving DecidableEq, Repr

inductive SetTemporaryPassword
  | randomTemporaryPassword (userId : Uuid) (audit : AuditEntry)
  | hash (userId : Uuid) (password : Bytes) (audit : AuditEntry)
  | setTemporaryPassword (userId : Uuid) (password passwordHash : Bytes) (audit : AuditEntry)
  | answered (result : Result TemporaryPassword)

def setTemporaryPassword (actor : Actor) (userId : Bytes) : SetTemporaryPassword :=
  match administer actor .ADMIN_USERS_MANAGE userId with
  | .error e => .answered (.error e)
  | .ok id =>
      if ownsText actor userId then
        .answered (failure .InvalidInput (ascii ("an operator cannot set a temporary password " ++
          "on their own account; ask another one")))
      else
        .randomTemporaryPassword id (auditFor actor "user.password.temporary_set" userId [])

def SetTemporaryPassword.next : SetTemporaryPassword → Suspended Call SetTemporaryPassword
  | .randomTemporaryPassword userId audit => .call .randomTemporaryPassword fun password =>
      .hash userId password audit
  | .hash userId password audit => .call (.hash password) fun
      | .error e => .answered (.error e)
      | .ok passwordHash => .setTemporaryPassword userId password passwordHash audit
  | .setTemporaryPassword userId password passwordHash audit =>
      .call (.setTemporaryPassword userId passwordHash audit) fun
        | none => .answered (failure .NotFound NO_SUCH_ACCOUNT)
        | some updated => .answered (.ok ⟨updated, password⟩)
  | .answered _ => .done

/-! ## `grantRole` and `revokeRole` -/

/-- `roleChangeToResult`: the refusals; both other outcomes are a success. -/
def refusedChange (change : RoleChange) (roleKey : Bytes) : Option Error :=
  match change with
  | .NoSuchUser => some { code := .NotFound, detail := NO_SUCH_ACCOUNT }
  | .NoSuchRole => some { code := .InvalidInput, detail := ascii "no such role: " ++ roleKey }
  | .Applied => none
  | .AlreadyInThatState => none

inductive ChangeRole
  | countOtherHoldersOf (userId : Uuid) (roleKey : Bytes) (audit : AuditEntry)
  | grantRole (userId : Uuid) (roleKey : Bytes) (audit : AuditEntry)
  | revokeRole (userId : Uuid) (roleKey : Bytes) (audit : AuditEntry)
  | findSummary (userId : Uuid)
  | answered (result : Result AdminUserSummary)

def grantRole (actor : Actor) (userId roleKey : Bytes) : ChangeRole :=
  match administer actor .ADMIN_ROLES_MANAGE userId with
  | .error e => .answered (.error e)
  | .ok id => .grantRole id roleKey
      (auditFor actor "user.role.granted" userId [(ascii "role", roleKey)])

def revokeRole (actor : Actor) (userId roleKey : Bytes) : ChangeRole :=
  match administer actor .ADMIN_ROLES_MANAGE userId with
  | .error e => .answered (.error e)
  | .ok id => .countOtherHoldersOf id roleKey
      (auditFor actor "user.role.revoked" userId [(ascii "role", roleKey)])

/-- After the change: the account is read back as it now stands. -/
def roleChanged (userId : Uuid) (roleKey : Bytes) (change : RoleChange) : ChangeRole :=
  match refusedChange change roleKey with
  | some e => .answered (.error e)
  | none => .findSummary userId

def ChangeRole.next : ChangeRole → Suspended Call ChangeRole
  -- `refuseIfLastAdministrator`, for whichever role is being taken away
  | .countOtherHoldersOf userId roleKey audit =>
      .call (.countOtherHoldersOf .ADMIN_USERS_MANAGE userId) fun others =>
        if 0 < others then .revokeRole userId roleKey audit
        else .answered (failure .Conflict LAST_ADMINISTRATOR)
  | .grantRole userId roleKey audit =>
      .call (.grantRole userId roleKey audit) (roleChanged userId roleKey)
  | .revokeRole userId roleKey audit =>
      .call (.revokeRole userId roleKey audit) (roleChanged userId roleKey)
  | .findSummary userId => .call (.findSummary userId) fun found =>
      .answered (summaryResult found)
  | .answered _ => .done

/-! ## `AccountService::erase` -/

structure EraseAccountCommand where
  password : Bytes
  reason : Bytes
  deriving DecidableEq, Repr

inductive Erase
  | findById (actor : Actor) (command : EraseAccountCommand)
  | countOtherHoldersOf (user : Account) (reason : Bytes)
  | erase (user : Account) (reason : Bytes)
  | answered (result : VoidResult)
  | threw (error : SqlError)

/-- The subject of an access token is an account id, so the check of its shape always passes. -/
def erase (actor : Actor) (command : EraseAccountCommand) : Erase :=
  if MAX_ERASURE_REASON_LENGTH < command.reason.length then
    .answered (.error (invalidInput
      (ascii "reason must be at most " ++ decimal MAX_ERASURE_REASON_LENGTH ++
        ascii " characters")
      (ascii "erasure_reason_too_long") [decimal MAX_ERASURE_REASON_LENGTH]))
  else .findById actor command

def erasedIdentity (user : Account) (reason : Bytes) : ErasedIdentity where
  email := erasedEmailFor user.id
  displayName := ERASED_DISPLAY_NAME
  passwordHash := ERASED_PASSWORD_HASH
  reason := trim reason

def erasureEntry (user : Account) : AuditEntry :=
  ⟨user.id, ascii "user.erased", ascii "user", uuidText user.id, []⟩

/-- With the account's row in hand. Whether the others are counted is decided by the token. -/
def admitErase (env : Env) (actor : Actor) (command : EraseAccountCommand)
    (found : Option Account) : Erase :=
  match found with
  | none => .answered (failure .Unauthenticated NO_SUCH_SESSION)
  | some user =>
      if !env.verify command.password user.passwordHash then
        .answered (failure .Unauthenticated (ascii "the password is incorrect"))
      else if actor.can .ADMIN_USERS_MANAGE then .countOtherHoldersOf user command.reason
      else .erase user command.reason

def Erase.next (env : Env) : Erase → Suspended Call Erase
  | .findById actor command => .call (.findById actor.userId) (admitErase env actor command)
  | .countOtherHoldersOf user reason =>
      .call (.countOtherHoldersOf .ADMIN_USERS_MANAGE user.id) fun others =>
        if others = 0 then .answered (failure .Conflict LAST_ADMINISTRATOR)
        else .erase user reason
  | .erase user reason =>
      .call (.erase user.id (erasedIdentity user reason) (erasureEntry user)) fun
        | .error e => .threw e
        | .ok false => .answered (failure .Unauthenticated NO_SUCH_SESSION)
        | .ok true => .answered (.ok ())
  | .answered _ => .done
  | .threw _ => .done

end Launcher.Accounts
