import Launcher.Accounts.Administrators
import Launcher.Accounts.Passwords

set_option autoImplicit false

/-! # The audit trail

Six requests write an audit entry in the statement that makes the change it describes. Three of
the statements find out by themselves that there is nothing to change: a role that is held or not
held already, and a placeholder address that is there already. The other three (the quota, the
flag, the temporary password) write their entry for every account that exists.

A call is followed through any run, by what each of its turns finds and leaves.
`audit_trail` proves that a call keeps the trail (one turn changes the account and appends
one entry, every other turn leaves everything as it was) exactly when none of its turns sets one
of those three to what it is already. `quota_repeated` is a quota set to the value it has. -/

namespace Launcher.Accounts

open Launcher.Lib

/-! ## What an operator or an owner can change of an account -/

structure Profile where
  email : Bytes
  displayName : Bytes
  emailVerified : Bool
  passwordHash : Bytes
  passwordChangeRequired : Bool
  isActive : Bool
  uploadQuotaBytes : Nat
  roles : List Bytes
  deriving DecidableEq, Repr

def State.profileOf (s : State) (user : Account) : Profile where
  email := user.email
  displayName := user.displayName
  emailVerified := user.emailVerified
  passwordHash := user.passwordHash
  passwordChangeRequired := user.passwordChangeRequired
  isActive := user.isActive
  uploadQuotaBytes := user.uploadQuotaBytes
  roles := s.rolesForUser user.id

def State.profile (s : State) (userId : Uuid) : Option Profile :=
  (s.users.find? userId).map s.profileOf

/-- The account a request is about and the entry that describes it: who, what and whom. -/
def Request.audited : Request → Option (Uuid × AuditEntry)
  | .setUploadQuota actor userId quotaBytes =>
      some (uuidOf userId,
        ⟨actor.userId, ascii "user.quota.changed", ascii "user", userId,
          [(ascii "quotaBytes", decimal quotaBytes)]⟩)
  | .setActive actor userId active =>
      some (uuidOf userId,
        ⟨actor.userId, ascii (if active then "user.activated" else "user.deactivated"),
          ascii "user", userId, []⟩)
  | .setTemporaryPassword actor userId =>
      some (uuidOf userId,
        ⟨actor.userId, ascii "user.password.temporary_set", ascii "user", userId, []⟩)
  | .grantRole actor userId roleKey =>
      some (uuidOf userId,
        ⟨actor.userId, ascii "user.role.granted", ascii "user", userId,
          [(ascii "role", roleKey)]⟩)
  | .revokeRole actor userId roleKey =>
      some (uuidOf userId,
        ⟨actor.userId, ascii "user.role.revoked", ascii "user", userId,
          [(ascii "role", roleKey)]⟩)
  | .erase actor _ =>
      some (actor.userId,
        ⟨actor.userId, ascii "user.erased", ascii "user", uuidText actor.userId, []⟩)
  | _ => none

/-- The entry names the account. -/
theorem Request.audited_entityId {r : Request} {userId : Uuid} {entry : AuditEntry}
    (h : r.audited = some (userId, entry)) : uuidOf entry.entityId = userId := by
  cases r with
  | erase actor command =>
      obtain ⟨rfl, rfl⟩ := Prod.mk.inj (Option.some.inj h)
      exact uuidOf_uuidText actor.userId
  | _ => first
    | (obtain ⟨rfl, rfl⟩ := Prod.mk.inj (Option.some.inj h); rfl)
    | cases h

/-! ## What a statement asks for -/

/-- The statement names no account or no role that exists, or asks for what is so already. -/
def Call.idle (env : Env) (s : State) : {α : Type} → Call α → Bool
  | _, .setUploadQuota userId quotaBytes _ =>
      (s.users.find? userId).all (fun u => u.uploadQuotaBytes == quotaBytes)
  | _, .setActive userId active _ => (s.users.find? userId).all (fun u => u.isActive == active)
  | _, .setTemporaryPassword userId passwordHash _ =>
      (s.users.find? userId).all (fun u =>
        u.passwordHash == passwordHash && u.passwordChangeRequired)
  | _, .grantRole userId roleKey _ =>
      (s.users.find? userId).isNone || (s.roles.find? roleKey).isNone ||
        (s.userRoles.find? (userId, roleKey)).isSome
  | _, .revokeRole userId roleKey _ =>
      (s.users.find? userId).isNone || (s.roles.find? roleKey).isNone ||
        (s.userRoles.find? (userId, roleKey)).isNone
  | _, .erase userId identity _ =>
      (s.users.find? userId).all (fun u => env.lower u.email == env.lower identity.email)
  | _, _ => true

/-- The statement sets the quota, the flag or the password of an account to what it is. -/
def Call.repeats (s : State) : {α : Type} → Call α → Bool
  | _, .setUploadQuota userId quotaBytes _ =>
      (s.users.find? userId).any (fun u => u.uploadQuotaBytes == quotaBytes)
  | _, .setActive userId active _ => (s.users.find? userId).any (fun u => u.isActive == active)
  | _, .setTemporaryPassword userId passwordHash _ =>
      (s.users.find? userId).any (fun u =>
        u.passwordHash == passwordHash && u.passwordChangeRequired)
  | _, _ => false

/-- A test of the statement a coroutine is in front of. -/
def Task.asks (env : Env) (test : {α : Type} → Call α → Bool) (t : Task) : Bool :=
  match t.next env with
  | .done => false
  | .call c _ => test c

/-! ## The turns of a call -/

/-- What one turn of a coroutine finds and leaves. -/
structure Turn where
  before : State
  task : Task
  after : State

/-- The turn of task `i` a step is, if it is one. -/
def turnOf (env : Env) (i : Nat) (w : Server) (l : Move) : List Turn :=
  match l with
  | .resume j _ =>
      if j = i then
        (w.tasks[i]?).toList.map (fun t => ⟨w.shared, t, ((server env).step w l).shared⟩)
      else []
  | _ => []

def turns (env : Env) (i : Nat) : Server → List Move → List Turn :=
  (server env).collect (turnOf env i)

/-- The turn leaves the tables as they are. -/
def Turn.Idle (turn : Turn) : Prop := turn.after = turn.before

/-- The account is changed, and one entry appended, in the same turn. -/
def Turn.Recorded (userId : Uuid) (entry : AuditEntry) (turn : Turn) : Prop :=
  turn.before.profile userId ≠ turn.after.profile userId ∧
    turn.after.audit = turn.before.audit ++ [entry]

/-- The coroutine has answered with an error, or the statement threw. -/
def Task.refused : Task → Bool
  | .setUploadQuota (.answered (.error _)) => true
  | .setActive (.answered (.error _)) => true
  | .setTemporaryPassword (.answered (.error _)) => true
  | .changeRole (.answered (.error _)) => true
  | .erase (.answered (.error _)) => true
  | .erase (.threw _) => true
  | _ => false

/-- The trail a call has to leave, over the turns it took and the coroutine they led to. -/
structure AuditTrail (env : Env) (userId : Uuid) (entry : AuditEntry) (turns : List Turn)
    (t : Option Task) : Prop where
  /-- A turn changes the account and writes its entry, or nothing. -/
  recorded : ∀ turn ∈ turns, turn.Idle ∨ turn.Recorded userId entry
  /-- At most one turn changes anything. -/
  once : turns.Pairwise (fun turn later => turn.Idle ∨ later.Idle)
  /-- An unknown account or role, or what is so already: nothing. -/
  idle : ∀ turn ∈ turns, turn.task.asks env (Call.idle env turn.before) = true → turn.Idle
  /-- A refusal: nothing. -/
  refused : t.any Task.refused = true → ∀ turn ∈ turns, turn.Idle

/-! ## What the statements do to a profile -/

section Profiles

variable {s : State} {userId : Uuid} {user : Account}

theorem State.profile_eq (h : s.users.find? userId = some user) :
    s.profile userId = some (s.profileOf user) := by
  rw [State.profile, h, Option.map_some]

theorem State.mem_rolesForUser {roleKey : Bytes} :
    roleKey ∈ s.rolesForUser userId ↔ (s.userRoles.find? (userId, roleKey)).isSome = true := by
  rw [State.rolesForUser, List.mem_insertionSort, List.mem_map]
  constructor
  · rintro ⟨row, hrow, rfl⟩
    obtain ⟨hmem, hid⟩ := List.mem_filter.mp hrow
    have hkey : row.key = (userId, row.roleKey) := by
      rw [UserRole.key, beq_iff_eq.mp hid]
    rw [← hkey, Table.find?_of_mem (t := s.userRoles) hmem]
    rfl
  · intro h
    obtain ⟨row, hrow⟩ := Option.isSome_iff_exists.mp h
    have hkey : row.key = (userId, roleKey) := Table.key_of_find? hrow
    obtain ⟨hid, hrole⟩ := Prod.mk.inj hkey
    refine ⟨row, List.mem_filter.mpr ⟨Table.mem_of_find? hrow, ?_⟩, hrole⟩
    exact beq_iff_eq.mpr hid

/-- A statement that rewrites the row of an account and appends an entry, and leaves the roles. -/
structure Rewrites (userId : Uuid) (f : Table.Update Account.id) (audit : AuditEntry)
    (s s' : State) : Prop where
  audit : s'.audit = s.audit ++ [audit]
  profile : ∀ user, s.users.find? userId = some user →
    s'.profile userId = some (s.profileOf (f.1 user))
  found : ∀ user, s.users.find? userId = some user → (s'.users.find? userId).isSome = true

theorem rewrites_updateAudited {f : Table.Update Account.id} {audit : AuditEntry} :
    Rewrites userId f audit s (s.updateAudited userId f audit) := by
  have hrow : ∀ user, s.users.find? userId = some user →
      (s.updateAudited userId f audit).users.find? userId = some (f.1 user) := by
    intro user h
    rw [State.updateAudited, Table.find?_modify_self, h, Option.map_some]
  refine ⟨rfl, fun user h => ?_, fun user h => ?_⟩
  · rw [State.profile_eq (hrow user h)]
    rfl
  · rw [hrow user h]
    rfl

/-- Revoking sessions and links touches neither the account nor its roles. -/
theorem Rewrites.of_eq {f : Table.Update Account.id} {audit : AuditEntry} {s' s'' : State}
    (h : Rewrites userId f audit s s') (ha : s''.audit = s'.audit) (hu : s''.users = s'.users)
    (hr : s''.userRoles = s'.userRoles) : Rewrites userId f audit s s'' := by
  have hprofile : s''.profile userId = s'.profile userId := by
    have hof : s''.profileOf = s'.profileOf := by
      funext user
      simp only [State.profileOf, State.rolesForUser, hr]
    rw [State.profile, State.profile, hu, hof]
  refine ⟨ha.trans h.audit, fun user hfind => ?_, fun user hfind => ?_⟩
  · rw [hprofile, h.profile user hfind]
  · rw [hu]
    exact h.found user hfind

/-- What a statement on one account replies and leaves: nothing when the account is not there. -/
def Rewritten (userId : Uuid) (f : Table.Update Account.id) (audit : AuditEntry) (s : State)
    (out : Option AdminUserSummary × State) : Prop :=
  (s.users.find? userId = none ∧ out = (none, s)) ∨
  ∃ user summary s', s.users.find? userId = some user ∧ out = (some summary, s') ∧
    Rewrites userId f audit s s'

theorem Rewrites.rewritten {f : Table.Update Account.id} {audit : AuditEntry} {s' : State}
    (h : Rewrites userId f audit s s') (hfind : s.users.find? userId = some user) :
    Rewritten userId f audit s (s'.findSummary userId, s') := by
  obtain ⟨row, hrow⟩ := Option.isSome_iff_exists.mp (h.found user hfind)
  refine Or.inr ⟨user, s'.summaryOf row, s', hfind, ?_, h⟩
  rw [State.findSummary, hrow, Option.map_some]

theorem setUploadQuota_rewritten (s : State) (userId : Uuid) (quotaBytes : Nat)
    (audit : AuditEntry) :
    Rewritten userId ⟨fun u => { u with uploadQuotaBytes := quotaBytes }, fun _ => rfl⟩ audit s
      (s.setUploadQuota userId quotaBytes audit) := by
  unfold State.setUploadQuota
  split
  · next hfind => exact Or.inl ⟨hfind, rfl⟩
  · next hfind => exact rewrites_updateAudited.rewritten hfind

theorem setActive_rewritten (s : State) (userId : Uuid) (active : Bool) (audit : AuditEntry) :
    Rewritten userId ⟨fun u => { u with isActive := active }, fun _ => rfl⟩ audit s
      (s.setActive userId active audit) := by
  unfold State.setActive
  split
  · next hfind => exact Or.inl ⟨hfind, rfl⟩
  · next hfind =>
      cases active with
      | true => exact rewrites_updateAudited.rewritten hfind
      | false =>
          refine Rewrites.rewritten ?_ hfind
          refine Rewrites.of_eq rewrites_updateAudited ?_ ?_ ?_ <;> rfl

theorem setTemporaryPassword_rewritten (s : State) (userId : Uuid) (passwordHash : Bytes)
    (audit : AuditEntry) :
    Rewritten userId
      ⟨fun u => { u with passwordHash := passwordHash, passwordChangeRequired := true },
        fun _ => rfl⟩ audit s
      (s.setTemporaryPassword userId passwordHash audit) := by
  unfold State.setTemporaryPassword
  split
  · next hfind => exact Or.inl ⟨hfind, rfl⟩
  · next hfind =>
      refine Rewrites.rewritten ?_ hfind
      refine Rewrites.of_eq rewrites_updateAudited ?_ ?_ ?_ <;> rfl

/-- A statement that changes the account and appends the entry. -/
structure Changes (userId : Uuid) (audit : AuditEntry) (s s' : State) : Prop where
  profile : s.profile userId ≠ s'.profile userId
  audit : s'.audit = s.audit ++ [audit]
  found : (s'.users.find? userId).isSome = true

/-- A role that is held afterwards and was not before, or the other way round. -/
theorem changes_roles {audit : AuditEntry} {s' : State} (roleKey : Bytes)
    (hfind : s.users.find? userId = some user) (hu : s'.users = s.users)
    (ha : s'.audit = s.audit ++ [audit])
    (hr : ¬((s'.userRoles.find? (userId, roleKey)).isSome = true ↔
      (s.userRoles.find? (userId, roleKey)).isSome = true)) : Changes userId audit s s' := by
  have hfind' : s'.users.find? userId = some user := by rw [hu, hfind]
  have hid : user.id = userId := Table.key_of_find? hfind
  refine ⟨fun heq => hr ?_, ha, by rw [hfind']; rfl⟩
  rw [State.profile_eq hfind, State.profile_eq hfind'] at heq
  have hroles : s.rolesForUser user.id = s'.rolesForUser user.id :=
    congrArg Profile.roles (Option.some.inj heq)
  rw [hid] at hroles
  rw [← State.mem_rolesForUser, ← State.mem_rolesForUser, hroles]

theorem classifyRoleChange_eq_applied {roleKey : Bytes} {changed : Bool} :
    s.classifyRoleChange userId roleKey changed = .Applied ↔
      (s.users.find? userId).isSome = true ∧ (s.roles.find? roleKey).isSome = true ∧
        changed = true := by
  unfold State.classifyRoleChange
  cases s.users.find? userId <;> cases s.roles.find? roleKey <;> cases changed <;> simp

theorem grantRole_cases (env : Env) (s : State) (userId : Uuid) (roleKey : Bytes)
    (audit : AuditEntry) :
    (∃ change, change ≠ .Applied ∧ s.grantRole userId roleKey audit = (change, s)) ∨
    ∃ s', s.grantRole userId roleKey audit = (.Applied, s') ∧ Changes userId audit s s' ∧
      (Call.grantRole userId roleKey audit).idle env s = false := by
  unfold State.grantRole
  dsimp only
  split_ifs with happ
  · obtain ⟨hu, hr, habsent⟩ := classifyRoleChange_eq_applied.mp happ
    obtain ⟨user, hfind⟩ := Option.isSome_iff_exists.mp hu
    have hnone : s.userRoles.find? (userId, roleKey) = none := Option.isNone_iff_eq_none.mp habsent
    have hidle : (Call.grantRole userId roleKey audit).idle env s = false := by
      simp [Call.idle, hfind, hnone, hr]
    refine Or.inr ⟨_, by rw [happ], ?_, hidle⟩
    rw [State.insertRole, hu, hr]
    refine changes_roles roleKey hfind rfl rfl (fun hiff => ?_)
    have hheld := Table.find?_insert_self (t := s.userRoles)
      (r := ⟨userId, roleKey, some audit.actorUserId⟩) hnone
    have hbefore := hiff.mp (Option.isSome_iff_exists.mpr ⟨_, hheld⟩)
    rw [hnone] at hbefore
    cases hbefore
  · exact Or.inl ⟨_, happ, rfl⟩

theorem revokeRole_cases (env : Env) (s : State) (userId : Uuid) (roleKey : Bytes)
    (audit : AuditEntry) :
    (∃ change, change ≠ .Applied ∧ s.revokeRole userId roleKey audit = (change, s)) ∨
    ∃ s', s.revokeRole userId roleKey audit = (.Applied, s') ∧ Changes userId audit s s' ∧
      (Call.revokeRole userId roleKey audit).idle env s = false := by
  unfold State.revokeRole
  dsimp only
  split_ifs with happ
  · obtain ⟨hu, hr, hpresent⟩ := classifyRoleChange_eq_applied.mp happ
    obtain ⟨user, hfind⟩ := Option.isSome_iff_exists.mp hu
    have hidle : (Call.revokeRole userId roleKey audit).idle env s = false := by
      simp [Call.idle, hfind, hpresent, hr]
    refine Or.inr ⟨_, by rw [happ], ?_, hidle⟩
    refine changes_roles roleKey hfind rfl rfl (fun hiff => ?_)
    obtain ⟨row, hrow⟩ := Option.isSome_iff_exists.mp (hiff.mpr hpresent)
    -- the deleted row is the only one with this key
    have hkept := (Table.mem_delete.mp (Table.mem_of_find? hrow)).2
    have hkey : row.key = (userId, roleKey) := Table.key_of_find? hrow
    rw [hkey, beq_self_eq_true] at hkept
    cases hkept
  · exact Or.inl ⟨_, happ, rfl⟩

theorem erase_cases (env : Env) (s : State) (userId : Uuid) (identity : ErasedIdentity)
    (audit : AuditEntry) :
    (∃ reply, reply ≠ .ok true ∧ s.erase env userId identity audit = (reply, s)) ∨
    ∃ s', s.erase env userId identity audit = (.ok true, s') ∧ Changes userId audit s s' ∧
      (Call.erase userId identity audit).idle env s = false := by
  unfold State.erase
  split
  · exact Or.inl ⟨.ok false, by simp, rfl⟩
  · next user hfind =>
      split_ifs with hlower
      · exact Or.inl ⟨.ok false, by simp, rfl⟩
      · exact Or.inl ⟨.error .uniqueViolation, by simp, rfl⟩
      · refine Or.inr ⟨_, rfl, ⟨?_, rfl, ?_⟩, ?_⟩
        · -- the address is another one
          rw [State.profile_eq hfind, State.profile, Table.find?_modify_self, hfind]
          intro heq
          have hemail : user.email = identity.email :=
            congrArg Profile.email (Option.some.inj heq)
          rw [hemail, beq_self_eq_true] at hlower
          exact hlower rfl
        · rw [Table.find?_modify_self, hfind]
          rfl
        · rw [Call.idle, hfind, Option.all_some]
          exact Bool.eq_false_iff.mpr hlower

end Profiles

/-! ## What the coroutine of a request carries -/

/-- The coroutine is about the account and will write this entry, if any. -/
def Task.Serves (userId : Uuid) (entry : AuditEntry) : Task → Prop
  | .setUploadQuota (.setUploadQuota id _ audit) => id = userId ∧ audit = entry
  | .setUploadQuota (.answered _) => True
  | .setActive (.countOtherHoldersOf id audit) => id = userId ∧ audit = entry
  | .setActive (.setActive id _ audit) => id = userId ∧ audit = entry
  | .setActive (.answered _) => True
  | .setTemporaryPassword (.randomTemporaryPassword id audit) => id = userId ∧ audit = entry
  | .setTemporaryPassword (.hash id _ audit) => id = userId ∧ audit = entry
  | .setTemporaryPassword (.setTemporaryPassword id _ _ audit) => id = userId ∧ audit = entry
  | .setTemporaryPassword (.answered _) => True
  | .changeRole (.countOtherHoldersOf id _ audit) => id = userId ∧ audit = entry
  | .changeRole (.grantRole id _ audit) => id = userId ∧ audit = entry
  | .changeRole (.revokeRole id _ audit) => id = userId ∧ audit = entry
  | .changeRole (.findSummary id) => id = userId
  | .changeRole (.answered _) => True
  | .erase (.findById actor _) =>
      actor.userId = userId ∧ ∀ user : Account, user.id = userId → erasureEntry user = entry
  | .erase (.countOtherHoldersOf user _) => user.id = userId ∧ erasureEntry user = entry
  | .erase (.erase user _) => user.id = userId ∧ erasureEntry user = entry
  | .erase (.answered _) => True
  | .erase (.threw _) => True
  | _ => False

/-- The coroutine has made its change: it will make no other, and its answer is a success. -/
def Task.Settled (s : State) : Task → Prop
  | .setUploadQuota (.answered (.ok _)) => True
  | .setActive (.answered (.ok _)) => True
  | .setTemporaryPassword (.answered (.ok _)) => True
  | .changeRole (.findSummary id) => (s.users.find? id).isSome = true
  | .changeRole (.answered (.ok _)) => True
  | .erase (.answered (.ok _)) => True
  | _ => False

theorem administer_ok {actor : Actor} {permission : Permission} {text : Bytes} {id : Uuid}
    (h : administer actor permission text = .ok id) : id = uuidOf text := by
  unfold administer failure at h
  split_ifs at h
  exact (Except.ok.inj h).symm

theorem entry_serves {r : Request} {userId : Uuid} {entry : AuditEntry}
    (h : r.audited = some (userId, entry)) : (Accounts.entry r).Serves userId entry := by
  cases r with
  | setUploadQuota actor text quotaBytes =>
      obtain ⟨rfl, rfl⟩ := Prod.mk.inj (Option.some.inj h)
      simp only [Accounts.entry, setUploadQuota]
      split
      · trivial
      · next id hid =>
          split_ifs
          · trivial
          · exact ⟨administer_ok hid, rfl⟩
  | setActive actor text active =>
      obtain ⟨rfl, rfl⟩ := Prod.mk.inj (Option.some.inj h)
      simp only [Accounts.entry, setActive]
      cases hid : administer actor .ADMIN_USERS_MANAGE text with
      | error e => trivial
      | ok id =>
          cases active with
          | true => exact ⟨administer_ok hid, rfl⟩
          | false =>
              cases ownsText actor text with
              | true => trivial
              | false => exact ⟨administer_ok hid, rfl⟩
  | setTemporaryPassword actor text =>
      obtain ⟨rfl, rfl⟩ := Prod.mk.inj (Option.some.inj h)
      simp only [Accounts.entry, setTemporaryPassword]
      cases hid : administer actor .ADMIN_USERS_MANAGE text with
      | error e => trivial
      | ok id =>
          cases ownsText actor text with
          | true => trivial
          | false => exact ⟨administer_ok hid, rfl⟩
  | grantRole actor text roleKey =>
      obtain ⟨rfl, rfl⟩ := Prod.mk.inj (Option.some.inj h)
      simp only [Accounts.entry, grantRole]
      split
      · trivial
      · next id hid => exact ⟨administer_ok hid, rfl⟩
  | revokeRole actor text roleKey =>
      obtain ⟨rfl, rfl⟩ := Prod.mk.inj (Option.some.inj h)
      simp only [Accounts.entry, revokeRole]
      split
      · trivial
      · next id hid => exact ⟨administer_ok hid, rfl⟩
  | erase actor command =>
      obtain ⟨rfl, rfl⟩ := Prod.mk.inj (Option.some.inj h)
      simp only [Accounts.entry, erase]
      split_ifs
      · trivial
      · exact ⟨rfl, fun user hid => by rw [erasureEntry, hid]⟩
  | _ => cases h

theorem Task.Settled.refused {s : State} {t : Task} (h : t.Settled s) : t.refused = false := by
  cases t with
  | setUploadQuota t => rcases t with _ | ⟨_ | _⟩ <;> first | exact h.elim | rfl
  | setActive t => rcases t with _ | _ | ⟨_ | _⟩ <;> first | exact h.elim | rfl
  | setTemporaryPassword t => rcases t with _ | _ | _ | ⟨_ | _⟩ <;> first | exact h.elim | rfl
  | changeRole t => rcases t with _ | _ | _ | _ | ⟨_ | _⟩ <;> first | exact h.elim | rfl
  | erase t => rcases t with _ | _ | _ | ⟨_ | _⟩ | _ <;> first | exact h.elim | rfl
  | _ => exact h.elim

/-- What the others do does not unsettle it: accounts do not go away. -/
theorem Task.Settled.mono {s s' : State} {t : Task} (h : t.Settled s)
    (hu : ∀ userId, (s.users.find? userId).isSome = true →
      (s'.users.find? userId).isSome = true) : t.Settled s' := by
  cases t with
  | setUploadQuota t => rcases t with _ | ⟨_ | _⟩ <;> exact h
  | setActive t => rcases t with _ | _ | ⟨_ | _⟩ <;> exact h
  | setTemporaryPassword t => rcases t with _ | _ | _ | ⟨_ | _⟩ <;> exact h
  | changeRole t =>
      cases t with
      | findSummary id => exact hu id h
      | answered r => cases r <;> exact h
      | _ => exact h.elim
  | erase t => rcases t with _ | _ | _ | ⟨_ | _⟩ | _ <;> exact h
  | _ => exact h.elim

theorem Task.Settled.turn {s : State} {t : Task} (h : t.Settled s) (env : Env) (choice : Choice) :
    (t.next env).Wp (exec env) choice s (fun s' t' => s' = s ∧ t'.Settled s') := by
  cases t with
  | changeRole t =>
      cases t with
      | findSummary id =>
          intro reply s' e
          obtain ⟨row, hrow⟩ := Option.isSome_iff_exists.mp h
          obtain ⟨rfl, rfl⟩ := Prod.mk.inj e
          refine ⟨rfl, ?_⟩
          rw [State.findSummary, hrow]
          trivial
      | answered r => trivial
      | _ => exact h.elim
  | setUploadQuota t => cases t <;> trivial
  | setActive t => cases t <;> trivial
  | setTemporaryPassword t => cases t <;> trivial
  | erase t => cases t <;> trivial
  | _ => exact h.elim

/-! ## One turn -/

/-- What a turn of a coroutine that serves the request leaves. -/
structure TurnAfter (env : Env) (userId : Uuid) (entry : AuditEntry) (s : State) (t : Task)
    (s' : State) (t' : Task) : Prop where
  serves : t'.Serves userId entry
  settled : s' = s ∨ t'.Settled s'
  idle : t.asks env (Call.idle env s) = true → t.asks env (Call.repeats s) = false → s' = s
  recorded : t.asks env (Call.repeats s) = false →
    s' = s ∨ (s.profile userId ≠ s'.profile userId ∧ s'.audit = s.audit ++ [entry])
  repeated : t.asks env (Call.repeats s) = true →
    s.profile userId = s'.profile userId ∧ s'.audit = s.audit ++ [entry]

section Turn

variable {env : Env} {userId : Uuid} {entry : AuditEntry} {s s' : State} {t t' : Task}

/-- A turn that only reads, or that finds nothing to change. -/
theorem TurnAfter.of_unchanged (hserves : t'.Serves userId entry)
    (hrep : t.asks env (Call.repeats s) = false) (hs : s' = s) :
    TurnAfter env userId entry s t s' t' where
  serves := hserves
  settled := Or.inl hs
  idle := fun _ _ => hs
  recorded := fun _ => Or.inl hs
  repeated := fun h => by rw [hrep] at h; cases h

/-- A turn that changes the account. -/
theorem TurnAfter.of_changes (hserves : t'.Serves userId entry) (hsettled : t'.Settled s')
    (hrep : t.asks env (Call.repeats s) = false)
    (hidle : t.asks env (Call.idle env s) = false) (h : Changes userId entry s s') :
    TurnAfter env userId entry s t s' t' where
  serves := hserves
  settled := Or.inr hsettled
  idle := fun hi _ => by rw [hidle] at hi; cases hi
  recorded := fun _ => Or.inr ⟨h.profile, h.audit⟩
  repeated := fun h => by rw [hrep] at h; cases h

/-- A turn that rewrites whatever account is there; `p` says the row is so already. -/
theorem TurnAfter.of_rewritten {f : Table.Update Account.id} {p : Account → Bool}
    {reply : Option AdminUserSummary} {k : Option AdminUserSummary → Task}
    (h : Rewritten userId f entry s (reply, s'))
    (hp : ∀ user, p user = true ↔ s.profileOf user = s.profileOf (f.1 user))
    (hidle : t.asks env (Call.idle env s) = (s.users.find? userId).all p)
    (hrep : t.asks env (Call.repeats s) = (s.users.find? userId).any p)
    (hnone : (k none).Serves userId entry)
    (hsome : ∀ summary, (k (some summary)).Serves userId entry ∧
      (k (some summary)).Settled s') :
    TurnAfter env userId entry s t s' (k reply) := by
  rcases h with ⟨hfind, e⟩ | ⟨user, summary, s'', hfind, e, hwrites⟩
  · obtain ⟨rfl, rfl⟩ := Prod.mk.inj e
    refine .of_unchanged hnone ?_ rfl
    rw [hrep, hfind]
    rfl
  · obtain ⟨rfl, rfl⟩ := Prod.mk.inj e
    rw [hfind, Option.all_some] at hidle
    rw [hfind, Option.any_some] at hrep
    have hprofile : s.profile userId = s'.profile userId ↔ p user = true := by
      rw [State.profile_eq hfind, hwrites.profile user hfind, Option.some_inj, hp user]
    refine ⟨(hsome summary).1, Or.inr (hsome summary).2, fun hi hr => ?_, fun hr => ?_,
      fun hr => ?_⟩
    · rw [hidle] at hi
      rw [hrep, hi] at hr
      cases hr
    · refine Or.inr ⟨fun heq => ?_, hwrites.audit⟩
      rw [hrep, hprofile.mp heq] at hr
      cases hr
    · rw [hrep] at hr
      exact ⟨hprofile.mpr hr, hwrites.audit⟩

/-- A turn of a statement with one reply that says it took effect; another reply says that it
changed nothing. -/
theorem TurnAfter.of_outcome {α : Type} {outcome : α × State} {good reply : α} {k : α → Task}
    (hout : (∃ other, other ≠ good ∧ outcome = (other, s)) ∨
      ∃ after, outcome = (good, after) ∧ Changes userId entry s after ∧
        t.asks env (Call.idle env s) = false)
    (e : outcome = (reply, s')) (hrep : t.asks env (Call.repeats s) = false)
    (hserves : ∀ reply, (k reply).Serves userId entry)
    (hsettled : (s'.users.find? userId).isSome = true → (k good).Settled s') :
    TurnAfter env userId entry s t s' (k reply) := by
  rcases hout with ⟨other, -, e'⟩ | ⟨after, e', hchanges, hidle⟩
  · obtain ⟨rfl, rfl⟩ := Prod.mk.inj (e.symm.trans e')
    exact .of_unchanged (hserves reply) hrep rfl
  · obtain ⟨rfl, rfl⟩ := Prod.mk.inj (e.symm.trans e')
    exact .of_changes (hserves reply) (hsettled hchanges.found) hrep hidle hchanges

theorem SetUploadQuota.serves_turn {t : SetUploadQuota}
    (h : (Task.setUploadQuota t).Serves userId entry) (choice : Choice) :
    ((Task.setUploadQuota t).next env).Wp (exec env) choice s
      (TurnAfter env userId entry s (.setUploadQuota t)) := by
  cases t with
  | setUploadQuota id quotaBytes audit =>
      obtain ⟨rfl, rfl⟩ := h
      intro reply s' e
      have hout := setUploadQuota_rewritten s id quotaBytes audit
      rw [show s.setUploadQuota id quotaBytes audit = (reply, s') from e] at hout
      refine .of_rewritten (p := fun u => u.uploadQuotaBytes == quotaBytes)
        (k := fun updated => .setUploadQuota (.answered (summaryResult updated))) hout
        (fun user => ?_) rfl rfl trivial (fun _ => ⟨trivial, trivial⟩)
      simp [State.profileOf]
  | answered r => trivial

theorem SetActive.serves_turn {t : SetActive} (h : (Task.setActive t).Serves userId entry)
    (choice : Choice) :
    ((Task.setActive t).next env).Wp (exec env) choice s
      (TurnAfter env userId entry s (.setActive t)) := by
  cases t with
  | countOtherHoldersOf id audit =>
      intro others s' e
      obtain ⟨rfl, rfl⟩ := Prod.mk.inj e
      refine .of_unchanged ?_ rfl rfl
      dsimp only
      split_ifs
      · exact h
      · trivial
  | setActive id active audit =>
      obtain ⟨rfl, rfl⟩ := h
      intro reply s' e
      have hout := setActive_rewritten s id active audit
      rw [show s.setActive id active audit = (reply, s') from e] at hout
      refine .of_rewritten (p := fun u => u.isActive == active)
        (k := fun updated => .setActive (.answered (summaryResult updated))) hout
        (fun user => ?_) rfl rfl trivial (fun _ => ⟨trivial, trivial⟩)
      simp [State.profileOf]
  | answered r => trivial

theorem SetTemporaryPassword.serves_turn {t : SetTemporaryPassword}
    (h : (Task.setTemporaryPassword t).Serves userId entry) (choice : Choice) :
    ((Task.setTemporaryPassword t).next env).Wp (exec env) choice s
      (TurnAfter env userId entry s (.setTemporaryPassword t)) := by
  cases t with
  | randomTemporaryPassword id audit =>
      intro password s' e
      obtain ⟨rfl, rfl⟩ := Prod.mk.inj e
      exact .of_unchanged h rfl rfl
  | hash id password audit =>
      intro hashed s' e
      obtain ⟨rfl, rfl⟩ := Prod.mk.inj e
      refine .of_unchanged ?_ rfl rfl
      cases env.hash password choice.salt with
      | error e => trivial
      | ok passwordHash => exact h
  | setTemporaryPassword id password passwordHash audit =>
      obtain ⟨rfl, rfl⟩ := h
      intro reply s' e
      have hout := setTemporaryPassword_rewritten s id passwordHash audit
      rw [show s.setTemporaryPassword id passwordHash audit = (reply, s') from e] at hout
      have hturn : ∀ k : Option AdminUserSummary → Task, (k none).Serves id audit →
          (∀ summary, (k (some summary)).Serves id audit ∧ (k (some summary)).Settled s') →
          TurnAfter env id audit s (.setTemporaryPassword
            (.setTemporaryPassword id password passwordHash audit)) s' (k reply) :=
        fun k => .of_rewritten
          (p := fun u => u.passwordHash == passwordHash && u.passwordChangeRequired) hout
          (fun user => by simp [State.profileOf]) rfl rfl
      apply hturn
      · trivial
      · exact fun summary => ⟨trivial, trivial⟩
  | answered r => trivial

theorem ChangeRole.serves_turn {t : ChangeRole} (h : (Task.changeRole t).Serves userId entry)
    (choice : Choice) :
    ((Task.changeRole t).next env).Wp (exec env) choice s
      (TurnAfter env userId entry s (.changeRole t)) := by
  cases t with
  | countOtherHoldersOf id roleKey audit =>
      intro others s' e
      obtain ⟨rfl, rfl⟩ := Prod.mk.inj e
      refine .of_unchanged ?_ rfl rfl
      dsimp only
      split_ifs
      · exact h
      · trivial
  | grantRole id roleKey audit =>
      obtain ⟨rfl, rfl⟩ := h
      intro change s' e
      refine .of_outcome (k := fun change => .changeRole (roleChanged id roleKey change))
        (grantRole_cases env s id roleKey audit) e rfl (fun change => ?_) (fun hfound => hfound)
      cases change <;> trivial
  | revokeRole id roleKey audit =>
      obtain ⟨rfl, rfl⟩ := h
      intro change s' e
      refine .of_outcome (k := fun change => .changeRole (roleChanged id roleKey change))
        (revokeRole_cases env s id roleKey audit) e rfl (fun change => ?_) (fun hfound => hfound)
      cases change <;> trivial
  | findSummary id =>
      intro found s' e
      obtain ⟨rfl, rfl⟩ := Prod.mk.inj e
      exact .of_unchanged trivial rfl rfl
  | answered r => trivial

theorem Erase.serves_turn {t : Erase} (h : (Task.erase t).Serves userId entry)
    (choice : Choice) :
    ((Task.erase t).next env).Wp (exec env) choice s
      (TurnAfter env userId entry s (.erase t)) := by
  cases t with
  | findById actor command =>
      obtain ⟨rfl, hentry⟩ := h
      intro found s' e
      obtain ⟨rfl, rfl⟩ := Prod.mk.inj e
      refine .of_unchanged ?_ rfl rfl
      cases hfind : s.users.find? actor.userId with
      | none => trivial
      | some user =>
          have hid : user.id = actor.userId := Table.key_of_find? hfind
          simp only [admitErase]
          split_ifs
          · trivial
          · exact ⟨hid, hentry user hid⟩
          · exact ⟨hid, hentry user hid⟩
  | countOtherHoldersOf user reason =>
      intro others s' e
      obtain ⟨rfl, rfl⟩ := Prod.mk.inj e
      refine .of_unchanged ?_ rfl rfl
      dsimp only
      split_ifs
      · trivial
      · exact h
  | erase user reason =>
      obtain ⟨rfl, rfl⟩ := h
      intro reply s' e
      have hturn : ∀ k : Except SqlError Bool → Task,
          (∀ reply, (k reply).Serves user.id (erasureEntry user)) →
          ((s'.users.find? user.id).isSome = true → (k (.ok true)).Settled s') →
          TurnAfter env user.id (erasureEntry user) s (.erase (.erase user reason)) s' (k reply) :=
        fun k => .of_outcome
          (erase_cases env s user.id (erasedIdentity user reason) (erasureEntry user)) e rfl
      apply hturn
      · intro reply
        rcases reply with _ | ⟨_ | _⟩ <;> trivial
      · exact fun _ => trivial
  | answered r => trivial
  | threw error => trivial

end Turn

theorem Task.Serves.turn {userId : Uuid} {entry : AuditEntry} {t : Task}
    (h : t.Serves userId entry) (env : Env) (choice : Choice) (s : State) :
    (t.next env).Wp (exec env) choice s (TurnAfter env userId entry s t) := by
  cases t with
  | setUploadQuota t => exact SetUploadQuota.serves_turn h choice
  | setActive t => exact SetActive.serves_turn h choice
  | setTemporaryPassword t => exact SetTemporaryPassword.serves_turn h choice
  | changeRole t => exact ChangeRole.serves_turn h choice
  | erase t => exact Erase.serves_turn h choice
  | _ => exact h.elim

/-! ## Every run -/

/-- What is known of a turn of a coroutine that serves the request. -/
structure Turn.Sound (env : Env) (userId : Uuid) (entry : AuditEntry) (turn : Turn) : Prop where
  idle : turn.task.asks env (Call.idle env turn.before) = true →
    turn.task.asks env (Call.repeats turn.before) = false → turn.Idle
  recorded : turn.task.asks env (Call.repeats turn.before) = false →
    turn.Idle ∨ turn.Recorded userId entry
  repeated : turn.task.asks env (Call.repeats turn.before) = true →
    ¬(turn.Idle ∨ turn.Recorded userId entry)

section Run

variable {env : Env} {userId : Uuid} {entry : AuditEntry} {i : Nat} {w : Server} {t : Task}

theorem TurnAfter.sound {s s' : State} {t t' : Task}
    (h : TurnAfter env userId entry s t s' t') : Turn.Sound env userId entry ⟨s, t, s'⟩ where
  idle := h.idle
  recorded := h.recorded
  repeated := by
    intro hrep hkept
    obtain ⟨hprofile, haudit⟩ := h.repeated hrep
    rcases hkept with hidle | hrec
    · -- the entry is there, so the tables are not as they were
      rw [show s' = s from hidle] at haudit
      have hlength := congrArg List.length haudit
      rw [List.length_append, List.length_singleton] at hlength
      omega
    · exact hrec.1 hprofile

/-- A turn of a coroutine that is through makes no call. -/
theorem sound_done {s : State} (hn : t.next env = .done) :
    Turn.Sound env userId entry ⟨s, t, s⟩ := by
  have hasks : ∀ test : {α : Type} → Call α → Bool, t.asks env test = false := by
    intro test
    rw [Task.asks, hn]
  refine ⟨fun _ _ => rfl, fun _ => Or.inl rfl, fun hrep => ?_⟩
  rw [show t.asks env (Call.repeats s) = false from hasks _] at hrep
  cases hrep

/-- The turn a step of task `i` is. -/
theorem mem_turnOf {l : Move} {turn : Turn} (hi : w.tasks[i]? = some t)
    (h : turn ∈ turnOf env i w l) :
    ∃ choice, l = .resume i choice ∧
      turn = ⟨w.shared, t, ((server env).step w l).shared⟩ := by
  cases l with
  | resume j choice =>
      simp only [turnOf] at h
      split_ifs at h with hj
      · subst hj
        rw [hi] at h
        exact ⟨choice, rfl, List.mem_singleton.mp h⟩
      · cases h
  | request r => cases h
  | outside e => cases h

theorem pairwise_turnOf {R : Turn → Turn → Prop} {l : Move} :
    (turnOf env i w l).Pairwise R := by
  cases l with
  | resume j choice =>
      simp only [turnOf]
      split_ifs
      · cases w.tasks[i]? with
        | none => exact List.Pairwise.nil
        | some t => exact List.pairwise_singleton _ _
      · exact List.Pairwise.nil
  | request r => exact List.Pairwise.nil
  | outside e => exact List.Pairwise.nil

/-- Accounts do not go away. -/
theorem step_found (env : Env) (w : Server) (l : Move) (userId : Uuid)
    (h : (w.shared.users.find? userId).isSome = true) :
    (((server env).step w l).shared.users.find? userId).isSome = true := by
  obtain ⟨row, hrow⟩ := Option.isSome_iff_exists.mp h
  obtain ⟨row', hrow', _⟩ := step_row env w l hrow
  rw [hrow']
  rfl

/-- A step that is not a turn of task `i` leaves the coroutine where it is. -/
theorem step_elsewhere (hi : w.tasks[i]? = some t) {l : Move}
    (hl : ∀ choice, l ≠ .resume i choice) : ((server env).step w l).tasks[i]? = some t := by
  refine System.run_other (S := server env) [l] w (fun choice hm => ?_) hi
  exact hl choice (List.mem_singleton.mp hm).symm

theorem settled_step (hi : w.tasks[i]? = some t) (ht : t.Settled w.shared) (l : Move) :
    (∃ t', ((server env).step w l).tasks[i]? = some t' ∧
      t'.Settled ((server env).step w l).shared) ∧ ∀ turn ∈ turnOf env i w l, turn.Idle := by
  by_cases hl : ∃ choice, l = .resume i choice
  · obtain ⟨choice, rfl⟩ := hl
    by_cases hd : t.next env = .done
    · have hstep : (server env).step w (.resume i choice) = w :=
        System.step_idle (server env) hi hd
      refine ⟨⟨t, by rw [hstep]; exact hi, by rw [hstep]; exact ht⟩, fun turn hm => ?_⟩
      obtain ⟨_, _, rfl⟩ := mem_turnOf hi hm
      exact congrArg World.shared hstep
    · obtain ⟨t', hi', hs, hsettled⟩ := System.step_resumed (S := server env) choice hi hd
        (ht.turn env choice)
      refine ⟨⟨t', hi', hsettled⟩, fun turn hm => ?_⟩
      obtain ⟨_, _, rfl⟩ := mem_turnOf hi hm
      exact hs
  · have hne : ∀ choice, l ≠ .resume i choice := fun choice e => hl ⟨choice, e⟩
    refine ⟨⟨t, step_elsewhere hi hne, ht.mono (step_found env w l)⟩, fun turn hm => ?_⟩
    obtain ⟨choice, e, _⟩ := mem_turnOf hi hm
    exact absurd e (hne choice)

theorem serving_step (hi : w.tasks[i]? = some t) (ht : t.Serves userId entry) (l : Move) :
    ∃ t', ((server env).step w l).tasks[i]? = some t' ∧ t'.Serves userId entry ∧
      ∀ turn ∈ turnOf env i w l, turn.Sound env userId entry ∧
        (turn.Idle ∨ t'.Settled ((server env).step w l).shared) := by
  by_cases hl : ∃ choice, l = .resume i choice
  · obtain ⟨choice, rfl⟩ := hl
    by_cases hd : t.next env = .done
    · have hstep : (server env).step w (.resume i choice) = w :=
        System.step_idle (server env) hi hd
      refine ⟨t, by rw [hstep]; exact hi, ht, fun turn hm => ?_⟩
      obtain ⟨_, _, rfl⟩ := mem_turnOf hi hm
      rw [hstep]
      exact ⟨sound_done hd, Or.inl rfl⟩
    · obtain ⟨t', hi', hturn⟩ := System.step_resumed (S := server env) choice hi hd
        (ht.turn env choice w.shared)
      refine ⟨t', hi', hturn.serves, fun turn hm => ?_⟩
      obtain ⟨_, _, rfl⟩ := mem_turnOf hi hm
      exact ⟨hturn.sound, hturn.settled⟩
  · have hne : ∀ choice, l ≠ .resume i choice := fun choice e => hl ⟨choice, e⟩
    refine ⟨t, step_elsewhere hi hne, ht, fun turn hm => ?_⟩
    obtain ⟨choice, e, _⟩ := mem_turnOf hi hm
    exact absurd e (hne choice)

/-- Once the change is made, every later turn is idle and the answer is no refusal. -/
theorem settled_run : ∀ (ls : List Move) {w : Server} {t : Task}, w.tasks[i]? = some t →
    t.Settled w.shared → (∀ turn ∈ turns env i w ls, turn.Idle) ∧
      (((server env).run w ls).tasks[i]?).any Task.refused = false
  | [], w, t, hi, ht => by
      refine ⟨fun turn hm => (List.not_mem_nil hm).elim, ?_⟩
      rw [System.run_nil, hi]
      exact ht.refused
  | l :: ls, w, t, hi, ht => by
      obtain ⟨⟨t', hi', ht'⟩, (hidle : ∀ turn ∈ turnOf env i w l, turn.Idle)⟩ :=
        settled_step hi ht l
      obtain ⟨hrest, hrefused⟩ := settled_run ls hi' ht'
      refine ⟨fun turn hm => ?_, hrefused⟩
      rcases List.mem_append.mp hm with hm | hm
      · exact hidle turn hm
      · exact hrest turn hm

/-- What every call keeps to, whatever it asks for. -/
theorem serving_run : ∀ (ls : List Move) {w : Server} {t : Task}, w.tasks[i]? = some t →
    t.Serves userId entry →
    (∀ turn ∈ turns env i w ls, turn.Sound env userId entry) ∧
      (turns env i w ls).Pairwise (fun turn later => turn.Idle ∨ later.Idle) ∧
      ((((server env).run w ls).tasks[i]?).any Task.refused = true →
        ∀ turn ∈ turns env i w ls, turn.Idle)
  | [], _, _, _, _ => by
      exact ⟨fun turn hm => (List.not_mem_nil hm).elim, List.Pairwise.nil,
        fun _ turn hm => (List.not_mem_nil hm).elim⟩
  | l :: ls, w, t, hi, ht => by
      obtain ⟨t', (hi' : ((server env).step w l).tasks[i]? = some t'), ht', hturns⟩ :=
        serving_step hi ht l
      obtain ⟨hsound, honce, hrefused⟩ := serving_run ls hi' ht'
      -- either this turn was idle, or everything after it is
      have hafter : ∀ turn ∈ turnOf env i w l, turn.Idle ∨
          ((∀ later ∈ turns env i ((server env).step w l) ls, later.Idle) ∧
            (((server env).run w (l :: ls)).tasks[i]?).any Task.refused = false) := by
        intro turn hm
        rcases (hturns turn hm).2 with hidle | hsettled
        · exact Or.inl hidle
        · exact Or.inr (settled_run ls hi' hsettled)
      refine ⟨fun turn hm => ?_, ?_, fun hr turn hm => ?_⟩
      · rcases List.mem_append.mp hm with hm | hm
        · exact (hturns turn hm).1
        · exact hsound turn hm
      · refine List.pairwise_append.mpr
          ⟨pairwise_turnOf, honce, fun turn hm later hlater => ?_⟩
        rcases hafter turn hm with hidle | ⟨hrest, _⟩
        · exact Or.inl hidle
        · exact Or.inr (hrest later hlater)
      · rcases List.mem_append.mp hm with hm | hm
        · rcases hafter turn hm with hidle | ⟨_, hfalse⟩
          · exact hidle
          · rw [hfalse] at hr
            cases hr
        · exact hrefused hr turn hm

end Run

/-- **The trail records changes and only changes**: a call keeps it, whatever ran before it and
whatever runs beside it, exactly when no turn of it sets the quota, the flag or the password of
an account to what it is. -/
theorem audit_trail (env : Env) (w : Server) (r : Request) (userId : Uuid) (entry : AuditEntry)
    (hr : r.audited = some (userId, entry)) (ls : List Move) :
    AuditTrail env userId entry
        (turns env w.tasks.length ((server env).step w (.request r)) ls)
        (((server env).run w (.request r :: ls)).tasks[w.tasks.length]?) ↔
      ∀ turn ∈ turns env w.tasks.length ((server env).step w (.request r)) ls,
        turn.task.asks env (Call.repeats turn.before) = false := by
  have hi : ((server env).step w (.request r)).tasks[w.tasks.length]? =
      some (Accounts.entry r) := List.getElem?_concat_length
  obtain ⟨hsound, honce, hrefused⟩ := serving_run ls hi (entry_serves hr)
  constructor
  · intro h turn hm
    refine Bool.eq_false_iff.mpr (fun hrep => ?_)
    exact (hsound turn hm).repeated hrep (h.recorded turn hm)
  · intro h
    exact
      { recorded := fun turn hm => (hsound turn hm).recorded (h turn hm)
        once := honce
        idle := fun turn hm hidle => (hsound turn hm).idle hidle (h turn hm)
        refused := hrefused }

namespace Demo

/-- Ada sets grace's quota to a number of bytes. -/
def quotaSet (quotaBytes : Int) : Request := .setUploadQuota asAda graceId quotaBytes

def quotaEntry (quotaBytes : Int) : AuditEntry :=
  ⟨1, ascii "user.quota.changed", ascii "user", graceId,
    [(ascii "quotaBytes", decimal quotaBytes)]⟩

end Demo

theorem audit_trail_quotaRaised :
    AuditTrail Demo.env 2 (Demo.quotaEntry 200)
      (turns Demo.env 0 ((server Demo.env).step Demo.start (.request (Demo.quotaSet 200)))
        (Demo.go 0 2))
      (((server Demo.env).run Demo.start
        (.request (Demo.quotaSet 200) :: Demo.go 0 2)).tasks[0]?) :=
  (audit_trail Demo.env Demo.start (Demo.quotaSet 200) 2 (Demo.quotaEntry 200)
    (by decide +kernel) (Demo.go 0 2)).mpr (by decide +kernel)

/-- Grace's quota is 100 already: nothing of the account changes, and an entry is written. -/
theorem quota_repeated :
    (Demo.quotaSet 100).audited = some (2, Demo.quotaEntry 100) ∧
      ¬AuditTrail Demo.env 2 (Demo.quotaEntry 100)
        (turns Demo.env 0 ((server Demo.env).step Demo.start (.request (Demo.quotaSet 100)))
          (Demo.go 0 1))
        (((server Demo.env).run Demo.start
          (.request (Demo.quotaSet 100) :: Demo.go 0 1)).tasks[0]?) := by
  refine ⟨by decide +kernel, fun h => ?_⟩
  have hprofile : ∀ turn ∈ turns Demo.env 0
      ((server Demo.env).step Demo.start (.request (Demo.quotaSet 100))) (Demo.go 0 1),
      turn.before.profile 2 = turn.after.profile 2 := by decide +kernel
  have haudit : ∃ turn ∈ turns Demo.env 0
      ((server Demo.env).step Demo.start (.request (Demo.quotaSet 100))) (Demo.go 0 1),
      turn.after.audit ≠ turn.before.audit := by decide +kernel
  obtain ⟨turn, hm, hne⟩ := haudit
  rcases h.recorded turn hm with hidle | hrec
  · exact hne (congrArg State.audit hidle)
  · exact hrec.1 (hprofile turn hm)

end Launcher.Accounts
