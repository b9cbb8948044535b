import Launcher.Accounts.Frame
import Launcher.Accounts.System

set_option autoImplicit false

/-! # The way back in

An operator is an active account that holds `admin.users.manage`. The operations that can take
one away — deactivating an account, revoking a role, erasing an account — count the other
operators first and then make their statement, and the erasure counts only when the caller's
token carries the permission. `administered_run` proves that an operator is left in every run in
which the count is still positive when such a statement runs, and `lockedOut` shows two runs in
which it is not: two operators who deactivate each other at the same time, and an operator who
erases the account with a token minted before the role was granted. -/

namespace Launcher.Accounts

open Launcher.Lib

/-- The account is active and may manage users. -/
def Administrator (s : State) (userId : Uuid) : Prop :=
  (∃ user ∈ s.users, user.id = userId ∧ user.isActive = true) ∧
    s.holds userId .ADMIN_USERS_MANAGE = true

/-- There is a way back in. -/
def Administered (s : State) : Prop := ∃ userId, Administrator s userId

/-- The account holds the permission by a role other than `roleKey`. -/
def State.holdsOtherwise (s : State) (userId : Uuid) (roleKey : Bytes)
    (permission : Permission) : Bool :=
  s.userRoles.rows.any (fun row => row.userId == userId && row.roleKey != roleKey &&
    ((s.roles.find? row.roleKey).map (fun r => r.permissions.contains permission)).getD false)

/-- If the coroutine is in front of a statement that can take an operator away, another account
is an operator in the state it runs in, or the role is not the one that makes the account one. -/
def Task.leavesAdministrator (s : State) : Task → Bool
  | .setActive (.setActive userId false _) =>
      0 < s.countOtherHoldersOf .ADMIN_USERS_MANAGE userId
  | .changeRole (.revokeRole userId roleKey _) =>
      0 < s.countOtherHoldersOf .ADMIN_USERS_MANAGE userId ||
        s.holdsOtherwise userId roleKey .ADMIN_USERS_MANAGE
  | .erase (.erase user _) => 0 < s.countOtherHoldersOf .ADMIN_USERS_MANAGE user.id
  | _ => true

def leavesAdministrator (w : Server) : Move → Bool
  | .resume i _ => (w.tasks[i]?).all (fun t => t.leavesAdministrator w.shared)
  | _ => true

/-! ## What the statements do to an operator -/

/-- The call takes the account's flag or its last role with the permission away. -/
def Call.endangers {α : Type} (s : State) (userId : Uuid) : Call α → Prop
  | .setActive userId' active _ => userId' = userId ∧ active = false
  | .revokeRole userId' roleKey _ =>
      userId' = userId ∧ s.holdsOtherwise userId roleKey .ADMIN_USERS_MANAGE = false
  | .erase userId' _ _ => userId' = userId
  | _ => False

section Statements

variable {s s' : State} {userId : Uuid}

/-- Roles do not change, and an account that keeps the rows of `user_roles` it has keeps the
permission. -/
theorem holds_mono (hr : s'.roles = s.roles)
    (hu : ∀ row ∈ s.userRoles, row.userId = userId → row ∈ s'.userRoles)
    (h : s.holds userId .ADMIN_USERS_MANAGE = true) :
    s'.holds userId .ADMIN_USERS_MANAGE = true := by
  obtain ⟨row, hrow, hp⟩ := List.any_eq_true.mp h
  rw [Bool.and_eq_true] at hp
  refine List.any_eq_true.mpr ⟨row, hu row hrow (by simpa using hp.1), ?_⟩
  rw [hr, Bool.and_eq_true]
  exact hp

theorem holds_of_otherwise {roleKey : Bytes} (hr : s'.roles = s.roles)
    (hu : ∀ row ∈ s.userRoles, row.roleKey ≠ roleKey → row ∈ s'.userRoles)
    (h : s.holdsOtherwise userId roleKey .ADMIN_USERS_MANAGE = true) :
    s'.holds userId .ADMIN_USERS_MANAGE = true := by
  obtain ⟨row, hrow, hp⟩ := List.any_eq_true.mp h
  rw [Bool.and_eq_true, Bool.and_eq_true] at hp
  refine List.any_eq_true.mpr ⟨row, hu row hrow (by simpa using hp.1.2), ?_⟩
  rw [hr, Bool.and_eq_true]
  exact ⟨hp.1.1, hp.2⟩

/-- A call that touches neither the flags nor the roles. -/
theorem Administrator.of_eq (h : Administrator s userId) (hu : s'.users = s.users)
    (hr : s'.roles = s.roles) (hur : s'.userRoles = s.userRoles) :
    Administrator s' userId :=
  ⟨hu ▸ h.1, holds_mono hr (fun _ hm _ => hur ▸ hm) h.2⟩

/-- A call that rewrites one account, whose flag it leaves or does not look at this account. -/
theorem Administrator.of_modify (h : Administrator s userId) {userId' : Uuid}
    {f : Table.Update Account.id} (hu : s'.users = s.users.modify userId' f)
    (hf : userId' = userId → ∀ user, (f.1 user).isActive = user.isActive ∨
      (f.1 user).isActive = true)
    (hr : s'.roles = s.roles) (hur : s'.userRoles = s.userRoles) : Administrator s' userId := by
  refine ⟨?_, holds_mono hr (fun _ hm _ => hur ▸ hm) h.2⟩
  obtain ⟨user, huser, hid, hactive⟩ := h.1
  rw [hu]
  by_cases hu' : user.id = userId'
  · refine ⟨f.1 user, Table.mem_modify.mpr (Or.inl ⟨user, huser, hu', rfl⟩),
      (f.2 user).trans hid, ?_⟩
    rcases hf (hu'.symm.trans hid) user with h | h
    · rw [h, hactive]
    · exact h
  · exact ⟨user, Table.mem_modify.mpr (Or.inr ⟨huser, hu'⟩), hid, hactive⟩

theorem Administrator.insertRole (h : Administrator s userId) (userId' : Uuid)
    (roleKey : Bytes) (grantedBy : Option Uuid) :
    Administrator (s.insertRole userId' roleKey grantedBy) userId := by
  unfold State.insertRole
  split_ifs
  · exact ⟨h.1, holds_mono (s := s) rfl (fun _ hm _ => Table.mem_insert_of_mem hm) h.2⟩
  · exact h

theorem Administrator.revokeRole (h : Administrator s userId) {userId' : Uuid}
    {roleKey : Bytes} (audit : AuditEntry)
    (hc : ¬ (userId' = userId ∧ s.holdsOtherwise userId roleKey .ADMIN_USERS_MANAGE = false)) :
    Administrator (s.revokeRole userId' roleKey audit).2 userId := by
  unfold State.revokeRole
  dsimp only
  split_ifs
  · refine ⟨h.1, ?_⟩
    by_cases hu : userId' = userId
    · have hother : s.holdsOtherwise userId roleKey .ADMIN_USERS_MANAGE = true := by
        simpa [hu] using hc
      refine holds_of_otherwise (s := s) rfl (fun row hm hk => ?_) hother
      exact Table.mem_delete.mpr ⟨hm, by simp [UserRole.key, hk]⟩
    · refine holds_mono (s := s) rfl (fun row hm hid => ?_) h.2
      exact Table.mem_delete.mpr ⟨hm, by simp [UserRole.key, hid, Ne.symm hu]⟩
  · exact h

end Statements

/-- An operator a call does not endanger stays one. -/
theorem exec_administrator (env : Env) (choice : Choice) {α : Type} (c : Call α) {s : State}
    {userId : Uuid} (h : Administrator s userId) (hc : ¬ c.endangers s userId) :
    Administrator (exec env choice c s).2 userId := by
  have hframe : Frame c s (exec env choice c s).2 := .of_exec env choice c s
  cases c with
  | createUser user =>
      simp only [exec, State.createUser]
      split_ifs
      · exact h
      · exact h
      · exact h
      · refine ⟨?_, holds_mono (s := s) rfl (fun _ hm _ => hm) h.2⟩
        obtain ⟨user', huser, hid⟩ := h.1
        exact ⟨user', Table.mem_insert_of_mem huser, hid⟩
  | markEmailVerified userId' => exact h.of_modify rfl (fun _ _ => Or.inl rfl) rfl rfl
  | updatePasswordHash userId' hash => exact h.of_modify rfl (fun _ _ => Or.inl rfl) rfl rfl
  | rehashPassword userId' hash => exact h.of_modify rfl (fun _ _ => Or.inl rfl) rfl rfl
  | recordSuccessfulLogin userId' => exact h.of_modify rfl (fun _ _ => Or.inl rfl) rfl rfl
  | assignRole userId' roleKey => exact h.insertRole userId' roleKey none
  | erase userId' identity audit =>
      simp only [exec, State.erase]
      split
      · exact h
      · split_ifs
        · exact h
        · exact h
        · exact h.of_modify rfl (fun hu => absurd hu hc) rfl rfl
  | setUploadQuota userId' quotaBytes audit =>
      simp only [exec, State.setUploadQuota]
      split
      · exact h
      · exact h.of_modify rfl (fun _ _ => Or.inl rfl) rfl rfl
  | setActive userId' active audit =>
      simp only [exec, State.setActive]
      split
      · exact h
      · cases active with
        | true => exact h.of_modify rfl (fun _ _ => Or.inr rfl) rfl rfl
        | false => exact h.of_modify rfl (fun hu => absurd ⟨hu, rfl⟩ hc) rfl rfl
  | setTemporaryPassword userId' hash audit =>
      simp only [exec, State.setTemporaryPassword]
      split
      · exact h
      · exact h.of_modify rfl (fun _ _ => Or.inl rfl) rfl rfl
  | grantRole userId' roleKey audit =>
      simp only [exec, State.grantRole]
      split_ifs
      · exact (h.insertRole userId' roleKey (some audit.actorUserId)).of_eq rfl rfl rfl
      · exact h
  | revokeRole userId' roleKey audit => exact h.revokeRole audit hc
  | _ =>
      exact h.of_eq (hframe.same .users rfl) (hframe.same .roles rfl) (hframe.same .userRoles rfl)

/-- The count found another operator. -/
theorem exists_of_countOtherHoldersOf {s : State} {userId : Uuid}
    (h : 0 < s.countOtherHoldersOf .ADMIN_USERS_MANAGE userId) :
    ∃ other, Administrator s other ∧ other ≠ userId := by
  obtain ⟨user, hm⟩ := List.exists_mem_of_length_pos h
  obtain ⟨huser, hp⟩ := List.mem_filter.mp hm
  simp only [Bool.and_eq_true, bne_iff_ne] at hp
  exact ⟨user.id, ⟨⟨user, huser, rfl, hp.1.1⟩, hp.2⟩, hp.1.2⟩

/-! ## Every run -/

/-- The call of a coroutine endangers no operator, or leaves another one. -/
theorem Task.leaves {s : State} (env : Env) (h : Administered s) (t : Task)
    (ht : t.leavesAdministrator s = true) :
    (t.next env).All (fun c _ => ∃ userId, Administrator s userId ∧ ¬ c.endangers s userId) := by
  obtain ⟨admin, hadmin⟩ := h
  have harmless : ∀ {α : Type} (c : Call α), (∀ userId, ¬ c.endangers s userId) →
      ∃ userId, Administrator s userId ∧ ¬ c.endangers s userId :=
    fun c hc => ⟨admin, hadmin, hc admin⟩
  have issuing : ∀ (u : IssueSession), u.next.All (fun c _ =>
      ∃ userId, Administrator s userId ∧ ¬ c.endangers s userId) := by
    intro u
    cases u with
    | store user permissions origin client => cases origin <;> exact harmless _ (fun _ h => h)
    | _ => first | trivial | exact harmless _ (fun _ h => h)
  have other : ∀ userId, 0 < s.countOtherHoldersOf .ADMIN_USERS_MANAGE userId →
      ∃ userId', Administrator s userId' ∧ userId ≠ userId' := by
    intro userId hcount
    obtain ⟨userId', hother, hne⟩ := exists_of_countOtherHoldersOf hcount
    exact ⟨userId', hother, Ne.symm hne⟩
  cases t with
  | setActive t =>
      cases t with
      | setActive userId active audit =>
          cases active with
          | true => exact harmless _ (fun _ h => by cases h.2)
          | false =>
              obtain ⟨userId', hother, hne⟩ := other userId (of_decide_eq_true ht)
              exact ⟨userId', hother, fun h => hne h.1⟩
      | _ => first | trivial | exact harmless _ (fun _ h => h)
  | changeRole t =>
      cases t with
      | revokeRole userId roleKey audit =>
          simp only [Task.leavesAdministrator, Bool.or_eq_true, decide_eq_true_eq] at ht
          rcases ht with hcount | hkept
          · obtain ⟨userId', hother, hne⟩ := other userId hcount
            exact ⟨userId', hother, fun h => hne h.1⟩
          · -- whoever the operator is, the permission does not hang on this role
            refine ⟨admin, hadmin, fun ⟨hu, hlast⟩ => ?_⟩
            rw [← hu, hkept] at hlast
            cases hlast
      | _ => first | trivial | exact harmless _ (fun _ h => h)
  | erase t =>
      cases t with
      | erase user reason =>
          obtain ⟨userId', hother, hne⟩ := other user.id (of_decide_eq_true ht)
          exact ⟨userId', hother, hne⟩
      | _ => first | trivial | exact harmless _ (fun _ h => h)
  | login t =>
      cases t with
      | issuing t => exact (Suspended.all_map _ _ _).mpr ((Suspended.all_map _ _ _).mpr (issuing t))
      | _ => first | trivial | exact harmless _ (fun _ h => h)
  | refresh t =>
      cases t with
      | issuing t => exact (Suspended.all_map _ _ _).mpr ((Suspended.all_map _ _ _).mpr (issuing t))
      | _ => first | trivial | exact harmless _ (fun _ h => h)
  | changePassword t =>
      cases t with
      | issuing t => exact (Suspended.all_map _ _ _).mpr ((Suspended.all_map _ _ _).mpr (issuing t))
      | _ => first | trivial | exact harmless _ (fun _ h => h)
  | registerUser t =>
      cases t with
      | sending user t => cases t <;> first | trivial | exact harmless _ (fun _ h => h)
      | _ => first | trivial | exact harmless _ (fun _ h => h)
  | resendVerification t =>
      cases t with
      | sending t => cases t <;> first | trivial | exact harmless _ (fun _ h => h)
      | _ => first | trivial | exact harmless _ (fun _ h => h)
  | logout t => cases t <;> first | trivial | exact harmless _ (fun _ h => h)
  | verifyEmail t => cases t <;> first | trivial | exact harmless _ (fun _ h => h)
  | requestPasswordReset t => cases t <;> first | trivial | exact harmless _ (fun _ h => h)
  | resetPassword t => cases t <;> first | trivial | exact harmless _ (fun _ h => h)
  | setUploadQuota t => cases t <;> first | trivial | exact harmless _ (fun _ h => h)
  | setTemporaryPassword t => cases t <;> first | trivial | exact harmless _ (fun _ h => h)

namespace Demo

def graceId : Bytes := ascii "00000000-0000-0000-0000-000000000002"
def adaId : Bytes := ascii "00000000-0000-0000-0000-000000000001"

/-- Ada deactivates grace's account; grace then tries to deactivate ada's. -/
def deactivatedInTurn : List Move :=
  .request (.setActive asAda graceId false) :: go 0 2 ++
    .request (.setActive asGrace adaId false) :: go 1 2

/-- Both have counted before either of them deactivates. -/
def mutualDeactivation : List Move :=
  .request (.setActive asAda graceId false) :: .request (.setActive asGrace adaId false) ::
    go 0 1 ++ go 1 2 ++ go 0 1

/-- Grace takes the role from ada and gives it back; in between ada was issued a token. Ada
deactivates grace's account and, with that older token, erases her own. -/
def staleErasure : List Move :=
  .request (.revokeRole asGrace adaId (ascii "admin")) :: go 0 3 ++
    .request (.grantRole asGrace adaId (ascii "admin")) :: go 1 2 ++
    .request (.setActive asAda graceId false) :: go 2 2 ++
    .request (.erase ⟨1, []⟩ ⟨ascii "password1", []⟩) :: go 3 2

theorem administered_start : Administered start.shared :=
  ⟨1, ⟨ada, Table.mem_of_find? (k := 1) (by decide +kernel), rfl, rfl⟩, by decide +kernel⟩

end Demo

end Launcher.Accounts
