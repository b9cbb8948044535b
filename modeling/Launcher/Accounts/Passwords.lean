import Launcher.Lib.Overtaking
import Launcher.Accounts.Frame
import Launcher.Accounts.System

set_option autoImplicit false

/-! # Password writes

A login that finds a hash made with earlier parameters stores a new hash of the password it has
just verified; a change of password stores the new one after it has verified the current one.
Both read the account's row, spend their time hashing, and then write without asking whether
the row still carries the hash they verified against. `passwords_proven` says what holds in every
run in which no request writes after another one has replaced that hash, and
`temporaryMidLogin_undone` shows a login that undoes a temporary password. -/

namespace Launcher.Accounts

open Launcher.Lib

/-! ## Writes and checks -/

/-- Why a hash is stored, with the password it was made from. -/
inductive Reason
  | rehash (password : Bytes)
  | reset (new : Bytes)
  | change (new : Bytes)
  | temporary (password : Bytes)
  | erasure
  deriving DecidableEq, Repr

/-- The password the hash was made from; the placeholder of an erased account was not. -/
def Reason.password : Reason → Option Bytes
  | .rehash password => some password
  | .reset new => some new
  | .change new => some new
  | .temporary password => some password
  | .erasure => none

/-- The password somebody has chosen with the write. A rehash keeps the one there is. -/
def Reason.chosen : Reason → Option Bytes
  | .rehash _ => none
  | reason => reason.password

structure PasswordWrite where
  userId : Uuid
  hash : Bytes
  reason : Reason
  deriving DecidableEq, Repr

/-- The write of `password_hash` a coroutine is about to make. -/
def Task.write : Task → Option PasswordWrite
  | .login (.rehashPassword user password upgraded _) =>
      some ⟨user.id, upgraded, .rehash password⟩
  | .resetPassword (.updatePasswordHash userId new hash) => some ⟨userId, hash, .reset new⟩
  | .changePassword (.updatePasswordHash user _ new hash _) => some ⟨user.id, hash, .change new⟩
  | .setTemporaryPassword (.setTemporaryPassword userId password hash _) =>
      some ⟨userId, hash, .temporary password⟩
  | .erase (.erase user _) => some ⟨user.id, ERASED_PASSWORD_HASH, .erasure⟩
  | _ => none

/-- The account as it was read, and the password supplied with the request: the coroutine has
verified one against the other and is going to store a hash. -/
def Task.verified : Task → Option (Account × Bytes)
  | .login (.hash user password _) => some (user, password)
  | .login (.rehashPassword user password _ _) => some (user, password)
  | .changePassword (.hash user current _ _) => some (user, current)
  | .changePassword (.updatePasswordHash user current _ _ _) => some (user, current)
  | _ => none

/-- The password write a step makes, and the task that makes it. -/
def passwordWrite (w : Server) : Move → Option (Nat × PasswordWrite)
  | .resume i _ => (w.tasks[i]?).bind (fun t => t.write.map (fun wr => (i, wr)))
  | _ => none

/-- A password write outdates what was verified against the account's hash; a login and a
change of password act on what they verified when they write. -/
def passwordChecks : Checks State Task Request Choice Outside Uuid where
  event w l := (passwordWrite w l).map (fun e => (e.1, e.2.userId))
  holds t userId := (t.verified.map (fun v => v.1.id == userId)).getD false
  acts w l := (passwordWrite w l).bind (fun e =>
    if ((w.tasks[e.1]?).bind Task.verified).isSome then some e.1 else none)

/-- The passwords chosen for an account in a step. -/
def choosesFor (userId : Uuid) (w : Server) (l : Move) : List Bytes :=
  ((passwordWrite w l).bind (fun e =>
    if e.2.userId = userId then e.2.reason.chosen else none)).toList

/-- The live reset link a step redeems: the task and the account it is for. -/
def redeems (env : Env) (w : Server) : Move → List (Nat × Uuid)
  | .resume i _ =>
      match w.tasks[i]? with
      | some (.resetPassword (.consume token _)) =>
          ((w.shared.redeemable (env.sha256Hex token) .PasswordReset).map
            (fun link => (i, link.userId))).toList
      | _ => []
  | _ => []

/-- The hasher: a hash verifies the password it was made from and no other, and the placeholder
of an erased account verifies none. -/
structure Hasher (env : Env) : Prop where
  verifies_only : ∀ password salt hash other, env.hash password salt = .ok hash →
    env.verify other hash = true → other = password
  erased : ∀ password, env.verify password ERASED_PASSWORD_HASH = false

/-- No password write from a stale check, up to the end of the run. -/
structure PasswordsProven (env : Env) (w : Server) (ls : List Move) : Prop where
  /-- A login or change of password overwrites the very hash the password was verified against. -/
  overwrites : ∀ pre i choice post t user password, ls = pre ++ .resume i choice :: post →
    ((server env).run w pre).tasks[i]? = some t → t.write.isSome = true →
    t.verified = some (user, password) →
    env.verify password user.passwordHash = true ∧
      ∃ row, ((server env).run w pre).shared.users.find? user.id = some row ∧
        row.passwordHash = user.passwordHash
  /-- Once a hash has been stored, a password that verifies is one that verifies against it, or
  one that was chosen for the account afterwards. -/
  superseded : ∀ pre l post i wr, ls = pre ++ l :: post →
    passwordWrite ((server env).run w pre) l = some (i, wr) →
    ∀ row, ((server env).run w (pre ++ [l])).shared.users.find? wr.userId = some row →
    row.passwordHash = wr.hash →
    ∃ row', ((server env).run w ls).shared.users.find? wr.userId = some row' ∧
      ∀ password, env.verify password row'.passwordHash = true →
        env.verify password wr.hash = true ∨
          password ∈ (server env).collect (choosesFor wr.userId)
            ((server env).run w (pre ++ [l])) post
  /-- The flag is cleared only by a change of password that has verified the password stored
  then, or by a reset that has redeemed a live link of the account. -/
  cleared : ∀ pre l post, ls = pre ++ l :: post →
    ∀ userId row row', ((server env).run w pre).shared.users.find? userId = some row →
    row.passwordChangeRequired = true →
    ((server env).run w (pre ++ [l])).shared.users.find? userId = some row' →
    row'.passwordChangeRequired = false →
    ∃ i choice, l = .resume i choice ∧
      ((∃ t user password, ((server env).run w pre).tasks[i]? = some t ∧
          t.verified = some (user, password) ∧ user.id = userId ∧
          env.verify password row.passwordHash = true) ∨
        (i, userId) ∈ (server env).collect (redeems env) w pre)

/-! ## What the statements do to the stored hashes -/

/-- The hash a call stores, and the account it stores it for. -/
def Call.storesHash {α : Type} : Call α → Option (Uuid × Bytes)
  | .rehashPassword userId passwordHash => some (userId, passwordHash)
  | .updatePasswordHash userId passwordHash => some (userId, passwordHash)
  | .setTemporaryPassword userId passwordHash _ => some (userId, passwordHash)
  | .erase userId identity _ => some (userId, identity.passwordHash)
  | _ => none

/-- Whether a call clears `password_change_required`. -/
def Call.clearsFlag {α : Type} : Call α → Bool
  | .updatePasswordHash _ _ => true
  | _ => false

/-- The account still has its hash and its flag. -/
def SamePassword (row row' : Account) : Prop :=
  row'.passwordHash = row.passwordHash ∧
    row'.passwordChangeRequired = row.passwordChangeRequired

/-- What a call can do to an account's hash and flag. -/
def HashAfter {α : Type} (c : Call α) (userId : Uuid) (row row' : Account) : Prop :=
  SamePassword row row' ∨
    (c.storesHash = some (userId, row'.passwordHash) ∧
      (row'.passwordChangeRequired = false →
        row.passwordChangeRequired = false ∨ c.clearsFlag = true))

/-- What a call can do to the accounts: none goes away, and only the calls above touch a hash. -/
def UsersAfter {α : Type} (c : Call α) (s s' : State) : Prop :=
  ∀ userId row, s.users.find? userId = some row →
    ∃ row', s'.users.find? userId = some row' ∧ HashAfter c userId row row'

section Statements

variable {α : Type} {c : Call α} {s s' : State}

theorem UsersAfter.of_eq (h : s'.users = s.users) : UsersAfter c s s' := by
  intro userId row hrow
  exact ⟨row, h ▸ hrow, Or.inl ⟨rfl, rfl⟩⟩

theorem UsersAfter.of_modify {userId : Uuid} {f : Table.Update Account.id}
    (h : s'.users = s.users.modify userId f) (hf : ∀ row, HashAfter c userId row (f.1 row)) :
    UsersAfter c s s' := by
  intro userId' row hrow
  rw [h, Table.find?_modify]
  by_cases hu : userId' = userId
  · subst hu
    rw [if_pos rfl, hrow]
    exact ⟨f.1 row, rfl, hf row⟩
  · rw [if_neg hu]
    exact ⟨row, hrow, Or.inl ⟨rfl, rfl⟩⟩

end Statements

theorem exec_users (env : Env) (choice : Choice) {α : Type} (c : Call α) (s : State) :
    UsersAfter c s (exec env choice c s).2 := by
  have hframe : Frame c s (exec env choice c s).2 := .of_exec env choice c s
  cases c with
  | createUser user =>
      simp only [exec, State.createUser]
      split_ifs
      · exact .of_eq rfl
      · exact .of_eq rfl
      · exact .of_eq rfl
      · intro userId row hrow
        refine ⟨row, ?_, Or.inl ⟨rfl, rfl⟩⟩
        rw [Table.find?_insert, hrow, Option.some_or]
  | markEmailVerified userId => exact .of_modify rfl (fun row => Or.inl ⟨rfl, rfl⟩)
  | recordSuccessfulLogin userId => exact .of_modify rfl (fun row => Or.inl ⟨rfl, rfl⟩)
  | updatePasswordHash userId hash =>
      exact .of_modify rfl (fun row => Or.inr ⟨rfl, fun _ => Or.inr rfl⟩)
  | rehashPassword userId hash =>
      exact .of_modify rfl (fun row => Or.inr ⟨rfl, Or.inl⟩)
  | erase userId identity audit =>
      simp only [exec, State.erase]
      split
      · exact .of_eq rfl
      · split_ifs
        · exact .of_eq rfl
        · exact .of_eq rfl
        · exact .of_modify rfl (fun row => Or.inr ⟨rfl, Or.inl⟩)
  | setUploadQuota userId quotaBytes audit =>
      simp only [exec, State.setUploadQuota]
      split
      · exact .of_eq rfl
      · exact .of_modify rfl (fun row => Or.inl ⟨rfl, rfl⟩)
  | setActive userId active audit =>
      simp only [exec, State.setActive]
      split
      · exact .of_eq rfl
      · cases active <;> exact .of_modify rfl (fun row => Or.inl ⟨rfl, rfl⟩)
  | setTemporaryPassword userId hash audit =>
      simp only [exec, State.setTemporaryPassword]
      split
      · exact .of_eq rfl
      · exact .of_modify rfl (fun row => Or.inr ⟨rfl, fun h => by cases h⟩)
  | _ => exact .of_eq (hframe.same .users rfl)

/-! ## One step of a coroutine -/

/-- Only a coroutine in front of a password write makes one, and only a reset or a change of
password clears the flag. -/
def Writes (t : Task) {α : Type} (c : Call α) : Prop :=
  ∀ userId hash, c.storesHash = some (userId, hash) →
    ∃ wr, t.write = some wr ∧ wr.userId = userId ∧ wr.hash = hash ∧
      (c.clearsFlag = true → (∃ new, wr.reason = .reset new) ∨ ∃ new, wr.reason = .change new)

theorem Writes.of_none {t : Task} {α : Type} {c : Call α} (h : c.storesHash = none) :
    Writes t c := by
  intro userId hash hc
  rw [h] at hc
  cases hc

theorem IssueSession.next_writes (u : Task) (t : IssueSession) :
    t.next.All (fun c _ => Writes u c) := by
  cases t with
  | store user permissions origin client => cases origin <;> exact .of_none rfl
  | _ => first | trivial | exact .of_none rfl

theorem Task.next_writes (env : Env) (t : Task) : (t.next env).All (fun c _ => Writes t c) := by
  cases t with
  | login t =>
      cases t with
      | issuing t =>
          exact (Suspended.all_map _ _ _).mpr ((Suspended.all_map _ _ _).mpr (t.next_writes _))
      | rehashPassword user password upgraded client =>
          intro userId hash hc
          cases hc
          exact ⟨_, rfl, rfl, rfl, fun h => by cases h⟩
      | _ => first | trivial | exact .of_none rfl
  | refresh t =>
      cases t with
      | issuing t =>
          exact (Suspended.all_map _ _ _).mpr ((Suspended.all_map _ _ _).mpr (t.next_writes _))
      | _ => first | trivial | exact .of_none rfl
  | changePassword t =>
      cases t with
      | issuing t =>
          exact (Suspended.all_map _ _ _).mpr ((Suspended.all_map _ _ _).mpr (t.next_writes _))
      | updatePasswordHash user current new passwordHash client =>
          intro userId hash hc
          cases hc
          exact ⟨_, rfl, rfl, rfl, fun _ => Or.inr ⟨new, rfl⟩⟩
      | _ => first | trivial | exact .of_none rfl
  | resetPassword t =>
      cases t with
      | updatePasswordHash userId new passwordHash =>
          intro userId hash hc
          cases hc
          exact ⟨_, rfl, rfl, rfl, fun _ => Or.inl ⟨new, rfl⟩⟩
      | _ => first | trivial | exact .of_none rfl
  | setTemporaryPassword t =>
      cases t with
      | setTemporaryPassword userId password passwordHash audit =>
          intro userId hash hc
          cases hc
          exact ⟨_, rfl, rfl, rfl, fun h => by cases h⟩
      | _ => first | trivial | exact .of_none rfl
  | erase t =>
      cases t with
      | erase user reason =>
          intro userId hash hc
          cases hc
          exact ⟨_, rfl, rfl, rfl, fun h => by cases h⟩
      | _ => first | trivial | exact .of_none rfl
  | registerUser t =>
      cases t with
      | sending user t => cases t <;> first | trivial | exact .of_none rfl
      | _ => first | trivial | exact .of_none rfl
  | resendVerification t =>
      cases t with
      | sending t => cases t <;> first | trivial | exact .of_none rfl
      | _ => first | trivial | exact .of_none rfl
  | logout t => cases t <;> first | trivial | exact .of_none rfl
  | verifyEmail t => cases t <;> first | trivial | exact .of_none rfl
  | requestPasswordReset t => cases t <;> first | trivial | exact .of_none rfl
  | setUploadQuota t => cases t <;> first | trivial | exact .of_none rfl
  | setActive t => cases t <;> first | trivial | exact .of_none rfl
  | changeRole t => cases t <;> first | trivial | exact .of_none rfl

/-- The hash was made from the password the write is for. -/
def PasswordWrite.Hashed (env : Env) (wr : PasswordWrite) : Prop :=
  match wr.reason.password with
  | some password => ∃ salt, env.hash password salt = .ok wr.hash
  | none => wr.hash = ERASED_PASSWORD_HASH

/-- The account whose reset link a coroutine has redeemed and not used yet. -/
def Task.redeemed : Task → Option Uuid
  | .resetPassword (.hash userId _) => some userId
  | .resetPassword (.updatePasswordHash userId _ _) => some userId
  | _ => none

/-- The link a coroutine is about to redeem in the state `s`. -/
def Task.redeems (env : Env) (s : State) : Task → Option Uuid
  | .resetPassword (.consume token _) =>
      (s.redeemable (env.sha256Hex token) .PasswordReset).map (·.userId)
  | _ => none

/-- What a step of a coroutine does to what it has verified, hashed and redeemed. -/
structure ProofStep (env : Env) (s : State) (t : Task) (s' : State) (t' : Task) : Prop where
  verified : ∀ user password, t'.verified = some (user, password) → t.write = none ∧
    (t.verified = some (user, password) ∨ (s.users.find? user.id = some user ∧
      env.verify password user.passwordHash = true ∧ s' = s))
  hashed : ∀ wr, t'.write = some wr → wr.Hashed env
  redeemed : ∀ userId, t'.redeemed = some userId →
    t.redeemed = some userId ∨ t.redeems env s = some userId

/-- A coroutine that has neither verified, nor hashed, nor redeemed anything. -/
theorem ProofStep.of_none {env : Env} {s s' : State} {t t' : Task} (hv : t'.verified = none)
    (hw : t'.write = none) (hr : t'.redeemed = none) : ProofStep env s t s' t' where
  verified user password h := by rw [hv] at h; cases h
  hashed wr h := by rw [hw] at h; cases h
  redeemed userId h := by rw [hr] at h; cases h

theorem ProofStep.of_map (env : Env) (choice : Choice) (s : State) (t : Task) {τ : Type}
    (x : Suspended Call τ) (f : τ → Task)
    (hf : ∀ u, (f u).verified = none ∧ (f u).write = none ∧ (f u).redeemed = none) :
    (x.map f).Wp (exec env) choice s (ProofStep env s t) := by
  cases x with
  | done => trivial
  | call c k => exact fun r s' _ => .of_none (hf _).1 (hf _).2.1 (hf _).2.2

theorem admitLogin_verified (env : Env) (s : State) (email password : Bytes)
    (client : ClientContext) :
    ProofStep env s (.login (.findByEmail email password client)) s
      (.login (admitLogin env password client (s.findByEmail env (normalizeEmail email)))) := by
  unfold admitLogin
  cases hf : s.findByEmail env (normalizeEmail email) with
  | none => exact .of_none rfl rfl rfl
  | some user =>
      dsimp only
      split_ifs with hv ha he hr
      · exact .of_none rfl rfl rfl
      · exact .of_none rfl rfl rfl
      · exact .of_none rfl rfl rfl
      · refine ⟨fun user' password' h => ?_, fun _ h => (by cases h), fun _ h => (by cases h)⟩
        cases h
        exact ⟨rfl, Or.inr ⟨Table.find?_of_mem (List.mem_of_find?_eq_some hf),
          by simpa using hv, rfl⟩⟩
      · exact .of_none rfl rfl rfl

theorem admitChange_verified (env : Env) (s : State) (userId : Uuid) (current new : Bytes)
    (client : ClientContext) :
    ProofStep env s (.changePassword (.findById userId current new client)) s
      (.changePassword (admitChange env current new client (s.users.find? userId))) := by
  unfold admitChange
  cases hf : s.users.find? userId with
  | none => exact .of_none rfl rfl rfl
  | some user =>
      dsimp only
      split_ifs with hv ha hn
      · exact .of_none rfl rfl rfl
      · exact .of_none rfl rfl rfl
      · exact .of_none rfl rfl rfl
      · refine ⟨fun user' password' h => ?_, fun _ h => (by cases h), fun _ h => (by cases h)⟩
        cases h
        exact ⟨rfl, Or.inr ⟨Table.find?_of_mem (Table.mem_of_find? hf), by simpa using hv, rfl⟩⟩

theorem Login.next_proof (env : Env) (choice : Choice) (s : State) (t : Login) :
    ((t.next env).map Task.login).Wp (exec env) choice s (ProofStep env s (.login t)) := by
  cases t with
  | findByEmail email password client =>
      intro r s' e
      cases e
      exact admitLogin_verified env s email password client
  | hash user password client =>
      intro r s' e
      cases e
      cases hh : env.hash password choice.salt with
      | error e => exact .of_none rfl rfl rfl
      | ok upgraded =>
          refine ⟨fun user' password' h => ⟨rfl, Or.inl h⟩, fun wr h => ?_, fun _ h => (by cases h)⟩
          cases h
          exact ⟨choice.salt, hh⟩
  | rehashPassword user password upgraded client => exact fun _ _ _ => .of_none rfl rfl rfl
  | recordSuccessfulLogin user client => exact fun _ _ _ => .of_none rfl rfl rfl
  | issuing t =>
      rw [show (Login.issuing t).next env = t.next.map .issuing from rfl]
      refine (Suspended.wp_map _ _ _).mpr ?_
      refine (Suspended.wp_map _ _ _).mpr ?_
      cases t.next with
      | done => trivial
      | call c k => exact fun _ _ _ => .of_none rfl rfl rfl
  | answered result => trivial

theorem ChangePassword.next_proof (env : Env) (choice : Choice) (s : State)
    (t : ChangePassword) :
    ((t.next env).map Task.changePassword).Wp (exec env) choice s
      (ProofStep env s (.changePassword t)) := by
  cases t with
  | findById userId current new client =>
      intro r s' e
      cases e
      exact admitChange_verified env s userId current new client
  | hash user current new client =>
      intro r s' e
      cases e
      cases hh : env.hash new choice.salt with
      | error e => exact .of_none rfl rfl rfl
      | ok passwordHash =>
          refine ⟨fun user' password' h => ⟨rfl, Or.inl h⟩, fun wr h => ?_, fun _ h => (by cases h)⟩
          cases h
          exact ⟨choice.salt, hh⟩
  | findUpdated user client =>
      intro r s' e
      cases r <;> exact .of_none rfl rfl rfl
  | issuing t =>
      rw [show (ChangePassword.issuing t).next env = t.next.map .issuing from rfl]
      refine (Suspended.wp_map _ _ _).mpr ?_
      refine (Suspended.wp_map _ _ _).mpr ?_
      cases t.next with
      | done => trivial
      | call c k => exact fun _ _ _ => .of_none rfl rfl rfl
  | answered result => trivial
  | _ => exact fun _ _ _ => .of_none rfl rfl rfl

theorem ResetPassword.next_proof (env : Env) (choice : Choice) (s : State) (t : ResetPassword) :
    ((t.next env).map Task.resetPassword).Wp (exec env) choice s
      (ProofStep env s (.resetPassword t)) := by
  cases t with
  | consume token new =>
      intro r s' e
      have hr : r = (s.consume (env.sha256Hex token) .PasswordReset).1 :=
        (congrArg Prod.fst e).symm
      cases hl : s.redeemable (env.sha256Hex token) .PasswordReset with
      | none =>
          simp only [State.consume, hl] at hr
          rw [hr]
          exact .of_none rfl rfl rfl
      | some link =>
          simp only [State.consume, hl] at hr
          rw [hr]
          refine ⟨fun _ _ h => (by cases h), fun _ h => (by cases h), fun userId h => Or.inr ?_⟩
          cases h
          simp only [Task.redeems, hl, Option.map_some]
  | hash userId new =>
      intro r s' e
      cases e
      cases hh : env.hash new choice.salt with
      | error e => exact .of_none rfl rfl rfl
      | ok passwordHash =>
          refine ⟨fun _ _ h => (by cases h), fun wr h => ?_, fun _ h => Or.inl h⟩
          cases h
          exact ⟨choice.salt, hh⟩
  | answered result => trivial
  | _ => exact fun _ _ _ => .of_none rfl rfl rfl

theorem SetTemporaryPassword.next_proof (env : Env) (choice : Choice) (s : State)
    (t : SetTemporaryPassword) :
    (t.next.map Task.setTemporaryPassword).Wp (exec env) choice s
      (ProofStep env s (.setTemporaryPassword t)) := by
  cases t with
  | randomTemporaryPassword userId audit => exact fun _ _ _ => .of_none rfl rfl rfl
  | hash userId password audit =>
      intro r s' e
      cases e
      cases hh : env.hash password choice.salt with
      | error e => exact .of_none rfl rfl rfl
      | ok passwordHash =>
          refine ⟨fun _ _ h => (by cases h), fun wr h => ?_, fun _ h => (by cases h)⟩
          cases h
          exact ⟨choice.salt, hh⟩
  | setTemporaryPassword userId password passwordHash audit =>
      intro r s' e
      cases r <;> exact .of_none rfl rfl rfl
  | answered result => trivial

theorem Erase.next_proof (env : Env) (choice : Choice) (s : State) (t : Erase) :
    ((t.next env).map Task.erase).Wp (exec env) choice s (ProofStep env s (.erase t)) := by
  have herase : ∀ s' (t' : Erase), ProofStep env s (.erase t) s' (.erase t') := by
    intro s' t'
    refine ⟨fun _ _ h => (by cases h), fun wr h => ?_, fun _ h => (by cases h)⟩
    cases t' with
    | erase user reason => cases h; rfl
    | _ => cases h
  refine (Suspended.wp_map _ _ _).mpr ?_
  cases t.next env with
  | done => trivial
  | call c k => exact fun r s' _ => herase s' (k r)

theorem Task.next_proof (env : Env) (choice : Choice) (s : State) (t : Task) :
    (t.next env).Wp (exec env) choice s (ProofStep env s t) := by
  cases t with
  | login t => exact t.next_proof env choice s
  | changePassword t => exact t.next_proof env choice s
  | resetPassword t => exact t.next_proof env choice s
  | setTemporaryPassword t => exact t.next_proof env choice s
  | erase t => exact t.next_proof env choice s
  | _ => exact ProofStep.of_map env choice s _ _ _ (fun _ => ⟨rfl, rfl, rfl⟩)

/-- What a step of the coroutine `t` does to an account's hash and flag. -/
def RowStep (t : Task) (userId : Uuid) (row row' : Account) : Prop :=
  SamePassword row row' ∨ ∃ wr, t.write = some wr ∧ wr.userId = userId ∧
    row'.passwordHash = wr.hash ∧ (row'.passwordChangeRequired = false →
      row.passwordChangeRequired = false ∨ (∃ new, wr.reason = .reset new) ∨
        ∃ new, wr.reason = .change new)

structure PasswordStep (env : Env) (s : State) (t : Task) (s' : State) (t' : Task) : Prop
    extends ProofStep env s t s' t' where
  users : ∀ userId row, s.users.find? userId = some row →
    ∃ row', s'.users.find? userId = some row' ∧ RowStep t userId row row'

/-- **What a step of a coroutine does to the stored passwords.** -/
theorem password_step (env : Env) (choice : Choice) (s : State) (t : Task) :
    (t.next env).Wp (exec env) choice s (PasswordStep env s t) := by
  have husers : (t.next env).Wp (exec env) choice s (fun s' _ =>
      ∀ userId row, s.users.find? userId = some row →
        ∃ row', s'.users.find? userId = some row' ∧ RowStep t userId row row') := by
    refine (t.next_writes env).wp (fun c k hc r s' e userId row hrow => ?_)
    obtain ⟨row', hrow', hafter⟩ := exec_users env choice c s userId row hrow
    rw [e] at hrow'
    refine ⟨row', hrow', hafter.imp_right (fun ⟨hstores, hflag⟩ => ?_)⟩
    obtain ⟨wr, hwr, hid, hhash, hclears⟩ := hc _ _ hstores
    exact ⟨wr, hwr, hid, hhash.symm, fun h => (hflag h).imp_right hclears⟩
  exact ((t.next_proof env choice s).and husers).mono (fun s' t' h => ⟨h.1, h.2⟩)

/-! ## What holds at every point of a punctual run -/

/-- What a coroutine has verified was verified against the account's hash, and unless the
coroutine has been overtaken that hash is still stored; what it is about to store is a hash of
the password it says. -/
structure Fresh (env : Env) (late : List Nat) (w : Server) : Prop where
  proven : ∀ (j : Nat) t user password, w.tasks[j]? = some t →
    t.verified = some (user, password) → env.verify password user.passwordHash = true ∧
      ∃ row, w.shared.users.find? user.id = some row ∧
        (j ∈ late ∨ row.passwordHash = user.passwordHash)
  hashed : ∀ (j : Nat) t wr, w.tasks[j]? = some t → t.write = some wr → wr.Hashed env

theorem passwordWrite_resume {w : Server} {i : Nat} {choice : Choice} {t : Task}
    {wr : PasswordWrite} (hi : w.tasks[i]? = some t) (hwr : t.write = some wr) :
    passwordWrite w (.resume i choice) = some (i, wr) := by
  simp only [passwordWrite, hi, Option.bind_some, hwr, Option.map_some]

section Step

variable {env : Env} {w : Server} {late : List Nat}

theorem Fresh.call (h : Fresh env late w) {i : Nat} {choice : Choice} {t t' : Task} {s' : State}
    (hi : w.tasks[i]? = some t) (hstep : PasswordStep env w.shared t s' t') :
    Fresh env (late ++ passwordChecks.overtakes w (.resume i choice)) ⟨s', w.tasks.set i t'⟩ where
  proven j u user password hj hv := by
    rcases System.mem_set_cases hj with ⟨rfl, rfl⟩ | ⟨hne, hj⟩
    · -- the step's own coroutine holds a check after it, so it has not written
      obtain ⟨hnone, hold | ⟨hfind, hver, hs⟩⟩ := hstep.verified user password hv
      · obtain ⟨hver, row, hrow, hor⟩ := h.proven j t user password hi hold
        obtain ⟨row', hrow', hsame | ⟨wr, hwr, _⟩⟩ := hstep.users _ _ hrow
        · exact ⟨hver, row', hrow', hor.imp (List.mem_append_left _) (hsame.1.trans ·)⟩
        · rw [hnone] at hwr
          cases hwr
      · subst hs
        exact ⟨hver, user, hfind, Or.inr rfl⟩
    · obtain ⟨hver, row, hrow, hor⟩ := h.proven j u user password hj hv
      obtain ⟨row', hrow', hsame | ⟨wr, hwr, hid, _⟩⟩ := hstep.users _ _ hrow
      · exact ⟨hver, row', hrow', hor.imp (List.mem_append_left _) (hsame.1.trans ·)⟩
      · refine ⟨hver, row', hrow', Or.inl (List.mem_append_right _ ?_)⟩
        refine Checks.mem_overtakes (k := wr.userId) ?_ hj hne ?_
        · simp only [passwordChecks, passwordWrite_resume hi hwr, Option.map_some]
        · simp [passwordChecks, hv, hid]
  hashed j u wr hj hwr := by
    rcases System.mem_set_cases hj with ⟨_, rfl⟩ | ⟨_, hj⟩
    · exact hstep.hashed wr hwr
    · exact h.hashed j u wr hj hwr

theorem entry_unproven (r : Request) :
    (entry r).verified = none ∧ (entry r).write = none ∧ (entry r).redeemed = none := by
  cases r with
  | changePassword userId current new client =>
      simp only [entry, changePassword]
      split <;> exact ⟨rfl, rfl, rfl⟩
  | resetPassword token new =>
      simp only [entry, resetPassword]
      split <;> exact ⟨rfl, rfl, rfl⟩
  | setTemporaryPassword actor userId =>
      simp only [entry, setTemporaryPassword]
      split
      · exact ⟨rfl, rfl, rfl⟩
      · split_ifs <;> exact ⟨rfl, rfl, rfl⟩
  | erase actor command =>
      simp only [entry, erase]
      split_ifs <;> exact ⟨rfl, rfl, rfl⟩
  | _ => exact ⟨rfl, rfl, rfl⟩

theorem Fresh.step (h : Fresh env late w) (l : Move) :
    Fresh env (late ++ passwordChecks.overtakes w l) ((server env).step w l) := by
  have hmono : ∀ late', Fresh env (late ++ late') w := fun late' => by
    refine ⟨fun j t user password hj hv => ?_, h.hashed⟩
    obtain ⟨hver, row, hrow, hor⟩ := h.proven j t user password hj hv
    exact ⟨hver, row, hrow, hor.imp_left (List.mem_append_left _)⟩
  refine System.step_induction (P := Fresh env (late ++ passwordChecks.overtakes w l))
    (fun r _ => ?_) (fun i choice t hl hi => ?_) (hmono _) (fun e _ => ?_)
  · have h' := hmono (passwordChecks.overtakes w l)
    obtain ⟨hv, hw, _⟩ := entry_unproven r
    refine ⟨fun j t user password hj hver => ?_, fun j t wr hj hwr => ?_⟩
    · rcases System.mem_append_cases hj with hj | ⟨_, rfl⟩
      · exact h'.proven j t user password hj hver
      · rw [show ((server env).entry r).verified = none from hv] at hver
        cases hver
    · rcases System.mem_append_cases hj with hj | ⟨_, rfl⟩
      · exact h'.hashed j t wr hj hwr
      · rw [show ((server env).entry r).write = none from hw] at hwr
        cases hwr
  · subst hl
    exact (password_step env choice w.shared t).mono (fun s' t' hstep => h.call hi hstep)
  · cases e
    exact ⟨(hmono _).proven, h.hashed⟩

end Step

/-! ## The three parts -/

/-- A login that rehashes and a change of password have verified a password of the account they
write. -/
theorem verified_of_write {t : Task} {wr : PasswordWrite} (h : t.write = some wr) :
    (∀ password, wr.reason = .rehash password →
      ∃ user, t.verified = some (user, password) ∧ user.id = wr.userId) ∧
    (∀ new, wr.reason = .change new →
      ∃ user password, t.verified = some (user, password) ∧ user.id = wr.userId) ∧
    (∀ new, wr.reason = .reset new → t.redeemed = some wr.userId) := by
  unfold Task.write at h
  split at h
  · cases h
    refine ⟨fun password hr => ?_, fun _ hr => (by cases hr), fun _ hr => (by cases hr)⟩
    cases hr
    exact ⟨_, rfl, rfl⟩
  · cases h
    exact ⟨fun _ hr => (by cases hr), fun _ hr => (by cases hr), fun _ _ => rfl⟩
  · cases h
    exact ⟨fun _ hr => (by cases hr), fun _ _ => ⟨_, _, rfl, rfl⟩, fun _ hr => (by cases hr)⟩
  · cases h
    exact ⟨fun _ hr => (by cases hr), fun _ hr => (by cases hr), fun _ hr => (by cases hr)⟩
  · cases h
    exact ⟨fun _ hr => (by cases hr), fun _ hr => (by cases hr), fun _ hr => (by cases hr)⟩
  · cases h

section Parts

variable {env : Env} {w : Server} {late : List Nat}

/-- A coroutine that writes on the strength of a check and is not late overwrites the hash it
has verified against. -/
theorem Fresh.overwrites (h : Fresh env late w) {i : Nat} {choice : Choice}
    (hp : ∀ j ∈ late, passwordChecks.acts w (.resume i choice) ≠ some j) {t : Task}
    {user : Account} {password : Bytes} (hi : w.tasks[i]? = some t) {wr : PasswordWrite}
    (hwr : t.write = some wr) (hv : t.verified = some (user, password)) :
    env.verify password user.passwordHash = true ∧
      ∃ row, w.shared.users.find? user.id = some row ∧ row.passwordHash = user.passwordHash := by
  obtain ⟨hver, row, hrow, hor⟩ := h.proven i t user password hi hv
  refine ⟨hver, row, hrow, hor.resolve_left (fun hlate => hp i hlate ?_)⟩
  simp [passwordChecks, passwordWrite_resume hi hwr, hi, hv]

/-- A password that verifies after a step verified before it, or was chosen in it. -/
theorem Fresh.verifies_row (hasher : Hasher env) (h : Fresh env late w) {i : Nat}
    {choice : Choice} (hp : ∀ j ∈ late, passwordChecks.acts w (.resume i choice) ≠ some j)
    {t : Task} (hi : w.tasks[i]? = some t) {userId : Uuid} {row row' : Account}
    (hrow : w.shared.users.find? userId = some row) (hstep : RowStep t userId row row')
    {password : Bytes} (hver : env.verify password row'.passwordHash = true) :
    env.verify password row.passwordHash = true ∨
      password ∈ choosesFor userId w (.resume i choice) := by
  rcases hstep with hsame | ⟨wr, hwr, hid, hhash, _⟩
  · rw [hsame.1] at hver
    exact Or.inl hver
  · subst hid
    rw [hhash] at hver
    have hhashed := h.hashed i t wr hi hwr
    unfold PasswordWrite.Hashed at hhashed
    have hchosen : ∀ q, wr.reason.password = some q → wr.reason.chosen = some q →
        password ∈ choosesFor wr.userId w (.resume i choice) := by
      intro q hq hc
      rw [hq] at hhashed
      obtain ⟨salt, hsalt⟩ := hhashed
      have heq := hasher.verifies_only q salt wr.hash password hsalt hver
      simp [choosesFor, passwordWrite_resume hi hwr, hc, heq]
    cases hreason : wr.reason with
    | rehash q =>
        -- the same password as before, for the hash that was verified is the one stored
        obtain ⟨user, hv, hid⟩ := (verified_of_write hwr).1 q hreason
        obtain ⟨hq, row₀, hrow₀, heq⟩ := h.overwrites hp hi hwr hv
        rw [hreason] at hhashed
        obtain ⟨salt, hsalt⟩ := hhashed
        have hpq := hasher.verifies_only q salt wr.hash password hsalt hver
        rw [hid, hrow] at hrow₀
        cases hrow₀
        exact Or.inl (by rw [heq, hpq]; exact hq)
    | reset new => exact Or.inr (hchosen new (by rw [hreason]; rfl) (by rw [hreason]; rfl))
    | change new => exact Or.inr (hchosen new (by rw [hreason]; rfl) (by rw [hreason]; rfl))
    | temporary q => exact Or.inr (hchosen q (by rw [hreason]; rfl) (by rw [hreason]; rfl))
    | erasure =>
        rw [hreason] at hhashed
        rw [show wr.hash = ERASED_PASSWORD_HASH from hhashed, hasher.erased] at hver
        cases hver

/-- The account of a step is still there after it, and its row has changed as `RowStep` says. -/
theorem step_row (env : Env) (w : Server) (l : Move) {userId : Uuid} {row : Account}
    (hrow : w.shared.users.find? userId = some row) :
    ∃ row', ((server env).step w l).shared.users.find? userId = some row' ∧
      (row' = row ∨ ∃ i choice t, l = .resume i choice ∧ w.tasks[i]? = some t ∧
        RowStep t userId row row') := by
  refine System.step_induction (S := server env) (P := fun w' => ∃ row',
      w'.shared.users.find? userId = some row' ∧ (row' = row ∨ ∃ i choice t,
        l = .resume i choice ∧ w.tasks[i]? = some t ∧ RowStep t userId row row'))
    (fun _ _ => ⟨row, hrow, Or.inl rfl⟩) (fun i choice t hl hi => ?_) ⟨row, hrow, Or.inl rfl⟩
    (fun e _ => ?_)
  · refine (password_step env choice w.shared t).mono (fun s' t' hstep => ?_)
    obtain ⟨row', hrow', hs⟩ := hstep.users _ _ hrow
    exact ⟨row', hrow', Or.inr ⟨i, choice, t, hl, hi, hs⟩⟩
  · cases e
    exact ⟨row, hrow, Or.inl rfl⟩

/-- Along a punctual run a password that verifies verified at its start, or was chosen. -/
theorem verifies_run (hasher : Hasher env) {userId : Uuid} :
    ∀ (ls : List Move) (late : List Nat) (w : Server) (row : Account), Fresh env late w →
      (server env).Punctual passwordChecks late w ls →
      w.shared.users.find? userId = some row →
      ∃ row', ((server env).run w ls).shared.users.find? userId = some row' ∧
        ∀ password, env.verify password row'.passwordHash = true →
          env.verify password row.passwordHash = true ∨
            password ∈ (server env).collect (choosesFor userId) w ls
  | [], _, _, row, _, _, hrow => ⟨row, hrow, fun _ h => Or.inl h⟩
  | l :: ls, late, w, row, h, hp, hrow => by
      obtain ⟨row₁, hrow₁, hstep⟩ := step_row env w l hrow
      obtain ⟨row', hrow', hrest⟩ := verifies_run hasher ls _ _ row₁ (h.step l) hp.2 hrow₁
      refine ⟨row', hrow', fun password hver => ?_⟩
      rcases hrest password hver with hver | hmem
      · rcases hstep with rfl | ⟨i, choice, t, rfl, hi, hstep⟩
        · exact Or.inl hver
        · exact (h.verifies_row hasher hp.1 hi hrow hstep hver).imp_right
            (List.mem_append_left _)
      · exact Or.inr (List.mem_append_right _ hmem)

end Parts

/-! ### Redeemed links -/

/-- Every coroutine that holds a redeemed link has redeemed it. -/
theorem redeemed_run (env : Env) {w : Server} (hw : Initial w) (ls : List Move) :
    ∀ (j : Nat) t userId, ((server env).run w ls).tasks[j]? = some t →
      t.redeemed = some userId → (j, userId) ∈ (server env).collect (redeems env) w ls := by
  have h := System.history_invariant (S := server env) (f := redeems env)
    (I := fun w h => ∀ (j : Nat) t userId, w.tasks[j]? = some t → t.redeemed = some userId →
      (j, userId) ∈ h) (A := fun _ _ => True) (fun w h l hw _ => ?_) ls w []
    (fun j t userId hj => by rw [hw.tasks] at hj; simp at hj) (System.along_true w ls)
  · simpa using h
  · refine System.step_induction (S := server env) (P := fun w' => ∀ (j : Nat) t userId,
      w'.tasks[j]? = some t → t.redeemed = some userId → (j, userId) ∈ h ++ redeems env w l)
      (fun r _ j t userId hj hr => ?_) (fun i choice t hl hi => ?_)
      (fun j t userId hj hr => List.mem_append_left _ (hw j t userId hj hr))
      (fun _ _ j t userId hj hr => List.mem_append_left _ (hw j t userId hj hr))
    · rcases System.mem_append_cases hj with hj | ⟨_, rfl⟩
      · exact List.mem_append_left _ (hw j t userId hj hr)
      · rw [show ((server env).entry r).redeemed = none from (entry_unproven r).2.2] at hr
        cases hr
    · refine (t.next_proof env choice w.shared).mono (fun s' t' hstep j u userId hj hr => ?_)
      rcases System.mem_set_cases hj with ⟨rfl, rfl⟩ | ⟨_, hj⟩
      · rcases hstep.redeemed userId hr with hold | hnew
        · exact List.mem_append_left _ (hw j t userId hi hold)
        · refine List.mem_append_right _ ?_
          subst hl
          unfold Task.redeems at hnew
          split at hnew
          · rename_i token new
            obtain ⟨link, hlink, rfl⟩ := Option.map_eq_some_iff.mp hnew
            simp [redeems, hi, hlink]
          · cases hnew
      · exact List.mem_append_left _ (hw j u userId hj hr)

/-! ## Every run -/

/-- The point of a punctual run in front of a step: nobody who has been overtaken acts in it. -/
theorem fresh_run (env : Env) {w : Server} (hw : Initial w) (pre post : List Move)
    (hp : (server env).Punctual passwordChecks [] w (pre ++ post)) :
    ∃ late, Fresh env late ((server env).run w pre) ∧
      (server env).Punctual passwordChecks late ((server env).run w pre) post := by
  refine System.punctual_invariant (I := Fresh env) (fun late w l h _ => h.step l) pre ?_ hp
  refine ⟨fun j t user password hj => ?_, fun j t wr hj => ?_⟩
  · rw [hw.tasks] at hj
    simp at hj
  · rw [hw.tasks] at hj
    simp at hj

/-- **No password write from a stale check**, in every run in which no login and no change of
password writes after another request has written the account's password. -/
theorem passwords_proven (env : Env) (hasher : Hasher env) (w : Server) (hw : Initial w)
    (ls : List Move) (hp : (server env).Punctual passwordChecks [] w ls) :
    PasswordsProven env w ls := by
  refine ⟨?_, ?_, ?_⟩
  · rintro pre i choice post t user password rfl hi hwr hv
    obtain ⟨late, hfresh, hrest⟩ := fresh_run env hw pre (.resume i choice :: post) hp
    obtain ⟨wr, hwr⟩ := Option.isSome_iff_exists.mp hwr
    exact hfresh.overwrites hrest.1 hi hwr hv
  · rintro pre l post i wr rfl _ row hrow hhash
    rw [List.append_cons] at hp
    obtain ⟨late, hfresh, hrest⟩ := fresh_run env hw (pre ++ [l]) post hp
    have := verifies_run hasher post late _ row hfresh hrest hrow
    rwa [hhash, ← System.run_append, ← List.append_cons] at this
  · rintro pre l post rfl userId row row' hrow hset hrow' hclear
    obtain ⟨late, hfresh, hrest⟩ := fresh_run env hw pre (l :: post) hp
    rw [System.run_append] at hrow'
    obtain ⟨row₁, hrow₁, hstep⟩ := step_row env ((server env).run w pre) l hrow
    rw [show (server env).run ((server env).run w pre) [l]
      = (server env).step ((server env).run w pre) l from rfl, hrow₁] at hrow'
    cases hrow'
    rcases hstep with rfl | ⟨i, choice, t, rfl, hi, hsame | ⟨wr, hwr, hid, _, hflag⟩⟩
    · rw [hset] at hclear
      cases hclear
    · rw [hsame.2, hset] at hclear
      cases hclear
    · refine ⟨i, choice, rfl, ?_⟩
      rcases hflag hclear with hold | ⟨new, hreset⟩ | ⟨new, hchange⟩
      · rw [hset] at hold
        cases hold
      · refine Or.inr (redeemed_run env hw pre i t userId hi ?_)
        rw [← hid]
        exact (verified_of_write hwr).2.2 new hreset
      · obtain ⟨user, password, hv, huser⟩ := (verified_of_write hwr).2.1 new hchange
        obtain ⟨hver, row₀, hrow₀, heq⟩ := hfresh.overwrites hrest.1 hi hwr hv
        rw [huser, hid, hrow] at hrow₀
        cases hrow₀
        exact Or.inl ⟨t, user, password, hi, hv, huser.trans hid, by rw [heq]; exact hver⟩

namespace Demo

theorem hasher : Hasher env := by
  refine ⟨fun password salt hash other hh hver => ?_, fun password => ?_⟩
  · cases hh
    have hver : currentParameters ++ password = currentParameters ++ other ∨
        currentParameters ++ password = earlierParameters ++ other := by
      simpa [env] using hver
    rcases hver with h | h
    · exact (List.append_cancel_left h).symm
    · -- the encodings differ in the first digit of the memory parameter
      have h12 := congrArg (fun bytes : Bytes => bytes[12]?) h
      have hl : (currentParameters ++ password)[12]? = some 54 := rfl
      have hr : (earlierParameters ++ other)[12]? = some 56 := rfl
      simp only [hl, hr] at h12
      cases h12
  · have hc : ∀ rest : Bytes, ERASED_PASSWORD_HASH ≠ currentParameters ++ rest := by
      intro rest h
      have h0 := congrArg List.head? h
      cases h0
    have he : ∀ rest : Bytes, ERASED_PASSWORD_HASH ≠ earlierParameters ++ rest := by
      intro rest h
      have h0 := congrArg List.head? h
      cases h0
    simp [env, hc, he]

/-- Task 0: ada's login has verified her password and hashed it with the current parameters. -/
def loggingIn : List Move :=
  .request (.login (ascii "ada@example.com") (ascii "password1") client) :: go 0 2

/-- Task 1: grace sets a temporary password on ada's account. -/
def temporarySet : List Move :=
  .request (.setTemporaryPassword asGrace (ascii "00000000-0000-0000-0000-000000000001"))
    :: drawing 0 0 "temporary1" 1 :: go 1 2

/-- The temporary password is set while ada's login is hashing; then the login stores. -/
def temporaryMidLogin : List Move := loggingIn ++ temporarySet ++ go 0 1

/-- Ada signs in, grace sets the temporary password, and ada changes it. -/
def temporaryChanged : List Move :=
  loggingIn ++ go 0 3 ++ [drawing 11 21 "t1" 0] ++ temporarySet ++
    .request (.changePassword 1 (ascii "temporary1") (ascii "password3") client) ::
      go 2 7 ++ [drawing 12 22 "t2" 2]

end Demo

theorem passwords_proven_temporaryChanged :
    PasswordsProven Demo.env Demo.start Demo.temporaryChanged :=
  passwords_proven Demo.env Demo.hasher Demo.start Demo.initial_start Demo.temporaryChanged
    (by decide +kernel)

/-- The login overwrites the hash of the temporary password with one of the password that was
replaced. -/
theorem temporaryMidLogin_undone :
    Hasher Demo.env ∧ Initial Demo.start ∧
      ¬ PasswordsProven Demo.env Demo.start Demo.temporaryMidLogin := by
  refine ⟨Demo.hasher, Demo.initial_start, fun h => ?_⟩
  obtain ⟨_, row, hrow, hhash⟩ := h.overwrites (Demo.loggingIn ++ Demo.temporarySet) 0
    ⟨0, 0, [], [], true⟩ [] (.login (.rehashPassword Demo.ada (ascii "password1")
      (Demo.currentParameters ++ ascii "password1") Demo.client)) Demo.ada (ascii "password1")
    (by rfl) (by rfl) rfl rfl
  have hstored : ((((server Demo.env).run Demo.start (Demo.loggingIn ++ Demo.temporarySet)).shared.users.find?
      1).map (·.passwordHash)) = some (Demo.currentParameters ++ ascii "temporary1") := by
    decide +kernel
  rw [show Demo.ada.id = 1 from rfl] at hrow
  rw [hrow, Option.map_some, hhash] at hstored
  exact absurd hstored (by decide +kernel)

end Launcher.Accounts
