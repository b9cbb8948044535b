import Launcher.Lib.Observations
import Launcher.Accounts.System

set_option autoImplicit false

/-! # What an access token asserts

An access token names an account and carries the permissions, the address and the flag of a
temporary password, so that a request costs no read of the database. A coroutine that answers
with a session reads them in two statements, and other coroutines run in between. Each of them
is nevertheless what the tables said at some moment after the coroutine arrived
(`answered_current`): whatever was revoked before the request for the session came in is not in
the token. -/

namespace Launcher.Accounts

open Launcher.Lib

/-! ## What the coroutines have read -/

/-- The row of the account a session is issued for. -/
def IssueSession.account : IssueSession → Option Account
  | .permissionsForUser user _ _ => some user
  | .store user _ _ _ => some user
  | .answered tokens => some tokens.user
  | .threw _ => none

def IssueSession.permissions : IssueSession → Option (List Permission)
  | .permissionsForUser _ _ _ => none
  | .store _ permissions _ _ => some permissions
  | .answered tokens => some tokens.permissions
  | .threw _ => none

def Login.account : Login → Option Account
  | .findByEmail _ _ _ => none
  | .hash user _ _ => some user
  | .rehashPassword user _ _ _ => some user
  | .recordSuccessfulLogin user _ => some user
  | .issuing t => t.account
  | .answered _ => none

def Refresh.account : Refresh → Option Account
  | .issuing t => t.account
  | _ => none

def ChangePassword.account : ChangePassword → Option Account
  | .findById _ _ _ _ => none
  | .hash user _ _ _ => some user
  | .updatePasswordHash user _ _ _ _ => some user
  | .revokeAllForUser user _ => some user
  | .invalidateAll user _ => some user
  | .findUpdated user _ => some user
  | .issuing t => t.account
  | .answered _ => none

/-- The row of the account a coroutine has admitted. -/
def Task.account : Task → Option Account
  | .login t => t.account
  | .refresh t => t.account
  | .changePassword t => t.account
  | _ => none

/-- The coroutine that is issuing a session. -/
def Task.session : Task → Option IssueSession
  | .login (.issuing t) => some t
  | .refresh (.issuing t) => some t
  | .changePassword (.issuing t) => some t
  | _ => none

def Task.permissions (t : Task) : Option (List Permission) :=
  t.session.bind IssueSession.permissions

/-- The session a coroutine has answered with. -/
def Task.tokens (t : Task) : Option AuthTokens :=
  match t.session with
  | some (.answered tokens) => some tokens
  | _ => none

/-- What a coroutine has read of the tables. -/
inductive Reading
  | row (user : Account)
  | active (userId : Uuid)
  | held (userId : Uuid) (permissions : List Permission)
  | issued (tokens : AuthTokens)

/-- What a reading says of the tables. -/
def Reading.Holds : Reading → State → Prop
  | .row user, s => user ∈ s.users
  | .active userId, s => ∃ user ∈ s.users, user.id = userId ∧ user.isActive = true
  | .held userId permissions, s => s.permissionsForUser userId = permissions
  | .issued tokens, _ => tokens = issuedTokens tokens.user tokens.permissions tokens.refreshToken

/-- The readings in a coroutine's frame. -/
def Task.Read (t : Task) : Reading → Prop
  | .row user => t.account = some user
  | .active userId => ∃ user, t.account = some user ∧ user.id = userId
  | .held userId permissions =>
      ∃ user, t.account = some user ∧ user.id = userId ∧ t.permissions = some permissions
  | .issued tokens => t.tokens = some tokens

/-! ## One step of a coroutine -/

section Step

variable {env : Env} {choice : Choice} {s : State} {t t' : Task}

/-- What the step adds to the readings is true in the state it is made in. -/
def Reads (s : State) (t t' : Task) : Prop :=
  ∀ reading, t'.Read reading → t.Read reading ∨ reading.Holds s

theorem Reads.of_none (haccount : t'.account = none) (htokens : t'.tokens = none) :
    Reads s t t' := by
  intro reading h
  cases reading with
  | row user => exact absurd (haccount.symm.trans h) (by simp)
  | active userId =>
      obtain ⟨user, hu, -⟩ := h
      exact absurd (haccount.symm.trans hu) (by simp)
  | held userId permissions =>
      obtain ⟨user, hu, -⟩ := h
      exact absurd (haccount.symm.trans hu) (by simp)
  | issued tokens => exact absurd (htokens.symm.trans h) (by simp)

/-- A step of a coroutine that has admitted an account and is not issuing yet. -/
theorem Reads.of_same (haccount : t'.account = t.account) (hsession : t'.permissions = none)
    (htokens : t'.tokens = none) : Reads s t t' := by
  intro reading h
  left
  cases reading with
  | row user => exact haccount.symm.trans h
  | active userId =>
      obtain ⟨user, hu, hid⟩ := h
      exact ⟨user, haccount.symm.trans hu, hid⟩
  | held userId permissions =>
      obtain ⟨user, -, -, hp⟩ := h
      exact absurd (hsession.symm.trans hp) (by simp)
  | issued tokens => exact absurd (htokens.symm.trans h) (by simp)

/-- The row has just been read, of an account that is active or was admitted before. -/
theorem Reads.of_row {user : Account} (hmem : user ∈ s.users)
    (hactive : user.isActive = true ∨ t.Read (.active user.id))
    (haccount : t'.account = some user) (hsession : t'.permissions = none)
    (htokens : t'.tokens = none) : Reads s t t' := by
  intro reading h
  cases reading with
  | row other =>
      right
      obtain rfl := Option.some.inj (haccount.symm.trans h)
      exact hmem
  | active userId =>
      obtain ⟨other, hu, rfl⟩ := h
      obtain rfl := Option.some.inj (haccount.symm.trans hu)
      rcases hactive with hactive | hread
      · exact Or.inr ⟨user, hmem, rfl, hactive⟩
      · exact Or.inl hread
  | held userId permissions =>
      obtain ⟨other, -, -, hp⟩ := h
      exact absurd (hsession.symm.trans hp) (by simp)
  | issued tokens => exact absurd (htokens.symm.trans h) (by simp)

/-- The two steps of `issueSession`, in whichever coroutine it is awaited. -/
theorem IssueSession.next_reads {f : IssueSession → Task} (hsession : ∀ u, (f u).session = some u)
    (haccount : ∀ u, (f u).account = u.account) (u : IssueSession) :
    (u.next.map f).Wp (exec env) choice s (fun _ t' => Reads s (f u) t') := by
  have hpermissions : ∀ u, (f u).permissions = u.permissions := fun u => by
    rw [Task.permissions, hsession, Option.bind_some]
  have hback : ∀ {u u' : IssueSession} {other : Account}, (f u').account = some other →
      u'.account = u.account → (f u).account = some other := fun h hsame =>
    (haccount _).trans (hsame.symm.trans ((haccount _).symm.trans h))
  rw [Suspended.wp_map]
  cases u with
  | permissionsForUser user origin client =>
      rintro r s' e reading h
      cases e
      cases reading with
      | row other =>
          left
          exact hback h rfl
      | active userId =>
          left
          obtain ⟨other, hu, hid⟩ := h
          exact ⟨other, hback hu rfl, hid⟩
      | held userId permissions =>
          -- the permissions have just been read, of the account whose row is in the frame
          right
          obtain ⟨other, hu, rfl, hp⟩ := h
          rw [haccount] at hu
          rw [hpermissions] at hp
          cases hu
          exact Option.some.inj hp
      | issued tokens =>
          have htokens : some tokens = none := h.symm.trans (by rw [Task.tokens, hsession])
          cases htokens
  | store user permissions origin client =>
      intro r s' e reading h
      cases r with
      | error err =>
          refine Reads.of_none ((haccount _).trans rfl) ?_ reading h
          rw [Task.tokens, hsession]
      | ok reply =>
          have hanswered : ∀ tokens, (f (.answered tokens)).tokens = some tokens := fun tokens => by
            rw [Task.tokens, hsession]
          cases reading with
          | row other =>
              left
              exact hback h rfl
          | active userId =>
              left
              obtain ⟨other, hu, hid⟩ := h
              exact ⟨other, hback hu rfl, hid⟩
          | held userId held =>
              left
              obtain ⟨other, hu, hid, hp⟩ := h
              refine ⟨other, hback hu rfl, hid, ?_⟩
              rw [hpermissions] at hp ⊢
              exact hp
          | issued tokens =>
              right
              obtain rfl := Option.some.inj ((hanswered _).symm.trans h)
              rfl
  | answered tokens => trivial
  | threw e => trivial

theorem admitLogin_reads {password : Bytes} {client : ClientContext} {found : Option Account}
    (hfound : ∀ user, found = some user → user ∈ s.users) :
    Reads s t (.login (admitLogin env password client found)) := by
  unfold admitLogin
  cases found with
  | none => exact .of_none rfl rfl
  | some user =>
      dsimp only
      split_ifs with hverify hactive hverified hrehash
      · exact .of_none rfl rfl
      · exact .of_none rfl rfl
      · exact .of_none rfl rfl
      · exact .of_row (hfound user rfl) (Or.inl (by simpa using hactive)) rfl rfl rfl
      · exact .of_row (hfound user rfl) (Or.inl (by simpa using hactive)) rfl rfl rfl

theorem admitChange_reads {current new : Bytes} {client : ClientContext} {found : Option Account}
    (hfound : ∀ user, found = some user → user ∈ s.users) :
    Reads s t (.changePassword (admitChange env current new client found)) := by
  unfold admitChange
  cases found with
  | none => exact .of_none rfl rfl
  | some user =>
      dsimp only
      split_ifs with hverify hactive hsame
      · exact .of_none rfl rfl
      · exact .of_none rfl rfl
      · exact .of_none rfl rfl
      · exact .of_row (hfound user rfl) (Or.inl (by simpa using hactive)) rfl rfl rfl

theorem Login.next_reads (t : Login) :
    ((Task.login t).next env).Wp (exec env) choice s (fun _ t' => Reads s (.login t) t') := by
  cases t with
  | findByEmail email password client =>
      rintro r s' e
      cases e
      exact admitLogin_reads (fun user h => List.mem_of_find?_eq_some h)
  | hash user password client =>
      intro r s' e
      cases r <;> exact .of_same rfl rfl rfl
  | rehashPassword user password upgraded client => exact fun _ _ _ => .of_same rfl rfl rfl
  | recordSuccessfulLogin user client => exact fun _ _ _ => .of_same rfl rfl rfl
  | issuing t =>
      show ((t.next.map Login.issuing).map Task.login).Wp _ _ _ _
      rw [Suspended.wp_map, Suspended.wp_map]
      exact (Suspended.wp_map _ _ _).mp (IssueSession.next_reads
        (f := fun u => .login (.issuing u)) (fun _ => rfl) (fun _ => rfl) t)
  | answered result => trivial

theorem Refresh.next_reads (t : Refresh) :
    ((Task.refresh t).next env).Wp (exec env) choice s (fun _ t' => Reads s (.refresh t) t') := by
  cases t with
  | findByHash refreshToken client =>
      intro r s' e
      dsimp only
      unfold admitRefresh
      split
      · exact .of_none rfl rfl
      · split_ifs <;> exact .of_none rfl rfl
  | findUser stored client =>
      rintro r s' e
      cases e
      cases hf : s.users.find? stored.userId with
      | none => exact .of_none rfl rfl
      | some user =>
          dsimp only
          split_ifs with hactive
          · exact .of_none rfl rfl
          · exact .of_row (Table.mem_of_find? hf) (Or.inl (by simpa using hactive)) rfl rfl rfl
  | issuing t =>
      show ((t.next.map Refresh.issuing).map Task.refresh).Wp _ _ _ _
      rw [Suspended.wp_map, Suspended.wp_map]
      exact (Suspended.wp_map _ _ _).mp (IssueSession.next_reads
        (f := fun u => .refresh (.issuing u)) (fun _ => rfl) (fun _ => rfl) t)
  | answered result => trivial
  | _ => exact fun _ _ _ => .of_none rfl rfl

theorem ChangePassword.next_reads (t : ChangePassword) :
    ((Task.changePassword t).next env).Wp (exec env) choice s
      (fun _ t' => Reads s (.changePassword t) t') := by
  cases t with
  | findById userId current new client =>
      rintro r s' e
      cases e
      exact admitChange_reads (fun user h => Table.mem_of_find? h)
  | hash user current new client =>
      intro r s' e
      cases r with
      | error err => exact .of_none rfl rfl
      | ok passwordHash => exact .of_same rfl rfl rfl
  | findUpdated user client =>
      rintro r s' e
      cases e
      cases hf : s.users.find? user.id with
      | none => exact .of_none rfl rfl
      | some updated =>
          have hid : updated.id = user.id := Table.key_of_find? hf
          -- the row is read again, of the account that was admitted
          exact .of_row (Table.mem_of_find? hf) (Or.inr ⟨user, rfl, hid.symm⟩) rfl rfl rfl
  | issuing t =>
      show ((t.next.map ChangePassword.issuing).map Task.changePassword).Wp _ _ _ _
      rw [Suspended.wp_map, Suspended.wp_map]
      exact (Suspended.wp_map _ _ _).mp (IssueSession.next_reads
        (f := fun u => .changePassword (.issuing u)) (fun _ => rfl) (fun _ => rfl) t)
  | answered result => trivial
  | _ => exact fun _ _ _ => .of_same rfl rfl rfl

/-- **What a step of a coroutine has read.** -/
theorem Task.next_reads (t : Task) :
    (t.next env).Wp (exec env) choice s (fun _ t' => Reads s t t') := by
  have other : ∀ {τ : Type} (x : Suspended Call τ) (f : τ → Task), (∀ u, (f u).account = none) →
      (∀ u, (f u).tokens = none) →
      (x.map f).Wp (exec env) choice s (fun _ t' => Reads s t t') := by
    intro τ x f haccount htokens
    cases x with
    | done => trivial
    | call c k => exact fun _ _ _ => .of_none (haccount _) (htokens _)
  cases t with
  | login t => exact t.next_reads
  | refresh t => exact t.next_reads
  | changePassword t => exact t.next_reads
  | _ => exact other _ _ (fun _ => rfl) (fun _ => rfl)

end Step

/-! ## Every run -/

theorem entry_reads (r : Request) (reading : Reading) : ¬(entry r).Read reading := by
  have hblank : (entry r).account = none ∧ (entry r).tokens = none := by
    cases r with
    | changePassword userId current new client =>
        show Task.account (.changePassword (changePassword _ _ _ _)) = none ∧
          Task.tokens (.changePassword (changePassword _ _ _ _)) = none
        unfold changePassword
        split <;> exact ⟨rfl, rfl⟩
    | _ => exact ⟨rfl, rfl⟩
  obtain ⟨haccount, htokens⟩ := hblank
  intro h
  cases reading with
  | row user => exact absurd (haccount.symm.trans h) (by simp)
  | active userId =>
      obtain ⟨user, hu, -⟩ := h
      exact absurd (haccount.symm.trans hu) (by simp)
  | held userId permissions =>
      obtain ⟨user, hu, -⟩ := h
      exact absurd (haccount.symm.trans hu) (by simp)
  | issued tokens => exact absurd (htokens.symm.trans h) (by simp)

theorem Task.read_of_tokens {t : Task} {tokens : AuthTokens} (h : t.tokens = some tokens) :
    t.account = some tokens.user ∧ t.permissions = some tokens.permissions := by
  unfold Task.tokens at h
  split at h
  case h_1 answered hsession =>
    obtain rfl := Option.some.inj h
    refine ⟨?_, by rw [Task.permissions, hsession]; rfl⟩
    cases t with
    | login t => cases t <;> cases hsession; rfl
    | refresh t => cases t <;> cases hsession; rfl
    | changePassword t => cases t <;> cases hsession; rfl
    | _ => cases hsession
  case h_2 => cases h

/-- Each part of what the token asserts was so at some moment since the coroutine `j` arrived. -/
structure Current (env : Env) (w : Server) (ls : List Move) (j : Nat)
    (claims : AccessTokenClaims) : Prop where
  row : (server env).Since w ls j (fun s => ∃ user ∈ s.users, user.id = claims.userId ∧
    user.email = claims.email ∧ user.passwordChangeRequired = claims.passwordChangeRequired)
  active : (server env).Since w ls j (fun s => ∃ user ∈ s.users, user.id = claims.userId ∧
    user.isActive = true)
  permissions : (server env).Since w ls j
    (fun s => s.permissionsForUser claims.userId = claims.permissions)

/-- **A token is no older than the request for it.** In every interleaving, the session a login,
a refresh or a change of password answers with asserts what the tables said of an active account
at moments after the coroutine arrived; so it carries no permission that was taken away before. -/
theorem answered_current (env : Env) {w : Server} (hw : Initial w) (ls : List Move) {j : Nat}
    {t : Task} {tokens : AuthTokens} (hj : ((server env).run w ls).tasks[j]? = some t)
    (ht : t.tokens = some tokens) :
    Current env w ls j tokens.accessToken ∧
      ∀ pre post permission, ls = pre ++ post → ((server env).run w pre).tasks.length ≤ j →
        (∀ pre' post', post = pre' ++ post' → ¬((server env).run w (pre ++ pre')).shared.holds
          tokens.accessToken.userId permission = true) →
        permission ∉ tokens.accessToken.permissions := by
  have hread : ∀ reading, t.Read reading → (server env).Since w ls j reading.Holds :=
    fun reading h => System.observed_since (S := server env) entry_reads
      (fun choice s t => t.next_reads) hw.tasks ls j t reading hj h
  obtain ⟨haccount, hpermissions⟩ := Task.read_of_tokens ht
  obtain ⟨_, _, _, _, hissued⟩ := hread (.issued tokens) ht
  have hclaims : tokens.accessToken = ⟨tokens.user.id, tokens.user.email, tokens.permissions,
      tokens.user.passwordChangeRequired⟩ := congrArg AuthTokens.accessToken hissued
  have hheld : (server env).Since w ls j
      (fun s => s.permissionsForUser tokens.user.id = tokens.permissions) :=
    hread (.held tokens.user.id tokens.permissions) ⟨tokens.user, haccount, rfl, hpermissions⟩
  rw [hclaims]
  refine ⟨⟨?row, hread (.active tokens.user.id) ⟨tokens.user, haccount, rfl⟩, hheld⟩, ?revoked⟩
  case row =>
    exact (hread (.row tokens.user) haccount).mono (fun s h => ⟨tokens.user, h, rfl, rfl, rfl⟩)
  case revoked =>
    rintro pre post permission rfl harrived hrevoked hmem
    obtain ⟨pre', post', hpost, hthen⟩ := hheld.after harrived
    refine hrevoked pre' post' hpost ?_
    rw [← hthen] at hmem
    exact (List.mem_filter.mp hmem).2

/-- What grace's token asserts. -/
theorem answered_current_signedIn :
    Current Demo.env Demo.start Demo.signedIn 0
      ⟨2, ascii "grace@example.com", Demo.adminPermissions, false⟩ := by
  have hanswered : ((server Demo.env).run Demo.start Demo.signedIn).tasks[0]? =
      some (.login (.issuing (.answered
        (issuedTokens Demo.grace Demo.adminPermissions (ascii "t1"))))) := by
    rfl
  exact (answered_current Demo.env Demo.initial_start Demo.signedIn hanswered rfl).1

end Launcher.Accounts
