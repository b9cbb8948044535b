import Launcher.Accounts.Tokens

set_option autoImplicit false

/-! # Sessions: what a coroutine that issues a token has checked

A login and a change of password check a password, a refresh checks a token; each then makes
further calls before it inserts the row of the new token. `Task.check` is the check a coroutine
is acting on, and `task_step` says what one step of a coroutine does to the tokens and to its
check. `Sound` collects what follows for every reachable world: ids and hashes are not reused,
and a family belongs to one account. -/

namespace Launcher.Accounts

open Launcher.Lib

/-! ## Checks -/

/-- The account a password or token was checked for, and the record of the token. -/
abbrev Check := Uuid × Option RefreshTokenRecord

def IssueSession.check : IssueSession → Option Check
  | .permissionsForUser user origin _ => some (user.id, origin)
  | .store user _ origin _ => some (user.id, origin)
  | .answered _ => none
  | .threw _ => none

def Login.check : Login → Option Check
  | .findByEmail _ _ _ => none
  | .hash user _ _ => some (user.id, none)
  | .rehashPassword user _ _ _ => some (user.id, none)
  | .recordSuccessfulLogin user _ => some (user.id, none)
  | .issuing t => t.check
  | .answered _ => none

def Refresh.check : Refresh → Option Check
  | .findUser stored _ => some (stored.userId, some stored)
  | .issuing t => t.check
  | _ => none

def ChangePassword.check : ChangePassword → Option Check
  | .findById _ _ _ _ => none
  | .hash user _ _ _ => some (user.id, none)
  | .updatePasswordHash user _ _ _ _ => some (user.id, none)
  | .revokeAllForUser user _ => some (user.id, none)
  | .invalidateAll user _ => some (user.id, none)
  | .findUpdated user _ => some (user.id, none)
  | .issuing t => t.check
  | .answered _ => none

/-- The check a coroutine is acting on: it has passed, and the token it is for has not been
issued yet. -/
def Task.check : Task → Option Check
  | .login t => t.check
  | .refresh t => t.check
  | .changePassword t => t.check
  | _ => none

/-- The token a coroutine is about to rotate, with the rest of what the statement takes. -/
def IssueSession.rotation : IssueSession → Option (RefreshTokenRecord × Account × ClientContext)
  | .store user _ (some stored) client => some (stored, user, client)
  | _ => none

def Task.rotation : Task → Option (RefreshTokenRecord × Account × ClientContext)
  | .login (.issuing t) => t.rotation
  | .refresh (.issuing t) => t.rotation
  | .changePassword (.issuing t) => t.rotation
  | _ => none

/-- The check has just been made, against the state `s`. -/
def Checked (s : State) : Check → Prop
  | (userId, none) => ∃ user ∈ s.users, user.id = userId
  | (userId, some stored) =>
      ∃ row ∈ s.refreshTokens, row.live = true ∧ row.userId = userId ∧ stored = row.read s.now

/-- What is known of a row that a step of the coroutine `t` inserts. -/
structure New (t : Task) (s s' : State) (row : RefreshToken) : Prop where
  fresh : row.id ∉ s.issued
  drawn : s'.issued.head? = some row.id
  tokenHash : ∀ r ∈ s.refreshTokens, r.tokenHash ≠ row.tokenHash
  live : row.live = true
  origin :
    (t.check = some (row.userId, none) ∧ row.familyId ∉ s.issued ∧ row.familyId ∈ s'.issued) ∨
      ∃ stored user client, t.rotation = some (stored, user, client) ∧
        t.check = some (row.userId, some stored) ∧ stored.familyId = row.familyId ∧
        (stored.id ∈ s.issued → ∀ r ∈ s'.refreshTokens, r.id = stored.id → r.live = false)

/-- What a step of a coroutine does to the refresh tokens and to its check. -/
structure SessionStep (s : State) (t : Task) (s' : State) (t' : Task) : Prop where
  issued : ∀ id ∈ s.issued, id ∈ s'.issued
  rows : ∀ row' ∈ s'.refreshTokens,
    (∃ row ∈ s.refreshTokens, Later row row') ∨ New t s s' row'
  check : ∀ chk, t'.check = some chk → t.check = some chk ∨ (Checked s chk ∧ s' = s)

/-! ## One step of a coroutine -/

/-- The call inserts a row only for the account and family of the check. -/
structure Backed (check : Option Check)
    (rotation : Option (RefreshTokenRecord × Account × ClientContext)) {α : Type} (c : Call α) :
    Prop where
  opens : ∀ userId, c.opens = some userId → check = some (userId, none)
  rotates : ∀ previousId userId familyId, c.rotates = some (previousId, userId, familyId) →
    ∃ stored user client, rotation = some (stored, user, client) ∧
      check = some (userId, some stored) ∧ stored.id = previousId ∧ stored.familyId = familyId

/-- A call that inserts no row. -/
theorem Backed.of_none {check : Option Check}
    {rotation : Option (RefreshTokenRecord × Account × ClientContext)} {α : Type} {c : Call α}
    (ho : c.opens = none) (hr : c.rotates = none) : Backed check rotation c where
  opens _ h := by rw [ho] at h; cases h
  rotates _ _ _ h := by rw [hr] at h; cases h

theorem IssueSession.next_backed (t : IssueSession) :
    t.next.All (fun c _ => Backed t.check t.rotation c) := by
  cases t with
  | permissionsForUser user origin client => exact .of_none rfl rfl
  | store user permissions origin client =>
      cases origin with
      | none =>
          refine ⟨fun userId h => ?_, fun _ _ _ h => by cases h⟩
          cases h
          rfl
      | some stored =>
          refine ⟨fun _ h => (by cases h), fun previousId userId familyId h => ?_⟩
          cases h
          exact ⟨stored, user, client, rfl, rfl, rfl, rfl⟩
  | answered tokens => trivial
  | threw e => trivial

/-- A coroutine that inserts a row acts on a check of that account and family. -/
theorem Task.next_backed (env : Env) (t : Task) :
    (t.next env).All (fun c _ => Backed t.check t.rotation c) := by
  cases t with
  | login t =>
      cases t with
      | issuing t =>
          exact (Suspended.all_map _ _ _).mpr ((Suspended.all_map _ _ _).mpr t.next_backed)
      | _ => first | trivial | exact .of_none rfl rfl
  | refresh t =>
      cases t with
      | issuing t =>
          exact (Suspended.all_map _ _ _).mpr ((Suspended.all_map _ _ _).mpr t.next_backed)
      | _ => first | trivial | exact .of_none rfl rfl
  | changePassword t =>
      cases t with
      | issuing t =>
          exact (Suspended.all_map _ _ _).mpr ((Suspended.all_map _ _ _).mpr t.next_backed)
      | _ => first | trivial | exact .of_none rfl rfl
  | registerUser t =>
      cases t with
      | sending user t => cases t <;> first | trivial | exact .of_none rfl rfl
      | _ => first | trivial | exact .of_none rfl rfl
  | resendVerification t =>
      cases t with
      | sending t => cases t <;> first | trivial | exact .of_none rfl rfl
      | _ => first | trivial | exact .of_none rfl rfl
  | logout t => cases t <;> first | trivial | exact .of_none rfl rfl
  | verifyEmail t => cases t <;> first | trivial | exact .of_none rfl rfl
  | requestPasswordReset t => cases t <;> first | trivial | exact .of_none rfl rfl
  | resetPassword t => cases t <;> first | trivial | exact .of_none rfl rfl
  | setUploadQuota t => cases t <;> first | trivial | exact .of_none rfl rfl
  | setActive t => cases t <;> first | trivial | exact .of_none rfl rfl
  | setTemporaryPassword t => cases t <;> first | trivial | exact .of_none rfl rfl
  | changeRole t => cases t <;> first | trivial | exact .of_none rfl rfl
  | erase t => cases t <;> first | trivial | exact .of_none rfl rfl

/-! ### Where a check comes from -/

/-- After the step the coroutine acts on the check it acted on before, or on one it has just
made. -/
def CheckStep (s : State) (t : Task) (s' : State) (t' : Task) : Prop :=
  ∀ chk, t'.check = some chk → t.check = some chk ∨ (Checked s chk ∧ s' = s)

theorem checked_findByEmail {env : Env} {s : State} {email : Bytes} {user : Account}
    (h : s.findByEmail env email = some user) : Checked s (user.id, none) :=
  ⟨user, List.mem_of_find?_eq_some h, rfl⟩

theorem checked_findById {s : State} {id : Uuid} {user : Account}
    (h : s.users.find? id = some user) : Checked s (user.id, none) :=
  ⟨user, Table.mem_of_find? h, rfl⟩

theorem checked_findByHash {s : State} {tokenHash : Bytes} {stored : RefreshTokenRecord}
    (h : s.findByHash tokenHash = some stored) (hl : stored.revoked = false) :
    Checked s (stored.userId, some stored) := by
  unfold State.findByHash at h
  cases hf : s.refreshTokens.rows.find? (fun t => t.tokenHash == tokenHash) with
  | none => rw [hf] at h; cases h
  | some row =>
      rw [hf] at h
      cases h
      refine ⟨row, List.mem_of_find?_eq_some hf, ?_, rfl, rfl⟩
      simpa [RefreshToken.read] using hl

theorem admitLogin_check {env : Env} {password : Bytes} {client : ClientContext}
    {found : Option Account} {chk : Check}
    (h : (admitLogin env password client found).check = some chk) :
    ∃ user, found = some user ∧ chk = (user.id, none) := by
  unfold admitLogin at h
  cases found with
  | none => cases h
  | some user =>
      refine ⟨user, rfl, ?_⟩
      dsimp only at h
      split_ifs at h <;> first | (cases h; rfl) | cases h

theorem admitChange_check {env : Env} {current new : Bytes} {client : ClientContext}
    {found : Option Account} {chk : Check}
    (h : (admitChange env current new client found).check = some chk) :
    ∃ user, found = some user ∧ chk = (user.id, none) := by
  unfold admitChange at h
  cases found with
  | none => cases h
  | some user =>
      refine ⟨user, rfl, ?_⟩
      dsimp only at h
      split_ifs at h <;> first | (cases h; rfl) | cases h

theorem admitRefresh_check {client : ClientContext} {found : Option RefreshTokenRecord}
    {chk : Check} (h : (admitRefresh client found).check = some chk) :
    ∃ stored, found = some stored ∧ stored.revoked = false ∧
      chk = (stored.userId, some stored) := by
  unfold admitRefresh at h
  cases found with
  | none => cases h
  | some stored =>
      dsimp only at h
      split_ifs at h with hr he
      · cases h
      · cases h
      · cases h
        exact ⟨stored, rfl, by simpa using hr, rfl⟩

theorem IssueSession.next_check (env : Env) (choice : Choice) (s : State) (t : IssueSession) :
    t.next.Wp (exec env) choice s (fun _ t' => ∀ chk, t'.check = some chk → t.check = some chk) := by
  cases t with
  | permissionsForUser user origin client =>
      intro r s' e chk h
      exact h
  | store user permissions origin client =>
      intro r s' e chk h
      cases r with
      | error e => cases h
      | ok reply => cases h
  | answered tokens => trivial
  | threw e => trivial

theorem Login.next_check (env : Env) (choice : Choice) (s : State) (t : Login) :
    (t.next env).Wp (exec env) choice s (fun s' t' => CheckStep s (.login t) s' (.login t')) := by
  cases t with
  | findByEmail email password client =>
      rintro r s' e chk h
      cases e
      obtain ⟨user, hf, rfl⟩ := admitLogin_check h
      exact Or.inr ⟨checked_findByEmail hf, rfl⟩
  | hash user password client =>
      intro r s' e chk h
      cases r <;> exact Or.inl h
  | rehashPassword user password upgraded client => exact fun _ _ _ _ h => Or.inl h
  | recordSuccessfulLogin user client => exact fun _ _ _ _ h => Or.inl h
  | issuing t =>
      exact (Suspended.wp_map _ _ _).mpr
        ((t.next_check env choice s).mono (fun s' t' h chk hc => Or.inl (h chk hc)))
  | answered result => trivial

theorem Refresh.next_check (env : Env) (choice : Choice) (s : State) (t : Refresh) :
    (t.next env).Wp (exec env) choice s
      (fun s' t' => CheckStep s (.refresh t) s' (.refresh t')) := by
  cases t with
  | findByHash refreshToken client =>
      rintro r s' e chk h
      cases e
      obtain ⟨stored, hf, hl, rfl⟩ := admitRefresh_check h
      exact Or.inr ⟨checked_findByHash hf hl, rfl⟩
  | findUser stored client =>
      rintro r s' e chk h
      cases e
      -- the account is looked up by the id in the token's record
      cases hf : s.users.find? stored.userId with
      | none => rw [hf] at h; cases h
      | some user =>
          simp only [hf] at h
          have hid : user.id = stored.userId := Table.key_of_find? hf
          split_ifs at h
          · cases h
          · cases h
            exact Or.inl (by rw [hid]; rfl)
  | issuing t =>
      exact (Suspended.wp_map _ _ _).mpr
        ((t.next_check env choice s).mono (fun s' t' h chk hc => Or.inl (h chk hc)))
  | answered result => trivial
  | _ => exact fun _ _ _ _ h => by cases h

theorem ChangePassword.next_check (env : Env) (choice : Choice) (s : State) (t : ChangePassword) :
    (t.next env).Wp (exec env) choice s
      (fun s' t' => CheckStep s (.changePassword t) s' (.changePassword t')) := by
  cases t with
  | findById userId current new client =>
      rintro r s' e chk h
      cases e
      obtain ⟨user, hf, rfl⟩ := admitChange_check h
      exact Or.inr ⟨checked_findById hf, rfl⟩
  | hash user current new client =>
      intro r s' e chk h
      cases r with
      | error e => cases h
      | ok passwordHash => exact Or.inl h
  | findUpdated user client =>
      rintro r s' e chk h
      cases e
      cases hf : s.users.find? user.id with
      | none => rw [hf] at h; cases h
      | some updated =>
          have hid : updated.id = user.id := Table.key_of_find? hf
          rw [hf] at h
          cases h
          exact Or.inl (by rw [hid]; rfl)
  | issuing t =>
      exact (Suspended.wp_map _ _ _).mpr
        ((t.next_check env choice s).mono (fun s' t' h chk hc => Or.inl (h chk hc)))
  | answered result => trivial
  | _ => exact fun _ _ _ _ h => Or.inl h

theorem Task.next_check (env : Env) (choice : Choice) (s : State) (t : Task) :
    (t.next env).Wp (exec env) choice s (CheckStep s t) := by
  have other : ∀ {τ : Type} (x : Suspended Call τ) (f : τ → Task), (∀ u, (f u).check = none) →
      (x.map f).Wp (exec env) choice s (CheckStep s t) := by
    intro τ x f hf
    cases x with
    | done => trivial
    | call c k =>
        intro r s' e chk h
        rw [hf] at h
        cases h
  cases t with
  | login t => exact (Suspended.wp_map _ _ _).mpr (t.next_check env choice s)
  | refresh t => exact (Suspended.wp_map _ _ _).mpr (t.next_check env choice s)
  | changePassword t => exact (Suspended.wp_map _ _ _).mpr (t.next_check env choice s)
  | _ => exact other _ _ (fun _ => rfl)

/-- **What a step of a coroutine does to the refresh tokens and to its check.** -/
theorem task_step (env : Env) (choice : Choice) (s : State) (t : Task) :
    (t.next env).Wp (exec env) choice s (SessionStep s t) := by
  have htokens : (t.next env).Wp (exec env) choice s (fun s' _ =>
      (∀ id ∈ s.issued, id ∈ s'.issued) ∧ ∀ row' ∈ s'.refreshTokens,
        (∃ row ∈ s.refreshTokens, Later row row') ∨ New t s s' row') := by
    refine (t.next_backed env).wp (fun c k hc r s' e => ?_)
    have hafter := exec_tokens env choice c s
    rw [e] at hafter
    refine ⟨hafter.issued, fun row' h => (hafter.rows row' h).imp_right (fun hi => ?_)⟩
    refine ⟨hi.fresh, hi.drawn, hi.tokenHash, hi.live, hi.origin.imp ?_ ?_⟩
    · exact fun ⟨ho, hf, hd⟩ => ⟨hc.opens _ ho, hf, hd⟩
    · rintro ⟨previousId, hr, hdead⟩
      obtain ⟨stored, user, client, hrot, hs, rfl, hfam⟩ := hc.rotates _ _ _ hr
      exact ⟨stored, user, client, hrot, hs, hfam, hdead⟩
  exact (htokens.and (t.next_check env choice s)).mono
    (fun s' t' h => ⟨h.1.1, h.1.2, h.2⟩)

/-! ## What holds in every reachable world -/

/-- A row of the family, or a coroutine that is about to insert one, is of the account. -/
inductive Claims (w : Server) (familyId userId : Uuid) : Prop
  | row (row : RefreshToken) (hrow : row ∈ w.shared.refreshTokens) (hf : row.familyId = familyId)
      (hu : row.userId = userId)
  | task (j : Nat) (t : Task) (stored : RefreshTokenRecord) (hj : w.tasks[j]? = some t)
      (hc : t.check = some (userId, some stored)) (hf : stored.familyId = familyId)

structure Sound (w : Server) : Prop where
  ids : ∀ row ∈ w.shared.refreshTokens, row.id ∈ w.shared.issued
  hashes : ∀ row ∈ w.shared.refreshTokens, ∀ row' ∈ w.shared.refreshTokens,
    row.tokenHash = row'.tokenHash → row.id = row'.id
  families : ∀ familyId userId, Claims w familyId userId → familyId ∈ w.shared.issued
  owner : ∀ familyId userId userId', Claims w familyId userId → Claims w familyId userId' →
    userId = userId'
  known : ∀ (j : Nat) t userId stored, w.tasks[j]? = some t →
    t.check = some (userId, some stored) → stored.id ∈ w.shared.issued ∧
      ∀ row ∈ w.shared.refreshTokens, row.id = stored.id → row.familyId = stored.familyId

theorem entry_check (r : Request) : (entry r).check = none := by
  cases r with
  | changePassword userId current new client =>
      show (changePassword userId current new client).check = none
      unfold changePassword
      split <;> rfl
  | _ => rfl

section Step

variable {w : Server} {i : Nat} {t t' : Task} {s' : State}

/-- A claim on a family after a step was there before, or the step starts the family. -/
theorem claims_step (hi : w.tasks[i]? = some t) (hstep : SessionStep w.shared t s' t')
    {familyId userId : Uuid} (h : Claims ⟨s', w.tasks.set i t'⟩ familyId userId) :
    Claims w familyId userId ∨ (familyId ∉ w.shared.issued ∧ familyId ∈ s'.issued ∧
      t.check = some (userId, none)) := by
  cases h with
  | row row' hrow hf hu =>
      rcases hstep.rows row' hrow with ⟨row, hr, hlater⟩ | hnew
      · exact Or.inl (.row row hr (hlater.familyId ▸ hf) (hlater.userId ▸ hu))
      · rcases hnew.origin with ⟨hc, hfresh, hdrawn⟩ | ⟨stored, _, _, _, hc, hfam, _⟩
        · exact Or.inr ⟨hf ▸ hfresh, hf ▸ hdrawn, hu ▸ hc⟩
        · exact Or.inl (.task i t stored hi (hu ▸ hc) (hfam.trans hf))
  | task j u stored hj hc hf =>
      left
      rcases System.mem_set_cases hj with ⟨_, rfl⟩ | ⟨_, hj⟩
      · rcases hstep.check _ hc with hold | ⟨⟨row, hr, _, hu, rfl⟩, _⟩
        · exact .task i t stored hi hold hf
        · exact .row row hr hf hu
      · exact .task j u stored hj hc hf

theorem Sound.call (h : Sound w) (hi : w.tasks[i]? = some t)
    (hstep : SessionStep w.shared t s' t') : Sound ⟨s', w.tasks.set i t'⟩ where
  ids row' hrow := by
    rcases hstep.rows row' hrow with ⟨row, hr, hlater⟩ | hnew
    · exact hlater.id ▸ hstep.issued _ (h.ids row hr)
    · exact List.mem_of_head? hnew.drawn
  hashes row hrow row' hrow' heq := by
    rcases hstep.rows row hrow with ⟨r, hr, hl⟩ | hn
    · rcases hstep.rows row' hrow' with ⟨r', hr', hl'⟩ | hn'
      · rw [hl.id, hl'.id]
        exact h.hashes r hr r' hr' (by rw [← hl.tokenHash, ← hl'.tokenHash, heq])
      · exact (hn'.tokenHash r hr (by rw [← hl.tokenHash, heq])).elim
    · rcases hstep.rows row' hrow' with ⟨r', hr', hl'⟩ | hn'
      · exact (hn.tokenHash r' hr' (by rw [← hl'.tokenHash, heq])).elim
      · -- a step draws one id last, so two new rows are the same row
        exact Option.some.inj (hn.drawn.symm.trans hn'.drawn)
  families familyId userId hc := by
    rcases claims_step hi hstep hc with hold | ⟨_, hdrawn, _⟩
    · exact hstep.issued _ (h.families familyId userId hold)
    · exact hdrawn
  owner familyId userId userId' hc hc' := by
    rcases claims_step hi hstep hc with hold | ⟨hfresh, _, hchk⟩
    · rcases claims_step hi hstep hc' with hold' | ⟨hfresh', _, _⟩
      · exact h.owner familyId userId userId' hold hold'
      · exact (hfresh' (h.families familyId userId hold)).elim
    · rcases claims_step hi hstep hc' with hold' | ⟨_, _, hchk'⟩
      · exact (hfresh (h.families familyId userId' hold')).elim
      · have := hchk.symm.trans hchk'
        simpa using this
  known j u userId stored hj hc := by
    have hold : stored.id ∈ w.shared.issued ∧ ∀ row ∈ w.shared.refreshTokens,
        row.id = stored.id → row.familyId = stored.familyId := by
      rcases System.mem_set_cases hj with ⟨_, rfl⟩ | ⟨_, hj⟩
      · rcases hstep.check _ hc with hold | ⟨⟨row, hr, _, hu, rfl⟩, _⟩
        · exact h.known i t userId stored hi hold
        · refine ⟨h.ids row hr, fun row' hr' hid => ?_⟩
          rw [Table.eq_of_key_eq hr' hr hid]
          rfl
      · exact h.known j u userId stored hj hc
    refine ⟨hstep.issued _ hold.1, fun row' hrow' hid => ?_⟩
    rcases hstep.rows row' hrow' with ⟨row, hr, hlater⟩ | hnew
    · exact hlater.familyId.trans (hold.2 row hr (hlater.id ▸ hid))
    · exact (hnew.fresh (hid ▸ hold.1)).elim

end Step

theorem Sound.step {w : Server} (h : Sound w) (env : Env) (l : Move) :
    Sound ((server env).step w l) := by
  refine System.step_induction (P := Sound) (fun r _ => ?_) (fun i choice t _ hi => ?_) h
    (fun e _ => ?_)
  · -- a request that has just arrived acts on no check
    have htask : ∀ (j : Nat) t chk, (w.tasks ++ [entry r])[j]? = some t → t.check = some chk →
        w.tasks[j]? = some t := by
      intro j t chk hj hc
      rcases System.mem_append_cases hj with hj | ⟨_, rfl⟩
      · exact hj
      · rw [entry_check] at hc
        cases hc
    have hclaims : ∀ familyId userId, Claims ⟨w.shared, w.tasks ++ [entry r]⟩ familyId userId →
        Claims w familyId userId := by
      rintro familyId userId (⟨row, hr, hf, hu⟩ | ⟨j, t, stored, hj, hc, hf⟩)
      · exact .row row hr hf hu
      · exact .task j t stored (htask j t _ hj hc) hc hf
    exact ⟨h.ids, h.hashes, fun f u hc => h.families f u (hclaims f u hc),
      fun f u u' hc hc' => h.owner f u u' (hclaims f u hc) (hclaims f u' hc'),
      fun j t u stored hj hc => h.known j t u stored (htask j t _ hj hc) hc⟩
  · exact (task_step env choice w.shared t).mono (fun s' t' hstep => h.call hi hstep)
  · cases e with
    | tick duration =>
        have hclaims : ∀ familyId userId,
            Claims ⟨{ w.shared with now := w.shared.now + duration }, w.tasks⟩ familyId userId →
            Claims w familyId userId := by
          rintro familyId userId (⟨row, hr, hf, hu⟩ | ⟨j, t, stored, hj, hc, hf⟩)
          · exact .row row hr hf hu
          · exact .task j t stored hj hc hf
        exact ⟨h.ids, h.hashes, fun f u hc => h.families f u (hclaims f u hc),
          fun f u u' hc hc' => h.owner f u u' (hclaims f u hc) (hclaims f u' hc'), h.known⟩

theorem Initial.sound {w : Server} (h : Initial w) : Sound w := by
  have hrows : ∀ row, row ∉ w.shared.refreshTokens := by
    intro row hr
    rw [h.refreshTokens] at hr
    cases hr
  have hclaims : ∀ familyId userId, ¬ Claims w familyId userId := by
    rintro familyId userId (⟨row, hr, _, _⟩ | ⟨j, t, stored, hj, _, _⟩)
    · exact hrows row hr
    · rw [h.tasks] at hj
      simp at hj
  refine ⟨fun row hr => (hrows row hr).elim, fun row hr => (hrows row hr).elim,
    fun f u hc => (hclaims f u hc).elim, fun f u _ hc => (hclaims f u hc).elim, ?_⟩
  intro j t u stored hj
  rw [h.tasks] at hj
  simp at hj

/-- Every reachable world is sound. -/
theorem sound_run (env : Env) {w : Server} (h : Initial w) (ls : List Move) :
    Sound ((server env).run w ls) :=
  System.run_invariant (I := Sound) (A := fun _ _ => True) (fun _ l hw _ => hw.step env l) ls w h.sound
    (System.along_true w ls)

end Launcher.Accounts
