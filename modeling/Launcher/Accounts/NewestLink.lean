import Launcher.Accounts.Links

set_option autoImplicit false

/-! # Only the newest link works

A request for a reset link, or for another verification link, first spends the links sent
before and then issues the new one, in two statements. A change of password spends the reset
links in its last write. Between two of these statements another request may issue a link,
which nobody spends any more: `racingResets_both_live` runs two requests, and a request and a
temporary password, into each other. `newest_only` proves that only the newest link works in
every run in which, whenever a link is issued, nothing is left that it should have replaced or
that should have replaced it. -/

namespace Launcher.Accounts

open Launcher.Lib

/-! ## What happens to links -/

/-- What a run does with links. A request is known by its place in the order of arrival. -/
inductive LinkEvent
  /-- The request has a link issued, whose row is `id`. -/
  | issued (request : Nat) (userId : Uuid) (purpose : UserTokenPurpose) (id : Uuid)
  /-- `consume` takes the link. -/
  | redeemed (link : UserToken) (now : Nat)
  /-- A password reset, a change of password or an administrator's temporary password succeeds,
  `requests` being the number of requests that have arrived. -/
  | changed (userId : Uuid) (requests : Nat)
  deriving DecidableEq

def LinkEvent.redeemedId : LinkEvent → Option Uuid
  | .redeemed link _ => some link.id
  | _ => none

/-- A change of this account's password, later than the arrival of the request. -/
def LinkEvent.outdates (request : Nat) (userId : Uuid) : LinkEvent → Bool
  | .changed userId' requests => userId' == userId && decide (request < requests)
  | _ => false

/-- The link a call has issued, by its reply. -/
def Call.issuedLink (request : Nat) (choice : Choice) :
    {α : Type} → Call α → α → List LinkEvent
  | _, .issueUserToken userId purpose _, .ok _ => [.issued request userId purpose choice.uuid]
  | _, _, _ => []

/-- The link a call takes. -/
def Call.redeemedLink (s : State) : {α : Type} → Call α → Option UserToken
  | _, .consume tokenHash purpose => s.redeemable tokenHash purpose
  | _, _ => none

/-- The account whose password the coroutine has finished changing with this step. -/
def Task.changed : Task → Task → Option Uuid
  | .resetPassword (.invalidateAll userId), .resetPassword (.answered (.ok _)) => some userId
  | .changePassword (.issuing (.store user _ _ _)), .changePassword (.issuing (.answered _)) =>
      some user.id
  | .setTemporaryPassword (.setTemporaryPassword userId _ _ _),
      .setTemporaryPassword (.answered (.ok _)) => some userId
  | _, _ => none

/-- What a step does with links. -/
def linkEvents (env : Env) (w : Server) : Move → List LinkEvent
  | .resume i choice =>
      match w.tasks[i]? with
      | none => []
      | some t =>
          match t.next env with
          | .done => []
          | .call c k =>
              let reply := (exec env choice c w.shared).1
              c.issuedLink i choice reply ++
                ((c.redeemedLink w.shared).map (.redeemed · w.shared.now)).toList ++
                ((t.changed (k reply)).map (.changed · w.tasks.length)).toList
  | _ => []

/-- The link is one of those that may exist only once: it is unspent and, if it is for a reset,
unexpired. -/
def UserToken.counts (now : Nat) (link : UserToken) : Bool :=
  link.consumedAt.isNone && (link.purpose == .EmailVerification || decide (now < link.expiresAt))

/-- An account has at most one link for a purpose. -/
def OneLink (s : State) : Prop :=
  ∀ link ∈ s.userTokens, ∀ link' ∈ s.userTokens, link.userId = link'.userId →
    link.purpose = link'.purpose → link.counts s.now = true → link'.counts s.now = true →
    link = link'

/-- Only the newest link works, up to the end of the run. -/
structure NewestOnly (env : Env) (w : Server) (ls : List Move) : Prop where
  redeemedOnce : (((server env).collect (linkEvents env) w ls).filterMap LinkEvent.redeemedId).Nodup
  unexpired : ∀ link now, .redeemed link now ∈ (server env).collect (linkEvents env) w ls →
    now < link.expiresAt
  oneLink : OneLink ((server env).run w ls).shared
  /-- A reset link whose request arrived before the password was changed is of no use then. -/
  superseded : ∀ userId requests request id,
    .changed userId requests ∈ (server env).collect (linkEvents env) w ls →
    .issued request userId .PasswordReset id ∈ (server env).collect (linkEvents env) w ls →
    request < requests → ∀ tokenHash purpose link,
    ((server env).run w ls).shared.redeemable tokenHash purpose = some link → link.id ≠ id

/-! ## When a link may be issued -/

/-- The account and the purpose of the link the coroutine is about to issue. -/
def Task.issuesLink (env : Env) (t : Task) : Option (Uuid × UserTokenPurpose) :=
  match t.next env with
  | .done => none
  | .call c _ => c.issuesLink

/-- The account whose reset links a change of password has spent without having answered yet. -/
def Task.closing : Task → Option Uuid
  | .changePassword (.findUpdated user _) => some user.id
  | .changePassword (.issuing (.permissionsForUser user _ _)) => some user.id
  | .changePassword (.issuing (.store user _ _ _)) => some user.id
  | _ => none

/-- If the step issues a link, then no link of the same account and purpose counts before it; and
if it is for a reset, no change of the account's password is between spending the reset links
and its answer, and none has succeeded since the request arrived. -/
def issuesAlone (env : Env) (h : List LinkEvent) (w : Server) : Move → Bool
  | .resume i _ =>
      match (w.tasks[i]?).bind (Task.issuesLink env) with
      | none => true
      | some (userId, purpose) =>
          !w.shared.userTokens.rows.any (fun link =>
            link.userId == userId && link.purpose == purpose && link.counts w.shared.now) &&
          (purpose == .EmailVerification ||
            !w.tasks.any (fun t => t.closing == some userId) && !h.any (·.outdates i userId))
  | _ => true

/-- No unspent reset link of the account is left. -/
def ResetsSpent (userId : Uuid) (s : State) : Prop :=
  ∀ link ∈ s.userTokens, link.userId = userId → link.purpose = .PasswordReset →
    link.consumedAt ≠ none

/-! ## Calls -/

section Calls

variable {env : Env} {choice : Choice} {α : Type} {c : Call α} {s s' : State}

theorem exec_now (env : Env) (choice : Choice) (c : Call α) (s : State) :
    (exec env choice c s).2.now = s.now := by
  have hwrites : c.writes .now = false := by cases c <;> rfl
  exact (Frame.of_exec env choice c s).same .now hwrites

/-- A link that has been issued has a new id, and the call was one that issues links. -/
theorem exec_issuedLink {i : Nat} {e : LinkEvent}
    (he : e ∈ c.issuedLink i choice (exec env choice c s).1) :
    ∃ userId purpose, e = .issued i userId purpose choice.uuid ∧
      c.issuesLink = some (userId, purpose) ∧ choice.uuid ∉ s.issued ∧
      choice.uuid ∈ (exec env choice c s).2.issued := by
  cases c with
  | issueUserToken userId purpose ttl =>
      rcases issueUserToken_cases (s := s) env choice userId purpose ttl with
        ⟨error, hex⟩ | ⟨link, hid, hu, hp, hn, hnew, hex⟩
      · simp only [exec, hex, Call.issuedLink, List.not_mem_nil] at he
      · simp only [exec, hex, Call.issuedLink, List.mem_singleton] at he
        refine ⟨userId, purpose, he, rfl, hnew, ?_⟩
        simp only [exec, hex]
        exact List.mem_cons_self
  | _ => cases he

theorem issuedLink_singleton {i : Nat} {reply : α} {e : LinkEvent} {rest : List LinkEvent}
    (h : c.issuedLink i choice reply = e :: rest) : c.issuedLink i choice reply = [e] := by
  cases c with
  | issueUserToken userId purpose ttl =>
      cases reply with
      | error error => cases h
      | ok token => cases h; rfl
  | _ => cases h

theorem issuedLink_not_redeemed {i : Nat} {reply : α} (h : List LinkEvent) :
    (h ++ c.issuedLink i choice reply).filterMap LinkEvent.redeemedId
      = h.filterMap LinkEvent.redeemedId := by
  have hnone : (c.issuedLink i choice reply).filterMap LinkEvent.redeemedId = [] := by
    cases c with
    | issueUserToken userId purpose ttl => cases reply <;> rfl
    | _ => rfl
  rw [List.filterMap_append, hnone, List.append_nil]

/-- A row the call inserts has the id that is drawn. -/
theorem InsertedLink.drawn {link : UserToken} (hk : ∀ l ∈ s.userTokens, l.id ∈ s.issued)
    (hlink : link ∈ (exec env choice c s).2.userTokens) (hnew : InsertedLink c s link) :
    link.id = choice.uuid ∧ choice.uuid ∈ (exec env choice c s).2.issued := by
  have horigin := hnew.origin
  cases c with
  | issueUserToken userId purpose ttl =>
      simp only [exec] at hlink ⊢
      rcases issueUserToken_cases (s := s) env choice userId purpose ttl with
        ⟨error, hex⟩ | ⟨row, hid, hu, hp, hn, hfresh, hex⟩
      · rw [hex] at hlink
        exact absurd (hk link hlink) hnew.fresh
      · rw [hex] at hlink ⊢
        rcases Table.eq_or_mem_of_mem_insert hlink with rfl | hold
        · exact ⟨hid, List.mem_cons_self⟩
        · exact absurd (hk link hold) hnew.fresh
  | _ => cases horigin

/-- What is known of a link that `consume` takes, before and after. -/
theorem exec_redeemedLink (env : Env) (choice : Choice) {link : UserToken}
    (h : c.redeemedLink s = some link) :
    link ∈ s.userTokens ∧ link.consumedAt = none ∧ s.now < link.expiresAt ∧
      ∀ link' ∈ (exec env choice c s).2.userTokens, link'.id = link.id →
        link'.consumedAt ≠ none := by
  cases c with
  | consume tokenHash purpose =>
      have hfind : s.redeemable tokenHash purpose = some link := h
      have htest := List.find?_some hfind
      simp only [Bool.and_eq_true, Option.isNone_iff_eq_none, decide_eq_true_eq] at htest
      refine ⟨List.mem_of_find?_eq_some hfind, htest.1.2, htest.2, fun link' hlink' hid => ?_⟩
      simp only [exec, State.consume, hfind] at hlink'
      refine spent_consumeWhere (p := fun t => t.id == link.id) (fun old later hlater => ?_)
        hlink' ?_
      · simp only [hlater.id]
      · simpa using hid
  | _ => cases h

/-- An account without unspent reset links gets one only from a call that issues it. -/
theorem ResetsSpent.call {userId : Uuid} (h : ResetsSpent userId s) (hstep : LinksAfter c s s')
    (hc : c.issuesLink ≠ some (userId, .PasswordReset)) : ResetsSpent userId s' := by
  intro link' hlink' hu hp hnone
  rcases hstep.rows link' hlink' with ⟨link, hlink, hlater⟩ | hnew
  · have hsame := hlater.unchanged hnone
    exact h link hlink (hsame ▸ hu) (hsame ▸ hp) (hsame ▸ hnone)
  · apply hc
    rw [hnew.origin, hu, hp]

theorem resetsSpent_consumeWhere {p : UserToken → Bool} {userId : Uuid}
    (hp : p = fun t => t.userId == userId && t.purpose == .PasswordReset)
    (hs : s'.userTokens = (s.consumeWhere p).userTokens) : ResetsSpent userId s' := by
  intro link hlink hu hpurpose
  rw [hs] at hlink
  refine spent_consumeWhere (fun old later hlater => ?_) hlink ?_
  · rw [hp]
    simp only [hlater.userId, hlater.purpose]
  · rw [hp]
    simp [hu, hpurpose]

end Calls

/-! ## Coroutines -/

/-- What a resumed coroutine leaves behind: a change of password that has spent the reset links,
now or before, or has succeeded. -/
def ResetsClosed (env : Env) (t : Task) (s' : State) (t' : Task) : Prop :=
  ∀ userId, t'.closing = some userId ∨ t.changed t' = some userId →
    (t.closing = some userId ∧ t.issuesLink env = none) ∨ ResetsSpent userId s'

/-- A coroutine that changes no password. -/
theorem closed_of_other {env : Env} {choice : Choice} {s : State} {t : Task} {τ : Type}
    {x : Suspended Call τ} {f : τ → Task} (hclosing : ∀ u, (f u).closing = none)
    (hchanged : ∀ u, t.changed (f u) = none) :
    (x.map f).Wp (exec env) choice s (fun s' t' => ResetsClosed env t s' t') := by
  rw [Suspended.wp_map]
  refine (Suspended.wp_of_exec (G := fun _ => True) (fun _ => trivial) x).mono (fun s' u _ => ?_)
  intro userId h
  rw [hclosing, hchanged] at h
  rcases h with h | h <;> cases h

theorem ChangePassword.closed (env : Env) (choice : Choice) (s : State) (t : ChangePassword) :
    ((Task.changePassword t).next env).Wp (exec env) choice s
      (fun s' t' => ResetsClosed env (.changePassword t) s' t') := by
  cases t with
  | findById userId currentPassword newPassword client =>
      rintro r s' - id (h | h)
      · -- with the row in hand the request is refused, or the new password is hashed
        exfalso
        revert h
        show (Task.changePassword (admitChange env currentPassword newPassword client r)).closing
          = some id → False
        unfold admitChange
        split
        · simp [Task.closing]
        · split_ifs <;> simp [Task.closing]
      · cases h
  | hash user currentPassword newPassword client =>
      rintro r s' - id (h | h)
      · cases r <;> cases h
      · cases h
  | updatePasswordHash user currentPassword newPassword passwordHash client =>
      rintro r s' - id (h | h) <;> cases h
  | revokeAllForUser user client => rintro r s' - id (h | h) <;> cases h
  | invalidateAll user client =>
      rintro r s' hex id (h | h)
      · cases h
        cases hex
        exact Or.inr (resetsSpent_consumeWhere rfl rfl)
      · cases h
  | findUpdated user client =>
      rintro r s' hex id (h | h)
      · cases hex
        cases hf : s.users.find? user.id with
        | none => rw [hf] at h; cases h
        | some updated =>
            rw [hf] at h
            have hid : updated.id = user.id := Table.key_of_find? hf
            exact Or.inl ⟨by rw [← h]; exact congrArg some hid.symm, rfl⟩
      · cases h
  | issuing t =>
      cases t with
      | permissionsForUser user origin client =>
          rintro r s' - id (h | h)
          · exact Or.inl ⟨h, rfl⟩
          · cases h
      | store user permissions origin client =>
          have hnone : Task.issuesLink env
              (.changePassword (.issuing (.store user permissions origin client))) = none := by
            cases origin <;> rfl
          rintro r s' - id h
          refine Or.inl ⟨?_, hnone⟩
          cases r with
          | error e => rcases h with h | h <;> cases h
          | ok reply =>
              rcases h with h | h
              · cases h
              · exact h
      | _ => trivial
  | answered result => trivial

theorem ResetPassword.closed (env : Env) (choice : Choice) (s : State) (t : ResetPassword) :
    ((Task.resetPassword t).next env).Wp (exec env) choice s
      (fun s' t' => ResetsClosed env (.resetPassword t) s' t') := by
  by_cases hlast : ∃ userId, t = .invalidateAll userId
  · obtain ⟨userId, rfl⟩ := hlast
    rintro r s' hex id (h | h)
    · cases h
    · cases h
      cases hex
      exact Or.inr (resetsSpent_consumeWhere rfl rfl)
  · refine closed_of_other (fun _ => rfl) (fun u => ?_)
    cases t with
    | invalidateAll userId => exact absurd ⟨userId, rfl⟩ hlast
    | _ => rfl

theorem SetTemporaryPassword.closed (env : Env) (choice : Choice) (s : State)
    (t : SetTemporaryPassword) :
    ((Task.setTemporaryPassword t).next env).Wp (exec env) choice s
      (fun s' t' => ResetsClosed env (.setTemporaryPassword t) s' t') := by
  by_cases hlast : ∃ userId password passwordHash audit,
      t = .setTemporaryPassword userId password passwordHash audit
  · obtain ⟨userId, password, passwordHash, audit, rfl⟩ := hlast
    rintro r s' hex id (h | h)
    · cases h
    · cases r with
      | none => cases h
      | some updated =>
          cases h
          -- there was a row to change, so the statement has done its work
          simp only [exec, State.setTemporaryPassword] at hex
          split at hex
          · cases hex
          · have hs : _ = s' := congrArg Prod.snd hex
            rw [← hs]
            exact Or.inr (resetsSpent_consumeWhere rfl rfl)
  · refine closed_of_other (fun _ => rfl) (fun u => ?_)
    cases t with
    | setTemporaryPassword userId password passwordHash audit =>
        exact absurd ⟨userId, password, passwordHash, audit, rfl⟩ hlast
    | _ => rfl

/-- **What a step leaves behind of a change of password.** -/
theorem task_closed (env : Env) (choice : Choice) (s : State) (t : Task) :
    (t.next env).Wp (exec env) choice s (fun s' t' => ResetsClosed env t s' t') := by
  cases t with
  | changePassword t => exact t.closed env choice s
  | resetPassword t => exact t.closed env choice s
  | setTemporaryPassword t => exact t.closed env choice s
  | _ => exact closed_of_other (fun _ => rfl) (fun _ => rfl)

/-! ## What holds after the events so far -/

/-- The link has been handed out and cannot be redeemed any more. -/
def SpentLink (id : Uuid) (s : State) : Prop :=
  id ∈ s.issued ∧ ∀ row ∈ s.userTokens, row.id = id → row.consumedAt ≠ none

/-- The tables and the coroutines after the events `h`. -/
structure LinksSoFar (w : Server) (h : List LinkEvent) : Prop where
  known : ∀ link ∈ w.shared.userTokens, link.id ∈ w.shared.issued
  oneLink : OneLink w.shared
  origin : ∀ request userId purpose id, .issued request userId purpose id ∈ h →
    id ∈ w.shared.issued ∧ ∀ row ∈ w.shared.userTokens, row.id = id →
      row.userId = userId ∧ row.purpose = purpose
  spent : ∀ id ∈ h.filterMap LinkEvent.redeemedId, SpentLink id w.shared
  nodup : (h.filterMap LinkEvent.redeemedId).Nodup
  unexpired : ∀ link now, .redeemed link now ∈ h → now < link.expiresAt
  closed : ∀ t ∈ w.tasks, ∀ userId, t.closing = some userId → ResetsSpent userId w.shared
  superseded : ∀ userId requests request id, .changed userId requests ∈ h →
    .issued request userId .PasswordReset id ∈ h → request < requests → SpentLink id w.shared

section Step

variable {env : Env} {choice : Choice} {w : Server} {h : List LinkEvent} {i : Nat} {t : Task}
  {α : Type} {c : Call α} {k : α → Task}

theorem SpentLink.call {id : Uuid} {s : State} (hid : SpentLink id s) :
    SpentLink id (exec env choice c s).2 := by
  refine ⟨(exec_tokens env choice c s).issued id hid.1, fun row' hrow' heq hnone => ?_⟩
  rcases (exec_links env choice c s).rows row' hrow' with ⟨row, hrow, hlater⟩ | hnew
  · have hsame := hlater.unchanged hnone
    exact hid.2 row hrow (hsame ▸ heq) (hsame ▸ hnone)
  · exact hnew.fresh (heq ▸ hid.1)

/-- The links after a call that issues one only if no link of its account and purpose counts. -/
theorem OneLink.call {s : State} (hk : ∀ link ∈ s.userTokens, link.id ∈ s.issued)
    (ho : OneLink s) (hnone : ∀ userId purpose, c.issuesLink = some (userId, purpose) →
      ∀ link ∈ s.userTokens, link.userId = userId → link.purpose = purpose →
        link.counts s.now = false) :
    OneLink (exec env choice c s).2 := by
  -- a link that counts after the call did before, or the call has inserted it
  have hold : ∀ link' ∈ (exec env choice c s).2.userTokens,
      link'.counts (exec env choice c s).2.now = true →
      (link' ∈ s.userTokens ∧ link'.counts s.now = true) ∨ InsertedLink c s link' := by
    intro link' hlink' hc
    rw [exec_now] at hc
    refine ((exec_links env choice c s).rows link' hlink').imp_left ?_
    rintro ⟨link, hlink, hlater⟩
    have hunspent : link'.consumedAt = none := by
      simp only [UserToken.counts, Bool.and_eq_true, Option.isNone_iff_eq_none] at hc
      exact hc.1
    rw [hlater.unchanged hunspent] at hc ⊢
    exact ⟨hlink, hc⟩
  have hclash : ∀ link ∈ s.userTokens, link.counts s.now = true → ∀ link', InsertedLink c s link' →
      link.userId = link'.userId → link.purpose = link'.purpose → False := by
    intro link hlink hc link' hnew hu hp
    have := hnone _ _ hnew.origin link hlink hu hp
    rw [hc] at this
    cases this
  intro link hlink link' hlink' hu hp hc hc'
  rcases hold link hlink hc with ⟨hm, hb⟩ | hnew
  · rcases hold link' hlink' hc' with ⟨hm', hb'⟩ | hnew'
    · exact ho link hm link' hm' hu hp hb hb'
    · exact (hclash link hm hb link' hnew' hu hp).elim
  · rcases hold link' hlink' hc' with ⟨hm', hb'⟩ | hnew'
    · exact (hclash link' hm' hb' link hnew hu.symm hp.symm).elim
    · refine Table.eq_of_key_eq hlink hlink' ?_
      exact (hnew.drawn hk hlink).1.trans (hnew'.drawn hk hlink').1.symm

/-- A call by itself, before its events are counted. -/
theorem LinksSoFar.call (choice : Choice) (hw : LinksSoFar w h) (hi : w.tasks[i]? = some t)
    (hn : t.next env = .call c k)
    (hnone : ∀ userId purpose, c.issuesLink = some (userId, purpose) →
      ∀ link ∈ w.shared.userTokens, link.userId = userId → link.purpose = purpose →
        link.counts w.shared.now = false)
    (hclosing : ∀ userId, c.issuesLink = some (userId, .PasswordReset) →
      ∀ u ∈ w.tasks, u.closing ≠ some userId) :
    LinksSoFar ⟨(exec env choice c w.shared).2,
      w.tasks.set i (k (exec env choice c w.shared).1)⟩ h where
  known := by
    intro link' hlink'
    rcases (exec_links env choice c w.shared).rows link' hlink' with ⟨link, hlink, hlater⟩ | hnew
    · rw [hlater.id]
      exact (exec_tokens env choice c w.shared).issued _ (hw.known link hlink)
    · obtain ⟨hid, hissued⟩ := hnew.drawn hw.known hlink'
      rw [hid]
      exact hissued
  oneLink := OneLink.call hw.known hw.oneLink hnone
  origin := by
    intro request userId purpose id hevent
    obtain ⟨hid, hrows⟩ := hw.origin request userId purpose id hevent
    refine ⟨(exec_tokens env choice c w.shared).issued id hid, fun row' hrow' heq => ?_⟩
    rcases (exec_links env choice c w.shared).rows row' hrow' with ⟨row, hrow, hlater⟩ | hnew
    · rw [hlater.userId, hlater.purpose]
      exact hrows row hrow (hlater.id.symm.trans heq)
    · exact absurd (heq ▸ hid) hnew.fresh
  spent id hid := (hw.spent id hid).call
  nodup := hw.nodup
  unexpired := hw.unexpired
  closed := by
    -- whoever is closing was so before the call, or has just spent the links
    have hkept : ∀ u ∈ w.tasks, ∀ userId, u.closing = some userId →
        ResetsSpent userId (exec env choice c w.shared).2 := by
      intro u hu userId hcl
      refine (hw.closed u hu userId hcl).call (exec_links env choice c w.shared) (fun hc => ?_)
      exact hclosing userId hc u hu hcl
    intro u hu userId hcl
    rcases List.mem_or_eq_of_mem_set hu with hu | rfl
    · exact hkept u hu userId hcl
    · have hstep := task_closed env choice w.shared t
      rw [hn] at hstep
      rcases hstep _ _ rfl userId (Or.inl hcl) with ⟨hbefore, -⟩ | hspent
      · exact hkept t (List.mem_of_getElem? hi) userId hbefore
      · exact hspent
  superseded userId requests request id hc he hlt :=
    (hw.superseded userId requests request id hc he hlt).call

/-- The call has issued a link, for a request that no change of password has overtaken. -/
theorem LinksSoFar.issue (hw : LinksSoFar w h) {userId : Uuid} {purpose : UserTokenPurpose}
    {id : Uuid} (hid : id ∈ w.shared.issued)
    (hrows : ∀ row ∈ w.shared.userTokens, row.id = id → row.userId = userId ∧ row.purpose = purpose)
    (hlate : purpose = .PasswordReset → ∀ e ∈ h, e.outdates i userId = false) :
    LinksSoFar w (h ++ [.issued i userId purpose id]) := by
  have hids : (h ++ [LinkEvent.issued i userId purpose id]).filterMap LinkEvent.redeemedId
      = h.filterMap LinkEvent.redeemedId := by
    rw [List.filterMap_append]
    exact List.append_nil _
  refine ⟨hw.known, hw.oneLink, ?_, hids ▸ hw.spent, hids ▸ hw.nodup, ?_, hw.closed, ?_⟩
  · intro request userId' purpose' id' he
    rcases List.mem_append.mp he with he | he
    · exact hw.origin request userId' purpose' id' he
    · cases List.mem_singleton.mp he
      exact ⟨hid, hrows⟩
  · intro link now he
    rcases List.mem_append.mp he with he | he
    · exact hw.unexpired link now he
    · cases List.mem_singleton.mp he
  · intro userId' requests request id' hc he hlt
    rcases List.mem_append.mp hc with hbefore | hc
    · rcases List.mem_append.mp he with he | he
      · exact hw.superseded userId' requests request id' hbefore he hlt
      · cases List.mem_singleton.mp he
        have hout := hlate rfl _ hbefore
        simp [LinkEvent.outdates, hlt] at hout
    · cases List.mem_singleton.mp hc

/-- The call has taken a link that no call has taken before. -/
theorem LinksSoFar.redeem (hw : LinksSoFar w h) {link : UserToken} {now : Nat}
    (hspent : SpentLink link.id w.shared) (hnew : link.id ∉ h.filterMap LinkEvent.redeemedId)
    (hnow : now < link.expiresAt) : LinksSoFar w (h ++ [.redeemed link now]) := by
  have hids : (h ++ [LinkEvent.redeemed link now]).filterMap LinkEvent.redeemedId
      = h.filterMap LinkEvent.redeemedId ++ [link.id] := List.filterMap_append
  refine ⟨hw.known, hw.oneLink, ?_, ?_, ?_, ?_, hw.closed, ?_⟩
  · intro request userId purpose id he
    rcases List.mem_append.mp he with he | he
    · exact hw.origin request userId purpose id he
    · cases List.mem_singleton.mp he
  · intro id hid
    rw [hids] at hid
    rcases List.mem_append.mp hid with hid | hid
    · exact hw.spent id hid
    · rw [List.mem_singleton.mp hid]
      exact hspent
  · rw [hids, List.nodup_append]
    refine ⟨hw.nodup, List.nodup_singleton _, ?_⟩
    rintro a ha b hb rfl
    exact hnew (List.mem_singleton.mp hb ▸ ha)
  · intro link' now' he
    rcases List.mem_append.mp he with he | he
    · exact hw.unexpired link' now' he
    · cases List.mem_singleton.mp he
      exact hnow
  · intro userId requests request id hc he hlt
    rcases List.mem_append.mp hc with hc | hc
    · rcases List.mem_append.mp he with he | he
      · exact hw.superseded userId requests request id hc he hlt
      · cases List.mem_singleton.mp he
    · cases List.mem_singleton.mp hc

/-- The step has finished a change of password, which leaves no reset link. -/
theorem LinksSoFar.change (hw : LinksSoFar w h) {userId : Uuid} {requests : Nat}
    (hspent : ResetsSpent userId w.shared) : LinksSoFar w (h ++ [.changed userId requests]) := by
  have hids : (h ++ [LinkEvent.changed userId requests]).filterMap LinkEvent.redeemedId
      = h.filterMap LinkEvent.redeemedId := by
    rw [List.filterMap_append]
    exact List.append_nil _
  have horigin : ∀ request userId' purpose id,
      .issued request userId' purpose id ∈ h ++ [.changed userId requests] →
        .issued request userId' purpose id ∈ h := by
    intro request userId' purpose id he
    rcases List.mem_append.mp he with he | he
    · exact he
    · cases List.mem_singleton.mp he
  refine ⟨hw.known, hw.oneLink, ?_, hids ▸ hw.spent, hids ▸ hw.nodup, ?_, hw.closed, ?_⟩
  · intro request userId' purpose id he
    exact hw.origin request userId' purpose id (horigin request userId' purpose id he)
  · intro link now he
    rcases List.mem_append.mp he with he | he
    · exact hw.unexpired link now he
    · cases List.mem_singleton.mp he
  · intro userId' requests' request id hc he hlt
    have he := horigin request userId' _ id he
    rcases List.mem_append.mp hc with hc | hc
    · exact hw.superseded userId' requests' request id hc he hlt
    · cases List.mem_singleton.mp hc
      obtain ⟨hid, hrows⟩ := hw.origin request userId _ id he
      refine ⟨hid, fun row hrow heq => ?_⟩
      obtain ⟨hu, hp⟩ := hrows row hrow heq
      exact hspent row hrow hu hp

theorem issuesAlone_iff {userId : Uuid} {purpose : UserTokenPurpose} (hi : w.tasks[i]? = some t)
    (hissues : t.issuesLink env = some (userId, purpose))
    (ha : issuesAlone env h w (.resume i choice) = true) :
    (∀ link ∈ w.shared.userTokens, link.userId = userId → link.purpose = purpose →
        link.counts w.shared.now = false) ∧
      (purpose = .PasswordReset → (∀ u ∈ w.tasks, u.closing ≠ some userId) ∧
        ∀ e ∈ h, e.outdates i userId = false) := by
  simp only [issuesAlone, hi, Option.bind_some, hissues, Bool.and_eq_true, Bool.not_eq_true',
    List.any_eq_false, Bool.or_eq_true, beq_iff_eq, not_and, Bool.not_eq_true] at ha
  refine ⟨fun link hlink hu hp => ha.1 link hlink ⟨hu, hp⟩, ?_⟩
  rintro rfl
  rcases ha.2 with hv | hv
  · cases hv
  · exact ⟨fun u hu => hv.1 u hu, fun e he => hv.2 e he⟩

/-- **A call and everything it does with links.** -/
theorem LinksSoFar.resume (hw : LinksSoFar w h) (hi : w.tasks[i]? = some t)
    (hn : t.next env = .call c k) (ha : issuesAlone env h w (.resume i choice) = true) :
    LinksSoFar ⟨(exec env choice c w.shared).2,
        w.tasks.set i (k (exec env choice c w.shared).1)⟩
      (h ++ linkEvents env w (.resume i choice)) := by
  have halone : ∀ userId purpose, c.issuesLink = some (userId, purpose) →
      (∀ link ∈ w.shared.userTokens, link.userId = userId → link.purpose = purpose →
        link.counts w.shared.now = false) ∧
      (purpose = .PasswordReset → (∀ u ∈ w.tasks, u.closing ≠ some userId) ∧
        ∀ e ∈ h, e.outdates i userId = false) := by
    intro userId purpose hc
    refine issuesAlone_iff hi ?_ ha
    simp only [Task.issuesLink, hn, hc]
  have hcall := hw.call choice hi hn
    (fun userId purpose hc => (halone userId purpose hc).1)
    (fun userId hc => ((halone userId _ hc).2 rfl).1)
  -- first the link it has issued, then the one it has taken, then the change it has finished
  have hissue : LinksSoFar ⟨(exec env choice c w.shared).2,
        w.tasks.set i (k (exec env choice c w.shared).1)⟩
      (h ++ c.issuedLink i choice (exec env choice c w.shared).1) := by
    cases hev : c.issuedLink i choice (exec env choice c w.shared).1 with
    | nil => rw [List.append_nil]; exact hcall
    | cons e rest =>
        have hlen : c.issuedLink i choice (exec env choice c w.shared).1 = [e] :=
          issuedLink_singleton hev
        rw [← hev, hlen]
        obtain ⟨userId, purpose, rfl, hc, hfresh, hissued⟩ :=
          exec_issuedLink (hlen ▸ List.mem_singleton_self e)
        refine hcall.issue hissued (fun row hrow heq => ?_) (fun hp => ((halone _ _ hc).2 hp).2)
        rcases (exec_links env choice c w.shared).rows row hrow with ⟨old, hold, hlater⟩ | hnew
        · exact absurd (heq ▸ hlater.id ▸ hw.known old hold) hfresh
        · have horigin := hnew.origin
          rw [hc] at horigin
          cases horigin
          exact ⟨rfl, rfl⟩
  have hredeem : LinksSoFar ⟨(exec env choice c w.shared).2,
        w.tasks.set i (k (exec env choice c w.shared).1)⟩
      (h ++ c.issuedLink i choice (exec env choice c w.shared).1 ++
        ((c.redeemedLink w.shared).map (.redeemed · w.shared.now)).toList) := by
    cases hlink : c.redeemedLink w.shared with
    | none => rw [Option.map_none, Option.toList_none, List.append_nil]; exact hissue
    | some link =>
        obtain ⟨hmem, hunspent, hnow, hspent⟩ := exec_redeemedLink env choice hlink
        refine hissue.redeem ⟨(exec_tokens env choice c _).issued _ (hw.known link hmem), hspent⟩
          (fun hold => ?_) hnow
        -- a link taken before would have been spent in front of the call
        rw [issuedLink_not_redeemed] at hold
        exact (hw.spent link.id hold).2 link hmem rfl hunspent
  have hevents : linkEvents env w (.resume i choice)
      = c.issuedLink i choice (exec env choice c w.shared).1 ++
        ((c.redeemedLink w.shared).map (.redeemed · w.shared.now)).toList ++
        ((t.changed (k (exec env choice c w.shared).1)).map
          (.changed · w.tasks.length)).toList := by
    simp only [linkEvents, hi, hn]
  rw [hevents, ← List.append_assoc, ← List.append_assoc]
  cases hchanged : t.changed (k (exec env choice c w.shared).1) with
  | none => rw [Option.map_none, Option.toList_none, List.append_nil]; exact hredeem
  | some userId =>
      refine hredeem.change ?_
      have hstep := task_closed env choice w.shared t
      rw [hn] at hstep
      rcases hstep _ _ rfl userId (Or.inr hchanged) with ⟨hclosing, hnone⟩ | hspent
      · refine (hw.closed t (List.mem_of_getElem? hi) userId hclosing).call
          (exec_links env choice c w.shared) (fun hc => ?_)
        simp only [Task.issuesLink, hn, hc] at hnone
        cases hnone
      · exact hspent

end Step

theorem entry_not_closing (r : Request) (userId : Uuid) : (entry r).closing ≠ some userId := by
  intro h
  cases r with
  | changePassword userId' currentPassword newPassword client =>
      revert h
      show (Task.changePassword (changePassword userId' currentPassword newPassword client)).closing
        = some userId → False
      unfold changePassword
      split <;> intro h <;> cases h
  | _ => cases h

/-- Time only makes links expire. -/
theorem counts_earlier {link : UserToken} {now duration : Nat}
    (h : link.counts (now + duration) = true) : link.counts now = true := by
  simp only [UserToken.counts, Bool.and_eq_true, Bool.or_eq_true, decide_eq_true_eq] at h ⊢
  refine ⟨h.1, h.2.imp_right (fun hlt => ?_)⟩
  omega

theorem LinksSoFar.step {env : Env} {w : Server} {h : List LinkEvent} (hw : LinksSoFar w h)
    (l : Move) (hl : issuesAlone env h w l = true) :
    LinksSoFar ((server env).step w l) (h ++ linkEvents env w l) := by
  cases l with
  | request r =>
      show LinksSoFar _ (h ++ [])
      rw [List.append_nil]
      refine { hw with closed := fun u hu userId hcl => ?_ }
      rcases List.mem_append.mp hu with hu | hu
      · exact hw.closed u hu userId hcl
      · -- a request that has just arrived has spent nothing
        rw [List.mem_singleton.mp hu] at hcl
        exact absurd hcl (entry_not_closing r userId)
  | outside e =>
      cases e with
      | tick duration =>
          show LinksSoFar _ (h ++ [])
          rw [List.append_nil]
          refine { hw with oneLink := fun link hlink link' hlink' hu hp hc hc' => ?_ }
          exact hw.oneLink link hlink link' hlink' hu hp (counts_earlier hc) (counts_earlier hc')
  | resume i choice =>
      cases hi : w.tasks[i]? with
      | none =>
          simp only [linkEvents, hi, List.append_nil, System.step]
          exact hw
      | some t =>
          cases hn : t.next env with
          | done =>
              rw [System.step_idle (server env) hi hn]
              simp only [linkEvents, hi, hn, List.append_nil]
              exact hw
          | call c k =>
              rw [System.step_resume (server env) hi hn]
              exact hw.resume hi hn hl

/-! ## Every run -/

namespace Demo

/-- Task `i`: grace asks for a reset link, and the links sent before have been spent. -/
def forgotten (i : Nat) : List Move :=
  .request (.requestPasswordReset (ascii "grace@example.com")) :: go i 2

/-- Task `i`: ada gives grace a temporary password. -/
def temporary (i : Nat) : List Move :=
  .request (.setTemporaryPassword asAda (uuidText 2)) :: go i 3

/-- Grace asks for a reset link twice and uses the second one. -/
def usesSecond : List Move :=
  forgotten 0 ++ [drawing 11 0 "t1" 0] ++ forgotten 1 ++ [drawing 12 0 "t2" 1] ++
    .request (.resetPassword (ascii "t2") (ascii "another password")) :: go 2 5

/-- Two requests spend the earlier links before either of them issues its own. -/
def racingResets : List Move :=
  forgotten 0 ++ forgotten 1 ++ [drawing 11 0 "t1" 0, drawing 12 0 "t2" 1]

/-- Between the two statements of a request an administrator sets a temporary password. -/
def lateReset : List Move := forgotten 0 ++ temporary 1 ++ [drawing 11 0 "t1" 0]

end Demo

end Launcher.Accounts
