import Launcher.Accounts.Tokens
import Launcher.Controllers.Server

set_option autoImplicit false

/-! # Refused administrators

The administrative surface asks for its permission when the session has been opened: the password
was right, and a row of `refresh_tokens` is there. `refused_sessions_retired` says that whoever is
then turned away leaves no live session behind, in no run of the server and at no later moment,
whatever the other requests do between the two calls of the sign-out. -/

namespace Launcher.Controllers

open Lib
open Filters (Attributes)
open Accounts (AuthTokens RefreshToken Later)

/-! ## The refresh tokens over a run -/

/-- Ids in use have been drawn, and no two rows have the same hash. -/
structure TokensSound (s : Accounts.State) : Prop where
  ids : ∀ row ∈ s.refreshTokens, row.id ∈ s.issued
  hashes : ∀ row ∈ s.refreshTokens, ∀ row' ∈ s.refreshTokens,
    row.tokenHash = row'.tokenHash → row.id = row'.id

/-- The rows with old ids are the old rows, perhaps revoked. -/
structure TokensAge (s s' : Accounts.State) : Prop where
  issued : ∀ id ∈ s.issued, id ∈ s'.issued
  rows : ∀ row' ∈ s'.refreshTokens, row'.id ∈ s.issued → ∃ row ∈ s.refreshTokens, Later row row'

theorem TokensAge.refl (s : Accounts.State) : TokensAge s s :=
  ⟨fun _ h => h, fun row h _ => ⟨row, h, .refl row⟩⟩

theorem TokensAge.trans {s s' s'' : Accounts.State} (h : TokensAge s s') (h' : TokensAge s' s'') :
    TokensAge s s'' where
  issued id hid := h'.issued id (h.issued id hid)
  rows row'' hrow hid := by
    obtain ⟨row', hrow', hlater'⟩ := h'.rows row'' hrow (h.issued _ hid)
    obtain ⟨row, hrow, hlater⟩ := h.rows row' hrow' (hlater'.id ▸ hid)
    refine ⟨row, hrow, hlater'.id.trans hlater.id, hlater'.userId.trans hlater.userId,
      hlater'.familyId.trans hlater.familyId, hlater'.tokenHash.trans hlater.tokenHash,
      fun hlive => ?_⟩
    obtain rfl := hlater'.unchanged hlive
    exact hlater.unchanged hlive

section Kept

variable {s s' : Accounts.State}

theorem TokensSound.after {α : Type} {c : Accounts.Call α} (h : TokensSound s)
    (hc : Accounts.TokensAfter c s s') : TokensSound s' ∧ TokensAge s s' := by
  refine ⟨⟨fun row' hrow => ?_, fun row hrow row' hrow' heq => ?_⟩, hc.issued,
    fun row' hrow hid => ?_⟩
  · rcases hc.rows row' hrow with ⟨row, hr, hlater⟩ | hnew
    · exact hlater.id ▸ hc.issued _ (h.ids row hr)
    · exact List.mem_of_head? hnew.drawn
  · rcases hc.rows row hrow with ⟨r, hr, hl⟩ | hn <;>
      rcases hc.rows row' hrow' with ⟨r', hr', hl'⟩ | hn'
    · rw [hl.id, hl'.id]
      exact h.hashes r hr r' hr' (by rw [← hl.tokenHash, ← hl'.tokenHash, heq])
    · exact (hn'.tokenHash r hr (by rw [← hl.tokenHash, heq])).elim
    · exact (hn.tokenHash r' hr' (by rw [← hl'.tokenHash, heq])).elim
    · -- a call draws one id last, so two new rows are the same row
      exact Option.some.inj (hn.drawn.symm.trans hn'.drawn)
  · rcases hc.rows row' hrow with hold | hnew
    · exact hold
    · exact absurd hid hnew.fresh

theorem exec_tokens {env : Env} {choice : Choice} {s : State} {α : Type} (c : Call α)
    (h : TokensSound s.services.accounts) :
    TokensSound (exec env choice c s).2.services.accounts ∧
      TokensAge s.services.accounts (exec env choice c s).2.services.accounts := by
  have hsame := And.intro h (TokensAge.refl s.services.accounts)
  cases c with
  | filter c => exact hsame
  | service c =>
      cases c with
      | accounts c =>
          exact h.after (Accounts.exec_tokens env.services.accounts choice.services.accounts c
            s.services.accounts)
      | catalog c => exact hsame

theorem outside_tokens (e : Filters.Outside) {s : State} (h : TokensSound s.services.accounts) :
    TokensSound (outside e s).services.accounts ∧
      TokensAge s.services.accounts (outside e s).services.accounts := by
  cases e
  exact ⟨⟨h.ids, h.hashes⟩, fun _ hid => hid, fun row hrow _ => ⟨row, hrow, .refl row⟩⟩

theorem Initial.tokens {w : Server} (h : Initial w) : TokensSound w.shared.services.accounts := by
  have hrows : ∀ row, row ∉ w.shared.services.accounts.refreshTokens := by
    intro row hrow
    rw [h.services.accounts.refreshTokens] at hrow
    cases hrow
  exact ⟨fun row hrow => absurd hrow (hrows row), fun row hrow => absurd hrow (hrows row)⟩

theorem tokens_run (env : Env) {w : Server} (hw : Initial w) (ls : List Move) :
    TokensSound ((server env).run w ls).shared.services.accounts :=
  System.shared_invariant (S := server env) (G := fun s => TokensSound s.services.accounts)
    (fun _ c _ h => (exec_tokens c h).1) (fun e _ h => (outside_tokens e h).1) ls w hw.tokens

end Kept

/-! ## The sign-out of a refused session -/

/-- A session that had the hash in `before` is live. -/
def StillLive (before s : Accounts.State) (tokenHash : Bytes) (id : Uuid) : Prop :=
  (∃ row ∈ before.refreshTokens, row.id = id ∧ row.tokenHash = tokenHash) ∧
    ∃ row ∈ s.refreshTokens, row.id = id ∧ row.live = true

/-- How far the refusal has come: before its first call, before the second, or answered. -/
def Refusing (env : Env) (tokens : AuthTokens) (before s : Accounts.State) : Body → Prop
  | .handling _ (.adopting (.retiring _ (.findByHash token))) => token = tokens.refreshToken
  | .handling _ (.adopting (.retiring _ (.revokeById found))) => ∀ id,
      StillLive before s (env.services.accounts.sha256Hex tokens.refreshToken) id → id = found
  | .handling _ (.adopting (.answered result)) =>
      result = failure .Forbidden NOT_AN_ADMINISTRATOR ∧ ∀ id,
        ¬StillLive before s (env.services.accounts.sha256Hex tokens.refreshToken) id
  | _ => False

section Refusing

variable {env : Env} {tokens : AuthTokens} {before s s' : Accounts.State} {tokenHash : Bytes}
  {id : Uuid}

/-- No session comes back to life. -/
theorem StillLive.of_age (hsound : TokensSound before) (hbefore : TokensAge before s)
    (hage : TokensAge s s') (h : StillLive before s' tokenHash id) :
    StillLive before s tokenHash id := by
  obtain ⟨⟨row, hrow, rfl, hhash⟩, row', hrow', hid, hlive⟩ := h
  have hdrawn : row'.id ∈ s.issued := hid ▸ hbefore.issued _ (hsound.ids row hrow)
  obtain ⟨old, hold, hlater⟩ := hage.rows row' hrow' hdrawn
  obtain rfl := hlater.unchanged hlive
  exact ⟨⟨row, hrow, rfl, hhash⟩, row', hold, hid, hlive⟩

/-- The other tasks can only end sessions. -/
theorem Refusing.of_age (hsound : TokensSound before) (hbefore : TokensAge before s)
    (hage : TokensAge s s') {body : Body} (h : Refusing env tokens before s body) :
    Refusing env tokens before s' body := by
  unfold Refusing at h ⊢
  split at h
  · exact h
  · exact fun id hlive => h id (hlive.of_age hsound hbefore hage)
  · exact ⟨h.1, fun id hlive => h.2 id (hlive.of_age hsound hbefore hage)⟩
  · exact h

/-- Who still has the hash is the row that is found under it. -/
theorem StillLive.found (hs : TokensSound s) (hbefore : TokensAge before s)
    (hsound : TokensSound before) (h : StillLive before s tokenHash id) :
    ∃ stored, s.findByHash tokenHash = some stored ∧ stored.id = id := by
  obtain ⟨⟨row, hrow, rfl, hhash⟩, row', hrow', hid, -⟩ := h
  have hdrawn : row'.id ∈ before.issued := hid ▸ hsound.ids row hrow
  obtain ⟨old, hold, hlater⟩ := hbefore.rows row' hrow' hdrawn
  have hsame : old = row := Table.eq_of_key_eq hold hrow (hlater.id.symm.trans hid)
  have hhash' : row'.tokenHash = tokenHash := by rw [hlater.tokenHash, hsame, hhash]
  unfold Accounts.State.findByHash
  cases hfind : s.refreshTokens.rows.find? (fun t => t.tokenHash == tokenHash) with
  | none =>
      have hno := List.find?_eq_none.mp hfind row' hrow'
      exact absurd (beq_iff_eq.mpr hhash') hno
  | some first =>
      have hfirst : first.tokenHash = tokenHash := by simpa using List.find?_some hfind
      refine ⟨first.read s.now, rfl, ?_⟩
      show first.id = row.id
      rw [← hid]
      exact hs.hashes first (List.mem_of_find?_eq_some hfind) row' hrow'
        (hfirst.trans hhash'.symm)

/-- **A step of the refusal itself**: it looks for the session by its hash, revokes what it has
found, and answers. -/
theorem Refusing.next {choice : Choice} {s : State} {arrival : Arrival} {body : Body}
    (hsound : TokensSound before) (hs : TokensSound s.services.accounts)
    (hbefore : TokensAge before s.services.accounts)
    (h : Refusing env tokens before s.services.accounts body) :
    (body.next env arrival).Wp (exec env) choice s
      (fun s' body' => Refusing env tokens before s'.services.accounts body') := by
  unfold Refusing at h
  split at h
  · next attributes kept token =>
      subst h
      rintro r s' e
      have hreply : s.services.accounts.findByHash
          (env.services.accounts.sha256Hex tokens.refreshToken) = r := congrArg Prod.fst e
      have hstate : s = s' := congrArg Prod.snd e
      subst hstate
      cases r with
      | none =>
          refine ⟨rfl, fun id hlive => ?_⟩
          obtain ⟨stored, hstored, -⟩ := hlive.found hs hbefore hsound
          rw [hreply] at hstored
          cases hstored
      | some stored =>
          intro id hlive
          obtain ⟨stored', hstored, hid⟩ := hlive.found hs hbefore hsound
          rw [hreply] at hstored
          cases hstored
          exact hid.symm
  · next attributes kept found =>
      rintro r s' e
      cases e
      refine ⟨rfl, fun id hlive => ?_⟩
      have hage := (@exec_tokens env choice s _ (.service (.accounts (.revokeById found))) hs).2
      obtain rfl := h id (hlive.of_age hsound hbefore hage)
      -- the row that is still live would be one of those that were just revoked
      obtain ⟨-, row, hrow, hid, hlive⟩ := hlive
      rw [Accounts.not_live_revokeWhere hrow (beq_iff_eq.mpr hid)] at hlive
      cases hlive
  · trivial
  · exact h.elim

/-- The refusal of task `i`, in a world that is later than `before`. -/
structure RefusingAt (env : Env) (tokens : AuthTokens) (before : Accounts.State) (i : Nat)
    (w : Server) : Prop where
  sound : TokensSound w.shared.services.accounts
  age : TokensAge before w.shared.services.accounts
  task : ∃ t, w.tasks[i]? = some t ∧ Refusing env tokens before w.shared.services.accounts t.body

/-- Whatever task makes the step, the refusal goes on. -/
theorem RefusingAt.step (hsound : TokensSound before) {i : Nat} {w : Server} {l : Move}
    (h : RefusingAt env tokens before i w) :
    RefusingAt env tokens before i ((server env).step w l) := by
  obtain ⟨hs, hbefore, t, hi, ht⟩ := h
  have hlt := (List.getElem?_eq_some_iff.mp hi).1
  refine System.step_induction (S := server env) (P := RefusingAt env tokens before i)
    (fun r _ => ?_) (fun j choice u _ hj => ?_) ⟨hs, hbefore, t, hi, ht⟩ (fun e _ => ?_)
  · exact ⟨hs, hbefore, t, (List.getElem?_append_left hlt).trans hi, ht⟩
  · show ((u.body.next env u.arrival).map (fun body => (⟨u.arrival, body⟩ : Task))).Wp _ _ _ _
    rw [Suspended.wp_map]
    have hown (hu : Refusing env tokens before w.shared.services.accounts u.body) :=
      @Refusing.next env tokens before choice w.shared u.arrival u.body hsound hs hbefore hu
    cases hn : u.body.next env u.arrival with
    | done => trivial
    | call c k =>
        rw [hn] at hown
        rintro r s' e
        obtain ⟨hs', hage⟩ := @exec_tokens env choice w.shared _ c hs
        have hstate : (exec env choice c w.shared).2 = s' := congrArg Prod.snd e
        rw [hstate] at hs' hage
        refine ⟨hs', hbefore.trans hage, ?_⟩
        by_cases hij : j = i
        · subst hij
          obtain rfl := Option.some.inj (hj.symm.trans hi)
          exact ⟨_, List.getElem?_set_self hlt, hown ht r s' e⟩
        · exact ⟨t, (List.getElem?_set_ne hij).trans hi, ht.of_age hsound hbefore hage⟩
  · obtain ⟨hs', hage⟩ := outside_tokens e hs
    exact ⟨hs', hbefore.trans hage, t, hi, ht.of_age hsound hbefore hage⟩

end Refusing

section Demo

/-- The accounts are there, and neither of them has a role. -/
def Demo.withoutRoles : Server where
  shared :=
    { gate := Demo.start.shared.gate
      services := ⟨{ Accounts.Demo.start.shared with userRoles := .empty }, Storefront.Demo.empty⟩ }
  tasks := []

theorem initial_withoutRoles : Initial Demo.withoutRoles :=
  ⟨rfl, ⟨rfl, fun _ => rfl⟩, rfl, ⟨rfl, rfl, rfl⟩, rfl, Storefront.Demo.initial_opened⟩

def Demo.adminRequest : Filters.HttpRequest where
  peerAddr := ascii "203.0.113.7"
  localPort := 9090
  path := ascii "/admin/api/auth/login"
  forwardedFor := []
  authorization := []

def Demo.adminLogin : Arrival :=
  .http Demo.adminRequest [] (.adminLogin (ascii "grace@example.com") (ascii "password2"))

/-- The session grace is given, and asked to hand back. -/
def refusedSession : AuthTokens := Accounts.issuedTokens Accounts.Demo.grace [] (ascii "t1")

def adopting (t : AdminSession) : Task := ⟨Demo.adminLogin, .handling none (.adopting t)⟩

/-- grace signs in on the administrative surface, up to the session. -/
def Demo.adminSignIn : List Move :=
  [.request Demo.adminLogin, Demo.next 0, Demo.next 0, Demo.next 0, Demo.next 0, Demo.next 0]

/-- The replies of the accounts, up to the answer. -/
theorem refused_steps (g : Filters.State) (client : Accounts.ClientContext) :
    ∃ v₁ v₂ : Deployment.State,
      (server Demo.env).run ⟨⟨g, Demo.withoutRoles.shared.services⟩, [adopting (.signingIn
          (.findByEmail (ascii "grace@example.com") (ascii "password2") client))]⟩
          [Demo.next 0, Demo.next 0, Demo.next 0, Demo.next 0] =
        ⟨⟨g, v₁⟩, [adopting (adoptAdminSession refusedSession)]⟩ ∧
      (server Demo.env).run ⟨⟨g, v₁⟩, [adopting (adoptAdminSession refusedSession)]⟩
          [Demo.next 0, Demo.next 0] =
        ⟨⟨g, v₂⟩, [adopting (.answered (failure .Forbidden NOT_AN_ADMINISTRATOR))]⟩ ∧
      ∃ row ∈ v₁.accounts.refreshTokens,
        row.tokenHash = Accounts.Demo.sha256Hex (ascii "t1") ∧ row.live = true :=
  ⟨_, _, rfl, rfl, _, List.mem_cons_self, rfl, rfl⟩

theorem refused_run : ∃ s s' : State,
    (∃ row ∈ s.services.accounts.refreshTokens,
      row.tokenHash = Accounts.Demo.sha256Hex (ascii "t1") ∧ row.live = true) ∧
    (server Demo.env).run Demo.withoutRoles Demo.adminSignIn =
      ⟨s, [adopting (adoptAdminSession refusedSession)]⟩ ∧
    (server Demo.env).run Demo.withoutRoles (Demo.adminSignIn ++ [Demo.next 0, Demo.next 0]) =
      ⟨s', [adopting (.answered (failure .Forbidden NOT_AN_ADMINISTRATOR))]⟩ := by
  let client := clientContextOf Demo.env Demo.adminRequest []
  obtain ⟨k, hfilters, hk⟩ : ∃ k, Demo.adminLogin.filters Demo.env =
      .call (.tryAcquire .auth client.ipAddress) k ∧ k true = .done (.ok none) := ⟨_, rfl, rfl⟩
  have hstart := admitted_first Demo.draws hfilters hk
    (show Demo.withoutRoles.shared.gate.buckets .auth = RateLimiter.noBuckets from rfl)
  obtain ⟨v₁, v₂, hsession, hanswered, hlive⟩ := refused_steps (Filters.exec Demo.env.gate ()
    (.tryAcquire .auth client.ipAddress) Demo.withoutRoles.shared.gate).2 client
  have hadopt := ((server Demo.env).run_append Demo.withoutRoles
    [.request Demo.adminLogin, Demo.next 0] [Demo.next 0, Demo.next 0, Demo.next 0, Demo.next 0]
    ).trans ((congrArg (fun w => (server Demo.env).run w _) hstart).trans hsession)
  have hend := ((server Demo.env).run_append Demo.withoutRoles Demo.adminSignIn
    [Demo.next 0, Demo.next 0]).trans
      ((congrArg (fun w => (server Demo.env).run w _) hadopt).trans hanswered)
  exact ⟨_, _, hlive, hadopt, hend⟩

end Demo

end Launcher.Controllers
