import Launcher.Accounts.AccessTokens
import Launcher.Controllers.Server

set_option autoImplicit false

/-! # Whom a handler acts for

A handler takes the permissions of its caller from the access token and asks nobody again. What it
acts with is therefore as old as the token: `authority_current` says how old that can be. The
token was issued by a session that was asked for on this server, of an account that was active and
held just these permissions at moments since then, and it was accepted within its lifetime. -/

namespace Launcher.Controllers

open Lib
open Filters (HttpRequest Attributes Chain Filter doFilters Verified extractBearerToken)
open TokenService (AccessTokenClaims TimePoint SECOND Representable to_time_t issueAccessToken
  verifyAccessToken)
open Accounts (AuthTokens)

/-! ## The sessions of the handlers -/

def AdminSession.tokens : AdminSession → Option AuthTokens
  | .retiring tokens _ => some tokens
  | .answered (.ok tokens) => some tokens
  | _ => none

/-- The session a handler has been answered with. -/
def Work.tokens : Work → Option AuthTokens
  | .service (.accounts t) => t.tokens
  | .adopting t => t.tokens
  | _ => none

def Task.tokens (t : Task) : Option AuthTokens :=
  match t.body with
  | .handling _ work => work.tokens
  | _ => none

/-- What a handler has read of the accounts for a session. -/
def Work.Read (reading : Accounts.Reading) : Work → Prop
  | .service (.accounts t) => t.Read reading
  | .adopting (.signingIn t) => (Accounts.Task.login t).Read reading
  | .adopting (.rotating t) => (Accounts.Task.refresh t).Read reading
  | .adopting t => ∃ tokens, t.tokens = some tokens ∧
      (Accounts.Task.login (.issuing (.answered tokens))).Read reading
  | _ => False

def Task.Read (t : Task) (reading : Accounts.Reading) : Prop :=
  match t.body with
  | .handling _ work => work.Read reading
  | _ => False

section Readings

variable {env : Env} {reading : Accounts.Reading}

theorem Work.read_of_tokens {work : Work} {tokens : AuthTokens} (h : work.tokens = some tokens) :
    (∀ r, (Accounts.Task.login (.issuing (.answered tokens))).Read r → work.Read r) := by
  intro r hr
  unfold Work.tokens at h
  split at h
  · next t =>
      obtain ⟨haccount, hpermissions⟩ := Accounts.Task.read_of_tokens h
      cases r with
      | row user => exact haccount.trans hr
      | active userId =>
          obtain ⟨user, hu, hid⟩ := hr
          exact ⟨user, haccount.trans hu, hid⟩
      | held userId permissions =>
          obtain ⟨user, hu, hid, hp⟩ := hr
          exact ⟨user, haccount.trans hu, hid, hpermissions.trans hp⟩
      | issued other => exact h.trans hr
  · next t =>
      cases t with
      | signingIn t => cases h
      | rotating t => cases h
      | threw e => cases h
      | retiring other t => exact ⟨tokens, h, hr⟩
      | answered result => exact ⟨tokens, h, hr⟩
  · cases h

theorem read_adopt {tokens : AuthTokens}
    (h : (Work.adopting (adoptAdminSession tokens)).Read reading) :
    (Accounts.Task.login (.issuing (.answered tokens))).Read reading := by
  unfold adoptAdminSession at h
  split at h
  · obtain ⟨_, heq, hr⟩ := h
    cases heq
    exact hr
  · obtain ⟨_, heq, hr⟩ := h
    cases heq
    exact hr

/-- A session that is no administrator's is kept in the frame, and read no more. -/
theorem read_afterLogin {t : Accounts.Login} (h : (Work.adopting (afterLogin t)).Read reading) :
    (Accounts.Task.login t).Read reading := by
  cases t with
  | answered result =>
      cases result with
      | error e =>
          obtain ⟨_, heq, -⟩ := h
          cases heq
      | ok tokens => exact h
  | issuing t =>
      cases t with
      | answered tokens => exact read_adopt h
      | threw e =>
          obtain ⟨_, heq, -⟩ := h
          cases heq
      | _ => exact h
  | _ => exact h

theorem read_afterRefresh {t : Accounts.Refresh}
    (h : (Work.adopting (afterRefresh t)).Read reading) :
    (Accounts.Task.refresh t).Read reading := by
  cases t with
  | answered result =>
      cases result with
      | error e =>
          obtain ⟨_, heq, -⟩ := h
          cases heq
      | ok tokens => exact h
  | issuing t =>
      cases t with
      | answered tokens =>
          have hlogin := read_adopt h
          cases reading <;> exact hlogin
      | threw e =>
          obtain ⟨_, heq, -⟩ := h
          cases heq
      | _ => exact h
  | _ => exact h

theorem read_afterLogout {tokens : AuthTokens} {t : Accounts.Logout}
    (h : (Work.adopting (afterLogout tokens t)).Read reading) (t' : Accounts.Logout) :
    (Work.adopting (.retiring tokens t')).Read reading := by
  cases t with
  | answered result =>
      obtain ⟨_, heq, -⟩ := h
      cases heq
  | _ => exact h

/-- What the step adds to the readings is true in the state it is made in. -/
def Reads (s : Accounts.State) (work work' : Work) : Prop :=
  ∀ reading, work'.Read reading → work.Read reading ∨ reading.Holds s

/-- A step of a coroutine of the accounts that a handler awaits. -/
theorem reads_accounts {choice : Deployment.Choice} {s : Deployment.State} {υ : Type}
    {x : Suspended Accounts.Call υ} {f : υ → Accounts.Task} {g : υ → Work} {t : Accounts.Task}
    {work : Work} (ht : t.next env.services.accounts = x.map f)
    (hold : ∀ r, t.Read r → work.Read r) (hnew : ∀ u r, (g u).Read r → (f u).Read r) :
    ((x.map g).lift Deployment.Call.accounts).Wp (Deployment.exec env.services) choice s
      (fun _ work' => Reads s.accounts work work') := by
  have hstep : (t.next env.services.accounts).Wp (Accounts.exec env.services.accounts)
      choice.accounts s.accounts (fun _ t' => Accounts.Reads s.accounts t t') := t.next_reads
  rw [ht] at hstep
  cases x with
  | done => trivial
  | call c k =>
      rintro r s' e reading hr
      cases e
      rcases hstep _ _ rfl reading (hnew _ reading hr) with h | h
      · exact Or.inl (hold reading h)
      · exact Or.inr h

theorem Work.next_reads (env : Env) (choice : Deployment.Choice) (s : Deployment.State)
    (work : Work) :
    (work.next env).Wp (Deployment.exec env.services) choice s
      (fun _ work' => Reads s.accounts work work') := by
  cases work with
  | answered => trivial
  | service t =>
      cases t with
      | accounts t =>
          have hnext : (Work.service (.accounts t)).next env = ((t.next env.services.accounts).map
              (fun u => Work.service (.accounts u))).lift Deployment.Call.accounts := by
            show (((t.next _).lift _).map Deployment.Task.accounts).map Work.service = _
            cases t.next env.services.accounts <;> rfl
          rw [hnext]
          refine reads_accounts (f := id) (t := t) ?_ (fun _ h => h) (fun _ _ h => h)
          cases t.next env.services.accounts <;> rfl
      | catalog t =>
          show ((((t.next env.services.catalog).lift _).map Deployment.Task.catalog).map
            Work.service).Wp _ _ _ _
          cases t.next env.services.catalog with
          | done => trivial
          | call c k => exact fun r s' _ reading hr => absurd hr id
  | adopting t =>
      cases t with
      | answered result => trivial
      | threw e => trivial
      | signingIn t =>
          show ((((t.next env.services.accounts).map afterLogin).lift _).map Work.adopting).Wp
            _ _ _ _
          rw [map_lift_map]
          exact reads_accounts (t := .login t) rfl (fun _ h => h) (fun _ _ h => read_afterLogin h)
      | rotating t =>
          show ((((t.next env.services.accounts).map afterRefresh).lift _).map Work.adopting).Wp
            _ _ _ _
          rw [map_lift_map]
          exact reads_accounts (t := .refresh t) rfl (fun _ h => h)
            (fun _ _ h => read_afterRefresh h)
      | retiring tokens t =>
          show ((((t.next env.services.accounts).map (afterLogout tokens)).lift _).map
            Work.adopting).Wp _ _ _ _
          rw [map_lift_map]
          cases t.next env.services.accounts with
          | done => trivial
          | call c k => exact fun r s' _ reading hr => Or.inl (read_afterLogout hr t)
  | updating t =>
      show (((t.next env.jsoncpp).lift Deployment.Call.accounts).map Work.updating).Wp _ _ _ _
      cases t.next env.jsoncpp with
      | done => trivial
      | call c k => exact fun r s' _ reading hr => absurd hr id

theorem not_read_start (arrival : Arrival) (attributes : Attributes) :
    ¬(arrival.start env attributes).Read reading := by
  cases arrival with
  | sweepExpiredSessions => exact id
  | collectUnreferencedBlobs => exact id
  | http request userAgent handler =>
      exact Handler.start_cases (P := fun work => ¬work.Read reading) id
        (fun r => Accounts.entry_reads r reading) (fun _ _ _ _ => id)
        (fun email password client => Accounts.entry_reads (.login email password client) reading)
        (fun refreshToken client => Accounts.entry_reads (.refresh refreshToken client) reading)
        (fun _ _ _ => id) handler

theorem not_read_handOver (arrival : Arrival) (chain : Chain Attributes) :
    ¬Task.Read ⟨arrival, handOver env arrival chain⟩ reading := by
  intro hr
  dsimp only [Task.Read] at hr
  unfold handOver at hr
  split at hr
  · next attributes heq =>
      split at heq
      · cases heq
        exact not_read_start arrival _ hr
      · cases heq
  · exact hr

/-- A step of a task of the server. -/
theorem Task.next_reads (choice : Choice) (s : State) (t : Task) :
    ((server env).next t).Wp (server env).exec choice s
      (fun _ t' => ∀ r, t'.Read r → t.Read r ∨ r.Holds s.services.accounts) := by
  show ((t.body.next env t.arrival).map (fun body => (⟨t.arrival, body⟩ : Task))).Wp _ _ _ _
  rw [Suspended.wp_map]
  unfold Task.Read
  cases t.body with
  | filtering chain =>
      show ((chain.next.lift Call.filter).map (handOver env t.arrival)).Wp _ _ _ _
      cases chain with
      | done r => trivial
      | call c k => exact fun r s' _ reading hr => absurd hr (not_read_handOver t.arrival (k r))
  | handling attributes work =>
      show (((work.next env).lift Call.service).map (Body.handling attributes)).Wp _ _ _ _
      have hwork := work.next_reads env choice.services s.services
      cases hn : work.next env with
      | done => trivial
      | call c k =>
          rw [hn] at hwork
          rintro r s' e
          cases e
          exact hwork _ _ rfl

theorem read_since {w : Server} (hw : Initial w) (ls : List Move) {j : Nat} {t : Task}
    (hj : ((server env).run w ls).tasks[j]? = some t) (ht : t.Read reading) :
    (server env).Since w ls j (fun s => reading.Holds s.services.accounts) :=
  System.observed_since (S := server env) (O := Task.Read)
    (H := fun r s => r.Holds s.services.accounts)
    (fun arrival _ => not_read_handOver arrival (arrival.filters env)) Task.next_reads hw.tasks ls
    j t reading hj ht

end Readings

/-! ## The claims of the handlers -/

/-- The claims of a handler, or those that the filters can let it through with. -/
def Task.HasVerified (t : Task) (o : Bytes × AccessTokenClaims) : Prop :=
  match t.arrival with
  | .http request _ _ => extractBearerToken request = o.1 ∧
      match t.body with
      | .filtering chain => ¬chain.After (Verified request o.2) (· = some o.2)
      | .handling attributes _ => attributes = some o.2
  | _ => False

section Claims

variable {env : Env}

/-- What a handler is let through with, its filters could answer. -/
theorem hasVerified_handOver {request : HttpRequest} {userAgent : Bytes} {handler : Handler}
    {chain : Chain Attributes} {o : Bytes × AccessTokenClaims}
    (h : Task.HasVerified ⟨.http request userAgent handler,
      handOver env (.http request userAgent handler) chain⟩ o) :
    extractBearerToken request = o.1 ∧ ¬chain.After (Verified request o.2) (· = some o.2) := by
  obtain ⟨htoken, hbody⟩ := h
  refine ⟨htoken, ?_⟩
  cases chain with
  | call c k => exact hbody
  | done r =>
      cases r with
      | error e => exact hbody
      | ok attributes => exact fun hafter => hafter hbody

/-- Before a call of the filters no claims can be answered with. -/
theorem not_hasVerified_entry (arrival : Arrival) (o : Bytes × AccessTokenClaims) :
    ¬((server env).entry arrival).HasVerified o := by
  cases arrival with
  | sweepExpiredSessions => exact id
  | collectUnreferencedBlobs => exact id
  | http request userAgent handler =>
      intro h
      refine (hasVerified_handOver h).2 ?_
      by_cases hmem : Filter.jwtAuth ∈ handler.endpoint.filters
      · exact Filters.doFilters_verified o.2 none hmem
      · refine Program.After.mono (A := (· ≠ none)) (fun a ha hnone => ?_)
          (Filters.doFilters_keeps none hmem).after
        rw [ha] at hnone
        cases hnone

theorem verified_since {w : Server} (hw : Initial w) (ls : List Move) {j : Nat} {t : Task}
    {o : Bytes × AccessTokenClaims} (hj : ((server env).run w ls).tasks[j]? = some t)
    (ht : t.HasVerified o) : (server env).Since w ls j (fun s => verifyAccessToken env.gate.jwt
      env.gate.settings s.gate.wall o.1 = .ok o.2) := by
  refine System.observed_since (S := server env) (O := Task.HasVerified)
    (H := fun o s => verifyAccessToken env.gate.jwt env.gate.settings s.gate.wall o.1 = .ok o.2)
    not_hasVerified_entry ?_ hw.tasks ls j t o hj ht
  rintro choice s ⟨arrival, body⟩
  show ((body.next env arrival).map (fun body => (⟨arrival, body⟩ : Task))).Wp _ _ _ _
  rw [Suspended.wp_map]
  cases body with
  | handling attributes work =>
      show (((work.next env).lift Call.service).map (Body.handling attributes)).Wp _ _ _ _
      cases work.next env with
      | done => trivial
      | call c k => exact fun _ _ _ o h => Or.inl h
  | filtering chain =>
      show ((chain.next.lift Call.filter).map (handOver env arrival)).Wp _ _ _ _
      cases chain with
      | done r => trivial
      | call c k =>
          rintro r s' e o h
          cases arrival with
          | sweepExpiredSessions => exact absurd h id
          | collectUnreferencedBlobs => exact absurd h id
          | http request userAgent handler =>
              obtain ⟨htoken, hafter⟩ := hasVerified_handOver h
              by_cases hold : (Program.call c k : Chain Attributes).After (Verified request o.2)
                (· = some o.2)
              · -- the filters could not answer yet: this call has verified the token
                right
                have hverified := (hold r).resolve_right hafter
                cases c with
                | tryAcquire limiter key => exact absurd hverified id
                | retryAfter limiter key => exact absurd hverified id
                | verifyAccessToken token =>
                    obtain ⟨rfl, rfl⟩ := hverified
                    rw [← htoken]
                    exact congrArg Prod.fst e
              · exact Or.inl ⟨htoken, hold⟩

/-- Whoever a coroutine of the catalog acts for, the claims of its handler name. -/
def Task.Acts (t : Task) : Prop :=
  match t.arrival with
  | .http _ _ _ => ∀ claims u, t.body = .handling (some claims) (.service (.catalog u)) →
      u.actor = some (actorOf claims)
  | _ => True

theorem acts_handOver (arrival : Arrival) (chain : Chain Attributes) :
    Task.Acts ⟨arrival, handOver env arrival chain⟩ := by
  cases arrival with
  | sweepExpiredSessions => trivial
  | collectUnreferencedBlobs => trivial
  | http request userAgent handler =>
      intro claims u h
      unfold handOver at h
      split at h
      · next attributes =>
          obtain ⟨rfl, hwork⟩ := Body.handling.inj h
          revert hwork
          refine Handler.start_cases (P := fun work => work = .service (.catalog u) →
            u.actor = some (actorOf claims)) (fun h => ?_) (fun r h => ?_)
            (fun c r hc hactor h => ?_) (fun _ _ _ h => ?_) (fun _ _ h => ?_) (fun _ _ _ h => ?_)
            handler
          · cases h
          · cases h
          · cases h
            cases hc
            exact hactor
          · cases h
          · cases h
          · cases h
      · cases h

/-- A coroutine of the catalog keeps its actor. -/
theorem Work.next_actor (env : Env) (choice : Deployment.Choice) (s : Deployment.State)
    (work : Work) : (work.next env).Wp (Deployment.exec env.services) choice s (fun _ work' =>
      ∀ u', work' = .service (.catalog u') → ∃ u, work = .service (.catalog u) ∧
        u'.actor = u.actor) := by
  cases work with
  | answered => trivial
  | adopting t =>
      show ((((t.next env.services.accounts).lift _).map Work.adopting)).Wp _ _ _ _
      cases t.next env.services.accounts with
      | done => trivial
      | call c k => exact fun _ _ _ u' h => nomatch h
  | updating t =>
      show ((((t.next env.jsoncpp).lift _).map Work.updating)).Wp _ _ _ _
      cases t.next env.jsoncpp with
      | done => trivial
      | call c k => exact fun _ _ _ u' h => nomatch h
  | service t =>
      cases t with
      | accounts t =>
          show ((((t.next _).lift _).map Deployment.Task.accounts).map Work.service).Wp _ _ _ _
          cases t.next env.services.accounts with
          | done => trivial
          | call c k => exact fun _ _ _ u' h => nomatch h
      | catalog t =>
          obtain ⟨actor, body⟩ := t
          show (((((body.next _).map _).lift _).map Deployment.Task.catalog).map
            Work.service).Wp _ _ _ _
          cases body.next env.services.catalog with
          | done => trivial
          | call c k =>
              intro r s' _ u' h
              refine ⟨⟨actor, body⟩, rfl, ?_⟩
              cases h
              rfl

theorem acts_run {w : Server} (hw : Initial w) (ls : List Move) :
    ∀ (j : Nat) t, ((server env).run w ls).tasks[j]? = some t → t.Acts := by
  refine (System.pool_invariant (S := server env) (G := fun _ => True) (L := fun _ t => t.Acts)
    (A := fun _ _ => True) ?_ ?_ ?_ ls w trivial ?_ (System.along_true w ls)).2
  · exact fun arrival _ _ => acts_handOver arrival (arrival.filters env)
  · intro w' i choice t _ hothers hi _
    refine Suspended.Wp.mono (Q := fun _ t' => t'.Acts) ?_
      (fun _ _ h => ⟨trivial, h, fun j t' _ hj => hothers j t' hj⟩)
    have hown := hothers i t hi
    obtain ⟨arrival, body⟩ := t
    show ((body.next env arrival).map (fun body => (⟨arrival, body⟩ : Task))).Wp _ _ _ _
    rw [Suspended.wp_map]
    cases body with
    | filtering chain =>
        show ((chain.next.lift Call.filter).map (handOver env arrival)).Wp _ _ _ _
        cases chain with
        | done r => trivial
        | call c k => exact fun r _ _ => acts_handOver arrival (k r)
    | handling attributes work =>
        show (((work.next env).lift Call.service).map (Body.handling attributes)).Wp _ _ _ _
        have hwork := work.next_actor env choice.services w'.shared.services
        cases hn : work.next env with
        | done => trivial
        | call c k =>
            rw [hn] at hwork
            rintro r s' e
            cases e
            have hkept := hwork _ _ rfl
            cases arrival with
            | sweepExpiredSessions => trivial
            | collectUnreferencedBlobs => trivial
            | http request userAgent handler =>
                intro claims u' h
                obtain ⟨rfl, hwork'⟩ := Body.handling.inj h
                obtain ⟨u, hu, hactor⟩ := hkept u' hwork'
                rw [hactor]
                exact hown claims u (by rw [hu])
  · exact fun _ _ _ => ⟨trivial, fun _ h => h⟩
  · intro j t hj
    rw [hw.tasks] at hj
    cases hj

end Claims

/-! ## Tokens that were issued -/

/-- A step of the run at which a handler is answered with a session. -/
structure Mint (env : Env) (w : Server) (ls : List Move) where
  pre : List Move
  i : Nat
  choice : Choice
  post : List Move
  before : Task
  after : Task
  tokens : AuthTokens
  run : ls = pre ++ .resume i choice :: post
  found : ((server env).run w pre).tasks[i]? = some before
  unanswered : before.tokens = none
  answered : ((server env).run w (pre ++ [.resume i choice])).tasks[i]? = some after
  session : after.tokens = some tokens

namespace Mint

variable {env : Env} {w : Server} {ls : List Move} (m : Mint env w ls)

/-- The run up to the answer. -/
def upTo : List Move := m.pre ++ [.resume m.i m.choice]

def issuedAt : TimePoint := ((server env).run w m.pre).shared.gate.wall

def expiresAt : TimePoint :=
  to_time_t (m.issuedAt + env.gate.settings.accessTokenTtl * SECOND) * SECOND

def claims : AccessTokenClaims := claimsOf m.tokens.accessToken

/-- The access token. -/
def token : Bytes :=
  issueAccessToken env.gate.jwt env.gate.settings m.issuedAt m.choice.jti m.claims

/-- What was issued in a part of the run was issued in the run. -/
def extend (post : List Move) : Mint env w (ls ++ post) :=
  { m with
    post := m.post ++ post
    run := (congrArg (· ++ post) m.run).trans (List.append_assoc _ _ _) }

end Mint

/-- What is relied on of jwt-cpp and of the clock. Whoever does not know the secret cannot sign: a
token in a request whose signature is verified was issued before. -/
structure Trusted (env : Env) (w : Server) (ls : List Move) : Prop where
  issued : ∀ pre post, ls = pre ++ post → ∀ t ∈ ((server env).run w pre).tasks,
    ∀ request userAgent handler, t.arrival = .http request userAgent handler →
    env.gate.jwt.verifies env.gate.settings.secret (extractBearerToken request) = true →
    ∃ m : Mint env w pre, m.token = extractBearerToken request
  dates : env.gate.jwt.ReadsDates
  carries : ∀ m : Mint env w ls, env.gate.jwt.Carries env.gate.settings.secret (ascii "JWT")
    (TokenService.payloadOf env.gate.settings m.issuedAt m.choice.jti m.claims)
  clock : ∀ m : Mint env w ls, Representable m.issuedAt ∧
    Representable (m.issuedAt + env.gate.settings.accessTokenTtl * SECOND)

/-- What there is behind the claims that the handler `j` has. -/
structure Current (env : Env) (w : Server) (ls : List Move) (j : Nat) (claims : AccessTokenClaims)
    (m : Mint env w ls) : Prop where
  actor : actorOf claims = ⟨m.tokens.accessToken.userId, m.tokens.accessToken.permissions⟩
  /-- The token was accepted since the request arrived, within its lifetime. -/
  accepted : ∃ pre post, ls = pre ++ post ∧ j < ((server env).run w pre).tasks.length ∧
    m.upTo <+: pre ∧ ((server env).run w pre).shared.gate.wall ≤ m.expiresAt
  /-- Since the session was asked for, the account was active and held these permissions. -/
  active : (server env).Since w m.upTo m.i (fun s => ∃ user ∈ s.services.accounts.users,
    user.id = (actorOf claims).userId ∧ user.isActive = true)
  permissions : (server env).Since w m.upTo m.i (fun s =>
    s.services.accounts.permissionsForUser (actorOf claims).userId = (actorOf claims).permissions)

section Run

variable {env : Env} {w : Server} {ls : List Move}

/-- What a session was issued with, its coroutine had read. -/
theorem Mint.read (hw : Initial w) (m : Mint env w ls) (reading : Accounts.Reading)
    (h : (Accounts.Task.login (.issuing (.answered m.tokens))).Read reading) :
    (server env).Since w m.upTo m.i (fun s => reading.Holds s.services.accounts) := by
  refine read_since hw m.upTo m.answered ?_
  have hsession := m.session
  unfold Task.tokens at hsession
  unfold Task.Read
  split at hsession
  · exact Work.read_of_tokens hsession reading h
  · cases hsession

/-- A task keeps the request it came with. -/
theorem arrival_run {j : Nat} {t t' : Task} (more : List Move)
    (hj : ((server env).run w ls).tasks[j]? = some t)
    (hj' : ((server env).run w (ls ++ more)).tasks[j]? = some t') : t'.arrival = t.arrival := by
  have hkept : ∃ t', ((server env).run w (ls ++ more)).tasks[j]? = some t' ∧
      t'.arrival = t.arrival := by
    rw [System.run_append]
    refine System.run_invariant (S := server env) (I := fun w' => ∃ t', w'.tasks[j]? = some t' ∧
      t'.arrival = t.arrival) (A := fun _ _ => True) (fun w' l h _ => ?_) more _ ⟨t, hj, rfl⟩
      (System.along_true _ more)
    obtain ⟨t', ht', harrival⟩ := h
    have hlt := (List.getElem?_eq_some_iff.mp ht').1
    refine System.step_induction (S := server env) (P := fun w' : Server => ∃ t',
      w'.tasks[j]? = some t' ∧ t'.arrival = t.arrival) (fun r _ => ?_) (fun i choice u _ hi => ?_)
      ⟨t', ht', harrival⟩ (fun _ _ => ⟨t', ht', harrival⟩)
    · exact ⟨t', (List.getElem?_append_left hlt).trans ht', harrival⟩
    · refine (Suspended.wp_map _ _ _).mpr ?_
      by_cases hij : i = j
      · subst hij
        obtain rfl := Option.some.inj (hi.symm.trans ht')
        cases u.body.next env u.arrival with
        | done => trivial
        | call c k =>
            exact fun r s' _ => ⟨⟨u.arrival, k r⟩, List.getElem?_set_self hlt, harrival⟩
      · cases u.body.next env u.arrival with
        | done => trivial
        | call c k => exact fun r s' _ => ⟨t', (List.getElem?_set_ne hij).trans ht', harrival⟩
  obtain ⟨t'', ht'', harrival⟩ := hkept
  obtain rfl := Option.some.inj (hj'.symm.trans ht'')
  exact harrival

theorem verifies_of_ok {jwt : TokenService.JwtCpp} {settings : TokenService.TokenSettings}
    {now : TimePoint} {token : Bytes} {claims : AccessTokenClaims}
    (h : verifyAccessToken jwt settings now token = .ok claims) :
    jwt.verifies settings.secret token = true := by
  obtain ⟨-, decoded, -, hverify, -, -⟩ := TokenService.verifyAccessToken_ok_iff.mp h
  unfold TokenService.verify at hverify
  simp only [Bool.and_eq_true] at hverify
  exact hverify.1.1.1.1.2

end Run

/-! ## grace's library -/

section Demo

open TokenService (demoSettings demoJti)

def demoClient : Accounts.ClientContext := clientContextOf Demo.env Demo.loginRequest []

/-- The session she is answered with. -/
def graceSession : AuthTokens :=
  Accounts.issuedTokens Accounts.Demo.grace Accounts.Demo.adminPermissions (ascii "t1")

def signing (t : Accounts.Login) : Task :=
  ⟨Demo.login, .handling none (.service (.accounts (.login t)))⟩

theorem graceToken_ne_nil : Demo.graceToken ≠ [] :=
  List.append_ne_nil_of_left_ne_nil (by decide) _

theorem extractBearerToken_library : extractBearerToken Demo.libraryRequest = Demo.graceToken := by
  unfold extractBearerToken Demo.libraryRequest
  simp

theorem verified_library : verifyAccessToken Demo.env.gate.jwt Demo.env.gate.settings
    (TokenService.issuedAt + 100000000000) Demo.graceToken = .ok Demo.graceClaims :=
  (TokenService.verifyAccessToken_issued (TokenService.jwtOf_readsDates _ _)
    (TokenService.jwtOf_carries graceToken_ne_nil _) TokenService.representable_issuedAt.1
    TokenService.representable_issuedAt.2 _).trans (if_pos (by decide))

/-- The replies of the accounts to the sign-in. -/
theorem signIn_steps (g : Filters.State) : ∃ v₁ v₂ : Deployment.State,
    (server Demo.env).step ⟨⟨g, Demo.start.shared.services⟩, [signing (.findByEmail
        (ascii "grace@example.com") (ascii "password2") demoClient)]⟩ (Demo.next 0) =
      ⟨⟨g, Demo.start.shared.services⟩,
        [signing (.recordSuccessfulLogin Accounts.Demo.grace demoClient)]⟩ ∧
    (server Demo.env).step ⟨⟨g, Demo.start.shared.services⟩,
        [signing (.recordSuccessfulLogin Accounts.Demo.grace demoClient)]⟩ (Demo.next 0) =
      ⟨⟨g, v₁⟩, [signing (.issuing (.permissionsForUser Accounts.Demo.grace none demoClient))]⟩ ∧
    (server Demo.env).step ⟨⟨g, v₁⟩, [signing (.issuing (.permissionsForUser
        Accounts.Demo.grace none demoClient))]⟩ (Demo.next 0) =
      ⟨⟨g, v₁⟩, [signing (.issuing (.store Accounts.Demo.grace Accounts.Demo.adminPermissions none
        demoClient))]⟩ ∧
    (server Demo.env).step ⟨⟨g, v₁⟩, [signing (.issuing (.store Accounts.Demo.grace
        Accounts.Demo.adminPermissions none demoClient))]⟩ (Demo.next 0) =
      ⟨⟨g, v₂⟩, [signing (.issuing (.answered graceSession))]⟩ :=
  ⟨_, _, rfl, rfl, rfl, rfl⟩

def soFar (k : Nat) : Server := (server Demo.env).run Demo.start (Demo.moves.take k)

/-- The requests that have arrived and the sessions they have been answered with, after `k`
steps. -/
def answeredBy (k : Nat) : List (Arrival × Option AuthTokens) :=
  (if k = 0 then [] else [(Demo.login, if k < 6 then none else some graceSession)]) ++
    if k < 8 then [] else [(Demo.library, none)]

theorem demo_run : (∀ k ≤ 10, (soFar k).tasks.map (fun t => (t.arrival, t.tokens)) =
      answeredBy k) ∧
    (soFar 5).shared.gate.wall = TokenService.issuedAt ∧
    (soFar 10).tasks[1]? = some ⟨Demo.library, .handling (some Demo.graceClaims)
      (catalog Demo.env (.library (actorOf Demo.graceClaims)))⟩ := by
  have hnext : ∀ (k : Nat) (l : Move), Demo.moves[k]? = some l →
      soFar (k + 1) = (server Demo.env).step (soFar k) l := by
    intro k l hl
    unfold soFar
    rw [List.take_add_one, hl, System.run_append]
    rfl
  obtain ⟨k₀, hlogin, hk₀⟩ : ∃ k₀, Demo.login.filters Demo.env =
      .call (.tryAcquire .auth demoClient.ipAddress) k₀ ∧ k₀ true = .done (.ok none) :=
    ⟨_, rfl, rfl⟩
  obtain ⟨k₁, k₂, hlibrary, hk₁, hk₂⟩ := Filters.doFilters_jwtAuth Demo.env.gate.config
    Demo.graceClaims extractBearerToken_library graceToken_ne_nil rfl
  -- the sign-in passes its limiter
  have h₁ : soFar 1 = ⟨Demo.start.shared, [] ++ [⟨Demo.login, .filtering (.call (.tryAcquire .auth
      demoClient.ipAddress) k₀)⟩]⟩ := by
    refine (hnext 0 _ rfl).trans (congrArg (World.mk _) ?_)
    show [] ++ [(⟨Demo.login, handOver Demo.env Demo.login
      (Demo.login.filters Demo.env)⟩ : Task)] = _
    rw [hlogin]
    rfl
  obtain ⟨g₁, hwall₁, haccount₁, h₂⟩ : ∃ g₁ : Filters.State, g₁.wall = TokenService.issuedAt ∧
      g₁.buckets .account = RateLimiter.noBuckets ∧ soFar 2 = ⟨⟨g₁, Demo.start.shared.services⟩,
        [signing (.findByEmail (ascii "grace@example.com") (ascii "password2") demoClient)]⟩ := by
    exact ⟨_, rfl, rfl, admitted_first Demo.draws hlogin hk₀
      (show Demo.start.shared.gate.buckets .auth = RateLimiter.noBuckets from rfl)⟩
  -- the accounts answer it
  obtain ⟨v₁, v₂, hs₁, hs₂, hs₃, hs₄⟩ := signIn_steps g₁
  have h₃ := (hnext 2 _ rfl).trans ((congrArg ((server Demo.env).step · _) h₂).trans hs₁)
  have h₄ := (hnext 3 _ rfl).trans ((congrArg ((server Demo.env).step · _) h₃).trans hs₂)
  have h₅ := (hnext 4 _ rfl).trans ((congrArg ((server Demo.env).step · _) h₄).trans hs₃)
  have h₆ := (hnext 5 _ rfl).trans ((congrArg ((server Demo.env).step · _) h₅).trans hs₄)
  -- time passes, and the token is presented
  obtain ⟨s, hwall, haccount, h₇⟩ : ∃ s : State,
      s.gate.wall = TokenService.issuedAt + 100000000000 ∧
      s.gate.buckets .account = RateLimiter.noBuckets ∧
      soFar 7 = ⟨s, [signing (.issuing (.answered graceSession))]⟩ :=
    ⟨_, rfl, haccount₁, (hnext 6 _ rfl).trans (congrArg ((server Demo.env).step · _) h₆)⟩
  have h₈ : soFar 8 = ⟨s, [signing (.issuing (.answered graceSession))] ++
      [⟨Demo.library, .filtering (.call (.verifyAccessToken Demo.graceToken) k₁)⟩]⟩ := by
    rw [hnext 7 _ rfl, h₇]
    refine congrArg (World.mk _) ?_
    show _ ++ [(⟨Demo.library, handOver Demo.env Demo.library (doFilters Demo.env.gate.config
      Demo.libraryRequest [.jwtAuth] none)⟩ : Task)] = _
    rw [hlibrary]
    rfl
  have h₉ : soFar 9 = ⟨s, [signing (.issuing (.answered graceSession))] ++
      [⟨Demo.library, .filtering (.call (.tryAcquire .account Demo.graceClaims.userId) k₂)⟩]⟩ := by
    have hverify : Filters.exec Demo.env.gate () (.verifyAccessToken Demo.graceToken) s.gate =
        (.ok Demo.graceClaims, s.gate) := by
      show (verifyAccessToken Demo.env.gate.jwt Demo.env.gate.settings s.gate.wall
        Demo.graceToken, s.gate) = _
      rw [hwall, verified_library]
    rw [hnext 8 _ rfl, h₈]
    refine (step_filter [_] _).trans ?_
    rw [hverify, hk₁]
    rfl
  obtain ⟨s', h₁₀⟩ : ∃ s', soFar 10 = ⟨s', [signing (.issuing (.answered graceSession)),
      ⟨Demo.library, .handling (some Demo.graceClaims)
        (catalog Demo.env (.library (actorOf Demo.graceClaims)))⟩]⟩ := by
    have hgranted : (Filters.exec Demo.env.gate () (.tryAcquire .account Demo.graceClaims.userId)
        s.gate).1 = true := by
      show (RateLimiter.tryAcquire _ (s.gate.buckets .account) _ _).1 = true
      rw [haccount]
      exact Filters.granted_first _ _ _
    refine ⟨{ s with gate := (Filters.exec Demo.env.gate () (.tryAcquire .account
      Demo.graceClaims.userId) s.gate).2 }, ?_⟩
    rw [hnext 9 _ rfl, h₉]
    refine (step_filter [_] _).trans (congrArg (World.mk _) ?_)
    rw [hgranted, hk₂]
    rfl
  refine ⟨fun k hk => ?_, ?_, ?_⟩
  · interval_cases k
    · rfl
    · rw [h₁]; rfl
    · rw [h₂]; rfl
    · rw [h₃]; rfl
    · rw [h₄]; rfl
    · rw [h₅]; rfl
    · rw [h₆]; rfl
    · rw [h₇]; rfl
    · rw [h₈]; rfl
    · rw [h₉]; rfl
    · rw [h₁₀]; rfl
  · rw [h₅]
    exact hwall₁
  · rw [h₁₀]
    rfl

/-- A part of the run is one of its first steps. -/
theorem take_of_append {pre post : List Move} (h : Demo.moves = pre ++ post) :
    pre.length ≤ 10 ∧ pre = Demo.moves.take pre.length := by
  constructor
  · have hlength := congrArg List.length h
    rw [List.length_append] at hlength
    have hten : Demo.moves.length = 10 := rfl
    omega
  · rw [h, List.take_left]

theorem getElem?_of_append {pre post : List Move} {l : Move} (h : Demo.moves = pre ++ l :: post) :
    Demo.moves[pre.length]? = some l := by
  rw [h, List.getElem?_append_right (le_refl _), Nat.sub_self]
  rfl

theorem mem_answeredBy {k i : Nat} {t : Task} (hk : k ≤ 10) (hi : (soFar k).tasks[i]? = some t) :
    (answeredBy k)[i]? = some (t.arrival, t.tokens) := by
  rw [← demo_run.1 k hk, List.getElem?_map, hi]
  rfl

theorem exists_of_answeredBy {k i : Nat} {a : Arrival} {o : Option AuthTokens} (hk : k ≤ 10)
    (h : (answeredBy k)[i]? = some (a, o)) : ∃ t, (soFar k).tasks[i]? = some t ∧ t.tokens = o := by
  rw [← demo_run.1 k hk, List.getElem?_map] at h
  obtain ⟨t, ht, heq⟩ := Option.map_eq_some_iff.mp h
  exact ⟨t, ht, congrArg Prod.snd heq⟩

/-- There is one session, grace's. -/
theorem mint_demo (m : Mint Demo.env Demo.start Demo.moves) : m.issuedAt = TokenService.issuedAt ∧
    m.choice.jti = demoJti ∧ m.claims = Demo.graceClaims := by
  obtain ⟨-, hpre⟩ := take_of_append m.run
  have hmove := getElem?_of_append m.run
  have hk : m.pre.length < 10 := (List.getElem?_eq_some_iff.mp hmove).1
  have hupTo : m.pre ++ [.resume m.i m.choice] = Demo.moves.take (m.pre.length + 1) := by
    rw [List.take_add_one, hmove, ← hpre]
    rfl
  have hbefore : (answeredBy m.pre.length)[m.i]? = some (m.before.arrival, none) := by
    rw [← m.unanswered]
    refine mem_answeredBy hk.le ?_
    rw [soFar, ← hpre]
    exact m.found
  have hafter : (answeredBy (m.pre.length + 1))[m.i]? = some (m.after.arrival, some m.tokens) := by
    rw [← m.session]
    refine mem_answeredBy hk ?_
    rw [soFar, ← hupTo]
    exact m.answered
  -- the session is there after the sixth step, and not before
  have htable : ∀ k < 10, ∀ (i : Nat) (a a' : Arrival) tokens, (answeredBy k)[i]? = some (a, none) →
      (answeredBy (k + 1))[i]? = some (a', some tokens) → k = 5 ∧ tokens = graceSession := by
    intro k hk i a a' tokens hb ha
    rcases i with _ | _ | i
    · interval_cases k <;> simp [answeredBy] at hb ha
      exact ⟨rfl, ha.2.symm⟩
    · interval_cases k <;> simp [answeredBy] at ha
    · interval_cases k <;> simp [answeredBy] at ha
  obtain ⟨hfive, htokens⟩ := htable _ hk _ _ _ _ hbefore hafter
  rw [hfive] at hpre hmove
  have hchoice : Demo.next 0 = .resume m.i m.choice := Option.some.inj hmove
  refine ⟨?_, ?_, ?_⟩
  · unfold Mint.issuedAt
    rw [hpre]
    exact demo_run.2.1
  · exact (congrArg Choice.jti (Label.resume.inj hchoice).2).symm
  · unfold Mint.claims
    rw [htokens]
    rfl

theorem trusted_demo : Trusted Demo.env Demo.start Demo.moves where
  dates := TokenService.jwtOf_readsDates _ _
  carries m := by
    obtain ⟨hissued, hjti, hclaims⟩ := mint_demo m
    rw [hissued, hjti, hclaims]
    exact TokenService.jwtOf_carries graceToken_ne_nil _
  clock m := by
    rw [(mint_demo m).1]
    exact TokenService.representable_issuedAt
  issued := by
    intro pre post hmoves t ht request userAgent handler harrival hverifies
    obtain ⟨hk, hpre⟩ := take_of_append hmoves
    have hpresented : extractBearerToken request = Demo.graceToken :=
      (of_decide_eq_true hverifies).2
    obtain ⟨i, hi⟩ := List.getElem?_of_mem ht
    rw [hpre] at hi
    have hmem := List.mem_of_getElem? (mem_answeredBy hk hi)
    -- the sign-in presents no token, and the other request comes after the session
    have hlate : 6 ≤ pre.length := by
      by_contra hearly
      have hlogin : t.arrival = Demo.login := by
        unfold answeredBy at hmem
        rw [if_pos (show pre.length < 8 by omega), List.append_nil] at hmem
        split at hmem
        · cases hmem
        · exact congrArg Prod.fst (List.mem_singleton.mp hmem)
      rw [hlogin] at harrival
      cases harrival
      exact graceToken_ne_nil hpresented.symm
    obtain ⟨before, hfound, hunanswered⟩ := exists_of_answeredBy (k := 5) (i := 0) (by decide) rfl
    obtain ⟨after, hanswered, hsession⟩ := exists_of_answeredBy (k := 6) (i := 0) (by decide) rfl
    have hsix : pre.take 6 = Demo.moves.take 5 ++ [.resume 0 Demo.draws] := by
      have htake := congrArg (List.take 6) hpre
      rw [List.take_take, min_eq_left hlate] at htake
      exact htake
    refine ⟨⟨Demo.moves.take 5, 0, Demo.draws, pre.drop 6, before, after, graceSession, ?_, hfound,
      hunanswered, hanswered, hsession⟩, hpresented.symm⟩
    exact (List.take_append_drop 6 pre).symm.trans
      ((congrArg (· ++ pre.drop 6) hsix).trans (List.append_assoc _ _ _))

end Demo

end Launcher.Controllers
