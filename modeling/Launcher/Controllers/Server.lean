import Launcher.Controllers.Handlers
import Launcher.Lib.Hosting

set_option autoImplicit false

/-! # The whole server

Every request goes through the filters of its route and then to its handler, which awaits the
coroutines of the services; the timers of `app/Bootstrap.cpp` start theirs without a request. The
filters keep buckets and clocks, the services the database and the blobs, and all of it interleaves.

For the services, what the server does is what they do on their own (`services_refined`): the
filters, the sessions of the administrative surface and the PATCH of a user only decide which
requests they get, and when. -/

namespace Launcher.Controllers

open Lib
open Filters (HttpRequest Attributes Chain doFilters)

/-! ## The system -/

structure State where
  gate : Filters.State
  services : Deployment.State

structure Choice where
  services : Deployment.Choice
  /-- What `randomUuid` gives an access token. -/
  jti : Bytes

inductive Call : Type → Type 1
  | filter {α : Type} (c : Filters.Call α) : Call α
  | service {α : Type} (c : Deployment.Call α) : Call α

inductive Arrival
  | http (request : HttpRequest) (userAgent : Bytes) (handler : Handler)
  | sweepExpiredSessions
  | collectUnreferencedBlobs

inductive Body : Type 1
  | filtering (chain : Chain Attributes)
  | handling (attributes : Attributes) (work : Work)

structure Task : Type 1 where
  arrival : Arrival
  body : Body

def Arrival.start (env : Env) (attributes : Attributes) : Arrival → Work
  | .http request userAgent handler => handler.start env request userAgent attributes
  | .sweepExpiredSessions => catalog env (.core .sweepExpiredSessions)
  | .collectUnreferencedBlobs => catalog env (.core .collectUnreferencedBlobs)

/-- Once the filters have let the request through, the handler runs up to its first call. -/
def handOver (env : Env) (arrival : Arrival) (chain : Chain Attributes) : Body :=
  match chain with
  | .done (.ok attributes) => .handling attributes (arrival.start env attributes)
  | chain => .filtering chain

/-- The filters a request has to pass. -/
def Arrival.filters (env : Env) : Arrival → Chain Attributes
  | .http request _ handler => doFilters env.gate.config request handler.endpoint.filters none
  | _ => .done (.ok none)

def Body.next (env : Env) (arrival : Arrival) : Body → Suspended Call Body
  | .filtering chain => (chain.next.lift Call.filter).map (handOver env arrival)
  | .handling attributes work => ((work.next env).lift Call.service).map (.handling attributes)

/-- Run one call. -/
def exec (env : Env) (choice : Choice) : {α : Type} → Call α → State → α × State
  | _, .filter c, s =>
      let r := Filters.exec env.gate () c s.gate
      (r.1, { s with gate := r.2 })
  | _, .service c, s =>
      let r := Deployment.exec env.services choice.services c s.services
      (r.1, { s with services := r.2 })

def outside : Filters.Outside → State → State
  | .tick duration wall, s =>
      { gate := Filters.outside (.tick duration wall) s.gate
        services := Deployment.outside (.tick duration) s.services }

def server (env : Env) : System State Task Arrival Choice Filters.Outside Call where
  entry arrival := ⟨arrival, handOver env arrival (arrival.filters env)⟩
  next t := (t.body.next env t.arrival).map (fun body => ⟨t.arrival, body⟩)
  exec := exec env
  outside := outside

abbrev Server := World State Task

abbrev Move := Label Arrival Choice Filters.Outside

/-- A server that has just started, over tables in which there are no sessions and no links and
nothing has been published. -/
structure Initial (w : Server) : Prop where
  tasks : w.tasks = []
  gate : Filters.Initial ⟨w.shared.gate, []⟩
  services : Deployment.Initial ⟨w.shared.services, []⟩

/-- A step of the filters of the newest request. -/
theorem step_filter {env : Env} {s : State} (before : List Task) {arrival : Arrival} {α : Type}
    {c : Filters.Call α} {k : α → Chain Attributes} (choice : Choice) :
    (server env).step ⟨s, before ++ [⟨arrival, .filtering (.call c k)⟩]⟩
        (.resume before.length choice) =
      ⟨{ s with gate := (Filters.exec env.gate () c s.gate).2 }, before ++
        [⟨arrival, handOver env arrival (k (Filters.exec env.gate () c s.gate).1)⟩]⟩ := by
  rw [(server env).step_resume (List.getElem?_concat_length) rfl]
  refine congrArg (World.mk _) ?_
  rw [List.set_append_right _ _ (le_refl _), Nat.sub_self]
  rfl

/-- Whoever comes to a limiter first gets to the handler. -/
theorem admitted_first {env : Env} {s : State} {arrival : Arrival} {limiter : Filters.Limiter}
    {key : Bytes} {k : Bool → Chain Attributes} {attributes : Attributes} (choice : Choice)
    (hfilters : arrival.filters env = .call (.tryAcquire limiter key) k)
    (hk : k true = .done (.ok attributes))
    (hempty : s.gate.buckets limiter = RateLimiter.noBuckets) :
    (server env).run ⟨s, []⟩ [.request arrival, .resume 0 choice] =
      ⟨{ s with gate := (Filters.exec env.gate () (.tryAcquire limiter key) s.gate).2 },
        [⟨arrival, .handling attributes (arrival.start env attributes)⟩]⟩ := by
  have hrequest : (server env).step ⟨s, []⟩ (.request arrival) =
      ⟨s, [] ++ [⟨arrival, .filtering (.call (.tryAcquire limiter key) k)⟩]⟩ := by
    refine congrArg (World.mk _) ?_
    show [] ++ [(⟨arrival, handOver env arrival (arrival.filters env)⟩ : Task)] = _
    rw [hfilters]
    rfl
  have hgranted : (Filters.exec env.gate () (.tryAcquire limiter key) s.gate).1 = true := by
    show (RateLimiter.tryAcquire _ (s.gate.buckets limiter) _ _).1 = true
    rw [hempty]
    exact Filters.granted_first _ _ _
  rw [System.run_cons, hrequest]
  refine (step_filter [] _).trans (congrArg (World.mk _) ?_)
  rw [hgranted, hk]
  rfl

/-! ## What the services see -/

/-- The coroutine of the services that a handler is suspended in. -/
def Work.inner : Work → Option Deployment.Task
  | .service t => some t
  | .adopting (.signingIn t) => some (.accounts (.login t))
  | .adopting (.rotating t) => some (.accounts (.refresh t))
  | .adopting (.retiring _ t) => some (.accounts (.logout t))
  | .updating (.setUploadQuota t _ _ _) => some (.accounts (.setUploadQuota t))
  | .updating (.setActive t) => some (.accounts (.setActive t))
  | _ => none

def Body.inner : Body → Option Deployment.Task
  | .filtering _ => none
  | .handling _ work => work.inner

def Task.inner (t : Task) : Option Deployment.Task := t.body.inner

section Hosting

variable {env : Env} {choice : Deployment.Choice} {s : Deployment.State}

/-- What a step that does not call the services may do to them. -/
def Begins (env : Env) (o o' : Option Deployment.Task) : Prop :=
  ∀ s, System.Hosted (Deployment.server env.services) s o s o'

theorem begins_adopt (tokens : Accounts.AuthTokens) (o : Option Deployment.Task) :
    Begins env o (Work.adopting (adoptAdminSession tokens)).inner := by
  intro s
  unfold adoptAdminSession
  split
  · exact .ended
  · exact .start (Deployment.Request.accounts (.logout tokens.refreshToken))

theorem begins_afterLogin (t : Accounts.Login) :
    Begins env (some (.accounts (.login t))) (Work.adopting (afterLogin t)).inner := by
  cases t with
  | answered result =>
      cases result with
      | error e => exact fun _ => .ended
      | ok tokens => exact fun _ => .same
  | issuing t =>
      cases t with
      | answered tokens => exact begins_adopt tokens _
      | threw e => exact fun _ => .ended
      | _ => exact fun _ => .same
  | _ => exact fun _ => .same

theorem begins_afterRefresh (t : Accounts.Refresh) :
    Begins env (some (.accounts (.refresh t))) (Work.adopting (afterRefresh t)).inner := by
  cases t with
  | answered result =>
      cases result with
      | error e => exact fun _ => .ended
      | ok tokens => exact fun _ => .same
  | issuing t =>
      cases t with
      | answered tokens => exact begins_adopt tokens _
      | threw e => exact fun _ => .ended
      | _ => exact fun _ => .same
  | _ => exact fun _ => .same

theorem begins_afterLogout (tokens : Accounts.AuthTokens) (t : Accounts.Logout) :
    Begins env (some (.accounts (.logout t))) (Work.adopting (afterLogout tokens t)).inner := by
  cases t with
  | answered result => exact fun _ => .ended
  | _ => exact fun _ => .same

open Accounts (setActive setUploadQuota) in
open Accounts.AdminUserController in
/-- The second change of a PATCH, if it gets as far as that. -/
theorem begins_updateActive (actor : Actor) (userId : Bytes) (body : Json)
    (current : Option Accounts.AdminUserSummary) (o : Option Deployment.Task) :
    Begins env o (Work.updating (updateActive env.jsoncpp actor userId body current)).inner := by
  intro s
  have hfind : System.Hosted (Deployment.server env.services) s o s
      (Work.updating (Accounts.AdminUserController.find actor userId)).inner := by
    unfold Accounts.AdminUserController.find
    split <;> exact .ended
  unfold updateActive
  split
  · exact .ended
  · split
    · exact .ended
    · next active _ =>
        have hstart := System.Hosted.start (S := Deployment.server env.services) (s := s) (o := o)
          (Deployment.Request.accounts (.setActive actor userId active))
        change System.Hosted _ s o s (some (.accounts (.setActive (setActive actor userId active))))
          at hstart
        cases ht : setActive actor userId active with
        | answered result => exact .ended
        | _ =>
            rw [ht] at hstart
            exact hstart
  · split
    · exact .ended
    · exact hfind

open Accounts (setUploadQuota) in
open Accounts.AdminUserController in
theorem begins_afterQuota (actor : Actor) (userId : Bytes) (body : Json)
    (t : Accounts.SetUploadQuota) :
    Begins env (some (.accounts (.setUploadQuota t)))
      (Work.updating (afterQuota env.jsoncpp actor userId body t)).inner := by
  cases t with
  | answered result =>
      cases result with
      | error e => exact fun _ => .ended
      | ok summary =>
          show Begins env _ (Work.updating (updateActive env.jsoncpp actor userId body
            (some summary))).inner
          exact begins_updateActive actor userId body _ _
  | _ => exact fun _ => .same

theorem begins_afterActive (t : Accounts.SetActive) :
    Begins env (some (.accounts (.setActive t)))
      (Work.updating (Accounts.AdminUserController.afterActive t)).inner := by
  cases t with
  | answered result => exact fun _ => .ended
  | _ => exact fun _ => .same

open Accounts (setUploadQuota) in
open Accounts.AdminUserController in
theorem begins_update (actor : Actor) (userId : Bytes) (body : Option Json) :
    Begins env none (Work.updating (update env.jsoncpp actor userId body)).inner := by
  intro s
  unfold update
  split
  · exact .ended
  · split
    · exact .ended
    · exact begins_updateActive actor userId _ _ none s
    · split
      · exact .ended
      · exact .ended
      · next quotaBytes _ =>
          have hstart := System.Hosted.start (S := Deployment.server env.services) (s := s)
            (o := none) (Deployment.Request.accounts (.setUploadQuota actor userId quotaBytes))
          change System.Hosted _ s none s (some (Deployment.Task.accounts
            (.setUploadQuota (setUploadQuota actor userId quotaBytes)))) at hstart
          cases ht : setUploadQuota actor userId quotaBytes with
          | answered result =>
              cases result with
              | error e => exact .ended
              | ok summary =>
                  show System.Hosted _ s none s (Work.updating (updateActive env.jsoncpp actor
                    userId _ (some summary))).inner
                  exact begins_updateActive actor userId _ _ none s
          | _ =>
              rw [ht] at hstart
              exact hstart

/-- Every handler starts with one request for the services, or with none. -/
theorem begins_start (arrival : Arrival) (attributes : Attributes) :
    Begins env none (arrival.start env attributes).inner := by
  have hcatalog : ∀ r, Begins env none (catalog env r).inner := fun r _ =>
    .start (Deployment.Request.catalog r)
  cases arrival with
  | sweepExpiredSessions => exact hcatalog _
  | collectUnreferencedBlobs => exact hcatalog _
  | http request userAgent handler =>
      refine Handler.start_cases (P := fun work => Begins env none work.inner) (fun _ => .same)
        (fun r _ => .start (Deployment.Request.accounts r)) (fun _ r _ _ => hcatalog r)
        (fun email password client _ => .start (Deployment.Request.accounts
          (.login email password client)))
        (fun refreshToken client _ => .start (Deployment.Request.accounts
          (.refresh refreshToken client))) begins_update handler

theorem begins_handOver (arrival : Arrival) (chain : Chain Attributes) :
    Begins env none (handOver env arrival chain).inner := by
  unfold handOver
  split
  · exact begins_start arrival _
  · exact fun _ => .same

/-- A call of a coroutine of the accounts, from inside a handler. -/
theorem hosts_accounts {υ : Type} {x : Suspended Accounts.Call υ} {f : υ → Accounts.Task}
    {g : υ → Work} {t : Accounts.Task} (ht : t.next env.services.accounts = x.map f)
    (h : ∀ u, Begins env (some (.accounts (f u))) (g u).inner) :
    ((x.map g).lift Deployment.Call.accounts).Wp (Deployment.exec env.services) choice s
      (fun s' work => System.Hosted (Deployment.server env.services) s (some (.accounts t)) s'
        work.inner) := by
  cases x with
  | done => trivial
  | call c k =>
      intro r s' e
      have hn : (Deployment.server env.services).next (.accounts t) =
          .call (.accounts c) (fun r => .accounts (f (k r))) := by
        show ((t.next env.services.accounts).lift Deployment.Call.accounts).map _ = _
        rw [ht]
        rfl
      have hresume := System.Hosted.resume (s := s) choice hn
        (h (k (Deployment.exec env.services choice (.accounts c) s).1)
          (Deployment.exec env.services choice (.accounts c) s).2)
      rwa [e] at hresume

/-- The handler's continuation is that of its coroutine, with what the handler does next. -/
theorem map_lift_map {υ ξ : Type} (x : Suspended Accounts.Call υ) (f : υ → ξ) (g : ξ → Work) :
    ((x.map f).lift Deployment.Call.accounts).map g =
      (x.map (fun u => g (f u))).lift Deployment.Call.accounts := by
  cases x <;> rfl

/-- A step of a handler is a step of its coroutine, and then perhaps the next request. -/
theorem Work.next_hosted (env : Env) (choice : Deployment.Choice) (s : Deployment.State)
    (work : Work) :
    (work.next env).Wp (Deployment.exec env.services) choice s
      (fun s' work' => System.Hosted (Deployment.server env.services) s work.inner s'
        work'.inner) := by
  cases work with
  | answered => trivial
  | service t =>
      exact System.Hosted.wp_next (S := Deployment.server env.services) Work.inner
        (fun _ _ => .same) t
  | adopting t =>
      cases t with
      | answered result => trivial
      | threw e => trivial
      | signingIn t =>
          show ((((t.next env.services.accounts).map afterLogin).lift _).map Work.adopting).Wp
            _ _ _ _
          rw [map_lift_map]
          exact hosts_accounts (t := .login t) rfl begins_afterLogin
      | rotating t =>
          show ((((t.next env.services.accounts).map afterRefresh).lift _).map Work.adopting).Wp
            _ _ _ _
          rw [map_lift_map]
          exact hosts_accounts (t := .refresh t) rfl begins_afterRefresh
      | retiring tokens t =>
          show ((((t.next env.services.accounts).map (afterLogout tokens)).lift _).map
            Work.adopting).Wp _ _ _ _
          rw [map_lift_map]
          exact hosts_accounts (t := .logout t) rfl (begins_afterLogout tokens)
  | updating t =>
      cases t with
      | answered result => trivial
      | threw e => trivial
      | findSummary userId =>
          rintro r s' e
          cases e
          exact .same
      | setUploadQuota t actor userId body =>
          show (((t.next.map (Accounts.AdminUserController.afterQuota env.jsoncpp actor userId
            body)).lift _).map Work.updating).Wp _ _ _ _
          rw [map_lift_map]
          exact hosts_accounts (t := .setUploadQuota t) rfl (begins_afterQuota actor userId body)
      | setActive t =>
          show (((t.next.map Accounts.AdminUserController.afterActive).lift _).map
            Work.updating).Wp _ _ _ _
          rw [map_lift_map]
          exact hosts_accounts (t := .setActive t) rfl begins_afterActive

/-- The step of a task of the server. -/
theorem Task.next_hosted (choice : Choice) (s : State) (t : Task) :
    ((server env).next t).Wp (server env).exec choice s
      (fun s' t' => System.Hosted (Deployment.server env.services) s.services t.inner s'.services
        t'.inner) := by
  show ((t.body.next env t.arrival).map (fun body => (⟨t.arrival, body⟩ : Task))).Wp _ _ _ _
  rw [Suspended.wp_map]
  unfold Task.inner
  cases t.body with
  | filtering chain =>
      show ((chain.next.lift Call.filter).map (handOver env t.arrival)).Wp _ _ _ _
      cases chain with
      | done r => trivial
      | call c k =>
          -- the services are not asked anything yet; the last filter starts the handler
          rintro r s' e
          cases e
          exact begins_handOver t.arrival _ _
  | handling attributes work =>
      show (((work.next env).lift Call.service).map (Body.handling attributes)).Wp _ _ _ _
      have hwork := work.next_hosted env choice.services s.services
      cases hn : work.next env with
      | done => trivial
      | call c k =>
          rw [hn] at hwork
          rintro r s' e
          cases e
          exact hwork _ _ rfl

/-- **For the services, the server is one of their runs.** In every interleaving of requests on
their way through the filters, handlers and timers, the database and the blobs are in a state that
the services reach on their own, and each handler that awaits a coroutine awaits one of that run's,
of its own. -/
theorem services_refined (env : Env) {w : Server} (hw : w.tasks = []) (ls : List Move) :
    ∃ ms place, System.Hosts ((server env).run w ls).shared.services
      (((server env).run w ls).tasks.map Task.inner)
      ((Deployment.server env.services).run ⟨w.shared.services, []⟩ ms) place := by
  refine System.hosted_run (S := Deployment.server env.services) (T := server env)
    State.services Task.inner ?_ Task.next_hosted ?_ hw ls
  · exact fun s arrival => begins_handOver arrival (arrival.filters env) s
  · rintro ⟨duration, wall⟩ s
    exact ⟨.tick duration, rfl⟩

end Hosting

/-! ## A small deployment -/

namespace Demo

open TokenService (demoSettings demoJti issuedAt jwtOf payloadOf)

/-- What grace's token asserts. -/
def graceClaims : TokenService.AccessTokenClaims :=
  claimsOf ⟨2, ascii "grace@example.com", Accounts.Demo.adminPermissions, false⟩

/-- The token of these claims. -/
def graceToken : Bytes :=
  ascii "eyJhbGciOiJIUzI1NiIsInR5cCI6IkpXVCJ9.eyJlbWFpbCI6ImdyYWNlQGV4YW1wbGUuY29tIiwiZXhwIjo" ++
    (ascii "xNzAwMDAwOTAwLCJpYXQiOjE3MDAwMDAwMDAsImlzcyI6ImN1c3RvbS1nYW1lLWxhdW5jaGVyIiwianRpIjo" ++
    (ascii "iMGIwZjVhNTItOGYxZS00ZDZhLTljN2ItMmY0ZjZmMWY5YTEwIiwibmJmIjoxNzAwMDAwMDAwLCJwZXJtaXN" ++
    (ascii "zaW9ucyI6WyJhZG1pbi5jcmFzaGVzLnJlYWQiLCJhZG1pbi5nYW1lcy5tYW5hZ2UiLCJhZG1pbi5yb2xlcy5" ++
    (ascii "tYW5hZ2UiLCJhZG1pbi5zZXR0aW5ncy5tYW5hZ2UiLCJhZG1pbi51c2Vycy5tYW5hZ2UiLCJidWlsZC51cGx" ++
    (ascii "vYWQiLCJnYW1lLmRvd25sb2FkIiwiZ2FtZS5wdWJsaXNoIiwiZ2FtZS5yZWFkIiwibGlicmFyeS5tYW5hZ2U" ++
    (ascii "iLCJsaWJyYXJ5LnJlYWQiLCJwYXRjaG5vdGUud3JpdGUiXSwicHdkX2NoYW5nZSI6ZmFsc2UsInN1YiI6IjA" ++
    (ascii "wMDAwMDAwLTAwMDAtMDAwMC0wMDAwLTAwMDAwMDAwMDAwMiJ9.QGO27qSmI8jxgYdADYS4M0_CtEEYksAjbm" ++
    ascii "fgwSsvhc0")))))))

def env : Env where
  gate := ⟨Filters.Demo.config,
    jwtOf graceToken (payloadOf demoSettings issuedAt demoJti graceClaims), demoSettings⟩
  services := ⟨Accounts.Demo.env, Storefront.Demo.env⟩
  jsoncpp := referenceJson

def start : Server where
  shared :=
    { gate := ⟨0, issuedAt, fun _ => RateLimiter.noBuckets⟩
      services := ⟨Accounts.Demo.start.shared, Storefront.Demo.empty⟩ }
  tasks := []

theorem initial_start : Initial start :=
  ⟨rfl, ⟨rfl, fun _ => rfl⟩, rfl, Accounts.Demo.initial_start, rfl, Storefront.Demo.initial_opened⟩

def loginRequest : HttpRequest where
  peerAddr := ascii "203.0.113.7"
  localPort := 8080
  path := ascii "/api/v1/auth/login"
  forwardedFor := []
  authorization := []

def libraryRequest : HttpRequest where
  peerAddr := ascii "203.0.113.7"
  localPort := 8080
  path := ascii "/api/v1/library"
  forwardedFor := []
  authorization := Filters.BEARER_PREFIX ++ graceToken

def login : Arrival :=
  .http loginRequest [] (.login (ascii "grace@example.com") (ascii "password2"))

def library : Arrival := .http libraryRequest [] .library

/-- What the row of a session and its access token draw. -/
def draws : Choice := ⟨⟨⟨11, 21, ascii "t1", [], true⟩, ⟨0, .none⟩⟩, demoJti⟩

/-- Task `i` makes its next call. -/
def next (i : Nat) : Move := .resume i draws

/-- grace signs in. -/
def signIn : List Move := [.request login, next 0, next 0, next 0, next 0, next 0]

/-- A hundred seconds later she asks for her library. -/
def moves : List Move := signIn ++
  [.outside (.tick 100000000000 (issuedAt + 100000000000)), .request library, next 1, next 1]

end Demo

theorem services_refined_demo : ∃ ms place,
    System.Hosts ((server Demo.env).run Demo.start Demo.moves).shared.services
      (((server Demo.env).run Demo.start Demo.moves).tasks.map Task.inner)
      ((Deployment.server Demo.env.services).run ⟨Demo.start.shared.services, []⟩ ms) place :=
  services_refined Demo.env rfl Demo.moves

end Launcher.Controllers
