import Launcher.Filters.Rates

set_option autoImplicit false

/-! # What has been checked of a request that reaches its handler

A handler that was registered behind a filter may rely on it: `Guarded` says what each filter
has made sure of by then, and `admitted_guarded` that it has, of every request in every
interleaving. -/

namespace Launcher.Filters

open Lib
open TokenService (AccessTokenClaims)

/-! ## What a filter makes sure of -/

/-- What the filter has checked of a request that has these attributes. -/
def Filter.Checked (config : Config) (request : HttpRequest) (attributes : Attributes) :
    Filter → Prop
  | .authRateLimit => True
  | .mailRateLimit => config.mailEnabled = true
  | .crashRateLimit => config.crashReportsEnabled = true
  | .jwtAuth => ∃ claims, attributes = some claims ∧
      (claims.passwordChangeRequired = true → request.path = PASSWORD_CHANGE_PATH)
  | .adminSurface => config.adminEnabled = true ∧ request.localPort = config.adminPort
  | .adminOperator => ∃ claims, attributes = some claims ∧
      ∃ permission ∈ claims.permissions, isAdministrativePermission permission = true

/-- Whether what a filter has checked is about the attributes. -/
def Filter.ofAttributes : Filter → Bool
  | .jwtAuth => true
  | .adminOperator => true
  | _ => false

/-- No filter that checks the attributes stands in front of the one that sets them. -/
def Wired (filters : List Filter) : Prop :=
  filters.Pairwise (fun f g => f.ofAttributes = true → g ≠ .jwtAuth)

instance decidableWired (filters : List Filter) : Decidable (Wired filters) :=
  inferInstanceAs (Decidable (filters.Pairwise _))

theorem Endpoint.wired (endpoint : Endpoint) : Wired endpoint.filters := by
  cases endpoint <;> decide

/-- Whether a route is on the administrative surface is asked before anything else. -/
theorem Endpoint.surface_first {endpoint : Endpoint} (h : .adminSurface ∈ endpoint.filters) :
    endpoint.filters = .adminSurface :: endpoint.filters.tail := by
  revert h
  cases endpoint <;> decide

/-- The claims of the token in the request have been verified. -/
def Verified (request : HttpRequest) (claims : AccessTokenClaims) :
    {γ : Type} → Call γ → γ → Prop
  | _, .verifyAccessToken token, verified =>
      token = extractBearerToken request ∧ verified = .ok claims
  | _, _, _ => False

section Checks

variable {config : Config} {request : HttpRequest}

theorem Filter.checked_of_not {filter : Filter} (h : filter.ofAttributes = false)
    {attributes attributes' : Attributes} (hc : filter.Checked config request attributes) :
    filter.Checked config request attributes' := by
  cases filter with
  | jwtAuth => cases h
  | adminOperator => cases h
  | _ => exact hc

/-- No filter lets a request proceed that it has not checked. -/
theorem Filter.doFilter_checked (filter : Filter) (attributes : Attributes) :
    (filter.doFilter config request attributes).Never
      (fun a => ¬filter.Checked config request a) := by
  -- of the filters that keep the attributes, what they check holds if they answer at all
  have hkeeps : ∀ (chain : Chain Unit) {P : Prop}, (¬P → chain.Never (fun _ => True)) →
      (chain >>= fun _ => (pure attributes : Chain Attributes)).Never (fun _ => ¬P) := by
    intro chain P hchain
    by_cases hP : P
    · exact Program.After.mono (A := fun _ => False) (fun _ h => h hP) Program.after_empty
    · exact (hchain hP).bind_left _
  cases filter with
  | authRateLimit => exact hkeeps _ (fun h => absurd trivial h)
  | mailRateLimit =>
      refine hkeeps _ (fun h => ?_)
      unfold MailRateLimitFilter.doFilter
      rw [if_pos (by simpa using h)]
      trivial
  | crashRateLimit =>
      refine hkeeps _ (fun h => ?_)
      unfold CrashRateLimitFilter.doFilter
      rw [if_pos (by simpa using h)]
      trivial
  | adminSurface =>
      refine hkeeps _ (fun h => ?_)
      unfold AdminSurfaceFilter.doFilter
      rw [if_pos (by
        rw [not_and_or] at h
        rcases h with h | h <;> simp [h])]
      trivial
  | adminOperator =>
      show (AdminOperatorFilter.doFilter attributes >>= _).Never _
      cases attributes with
      | none => trivial
      | some claims =>
          unfold AdminOperatorFilter.doFilter
          dsimp only
          split_ifs with hmay
          · trivial
          · intro h
            refine h ⟨claims, rfl, ?_⟩
            simpa [mayUseAdminSurface] using hmay
  | jwtAuth =>
      show (JwtAuthFilter.doFilter request >>= _).Never _
      refine Program.After.bind (B := fun claims => ¬(claims.passwordChangeRequired = true →
        request.path = PASSWORD_CHANGE_PATH)) (fun claims h => ?_) ?_
      · exact fun hnot => hnot ⟨claims, rfl, not_not.mp h⟩
      · unfold JwtAuthFilter.doFilter
        dsimp only
        split_ifs
        · trivial
        · refine Program.after_await (fun verified => Or.inr ?_)
          cases verified with
          | error e => trivial
          | ok claims =>
              show (acquire .account _ claims.userId >>= _).After _ _
              refine Program.After.bind_right (fun _ => ?_) _
              split_ifs with hflag
              · trivial
              · intro h
                refine h (fun hrequired => ?_)
                by_contra hpath
                exact hflag (by simp [hrequired, hpath])

/-- Nor does a list of filters. -/
theorem doFilters_checked : ∀ {filters : List Filter} (attributes : Attributes), Wired filters →
    ∀ filter ∈ filters, (doFilters config request filters attributes).Never
      (fun a => ¬filter.Checked config request a)
  | [], _, _, _, h => absurd h List.not_mem_nil
  | first :: rest, attributes, hwired, filter, h => by
      obtain ⟨hfirst, hrest⟩ := List.pairwise_cons.mp hwired
      rcases List.mem_cons.mp h with rfl | h
      · refine Program.After.bind (fun a ha => ?_) (Filter.doFilter_checked filter attributes)
        have hchecked := not_not.mp ha
        cases hof : filter.ofAttributes with
        | true =>
            -- the rest leaves the attributes alone
            refine Program.After.mono (A := (· ≠ a)) (fun a' ha' heq => ?_)
              (doFilters_keeps a (fun hmem => hfirst _ hmem hof rfl))
            rw [heq] at ha'
            exact ha' hchecked
        | false =>
            exact Program.After.mono (A := fun _ => False)
              (fun a' ha' => ha' (Filter.checked_of_not hof hchecked)) Program.after_empty
      · exact Program.After.bind_right (fun a => doFilters_checked a hrest filter h) _

/-- The claims that `JwtAuthFilter` leaves on a request are those of its token. -/
theorem doFilters_verified (claims : AccessTokenClaims) : ∀ {filters : List Filter}
    (attributes : Attributes), Filter.jwtAuth ∈ filters →
      (doFilters config request filters attributes).After (Verified request claims)
        (· = some claims)
  | [], _, h => absurd h List.not_mem_nil
  | first :: rest, attributes, h => by
      by_cases hrest : Filter.jwtAuth ∈ rest
      · exact Program.After.bind_right (fun a => doFilters_verified claims a hrest) _
      · obtain rfl : first = .jwtAuth := ((List.mem_cons.mp h).resolve_right hrest).symm
        refine Program.After.bind (B := (· = some claims)) (fun a ha => ?_) ?_
        · refine Program.After.mono (A := (· ≠ a)) (fun a' ha' heq => ?_)
            (doFilters_keeps a hrest).after
          exact ha (heq ▸ ha')
        · show (JwtAuthFilter.doFilter request >>= _).After _ _
          refine Program.After.bind (B := (· = claims)) (fun found hne => ?_) ?_
          · exact fun heq => hne (Option.some.inj heq)
          unfold JwtAuthFilter.doFilter
          dsimp only
          split_ifs
          · trivial
          · refine Program.after_await (fun verified => ?_)
            cases verified with
            | error e => exact Or.inr trivial
            | ok found =>
                by_cases hfound : found = claims
                · exact Or.inl ⟨rfl, by rw [hfound]⟩
                · right
                  show (acquire .account _ found.userId >>= _).After _ _
                  refine Program.After.bind_right (fun _ => ?_) _
                  split_ifs
                  · trivial
                  · exact hfound

end Checks

/-! ## Every run -/

section Run

variable {env : Env}

/-- What every answer of the chain will be, it was from the start. -/
theorem run_checked {w : Gate} (hw : Initial w) (ls : List Move) :
    ∀ t ∈ ((gate env).run w ls).tasks, ∀ filter ∈ t.endpoint.filters,
      t.chain.Never (fun a => ¬filter.Checked env.config t.request a) := by
  refine System.prefix_induction (J := fun _ (w' : Gate) => ∀ t ∈ w'.tasks,
    ∀ filter ∈ t.endpoint.filters, t.chain.Never (fun a => ¬filter.Checked env.config t.request a)) ?start ?next ls
  case start =>
    intro t ht
    rw [hw.tasks] at ht
    exact absurd ht List.not_mem_nil
  case next =>
    intro ls l ih
    refine System.step_induction (P := fun w' : Gate => ∀ t ∈ w'.tasks,
      ∀ filter ∈ t.endpoint.filters, t.chain.Never (fun a => ¬filter.Checked env.config t.request a)) ?request ?resume ih
      (fun _ _ => ih)
    case request =>
      intro r _ t ht
      rcases List.mem_append.mp ht with ht | ht
      · exact ih t ht
      · obtain rfl := List.mem_singleton.mp ht
        exact doFilters_checked none r.endpoint.wired
    case resume =>
      intro i choice t _ hi
      show ((t.chain.next).map _).Wp _ _ _ _
      rw [Suspended.wp_map]
      have hown := ih t (List.mem_of_getElem? hi)
      cases hc : t.chain with
      | done r => trivial
      | call c k =>
          intro r s' _ t' ht' filter hfilter
          rcases List.mem_or_eq_of_mem_set ht' with ht' | rfl
          · exact ih t' ht' filter hfilter
          · have hnever := hown filter hfilter
            rw [hc] at hnever
            exact (hnever r).resolve_left id

/-- What a handler may rely on. -/
structure Guarded (env : Env) (w : Gate) (ls : List Move) (j : Nat) (t : Task)
    (attributes : Attributes) : Prop where
  /-- Every filter of the route has checked the request. -/
  checked : ∀ filter ∈ t.endpoint.filters, filter.Checked env.config t.request attributes
  /-- The claims are those of the token in the request, which was accepted at some moment since
  the request arrived. -/
  verified : Filter.jwtAuth ∈ t.endpoint.filters → ∃ claims, attributes = some claims ∧
    (gate env).Since w ls j (fun s => TokenService.verifyAccessToken env.jwt env.settings s.wall
      (extractBearerToken t.request) = .ok claims)

/-- The claims a chain can answer with because it has verified them. -/
def Task.HasVerified (t : Task) (o : Bytes × AccessTokenClaims) : Prop :=
  extractBearerToken t.request = o.1 ∧ Filter.jwtAuth ∈ t.endpoint.filters ∧
    ¬t.chain.After (Verified t.request o.2) (· = some o.2)

theorem hasVerified_since {w : Gate} (hw : Initial w) (ls : List Move) (j : Nat) (t : Task)
    (o : Bytes × AccessTokenClaims) (hj : ((gate env).run w ls).tasks[j]? = some t)
    (ho : t.HasVerified o) : (gate env).Since w ls j (fun s =>
      TokenService.verifyAccessToken env.jwt env.settings s.wall o.1 = .ok o.2) := by
  refine System.observed_since (S := gate env) (O := Task.HasVerified)
    (H := fun o s => TokenService.verifyAccessToken env.jwt env.settings s.wall o.1 = .ok o.2)
    ?_ ?_ hw.tasks ls j t o hj ho
  · rintro r o ⟨-, hmem, hafter⟩
    exact hafter (doFilters_verified o.2 none hmem)
  · intro choice s t
    show ((t.chain.next).map _).Wp _ _ _ _
    rw [Suspended.wp_map]
    cases hc : t.chain with
    | done r => trivial
    | call c k =>
        rintro r s' e o ⟨htoken, hmem, hafter⟩
        by_cases hold : t.chain.After (Verified t.request o.2) (· = some o.2)
        · -- the chain could not answer yet: this call has verified the token
          rw [hc] at hold
          right
          have hverified := (hold r).resolve_right hafter
          cases c with
          | tryAcquire l key => exact absurd hverified id
          | retryAfter l key => exact absurd hverified id
          | verifyAccessToken token =>
              obtain ⟨rfl, rfl⟩ := hverified
              rw [← htoken]
              exact congrArg Prod.fst e
        · exact Or.inl ⟨htoken, hmem, hold⟩

end Run

/-! ## One request -/

section Demo

open TokenService

theorem extractBearerToken_demo : extractBearerToken Demo.request = demoToken := by
  unfold extractBearerToken Demo.request
  simp

theorem verified_demo : verifyAccessToken Demo.env.jwt Demo.env.settings Demo.start.shared.wall
    demoToken = .ok demoClaims :=
  (verifyAccessToken_issued demoJwt_readsDates demoJwt_carries representable_issuedAt.1
    representable_issuedAt.2 _).trans (if_pos (by decide))

/-- The first request of a key is granted. -/
theorem granted_first (limits : RateLimiter.Limits) (now : RateLimiter.TimePoint) (key : Bytes) :
    (RateLimiter.tryAcquire limits RateLimiter.noBuckets now key).1 = true := by
  rw [(RateLimiter.tryAcquire_spec (RateLimiter.tracks_none (RateLimiter.seconds now))).1]
  exact decide_eq_true limits.one_le_capacity

/-- The chain of a request whose token is accepted, with the replies it gets. -/
theorem doFilters_jwtAuth (config : Config) {request : HttpRequest} {token : Bytes}
    (claims : AccessTokenClaims) (htoken : extractBearerToken request = token) (hne : token ≠ [])
    (hflag : claims.passwordChangeRequired = false) :
    ∃ k k', doFilters config request [.jwtAuth] none = .call (.verifyAccessToken token) k ∧
      k (.ok claims) = .call (.tryAcquire .account claims.userId) k' ∧
      k' true = .done (.ok (some claims)) := by
  obtain ⟨userId, email, permissions, flag⟩ := claims
  obtain rfl : flag = false := hflag
  refine ⟨?k, ?k', ?_, ?_, ?_⟩
  rotate_left 2
  · simp only [doFilters, Filter.doFilter, JwtAuthFilter.doFilter, htoken]
    rw [if_neg (fun h => hne (List.isEmpty_iff.mp h))]
    rfl
  · rfl
  · rfl

theorem step_request (env : Env) (s : State) (endpoint : Endpoint) (request : HttpRequest) :
    (gate env).step ⟨s, []⟩ (.request ⟨endpoint, request⟩) = ⟨s, [⟨endpoint, request,
      doFilters env.config request endpoint.filters none⟩]⟩ := rfl

theorem step_verify (env : Env) (s : State) (endpoint : Endpoint) (request : HttpRequest)
    (token : Bytes) (k : Result AccessTokenClaims → Chain Attributes) :
    (gate env).step ⟨s, [⟨endpoint, request, .call (.verifyAccessToken token) k⟩]⟩ (.resume 0 ()) =
      ⟨s, [⟨endpoint, request, k (verifyAccessToken env.jwt env.settings s.wall token)⟩]⟩ := rfl

theorem step_acquire (env : Env) (s : State) (endpoint : Endpoint) (request : HttpRequest)
    (limiter : Limiter) (key : Bytes) (k : Bool → Chain Attributes) :
    ((gate env).step ⟨s, [⟨endpoint, request, .call (.tryAcquire limiter key) k⟩]⟩
      (.resume 0 ())).tasks = [⟨endpoint, request, k (RateLimiter.tryAcquire
        (env.config.limits limiter) (s.buckets limiter) s.steady key).1⟩] := rfl

theorem admitted_demo : ((gate Demo.env).run Demo.start Demo.moves).tasks[0]? =
    some ⟨.library, Demo.request, .done (.ok (some demoClaims))⟩ := by
  obtain ⟨k, k', hchain, hk, hk'⟩ := doFilters_jwtAuth Demo.env.config demoClaims
    extractBearerToken_demo demoToken_ne_nil rfl
  have hrequest := step_request Demo.env Demo.start.shared .library Demo.request
  have hverified := step_verify Demo.env Demo.start.shared .library Demo.request demoToken k
  have hgranted := step_acquire Demo.env Demo.start.shared .library Demo.request .account
    demoClaims.userId k'
  rw [show Endpoint.library.filters = [.jwtAuth] from rfl, hchain] at hrequest
  rw [verified_demo, hk] at hverified
  rw [show Demo.start.shared.buckets .account = RateLimiter.noBuckets from rfl,
    show Demo.start.shared.steady = 0 from rfl, granted_first, hk'] at hgranted
  rw [Demo.moves, System.run_cons, System.run_cons, System.run_cons, System.run_nil,
    show Demo.start = ⟨Demo.start.shared, []⟩ from rfl, hrequest, hverified, hgranted]
  rfl

end Demo

end Launcher.Filters
