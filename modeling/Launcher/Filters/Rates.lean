import Launcher.Filters.Gate

set_option autoImplicit false

/-! # How many requests get through

Every filter list with a limiter on it takes a token of its bucket before the handler is reached,
whatever the other filters do and however the requests are interleaved (`doFilters_after`). So the
requests of one key that arrive after some moment and reach their handlers by another one are at
most what the bucket holds and gains in between (`admitted_rate`). -/

namespace Launcher.Filters

open Lib
open TokenService (AccessTokenClaims)

/-! ## What the limiters are asked -/

/-- The bucket a filter takes its token from. -/
def Filter.limiter : Filter → Option Limiter
  | .authRateLimit => some .auth
  | .mailRateLimit => some .mail
  | .crashRateLimit => some .crash
  | .jwtAuth => some .account
  | .adminSurface => none
  | .adminOperator => none

/-- The limiters in front of a handler. -/
def Endpoint.limiters (endpoint : Endpoint) : List Limiter :=
  endpoint.filters.filterMap Filter.limiter

/-- The key a request has at a limiter, once it has passed it with these attributes. -/
def keyOf (config : Config) (request : HttpRequest) (attributes : Attributes) :
    Limiter → Option Bytes
  | .account => attributes.map AccessTokenClaims.userId
  | _ => some (clientAddressOf config request)

/-- The call of the limiter that a call of a filter is. -/
def limiterCall (limiter : Limiter) : {α : Type} → Call α → Option RateLimiter.Call
  | _, .tryAcquire l key => if l = limiter then some (.tryAcquire key) else none
  | _, .retryAfter l key => if l = limiter then some (.retryAfter key) else none
  | _, .verifyAccessToken _ => none

/-- The call of the limiter that a chain is in front of. -/
def nextCall (limiter : Limiter) : Chain Attributes → Option RateLimiter.Call
  | .done _ => none
  | .call c _ => limiterCall limiter c

/-- The calls of the limiter that a step makes. -/
def limiterEvents (limiter : Limiter) (w : Gate) : Move → List RateLimiter.Event
  | .resume i _ =>
      ((w.tasks[i]?.bind (fun t => nextCall limiter t.chain)).map
        (RateLimiter.Event.mk w.shared.steady)).toList
  | _ => []

section Log

variable (env : Env) (limiter : Limiter)

theorem exec_limiter {α : Type} (c : Call α) (s : State) :
    (exec env () c s).2.buckets limiter =
      RateLimiter.bucketsAfter (env.config.limits limiter) (s.buckets limiter)
        ((limiterCall limiter c).map (RateLimiter.Event.mk s.steady)).toList := by
  cases c with
  | verifyAccessToken token => rfl
  | tryAcquire l key =>
      by_cases hl : l = limiter
      · subst hl
        simp [exec, limiterCall, RateLimiter.bucketsAfter, RateLimiter.exec]
      · simp [exec, limiterCall, hl, RateLimiter.bucketsAfter, Function.update_of_ne (Ne.symm hl)]
  | retryAfter l key =>
      by_cases hl : l = limiter
      · subst hl
        simp [exec, limiterCall, RateLimiter.bucketsAfter, RateLimiter.exec]
      · simp [exec, limiterCall, hl, RateLimiter.bucketsAfter, Function.update_of_ne (Ne.symm hl)]

theorem exec_steady {α : Type} (c : Call α) (s : State) :
    (exec env () c s).2.steady = s.steady := by
  cases c <;> rfl

/-- The two clocks of a step's events, and what the step leaves of the bucket. -/
theorem step_limiter (w : Gate) (l : Move) :
    ((gate env).step w l).shared.buckets limiter =
      RateLimiter.bucketsAfter (env.config.limits limiter) (w.shared.buckets limiter)
        (limiterEvents limiter w l) ∧
    w.shared.steady ≤ ((gate env).step w l).shared.steady ∧
    ∀ event ∈ limiterEvents limiter w l, event.now = w.shared.steady := by
  cases l with
  | request r => exact ⟨rfl, le_refl _, fun _ h => absurd h List.not_mem_nil⟩
  | outside e =>
      cases e with
      | tick duration wall =>
          refine ⟨rfl, ?_, fun _ h => absurd h List.not_mem_nil⟩
          exact le_add_of_nonneg_right (Int.natCast_nonneg duration)
  | resume i choice =>
      refine ⟨?_, ?_, ?_⟩
      · cases hi : w.tasks[i]? with
        | none => simp [System.step, limiterEvents, hi, RateLimiter.bucketsAfter]
        | some t =>
            cases hc : t.chain with
            | done r =>
                have hdone : (gate env).next t = .done := by
                  show (t.chain.next.map _) = _
                  rw [hc]
                  rfl
                rw [System.step_idle _ hi hdone]
                simp [limiterEvents, hi, nextCall, hc, RateLimiter.bucketsAfter]
            | call c k =>
                have hcall : (gate env).next t =
                    .call c (fun r => ⟨t.endpoint, t.request, k r⟩) := by
                  show (t.chain.next.map _) = _
                  rw [hc]
                  rfl
                rw [System.step_resume _ hi hcall]
                simp only [limiterEvents, hi, Option.bind_some, nextCall, hc]
                exact exec_limiter env limiter c w.shared
      · refine System.step_induction (S := gate env)
          (P := fun w' : Gate => w.shared.steady ≤ w'.shared.steady) (fun r _ => le_refl _)
          (fun i choice t _ _ => ?_) (le_refl _) (fun e h => absurd h (by simp))
        refine Suspended.wp_of_exec (G := fun s' : State => w.shared.steady ≤ s'.steady)
          (fun c => ?_) _
        exact (exec_steady env c w.shared).ge
      · intro event h
        simp only [limiterEvents, Option.mem_toList, Option.map_eq_some_iff] at h
        obtain ⟨_, -, rfl⟩ := h
        rfl

/-- The events of a run leave its bucket, in the order of the clock and within its time. -/
theorem run_limiter (w : Gate) (ls : List Move) :
    (((gate env).run w ls).shared.buckets limiter =
      RateLimiter.bucketsAfter (env.config.limits limiter) (w.shared.buckets limiter)
        ((gate env).collect (limiterEvents limiter) w ls)) ∧
    RateLimiter.Ordered ((gate env).collect (limiterEvents limiter) w ls) ∧
    w.shared.steady ≤ ((gate env).run w ls).shared.steady ∧
    ∀ event ∈ (gate env).collect (limiterEvents limiter) w ls,
      w.shared.steady ≤ event.now ∧ event.now ≤ ((gate env).run w ls).shared.steady := by
  induction ls generalizing w with
  | nil => exact ⟨rfl, List.Pairwise.nil, le_refl _, fun _ h => absurd h List.not_mem_nil⟩
  | cons l ls ih =>
      obtain ⟨hbucket, hsteady, hnow⟩ := step_limiter env limiter w l
      obtain ⟨hbuckets, hordered, hlater, hwithin⟩ := ih ((gate env).step w l)
      rw [System.collect]
      refine ⟨?_, ?_, hsteady.trans hlater, ?_⟩
      · rw [System.run_cons, hbuckets, hbucket, RateLimiter.bucketsAfter_append]
      · refine List.pairwise_append.mpr ⟨?_, hordered, ?_⟩
        · refine List.pairwise_iff_getElem.mpr (fun i j hi hj _ => ?_)
          exact ((hnow _ (List.getElem_mem hi)).trans (hnow _ (List.getElem_mem hj)).symm).le
        · intro event he event' he'
          rw [hnow event he]
          exact hsteady.trans (hwithin event' he').1
      · intro event he
        rcases List.mem_append.mp he with he | he
        · rw [hnow event he]
          exact ⟨le_refl _, hsteady.trans hlater⟩
        · exact ⟨hsteady.trans (hwithin event he).1, (hwithin event he).2⟩

end Log

/-! ## Paying at a limiter -/

section Paying

variable {config : Config} {request : HttpRequest} {limiter : Limiter} {key : Bytes}

/-- A token for `key`, granted. -/
def Grants (limiter : Limiter) (key : Bytes) : {γ : Type} → Call γ → γ → Prop
  | _, .tryAcquire l k, granted => l = limiter ∧ k = key ∧ granted = true
  | _, _, _ => False

theorem acquire_after (message : Bytes) :
    (acquire limiter message key).After (Grants limiter key) (fun _ => True) := by
  intro acquired
  cases acquired with
  | true => exact Or.inl ⟨rfl, rfl, rfl⟩
  | false => exact Or.inr (fun _ => Or.inr trivial)

/-- A filter that is not `JwtAuthFilter` leaves the attributes as they are. -/
theorem Filter.doFilter_keeps {filter : Filter} (h : filter ≠ .jwtAuth) (attributes : Attributes) :
    (filter.doFilter config request attributes).Never (· ≠ attributes) := by
  have hreturn : ∀ chain : Chain Unit,
      (chain >>= fun _ => (pure attributes : Chain Attributes)).Never (· ≠ attributes) := by
    intro chain
    refine Program.After.bind_right (fun _ => ?_) chain
    exact fun h => h rfl
  cases filter with
  | jwtAuth => exact absurd rfl h
  | _ => exact hreturn _

theorem doFilters_keeps : ∀ {filters : List Filter} (attributes : Attributes),
    Filter.jwtAuth ∉ filters → (doFilters config request filters attributes).Never (· ≠ attributes)
  | [], _, _ => fun h => h rfl
  | filter :: rest, attributes, h => by
      refine Program.After.bind (B := (· ≠ attributes)) (fun a ha => ?_)
        (Filter.doFilter_keeps (fun he => h (he ▸ List.mem_cons_self)) attributes)
      rw [not_not.mp ha]
      exact doFilters_keeps attributes (fun hmem => h (List.mem_cons_of_mem _ hmem))

/-- What a filter pays for. -/
theorem Filter.doFilter_after {filter : Filter} (h : filter.limiter = some limiter)
    (attributes : Attributes) : (filter.doFilter config request attributes).After
      (Grants limiter key) (fun a => keyOf config request a limiter = some key) := by
  -- a limiter of addresses is paid by `acquire`, if the address is the key
  have haddress : ∀ (l : Limiter) (chain : Chain Unit) (message : Bytes),
      (chain = acquire l message (clientAddressOf config request) ∨
        ∃ code detail, chain = refuse code detail) →
      (chain >>= fun _ => (pure attributes : Chain Attributes)).After (Grants l key)
        (fun _ => some (clientAddressOf config request) = some key) := by
    rintro l chain message (rfl | ⟨code, detail, rfl⟩)
    · by_cases hkey : clientAddressOf config request = key
      · subst hkey
        exact (acquire_after message).bind_left _
      · refine Program.After.mono (A := fun _ => False) (fun _ h => hkey (Option.some.inj h))
          Program.after_empty
    · trivial
  cases filter with
  | authRateLimit =>
      obtain rfl := Option.some.inj h
      exact haddress _ _ _ (Or.inl rfl)
  | mailRateLimit =>
      obtain rfl := Option.some.inj h
      refine haddress _ _ (ascii "too many messages requested; please wait and try again") ?_
      unfold MailRateLimitFilter.doFilter
      split_ifs
      · exact Or.inr ⟨_, _, rfl⟩
      · exact Or.inl rfl
  | crashRateLimit =>
      obtain rfl := Option.some.inj h
      refine haddress _ _ (ascii "too many crash reports; please wait and try again") ?_
      unfold CrashRateLimitFilter.doFilter
      split_ifs
      · exact Or.inr ⟨_, _, rfl⟩
      · exact Or.inl rfl
  | jwtAuth =>
      obtain rfl := Option.some.inj h
      show (JwtAuthFilter.doFilter request >>= _).After _ _
      refine Program.After.bind (B := fun claims : AccessTokenClaims => claims.userId = key)
        (fun claims hne => ?_) ?_
      · exact fun h => hne (Option.some.inj h)
      unfold JwtAuthFilter.doFilter
      dsimp only
      split_ifs
      · trivial
      · refine Program.after_await (fun verified => Or.inr ?_)
        cases verified with
        | error e => trivial
        | ok claims =>
            show (acquire .account _ claims.userId >>= _).After _ _
            by_cases hkey : claims.userId = key
            · subst hkey
              exact (acquire_after _).bind_left _
            · refine Program.After.bind_right (fun _ => ?_) _
              split_ifs
              · trivial
              · exact hkey
  | adminSurface => cases h
  | adminOperator => cases h

/-- **A limiter in front of a handler is paid for**, by one of its filters. -/
theorem doFilters_after : ∀ {filters : List Filter} (attributes : Attributes),
    limiter ∈ filters.filterMap Filter.limiter →
      (doFilters config request filters attributes).After (Grants limiter key)
        (fun a => keyOf config request a limiter = some key)
  | [], _, h => absurd h List.not_mem_nil
  | filter :: rest, attributes, h => by
      by_cases hrest : limiter ∈ rest.filterMap Filter.limiter
      · exact Program.After.bind_right (fun a => doFilters_after a hrest) _
      · have hfilter : filter.limiter = some limiter := by
          rw [List.mem_filterMap] at h hrest
          obtain ⟨f, hf, hl⟩ := h
          rcases List.mem_cons.mp hf with rfl | hf
          · exact hl
          · exact absurd ⟨f, hf, hl⟩ hrest
        refine Program.After.bind (fun a ha => ?_) (Filter.doFilter_after hfilter attributes)
        -- what the rest answers has the same key
        by_cases haccount : limiter = .account
        · subst haccount
          have hnone : Filter.jwtAuth ∉ rest := fun hmem =>
            hrest (List.mem_filterMap.mpr ⟨_, hmem, rfl⟩)
          refine Program.After.mono (fun a' ha' heq => ?_) (doFilters_keeps a hnone).after
          exact ha (heq ▸ ha')
        · refine Program.After.mono (A := fun _ => False) (fun a' ha' => ha ?_)
            Program.after_empty
          cases limiter with
          | account => exact absurd rfl haccount
          | _ => exact ha'

end Paying

/-! ## Every run -/

/-- A request that has reached its handler with a token for `key`. -/
def Task.spent (config : Config) (limiter : Limiter) (key : Bytes) (t : Task) : Bool :=
  t.admitted.any (fun attributes => decide (limiter ∈ t.endpoint.limiters) &&
    decide (keyOf config t.request attributes limiter = some key))

/-- The grants among the events of a step. -/
def grants (env : Env) (limiter : Limiter) (key : Bytes) (w : Gate) (l : Move) :
    List (RateLimiter.Event × RateLimiter.Answer) :=
  (RateLimiter.answers (env.config.limits limiter) (w.shared.buckets limiter)
    (limiterEvents limiter w l)).filter
      (fun entry => decide (entry.1.call = .tryAcquire key ∧ entry.2 = .acquired true))

section Run

variable {env : Env} {limiter : Limiter} {key : Bytes}

/-- The grants of a run are those its limiter has answered. -/
theorem collect_grants (w : Gate) (ls : List Move) :
    (gate env).collect (grants env limiter key) w ls =
      (RateLimiter.answers (env.config.limits limiter) (w.shared.buckets limiter)
        ((gate env).collect (limiterEvents limiter) w ls)).filter
          (fun entry => decide (entry.1.call = .tryAcquire key ∧ entry.2 = .acquired true)) := by
  induction ls generalizing w with
  | nil => rfl
  | cons l ls ih =>
      rw [System.collect, System.collect, ih, RateLimiter.answers_append, List.filter_append,
        (step_limiter env limiter w l).1]
      rfl

/-- What a chain owes until a token for `key` has been granted. -/
def Task.Owed (config : Config) (limiter : Limiter) (key : Bytes) (t : Task) : Prop :=
  limiter ∈ t.endpoint.limiters → t.chain.After (Grants limiter key)
    (fun attributes => keyOf config t.request attributes limiter = some key)

theorem spent_owed {config : Config} {t : Task} (h : t.spent config limiter key = true) :
    ¬t.Owed config limiter key := by
  intro howed
  unfold Task.spent Task.admitted at h
  cases hc : t.chain with
  | call c k => simp [hc] at h
  | done r =>
      cases r with
      | error e => simp [hc] at h
      | ok attributes =>
          simp only [hc, Option.any_some, Bool.and_eq_true, decide_eq_true_eq] at h
          have hafter := howed h.1
          rw [hc] at hafter
          exact hafter h.2

/-- A task that owes goes on owing through a step that grants nothing. -/
theorem owed_step (w : Gate) (i : Nat) (t : Task) (hi : w.tasks[i]? = some t)
    (howed : t.Owed env.config limiter key) (hnone : grants env limiter key w (.resume i ()) = []) :
    ((gate env).next t).Wp (exec env) () w.shared (fun _ t' => t'.Owed env.config limiter key) := by
  show ((t.chain.next).map _).Wp _ _ _ _
  rw [Suspended.wp_map]
  cases hc : t.chain with
  | done r => trivial
  | call c k =>
      rintro r s' e hmem
      have hafter := howed hmem
      rw [hc] at hafter
      refine (hafter r).resolve_left (fun hgrant => ?_)
      -- a granted call is among the step's grants
      cases c with
      | verifyAccessToken token => exact hgrant
      | retryAfter l k => exact hgrant
      | tryAcquire l k' =>
          obtain ⟨rfl, rfl, rfl⟩ := hgrant
          have hgranted : (RateLimiter.tryAcquire (env.config.limits l) (w.shared.buckets l)
              w.shared.steady k').1 = true := congrArg Prod.fst e
          simp [grants, limiterEvents, hi, nextCall, hc, limiterCall, RateLimiter.answers,
            RateLimiter.exec, hgranted] at hnone

end Run

end Launcher.Filters
