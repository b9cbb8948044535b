import Launcher.Common.Basic
import Launcher.Lib.TokenBucket

set_option autoImplicit false

/-! # The rate limiter

`common/RateLimiter.cpp`: one token bucket per key, refilled when it is looked at, dropped by
`prune` when it is full, and made anew, full, when the key comes back. Its `double`s are
rational numbers here. Every call reads the clock and then takes the lock, so a run is a list
of calls, each with its reading, in the order of the lock.

Seen from one key, the limiter is the token bucket of `Lib.TokenBucket` on that key's own
requests (`Tracks`); the bounds of the library hold of it. -/

namespace Launcher

namespace RateLimiter

def MINIMUM_CAPACITY : Nat := 1

/-- A `steady_clock::time_point`, in nanoseconds. -/
abbrev TimePoint := Int

/-- `duration<double>(d).count()`: nanoseconds as seconds. -/
def seconds (nanoseconds : Int) : ℚ := nanoseconds / 1000000000

structure Bucket where
  tokens : ℚ
  lastRefill : TimePoint
  deriving DecidableEq

/-- The limits in force; the constructor and `reconfigure` set them through `applyLimits`. -/
structure Limits where
  capacity : ℚ
  refillWindow : Int
  tokensPerSecond : ℚ
  one_le_capacity : 1 ≤ capacity
  tokensPerSecond_pos : 0 < tokensPerSecond

theorem one_le_clamped (capacity : Nat) : (1 : ℚ) ≤ (max capacity MINIMUM_CAPACITY : Nat) := by
  have h : 1 ≤ max capacity MINIMUM_CAPACITY := le_max_right _ _
  exact_mod_cast h

theorem clamped_pos (refillWindow : Int) :
    (0 : ℚ) < (if 0 < refillWindow then refillWindow else 1 : Int) := by
  split
  case isTrue h => exact_mod_cast h
  case isFalse => norm_num

def applyLimits (capacity : Nat) (refillWindow : Int) : Limits where
  capacity := (max capacity MINIMUM_CAPACITY : Nat)
  refillWindow := if 0 < refillWindow then refillWindow else 1
  tokensPerSecond := (max capacity MINIMUM_CAPACITY : Nat) /
    ((if 0 < refillWindow then refillWindow else 1 : Int) : ℚ)
  one_le_capacity := one_le_clamped capacity
  tokensPerSecond_pos :=
    div_pos (lt_of_lt_of_le one_pos (one_le_clamped capacity)) (clamped_pos refillWindow)

abbrev Buckets := Bytes → Option Bucket

def refill (limits : Limits) (bucket : Bucket) (now : TimePoint) : Bucket :=
  let elapsed := seconds (now - bucket.lastRefill)
  if 0 < elapsed then
    { tokens := min limits.capacity (bucket.tokens + elapsed * limits.tokensPerSecond)
      lastRefill := now }
  else bucket

def set (buckets : Buckets) (key : Bytes) (bucket : Bucket) : Buckets :=
  Function.update buckets key (some bucket)

def tryAcquire (limits : Limits) (buckets : Buckets) (now : TimePoint) (key : Bytes) :
    Bool × Buckets :=
  let bucket := match buckets key with
    | none => { tokens := limits.capacity, lastRefill := now }
    | some bucket => refill limits bucket now
  if bucket.tokens < 1 then (false, set buckets key bucket)
  else (true, set buckets key { bucket with tokens := bucket.tokens - 1 })

/-- Whole seconds until the key regains a token. -/
def retryAfter (limits : Limits) (buckets : Buckets) (now : TimePoint) (key : Bytes) :
    Int × Buckets :=
  match buckets key with
  | none => (0, buckets)
  | some bucket =>
      let bucket := refill limits bucket now
      if 1 ≤ bucket.tokens then (0, set buckets key bucket)
      else
        let missing := 1 - bucket.tokens
        (⌈missing / limits.tokensPerSecond⌉, set buckets key bucket)

/-- Every bucket is refilled; a full one is erased. -/
def prune (limits : Limits) (buckets : Buckets) (now : TimePoint) : Buckets :=
  fun key => (buckets key).bind fun bucket =>
    let bucket := refill limits bucket now
    if limits.capacity ≤ bucket.tokens then none else some bucket

/-! ## Runs -/

inductive Call
  | tryAcquire (key : Bytes)
  | retryAfter (key : Bytes)
  | prune
  deriving DecidableEq, Repr

/-- The key a call is made on. -/
def Call.key? : Call → Option Bytes
  | .tryAcquire key => some key
  | .retryAfter key => some key
  | .prune => none

inductive Answer
  | acquired (granted : Bool)
  | wait (seconds : Int)
  | pruned
  deriving DecidableEq, Repr

/-- A call, with the clock reading it was made at. -/
structure Event where
  now : TimePoint
  call : Call
  deriving DecidableEq, Repr

def exec (limits : Limits) (buckets : Buckets) (event : Event) : Answer × Buckets :=
  match event.call with
  | .tryAcquire key =>
      let (granted, buckets) := tryAcquire limits buckets event.now key
      (.acquired granted, buckets)
  | .retryAfter key =>
      let (wait, buckets) := retryAfter limits buckets event.now key
      (.wait wait, buckets)
  | .prune => (.pruned, prune limits buckets event.now)

/-- The buckets after a run. -/
def bucketsAfter (limits : Limits) : Buckets → List Event → Buckets
  | buckets, [] => buckets
  | buckets, event :: rest => bucketsAfter limits (exec limits buckets event).2 rest

/-- Every call of a run, with its answer. -/
def answers (limits : Limits) : Buckets → List Event → List (Event × Answer)
  | _, [] => []
  | buckets, event :: rest =>
      (event, (exec limits buckets event).1) ::
        answers limits (exec limits buckets event).2 rest

theorem bucketsAfter_append {limits : Limits} (events events' : List Event) :
    ∀ buckets, bucketsAfter limits buckets (events ++ events') =
      bucketsAfter limits (bucketsAfter limits buckets events) events' := by
  induction events with
  | nil => exact fun _ => rfl
  | cons event rest ih => exact fun _ => ih _

theorem answers_append {limits : Limits} (events events' : List Event) :
    ∀ buckets, answers limits buckets (events ++ events') =
      answers limits buckets events ++ answers limits (bucketsAfter limits buckets events) events' := by
  induction events with
  | nil => exact fun _ => rfl
  | cons event rest ih => exact fun buckets => congrArg _ (ih _)

/-- The buckets of a limiter just built. -/
def noBuckets : Buckets := fun _ => none

/-- The clock never goes back. -/
def Ordered (events : List Event) : Prop := events.Pairwise (fun e e' => e.now ≤ e'.now)

theorem mem_of_mem_answers {limits : Limits} {events : List Event} :
    ∀ {buckets : Buckets}, ∀ entry ∈ answers limits buckets events, entry.1 ∈ events := by
  induction events with
  | nil =>
      intro buckets entry h
      cases h
  | cons event rest ih =>
      intro buckets entry h
      rcases List.mem_cons.mp h with rfl | h
      · exact List.mem_cons_self
      · exact List.mem_cons_of_mem _ (ih entry h)

/-- The answers the calls on one key got. -/
def answersOn (key : Bytes) (log : List (Event × Answer)) : List (Event × Answer) :=
  log.filter (fun (event, _) => event.call.key? == some key)

/-- How many requests on `key` were granted from the time `s` to the time `t`, in seconds. -/
def grantedBetween (key : Bytes) (s t : ℚ) (log : List (Event × Answer)) : Nat :=
  log.countP (fun (event, answer) => event.call = .tryAcquire key ∧ answer = .acquired true ∧
    s ≤ seconds event.now ∧ seconds event.now ≤ t)

/-! ## One key's bucket as a meter -/

/-- The limits as the library's. -/
def Limits.toBucket (limits : Limits) : TokenBucket.Limits ℚ where
  capacity := limits.capacity
  rate := limits.tokensPerSecond
  capacity_nonneg := zero_le_one.trans limits.one_le_capacity
  rate_nonneg := limits.tokensPerSecond_pos.le

/-- A bucket as a meter; one that does not exist is full. -/
def meterOf (bucket : Option Bucket) : Option (TokenBucket.Meter ℚ) :=
  bucket.map (fun b => ⟨b.tokens, seconds b.lastRefill⟩)

/-- From `now` on, the bucket cannot be told from the meter. -/
structure Tracks (limits : Limits) (bucket : Option Bucket) (meter : Option (TokenBucket.Meter ℚ))
    (now : ℚ) : Prop where
  bucket_valid : TokenBucket.Valid limits.toBucket (meterOf bucket) now
  meter_valid : TokenBucket.Valid limits.toBucket meter now
  level_eq : ∀ t, now ≤ t →
    TokenBucket.level limits.toBucket (meterOf bucket) t = TokenBucket.level limits.toBucket meter t

/-- What `retryAfter` answers at a level. -/
def waitFor (limits : Limits) (level : ℚ) : Int :=
  if 1 ≤ level then 0 else ⌈(1 - level) / limits.tokensPerSecond⌉

variable {limits : Limits} {bucket : Option Bucket} {meter : Option (TokenBucket.Meter ℚ)}

theorem tracks_none (now : ℚ) : Tracks limits none none now :=
  ⟨TokenBucket.valid_none, TokenBucket.valid_none, fun _ _ => rfl⟩

theorem Tracks.mono {now later : ℚ} (h : Tracks limits bucket meter now) (hle : now ≤ later) :
    Tracks limits bucket meter later where
  bucket_valid := h.bucket_valid.mono hle
  meter_valid := h.meter_valid.mono hle
  level_eq := fun t ht => h.level_eq t (hle.trans ht)

theorem seconds_sub (a b : Int) : seconds (a - b) = seconds a - seconds b := by
  simp only [seconds]
  push_cast
  ring

theorem seconds_le {a b : Int} (h : a ≤ b) : seconds a ≤ seconds b := by
  have hcast : (a : ℚ) ≤ b := by exact_mod_cast h
  simp only [seconds]
  linarith

/-- A refilled bucket holds its level, and nothing else about it changes. -/
theorem refill_spec {b : Bucket} {now : TimePoint}
    (hvalid : TokenBucket.Valid limits.toBucket (meterOf (some b)) (seconds now)) :
    meterOf (some (refill limits b now)) =
      some ⟨TokenBucket.level limits.toBucket (meterOf (some b)) (seconds now), seconds now⟩ := by
  obtain ⟨-, hcap, hsince⟩ := hvalid _ rfl
  simp only [refill]
  split
  case isTrue =>
    rw [seconds_sub]
    rfl
  case isFalse helapsed =>
    rw [seconds_sub] at helapsed
    have hsame : seconds now = seconds b.lastRefill := by linarith
    have hlevel : TokenBucket.level limits.toBucket (meterOf (some b)) (seconds now) = b.tokens := by
      simp only [meterOf, Option.map_some, TokenBucket.level, hsame, sub_self, zero_mul, add_zero]
      exact min_eq_right hcap
    rw [hlevel, hsame]
    rfl

/-- Refilling keeps the bucket on its meter. -/
theorem Tracks.refill {b : Bucket} {now : TimePoint}
    (h : Tracks limits (some b) meter (seconds now)) :
    Tracks limits (some (refill limits b now)) meter (seconds now) := by
  have hspec := refill_spec h.bucket_valid
  refine ⟨?_, h.meter_valid, fun t ht => ?_⟩
  · rw [hspec]
    exact h.bucket_valid.rewrite
  · rw [hspec, TokenBucket.level_rewrite ht]
    exact h.level_eq t ht

theorem Tracks.tokens_eq {b : Bucket} {now : TimePoint}
    (h : Tracks limits (some b) meter (seconds now)) :
    (RateLimiter.refill limits b now).tokens =
      TokenBucket.level limits.toBucket meter (seconds now) := by
  have hspec := refill_spec h.bucket_valid
  have htokens := congrArg (fun m => m.map TokenBucket.Meter.tokens) hspec
  simp only [meterOf, Option.map_some, Option.some.injEq] at htokens
  rw [htokens]
  exact h.level_eq _ le_rfl

@[simp] theorem set_self (buckets : Buckets) (key : Bytes) (b : Bucket) :
    set buckets key b key = some b := by
  simp [set]

@[simp] theorem set_ne {buckets : Buckets} {key other : Bytes} (h : other ≠ key) (b : Bucket) :
    set buckets key b other = buckets other := by
  simp [set, h]

/-- A bucket made for a request it had to be made for tracks the same meter. -/
theorem Tracks.opened {now : TimePoint} (h : Tracks limits none meter (seconds now)) :
    Tracks limits (some { tokens := limits.capacity, lastRefill := now }) meter (seconds now) where
  bucket_valid := by
    intro m hm
    cases hm
    exact ⟨limits.toBucket.capacity_nonneg, le_refl _, le_refl _⟩
  meter_valid := h.meter_valid
  level_eq := fun t ht => by
    rw [← h.level_eq t ht]
    exact @TokenBucket.level_rewrite ℚ _ _ limits.toBucket none _ _ _ ht

/-- The bucket `tryAcquire` decides on. -/
theorem tracks_acquired {buckets : Buckets} {key : Bytes} {now : TimePoint}
    (h : Tracks limits (buckets key) meter (seconds now)) :
    ∃ b, (tryAcquire limits buckets now key =
        if b.tokens < 1 then (false, set buckets key b)
        else (true, set buckets key { b with tokens := b.tokens - 1 })) ∧
      b.tokens = TokenBucket.level limits.toBucket meter (seconds now) ∧
      meterOf (some b) = some ⟨b.tokens, seconds now⟩ ∧
      Tracks limits (some b) meter (seconds now) := by
  cases hb : buckets key with
  | none =>
      rw [hb] at h
      refine ⟨_, ?_, ?_, rfl, h.opened⟩
      · simp only [tryAcquire, hb]
      · rw [← h.level_eq _ le_rfl]
        rfl
  | some b =>
      rw [hb] at h
      refine ⟨refill limits b now, ?_, h.tokens_eq, ?_, h.refill⟩
      · simp only [tryAcquire, hb]
      · rw [refill_spec h.bucket_valid, h.tokens_eq, h.level_eq _ le_rfl]

/-- `tryAcquire` grants what the meter grants, and takes the token from both. -/
theorem tryAcquire_spec {buckets : Buckets} {key : Bytes} {now : TimePoint}
    (h : Tracks limits (buckets key) meter (seconds now)) :
    (tryAcquire limits buckets now key).1 =
        decide (1 ≤ TokenBucket.level limits.toBucket meter (seconds now)) ∧
      Tracks limits ((tryAcquire limits buckets now key).2 key)
        (TokenBucket.take limits.toBucket meter (seconds now)) (seconds now) := by
  obtain ⟨b, hcall, htokens, hmeter, htracks⟩ := tracks_acquired h
  rw [hcall]
  by_cases hone : 1 ≤ TokenBucket.level limits.toBucket meter (seconds now)
  case neg =>
    have hlow : b.tokens < 1 := by
      rw [htokens]
      exact not_le.mp hone
    rw [if_pos hlow, TokenBucket.take, if_neg hone]
    simp only [hone, decide_false, set_self, true_and]
    exact htracks
  case pos =>
    have hhigh : ¬ b.tokens < 1 := by
      rw [htokens]
      exact not_lt.mpr hone
    have htaken : meterOf (some { b with tokens := b.tokens - 1 }) =
        TokenBucket.take limits.toBucket meter (seconds now) := by
      rw [TokenBucket.take, if_pos hone, ← htokens]
      simp only [meterOf, Option.map_some, Option.some.injEq, TokenBucket.Meter.mk.injEq] at hmeter ⊢
      exact ⟨trivial, hmeter.2⟩
    rw [if_neg hhigh]
    simp only [hone, decide_true, set_self, true_and]
    exact ⟨htaken ▸ h.meter_valid.take, h.meter_valid.take, fun t _ => by rw [htaken]⟩

theorem retryAfter_spec {buckets : Buckets} {key : Bytes} {now : TimePoint}
    (h : Tracks limits (buckets key) meter (seconds now)) :
    (retryAfter limits buckets now key).1 =
        waitFor limits (TokenBucket.level limits.toBucket meter (seconds now)) ∧
      Tracks limits ((retryAfter limits buckets now key).2 key) meter (seconds now) := by
  cases hb : buckets key with
  | none =>
      rw [hb] at h
      have hlevel : TokenBucket.level limits.toBucket meter (seconds now) = limits.capacity := by
        rw [← h.level_eq _ le_rfl]
        rfl
      simp only [retryAfter, hb, waitFor, hlevel, limits.one_le_capacity, if_true, true_and]
      exact h
  | some b =>
      rw [hb] at h
      simp only [retryAfter, hb, h.tokens_eq, waitFor]
      split
      · exact ⟨rfl, by simpa using h.refill⟩
      · exact ⟨rfl, by simpa using h.refill⟩

/-- What `prune` erases is full, as if it had never existed. -/
theorem prune_spec {buckets : Buckets} {key : Bytes} {now : TimePoint}
    (h : Tracks limits (buckets key) meter (seconds now)) :
    Tracks limits (prune limits buckets now key) meter (seconds now) := by
  cases hb : buckets key with
  | none =>
      rw [hb] at h
      simpa [prune, hb] using h
  | some b =>
      rw [hb] at h
      simp only [prune, hb, Option.bind_some]
      split
      case isFalse => exact h.refill
      case isTrue hfull =>
        refine ⟨TokenBucket.valid_none, h.meter_valid, fun t ht => ?_⟩
        rw [h.tokens_eq] at hfull
        have hmore := @TokenBucket.le_level ℚ _ _ limits.toBucket meter _ _ _ ht
        exact le_antisymm (hfull.trans hmore) TokenBucket.level_le_capacity

/-! ## A run, seen from one key -/

/-- The meter after a call on its own key. -/
def meterAfter (limits : Limits) (meter : Option (TokenBucket.Meter ℚ)) (event : Event) :
    Option (TokenBucket.Meter ℚ) :=
  match event.call with
  | .tryAcquire _ => TokenBucket.take limits.toBucket meter (seconds event.now)
  | _ => meter

/-- What a call on its own key is answered. -/
def answerOf (limits : Limits) (meter : Option (TokenBucket.Meter ℚ)) (event : Event) : Answer :=
  let level := TokenBucket.level limits.toBucket meter (seconds event.now)
  match event.call with
  | .tryAcquire _ => .acquired (decide (1 ≤ level))
  | .retryAfter _ => .wait (waitFor limits level)
  | .prune => .pruned

/-- The calls on `key` and their answers, computed from the key's meter alone. -/
def seenBy (limits : Limits) (key : Bytes) :
    Option (TokenBucket.Meter ℚ) → List Event → List (Event × Answer)
  | _, [] => []
  | meter, event :: rest =>
      if event.call.key? = some key then
        (event, answerOf limits meter event) :: seenBy limits key (meterAfter limits meter event) rest
      else seenBy limits key meter rest

theorem exec_own {buckets : Buckets} {key : Bytes} {event : Event}
    (h : Tracks limits (buckets key) meter (seconds event.now))
    (hown : event.call.key? = some key) :
    (exec limits buckets event).1 = answerOf limits meter event ∧
      Tracks limits ((exec limits buckets event).2 key) (meterAfter limits meter event)
        (seconds event.now) := by
  obtain ⟨now, call⟩ := event
  cases call with
  | tryAcquire other =>
      obtain rfl : other = key := by simpa [Call.key?] using hown
      obtain ⟨hgranted, htracks⟩ := tryAcquire_spec h
      exact ⟨by simp only [exec, answerOf, hgranted], htracks⟩
  | retryAfter other =>
      obtain rfl : other = key := by simpa [Call.key?] using hown
      obtain ⟨hwait, htracks⟩ := retryAfter_spec h
      exact ⟨by simp only [exec, answerOf, hwait], htracks⟩
  | prune => simp [Call.key?] at hown

/-- A call on another key leaves the bucket alone, and a prune leaves its meter alone. -/
theorem exec_other {buckets : Buckets} {key : Bytes} {event : Event}
    (h : Tracks limits (buckets key) meter (seconds event.now))
    (hother : event.call.key? ≠ some key) :
    Tracks limits ((exec limits buckets event).2 key) meter (seconds event.now) := by
  obtain ⟨now, call⟩ := event
  cases call with
  | tryAcquire other =>
      have hne : key ≠ other := by
        rintro rfl
        exact hother rfl
      have hkept : (tryAcquire limits buckets now other).2 key = buckets key := by
        simp only [tryAcquire]
        split <;> split <;> exact set_ne hne _
      simp only [exec, hkept]
      exact h
  | retryAfter other =>
      have hne : key ≠ other := by
        rintro rfl
        exact hother rfl
      have hkept : (retryAfter limits buckets now other).2 key = buckets key := by
        simp only [retryAfter]
        split
        · rfl
        · split <;> exact set_ne hne _
      simp only [exec, hkept]
      exact h
  | prune => exact prune_spec h

/-- The induction over a run carries the meter of the key; `start` is the last clock reading. -/
theorem answers_spec {key : Bytes} {events : List Event} :
    ∀ {buckets : Buckets} {meter : Option (TokenBucket.Meter ℚ)} {start : ℚ}, Ordered events →
      (∀ event ∈ events, start ≤ seconds event.now) → Tracks limits (buckets key) meter start →
        answersOn key (answers limits buckets events) = seenBy limits key meter events ∧
          ∃ meter' now, Tracks limits (bucketsAfter limits buckets events key) meter' now := by
  induction events with
  | nil =>
      intro buckets meter start _ _ h
      exact ⟨rfl, meter, start, h⟩
  | cons event rest ih =>
      intro buckets meter start hordered hstart h
      obtain ⟨hnow, hrest⟩ := List.pairwise_cons.mp hordered
      have hlater : ∀ e ∈ rest, seconds event.now ≤ seconds e.now :=
        fun e he => seconds_le (hnow e he)
      have hnowTracks := h.mono (hstart event List.mem_cons_self)
      simp only [answers, bucketsAfter, seenBy, answersOn, List.filter_cons]
      by_cases hown : event.call.key? = some key
      · obtain ⟨hanswer, htracks⟩ := exec_own hnowTracks hown
        obtain ⟨hsame, hafter⟩ := ih hrest hlater htracks
        refine ⟨?_, hafter⟩
        simp only [hown, beq_self_eq_true, if_true, hanswer]
        rw [← hsame]
        rfl
      · obtain ⟨hsame, hafter⟩ := ih hrest hlater (exec_other hnowTracks hown)
        refine ⟨?_, hafter⟩
        simp only [beq_iff_eq, hown, if_false]
        exact hsame

theorem answersOn_noBuckets {key : Bytes} {events : List Event} (hordered : Ordered events) :
    answersOn key (answers limits noBuckets events) = seenBy limits key none events ∧
      ∃ meter now, Tracks limits (bucketsAfter limits noBuckets events key) meter now := by
  have hfirst : ∃ start, ∀ event ∈ events, start ≤ seconds event.now := by
    cases events with
    | nil => exact ⟨0, by simp⟩
    | cons event rest =>
        refine ⟨seconds event.now, fun e he => ?_⟩
        rcases List.mem_cons.mp he with rfl | he
        · exact le_refl _
        · exact seconds_le ((List.pairwise_cons.mp hordered).1 e he)
  obtain ⟨start, hstart⟩ := hfirst
  exact answers_spec hordered hstart (tracks_none start)

theorem seenBy_own (key : Bytes) (events : List Event) :
    ∀ meter, seenBy limits key meter (events.filter (fun event => event.call.key? == some key)) =
      seenBy limits key meter events := by
  induction events with
  | nil => intro meter; rfl
  | cons event rest ih =>
      intro meter
      by_cases hown : event.call.key? = some key
      · rw [List.filter_cons_of_pos (by simp [hown])]
        simp only [seenBy, hown, if_true, ih]
      · rw [List.filter_cons_of_neg (by simp [hown])]
        simp only [seenBy, hown, if_false, ih]

/-- The times, in seconds, of the requests on `key`. -/
def requests (key : Bytes) (events : List Event) : List ℚ :=
  (events.filter (fun event => event.call = .tryAcquire key)).map (fun event => seconds event.now)

theorem grantedBetween_answersOn (key : Bytes) (s t : ℚ) (log : List (Event × Answer)) :
    grantedBetween key s t (answersOn key log) = grantedBetween key s t log := by
  rw [grantedBetween, answersOn, List.countP_filter, grantedBetween]
  apply List.countP_congr
  intro entry _
  simp only [Bool.and_eq_true, decide_eq_true_eq, beq_iff_eq]
  constructor
  · exact fun h => h.1
  · intro h
    exact ⟨h, by rw [h.1]; rfl⟩

theorem grantedBetween_seenBy (key : Bytes) (s t : ℚ) (events : List Event) :
    ∀ meter, grantedBetween key s t (seenBy limits key meter events) =
      (TokenBucket.within (TokenBucket.granted limits.toBucket meter (requests key events))
        s t).length := by
  induction events with
  | nil => intro meter; rfl
  | cons event rest ih =>
      intro meter
      obtain ⟨now, call⟩ := event
      by_cases hcall : call = .tryAcquire key
      · subst hcall
        have hrequests : requests key (⟨now, .tryAcquire key⟩ :: rest) =
            seconds now :: requests key rest := by simp [requests]
        have hih := ih (TokenBucket.take limits.toBucket meter (seconds now))
        rw [hrequests, TokenBucket.granted]
        simp only [seenBy, Call.key?, if_true, meterAfter, answerOf]
        rw [grantedBetween, List.countP_cons, ← grantedBetween, hih]
        by_cases hone : 1 ≤ TokenBucket.level limits.toBucket meter (seconds now)
        · by_cases hin : s ≤ seconds now ∧ seconds now ≤ t
          · simp [hone, hin, TokenBucket.within]
          · simp [hone, hin, TokenBucket.within]
        · simp [hone]
      · have hrequests : requests key (⟨now, call⟩ :: rest) = requests key rest := by
          simp [requests, hcall]
        rw [hrequests, ← ih meter, seenBy]
        split
        case isFalse => rfl
        case isTrue hown =>
          -- a call on the key that is no request is a `retryAfter`
          cases call with
          | tryAcquire other =>
              obtain rfl : other = key := by simpa [Call.key?] using hown
              exact absurd rfl hcall
          | retryAfter other =>
              rw [grantedBetween, List.countP_cons_of_neg (by simp), ← grantedBetween]
              rfl
          | prune => simp [Call.key?] at hown

theorem requests_sorted {key : Bytes} {events : List Event} (hordered : Ordered events) :
    (requests key events).Pairwise (· ≤ ·) := by
  rw [requests, List.pairwise_map]
  exact (hordered.filter _).imp (fun h => seconds_le h)

/-- **The rate-limit bound.** In a run whose clock readings never go back, every bucket holds
between nothing and the capacity; the requests on one key that are granted between two times
are at most the capacity and what a bucket gains meanwhile; and the answers on a key are
those of the run in which no other call was made. -/
theorem rate_limit (capacity : Nat) (refillWindow : Int) (events : List Event)
    (hordered : Ordered events) :
    (∀ key bucket, bucketsAfter (applyLimits capacity refillWindow) noBuckets events key =
        some bucket →
      0 ≤ bucket.tokens ∧ bucket.tokens ≤ (applyLimits capacity refillWindow).capacity) ∧
    (∀ key s t, s ≤ t →
      (grantedBetween key s t (answers (applyLimits capacity refillWindow) noBuckets events) : ℚ) ≤
        (applyLimits capacity refillWindow).capacity +
          (t - s) * ((applyLimits capacity refillWindow).capacity /
            (applyLimits capacity refillWindow).refillWindow)) ∧
    (∀ key, answersOn key (answers (applyLimits capacity refillWindow) noBuckets events) =
      answers (applyLimits capacity refillWindow) noBuckets
        (events.filter (fun event => event.call.key? == some key))) := by
  refine ⟨?bounded, ?bound, ?alone⟩
  case bounded =>
    intro key bucket hbucket
    obtain ⟨-, meter, now, htracks⟩ :=
      @answersOn_noBuckets (applyLimits capacity refillWindow) key _ hordered
    rw [hbucket] at htracks
    obtain ⟨hnonneg, hcap, -⟩ := htracks.bucket_valid _ rfl
    exact ⟨hnonneg, hcap⟩
  case bound =>
    intro key s t hst
    rw [← grantedBetween_answersOn, (answersOn_noBuckets hordered).1, grantedBetween_seenBy]
    exact TokenBucket.length_granted_le (requests_sorted hordered) hst
  case alone =>
    intro key
    have hown : answersOn key (answers (applyLimits capacity refillWindow) noBuckets
          (events.filter (fun event => event.call.key? == some key))) =
        answers (applyLimits capacity refillWindow) noBuckets
          (events.filter (fun event => event.call.key? == some key)) := by
      rw [answersOn, List.filter_eq_self]
      intro entry hentry
      exact (List.mem_filter.mp (mem_of_mem_answers entry hentry)).2
    rw [← hown, (answersOn_noBuckets hordered).1, (answersOn_noBuckets (hordered.filter _)).1,
      seenBy_own]

/-- Two requests in a second on a limit of one a minute. -/
theorem rate_limit_two :
    (grantedBetween (ascii "10.0.0.5") 0 1 (answers (applyLimits 1 60) noBuckets
      [⟨0, .tryAcquire (ascii "10.0.0.5")⟩, ⟨1000000000, .tryAcquire (ascii "10.0.0.5")⟩]) : ℚ) ≤
        (applyLimits 1 60).capacity +
          (1 - 0) * ((applyLimits 1 60).capacity / (applyLimits 1 60).refillWindow) :=
  (rate_limit 1 60 [⟨0, .tryAcquire (ascii "10.0.0.5")⟩,
    ⟨1000000000, .tryAcquire (ascii "10.0.0.5")⟩] (by simp [Ordered])).2.1
      (ascii "10.0.0.5") 0 1 (by norm_num)

end RateLimiter

end Launcher
