import Mathlib.Algebra.Order.Field.Basic
import Mathlib.Tactic

set_option autoImplicit false

/-! # Token buckets

A token bucket holds at most `capacity` tokens and gains `rate` of them per unit of time; a
request takes one, and is refused when there is less than one. The meter of a bucket
remembers how much it held at the last request that took a token, and a bucket nobody has
taken from is full. What a bucket holds at a time is its `level`, the one observation a
request makes.

The main result, `length_granted_le`, bounds the requests granted between two times by
the capacity and what the bucket gains in between. -/

namespace TokenBucket

section

variable {K : Type} [Field K] [LinearOrder K]

/-- The limits of a bucket: it has room, and it never loses tokens by waiting. -/
structure Limits (K : Type) [Field K] [LinearOrder K] where
  capacity : K
  rate : K
  capacity_nonneg : 0 ≤ capacity
  rate_nonneg : 0 ≤ rate

structure Meter (K : Type) where
  tokens : K
  since : K

/-- What a bucket holds at the time `now`. -/
def level (limits : Limits K) (meter : Option (Meter K)) (now : K) : K :=
  match meter with
  | none => limits.capacity
  | some m => min limits.capacity (m.tokens + (now - m.since) * limits.rate)

/-- A request for one token. -/
def take (limits : Limits K) (meter : Option (Meter K)) (now : K) : Option (Meter K) :=
  if 1 ≤ level limits meter now then some ⟨level limits meter now - 1, now⟩ else meter

/-- The meter after requests at the given times. -/
def after (limits : Limits K) (meter : Option (Meter K)) (times : List K) : Option (Meter K) :=
  times.foldl (take limits) meter

/-- Those of the requests that are granted. -/
def granted (limits : Limits K) : Option (Meter K) → List K → List K
  | _, [] => []
  | meter, now :: rest =>
      if 1 ≤ level limits meter now then now :: granted limits (take limits meter now) rest
      else granted limits (take limits meter now) rest

/-- Those of the times that lie in the interval from `s` to `t`. -/
def within (times : List K) (s t : K) : List K := times.filter (fun now => s ≤ now ∧ now ≤ t)

/-- A meter that was last written before `now`, and within the limits. -/
def Valid (limits : Limits K) (meter : Option (Meter K)) (now : K) : Prop :=
  ∀ m ∈ meter, 0 ≤ m.tokens ∧ m.tokens ≤ limits.capacity ∧ m.since ≤ now

variable {limits : Limits K} {meter : Option (Meter K)} {now later : K}

theorem valid_none : Valid limits (none : Option (Meter K)) now := by
  intro m hm
  cases hm

theorem Valid.mono (h : Valid limits meter now) (hle : now ≤ later) : Valid limits meter later := by
  intro m hm
  obtain ⟨h0, hcap, hsince⟩ := h m hm
  exact ⟨h0, hcap, hsince.trans hle⟩

theorem level_le_capacity : level limits meter now ≤ limits.capacity := by
  cases meter with
  | none => exact le_refl _
  | some m => exact min_le_left _ _

theorem mem_of_mem_granted {times : List K} :
    ∀ {meter : Option (Meter K)}, ∀ time ∈ granted limits meter times, time ∈ times := by
  induction times with
  | nil => intro meter time h; exact h
  | cons first rest ih =>
      intro meter time h
      rw [granted] at h
      split at h
      · rcases List.mem_cons.mp h with rfl | h
        · exact List.mem_cons_self
        · exact List.mem_cons_of_mem _ (ih time h)
      · exact List.mem_cons_of_mem _ (ih time h)

/-- A request before the interval does not count. -/
theorem within_granted_early {rest : List K} {s t : K} (hbefore : now < s) :
    within (granted limits meter (now :: rest)) s t =
      within (granted limits (take limits meter now) rest) s t := by
  rw [granted]
  split
  · simp [within, hbefore]
  · rfl

omit [Field K] in
theorem within_late {times : List K} {s t : K} (hlate : ∀ time ∈ times, t < time) :
    within times s t = [] := by
  rw [within, List.filter_eq_nil_iff]
  intro time htime
  simp [hlate time htime]

omit [Field K] in
/-- The interval may begin with the first request. -/
theorem within_narrow {times : List K} {s t : K} (hle : s ≤ now)
    (hfrom : ∀ time ∈ times, now ≤ time) : within times s t = within times now t := by
  apply List.filter_congr
  intro time htime
  have hlow := hfrom time htime
  simp [hlow, hle.trans hlow]

variable [IsStrictOrderedRing K]

theorem Valid.level_nonneg (h : Valid limits meter now) : 0 ≤ level limits meter now := by
  cases meter with
  | none => exact limits.capacity_nonneg
  | some m =>
      obtain ⟨h0, -, hsince⟩ := h m rfl
      have hgain : 0 ≤ (now - m.since) * limits.rate :=
        mul_nonneg (sub_nonneg.mpr hsince) limits.rate_nonneg
      exact le_min limits.capacity_nonneg (add_nonneg h0 hgain)

/-- Waiting never empties a bucket. -/
theorem le_level (hle : now ≤ later) : level limits meter now ≤ level limits meter later := by
  cases meter with
  | none => exact le_refl _
  | some m =>
      apply min_le_min le_rfl
      have := mul_le_mul_of_nonneg_right (sub_le_sub_right hle m.since) limits.rate_nonneg
      linarith

/-- It fills it at the rate at most. -/
theorem level_gain (hle : now ≤ later) :
    level limits meter later ≤ level limits meter now + (later - now) * limits.rate := by
  have hgain : 0 ≤ (later - now) * limits.rate :=
    mul_nonneg (sub_nonneg.mpr hle) limits.rate_nonneg
  cases meter with
  | none => exact le_add_of_nonneg_right hgain
  | some m =>
      simp only [level]
      rw [← min_add_add_right]
      apply min_le_min
      · exact le_add_of_nonneg_right hgain
      · apply le_of_eq
        ring

/-- A meter read and written again at `now` shows the same from then on. -/
theorem level_rewrite (hle : now ≤ later) :
    level limits (some ⟨level limits meter now, now⟩) later = level limits meter later := by
  have hgain : 0 ≤ (later - now) * limits.rate :=
    mul_nonneg (sub_nonneg.mpr hle) limits.rate_nonneg
  cases meter with
  | none => exact min_eq_left (le_add_of_nonneg_right hgain)
  | some m =>
      simp only [level]
      have hsplit : m.tokens + (later - m.since) * limits.rate =
          m.tokens + (now - m.since) * limits.rate + (later - now) * limits.rate := by ring
      rw [hsplit, ← min_add_add_right, ← min_assoc,
        min_eq_left (le_add_of_nonneg_right hgain)]

/-- A bucket that has gained what it lacked has a token, unless it cannot hold one. -/
theorem one_le_level_of_gain (hle : now ≤ later) (hcapacity : 1 ≤ limits.capacity)
    (hgain : 1 ≤ level limits meter now + (later - now) * limits.rate) :
    1 ≤ level limits meter later := by
  rw [← level_rewrite hle]
  exact le_min hcapacity hgain

theorem Valid.rewrite (h : Valid limits meter now) :
    Valid limits (some ⟨level limits meter now, now⟩) now := by
  intro m hm
  cases hm
  exact ⟨h.level_nonneg, level_le_capacity, le_refl _⟩

theorem Valid.take (h : Valid limits meter now) : Valid limits (take limits meter now) now := by
  simp only [TokenBucket.take]
  split
  case isTrue hone =>
    intro m hm
    cases hm
    refine ⟨sub_nonneg.mpr hone, ?_, le_refl _⟩
    exact (sub_le_self _ zero_le_one).trans level_le_capacity
  case isFalse => exact h

/-- A granted request costs one token, at once and for every later reading. -/
theorem level_take (hone : 1 ≤ level limits meter now) :
    level limits (take limits meter now) now = level limits meter now - 1 := by
  rw [take, if_pos hone]
  simp only [level, sub_self, zero_mul, add_zero]
  exact min_eq_right ((sub_le_self _ zero_le_one).trans level_le_capacity)

theorem level_take_le (hle : now ≤ later) :
    level limits (take limits meter now) later ≤ level limits meter later := by
  rw [take]
  split
  case isTrue =>
    calc level limits (some ⟨level limits meter now - 1, now⟩) later
        ≤ level limits (some ⟨level limits meter now, now⟩) later := by
          apply min_le_min le_rfl
          apply add_le_add_left
          exact sub_le_self _ zero_le_one
      _ = level limits meter later := level_rewrite hle
  case isFalse => exact le_refl _

/-- From a meter valid at `s`: what is granted until `t` is paid out of what the bucket holds
at `s` and what it gains after. The induction carries the meter and moves `s` to the time of
each request it passes. -/
theorem length_granted_le_level {times : List K} (hsorted : times.Pairwise (· ≤ ·)) :
    ∀ {meter : Option (Meter K)} {start s t : K}, Valid limits meter start →
      (∀ time ∈ times, start ≤ time) → start ≤ s → s ≤ t →
      ((within (granted limits meter times) s t).length : K) ≤
        level limits meter s + (t - s) * limits.rate := by
  induction times with
  | nil =>
      intro meter start s t hvalid _ hs hst
      have hlevel := (hvalid.mono hs).level_nonneg
      have hgain : 0 ≤ (t - s) * limits.rate := mul_nonneg (sub_nonneg.mpr hst) limits.rate_nonneg
      simpa [within, granted] using add_nonneg hlevel hgain
  | cons now rest ih =>
      intro meter start s t hvalid hstart hs hst
      obtain ⟨hnow, hrest⟩ := List.pairwise_cons.mp hsorted
      have hvalidNow : Valid limits meter now := hvalid.mono (hstart now List.mem_cons_self)
      have hlevel := (hvalid.mono hs).level_nonneg
      have hgain : 0 ≤ (t - s) * limits.rate := mul_nonneg (sub_nonneg.mpr hst) limits.rate_nonneg
      have hvalidTake := hvalidNow.take
      by_cases hbefore : now < s
      · -- the request is too early to count, and can only have cost tokens
        rw [within_granted_early hbefore]
        calc ((within (granted limits (take limits meter now) rest) s t).length : K)
            ≤ level limits (take limits meter now) s + (t - s) * limits.rate :=
              ih hrest hvalidTake hnow hbefore.le hst
          _ ≤ level limits meter s + (t - s) * limits.rate := by
              have hless : level limits (take limits meter now) s ≤ level limits meter s :=
                level_take_le hbefore.le
              linarith
      by_cases hafter : t < now
      · -- nothing from here on is in the interval
        have hnone : within (granted limits meter (now :: rest)) s t = [] := by
          refine within_late (fun time htime => ?_)
          rcases List.mem_cons.mp (mem_of_mem_granted time htime) with rfl | hin
          · exact hafter
          · exact lt_of_lt_of_le hafter (hnow time hin)
        rw [hnone]
        simpa using add_nonneg hlevel hgain
      have hs' : s ≤ now := not_lt.mp hbefore
      have ht' : now ≤ t := not_lt.mp hafter
      have hearned : level limits meter now ≤ level limits meter s + (now - s) * limits.rate :=
        level_gain hs'
      have hleft := ih hrest hvalidTake hnow le_rfl ht'
      have hrest' : within (granted limits (take limits meter now) rest) s t =
          within (granted limits (take limits meter now) rest) now t :=
        within_narrow hs' (fun time htime => hnow time (mem_of_mem_granted time htime))
      have hsplit : (t - s) * limits.rate =
          (now - s) * limits.rate + (t - now) * limits.rate := by ring
      by_cases hone : 1 ≤ level limits meter now
      · have hlength : ((within (granted limits meter (now :: rest)) s t).length : K) =
            (within (granted limits (take limits meter now) rest) now t).length + 1 := by
          rw [granted, if_pos hone, within, List.filter_cons_of_pos (by simp [hs', ht']),
            List.length_cons, ← within, hrest', Nat.cast_add, Nat.cast_one]
        rw [level_take hone] at hleft
        rw [hlength, hsplit]
        linarith
      · have hsame : take limits meter now = meter := by rw [take, if_neg hone]
        rw [granted, if_neg hone, hrest', hsplit]
        rw [hsame] at hleft ⊢
        linarith

/-- **The rate bound.** Of the requests made in the interval from `s` to `t` on a bucket that
starts full, no more are granted than it holds and gains meanwhile. -/
theorem length_granted_le {times : List K} (hsorted : times.Pairwise (· ≤ ·)) {s t : K}
    (hst : s ≤ t) :
    ((within (granted limits none times) s t).length : K) ≤
      limits.capacity + (t - s) * limits.rate := by
  have hfirst : ∃ start, start ≤ s ∧ ∀ time ∈ times, start ≤ time := by
    cases times with
    | nil => exact ⟨s, le_rfl, by simp⟩
    | cons first rest =>
        refine ⟨min s first, min_le_left _ _, fun time htime => ?_⟩
        rcases List.mem_cons.mp htime with rfl | hin
        · exact min_le_right _ _
        · exact (min_le_right _ _).trans ((List.pairwise_cons.mp hsorted).1 time hin)
  obtain ⟨start, hstart, hle⟩ := hfirst
  exact length_granted_le_level hsorted valid_none hle hstart hst

end

end TokenBucket
