import Launcher.Common.RateLimiter

set_option autoImplicit false

/-! # Looking at the limiter

`retryAfter` and `prune` write to the buckets, and `reset` and `reconfigure` forget them. What a
limiter answers is nevertheless a matter of the meters of its keys alone (`Meters`), which only a
granted request moves: the two looks are invisible to every later request, and what `retryAfter`
promises stays true until a request takes the token. -/

namespace Launcher

namespace RateLimiter

structure State where
  limits : Limits
  buckets : Buckets

/-- A limiter just built. -/
def build (capacity : Nat) (refillWindow : Int) : State where
  limits := applyLimits capacity refillWindow
  buckets := noBuckets

/-- What can be done to a limiter; `reset` and `reconfigure` do not read the clock. -/
inductive Op
  | call (event : Event)
  | reset
  | reconfigure (capacity : Nat) (refillWindow : Int)
  deriving DecidableEq, Repr

def Op.event? : Op → Option Event
  | .call event => some event
  | _ => none

def step (state : State) : Op → Option (Event × Answer) × State
  | .call event =>
      let (answer, buckets) := exec state.limits state.buckets event
      (some (event, answer), { state with buckets := buckets })
  | .reset => (none, { state with buckets := noBuckets })
  | .reconfigure capacity refillWindow =>
      (none, { limits := applyLimits capacity refillWindow, buckets := noBuckets })

def stateAfter (state : State) (ops : List Op) : State :=
  ops.foldl (fun state op => (step state op).2) state

/-- Every call of a run, with its answer. -/
def log : State → List Op → List (Event × Answer)
  | _, [] => []
  | state, op :: rest => (step state op).1.toList ++ log (step state op).2 rest

/-- The clock readings of a run never go back. -/
def Timely (ops : List Op) : Prop := Ordered (ops.filterMap Op.event?)

def Call.isLook : Call → Bool
  | .tryAcquire _ => false
  | .retryAfter _ => true
  | .prune => true

def Op.isLook : Op → Bool
  | .call event => event.call.isLook
  | _ => false

/-- The requests of a run, with their answers. -/
def acquisitions (log : List (Event × Answer)) : List (Event × Answer) :=
  log.filter (fun (event, _) => !event.call.isLook)

/-! ## The meters of all keys -/

/-- What a limiter is for: a meter for each key, which a granted request moves. -/
structure Meters where
  limits : Limits
  meter : Bytes → Option (TokenBucket.Meter ℚ)

namespace Meters

def level (meters : Meters) (key : Bytes) (now : TimePoint) : ℚ :=
  TokenBucket.level meters.limits.toBucket (meters.meter key) (seconds now)

def answer (meters : Meters) (event : Event) : Answer :=
  match event.call with
  | .tryAcquire key => .acquired (decide (1 ≤ meters.level key event.now))
  | .retryAfter key => .wait (waitFor meters.limits (meters.level key event.now))
  | .prune => .pruned

def step (meters : Meters) : Op → Option (Event × Answer) × Meters
  | .call event =>
      (some (event, meters.answer event),
        match event.call with
        | .tryAcquire key =>
            { meters with
              meter := Function.update meters.meter key
                (TokenBucket.take meters.limits.toBucket (meters.meter key) (seconds event.now)) }
        | _ => meters)
  | .reset => (none, { meters with meter := fun _ => none })
  | .reconfigure capacity refillWindow =>
      (none, { limits := applyLimits capacity refillWindow, meter := fun _ => none })

def log : Meters → List Op → List (Event × Answer)
  | _, [] => []
  | meters, op :: rest => (meters.step op).1.toList ++ log (meters.step op).2 rest

def after (meters : Meters) (ops : List Op) : Meters :=
  ops.foldl (fun meters op => (meters.step op).2) meters

end Meters

/-- The limiter cannot be told from its meters. -/
structure Refines (state : State) (meters : Meters) (now : ℚ) : Prop where
  limits_eq : state.limits = meters.limits
  tracks : ∀ key, Tracks state.limits (state.buckets key) (meters.meter key) now

/-- The last clock reading, behind a step. -/
def Op.time (now : ℚ) : Op → ℚ
  | .call event => seconds event.now
  | _ => now

theorem exec_tracks {limits : Limits} {buckets : Buckets} {event : Event}
    {meter : Bytes → Option (TokenBucket.Meter ℚ)}
    (h : ∀ key, Tracks limits (buckets key) (meter key) (seconds event.now)) :
    (exec limits buckets event).1 = Meters.answer ⟨limits, meter⟩ event ∧
      ∀ key, Tracks limits ((exec limits buckets event).2 key)
        (((Meters.step ⟨limits, meter⟩ (.call event)).2).meter key) (seconds event.now) := by
  obtain ⟨now, call⟩ := event
  cases call with
  | tryAcquire own =>
      obtain ⟨hanswer, htracks⟩ := @exec_own _ _ _ _ ⟨now, .tryAcquire own⟩ (h own) rfl
      refine ⟨hanswer, fun key => ?_⟩
      by_cases hkey : key = own
      · subst hkey
        simp only [Meters.step, Function.update_self]
        exact htracks
      · simp only [Meters.step, Function.update_of_ne hkey]
        exact exec_other (h key) (fun heq => hkey (Option.some.inj heq).symm)
  | retryAfter own =>
      obtain ⟨hanswer, htracks⟩ := @exec_own _ _ _ _ ⟨now, .retryAfter own⟩ (h own) rfl
      refine ⟨hanswer, fun key => ?_⟩
      by_cases hkey : key = own
      · subst hkey
        exact htracks
      · exact exec_other (h key) (fun heq => hkey (Option.some.inj heq).symm)
  | prune => exact ⟨rfl, fun key => prune_spec (h key)⟩

/-- One step of both. -/
theorem Refines.step {state : State} {meters : Meters} {now : ℚ} {op : Op}
    (h : Refines state meters now) (hop : ∀ event, op = .call event → now ≤ seconds event.now) :
    (RateLimiter.step state op).1 = (meters.step op).1 ∧
      Refines (RateLimiter.step state op).2 (meters.step op).2 (op.time now) := by
  obtain ⟨limits, buckets⟩ := state
  obtain ⟨limits', meter⟩ := meters
  obtain rfl : limits = limits' := h.limits_eq
  cases op with
  | call event =>
      have hnow := hop event rfl
      obtain ⟨hanswer, htracks⟩ := exec_tracks (fun key => (h.tracks key).mono hnow)
      refine ⟨by simp only [RateLimiter.step, Meters.step, hanswer], ?_, htracks⟩
      simp only [RateLimiter.step, Meters.step]
      split <;> rfl
  | reset => exact ⟨rfl, rfl, fun _ => tracks_none now⟩
  | reconfigure capacity refillWindow => exact ⟨rfl, rfl, fun _ => tracks_none now⟩

/-- A whole run of both; `start` is a time before every clock reading. -/
theorem Refines.log_eq {ops : List Op} : ∀ {state : State} {meters : Meters} {start : ℚ},
    Timely ops → (∀ event ∈ ops.filterMap Op.event?, start ≤ seconds event.now) →
    Refines state meters start → log state ops = meters.log ops := by
  induction ops with
  | nil => exact fun _ _ _ => rfl
  | cons op rest ih =>
      intro state meters start htimely hstart h
      have hop : ∀ event, op = .call event → start ≤ seconds event.now := by
        rintro event rfl
        exact hstart event (by simp [Op.event?])
      obtain ⟨hanswer, hrefines⟩ := h.step hop
      rw [log, Meters.log, hanswer]
      cases op with
      | call event =>
          -- what follows is later than this call
          obtain ⟨hnow, hrest⟩ := List.pairwise_cons.mp htimely
          rw [ih hrest (fun e he => seconds_le (hnow e he)) hrefines]
      | reset => rw [ih htimely hstart hrefines]
      | reconfigure => rw [ih htimely hstart hrefines]

section Built

variable (capacity : Nat) (refillWindow : Int)

/-- The meters of a limiter just built. -/
def Meters.build : Meters where
  limits := applyLimits capacity refillWindow
  meter := fun _ => none

theorem refines_build (now : ℚ) :
    Refines (build capacity refillWindow) (Meters.build capacity refillWindow) now where
  limits_eq := rfl
  tracks := fun _ => tracks_none now

theorem log_build {ops : List Op} (htimely : Timely ops) :
    log (build capacity refillWindow) ops = (Meters.build capacity refillWindow).log ops := by
  have hfirst : ∃ start, ∀ event ∈ ops.filterMap Op.event?, start ≤ seconds event.now := by
    unfold Timely Ordered at htimely
    cases hevents : ops.filterMap Op.event? with
    | nil => exact ⟨0, by simp⟩
    | cons event rest =>
        rw [hevents] at htimely
        refine ⟨seconds event.now, fun e he => ?_⟩
        rcases List.mem_cons.mp he with rfl | he
        · exact le_refl _
        · exact seconds_le ((List.pairwise_cons.mp htimely).1 e he)
  obtain ⟨start, hstart⟩ := hfirst
  exact (refines_build capacity refillWindow start).log_eq htimely hstart

end Built

/-! ## Runs in two parts -/

theorem Timely.of_append {ops rest : List Op} (h : Timely (ops ++ rest)) : Timely ops := by
  unfold Timely at h
  rw [List.filterMap_append] at h
  exact (List.pairwise_append.mp h).1

theorem stateAfter_append (state : State) (ops rest : List Op) :
    stateAfter state (ops ++ rest) = stateAfter (stateAfter state ops) rest :=
  List.foldl_append ..

theorem log_append (ops rest : List Op) : ∀ state : State,
    log state (ops ++ rest) = log state ops ++ log (stateAfter state ops) rest := by
  induction ops with
  | nil => exact fun _ => rfl
  | cons op ops ih =>
      intro state
      rw [List.cons_append, log, log, ih, List.append_assoc]
      rfl

theorem Meters.log_append (ops rest : List Op) : ∀ meters : Meters,
    meters.log (ops ++ rest) = meters.log ops ++ (meters.after ops).log rest := by
  induction ops with
  | nil => exact fun _ => rfl
  | cons op ops ih =>
      intro meters
      rw [List.cons_append, Meters.log, Meters.log, ih, List.append_assoc]
      rfl

/-- What is answered in a state that a run reaches is what its meters answer. -/
theorem answer_build (capacity : Nat) (refillWindow : Int) {ops rest : List Op} {event : Event}
    (htimely : Timely (ops ++ .call event :: rest)) :
    let state := stateAfter (build capacity refillWindow) ops
    (exec state.limits state.buckets event).1
      = ((Meters.build capacity refillWindow).after ops).answer event := by
  intro state
  have hwhole : Timely ((ops ++ [.call event]) ++ rest) := by
    rw [List.append_assoc]
    exact htimely
  have hlog := log_build capacity refillWindow hwhole.of_append
  rw [log_append, Meters.log_append, log_build capacity refillWindow htimely.of_append] at hlog
  have hlast := List.append_cancel_left hlog
  simp only [log, Meters.log, step, Meters.step, Option.toList_some, List.append_nil,
    List.cons.injEq, Prod.mk.injEq, true_and, and_true] at hlast
  exact hlast

/-! ## Looks -/

theorem Meters.step_look {op : Op} (h : op.isLook = true) (meters : Meters) :
    (meters.step op).2 = meters := by
  cases op with
  | call event =>
      obtain ⟨now, call⟩ := event
      cases call with
      | tryAcquire key => cases h
      | retryAfter key => rfl
      | prune => rfl
  | reset => cases h
  | reconfigure => cases h

/-- The requests of a run without its looks get the same answers. -/
theorem Meters.acquisitions_filter (ops : List Op) : ∀ meters : Meters,
    acquisitions (meters.log ops) =
      acquisitions (meters.log (ops.filter (fun op => !op.isLook))) := by
  induction ops with
  | nil => exact fun _ => rfl
  | cons op ops ih =>
      intro meters
      rw [Meters.log, acquisitions, List.filter_append, ← acquisitions, ← acquisitions, ih]
      cases hlook : op.isLook with
      | true =>
          -- a look leaves the meters as they are and answers no request
          rw [List.filter_cons_of_neg (by simp [hlook]), Meters.step_look hlook]
          have hnone : acquisitions (meters.step op).1.toList = [] := by
            cases op with
            | call event =>
                have hcall : event.call.isLook = true := hlook
                simp [Meters.step, acquisitions, hcall]
            | reset => cases hlook
            | reconfigure => cases hlook
          rw [hnone, List.nil_append]
      | false =>
          -- the operation is in both runs
          rw [List.filter_cons_of_pos (by simp [hlook]), Meters.log, acquisitions, acquisitions,
            acquisitions, List.filter_append]

/-! ## What `retryAfter` promises -/

/-- From `due` on there is a token for the key. -/
def Meters.Ready (meters : Meters) (key : Bytes) (due : ℚ) : Prop :=
  ∀ now : TimePoint, due ≤ seconds now → 1 ≤ meters.level key now

theorem Meters.ready_of_waitFor {meters : Meters} {key : Bytes} {now : TimePoint} {n : Int}
    (h : waitFor meters.limits (meters.level key now) = n) :
    meters.Ready key (seconds now + n) := by
  intro later hdue
  have hpos := meters.limits.tokensPerSecond_pos
  unfold waitFor at h
  split_ifs at h with hone
  · -- there was a token already
    subst h
    refine hone.trans (TokenBucket.le_level ?_)
    simpa using hdue
  · -- `n` seconds at the rate make up for what is lacking
    have hwait : (1 - meters.level key now) / meters.limits.tokensPerSecond ≤ n := by
      rw [← h]
      exact Int.le_ceil _
    have hlacking : 1 - meters.level key now ≤ n * meters.limits.tokensPerSecond :=
      (div_le_iff₀ hpos).mp hwait
    have hn : (0 : ℚ) ≤ n := le_trans (div_nonneg (by linarith [not_le.mp hone]) hpos.le) hwait
    have hgained : (n : ℚ) * meters.limits.tokensPerSecond ≤
        (seconds later - seconds now) * meters.limits.tokensPerSecond :=
      mul_le_mul_of_nonneg_right (by linarith) hpos.le
    have hle : seconds now ≤ seconds later := by linarith
    refine TokenBucket.one_le_level_of_gain hle meters.limits.one_le_capacity ?_
    calc (1 : ℚ) ≤ meters.level key now + n * meters.limits.tokensPerSecond := by linarith
      _ ≤ meters.level key now + (seconds later - seconds now) * meters.limits.tokensPerSecond := by
          linarith

/-- Only a request on the key takes its token. -/
theorem Meters.Ready.step {meters : Meters} {key : Bytes} {due : ℚ} {op : Op}
    (h : meters.Ready key due) (hop : ∀ now, op ≠ .call ⟨now, .tryAcquire key⟩) :
    (meters.step op).2.Ready key due := by
  cases op with
  | call event =>
      obtain ⟨now, call⟩ := event
      cases call with
      | tryAcquire other =>
          have hother : key ≠ other := by
            rintro rfl
            exact hop now rfl
          intro later hdue
          simp only [Meters.step, Meters.level, Function.update_of_ne hother]
          exact h later hdue
      | retryAfter other => exact h
      | prune => exact h
  -- both of these fill the bucket
  | reset => exact fun _ _ => meters.limits.one_le_capacity
  | reconfigure capacity refillWindow =>
      exact fun _ _ => (applyLimits capacity refillWindow).one_le_capacity

theorem Meters.Ready.after {ops : List Op} : ∀ {meters : Meters} {key : Bytes} {due : ℚ},
    meters.Ready key due → (∀ now, .call ⟨now, .tryAcquire key⟩ ∉ ops) →
    (meters.after ops).Ready key due := by
  induction ops with
  | nil => exact fun h _ => h
  | cons op rest ih =>
      intro meters key due h hops
      refine ih (h.step ?_) ?_
      · rintro now rfl
        exact hops now List.mem_cons_self
      · exact fun now hmem => hops now (List.mem_cons_of_mem op hmem)

theorem seconds_add (now : TimePoint) (n : Int) :
    seconds (now + n * 1000000000) = seconds now + n := by
  simp only [seconds]
  push_cast
  ring

/-- **Looking is invisible, and `retryAfter` is honest.** Two runs with the same requests, resets
and reconfigurations, and any prunes and questions in between, answer the requests alike. Once
`retryAfter` has answered `n`, the next request on the key is granted from `n` seconds later on. -/
theorem looks_invisible_retry_honest (capacity : Nat) (refillWindow : Int) :
    (∀ ops ops' : List Op, Timely ops → Timely ops' →
      ops.filter (fun op => !op.isLook) = ops'.filter (fun op => !op.isLook) →
      acquisitions (log (build capacity refillWindow) ops)
        = acquisitions (log (build capacity refillWindow) ops')) ∧
    ∀ (before between : List Op) (key : Bytes) (now later : TimePoint) (n : Int),
      Timely (before ++ .call ⟨now, .retryAfter key⟩ ::
        (between ++ [.call ⟨later, .tryAcquire key⟩])) →
      (∀ time, .call ⟨time, .tryAcquire key⟩ ∉ between) →
      let asked := stateAfter (build capacity refillWindow) before
      let state := stateAfter asked (.call ⟨now, .retryAfter key⟩ :: between)
      (retryAfter asked.limits asked.buckets now key).1 = n → now + n * 1000000000 ≤ later →
      (tryAcquire state.limits state.buckets later key).1 = true := by
  refine ⟨fun ops ops' htimely htimely' hsame => ?_, ?_⟩
  · -- each run answers like the run without its looks, and these two are one
    rw [log_build _ _ htimely, log_build _ _ htimely', Meters.acquisitions_filter, hsame,
      ← Meters.acquisitions_filter]
  · intro before between key now later n htimely hbetween asked state hanswer hdue
    have hsplit : before ++ .call ⟨now, .retryAfter key⟩ ::
          (between ++ [.call ⟨later, .tryAcquire key⟩])
        = (before ++ .call ⟨now, .retryAfter key⟩ :: between)
          ++ [.call ⟨later, .tryAcquire key⟩] := by
      simp
    have hasked := answer_build capacity refillWindow htimely
    rw [hsplit] at htimely
    have hgranted := answer_build capacity refillWindow htimely
    simp only [exec, Meters.answer, Answer.wait.injEq] at hasked
    simp only [exec, Meters.answer, Answer.acquired.injEq, stateAfter_append] at hgranted
    -- the promise is the meters', and they keep it
    set meters := (Meters.build capacity refillWindow).after before
    have hready : meters.Ready key (seconds now + n) :=
      Meters.ready_of_waitFor (hasked.symm.trans hanswer)
    -- nothing in between takes the token of the key
    have hafter : (meters.after (.call ⟨now, .retryAfter key⟩ :: between)).Ready key
        (seconds now + n) := by
      refine hready.after (fun time hmem => ?_)
      rcases List.mem_cons.mp hmem with heq | hmem
      · cases heq
      · exact hbetween time hmem
    have hlevel := hafter later (by
      rw [← seconds_add]
      exact seconds_le hdue)
    refine hgranted.trans (decide_eq_true ?_)
    rw [Meters.after, List.foldl_append]
    exact hlevel

/-- One request a minute: the second is told to wait for a minute, and then granted. -/
theorem looks_invisible_retry_honest_minute :
    let spent : List Op := [.call ⟨0, .tryAcquire (ascii "10.0.0.5")⟩]
    let looks : List Op := [.call ⟨0, .retryAfter (ascii "10.0.0.5")⟩, .call ⟨30000000000, .prune⟩]
    acquisitions (log (build 1 60) (spent ++ looks)) = acquisitions (log (build 1 60) spent) ∧
      (tryAcquire (stateAfter (stateAfter (build 1 60) spent) looks).limits
        (stateAfter (stateAfter (build 1 60) spent) looks).buckets 60000000000
        (ascii "10.0.0.5")).1 = true := by
  have hhonest := looks_invisible_retry_honest 1 60
  refine ⟨hhonest.1 _ _ (by simp [Timely, Ordered, Op.event?])
    (by simp [Timely, Ordered, Op.event?]) rfl, ?_⟩
  refine hhonest.2 [.call ⟨0, .tryAcquire (ascii "10.0.0.5")⟩] [.call ⟨30000000000, .prune⟩]
    (ascii "10.0.0.5") 0 60000000000 60 (by simp [Timely, Ordered, Op.event?]) (by simp) ?_
    (by decide)
  decide +kernel

end RateLimiter

end Launcher
