import Mathlib.Algebra.BigOperators.Group.List.Basic
import Mathlib.Tactic

set_option autoImplicit false

/-! # Interleaved coroutines over a shared state

A server runs any number of coroutines over one shared state. Between two calls a coroutine
only computes locally; a call is one atomic step on the shared state, and any other coroutine
may run between two of them. A *task* is a coroutine suspended in front of its next call,
with everything it keeps in its frame; `System.next` gives that call and the continuation.

A label says who moves: a new request arrives, a suspended task is resumed (with a *choice*,
the part of a call's outcome the program does not control), or the outside world acts. A run
is a list of labels, so a statement about all runs is a statement about all interleavings.

The rules at the end of the file are the ones invariants are proved with:

* `run_invariant` — what every allowed step keeps, every allowed run keeps;
* `shared_invariant`, `shared_invariant_of_test` and `shared_relation` — the same for the shared
  state alone, from its calls;
* `pool_invariant` — a global invariant together with an assertion for each task, which the
  task's own steps establish and the steps of the others do not break;
* `prefix_induction`, `events_invariant` and `history_invariant` — invariants of the state and
  the steps taken, or the events collected, so far. -/

namespace Launcher.Lib

universe u v w

/-! ## Suspended tasks -/

/-- A task between two steps: finished, or in front of the call `c`, whose reply the
continuation `k` takes. -/
inductive Suspended (C : Type → Type w) (τ : Type u) : Type (max 1 u w)
  | done : Suspended C τ
  | call {α : Type} (c : C α) (k : α → τ) : Suspended C τ

namespace Suspended

variable {C : Type → Type w} {τ : Type u} {τ' : Type v}

/-- The same suspension inside a larger task type. -/
def map (f : τ → τ') : Suspended C τ → Suspended C τ'
  | .done => .done
  | .call c k => .call c (fun a => f (k a))

/-- The same suspension with its call among more calls. -/
def lift {C' : Type → Type v} (f : {α : Type} → C α → C' α) : Suspended C τ → Suspended C' τ
  | .done => .done
  | .call c k => .call (f c) k

def isDone : Suspended C τ → Bool
  | .done => true
  | .call _ _ => false

/-- `P` holds of the call and the continuation, if there is one. -/
def All (P : {α : Type} → C α → (α → τ) → Prop) : Suspended C τ → Prop
  | .done => True
  | .call c k => P c k

theorem all_map (P : {α : Type} → C α → (α → τ') → Prop) (f : τ → τ') (x : Suspended C τ) :
    (x.map f).All P ↔ x.All (fun c k => P c (fun a => f (k a))) := by
  cases x <;> rfl

theorem All.mono {P Q : {α : Type} → C α → (α → τ) → Prop} {x : Suspended C τ}
    (h : x.All P) (hpq : ∀ {α : Type} (c : C α) (k : α → τ), P c k → Q c k) : x.All Q := by
  cases x with
  | done => trivial
  | call c k => exact hpq c k h

/-- The weakest precondition of resuming a task in the state `s`: whatever the call replies,
`Q` holds of the state and the task after it. -/
def Wp {σ χ : Type} (exec : χ → {α : Type} → C α → σ → α × σ) (choice : χ) (s : σ)
    (Q : σ → τ → Prop) : Suspended C τ → Prop
  | .done => True
  | .call c k => ∀ r s', exec choice c s = (r, s') → Q s' (k r)

section Wp

variable {σ χ : Type} {exec : χ → {α : Type} → C α → σ → α × σ} {choice : χ} {s : σ}

theorem wp_map (f : τ → τ') (x : Suspended C τ) (Q : σ → τ' → Prop) :
    (x.map f).Wp exec choice s Q ↔ x.Wp exec choice s (fun s' t => Q s' (f t)) := by
  cases x <;> rfl

theorem Wp.mono {Q Q' : σ → τ → Prop} {x : Suspended C τ} (h : x.Wp exec choice s Q)
    (hq : ∀ s' t, Q s' t → Q' s' t) : x.Wp exec choice s Q' := by
  cases x with
  | done => trivial
  | call c k => exact fun r s' e => hq s' (k r) (h r s' e)

theorem Wp.and {Q Q' : σ → τ → Prop} {x : Suspended C τ} (h : x.Wp exec choice s Q)
    (h' : x.Wp exec choice s Q') : x.Wp exec choice s (fun s' t => Q s' t ∧ Q' s' t) := by
  cases x with
  | done => trivial
  | call c k => exact fun r s' e => ⟨h r s' e, h' r s' e⟩

/-- What every call gives for the state after it. -/
theorem wp_of_exec {G : σ → Prop} (h : ∀ {α : Type} (c : C α), G (exec choice c s).2)
    (x : Suspended C τ) : x.Wp exec choice s (fun s' _ => G s') := by
  cases x with
  | done => trivial
  | call c k =>
      intro r s' e
      have hc := h c
      rw [e] at hc
      exact hc

/-- From what is known of the call and of every reply. -/
theorem All.wp {P : {α : Type} → C α → (α → τ) → Prop} {Q : σ → τ → Prop} {x : Suspended C τ}
    (h : x.All P) (hq : ∀ {α : Type} (c : C α) (k : α → τ), P c k →
      ∀ r s', exec choice c s = (r, s') → Q s' (k r)) : x.Wp exec choice s Q := by
  cases x with
  | done => trivial
  | call c k => exact hq c k h

end Wp

end Suspended

/-! ## Systems, worlds and runs -/

/-- The programs of a server: how a request starts, where a task is suspended, what a call
does to the shared state, and what the outside world can do to it. -/
structure System (σ : Type) (τ : Type u) (ρ χ ω : Type) (C : Type → Type w) where
  entry : ρ → τ
  next : τ → Suspended C τ
  exec : χ → {α : Type} → C α → σ → α × σ
  outside : ω → σ → σ

/-- The shared state and the tasks started so far, finished ones included. -/
structure World (σ : Type) (τ : Type u) where
  shared : σ
  tasks : List τ

inductive Label (ρ χ ω : Type)
  | request (r : ρ)
  | resume (i : Nat) (choice : χ)
  | outside (e : ω)

namespace System

variable {σ : Type} {τ : Type u} {ρ χ ω ε : Type} {C : Type → Type w} (S : System σ τ ρ χ ω C)

/-- Task `i`, suspended as `s`, makes its call. -/
def resume (w : World σ τ) (i : Nat) (choice : χ) : Suspended C τ → World σ τ
  | .done => w
  | .call c k =>
      ⟨(S.exec choice c w.shared).2, w.tasks.set i (k (S.exec choice c w.shared).1)⟩

/-- One step. Resuming a task that does not exist or has finished changes nothing. -/
def step (w : World σ τ) : Label ρ χ ω → World σ τ
  | .request r => ⟨w.shared, w.tasks ++ [S.entry r]⟩
  | .resume i choice =>
      match w.tasks[i]? with
      | none => w
      | some t => S.resume w i choice (S.next t)
  | .outside e => ⟨S.outside e w.shared, w.tasks⟩

theorem step_resume {w : World σ τ} {i : Nat} {t : τ} {choice : χ} {α : Type} {c : C α}
    {k : α → τ} (hi : w.tasks[i]? = some t) (hn : S.next t = .call c k) :
    S.step w (.resume i choice)
      = ⟨(S.exec choice c w.shared).2, w.tasks.set i (k (S.exec choice c w.shared).1)⟩ := by
  simp only [step, hi, hn, resume]

/-- A task that has finished makes no step. -/
theorem step_idle {w : World σ τ} {i : Nat} {t : τ} {choice : χ} (hi : w.tasks[i]? = some t)
    (hn : S.next t = .done) : S.step w (.resume i choice) = w := by
  simp only [step, hi, hn, resume]

def run (w : World σ τ) (ls : List (Label ρ χ ω)) : World σ τ := ls.foldl S.step w

@[simp] theorem run_nil (w : World σ τ) : S.run w [] = w := rfl

@[simp] theorem run_cons (w : World σ τ) (l : Label ρ χ ω) (ls : List (Label ρ χ ω)) :
    S.run w (l :: ls) = S.run (S.step w l) ls := rfl

theorem run_append (w : World σ τ) (ls ls' : List (Label ρ χ ω)) :
    S.run w (ls ++ ls') = S.run (S.run w ls) ls' := List.foldl_append

/-- Every step of the run is one that `A` allows in the state it is taken in. -/
def Along (A : World σ τ → Label ρ χ ω → Prop) : World σ τ → List (Label ρ χ ω) → Prop
  | _, [] => True
  | w, l :: ls => A w l ∧ Along A (S.step w l) ls

instance decidableAlong (A : World σ τ → Label ρ χ ω → Prop) [∀ w l, Decidable (A w l)] :
    ∀ (w : World σ τ) (ls : List (Label ρ χ ω)), Decidable (S.Along A w ls)
  | _, [] => isTrue trivial
  | w, l :: ls =>
      have := decidableAlong A (S.step w l) ls
      inferInstanceAs (Decidable (A w l ∧ S.Along A (S.step w l) ls))

/-- The events `f` reads off the steps of a run, in order. -/
def collect (f : World σ τ → Label ρ χ ω → List ε) : World σ τ → List (Label ρ χ ω) → List ε
  | _, [] => []
  | w, l :: ls => f w l ++ collect f (S.step w l) ls

theorem collect_append (f : World σ τ → Label ρ χ ω → List ε) (w : World σ τ)
    (ls ls' : List (Label ρ χ ω)) :
    S.collect f w (ls ++ ls') = S.collect f w ls ++ S.collect f (S.run w ls) ls' := by
  induction ls generalizing w with
  | nil => rfl
  | cons l ls ih => simp only [List.cons_append, collect, ih, run_cons, List.append_assoc]

/-- Every step of the run is one that `A` allows in the state it is taken in, after the events
`h` and those of the steps before it. -/
def AlongHistory (f : World σ τ → Label ρ χ ω → List ε)
    (A : List ε → World σ τ → Label ρ χ ω → Prop) :
    List ε → World σ τ → List (Label ρ χ ω) → Prop
  | _, _, [] => True
  | h, w, l :: ls => A h w l ∧ AlongHistory f A (h ++ f w l) (S.step w l) ls

instance decidableAlongHistory (f : World σ τ → Label ρ χ ω → List ε)
    (A : List ε → World σ τ → Label ρ χ ω → Prop) [∀ h w l, Decidable (A h w l)] :
    ∀ (h : List ε) (w : World σ τ) (ls : List (Label ρ χ ω)), Decidable (S.AlongHistory f A h w ls)
  | _, _, [] => isTrue trivial
  | h, w, l :: ls =>
      have := decidableAlongHistory f A (h ++ f w l) (S.step w l) ls
      inferInstanceAs (Decidable (A h w l ∧ S.AlongHistory f A (h ++ f w l) (S.step w l) ls))

/-- The test `B`, put to the call that a step makes if it makes one. -/
def callTest (B : σ → {α : Type} → C α → Bool) (w : World σ τ) : Label ρ χ ω → Bool
  | .resume i _ =>
      match w.tasks[i]? with
      | none => true
      | some t =>
          match S.next t with
          | .done => true
          | .call c _ => B w.shared c
  | _ => true

/-! ## Tasks run alone -/

/-- Task `t`, run alone from `s`, ends whatever the choices of its calls, and `Q` holds of the
state and the task then. -/
inductive Ends (Q : σ → τ → Prop) : σ → τ → Prop
  | done {s : σ} {t : τ} (hd : S.next t = .done) (h : Q s t) : Ends Q s t
  | call {s : σ} {t : τ} {α : Type} {c : C α} {k : α → τ} (hc : S.next t = .call c k)
      (h : ∀ choice, Ends Q (S.exec choice c s).2 (k (S.exec choice c s).1)) : Ends Q s t

/-- The world after task `t` has been resumed alone from `s` with these choices. -/
def alone (s : σ) (t : τ) (choices : List χ) : World σ τ :=
  S.run ⟨s, [t]⟩ (choices.map (fun choice => .resume 0 choice))

/-- Run alone from `s` with the same choices, the two tasks leave the same state after every
number of calls, and `out` shows the same of both. -/
def Agree {β : Type v} (out : τ → β) (s : σ) (t t' : τ) : Prop :=
  ∀ choices, (S.alone s t choices).shared = (S.alone s t' choices).shared ∧
    (S.alone s t choices).tasks.map out = (S.alone s t' choices).tasks.map out

/-! ## Rules -/

section Rules

variable {S}

/-- A step by request, by a call or from outside. For a property of the world after a step it
is enough to look at these three; a resumed task that has finished leaves it as it is. -/
theorem step_induction {w : World σ τ} {l : Label ρ χ ω} {P : World σ τ → Prop}
    (request : ∀ r, l = .request r → P ⟨w.shared, w.tasks ++ [S.entry r]⟩)
    (call : ∀ i choice t, l = .resume i choice → w.tasks[i]? = some t →
      (S.next t).Wp S.exec choice w.shared (fun s' t' => P ⟨s', w.tasks.set i t'⟩))
    (idle : P w) (outside : ∀ e, l = .outside e → P ⟨S.outside e w.shared, w.tasks⟩) :
    P (S.step w l) := by
  cases l with
  | request r => exact request r rfl
  | outside e => exact outside e rfl
  | resume i choice =>
      simp only [step]
      cases hi : w.tasks[i]? with
      | none => exact idle
      | some t =>
          have h := call i choice t rfl hi
          show P (S.resume w i choice (S.next t))
          cases hn : S.next t with
          | done => exact idle
          | call c k => rw [hn] at h; exact h _ _ rfl

theorem run_invariant {I : World σ τ → Prop} {A : World σ τ → Label ρ χ ω → Prop}
    (hstep : ∀ w l, I w → A w l → I (S.step w l)) :
    ∀ (ls : List (Label ρ χ ω)) (w : World σ τ), I w → S.Along A w ls → I (S.run w ls)
  | [], _, hw, _ => hw
  | l :: ls, w, hw, hok => run_invariant hstep ls (S.step w l) (hstep w l hw hok.1) hok.2

/-- What an invariant of the allowed steps allows is allowed along every allowed run. -/
theorem Along.of_invariant {I : World σ τ → Prop} {A B : World σ τ → Label ρ χ ω → Prop}
    (hstep : ∀ w l, I w → A w l → I (S.step w l)) (hB : ∀ w l, I w → A w l → B w l) :
    ∀ {ls : List (Label ρ χ ω)} {w : World σ τ}, I w → S.Along A w ls → S.Along B w ls
  | [], _, _, _ => trivial
  | _ :: _, _, hw, hok =>
      ⟨hB _ _ hw hok.1, Along.of_invariant hstep hB (hstep _ _ hw hok.1) hok.2⟩

theorem along_true (w : World σ τ) (ls : List (Label ρ χ ω)) :
    S.Along (fun _ _ => True) w ls := by
  induction ls generalizing w with
  | nil => trivial
  | cons l ls ih => exact ⟨trivial, ih _⟩

theorem Along.mono {A B : World σ τ → Label ρ χ ω → Prop}
    (h : ∀ w l, A w l → B w l) :
    ∀ {ls : List (Label ρ χ ω)} {w : World σ τ}, S.Along A w ls → S.Along B w ls
  | [], _, _ => trivial
  | _ :: _, _, hok => ⟨h _ _ hok.1, Along.mono h hok.2⟩

theorem Along.and {A B : World σ τ → Label ρ χ ω → Prop} :
    ∀ {ls : List (Label ρ χ ω)} {w : World σ τ}, S.Along A w ls → S.Along B w ls →
      S.Along (fun w l => A w l ∧ B w l) w ls
  | [], _, _, _ => trivial
  | _ :: _, _, ha, hb => ⟨⟨ha.1, hb.1⟩, Along.and ha.2 hb.2⟩

theorem along_append {A : World σ τ → Label ρ χ ω → Prop} {w : World σ τ}
    {ls ls' : List (Label ρ χ ω)} :
    S.Along A w (ls ++ ls') ↔ S.Along A w ls ∧ S.Along A (S.run w ls) ls' := by
  induction ls generalizing w with
  | nil => exact ⟨fun h => ⟨trivial, h⟩, fun h => h.2⟩
  | cons l ls ih =>
      constructor
      · rintro ⟨hl, hrest⟩
        obtain ⟨h, h'⟩ := ih.mp hrest
        exact ⟨⟨hl, h⟩, h'⟩
      · rintro ⟨⟨hl, h⟩, h'⟩
        exact ⟨hl, ih.mpr ⟨h, h'⟩⟩

/-- If a property of the worlds before and after a step allows the step, then a run that has the
property at every point is allowed. -/
theorem along_of_points {I : World σ τ → Prop} {A : World σ τ → Label ρ χ ω → Prop}
    (hstep : ∀ w l, I w → I (S.step w l) → A w l) :
    ∀ (ls : List (Label ρ χ ω)) (w : World σ τ),
      (∀ pre post, ls = pre ++ post → I (S.run w pre)) → S.Along A w ls
  | [], _, _ => trivial
  | l :: ls, w, h => by
      refine ⟨hstep w l (h [] _ rfl) (h [l] ls rfl), along_of_points hstep ls (S.step w l) ?_⟩
      intro pre post hls
      exact h (l :: pre) post (congrArg (List.cons l) hls)

/-- Every event of a step of the run is among the events of the run. -/
theorem along_collect (f : World σ τ → Label ρ χ ω → List ε) :
    ∀ (ls : List (Label ρ χ ω)) (w : World σ τ),
      S.Along (fun w' l => ∀ e ∈ f w' l, e ∈ S.collect f w ls) w ls
  | [], _ => trivial
  | l :: ls, w => by
      refine ⟨fun e he => List.mem_append_left _ he, ?_⟩
      refine Along.mono (fun w' l' h e he => ?_) (along_collect f ls (S.step w l))
      exact List.mem_append_right _ (h e he)

/-- An event of an allowed run was read off a step that is allowed. -/
theorem exists_of_mem_collect {f : World σ τ → Label ρ χ ω → List ε}
    {A : World σ τ → Label ρ χ ω → Prop} {e : ε} :
    ∀ {ls : List (Label ρ χ ω)} {w : World σ τ}, S.Along A w ls → e ∈ S.collect f w ls →
      ∃ w' l, A w' l ∧ e ∈ f w' l
  | [], _, _, he => by cases he
  | l :: ls, w, hok, he => by
      rcases List.mem_append.mp he with he | he
      · exact ⟨w, l, hok.1, he⟩
      · exact exists_of_mem_collect hok.2 he

/-- The world after a call, from its weakest precondition. -/
theorem step_of_wp {w : World σ τ} {i : Nat} {t : τ} (choice : χ) {P : World σ τ → Prop}
    (hi : w.tasks[i]? = some t) (hd : S.next t ≠ .done)
    (h : (S.next t).Wp S.exec choice w.shared (fun s' t' => P ⟨s', w.tasks.set i t'⟩)) :
    P (S.step w (.resume i choice)) := by
  cases hn : S.next t with
  | done => exact absurd hn hd
  | call c k =>
      rw [hn] at h
      rw [step_resume S hi hn]
      exact h _ _ rfl

/-- The resumed task and the shared state after a call, from its weakest precondition. -/
theorem step_resumed {w : World σ τ} {i : Nat} {t : τ} (choice : χ) {Q : σ → τ → Prop}
    (hi : w.tasks[i]? = some t) (hd : S.next t ≠ .done)
    (h : (S.next t).Wp S.exec choice w.shared Q) :
    ∃ t', (S.step w (.resume i choice)).tasks[i]? = some t' ∧
      Q (S.step w (.resume i choice)).shared t' := by
  have hlt : i < w.tasks.length := (List.getElem?_eq_some_iff.mp hi).1
  refine step_of_wp (P := fun w' => ∃ t', w'.tasks[i]? = some t' ∧ Q w'.shared t') choice hi hd
    (h.mono (fun s' t' hq => ?_))
  exact ⟨t', List.getElem?_set_self hlt, hq⟩

/-- What every call and every outside step keeps of the shared state holds in every run. -/
theorem shared_invariant {G : σ → Prop}
    (call : ∀ {α : Type} (choice : χ) (c : C α) (s : σ), G s → G (S.exec choice c s).2)
    (outside : ∀ (e : ω) (s : σ), G s → G (S.outside e s))
    (ls : List (Label ρ χ ω)) (w : World σ τ) (hw : G w.shared) : G (S.run w ls).shared := by
  refine run_invariant (I := fun w => G w.shared) (A := fun _ _ => True) (fun w l h _ => ?_)
    ls w hw (along_true w ls)
  refine step_induction (P := fun w' => G w'.shared) (fun _ _ => h) (fun i choice t _ _ => ?_)
    h (fun e _ => outside e w.shared h)
  exact Suspended.wp_of_exec (fun c => call choice c w.shared h) (S.next t)

/-- The same for runs whose calls all pass a test. -/
theorem shared_invariant_of_test {G : σ → Prop} {B : σ → {α : Type} → C α → Bool}
    (call : ∀ {α : Type} (choice : χ) (c : C α) (s : σ), G s → B s c = true →
      G (S.exec choice c s).2)
    (outside : ∀ (e : ω) (s : σ), G s → G (S.outside e s))
    (ls : List (Label ρ χ ω)) (w : World σ τ) (hw : G w.shared)
    (hok : S.Along (fun w l => S.callTest B w l = true) w ls) : G (S.run w ls).shared := by
  refine run_invariant (I := fun w => G w.shared) (fun w l h hl => ?_) ls w hw hok
  refine step_induction (P := fun w' => G w'.shared) (fun _ _ => h)
    (fun i choice t hlab hi => ?_) h (fun e _ => outside e w.shared h)
  subst hlab
  simp only [callTest, hi] at hl
  cases hn : S.next t with
  | done => trivial
  | call c k =>
      rw [hn] at hl
      intro r s' e
      have hc := call choice c w.shared h hl
      rw [e] at hc
      exact hc

/-- A transitive relation that every call and every outside step stays in, under an
invariant, relates the shared states at the two ends of every run. -/
theorem shared_relation {G : σ → Prop} {R : σ → σ → Prop} (refl : ∀ s, R s s)
    (trans : ∀ s s' s'', R s s' → R s' s'' → R s s'')
    (call : ∀ {α : Type} (choice : χ) (c : C α) (s : σ), G s →
      G (S.exec choice c s).2 ∧ R s (S.exec choice c s).2)
    (outside : ∀ (e : ω) (s : σ), G s → G (S.outside e s) ∧ R s (S.outside e s))
    (ls : List (Label ρ χ ω)) (w : World σ τ) (hw : G w.shared) :
    R w.shared (S.run w ls).shared := by
  refine (run_invariant (I := fun w' => G w'.shared ∧ R w.shared w'.shared)
    (A := fun _ _ => True) (fun w' l h _ => ?_) ls w ⟨hw, refl _⟩ (along_true w ls)).2
  refine step_induction (P := fun w'' => G w''.shared ∧ R w.shared w''.shared) (fun _ _ => h)
    (fun i choice t _ _ => ?_) h (fun e _ => ?_)
  · exact (Suspended.wp_of_exec (G := fun s' => G s' ∧ R w'.shared s')
      (fun c => call choice c w'.shared h.1) (S.next t)).mono
      (fun s' _ hc => ⟨hc.1, trans _ _ _ h.2 hc.2⟩)
  · obtain ⟨hg, hr⟩ := outside e w'.shared h.1
    exact ⟨hg, trans _ _ _ h.2 hr⟩

/-- **The rule for two runs.** A task that cannot tell two states apart, and leads to states it
cannot tell apart again, is at the same point in both after any number of calls. -/
theorem alone_alike {I : σ → σ → τ → Prop}
    (step : ∀ s s' t, I s s' t → (S.next t).All (fun c k => ∀ choice,
      k (S.exec choice c s).1 = k (S.exec choice c s').1 ∧
      I (S.exec choice c s).2 (S.exec choice c s').2 (k (S.exec choice c s).1))) :
    ∀ (choices : List χ) (s s' : σ) (t : τ), I s s' t →
      (S.alone s t choices).tasks = (S.alone s' t choices).tasks
  | [], _, _, _, _ => rfl
  | choice :: choices, s, s', t, h => by
      have hstep := step s s' t h
      cases hn : S.next t with
      | done =>
          show (S.run (S.step ⟨s, [t]⟩ _) _).tasks = (S.run (S.step ⟨s', [t]⟩ _) _).tasks
          rw [step_idle S (List.getElem?_cons_zero) hn, step_idle S (List.getElem?_cons_zero) hn]
          exact alone_alike step choices s s' t h
      | call c k =>
          rw [hn] at hstep
          obtain ⟨heq, hI⟩ := hstep choice
          show (S.run (S.step ⟨s, [t]⟩ _) _).tasks = (S.run (S.step ⟨s', [t]⟩ _) _).tasks
          rw [step_resume S (List.getElem?_cons_zero) hn,
            step_resume S (List.getElem?_cons_zero) hn]
          have hrest := alone_alike step choices _ _ _ hI
          rw [alone, alone] at hrest
          show (S.run ⟨_, [_]⟩ _).tasks = (S.run ⟨_, [_]⟩ _).tasks
          rw [hrest, heq]

theorem Ends.mono {Q Q' : σ → τ → Prop} {s : σ} {t : τ} (h : S.Ends Q s t)
    (hq : ∀ s' t', Q s' t' → Q' s' t') : S.Ends Q' s t := by
  induction h with
  | done hd h => exact .done hd (hq _ _ h)
  | call hc _ ih => exact .call hc ih

theorem alone_cons {s : σ} {t : τ} {choice : χ} {choices : List χ} {α : Type} {c : C α}
    {k : α → τ} (hn : S.next t = .call c k) :
    S.alone s t (choice :: choices) =
      S.alone (S.exec choice c s).2 (k (S.exec choice c s).1) choices := by
  show S.run (S.step ⟨s, [t]⟩ _) _ = _
  rw [step_resume S (List.getElem?_cons_zero) hn]
  rfl

/-- A finished task stays where it is. -/
theorem alone_done {s : σ} {t : τ} (hn : S.next t = .done) (choices : List χ) :
    S.alone s t choices = ⟨s, [t]⟩ := by
  induction choices with
  | nil => rfl
  | cons choice choices ih =>
      show S.run (S.step ⟨s, [t]⟩ _) _ = _
      rw [step_idle S (List.getElem?_cons_zero) hn]
      exact ih

theorem Ends.and {Q Q' : σ → τ → Prop} {s : σ} {t : τ} (h : S.Ends Q s t) (h' : S.Ends Q' s t) :
    S.Ends (fun s' t' => Q s' t' ∧ Q' s' t') s t := by
  induction h with
  | done hd hq =>
      cases h' with
      | done _ hq' => exact .done hd ⟨hq, hq'⟩
      | call hc _ => rw [hd] at hc; cases hc
  | call hc _ ih =>
      cases h' with
      | done hd _ => rw [hc] at hd; cases hd
      | call hc' hrest =>
          rw [hc] at hc'
          cases hc'
          exact .call hc (fun choice => ih choice (hrest choice))

/-- A task that ends does so somehow. -/
theorem Ends.exists [Nonempty χ] {Q : σ → τ → Prop} {s : σ} {t : τ} (h : S.Ends Q s t) :
    ∃ s' t', Q s' t' := by
  induction h with
  | done _ hq => exact ⟨_, _, hq⟩
  | call _ _ ih => exact ih (Classical.arbitrary χ)

theorem ends_done_iff {Q : σ → τ → Prop} {s : σ} {t : τ} (hd : S.next t = .done) :
    S.Ends Q s t ↔ Q s t := by
  constructor
  · intro h
    cases h with
    | done _ hq => exact hq
    | call hc _ => rw [hd] at hc; cases hc
  · exact fun h => .done hd h

theorem ends_call_iff {Q : σ → τ → Prop} {s : σ} {t : τ} {α : Type} {c : C α} {k : α → τ}
    (hc : S.next t = .call c k) :
    S.Ends Q s t ↔ ∀ choice, S.Ends Q (S.exec choice c s).2 (k (S.exec choice c s).1) := by
  constructor
  · intro h
    cases h with
    | done hd _ => rw [hc] at hd; cases hd
    | call hcall hrest =>
        rw [hc] at hcall
        cases hcall
        exact hrest
  · exact fun h => .call hc h

/-- What holds at the end whatever the choices holds at the end of each run alone. -/
theorem Ends.of_alone {Q : σ → τ → Prop} {s s' : σ} {t t' : τ} (h : S.Ends Q s t) :
    ∀ {choices : List χ}, S.alone s t choices = ⟨s', [t']⟩ → S.next t' = .done → Q s' t' := by
  induction h with
  | done hd hq =>
      intro choices halone _
      rw [alone_done hd] at halone
      cases halone
      exact hq
  | @call s t α c k hc _ ih =>
      intro choices halone hd'
      cases choices with
      | nil =>
          cases halone
          rw [hc] at hd'
          cases hd'
      | cons choice choices =>
          rw [alone_cons hc] at halone
          exact ih choice halone hd'

section Agree

variable {β : Type v} {out : τ → β} {s : σ} {t t' : τ}

theorem Agree.refl : S.Agree out s t t := fun _ => ⟨rfl, rfl⟩

theorem Agree.out_eq (h : S.Agree out s t t') : out t = out t' := by
  have hnow := (h []).2
  simpa [alone] using hnow

theorem agree_done (hn : S.next t = .done) (hn' : S.next t' = .done) :
    S.Agree out s t t' ↔ out t = out t' := by
  refine ⟨Agree.out_eq, fun hout choices => ?_⟩
  rw [alone_done hn, alone_done hn']
  exact ⟨rfl, congrArg (fun b => [b]) hout⟩

/-- Two tasks that both make a call agree if what follows each choice does. -/
theorem agree_call {α α' : Type} {c : C α} {k : α → τ} {c' : C α'} {l : α' → τ}
    (hn : S.next t = .call c k) (hn' : S.next t' = .call c' l) :
    S.Agree out s t t' ↔ out t = out t' ∧ ∀ choice,
      (S.exec choice c s).2 = (S.exec choice c' s).2 ∧
        S.Agree out (S.exec choice c s).2 (k (S.exec choice c s).1)
          (l (S.exec choice c' s).1) := by
  constructor
  · intro h
    refine ⟨h.out_eq, fun choice => ?_⟩
    have hstate : (S.exec choice c s).2 = (S.exec choice c' s).2 := by
      have hone := (h [choice]).1
      rwa [alone_cons hn, alone_cons hn'] at hone
    refine ⟨hstate, fun choices => ?_⟩
    have hmore := h (choice :: choices)
    rwa [alone_cons hn, alone_cons hn', ← hstate] at hmore
  · rintro ⟨hout, hnext⟩ choices
    cases choices with
    | nil => exact ⟨rfl, congrArg (fun b => [b]) hout⟩
    | cons choice choices =>
        obtain ⟨hstate, hagree⟩ := hnext choice
        rw [alone_cons hn, alone_cons hn', ← hstate]
        exact hagree choices

end Agree

/-- Of the tasks after a call of task `i`, one is the resumed task and the others are
tasks from before at other places. -/
theorem mem_set_cases {l : List τ} {i j : Nat} {t t' : τ} (h : (l.set i t)[j]? = some t') :
    (j = i ∧ t' = t) ∨ (j ≠ i ∧ l[j]? = some t') := by
  by_cases hj : j = i
  · subst hj
    left
    refine ⟨rfl, ?_⟩
    rw [List.getElem?_set_self'] at h
    cases hl : l[j]? with
    | none => rw [hl] at h; cases h
    | some x => rw [hl] at h; simpa using h.symm
  · right
    rw [List.getElem?_set_ne (Ne.symm hj)] at h
    exact ⟨hj, h⟩

/-- A task after a request has arrived is one from before, or the one the request started. -/
theorem mem_append_cases {l : List τ} {j : Nat} {t t' : τ} (h : (l ++ [t])[j]? = some t') :
    l[j]? = some t' ∨ (j = l.length ∧ t' = t) := by
  rcases Nat.lt_or_ge j l.length with hlt | hge
  · left
    rwa [List.getElem?_append_left hlt] at h
  · right
    rw [List.getElem?_append_right hge] at h
    obtain ⟨hl, he⟩ := List.getElem?_eq_some_iff.mp h
    have hj : j = l.length := by simp only [List.length_singleton] at hl; omega
    subst hj
    simpa using he.symm

/-- A task that is not resumed stays where it is. -/
theorem run_other {i : Nat} {t : τ} :
    ∀ (ls : List (Label ρ χ ω)) (w : World σ τ), (∀ choice, .resume i choice ∉ ls) →
      w.tasks[i]? = some t → (S.run w ls).tasks[i]? = some t
  | [], _, _, h => h
  | l :: ls, w, hne, h => by
      have hlt : i < w.tasks.length := (List.getElem?_eq_some_iff.mp h).1
      refine run_other ls (S.step w l) (fun choice hm => hne choice (List.mem_cons_of_mem _ hm)) ?_
      refine step_induction (P := fun w' => w'.tasks[i]? = some t)
        (fun r _ => by rw [List.getElem?_append_left hlt]; exact h) (fun j choice u hl _ => ?_) h
        (fun e _ => h)
      have hj : j ≠ i := fun hj => hne choice (by rw [hl, hj]; exact List.mem_cons_self)
      cases S.next u with
      | done => trivial
      | call c k => exact fun r s' _ => (List.getElem?_set_ne hj).trans h

/-- **The rule for assertions at program points.** `G` holds of the shared state and `L` of
the shared state and each task. A task's own call has to establish both again; for every
other task the call has to keep its assertion. -/
theorem pool_invariant {G : σ → Prop} {L : σ → τ → Prop}
    {A : World σ τ → Label ρ χ ω → Prop}
    (entry : ∀ r s, G s → L s (S.entry r))
    (call : ∀ (w : World σ τ) i choice t, G w.shared →
      (∀ (j : Nat) t', w.tasks[j]? = some t' → L w.shared t') →
      w.tasks[i]? = some t → A w (.resume i choice) →
      (S.next t).Wp S.exec choice w.shared (fun s' t' =>
        G s' ∧ L s' t' ∧ ∀ (j : Nat) t'', j ≠ i → w.tasks[j]? = some t'' → L s' t''))
    (outside : ∀ e s, G s → G (S.outside e s) ∧ ∀ t, L s t → L (S.outside e s) t)
    (ls : List (Label ρ χ ω)) (w : World σ τ) (hG : G w.shared)
    (hL : ∀ (j : Nat) t, w.tasks[j]? = some t → L w.shared t) (hok : S.Along A w ls) :
    G (S.run w ls).shared ∧
      ∀ (j : Nat) t, (S.run w ls).tasks[j]? = some t → L (S.run w ls).shared t := by
  refine run_invariant
    (I := fun w => G w.shared ∧ ∀ (j : Nat) t, w.tasks[j]? = some t → L w.shared t)
    (fun w l h hl => ?_) ls w ⟨hG, hL⟩ hok
  obtain ⟨hg, ht⟩ := h
  refine step_induction (P := fun w' => G w'.shared ∧
    ∀ (j : Nat) t, w'.tasks[j]? = some t → L w'.shared t) (fun r _ => ⟨hg, ?_⟩)
    (fun i choice t hlab hi => ?_) ⟨hg, ht⟩ (fun e _ => ?_)
  · intro j t hj
    rcases mem_append_cases hj with hj | ⟨_, rfl⟩
    · exact ht j t hj
    · exact entry r w.shared hg
  · refine (call w i choice t hg ht hi (hlab ▸ hl)).mono (fun s' t' hs => ?_)
    obtain ⟨h1, h2, h3⟩ := hs
    refine ⟨h1, fun j t'' hj => ?_⟩
    rcases mem_set_cases hj with ⟨_, rfl⟩ | ⟨hne, hj'⟩
    · exact h2
    · exact h3 j t'' hne hj'
  · obtain ⟨h1, h2⟩ := outside e w.shared hg
    exact ⟨h1, fun j t hj => h2 t (ht j t hj)⟩

/-- Induction along a run: `J` of the steps taken so far and the world they lead to. -/
theorem prefix_induction {w : World σ τ} {J : List (Label ρ χ ω) → World σ τ → Prop}
    (start : J [] w)
    (next : ∀ ls l, J ls (S.run w ls) → J (ls ++ [l]) (S.step (S.run w ls) l))
    (ls : List (Label ρ χ ω)) : J ls (S.run w ls) := by
  induction ls using List.reverseRecOn with
  | nil => exact start
  | append_singleton ls l ih =>
      rw [run_append]
      exact next ls l ih

/-- What a step keeps of the state and the events so far, if it is allowed after those events,
holds of every allowed run and the events it has collected. -/
theorem events_invariant {f : World σ τ → Label ρ χ ω → List ε}
    {I : World σ τ → List ε → Prop} {A : List ε → World σ τ → Label ρ χ ω → Prop}
    (hstep : ∀ w h l, I w h → A h w l → I (S.step w l) (h ++ f w l)) :
    ∀ (ls : List (Label ρ χ ω)) (w : World σ τ) (h : List ε), I w h → S.AlongHistory f A h w ls →
      I (S.run w ls) (h ++ S.collect f w ls)
  | [], _, _, hw, _ => by rw [collect, List.append_nil]; exact hw
  | l :: ls, w, h, hw, hok => by
      rw [collect, ← List.append_assoc]
      exact events_invariant hstep ls (S.step w l) (h ++ f w l) (hstep w h l hw hok.1) hok.2

theorem Along.history (f : World σ τ → Label ρ χ ω → List ε)
    {A : World σ τ → Label ρ χ ω → Prop} :
    ∀ {ls : List (Label ρ χ ω)} {w : World σ τ} (h : List ε), S.Along A w ls →
      S.AlongHistory f (fun _ w l => A w l) h w ls
  | [], _, _, _ => trivial
  | l :: _, w, h, hok => ⟨hok.1, Along.history f (h ++ f w l) hok.2⟩

/-- The same where what is allowed does not depend on the events. -/
theorem history_invariant {f : World σ τ → Label ρ χ ω → List ε}
    {I : World σ τ → List ε → Prop} {A : World σ τ → Label ρ χ ω → Prop}
    (hstep : ∀ w h l, I w h → A w l → I (S.step w l) (h ++ f w l))
    (ls : List (Label ρ χ ω)) (w : World σ τ) (h : List ε) (hw : I w h) (hok : S.Along A w ls) :
    I (S.run w ls) (h ++ S.collect f w ls) :=
  events_invariant (A := fun _ w l => A w l) hstep ls w h hw (hok.history f h)

end Rules

end System

/-! ## Sums over tasks -/

/-- Replacing one summand of a sum over tasks. -/
theorem sum_map_set {τ : Type u} (m : τ → Nat) :
    ∀ {l : List τ} {i : Nat} {t t' : τ}, l[i]? = some t →
      ((l.set i t').map m).sum + m t = (l.map m).sum + m t'
  | [], _, _, _, h => by simp at h
  | x :: l, 0, t, t', h => by
      have hx : x = t := by simpa using h
      subst hx
      simp only [List.set_cons_zero, List.map_cons, List.sum_cons]
      omega
  | x :: l, i + 1, t, t', h => by
      have hl : l[i]? = some t := by simpa using h
      have ih : ((l.set i t').map m).sum + m t = (l.map m).sum + m t' := sum_map_set m hl
      simp only [List.set_cons_succ, List.map_cons, List.sum_cons]
      omega

/-- A summand is at most the sum. -/
theorem le_sum_map {τ : Type u} (m : τ → Nat) {l : List τ} {i : Nat} {t : τ}
    (h : l[i]? = some t) : m t ≤ (l.map m).sum :=
  List.le_sum_of_mem (List.mem_map.mpr ⟨t, List.mem_of_getElem? h, rfl⟩)

end Launcher.Lib
