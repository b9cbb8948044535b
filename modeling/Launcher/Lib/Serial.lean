import Launcher.Lib.Programs

set_option autoImplicit false

/-! # Programs one at a time

The commands of an administrator run one after the other. A new one may be started before the
last has come to its end: that one was killed, wherever it was, and what it did to the shared
state stays. A run is a list of events, each of which starts a command or lets the current one
make its next call.

`Good` is the invariant of such runs: `I` holds of the shared state, and what is left of the
current program makes only calls that `P` admits for its request. `Good.step_cases` says what a
step from there can do, so an argument about runs never looks at a program again. -/

namespace Launcher.Lib

universe w

structure Serial (C : Type → Type w) (ε σ ρ χ : Type) where
  program : ρ → Program C ε Unit
  exec : χ → {γ : Type} → C γ → σ → γ × σ

namespace Serial

variable {C : Type → Type w} {ε σ ρ χ : Type}

inductive Event (ρ χ : Type)
  | start (request : ρ)
  | call (choice : χ)

/-- The shared state, the request started last, and what is left of its program. -/
structure Point (C : Type → Type w) (ε σ ρ : Type) where
  shared : σ
  request : Option ρ
  program : Program C ε Unit

/-- Nothing has been started. -/
def Point.initial (s : σ) : Point C ε σ ρ := ⟨s, none, .done (.ok ())⟩

variable (S : Serial C ε σ ρ χ)

def step (p : Point C ε σ ρ) : Event ρ χ → Point C ε σ ρ
  | .start request => ⟨p.shared, some request, S.program request⟩
  | .call choice =>
      match p.program with
      | .done _ => p
      | .call c k =>
          ⟨(S.exec choice c p.shared).2, p.request, k (S.exec choice c p.shared).1⟩

def run (p : Point C ε σ ρ) (events : List (Event ρ χ)) : Point C ε σ ρ := events.foldl S.step p

theorem run_start (p : Point C ε σ ρ) (request : ρ) (events : List (Event ρ χ)) :
    S.run p (.start request :: events) =
      S.run ⟨p.shared, some request, S.program request⟩ events := rfl

theorem run_append (p : Point C ε σ ρ) (events events' : List (Event ρ χ)) :
    S.run p (events ++ events') = S.run (S.run p events) events' := List.foldl_append

theorem run_snoc (p : Point C ε σ ρ) (events : List (Event ρ χ)) (e : Event ρ χ) :
    S.run p (events ++ [e]) = S.step (S.run p events) e := by
  rw [run_append]
  rfl

/-- The current request was started at some point. -/
theorem request_run {p : Point C ε σ ρ} {request : ρ} {events : List (Event ρ χ)} :
    (S.run p events).request = some request → p.request = some request ∨
      .start request ∈ events := by
  induction events using List.reverseRecOn with
  | nil => exact Or.inl
  | append_singleton events e ih =>
      intro h
      rw [run_snoc] at h
      cases e with
      | start request' =>
          obtain rfl := Option.some.inj h
          exact Or.inr (List.mem_append_right _ List.mem_cons_self)
      | call choice =>
          have hsame : (S.run p events).request = some request := by
            rw [step] at h
            split at h
            · exact h
            · exact h
          exact (ih hsame).imp_right (List.mem_append_left _)

/-- One call, in a run without other tasks. -/
theorem safe_call {α β : Type} {exec : χ → {γ : Type} → C γ → σ → γ × σ} {I : σ → Prop}
    {P : σ → {γ : Type} → C γ → Prop} {Q : Except ε α → σ → Prop} {c : C β}
    {k : β → Program C ε α} {s : σ}
    (h : I s → P s c ∧ ∀ choice, (k (exec choice c s).1).Safe exec I Eq P Q (exec choice c s).2) :
    (Program.call c k).Safe exec I Eq P Q s := by
  rintro s' hi rfl
  exact h hi

section Good

variable (allowed : ρ → Prop) (I : σ → Prop) (P : ρ → σ → {γ : Type} → C γ → Prop)

structure Good (p : Point C ε σ ρ) : Prop where
  shared : I p.shared
  idle : p.request = none → ∃ outcome, p.program = .done outcome
  allowed : ∀ request, p.request = some request → allowed request
  program : ∀ request, p.request = some request →
    p.program.Safe S.exec I Eq (P request) (fun _ _ => True) p.shared

/-- What is asked of the programs and of the calls. -/
structure Keeps : Prop where
  start : ∀ request s, allowed request → I s →
    (S.program request).Safe S.exec I Eq (P request) (fun _ _ => True) s
  call : ∀ request {γ : Type} (choice : χ) (c : C γ) s, allowed request → I s →
    P request s c → I (S.exec choice c s).2

variable {S allowed I P}

theorem good_initial {s : σ} (h : I s) : S.Good allowed I P (Point.initial s) where
  shared := h
  idle := fun _ => ⟨.ok (), rfl⟩
  allowed := fun _ h => by cases h
  program := fun _ h => by cases h

/-- **What a step can do to the shared state**: nothing, or an admitted call of the current
request. -/
theorem Good.step_cases {p : Point C ε σ ρ} (h : S.Good allowed I P p) (e : Event ρ χ) :
    (S.step p e).shared = p.shared ∨
      ∃ (request : ρ) (γ : Type) (c : C γ) (choice : χ), p.request = some request ∧
        allowed request ∧ P request p.shared c ∧
        (S.step p e).shared = (S.exec choice c p.shared).2 := by
  cases e with
  | start request => exact Or.inl rfl
  | call choice =>
      cases hp : p.program with
      | done outcome =>
          left
          rw [step, hp]
      | call c k =>
          right
          cases hr : p.request with
          | none =>
              obtain ⟨outcome, hdone⟩ := h.idle hr
              rw [hp] at hdone
              cases hdone
          | some request =>
              have hsafe := h.program request hr
              rw [hp] at hsafe
              refine ⟨request, _, c, choice, rfl, h.allowed request hr,
                (hsafe p.shared h.shared rfl).1, ?_⟩
              rw [step, hp]

theorem Good.step {p : Point C ε σ ρ} (h : S.Good allowed I P p) (hk : S.Keeps allowed I P)
    {e : Event ρ χ} (he : ∀ request, e = .start request → allowed request) :
    S.Good allowed I P (S.step p e) := by
  cases e with
  | start request =>
      refine ⟨h.shared, fun hnone => (by cases hnone), fun request' heq => ?_,
        fun request' heq => ?_⟩
      · obtain rfl := Option.some.inj heq
        exact he request rfl
      · obtain rfl := Option.some.inj heq
        exact hk.start request p.shared (he request rfl) h.shared
  | call choice =>
      cases hp : p.program with
      | done outcome =>
          rw [Serial.step, hp]
          exact h
      | call c k =>
          rw [Serial.step, hp]
          cases hr : p.request with
          | none =>
              obtain ⟨outcome, hdone⟩ := h.idle hr
              rw [hp] at hdone
              cases hdone
          | some request =>
              have hallowed := h.allowed request hr
              have hsafe := h.program request hr
              rw [hp] at hsafe
              obtain ⟨hadmitted, hrest⟩ := hsafe p.shared h.shared rfl
              refine ⟨hk.call request choice c p.shared hallowed h.shared hadmitted,
                fun hnone => (by cases hnone), fun request' heq => ?_, fun request' heq => ?_⟩
              · obtain rfl := Option.some.inj heq
                exact hallowed
              · obtain rfl := Option.some.inj heq
                exact hrest choice

theorem Good.run {p : Point C ε σ ρ} (h : S.Good allowed I P p) (hk : S.Keeps allowed I P)
    {events : List (Event ρ χ)} (hevents : ∀ request, .start request ∈ events → allowed request) :
    S.Good allowed I P (S.run p events) := by
  induction events generalizing p with
  | nil => exact h
  | cons e events ih =>
      refine ih (h.step hk (fun request heq => ?_)) (fun request hmem => ?_)
      · exact hevents request (heq ▸ List.mem_cons_self)
      · exact hevents request (List.mem_cons_of_mem e hmem)

end Good

/-! ## To the end of a program -/

section Ends

variable {α β : Type} (exec : χ → {γ : Type} → C γ → σ → γ × σ) (choice : χ)

/-- With this choice for each call the program ends after `n` calls, so and in this state. -/
def Ends : Nat → Program C ε α → σ → Except ε α → σ → Prop
  | 0, .done outcome, s, outcome', s' => outcome = outcome' ∧ s = s'
  | n + 1, .call c k, s, outcome', s' =>
      Ends n (k (exec choice c s).1) (exec choice c s).2 outcome' s'
  | _, _, _, _, _ => False

variable {exec choice}

theorem ends_done {outcome : Except ε α} {s : σ} : Ends exec choice 0 (.done outcome) s outcome s :=
  ⟨rfl, rfl⟩

theorem ends_call {c : C β} {k : β → Program C ε α} {r : β} {s s' s'' : σ} {n : Nat}
    {outcome : Except ε α} (hcall : exec choice c s = (r, s'))
    (h : Ends exec choice n (k r) s' outcome s'') :
    Ends exec choice (n + 1) (.call c k) s outcome s'' := by
  rw [Ends, hcall]
  exact h

theorem ends_bind {f : α → Program C ε β} {a : α} {m : Nat} {outcome : Except ε β} {s' s'' : σ}
    (hf : Ends exec choice m (f a) s' outcome s'') : ∀ {n : Nat} {p : Program C ε α} {s : σ},
      Ends exec choice n p s (.ok a) s' → Ends exec choice (n + m) (p >>= f) s outcome s''
  | 0, .done _, s, h => by
      obtain ⟨rfl, rfl⟩ := h
      rw [Nat.zero_add]
      exact hf
  | n + 1, .call c k, s, h => by
      rw [Nat.succ_add]
      exact ends_bind hf (n := n) h

theorem run_of_ends {S : Serial C ε σ ρ χ} {request : Option ρ} {outcome : Except ε Unit}
    {s' : σ} : ∀ {n : Nat} {p : Program C ε Unit} {s : σ},
      Ends S.exec choice n p s outcome s' →
        S.run ⟨s, request, p⟩ (List.replicate n (.call choice)) = ⟨s', request, .done outcome⟩
  | 0, .done _, s, h => by
      obtain ⟨rfl, rfl⟩ := h
      rfl
  | n + 1, .call c k, s, h => run_of_ends (n := n) h

end Ends

end Serial

end Launcher.Lib
