import Launcher.Lib.Coroutines

set_option autoImplicit false

/-! # Coroutines as programs

A coroutine whose calls only depend on the replies so far can be written down as the tree of
its calls: a `Program` has either ended, with an answer or an exception, or it makes a call and
goes on with the reply. Programs compose as the coroutines of a server do: `co_await` is
`bind`, an exception or a refusal ends the caller too.

Four readings of a program are given by recursion on the tree, each with its rule for `bind`:

* `Only` — it makes no calls but those that `P` admits;
* `Wp` — run alone from a state it ends, whatever the calls reply, and in a given way;
* `Safe` — among other tasks: between two of its own calls the state moves within a relation
  `R`, and every call it makes is one that `P` admits in the state it is made in;
* `Alike` — run alone from either of two states it makes the same calls and cannot tell
  them apart. -/

namespace Launcher.Lib

universe w

inductive Program (C : Type → Type w) (ε α : Type) : Type (max 1 w)
  | done (outcome : Except ε α) : Program C ε α
  | call {β : Type} (c : C β) (k : β → Program C ε α) : Program C ε α

namespace Program

variable {C : Type → Type w} {ε α β : Type}

def bind : Program C ε α → (α → Program C ε β) → Program C ε β
  | .done (.ok a), f => f a
  | .done (.error e), _ => .done (.error e)
  | .call c k, f => .call c (fun r => (k r).bind f)

instance : Monad (Program C ε) where
  pure a := .done (.ok a)
  bind := bind

/-- Await one call. -/
def await (c : C α) : Program C ε α := .call c (fun r => .done (.ok r))

/-- End with the exception `e`. -/
def fail (e : ε) : Program C ε α := .done (.error e)

/-- Go on with the value of `r`, or end with its error. -/
def ofExcept (r : Except ε α) : Program C ε α := .done r

/-- The program as a task: suspended in front of its next call. -/
def next : Program C ε α → Suspended C (Program C ε α)
  | .done _ => .done
  | .call c k => .call c k

@[simp] theorem pure_eq (a : α) : (pure a : Program C ε α) = .done (.ok a) := rfl

@[simp] theorem done_ok_bind (a : α) (f : α → Program C ε β) :
    ((.done (.ok a) : Program C ε α) >>= f) = f a := rfl

@[simp] theorem done_error_bind (e : ε) (f : α → Program C ε β) :
    ((.done (.error e) : Program C ε α) >>= f) = .done (.error e) := rfl

@[simp] theorem call_bind {γ : Type} (c : C γ) (k : γ → Program C ε α) (f : α → Program C ε β) :
    (Program.call c k >>= f) = .call c (fun r => k r >>= f) := rfl

@[simp] theorem await_bind (c : C α) (f : α → Program C ε β) :
    (await c >>= f) = .call c f := rfl

theorem bind_bind {γ : Type} (f : α → Program C ε β) (g : β → Program C ε γ) :
    ∀ p : Program C ε α, ((p >>= f) >>= g) = (p >>= fun a => f a >>= g)
  | .done (.ok _) => rfl
  | .done (.error _) => rfl
  | .call c k => congrArg (Program.call c) (funext (fun r => bind_bind f g (k r)))

/-! ## The calls it can come to -/

section Only

variable (P : {γ : Type} → C γ → Prop)

/-- Whatever its calls reply, the program makes only calls that `P` admits. -/
def Only : Program C ε α → Prop
  | .done _ => True
  | .call c k => P c ∧ ∀ r, Only (k r)

variable {P}

theorem Only.bind {f : α → Program C ε β} :
    ∀ {p : Program C ε α}, p.Only P → (∀ a, (f a).Only P) → (p >>= f).Only P
  | .done (.ok a), _, hf => hf a
  | .done (.error _), _, _ => trivial
  | .call _ _, hp, hf => ⟨hp.1, fun r => Only.bind (hp.2 r) hf⟩

theorem Only.mono {Q : {γ : Type} → C γ → Prop} (h : ∀ {γ : Type} (c : C γ), P c → Q c) :
    ∀ {p : Program C ε α}, p.Only P → p.Only Q
  | .done _, _ => trivial
  | .call c _, hp => ⟨h c hp.1, fun r => Only.mono h (hp.2 r)⟩

theorem only_await {c : C α} (h : P c) : (await c : Program C ε α).Only P := ⟨h, fun _ => trivial⟩

end Only

/-! ## Run alone -/

section Wp

variable {σ χ : Type} (exec : χ → {γ : Type} → C γ → σ → γ × σ)

/-- Run alone from the state, the program ends with `Q` of its outcome and the state then,
whatever the choices of its calls. -/
def Wp (Q : Except ε α → σ → Prop) : Program C ε α → σ → Prop
  | .done r, s => Q r s
  | .call c k, s => ∀ choice, Wp Q (k (exec choice c s).1) (exec choice c s).2

variable {exec}

theorem Wp.mono {Q Q' : Except ε α → σ → Prop} (hq : ∀ r s, Q r s → Q' r s) :
    ∀ {p : Program C ε α} {s : σ}, p.Wp exec Q s → p.Wp exec Q' s
  | .done r, s, h => hq r s h
  | .call _ _, _, h => fun choice => Wp.mono hq (h choice)

theorem wp_bind {Q : Except ε β → σ → Prop} {f : α → Program C ε β} :
    ∀ {p : Program C ε α} {s : σ}, (p >>= f).Wp exec Q s ↔
      p.Wp exec (fun r s' => match r with
        | .ok a => (f a).Wp exec Q s'
        | .error e => Q (.error e) s') s
  | .done (.ok _), _ => Iff.rfl
  | .done (.error _), _ => Iff.rfl
  | .call _ _, _ => forall_congr' (fun _ => wp_bind)

theorem Wp.and {Q Q' : Except ε α → σ → Prop} :
    ∀ {p : Program C ε α} {s : σ}, p.Wp exec Q s → p.Wp exec Q' s →
      p.Wp exec (fun r s' => Q r s' ∧ Q' r s') s
  | .done _, _, h, h' => ⟨h, h'⟩
  | .call _ _, _, h, h' => fun choice => Wp.and (h choice) (h' choice)

/-- A program does end. -/
theorem Wp.exists [Nonempty χ] {Q : Except ε α → σ → Prop} :
    ∀ {p : Program C ε α} {s : σ}, p.Wp exec Q s → ∃ r s', Q r s'
  | .done r, s, h => ⟨r, s, h⟩
  | .call _ _, _, h => (inferInstance : Nonempty χ).elim (fun choice => Wp.exists (h choice))

/-- A program that only reads is as good as its answer. -/
theorem wp_iff_of_answer [Nonempty χ] {p : Program C ε α} {s : σ} {a : Except ε α}
    (h : p.Wp exec (fun r s' => r = a ∧ s' = s) s) {Q : Except ε α → σ → Prop} :
    p.Wp exec Q s ↔ Q a s := by
  constructor
  · intro hq
    obtain ⟨r, s', ⟨rfl, rfl⟩, hr⟩ := (h.and hq).exists
    exact hr
  · intro ha
    refine h.mono (fun r s' hr => ?_)
    rw [hr.1, hr.2]
    exact ha

end Wp

/-! ## Among other tasks -/

section Safe

variable {σ χ : Type} (exec : χ → {γ : Type} → C γ → σ → γ × σ)
  (I : σ → Prop) (R : σ → σ → Prop) (P : σ → {γ : Type} → C γ → Prop)

/-- In states with `I`, when the others move the state within `R` between two calls, every call
is one that `P` admits, and `Q` holds at the end. -/
def Safe (Q : Except ε α → σ → Prop) : Program C ε α → σ → Prop
  | .done r, s => Q r s
  | .call c k, s => ∀ s', I s' → R s s' → P s' c ∧
      ∀ choice, Safe Q (k (exec choice c s').1) (exec choice c s').2

variable {exec I R P}

theorem Safe.mono {Q Q' : Except ε α → σ → Prop} (hq : ∀ r s, Q r s → Q' r s) :
    ∀ {p : Program C ε α} {s : σ}, p.Safe exec I R P Q s → p.Safe exec I R P Q' s
  | .done r, s, h => hq r s h
  | .call _ _, _, h => fun s' hi hr =>
      ⟨(h s' hi hr).1, fun choice => Safe.mono hq ((h s' hi hr).2 choice)⟩

theorem Safe.mono_calls {P' : σ → {γ : Type} → C γ → Prop} {Q : Except ε α → σ → Prop}
    (hp : ∀ s {γ : Type} (c : C γ), P s c → P' s c) :
    ∀ {p : Program C ε α} {s : σ}, p.Safe exec I R P Q s → p.Safe exec I R P' Q s
  | .done _, _, h => h
  | .call c _, _, h => fun s' hi hr =>
      ⟨hp s' c (h s' hi hr).1, fun choice => Safe.mono_calls hp ((h s' hi hr).2 choice)⟩

theorem safe_bind {Q : Except ε β → σ → Prop} {f : α → Program C ε β} :
    ∀ {p : Program C ε α} {s : σ},
      p.Safe exec I R P (fun r s' => match r with
        | .ok a => (f a).Safe exec I R P Q s'
        | .error e => Q (.error e) s') s → (p >>= f).Safe exec I R P Q s
  | .done (.ok _), _, h => h
  | .done (.error _), _, h => h
  | .call _ _, _, h => fun s' hi hr =>
      ⟨(h s' hi hr).1, fun choice => safe_bind ((h s' hi hr).2 choice)⟩

/-- Two parts that are safe, the second wherever it starts and with whatever it is given. -/
theorem Safe.bind {f : α → Program C ε β} {p : Program C ε α} {s : σ}
    (hp : p.Safe exec I R P (fun _ _ => True) s)
    (hf : ∀ a s', (f a).Safe exec I R P (fun _ _ => True) s') :
    (p >>= f).Safe exec I R P (fun _ _ => True) s := by
  refine safe_bind (hp.mono (fun r s' _ => ?_))
  cases r with
  | ok a => exact hf a s'
  | error e => trivial

/-- A program whose calls are all admitted wherever they are made. -/
theorem Only.safe {Q : {γ : Type} → C γ → Prop} (h : ∀ s {γ : Type} (c : C γ), Q c → P s c) :
    ∀ {p : Program C ε α} {s : σ}, p.Only Q → p.Safe exec I R P (fun _ _ => True) s
  | .done _, _, _ => trivial
  | .call c _, _, hp => fun s' _ _ => ⟨h s' c hp.1, fun _ => Only.safe h (hp.2 _)⟩

/-- The steps of the others keep a program safe. -/
theorem Safe.stable (trans : ∀ s s' s'', R s s' → R s' s'' → R s s'') {s s' : σ}
    (hr : R s s') {p : Program C ε α} (h : p.Safe exec I R P (fun _ _ => True) s) :
    p.Safe exec I R P (fun _ _ => True) s' := by
  cases p with
  | done r => trivial
  | call c k => exact fun s'' hi hr' => h s'' hi (trans s s' s'' hr hr')

/-- A safe program's next call is admitted, and the program stays safe after it. -/
theorem Safe.step (refl : ∀ s, R s s) {s : σ} (hi : I s) {p : Program C ε α}
    (h : p.Safe exec I R P (fun _ _ => True) s) :
    p.next.All (fun c k => P s c ∧ ∀ choice,
      (k (exec choice c s).1).Safe exec I R P (fun _ _ => True) (exec choice c s).2) := by
  cases p with
  | done r => trivial
  | call c k => exact h s hi (refl s)

end Safe

/-! ## From two states -/

section Alike

variable {σ χ : Type} (exec : χ → {γ : Type} → C γ → σ → γ × σ)

/-- Run alone from the two states with the same choices, the program goes through the same
points and ends with the same outcome, and `Q` of it and the two states then. -/
def Alike (Q : Except ε α → σ → σ → Prop) : Program C ε α → σ → σ → Prop
  | .done r, s, s' => Q r s s'
  | .call c k, s, s' => ∀ choice, k (exec choice c s).1 = k (exec choice c s').1 ∧
      Alike Q (k (exec choice c s).1) (exec choice c s).2 (exec choice c s').2

variable {exec}

theorem Alike.mono {Q Q' : Except ε α → σ → σ → Prop} (hq : ∀ r s s', Q r s s' → Q' r s s') :
    ∀ {p : Program C ε α} {s s' : σ}, p.Alike exec Q s s' → p.Alike exec Q' s s'
  | .done r, s, s', h => hq r s s' h
  | .call _ _, _, _, h => fun choice => ⟨(h choice).1, Alike.mono hq (h choice).2⟩

theorem alike_bind {Q : Except ε β → σ → σ → Prop} {f : α → Program C ε β} :
    ∀ {p : Program C ε α} {s s' : σ},
      p.Alike exec (fun r t t' => match r with
        | .ok a => (f a).Alike exec Q t t'
        | .error e => Q (.error e) t t') s s' → (p >>= f).Alike exec Q s s'
  | .done (.ok _), _, _, h => h
  | .done (.error _), _, _, h => h
  | .call _ _, _, _, h => fun choice =>
      ⟨congrArg (fun p => p >>= f) (h choice).1, alike_bind (h choice).2⟩

/-- Awaiting a call that replies the same in both states. -/
theorem alike_await {c : C α} {s s' : σ} {Q : Except ε α → σ → σ → Prop}
    (hreply : ∀ choice, (exec choice c s).1 = (exec choice c s').1)
    (h : ∀ choice, Q (.ok (exec choice c s).1) (exec choice c s).2 (exec choice c s').2) :
    (await c : Program C ε α).Alike exec Q s s' :=
  fun choice => ⟨congrArg (fun r => (.done (.ok r) : Program C ε α)) (hreply choice), h choice⟩

end Alike

/-! ## Two programs -/

section Meet

variable {σ χ : Type} (exec : χ → {γ : Type} → C γ → σ → γ × σ) (s : σ)

/-- Run alone from the state with the same choice, the two programs are at one point after their
first call, or have both ended alike before it. -/
def Meet : Program C ε α → Program C ε α → Prop
  | .done r, .done r' => r = r'
  | .call c k, .call c' k' => ∀ choice, (exec choice c s).2 = (exec choice c' s).2 ∧
      k (exec choice c s).1 = k' (exec choice c' s).1
  | _, _ => False

variable {exec s}

theorem Meet.refl : ∀ {p : Program C ε α}, p.Meet exec s p
  | .done _ => rfl
  | .call _ _ => fun _ => ⟨rfl, rfl⟩

theorem Meet.bind {f : α → Program C ε β} :
    ∀ {p p' : Program C ε α}, p.Meet exec s p' → (p >>= f).Meet exec s (p' >>= f)
  | .done _, .done _, h => by
      rw [show _ = _ from h]
      exact Meet.refl
  | .call _ _, .call _ _, h => fun choice =>
      ⟨(h choice).1, congrArg (fun p => p >>= f) (h choice).2⟩

end Meet

end Program

end Launcher.Lib
