import Launcher.Lib.Observations
import Launcher.Lib.Programs

set_option autoImplicit false

/-! # Answers that have to be paid for

A program that gives an answer of a kind only after some call granted it is `After` that grant:
the checks in front of a handler are programs of this sort, and they compose (`After.bind`). Over
a run, each task pays for itself: `spent_le` bounds the tasks that have been answered by the
grants that were made. -/

namespace Launcher.Lib

universe u w

namespace Program

variable {C : Type → Type w} {ε α β : Type}

section After

variable (G : {γ : Type} → C γ → γ → Prop)

/-- No answer with `A` unless a call has been granted before it. -/
def After (A : α → Prop) : Program C ε α → Prop
  | .done (.ok a) => ¬A a
  | .done (.error _) => True
  | .call c k => ∀ r, G c r ∨ After A (k r)

/-- No answer with `A` at all. -/
def Never (A : α → Prop) (p : Program C ε α) : Prop := p.After (fun _ _ => False) A

variable {G}

theorem After.mono {A A' : α → Prop} (h : ∀ a, A' a → A a) :
    ∀ {p : Program C ε α}, p.After G A → p.After G A'
  | .done (.ok a), hp => fun ha => hp (h a ha)
  | .done (.error _), _ => trivial
  | .call _ _, hp => fun r => (hp r).imp id (fun hr => After.mono h hr)

theorem Never.after {A : α → Prop} : ∀ {p : Program C ε α}, p.Never A → p.After G A
  | .done (.ok _), hp => hp
  | .done (.error _), _ => trivial
  | .call _ _, hp => fun r => Or.inr (Never.after ((hp r).resolve_left id))

/-- Nothing has to be paid for an answer that is not asked for. -/
theorem after_empty : ∀ {p : Program C ε α}, p.After G (fun _ => False)
  | .done (.ok _) => id
  | .done (.error _) => trivial
  | .call _ _ => fun _ => Or.inr after_empty

/-- Of two parts, the first pays for what it answers with `B`, the second for the rest. -/
theorem After.bind {A : β → Prop} {B : α → Prop} {f : α → Program C ε β}
    (hf : ∀ a, ¬B a → (f a).After G A) :
    ∀ {p : Program C ε α}, p.After G B → (p >>= f).After G A
  | .done (.ok a), hp => hf a hp
  | .done (.error _), _ => trivial
  | .call _ _, hp => fun r => (hp r).imp id (fun hr => After.bind hf hr)

/-- The second part pays. -/
theorem After.bind_right {A : β → Prop} {f : α → Program C ε β} (hf : ∀ a, (f a).After G A)
    (p : Program C ε α) : (p >>= f).After G A :=
  After.bind (fun a _ => hf a) after_empty

/-- The first part pays. -/
theorem After.bind_left {A : β → Prop} {p : Program C ε α} (hp : p.After G (fun _ => True))
    (f : α → Program C ε β) : (p >>= f).After G A :=
  After.bind (fun _ h => absurd trivial h) hp

/-- Awaiting a call and going on; a granted call pays. -/
theorem after_await {c : C α} {A : β → Prop} {f : α → Program C ε β}
    (h : ∀ r, G c r ∨ (f r).After G A) : (await c >>= f).After G A := h

end After

end Program

namespace System

variable {σ : Type} {τ : Type u} {ρ χ ω ε : Type} {C : Type → Type w} {S : System σ τ ρ χ ω C}

/-- One more of them has the property at most, and only if it is the one that was put there. -/
theorem countP_drop_set_le {p : τ → Bool} {l : List τ} {n i : Nat} {t : τ} (t' : τ)
    (hi : l[i]? = some t) :
    ((l.set i t').drop n).countP p ≤
      (l.drop n).countP p + (if p t = false ∧ p t' = true then 1 else 0) := by
  obtain ⟨hlt, rfl⟩ := List.getElem?_eq_some_iff.mp hi
  rw [List.drop_set]
  split_ifs with hin hnew hnew
  · omega
  · omega
  · have hin' : i - n < (l.drop n).length := by
      rw [List.length_drop]
      omega
    rw [List.countP_set hin', if_pos hnew.2]
    exact Nat.add_le_add_right (Nat.sub_le _ _) 1
  · have hin' : i - n < (l.drop n).length := by
      rw [List.length_drop]
      omega
    have hget : (l.drop n)[i - n] = l[i] := by
      rw [List.getElem_drop]
      congr 1
      omega
    rw [List.countP_set hin', hget]
    cases hold : p l[i] with
    | false =>
        have hnot : p t' = false := by
          cases hp : p t' with
          | false => rfl
          | true => exact absurd ⟨hold, hp⟩ hnew
        simp [hnot]
    | true =>
        -- the one that was replaced had it
        have hpos : 0 < (l.drop n).countP p :=
          List.countP_pos_iff.mpr ⟨_, List.getElem_mem hin', by rw [hget, hold]⟩
        have hone : (if p t' = true then 1 else 0) ≤ 1 := by split_ifs <;> omega
        rw [if_pos rfl]
        omega

/-- **Every task pays for itself.** Where a request starts out owing, and a task that owes goes
on owing through each of its steps that brings nothing in, no more of the tasks that have arrived
since owe nothing than what has been brought in. -/
theorem spent_le {D : τ → Prop} [DecidablePred D]
    {f : World σ τ → Label ρ χ ω → List ε} (entry : ∀ r, D (S.entry r))
    (call : ∀ w i choice t, w.tasks[i]? = some t → D t → f w (.resume i choice) = [] →
      (S.next t).Wp S.exec choice w.shared (fun _ t' => D t'))
    (w : World σ τ) (ls : List (Label ρ χ ω)) :
    ((S.run w ls).tasks.drop w.tasks.length).countP (fun t => !decide (D t)) ≤
      (S.collect f w ls).length := by
  refine (prefix_induction (J := fun ls w' => w.tasks.length ≤ w'.tasks.length ∧
    (w'.tasks.drop w.tasks.length).countP (fun t => !decide (D t)) ≤
      (S.collect f w ls).length) ?start ?next ls).2
  case start => exact ⟨le_refl _, by simp⟩
  case next =>
    rintro ls l ⟨hlength, hle⟩
    have hcollect : S.collect f w (ls ++ [l]) = S.collect f w ls ++ f (S.run w ls) l := by
      rw [collect_append]
      exact congrArg _ (List.append_nil _)
    rw [hcollect, List.length_append]
    refine step_induction (P := fun w' => w.tasks.length ≤ w'.tasks.length ∧
      (w'.tasks.drop w.tasks.length).countP (fun t => !decide (D t)) ≤
        (S.collect f w ls).length + (f (S.run w ls) l).length) ?request ?resume ?idle ?outside
    case request =>
      intro r _
      rw [List.drop_append_of_le_length hlength, List.countP_append, List.length_append]
      have hnew : [S.entry r].countP (fun t => !decide (D t)) = 0 := by simp [entry r]
      omega
    case resume =>
      rintro i choice t rfl hi
      by_cases hnothing : D t ∧ f (S.run w ls) (.resume i choice) = []
      · -- nothing was brought in, and the task goes on owing
        refine (call _ i choice t hi hnothing.1 hnothing.2).mono (fun s' t' howed => ?_)
        have hset := countP_drop_set_le (p := fun t => !decide (D t)) (n := w.tasks.length) t' hi
        rw [if_neg (by simp [howed])] at hset
        refine ⟨by rwa [List.length_set], ?_⟩
        show ((S.run w ls).tasks.set i t' |>.drop w.tasks.length).countP _ ≤ _
        omega
      · have hany : ∀ t', w.tasks.length ≤ ((S.run w ls).tasks.set i t').length ∧
            (((S.run w ls).tasks.set i t').drop w.tasks.length).countP
              (fun t => !decide (D t)) ≤
                (S.collect f w ls).length + (f (S.run w ls) (.resume i choice)).length := by
          intro t'
          have hset := countP_drop_set_le (p := fun t => !decide (D t)) (n := w.tasks.length) t' hi
          refine ⟨by rwa [List.length_set], ?_⟩
          by_cases howed : D t
          · -- it D, so something was brought in
            have hpos : 0 < (f (S.run w ls) (.resume i choice)).length :=
              List.length_pos_of_ne_nil (fun h => hnothing ⟨howed, h⟩)
            split_ifs at hset <;> omega
          · rw [if_neg (by simp [howed])] at hset
            omega
        cases S.next t with
        | done => trivial
        | call c k => exact fun r _ _ => hany (k r)
    case idle => exact ⟨hlength, hle.trans (Nat.le_add_right _ _)⟩
    case outside => exact fun _ _ => ⟨hlength, hle.trans (Nat.le_add_right _ _)⟩

end System

end Launcher.Lib
