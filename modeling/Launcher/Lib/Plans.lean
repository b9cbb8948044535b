import Mathlib.Logic.Function.Basic
import Mathlib.Tactic

set_option autoImplicit false

/-! # Plans that can be executed in any order

A plan rewrites a map. Each step sets one key, to a fixed value or to the value another key has
at that moment. A plan is `Independent` when no key is set twice and no key that is read is set:
then every step sees what it would have seen at the start, and every order of the steps ends in
the same map (`run_of_independent`, `Independent.perm`). -/

namespace Launcher.Lib.Plans

variable {κ ν : Type}

/-- Where a step takes its value from. -/
inductive Source (κ ν : Type)
  | value (v : ν)
  | read (k : κ)
  deriving DecidableEq, Repr

structure Step (κ ν : Type) where
  target : κ
  source : Source κ ν
  deriving DecidableEq, Repr

def Source.eval (m : κ → ν) : Source κ ν → ν
  | .value v => v
  | .read k => m k

structure Independent (steps : List (Step κ ν)) : Prop where
  distinct : (steps.map Step.target).Nodup
  stable : ∀ s ∈ steps, ∀ k, s.source = .read k → k ∉ steps.map Step.target

theorem Independent.perm {steps steps' : List (Step κ ν)} (h : Independent steps)
    (hp : steps'.Perm steps) : Independent steps' where
  distinct := (hp.map Step.target).nodup_iff.mpr h.distinct
  stable s hs k hk hmem :=
    h.stable s (hp.mem_iff.mp hs) k hk ((hp.map Step.target).mem_iff.mp hmem)

theorem Independent.tail {s : Step κ ν} {steps : List (Step κ ν)}
    (h : Independent (s :: steps)) : Independent steps where
  distinct := (List.nodup_cons.mp h.distinct).2
  stable t ht k hk hmem :=
    h.stable t (List.mem_cons_of_mem _ ht) k hk (List.mem_cons_of_mem _ hmem)

variable [DecidableEq κ]

def apply (m : κ → ν) (s : Step κ ν) : κ → ν := Function.update m s.target (s.source.eval m)

def run (m : κ → ν) (steps : List (Step κ ν)) : κ → ν := steps.foldl apply m

/-- A key that no step sets keeps its value. -/
theorem run_other {k : κ} : ∀ {steps : List (Step κ ν)} (m : κ → ν),
    k ∉ steps.map Step.target → run m steps k = m k
  | [], _, _ => rfl
  | s :: steps, m, hk => by
      obtain ⟨hne, hk⟩ := not_or.mp (fun hc => hk (List.mem_cons.mpr hc))
      show run (apply m s) steps k = _
      rw [run_other (apply m s) hk]
      exact Function.update_of_ne hne _ _

/-- A step changes no source of a plan it is independent of. -/
theorem Independent.eval_apply {s : Step κ ν} {steps : List (Step κ ν)}
    (h : Independent (s :: steps)) (m : κ → ν) {t : Step κ ν} (ht : t ∈ steps) :
    t.source.eval (apply m s) = t.source.eval m := by
  cases hs : t.source with
  | value v => rfl
  | read k =>
      refine Function.update_of_ne (fun he => ?_) _ _
      refine h.stable t (List.mem_cons_of_mem _ ht) k hs ?_
      rw [he]
      exact List.mem_cons_self

/-- **The result of an independent plan.** A key that a step sets has the value that the step's
source had at the start. -/
theorem run_of_independent (steps : List (Step κ ν)) :
    ∀ m : κ → ν, Independent steps →
      ∀ s ∈ steps, run m steps s.target = s.source.eval m := by
  induction steps with
  | nil => exact fun m _ s hs => (by cases hs)
  | cons s steps ih =>
      intro m h t ht
      have hnot : s.target ∉ steps.map Step.target := (List.nodup_cons.mp h.distinct).1
      rcases List.mem_cons.mp ht with rfl | ht
      · -- its own step is done, and no later one sets the key again
        show run (apply m t) steps t.target = _
        rw [run_other _ hnot]
        exact Function.update_self _ _ _
      · show run (apply m s) steps t.target = _
        rw [ih (apply m s) h.tail t ht]
        exact h.eval_apply m ht

/-- A map that a plan leads to, from the value each step has at the start and the keys that
keep theirs. -/
theorem run_eq {steps : List (Step κ ν)} (h : Independent steps) {m m' : κ → ν}
    (hset : ∀ s ∈ steps, s.source.eval m = m' s.target)
    (hkeep : ∀ k ∉ steps.map Step.target, m k = m' k) : run m steps = m' := by
  funext k
  by_cases hk : k ∈ steps.map Step.target
  · obtain ⟨s, hs, rfl⟩ := List.mem_map.mp hk
    rw [run_of_independent steps m h s hs, hset s hs]
  · rw [run_other m hk, hkeep k hk]

/-! ## The same plan over other values -/

section Map

variable {ν' : Type} (f : ν → ν')

def Source.map : Source κ ν → Source κ ν'
  | .value v => .value (f v)
  | .read k => .read k

def Step.map (s : Step κ ν) : Step κ ν' := ⟨s.target, s.source.map f⟩

omit [DecidableEq κ] in
theorem Source.eval_map (m : κ → ν) (s : Source κ ν) : (s.map f).eval (f ∘ m) = f (s.eval m) := by
  cases s <;> rfl

/-- A plan does to the image of a map what it does to the map. -/
theorem run_map : ∀ (steps : List (Step κ ν)) (m : κ → ν),
    run (f ∘ m) (steps.map (Step.map f)) = f ∘ run m steps
  | [], _ => rfl
  | s :: steps, m => by
      have happly : apply (f ∘ m) (s.map f) = f ∘ apply m s := by
        unfold apply
        rw [Function.comp_update, ← Source.eval_map f m s.source]
        rfl
      show run (apply (f ∘ m) (s.map f)) _ = f ∘ run (apply m s) steps
      rw [happly]
      exact run_map steps (apply m s)

end Map

end Launcher.Lib.Plans
