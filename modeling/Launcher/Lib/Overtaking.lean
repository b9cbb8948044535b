import Launcher.Lib.Coroutines

set_option autoImplicit false

/-! # Checks that other tasks outdate

A task reads something from the shared state, decides on what it has read, and acts later.
Between its check and its act another task may change what was checked: the task has been
*overtaken*. `Checks` says which steps change what, which tasks hold a check on it, and which
steps act on a check; a run is `Punctual` when no task acts after it has been overtaken.

Two rules come with it: after a step that outdates checks, the tasks that held one do not act
any more (`Punctual.after`), and an invariant may distinguish the tasks that have been
overtaken from those that have not (`punctual_invariant`). -/

namespace Launcher.Lib

/-- What is checked, changed and acted on: `event` is a step of task `i` that outdates the checks
on a subject, `holds` says that a task holds a check on it, and `acts` names the task that acts
on its check in a step. -/
structure Checks (σ τ ρ χ ω κ : Type) where
  event : World σ τ → Label ρ χ ω → Option (Nat × κ)
  holds : τ → κ → Bool
  acts : World σ τ → Label ρ χ ω → Option Nat

namespace Checks

variable {σ τ ρ χ ω κ : Type} (K : Checks σ τ ρ χ ω κ)

/-- The tasks a step overtakes: all others that hold a check on what it changes. -/
def overtakes (w : World σ τ) (l : Label ρ χ ω) : List Nat :=
  match K.event w l with
  | none => []
  | some (i, k) => (List.range w.tasks.length).filter (fun j =>
      j != i && ((w.tasks[j]?).map (fun t => K.holds t k)).getD false)

variable {K}

theorem mem_overtakes {w : World σ τ} {l : Label ρ χ ω} {j i : Nat} {k : κ} {t : τ}
    (he : K.event w l = some (i, k)) (hj : w.tasks[j]? = some t) (hne : j ≠ i)
    (hh : K.holds t k = true) : j ∈ K.overtakes w l := by
  have hlt : j < w.tasks.length := (List.getElem?_eq_some_iff.mp hj).1
  simp only [overtakes, he, List.mem_filter, List.mem_range, Bool.and_eq_true, bne_iff_ne]
  refine ⟨hlt, hne, ?_⟩
  rw [hj, Option.map_some, Option.getD_some]
  exact hh

end Checks

namespace System

variable {σ τ ρ χ ω κ : Type} {C : Type → Type} (S : System σ τ ρ χ ω C)
  (K : Checks σ τ ρ χ ω κ)

/-- No task acts after it has been overtaken, `late` being the tasks overtaken so far. -/
def Punctual : List Nat → World σ τ → List (Label ρ χ ω) → Prop
  | _, _, [] => True
  | late, w, l :: ls =>
      (∀ j ∈ late, K.acts w l ≠ some j) ∧ Punctual (late ++ K.overtakes w l) (S.step w l) ls

instance decidablePunctual : ∀ (late : List Nat) (w : World σ τ) (ls : List (Label ρ χ ω)),
    Decidable (S.Punctual K late w ls)
  | _, _, [] => isTrue trivial
  | late, w, l :: ls =>
      have := decidablePunctual (late ++ K.overtakes w l) (S.step w l) ls
      inferInstanceAs (Decidable ((∀ j ∈ late, K.acts w l ≠ some j) ∧
        S.Punctual K (late ++ K.overtakes w l) (S.step w l) ls))

variable {S K}

theorem Punctual.along : ∀ {ls : List (Label ρ χ ω)} {late : List Nat} {w : World σ τ},
    S.Punctual K late w ls → S.Along (fun w' l => ∀ j ∈ late, K.acts w' l ≠ some j) w ls
  | [], _, _, _ => trivial
  | _ :: _, _, _, h =>
      ⟨h.1, (Punctual.along h.2).mono (fun _ _ ha j hj => ha j (List.mem_append_left _ hj))⟩

/-- What every step of a punctual run keeps of the world and the tasks overtaken so far holds at
every point of the run, and the rest of the run is punctual from there. -/
theorem punctual_invariant {I : List Nat → World σ τ → Prop}
    (hstep : ∀ late w l, I late w → (∀ j ∈ late, K.acts w l ≠ some j) →
      I (late ++ K.overtakes w l) (S.step w l)) :
    ∀ (pre : List (Label ρ χ ω)) {ls : List (Label ρ χ ω)} {late : List Nat} {w : World σ τ},
      I late w → S.Punctual K late w (pre ++ ls) →
        ∃ late', I late' (S.run w pre) ∧ S.Punctual K late' (S.run w pre) ls
  | [], _, late, _, hw, h => ⟨late, hw, h⟩
  | l :: pre, _, late, w, hw, h => punctual_invariant hstep pre (hstep late w l hw h.1) h.2

/-- After a step that outdates the checks on `k`, no other task that held one acts. -/
theorem Punctual.after {pre ls : List (Label ρ χ ω)} {late : List Nat} {w : World σ τ}
    {l : Label ρ χ ω} (h : S.Punctual K late w (pre ++ l :: ls)) {i : Nat} {k : κ}
    (he : K.event (S.run w pre) l = some (i, k)) :
    S.Along (fun w' l' => ∀ j t, (S.run w pre).tasks[j]? = some t → j ≠ i →
      K.holds t k = true → K.acts w' l' ≠ some j) (S.step (S.run w pre) l) ls := by
  obtain ⟨late', -, h'⟩ :=
    punctual_invariant (I := fun _ _ => True) (fun _ _ _ _ _ => trivial) pre trivial h
  refine h'.2.along.mono (fun w' l' ha j t hj hne hh => ha j ?_)
  exact List.mem_append_right _ (Checks.mem_overtakes he hj hne hh)

end System

end Launcher.Lib
