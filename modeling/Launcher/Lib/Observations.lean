import Launcher.Lib.Coroutines

set_option autoImplicit false

/-! # What a task has read

A task keeps in its frame what its calls replied while the shared state moves on. What it says
of the state was true at the call; `observed_since` says how long ago that can be: not before
the task arrived. -/

namespace Launcher.Lib.System

universe u w

variable {σ : Type} {τ : Type u} {ρ χ ω : Type} {C : Type → Type w}

/-- At some moment of the run at which task `j` had arrived, the shared state had `P`. -/
def Since (S : System σ τ ρ χ ω C) (w : World σ τ) (ls : List (Label ρ χ ω)) (j : Nat)
    (P : σ → Prop) : Prop :=
  ∃ pre post, ls = pre ++ post ∧ j < (S.run w pre).tasks.length ∧ P (S.run w pre).shared

variable {S : System σ τ ρ χ ω C} {w : World σ τ} {ls : List (Label ρ χ ω)} {j : Nat}

theorem Since.now {P : σ → Prop} {t : τ} (hj : (S.run w ls).tasks[j]? = some t)
    (h : P (S.run w ls).shared) : S.Since w ls j P :=
  ⟨ls, [], (List.append_nil ls).symm, (List.getElem?_eq_some_iff.mp hj).1, h⟩

theorem Since.append {P : σ → Prop} (h : S.Since w ls j P) (ls' : List (Label ρ χ ω)) :
    S.Since w (ls ++ ls') j P := by
  obtain ⟨pre, post, rfl, harrived, hP⟩ := h
  exact ⟨pre, post ++ ls', List.append_assoc _ _ _, harrived, hP⟩

theorem Since.mono {P Q : σ → Prop} (h : S.Since w ls j P) (hpq : ∀ s, P s → Q s) :
    S.Since w ls j Q := by
  obtain ⟨pre, post, hls, harrived, hP⟩ := h
  exact ⟨pre, post, hls, harrived, hpq _ hP⟩

/-- Tasks are never taken away. -/
theorem length_tasks_le (w : World σ τ) (ls : List (Label ρ χ ω)) :
    w.tasks.length ≤ (S.run w ls).tasks.length := by
  refine run_invariant (I := fun w' => w.tasks.length ≤ w'.tasks.length) (A := fun _ _ => True)
    (fun w' l h _ => ?_) ls w (le_refl _) (along_true w ls)
  refine step_induction (P := fun w' => w.tasks.length ≤ w'.tasks.length) (fun r _ => ?_)
    (fun i choice t _ _ => ?_) h (fun _ _ => h)
  · rw [List.length_append]
    omega
  · cases S.next t with
    | done => trivial
    | call c k => exact fun _ _ _ => h.trans_eq List.length_set.symm

/-- A moment since the arrival of a task that arrived in the second part of a run. -/
theorem Since.after {P : σ → Prop} {pre post : List (Label ρ χ ω)}
    (h : S.Since w (pre ++ post) j P) (harrived : (S.run w pre).tasks.length ≤ j) :
    ∃ pre' post', post = pre' ++ post' ∧ P (S.run w (pre ++ pre')).shared := by
  obtain ⟨before, rest, hls, hj, hP⟩ := h
  rcases List.append_eq_append_iff.mp hls with ⟨pre', rfl, hpost⟩ | ⟨more, rfl, -⟩
  · exact ⟨pre', rest, hpost, hP⟩
  · have hlength := length_tasks_le (S := S) (S.run w before) more
    rw [← run_append] at hlength
    omega

/-- **The rule for what tasks have read.** `O t o` says that the frame of `t` holds the
observation `o`, and `H o` what `o` says of the state. A request holds none; an observation
that a call adds has to be true in the state it is made in. -/
theorem observed_since {ο : Type} {O : τ → ο → Prop} {H : ο → σ → Prop}
    (entry : ∀ r o, ¬O (S.entry r) o)
    (call : ∀ choice s t, (S.next t).Wp S.exec choice s
      (fun _ t' => ∀ o, O t' o → O t o ∨ H o s))
    (start : w.tasks = []) (ls : List (Label ρ χ ω)) :
    ∀ j t o, (S.run w ls).tasks[j]? = some t → O t o → S.Since w ls j (H o) := by
  refine prefix_induction (J := fun ls w' => ∀ (j : Nat) t o, w'.tasks[j]? = some t → O t o →
    S.Since w ls j (H o)) ?start ?next ls
  case start =>
    intro j t o hj
    rw [start] at hj
    cases hj
  case next =>
    intro ls l ih
    refine step_induction (P := fun w' => ∀ (j : Nat) t o, w'.tasks[j]? = some t → O t o →
      S.Since w (ls ++ [l]) j (H o)) ?request ?resume ?idle ?outside
    case request =>
      intro r _ j t o hj ho
      rcases mem_append_cases hj with hj | ⟨_, rfl⟩
      · exact (ih j t o hj ho).append [l]
      · exact absurd ho (entry r o)
    case resume =>
      intro i choice t _ hi
      refine (call choice _ t).mono (fun s' t' hnew => ?_)
      intro j t'' o hj ho
      rcases mem_set_cases hj with ⟨rfl, rfl⟩ | ⟨_, hj⟩
      · -- its own call: what it held before, or what it has just read
        rcases hnew o ho with hold | hnow
        · exact (ih j t o hi hold).append [l]
        · exact (Since.now hi hnow).append [l]
      · exact (ih j t'' o hj ho).append [l]
    case idle => exact fun j t o hj ho => (ih j t o hj ho).append [l]
    case outside => exact fun _ _ j t o hj ho => (ih j t o hj ho).append [l]

end Launcher.Lib.System
