import Launcher.Lib.Coroutines

set_option autoImplicit false

/-! # Tasks that run the tasks of another system

A server may put stages before and after the coroutines of its services: a task of the server
first does something of its own, then runs a coroutine of the services, then perhaps another one.
`Hosted` says what one step of such a task may do to the services, and `hosted_run` that all the
runs of the server are then, for the services, runs of their own: what holds of the state in every
run of the services holds of it in the server. -/

namespace Launcher.Lib.System

universe u u' w w'

variable {σ : Type} {τ : Type u} {ρ χ ω : Type} {C : Type → Type w}

/-- What a step of the hosting task does to the hosted system: from the state `s` with the
coroutine `o` in the task, if there is one, to the state `s'` with `o'`. -/
inductive Hosted (S : System σ τ ρ χ ω C) : σ → Option τ → σ → Option τ → Prop
  | same {s : σ} {o : Option τ} : Hosted S s o s o
  /-- The coroutine has answered, or is not resumed any more. -/
  | ended {s : σ} {o : Option τ} : Hosted S s o s none
  /-- The task makes a request of its own. -/
  | start {s : σ} {o : Option τ} (r : ρ) : Hosted S s o s (some (S.entry r))
  | resume {s s' : σ} {t : τ} {o' : Option τ} {α : Type} {c : C α} {k : α → τ} (choice : χ)
      (hn : S.next t = .call c k)
      (h : Hosted S (S.exec choice c s).2 (some (k (S.exec choice c s).1)) s' o') :
      Hosted S s (some t) s' o'

/-- The world `w` has the state `s` and holds the coroutines `os`, each in a place of its own. -/
structure Hosts (s : σ) (os : List (Option τ)) (w : World σ τ) (place : Nat → Nat) : Prop where
  shared : w.shared = s
  placed : ∀ j u, os[j]? = some (some u) → w.tasks[place j]? = some u
  apart : ∀ j j' u u', os[j]? = some (some u) → os[j']? = some (some u') →
    place j = place j' → j = j'

variable {S : System σ τ ρ χ ω C}

/-- A task that resumes its coroutine, and goes on from where that stands then. -/
theorem Hosted.wp_next {τ' : Type u'} (inner : τ' → Option τ) {f : τ → τ'} {choice : χ} {s : σ}
    (h : ∀ s' u, Hosted S s' (some u) s' (inner (f u))) (t : τ) :
    ((S.next t).map f).Wp S.exec choice s (fun s' t' => Hosted S s (some t) s' (inner t')) := by
  cases hn : S.next t with
  | done => trivial
  | call c k =>
      rintro r s' e
      have hresume := Hosted.resume choice hn (h (S.exec choice c s).2 (k (S.exec choice c s).1))
      rwa [e] at hresume

/-- The steps of the hosted system behind a step of a task: the coroutine that stood at `k` or was
to be started ends up at `k'`, and all the others stay as they are. -/
theorem Hosted.run {s s' : σ} {o o' : Option τ} (h : Hosted S s o s' o') :
    ∀ (w : World σ τ) (k : Nat), w.shared = s → (∀ u, o = some u → w.tasks[k]? = some u) →
      ∃ ms k', (S.run w ms).shared = s' ∧
        (∀ u, o' = some u → (S.run w ms).tasks[k']? = some u) ∧
        (k' = k ∨ w.tasks.length ≤ k') ∧
        ∀ m u, m ≠ k → w.tasks[m]? = some u → (S.run w ms).tasks[m]? = some u := by
  induction h with
  | same => exact fun w k hs hk => ⟨[], k, hs, hk, Or.inl rfl, fun m u _ hm => hm⟩
  | ended =>
      intro w k hs hk
      refine ⟨[], k, hs, ?_, Or.inl rfl, fun m u _ hm => hm⟩
      intro u hu
      cases hu
  | start r =>
      intro w k hs hk
      refine ⟨[.request r], w.tasks.length, hs, ?_, Or.inr (le_refl _), ?_⟩
      · rintro u hu
        cases hu
        exact List.getElem?_concat_length
      · intro m u _ hm
        show (w.tasks ++ [S.entry r])[m]? = some u
        rw [List.getElem?_append_left (List.getElem?_eq_some_iff.mp hm).1]
        exact hm
  | @resume s s' t o' α c k choice hn _ ih =>
      intro w i hs hi
      have hstep : S.step w (.resume i choice) = _ := S.step_resume (hi t rfl) hn
      rw [hs] at hstep
      have hlt : i < w.tasks.length := (List.getElem?_eq_some_iff.mp (hi t rfl)).1
      obtain ⟨ms, k', hshared, hplaced, hwhere, hothers⟩ := ih (S.step w (.resume i choice)) i
        (by rw [hstep]) (fun u hu => by
          cases hu
          rw [hstep]
          exact List.getElem?_set_self hlt)
      refine ⟨.resume i choice :: ms, k', hshared, hplaced, ?_, ?_⟩
      · rw [hstep, List.length_set] at hwhere
        exact hwhere
      · intro m u hm hu
        refine hothers m u hm ?_
        rw [hstep]
        exact (List.getElem?_set_ne (Ne.symm hm)).trans hu

section Places

variable {s : σ} {os : List (Option τ)} {w : World σ τ} {place : Nat → Nat}

theorem Hosts.lt_length (hw : Hosts s os w place) {j : Nat} {u : τ}
    (hj : os[j]? = some (some u)) : place j < w.tasks.length :=
  (List.getElem?_eq_some_iff.mp (hw.placed j u hj)).1

/-- A task that runs no coroutine has arrived. -/
theorem Hosts.concat (hw : Hosts s os w place) : Hosts s (os ++ [none]) w place where
  shared := hw.shared
  placed j u hj := by
    rcases mem_append_cases hj with hj | ⟨_, hnone⟩
    · exact hw.placed j u hj
    · cases hnone
  apart j j' u u' hj hj' hplace := by
    rcases mem_append_cases hj with hj | ⟨_, hnone⟩
    · rcases mem_append_cases hj' with hj' | ⟨_, hnone⟩
      · exact hw.apart j j' u u' hj hj' hplace
      · cases hnone
    · cases hnone

/-- A step of task `i`. -/
theorem Hosts.set (hw : Hosts s os w place) {i : Nat} {s' : σ} {o o' : Option τ}
    (hi : os[i]? = some o) (h : Hosted S s o s' o') :
    ∃ ms place', Hosts s' (os.set i o') (S.run w ms) place' := by
  -- where its coroutine stands; if it runs none, a place where no coroutine stands
  obtain ⟨k, hk, hfree⟩ : ∃ k, (∀ u, o = some u → w.tasks[k]? = some u) ∧
      ∀ j u, j ≠ i → os[j]? = some (some u) → place j ≠ k := by
    cases o with
    | none =>
        refine ⟨w.tasks.length, fun u hu => (by cases hu), fun j u _ hj hplace => ?_⟩
        have hlt := hw.lt_length hj
        omega
    | some u =>
        refine ⟨place i, fun u' hu => hw.placed i u' (hi.trans (congrArg some hu)), ?_⟩
        exact fun j u' hne hj hplace => hne (hw.apart j i u' u hj hi hplace)
  obtain ⟨ms, k', hshared, hplaced, hwhere, hothers⟩ := Hosted.run h w k hw.shared hk
  have hkeep : ∀ j u, j ≠ i → os[j]? = some (some u) → place j ≠ k' := by
    intro j u hne hj hplace
    rcases hwhere with rfl | hfar
    · exact hfree j u hne hj hplace
    · have hlt := hw.lt_length hj
      omega
  refine ⟨ms, Function.update place i k', hshared, ?_, ?_⟩
  · intro j u hj
    rcases mem_set_cases hj with ⟨rfl, rfl⟩ | ⟨hne, hj⟩
    · rw [Function.update_self]
      exact hplaced u rfl
    · rw [Function.update_of_ne hne]
      exact hothers _ u (hfree j u hne hj) (hw.placed j u hj)
  · intro j j' u u' hj hj' hplace
    rcases mem_set_cases hj with ⟨rfl, -⟩ | ⟨hne, hold⟩ <;>
      rcases mem_set_cases hj' with ⟨rfl, -⟩ | ⟨hne', hold'⟩
    · rfl
    · rw [Function.update_self, Function.update_of_ne hne'] at hplace
      exact absurd hplace.symm (hkeep j' u' hne' hold')
    · rw [Function.update_self, Function.update_of_ne hne] at hplace
      exact absurd hplace (hkeep j u hne hold)
    · rw [Function.update_of_ne hne, Function.update_of_ne hne'] at hplace
      exact hw.apart j j' u u' hold hold' hplace

end Places

section Rule

variable {σ' : Type} {τ' : Type u'} {ρ' χ' ω' : Type} {C' : Type → Type w'}
  {T : System σ' τ' ρ' χ' ω' C'} (view : σ' → σ) (inner : τ' → Option τ)

/-- **The rule for hosting tasks.** If the arrival and each step of a task do to the hosted system
what `Hosted` allows, and the outside does to it what its own outside does, then every run is a run
of the hosted system for what `view` sees of the state and `inner` of the tasks. -/
theorem hosted_run (entry : ∀ s r, Hosted S s none s (inner (T.entry r)))
    (call : ∀ choice s t, (T.next t).Wp T.exec choice s
      (fun s' t' => Hosted S (view s) (inner t) (view s') (inner t')))
    (outside : ∀ e s, ∃ e', view (T.outside e s) = S.outside e' (view s))
    {w : World σ' τ'} (start : w.tasks = []) (ls : List (Label ρ' χ' ω')) :
    ∃ ms place, Hosts (view (T.run w ls).shared) ((T.run w ls).tasks.map inner)
      (S.run ⟨view w.shared, []⟩ ms) place := by
  refine run_invariant (S := T) (I := fun w' => ∃ ms place, Hosts (view w'.shared)
    (w'.tasks.map inner) (S.run ⟨view w.shared, []⟩ ms) place) (A := fun _ _ => True)
    (fun w' l h _ => ?_) ls w ⟨[], id, rfl, ?_, ?_⟩ (along_true w ls)
  · obtain ⟨ms, place, hw⟩ := h
    refine step_induction (P := fun w' => ∃ ms place, Hosts (view w'.shared)
      (w'.tasks.map inner) (S.run ⟨view w.shared, []⟩ ms) place) ?request ?resume
      ⟨ms, place, hw⟩ ?outside
    case request =>
      intro r _
      -- a task that runs nothing, and then perhaps makes a request
      obtain ⟨more, place', hmore⟩ := Hosts.set (S := S) hw.concat
        (List.getElem?_concat_length) (entry (view w'.shared) r)
      rw [List.set_append_right _ _ (le_refl _), Nat.sub_self, ← run_append] at hmore
      rw [List.map_append, List.map_singleton]
      exact ⟨ms ++ more, place', hmore⟩
    case resume =>
      intro i choice t _ hi
      refine (call choice w'.shared t).mono (fun s' t' h => ?_)
      obtain ⟨more, place', hmore⟩ := Hosts.set hw
        ((List.getElem?_map).trans (congrArg (Option.map inner) hi)) h
      rw [← List.map_set, ← run_append] at hmore
      exact ⟨ms ++ more, place', hmore⟩
    case outside =>
      intro e _
      obtain ⟨e', he⟩ := outside e w'.shared
      refine ⟨ms ++ [.outside e'], place, ?_, ?_, hw.apart⟩
      · rw [run_append, he, ← hw.shared]
        rfl
      · rw [run_append]
        exact hw.placed
  · intro j u hj
    rw [start] at hj
    cases hj
  · intro j j' u u' hj
    rw [start] at hj
    cases hj

end Rule

end Launcher.Lib.System
