import Mathlib.Data.List.Basic
import Mathlib.Tactic

set_option autoImplicit false

/-! # Prefix codes

A function `f : α → List β` writes values as words. It is a **prefix code** when a word can be
read off the front of any text: two texts that begin with a word each and are equal begin with
the word of the same value and go on alike. Such writers compose: with literals, one after
the other, repeated up to a closing letter, or separated and closed. -/

namespace Launcher

variable {α β γ : Type}

/-- Equal texts that begin with a word of `f` begin with the same word and go on alike. -/
def PrefixCode (f : α → List β) : Prop :=
  ∀ a b r s, f a ++ r = f b ++ s → a = b ∧ r = s

/-- No text that begins with a word of `f` begins with the letter `c`. -/
def AvoidsHead (f : α → List β) (c : β) : Prop :=
  ∀ a r s, f a ++ r ≠ c :: s

namespace PrefixCode

theorem injective {f : α → List β} (hf : PrefixCode f) : Function.Injective f :=
  fun a b h => (hf a b [] [] (by rw [h])).1

theorem comp {f : α → List β} (hf : PrefixCode f) {g : γ → α} (hg : Function.Injective g) :
    PrefixCode (fun a => f (g a)) := by
  intro a b r s h
  obtain ⟨hab, hrs⟩ := hf _ _ _ _ h
  exact ⟨hg hab, hrs⟩

/-- A reader that gives every value back, with what followed its word, makes a prefix code. -/
theorem of_reader {f : α → List β} (read : List β → Option (α × List β))
    (h : ∀ a r, read (f a ++ r) = some (a, r)) : PrefixCode f := by
  intro a b r s hrs
  have hread : some (a, r) = some (b, s) := by rw [← h a r, ← h b s, hrs]
  simpa using hread

/-- Words that are pairwise different and all end at the first `stop`. -/
theorem of_stop {f : α → List β} (hf : Function.Injective f) {stop : β}
    (hstop : ∀ a, stop ∉ f a) : PrefixCode (fun a => f a ++ [stop]) := by
  have key : ∀ (u v r s : List β), stop ∉ u → stop ∉ v →
      u ++ stop :: r = v ++ stop :: s → u = v ∧ r = s := by
    intro u
    induction u with
    | nil =>
        intro v r s _ hv h
        cases v with
        | nil => exact ⟨rfl, by simpa using h⟩
        | cons d v =>
            have hd : stop = d := by simpa using congrArg List.head? h
            exact absurd List.mem_cons_self (hd ▸ hv)
    | cons c u ih =>
        intro v r s hu hv h
        cases v with
        | nil =>
            have hc : c = stop := by simpa using congrArg List.head? h
            exact absurd List.mem_cons_self (hc ▸ hu)
        | cons d v =>
            obtain ⟨hcd, htl⟩ := List.cons.inj h
            obtain ⟨huv, hrs⟩ := ih v r s (fun hm => hu (List.mem_cons_of_mem _ hm))
              (fun hm => hv (List.mem_cons_of_mem _ hm)) htl
            exact ⟨by rw [hcd, huv], hrs⟩
  intro a b r s h
  obtain ⟨hab, hrs⟩ := key (f a) (f b) r s (hstop a) (hstop b) (by simpa using h)
  exact ⟨hf hab, hrs⟩

/-! ## Composition -/

theorem literal_append {f : α → List β} (hf : PrefixCode f) (w : List β) :
    PrefixCode (fun a => w ++ f a) := by
  intro a b r s h
  simp only [List.append_assoc, List.append_cancel_left_eq] at h
  exact hf a b r s h

theorem append_literal {f : α → List β} (hf : PrefixCode f) (w : List β) :
    PrefixCode (fun a => f a ++ w) := by
  intro a b r s h
  simp only [List.append_assoc] at h
  obtain ⟨hab, hrs⟩ := hf a b _ _ h
  exact ⟨hab, List.append_cancel_left hrs⟩

theorem append {f : α → List β} {g : γ → List β} (hf : PrefixCode f) (hg : PrefixCode g) :
    PrefixCode (fun p : α × γ => f p.1 ++ g p.2) := by
  rintro ⟨a, c⟩ ⟨b, d⟩ r s h
  simp only [List.append_assoc] at h
  obtain ⟨hab, htl⟩ := hf a b _ _ h
  obtain ⟨hcd, hrs⟩ := hg c d _ _ htl
  exact ⟨by rw [hab, hcd], hrs⟩

/-! ## Repetition

The induction is on the values written: the first letter says whether another word follows,
and the prefix code says where it ends. -/

/-- Words one after the other, up to a letter that begins no word. -/
theorem flatMap_stop {f : α → List β} (hf : PrefixCode f) {stop : β}
    (hstop : AvoidsHead f stop) : PrefixCode (fun l : List α => l.flatMap f ++ [stop]) := by
  intro l
  induction l with
  | nil =>
      intro l' r s h
      cases l' with
      | nil => exact ⟨rfl, by simpa using h⟩
      | cons b l' => exact absurd (by simpa using h.symm) (hstop b (l'.flatMap f ++ stop :: s) r)
  | cons a l ih =>
      intro l' r s h
      cases l' with
      | nil => exact absurd (by simpa using h) (hstop a (l.flatMap f ++ stop :: r) s)
      | cons b l' =>
          simp only [List.flatMap_cons, List.append_assoc] at h
          obtain ⟨hab, htl⟩ := hf a b _ _ h
          obtain ⟨hll, hrs⟩ := ih l' r s (by simpa using htl)
          exact ⟨by rw [hab, hll], hrs⟩

/-- What follows the first word of a separated list. -/
theorem intercalate_cons (sep : β) (w : List β) (ws : List (List β)) :
    List.intercalate [sep] (w :: ws) = w ++ ws.flatMap (fun v => sep :: v) := by
  induction ws generalizing w with
  | nil => simp [List.intercalate]
  | cons v ws ih =>
      have hcons : List.intercalate [sep] (w :: v :: ws)
          = w ++ [sep] ++ List.intercalate [sep] (v :: ws) := by
        simp [List.intercalate, List.intersperse]
      rw [hcons, ih v]
      simp

/-- Words with a separator between them, up to a closing letter that is neither. -/
theorem intercalate_stop {f : α → List β} (hf : PrefixCode f) {sep stop : β}
    (hne : sep ≠ stop) (hstop : AvoidsHead f stop) :
    PrefixCode (fun l : List α => List.intercalate [sep] (l.map f) ++ [stop]) := by
  -- after the first word the list is a repetition of separated words
  have hsep : PrefixCode (fun a => [sep] ++ f a) := hf.literal_append [sep]
  have hrest := hsep.flatMap_stop (fun a r s h => hne (List.cons.inj h).1)
  intro l l' r s h
  cases l with
  | nil =>
      cases l' with
      | nil => exact ⟨rfl, by simpa using h⟩
      | cons b l' =>
          simp only [List.map_cons, intercalate_cons] at h
          exact absurd (by simpa [List.intercalate] using h.symm) (hstop b _ r)
  | cons a l =>
      cases l' with
      | nil =>
          simp only [List.map_cons, intercalate_cons] at h
          exact absurd (by simpa [List.intercalate] using h) (hstop a _ s)
      | cons b l' =>
          simp only [List.map_cons, intercalate_cons, List.append_assoc] at h
          obtain ⟨hab, htl⟩ := hf a b _ _ h
          obtain ⟨hll, hrs⟩ := hrest l l' r s (by simpa [List.flatMap_map] using htl)
          exact ⟨by rw [hab, hll], hrs⟩

end PrefixCode

end Launcher
