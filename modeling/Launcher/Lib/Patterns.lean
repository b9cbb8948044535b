import Mathlib.Computability.Language
import Launcher.Lib.Words

set_option autoImplicit false

/-! # Patterns

The regular expressions that constraints are written with, as languages. Alternatives, sequences
and `*` are Mathlib's; here are a character class (`oneOf`), `+` (`atLeastOne`), `{m,n}`
(`repeated`), and what a text looks like that is a list with a separator between its parts
(`mem_separated`). -/

namespace Launcher.Lib

open scoped Computability

variable {α : Type}

/-- `[…]`. -/
def oneOf (p : α → Bool) : Language α := {text | ∃ c, text = [c] ∧ p c = true}

/-- A character that stands for itself. -/
def char (c : α) : Language α := {[c]}

/-- `(…|…)`, of texts that stand for themselves. -/
def anyOf (texts : List (List α)) : Language α := {text | text ∈ texts}

/-- `+`. -/
def atLeastOne (l : Language α) : Language α := l * l∗

/-- `{m,n}`. -/
def repeated (m n : Nat) (l : Language α) : Language α :=
  {text | ∃ k, m ≤ k ∧ k ≤ n ∧ text ∈ l ^ k}

section Classes

variable {p : α → Bool} {text : List α} {c : α}

@[simp] theorem mem_char : text ∈ char c ↔ text = [c] := Iff.rfl

theorem flatten_oneOf {parts : List (List α)} (h : ∀ part ∈ parts, part ∈ oneOf p) :
    parts.flatten.length = parts.length ∧ ∀ c ∈ parts.flatten, p c = true := by
  induction parts with
  | nil => exact ⟨rfl, fun c hc => by cases hc⟩
  | cons part parts ih =>
      obtain ⟨c, rfl, hc⟩ := h part List.mem_cons_self
      obtain ⟨hlength, hall⟩ := ih (fun x hx => h x (List.mem_cons_of_mem _ hx))
      refine ⟨by simp [hlength], fun d hd => ?_⟩
      rw [List.flatten_cons, List.singleton_append] at hd
      rcases List.mem_cons.mp hd with rfl | hd
      · exact hc
      · exact hall d hd

theorem flatten_singletons (text : List α) : (text.map (fun c => [c])).flatten = text := by
  induction text with
  | nil => rfl
  | cons c text ih => rw [List.map_cons, List.flatten_cons, ih, List.singleton_append]

theorem singletons_oneOf (h : ∀ c ∈ text, p c = true) :
    ∀ part ∈ text.map (fun c => [c]), part ∈ oneOf p := by
  intro part hpart
  obtain ⟨c, hc, rfl⟩ := List.mem_map.mp hpart
  exact ⟨c, rfl, h c hc⟩

theorem mem_oneOf_pow {n : Nat} :
    text ∈ oneOf p ^ n ↔ text.length = n ∧ ∀ c ∈ text, p c = true := by
  rw [Language.mem_pow]
  constructor
  · rintro ⟨parts, rfl, rfl, hparts⟩
    exact flatten_oneOf hparts
  · rintro ⟨rfl, h⟩
    exact ⟨text.map (fun c => [c]), (flatten_singletons text).symm, by simp, singletons_oneOf h⟩

theorem mem_oneOf_kstar : text ∈ (oneOf p)∗ ↔ ∀ c ∈ text, p c = true := by
  rw [Language.mem_kstar]
  constructor
  · rintro ⟨parts, rfl, hparts⟩
    exact (flatten_oneOf hparts).2
  · intro h
    exact ⟨text.map (fun c => [c]), (flatten_singletons text).symm, singletons_oneOf h⟩

theorem mem_atLeastOne_oneOf :
    text ∈ atLeastOne (oneOf p) ↔ text ≠ [] ∧ ∀ c ∈ text, p c = true := by
  rw [atLeastOne, Language.mem_mul]
  constructor
  · rintro ⟨_, ⟨c, rfl, hc⟩, rest, hrest, rfl⟩
    rw [mem_oneOf_kstar] at hrest
    refine ⟨by simp, fun d hd => ?_⟩
    rcases List.mem_cons.mp hd with rfl | hd
    · exact hc
    · exact hrest d hd
  · rintro ⟨hne, h⟩
    cases text with
    | nil => exact absurd rfl hne
    | cons c rest =>
        exact ⟨[c], ⟨c, rfl, h c List.mem_cons_self⟩, rest,
          mem_oneOf_kstar.mpr (fun d hd => h d (List.mem_cons_of_mem c hd)), rfl⟩

end Classes

section Separated

variable {l : Language α} {sep : α} {text : List α}

/-- What is in the language `sep l` is a separator and a part. -/
theorem forall_mem_char_mul {pieces : List (List α)} :
    (∀ piece ∈ pieces, piece ∈ char sep * l) ↔
      ∃ parts : List (List α), pieces = parts.map (fun part => sep :: part) ∧
        ∀ part ∈ parts, part ∈ l := by
  constructor
  · intro h
    induction pieces with
    | nil => exact ⟨[], rfl, fun part hp => by cases hp⟩
    | cons piece pieces ih =>
        obtain ⟨_, rfl, part, hpart, rfl⟩ := Language.mem_mul.mp (h piece List.mem_cons_self)
        obtain ⟨parts, rfl, hparts⟩ := ih (fun x hx => h x (List.mem_cons_of_mem _ hx))
        refine ⟨part :: parts, rfl, fun x hx => ?_⟩
        rcases List.mem_cons.mp hx with rfl | hx
        · exact hpart
        · exact hparts x hx
  · rintro ⟨parts, rfl, hparts⟩ piece hpiece
    obtain ⟨part, hp, rfl⟩ := List.mem_map.mp hpiece
    exact Language.append_mem_mul (show [sep] ∈ char sep from rfl) (hparts part hp)

/-- **`l(sep l)*`**: parts with a separator between them. -/
theorem mem_separated : text ∈ l * (char sep * l)∗ ↔
    ∃ parts : List (List α), parts ≠ [] ∧ (∀ part ∈ parts, part ∈ l) ∧
      text = [sep].intercalate parts := by
  rw [Language.mem_mul]
  constructor
  · rintro ⟨part, hpart, rest, hrest, rfl⟩
    obtain ⟨pieces, rfl, hpieces⟩ := Language.mem_kstar.mp hrest
    obtain ⟨parts, rfl, hparts⟩ := forall_mem_char_mul.mp hpieces
    refine ⟨part :: parts, List.cons_ne_nil part parts, fun x hx => ?_,
      (intercalate_eq_flatten part parts).symm⟩
    rcases List.mem_cons.mp hx with rfl | hx
    · exact hpart
    · exact hparts x hx
  · rintro ⟨parts, hne, hparts, rfl⟩
    obtain ⟨part, parts, rfl⟩ := List.exists_cons_of_ne_nil hne
    refine ⟨part, hparts part List.mem_cons_self, _, ?_,
      (intercalate_eq_flatten part parts).symm⟩
    exact Language.join_mem_kstar (forall_mem_char_mul.mpr
      ⟨parts, rfl, fun x hx => hparts x (List.mem_cons_of_mem part hx)⟩)

/-- `l(sep l){0,n}`: at most `n + 1` of them. -/
theorem mem_separated_upTo {n : Nat} : text ∈ l * repeated 0 n (char sep * l) ↔
    ∃ parts : List (List α), parts ≠ [] ∧ parts.length ≤ n + 1 ∧ (∀ part ∈ parts, part ∈ l) ∧
      text = [sep].intercalate parts := by
  rw [Language.mem_mul]
  constructor
  · rintro ⟨part, hpart, rest, ⟨k, -, hk, hrest⟩, rfl⟩
    obtain ⟨pieces, rfl, rfl, hpieces⟩ := Language.mem_pow.mp hrest
    obtain ⟨parts, rfl, hparts⟩ := forall_mem_char_mul.mp hpieces
    rw [List.length_map] at hk
    refine ⟨part :: parts, List.cons_ne_nil part parts, by simpa using hk, fun x hx => ?_,
      (intercalate_eq_flatten part parts).symm⟩
    rcases List.mem_cons.mp hx with rfl | hx
    · exact hpart
    · exact hparts x hx
  · rintro ⟨parts, hne, hlength, hparts, rfl⟩
    obtain ⟨part, parts, rfl⟩ := List.exists_cons_of_ne_nil hne
    refine ⟨part, hparts part List.mem_cons_self, _, ⟨parts.length, Nat.zero_le _, ?_, ?_⟩,
      (intercalate_eq_flatten part parts).symm⟩
    · simpa using hlength
    · exact Language.mem_pow.mpr ⟨parts.map (fun part => sep :: part), rfl, by simp,
        forall_mem_char_mul.mpr ⟨parts, rfl, fun x hx => hparts x (List.mem_cons_of_mem part hx)⟩⟩

end Separated

end Launcher.Lib
