import Launcher.Lib.Utf8

set_option autoImplicit false

/-! # The characters of a text

A character of UTF-8 is a byte that continues no other, and the bytes that continue it. A text is
cut from its end: the bytes that continue a character are held back until its first byte is
there. -/

namespace Launcher.Lib.Utf8

/-- The continuation bytes at the front, and the characters behind them. -/
def cut (text : List UInt8) : List UInt8 × List (List UInt8) :=
  text.foldr (fun c r => if isContinuation c then (c :: r.1, r.2) else ([], (c :: r.1) :: r.2))
    ([], [])

def characters (text : List UInt8) : List (List UInt8) := (cut text).2

/-- One character, not yet known to be valid. -/
def IsCharacter (g : List UInt8) : Prop :=
  ∃ c rest, g = c :: rest ∧ isContinuation c = false ∧ ∀ d ∈ rest, isContinuation d = true

section Cut

variable {c : UInt8} {text g : List UInt8} {gs : List (List UInt8)}

@[simp] theorem characters_nil : characters [] = [] := rfl

theorem cut_continuation (h : isContinuation c = true) :
    cut (c :: text) = (c :: (cut text).1, (cut text).2) := if_pos h

theorem cut_first (h : isContinuation c = false) :
    cut (c :: text) = ([], (c :: (cut text).1) :: (cut text).2) :=
  if_neg (by rw [h]; exact Bool.false_ne_true)

theorem length_characters (text : List UInt8) : (characters text).length = charLength text := by
  induction text with
  | nil => rfl
  | cons c text ih =>
      rw [charLength, List.countP_cons, ← charLength, ← ih, characters]
      cases h : isContinuation c with
      | true => simp [cut_continuation h, characters]
      | false => simp [cut_first h, characters]

theorem cut_continuations (h : ∀ d ∈ g, isContinuation d = true) :
    cut (g ++ text) = (g ++ (cut text).1, (cut text).2) := by
  induction g with
  | nil => rfl
  | cons c g ih =>
      rw [List.cons_append, cut_continuation (h c List.mem_cons_self),
        ih (fun d hd => h d (List.mem_cons_of_mem c hd))]
      rfl

/-- Characters that are put together are cut apart again. -/
theorem characters_flatten (h : ∀ g ∈ gs, IsCharacter g) : characters gs.flatten = gs := by
  suffices hcut : cut gs.flatten = ([], gs) from congrArg Prod.snd hcut
  induction gs with
  | nil => rfl
  | cons g gs ih =>
      obtain ⟨c, rest, rfl, hfirst, hrest⟩ := h g List.mem_cons_self
      rw [List.flatten_cons, List.cons_append, cut_first hfirst, cut_continuations hrest,
        ih (fun g hg => h g (List.mem_cons_of_mem _ hg)), List.append_nil]

/-- What the cut of a rest is, when it goes on in a character that still owes `o`. -/
structure Cut (o : Owed) (text : List UInt8) : Prop where
  completes : scan o (cut text).1 = some (owes 0)
  front : ∀ d ∈ (cut text).1, isContinuation d = true
  whole : ∀ g ∈ characters text, IsCharacter g ∧ valid g = true
  bytes : (cut text).1 ++ (characters text).flatten = text

theorem cut_of_scan {o : Owed} (ho : o.Reached) (h : scan o text = some (owes 0)) :
    Cut o text := by
  -- the induction carries what the character before still owes
  induction text generalizing o with
  | nil => exact ⟨h, fun d hd => (by cases hd), fun g hg => (by cases hg), rfl⟩
  | cons c text ih =>
      rw [scan_cons, Option.bind_eq_some_iff] at h
      obtain ⟨o', haccept, hrest⟩ := h
      obtain ⟨hcompletes, hfront, hwhole, hbytes⟩ := ih (accept_reached haccept) hrest
      have hscan : scan o (c :: (cut text).1) = some (owes 0) := by
        rw [scan_cons, haccept]
        exact hcompletes
      rcases accept_continuation ho haccept with ⟨hcount, hc⟩ | ⟨-, hc⟩
      · -- a character begins, and what came before is complete
        have hcomplete := ho.complete hcount
        subst hcomplete
        have hcut : cut (c :: text) = ([], (c :: (cut text).1) :: (cut text).2) := cut_first hc
        refine ⟨?_, ?_, ?_, ?_⟩
        · rw [hcut]
          rfl
        · rw [hcut]
          exact fun d hd => (by cases hd)
        · rw [characters, hcut]
          intro g hg
          rcases List.mem_cons.mp hg with rfl | hg
          · exact ⟨⟨c, _, rfl, hc, hfront⟩, valid_iff.mpr hscan⟩
          · exact hwhole g hg
        · rw [characters, hcut]
          exact congrArg (c :: ·) hbytes
      · -- the byte goes on in a character, which is cut where it began
        have hcut : cut (c :: text) = (c :: (cut text).1, (cut text).2) := cut_continuation hc
        refine ⟨?_, ?_, ?_, ?_⟩
        · rw [hcut]
          exact hscan
        · rw [hcut]
          intro d hd
          rcases List.mem_cons.mp hd with rfl | hd
          · exact hc
          · exact hfront d hd
        · rw [characters, hcut]
          exact hwhole
        · rw [characters, hcut]
          exact congrArg (c :: ·) hbytes

end Cut

section Valid

variable {text : List UInt8} {gs : List (List UInt8)}

theorem cut_of_valid (h : valid text = true) : Cut (owes 0) text :=
  cut_of_scan (reached_owes 0) (valid_iff.mp h)

/-- The characters of a valid text are valid, and have only its bytes. -/
theorem mem_characters (h : valid text = true) {g : List UInt8} (hg : g ∈ characters text) :
    IsCharacter g ∧ valid g = true ∧ ∀ c ∈ g, c ∈ text := by
  obtain ⟨-, -, hwhole, hbytes⟩ := cut_of_valid h
  refine ⟨(hwhole g hg).1, (hwhole g hg).2, fun c hc => ?_⟩
  rw [← hbytes]
  exact List.mem_append_right _ (List.mem_flatten.mpr ⟨g, hg, hc⟩)

theorem valid_flatten (h : ∀ g ∈ gs, valid g = true) : valid gs.flatten = true := by
  induction gs with
  | nil => rfl
  | cons g gs ih =>
      exact valid_append (h g List.mem_cons_self) (ih (fun g hg => h g (List.mem_cons_of_mem _ hg)))

end Valid

end Launcher.Lib.Utf8
