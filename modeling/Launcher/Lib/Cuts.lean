import Mathlib.Tactic

set_option autoImplicit false

/-! # The first occurrence of a mark

`cut? mark text` cuts a list around the first place where `mark` occurs in it. What follows is
how a cut goes on when the list is extended: a cut stays where it is (`cut?_append`), and a list
without the mark passes the cut on to its extension, unless the mark lies across the seam
(`cut?_append_of_none`). -/

namespace Launcher.Lib

variable {α : Type}

/-! ## The seam of two lists -/

/-- A mark that starts before the end of the first part lies within it. -/
theorem prefix_append_iff {mark text : List α} (rest : List α) (h : mark.length ≤ text.length) :
    mark <+: text ++ rest ↔ mark <+: text := by
  constructor
  · intro hmark
    exact List.prefix_of_prefix_length_le hmark (List.prefix_append text rest) h
  · intro hmark
    exact hmark.trans (List.prefix_append text rest)

/-- No occurrence of the mark starts in `text` and ends in `rest`. -/
def Apart (mark text rest : List α) : Prop :=
  ∀ s t, mark = s ++ t → s ≠ [] → t ≠ [] → s <:+ text → ¬ t <+: rest

theorem Apart.tail {mark text rest : List α} {c : α} (h : Apart mark (c :: text) rest) :
    Apart mark text rest :=
  fun s t hmark hs ht hsuffix => h s t hmark hs ht (hsuffix.trans (List.suffix_cons c text))

/-- A mark of one element is not across a seam. -/
theorem Apart.singleton (c : α) (text rest : List α) : Apart [c] text rest := by
  intro s t hmark hs ht
  have hlength := congrArg List.length hmark
  rw [List.length_append, List.length_singleton] at hlength
  have hspos : 0 < s.length := List.length_pos_iff.mpr hs
  have htpos : 0 < t.length := List.length_pos_iff.mpr ht
  omega

/-- A mark of two is, when its first ends the one list and its second starts the other. -/
theorem Apart.pair {c d : α} {text rest : List α}
    (h : text.getLast? = some c → rest.head? ≠ some d) : Apart [c, d] text rest := by
  rintro s t hmark hs ht ⟨front, rfl⟩ ⟨back, rfl⟩
  obtain ⟨e, s, rfl⟩ := List.exists_cons_of_ne_nil hs
  rw [List.cons_append, List.cons.injEq] at hmark
  obtain ⟨rfl, hmark⟩ := hmark
  cases s with
  | nil =>
      rw [List.nil_append] at hmark
      subst hmark
      exact h (by simp) rfl
  | cons e s =>
      rw [List.cons_append, List.cons.injEq] at hmark
      exact ht (List.append_eq_nil_iff.mp hmark.2.symm).2

/-! ## Cuts -/

variable [DecidableEq α]

/-- What is before the first occurrence of `mark`, and what is after it. -/
def cut? (mark : List α) : List α → Option (List α × List α)
  | [] => if mark = [] then some ([], []) else none
  | c :: text =>
      if mark <+: c :: text then some ([], (c :: text).drop mark.length)
      else (cut? mark text).map (fun p => (c :: p.1, p.2))

theorem cut?_nil (mark : List α) :
    cut? mark [] = if mark = [] then some ([], []) else none := rfl

theorem cut?_front {mark text : List α} {c : α} (h : mark <+: c :: text) :
    cut? mark (c :: text) = some ([], (c :: text).drop mark.length) := if_pos h

theorem cut?_cons {mark text : List α} {c : α} (h : ¬ mark <+: c :: text) :
    cut? mark (c :: text) = (cut? mark text).map (fun p => (c :: p.1, p.2)) := if_neg h

/-- The mark is where the list was cut. -/
theorem eq_of_cut? {mark text before after : List α} (h : cut? mark text = some (before, after)) :
    text = before ++ mark ++ after := by
  induction text generalizing before with
  | nil =>
      rw [cut?_nil] at h
      split_ifs at h with hmark
      cases h
      simp [hmark]
  | cons c text ih =>
      by_cases hfront : mark <+: c :: text
      · rw [cut?_front hfront] at h
        cases h
        exact (List.prefix_iff_eq_append.mp hfront).symm
      · rw [cut?_cons hfront, Option.map_eq_some_iff] at h
        obtain ⟨⟨before', after'⟩, hcut, hpair⟩ := h
        cases hpair
        rw [ih hcut, List.cons_append, List.cons_append]

/-- A shorter rest is left after a mark that is not empty. -/
theorem length_lt_of_cut? {mark text before after : List α} (hmark : mark ≠ [])
    (h : cut? mark text = some (before, after)) : after.length < text.length := by
  have hpos : 0 < mark.length := List.length_pos_iff.mpr hmark
  rw [eq_of_cut? h]
  simp only [List.length_append]
  omega

/-- **A cut stays where it is** when the list goes on. -/
theorem cut?_append {mark text before after : List α} (rest : List α)
    (h : cut? mark text = some (before, after)) :
    cut? mark (text ++ rest) = some (before, after ++ rest) := by
  induction text generalizing before with
  | nil =>
      rw [cut?_nil] at h
      split_ifs at h with hmark
      cases h
      subst hmark
      cases rest with
      | nil => rfl
      | cons d rest => exact cut?_front List.nil_prefix
  | cons c text ih =>
      have hlength : mark.length ≤ (c :: text).length := by
        rw [eq_of_cut? h]
        simp only [List.length_append]
        omega
      by_cases hfront : mark <+: c :: text
      · rw [cut?_front hfront] at h
        cases h
        have hfront' : mark <+: c :: (text ++ rest) :=
          (prefix_append_iff rest hlength).mpr hfront
        rw [List.cons_append, cut?_front hfront', ← List.cons_append,
          List.drop_append_of_le_length hlength]
      · have hfront' : ¬ mark <+: c :: (text ++ rest) :=
          fun hmark => hfront ((prefix_append_iff rest hlength).mp hmark)
        rw [cut?_cons hfront, Option.map_eq_some_iff] at h
        obtain ⟨⟨before', after'⟩, hcut, hpair⟩ := h
        cases hpair
        rw [List.cons_append, cut?_cons hfront', ih hcut]
        rfl

/-- **A list without the mark passes the cut on.** -/
theorem cut?_append_of_none {mark text rest : List α} (h : cut? mark text = none)
    (hapart : Apart mark text rest) :
    cut? mark (text ++ rest) = (cut? mark rest).map (fun p => (text ++ p.1, p.2)) := by
  induction text with
  | nil => simp
  | cons c text ih =>
      have hfront : ¬ mark <+: c :: text := by
        intro hmark
        rw [cut?_front hmark] at h
        cases h
      rw [cut?_cons hfront, Option.map_eq_none_iff] at h
      -- an occurrence at the front would end after the seam
      have hfront' : ¬ mark <+: c :: (text ++ rest) := by
        rintro ⟨tail, htail⟩
        rw [← List.cons_append, List.append_eq_append_iff] at htail
        rcases htail with ⟨between, htext, _⟩ | ⟨between, hmark, hrest⟩
        · exact hfront ⟨between, htext.symm⟩
        · by_cases hbetween : between = []
          · rw [hbetween, List.append_nil] at hmark
            exact hfront (hmark ▸ List.prefix_rfl)
          · exact hapart (c :: text) between hmark (List.cons_ne_nil c text) hbetween
              List.suffix_rfl ⟨tail, hrest.symm⟩
      rw [List.cons_append, cut?_cons hfront', ih h hapart.tail, Option.map_map]
      rfl

/-- A list in which the first byte of the mark does not occur has no mark. -/
theorem cut?_eq_none_of_head {mark text : List α} {c : α} (h : c ∉ text) :
    cut? (c :: mark) text = none := by
  induction text with
  | nil => simp [cut?_nil]
  | cons d text ih =>
      rw [List.mem_cons, not_or] at h
      have hfront : ¬ c :: mark <+: d :: text := fun hmark =>
        h.1 (List.cons_prefix_cons.mp hmark).1
      rw [cut?_cons hfront, ih h.2]
      rfl

/-! ## The first occurrence, without looking for it -/

/-- `before` stands in front of the leftmost occurrence of the mark, and `rest` behind it. -/
structure FirstMark (mark text before rest : List α) : Prop where
  split : text = before ++ mark ++ rest
  first : ∀ front back, text = front ++ mark ++ back → before.length ≤ front.length

omit [DecidableEq α] in
theorem FirstMark.unique {mark text before before' rest rest' : List α}
    (h : FirstMark mark text before rest) (h' : FirstMark mark text before' rest') :
    before = before' ∧ rest = rest' := by
  have hlength : before.length = before'.length :=
    le_antisymm (h.first before' rest' h'.split) (h'.first before rest h.split)
  have heq := h.split.symm.trans h'.split
  rw [List.append_assoc, List.append_assoc] at heq
  obtain ⟨hbefore, hback⟩ := List.append_inj heq hlength
  exact ⟨hbefore, List.append_cancel_left hback⟩

theorem firstMark_of_cut? {mark text before rest : List α}
    (h : cut? mark text = some (before, rest)) : FirstMark mark text before rest := by
  refine ⟨eq_of_cut? h, fun front back htext => ?_⟩
  induction text generalizing before front with
  | nil =>
      have hempty := eq_of_cut? h
      rw [List.append_assoc, eq_comm, List.append_eq_nil_iff] at hempty
      simp [hempty.1]
  | cons c text ih =>
      by_cases hfront : mark <+: c :: text
      · rw [cut?_front hfront] at h
        cases h
        exact Nat.zero_le _
      · rw [cut?_cons hfront, Option.map_eq_some_iff] at h
        obtain ⟨⟨before', after'⟩, hcut, hpair⟩ := h
        cases hpair
        cases front with
        | nil => exact absurd ⟨back, htext.symm⟩ hfront
        | cons d front => exact Nat.succ_le_succ (ih hcut front (List.cons.inj htext).2)

theorem cut?_eq_none_iff {mark text : List α} : cut? mark text = none ↔ ¬ mark <:+: text := by
  constructor
  · rintro h ⟨front, back, rfl⟩
    induction front with
    | nil =>
        cases hmark : [] ++ mark ++ back with
        | nil =>
            have hempty := (List.append_eq_nil_iff.mp (List.append_eq_nil_iff.mp hmark).1).2
            rw [hmark, cut?_nil, if_pos hempty] at h
            cases h
        | cons c text =>
            have hfront : mark <+: c :: text := ⟨back, hmark⟩
            rw [hmark, cut?_front hfront] at h
            cases h
    | cons c front ih =>
        rw [List.cons_append, List.cons_append] at h
        by_cases hfront : mark <+: c :: (front ++ mark ++ back)
        · rw [cut?_front hfront] at h
          cases h
        · rw [cut?_cons hfront, Option.map_eq_none_iff] at h
          exact ih h
  · intro h
    cases hcut : cut? mark text with
    | none => rfl
    | some cut => exact absurd ⟨cut.1, cut.2, (eq_of_cut? hcut).symm⟩ h

/-- **A cut is at the first occurrence.** -/
theorem cut?_eq_some_iff {mark text before rest : List α} :
    cut? mark text = some (before, rest) ↔ FirstMark mark text before rest := by
  refine ⟨firstMark_of_cut?, fun h => ?_⟩
  cases hcut : cut? mark text with
  | none => exact absurd ⟨before, rest, h.split.symm⟩ (cut?_eq_none_iff.mp hcut)
  | some cut =>
      obtain ⟨hbefore, hrest⟩ := (firstMark_of_cut? hcut).unique h
      rw [← hbefore, ← hrest]

/-! ## By index -/

/-- The least index from `pos` on at which the mark occurs. -/
def find (text mark : List α) (pos : Nat) : Option Nat :=
  if _hfits : pos + mark.length ≤ text.length then
    if _hno : (text.drop pos).take mark.length = mark then some pos else find text mark (pos + 1)
  else none
termination_by text.length - pos
decreasing_by
  have hpos : 0 < mark.length := by
    rw [List.length_pos_iff]
    rintro rfl
    exact _hno rfl
  omega

theorem le_of_find {text mark : List α} {pos i : Nat} (h : find text mark pos = some i) :
    pos ≤ i := by
  fun_induction find text mark pos with
  | case1 pos hfits hat =>
      cases h
      exact le_refl _
  | case2 pos hfits hno ih => exact (Nat.le_succ pos).trans (ih h)
  | case3 pos hfits => cases h

/-- Looking for a mark from an index on is cutting what is left. -/
theorem find_eq (text : List α) {mark : List α} (hmark : mark ≠ []) (pos : Nat) :
    find text mark pos = (cut? mark (text.drop pos)).map (fun cut => pos + cut.1.length) := by
  have hpos : 0 < mark.length := List.length_pos_iff.mpr hmark
  fun_induction find text mark pos with
  | case1 pos hfits hat =>
      have hprefix : mark <+: text.drop pos := List.prefix_iff_eq_take.mpr hat.symm
      cases hrest : text.drop pos with
      | nil =>
          rw [hrest] at hprefix
          exact absurd (List.prefix_nil.mp hprefix) hmark
      | cons c rest =>
          rw [hrest] at hprefix
          rw [cut?_front hprefix]
          rfl
  | case2 pos hfits hno ih =>
      have hlt : pos < text.length := by omega
      rw [ih, List.drop_eq_getElem_cons hlt]
      have hprefix : ¬ mark <+: text[pos] :: text.drop (pos + 1) := by
        rw [← List.drop_eq_getElem_cons hlt, List.prefix_iff_eq_take]
        exact fun h => hno h.symm
      rw [cut?_cons hprefix, Option.map_map]
      cases cut? mark (text.drop (pos + 1)) with
      | none => rfl
      | some cut => simp [Nat.add_assoc, Nat.add_comm 1]
  | case3 pos hfits =>
      cases hcut : cut? mark (text.drop pos) with
      | none => rfl
      | some cut =>
          -- there is no room for the mark
          have hlength := congrArg List.length (eq_of_cut? hcut)
          simp only [List.length_drop, List.length_append] at hlength
          omega

end Launcher.Lib
