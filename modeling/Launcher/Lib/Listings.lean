import Mathlib.Data.List.Perm.Basic
import Mathlib.Data.List.Range
import Mathlib.Data.List.Sort
import Mathlib.Tactic

set_option autoImplicit false

/-! # Listings

`ORDER BY`, `LIMIT` and `OFFSET`. The pages of a size, one behind the other, are the rows
themselves (`pages_all`). The order leaves the database no choice when rows that are level are the
same row (`OrderedBy.unique`): only then are the pages of two queries pages of one list. -/

namespace Launcher.Lib

variable {α : Type}

/-- `LIMIT` and `OFFSET`. -/
def window (limit offset : Nat) (rows : List α) : List α := (rows.drop offset).take limit

theorem pages_taken (rows : List α) (limit n : Nat) :
    (List.range n).flatMap (fun k => window limit (k * limit) rows) = rows.take (n * limit) := by
  induction n with
  | zero => simp
  | succ n ih =>
      rw [List.range_succ, List.flatMap_append, ih, Nat.succ_mul, List.take_add]
      simp [window]

/-- Enough pages have every row, each once and in order. -/
theorem pages_all {rows : List α} {limit n : Nat} (h : rows.length ≤ n * limit) :
    (List.range n).flatMap (fun k => window limit (k * limit) rows) = rows := by
  rw [pages_taken, List.take_of_length_le h]

theorem window_map {β : Type} (f : α → β) (limit offset : Nat) (rows : List α) :
    (window limit offset rows).map f = window limit offset (rows.map f) := by
  rw [window, window, List.map_take, List.map_drop]

/-! Where the size of a page is a signed number, of which only positive ones are asked for. -/

section Signed

variable {limit : Int}

theorem offset_toNat (h : 0 < limit) (k : Nat) :
    (max ((k : Int) * limit) 0).toNat = k * limit.toNat := by
  rw [max_eq_left (mul_nonneg (Int.natCast_nonneg k) h.le), Int.toNat_mul (by omega) h.le,
    Int.toNat_natCast]

theorem pages_all_signed (h : 0 < limit) {rows : List α} {n : Nat}
    (hn : (rows.length : Int) ≤ n * limit) :
    (List.range n).flatMap (fun k => window limit.toNat (k * limit.toNat) rows) = rows := by
  have hcast : ((limit.toNat : Nat) : Int) = limit := Int.toNat_of_nonneg h.le
  rw [← hcast] at hn
  exact pages_all (by exact_mod_cast hn)

end Signed

/-! ## The order -/

/-- An answer that `ORDER BY` allows: the same rows, none before one that it has to follow. -/
structure OrderedBy (le : α → α → Prop) (rows answer : List α) : Prop where
  perm : answer.Perm rows
  sorted : answer.Pairwise le

theorem OrderedBy.unique {le : α → α → Prop} {rows answer answer' : List α}
    (hlevel : ∀ a ∈ rows, ∀ b ∈ rows, le a b → le b a → a = b)
    (h : OrderedBy le rows answer) (h' : OrderedBy le rows answer') : answer = answer' := by
  refine (h.perm.trans h'.perm.symm).eq_of_pairwise ?_ h.sorted h'.sorted
  exact fun a b ha hb => hlevel a (h.perm.mem_iff.mp ha) b (h'.perm.mem_iff.mp hb)

/-! ## The columns of an `ORDER BY` -/

/-- Any two rows compare. Different rows may be level. -/
structure Orders (le : α → α → Bool) : Prop where
  total : ∀ a b, le a b = true ∨ le b a = true
  trans : ∀ a b c, le a b = true → le b c = true → le a c = true

/-- `ORDER BY key`. -/
def ascending (key : α → Nat) (a b : α) : Bool := decide (key a ≤ key b)

/-- `ORDER BY key DESC`. -/
def descending (key : α → Nat) (a b : α) : Bool := decide (key b ≤ key a)

/-- `ORDER BY x, y`: where two rows are level in `x`, `y` decides. -/
def thenBy (le le' : α → α → Bool) (a b : α) : Bool := le a b && (!le b a || le' a b)

section Columns

variable {le le' : α → α → Bool}

theorem Orders.refl (h : Orders le) (a : α) : le a a = true := (h.total a a).elim id id

theorem orders_ascending (key : α → Nat) : Orders (ascending key) := by
  constructor
  · intro a b
    simp only [ascending, decide_eq_true_eq]
    omega
  · intro a b c
    simp only [ascending, decide_eq_true_eq]
    omega

theorem orders_descending (key : α → Nat) : Orders (descending key) := by
  constructor
  · intro a b
    simp only [descending, decide_eq_true_eq]
    omega
  · intro a b c
    simp only [descending, decide_eq_true_eq]
    omega

theorem thenBy_iff {a b : α} :
    thenBy le le' a b = true ↔ le a b = true ∧ (le b a = true → le' a b = true) := by
  rw [thenBy, Bool.and_eq_true, Bool.or_eq_true, Bool.not_eq_true']
  cases le b a <;> simp

theorem thenBy_level {a b : α} (h : thenBy le le' a b = true) (h' : thenBy le le' b a = true) :
    (le a b = true ∧ le b a = true) ∧ le' a b = true ∧ le' b a = true := by
  rw [thenBy_iff] at h h'
  exact ⟨⟨h.1, h'.1⟩, h.2 h'.1, h'.2 h.1⟩

theorem Orders.on {β : Type} (h : Orders le) (f : β → α) : Orders (fun a b => le (f a) (f b)) :=
  ⟨fun a b => h.total (f a) (f b), fun a b c => h.trans (f a) (f b) (f c)⟩

theorem Orders.thenBy (h : Orders le) (h' : Orders le') : Orders (thenBy le le') := by
  constructor
  · intro a b
    simp only [thenBy_iff]
    have hab := h.total a b
    have hab' := h'.total a b
    tauto
  · intro a b c hab hbc
    rw [thenBy_iff] at hab hbc ⊢
    refine ⟨h.trans a b c hab.1 hbc.1, fun hca => ?_⟩
    -- level ends make the middle level with both
    have hba := h.trans b c a hbc.1 hca
    have hcb := h.trans c a b hca hab.1
    exact h'.trans a b c (hab.2 hba) (hbc.2 hcb)

/-- A total order leaves exactly one answer. -/
theorem orderedBy_iff {rows answer : List α} (h : Orders le)
    (hlevel : ∀ a ∈ rows, ∀ b ∈ rows, le a b = true → le b a = true → a = b) :
    OrderedBy (fun a b => le a b = true) rows answer ↔
      answer = rows.insertionSort (fun a b => le a b = true) := by
  have : Std.Total (fun a b => le a b = true) := ⟨h.total⟩
  have : IsTrans α (fun a b => le a b = true) := ⟨h.trans⟩
  have hsorted : OrderedBy (fun a b => le a b = true) rows
      (rows.insertionSort (fun a b => le a b = true)) :=
    ⟨List.perm_insertionSort _ rows, List.pairwise_insertionSort _ rows⟩
  exact ⟨fun hanswer => hanswer.unique hlevel hsorted, fun hanswer => hanswer ▸ hsorted⟩

end Columns

theorem OrderedBy.head {le : α → α → Prop} {rows answer : List α} {a : α}
    (h : OrderedBy le rows (a :: answer)) (hrefl : le a a) : ∀ b ∈ rows, le a b := by
  intro b hb
  rcases List.mem_cons.mp (h.perm.mem_iff.mpr hb) with rfl | hb
  · exact hrefl
  · exact List.rel_of_pairwise_cons h.sorted hb

theorem OrderedBy.getLast {le : α → α → Prop} {rows answer : List α} {a : α}
    (h : OrderedBy le rows (answer ++ [a])) (hrefl : le a a) : ∀ b ∈ rows, le b a := by
  intro b hb
  rcases List.mem_append.mp (h.perm.mem_iff.mpr hb) with hb | hb
  · exact (List.pairwise_append.mp h.sorted).2.2 b hb a (List.mem_singleton_self a)
  · rw [List.mem_singleton.mp hb]
    exact hrefl

/-! ## `DISTINCT ON` -/

section DistinctOn

variable {κ : Type} [DecidableEq κ]

/-- The first row of each run of rows with one key. -/
def distinctOn (key : α → κ) (rows : List α) : List α :=
  rows.foldr (fun a firsts => a :: firsts.dropWhile (fun b => key b = key a)) []

variable {key : α → κ} {rows : List α}

theorem distinctOn_cons (a : α) : distinctOn key (a :: rows) =
    a :: (distinctOn key rows).dropWhile (fun b => key b = key a) := rfl

theorem distinctOn_sublist (rows : List α) : (distinctOn key rows).Sublist rows := by
  induction rows with
  | nil => exact List.Sublist.refl _
  | cons a rows ih =>
      rw [distinctOn_cons]
      exact ((List.dropWhile_sublist _).trans ih).cons_cons a

/-- What `dropWhile` drops. -/
theorem mem_dropWhile_or {p : α → Bool} {a : α} (h : a ∈ rows) :
    a ∈ rows.dropWhile p ∨ p a = true := by
  induction rows with
  | nil => cases h
  | cons b rows ih =>
      cases hb : p b with
      | false =>
          rw [List.dropWhile_cons_of_neg (by simp [hb])]
          exact .inl h
      | true =>
          rw [List.dropWhile_cons_of_pos hb]
          rcases List.mem_cons.mp h with rfl | h
          · exact .inr hb
          · exact ih h

/-- No key is lost. -/
theorem exists_mem_distinctOn {b : α} (hb : b ∈ rows) :
    ∃ a ∈ distinctOn key rows, key a = key b := by
  induction rows with
  | nil => cases hb
  | cons c rows ih =>
      rw [distinctOn_cons]
      by_cases hkey : key b = key c
      · exact ⟨c, List.mem_cons_self, hkey.symm⟩
      · have hb := (List.mem_cons.mp hb).resolve_left (fun h => hkey (congrArg key h))
        obtain ⟨a, ha, hab⟩ := ih hb
        rcases mem_dropWhile_or (p := fun b => decide (key b = key c)) ha with ha | ha
        · exact ⟨a, List.mem_cons_of_mem c ha, hab⟩
        · exact absurd (hab.symm.trans (of_decide_eq_true ha)) hkey

section Sorted

variable {le : α → α → Prop} {keyLe : κ → κ → Prop}

/-- In an answer that is ordered by the key first, the rows of a key are next to each other, so a
key has one first row. -/
theorem distinctOn_keys (hkey : ∀ a b, le a b → keyLe (key a) (key b))
    (hantisymm : ∀ k k', keyLe k k' → keyLe k' k → k = k') (h : rows.Pairwise le) :
    (distinctOn key rows).Pairwise (fun a b => key a ≠ key b) := by
  induction rows with
  | nil => exact List.Pairwise.nil
  | cons a rows ih =>
      obtain ⟨hhead, hrows⟩ := List.pairwise_cons.mp h
      have hkeys := ih hrows
      have hsublist : (distinctOn key rows).Sublist rows := distinctOn_sublist rows
      have hsorted := hrows.sublist hsublist
      have hsubset := hsublist.subset
      rw [distinctOn_cons]
      refine List.pairwise_cons.mpr ⟨fun c hc hac => ?_, hkeys.sublist (List.dropWhile_sublist _)⟩
      cases hfirsts : distinctOn key rows with
      | nil =>
          rw [hfirsts] at hc
          cases hc
      | cons d firsts =>
          rw [hfirsts] at hc hkeys hsorted hsubset
          by_cases hd : key d = key a
          · -- the first row of the same key is dropped, and there is no other
            rw [List.dropWhile_cons_of_pos (by simpa using hd)] at hc
            have hc := (List.dropWhile_sublist _).subset hc
            exact List.rel_of_pairwise_cons hkeys hc (hd.trans hac)
          · rw [List.dropWhile_cons_of_neg (by simpa using hd)] at hc
            have had := hkey a d (hhead d (hsubset List.mem_cons_self))
            rcases List.mem_cons.mp hc with rfl | hc
            · exact hd hac.symm
            · have hdc := hkey d c (List.rel_of_pairwise_cons hsorted hc)
              rw [← hac] at hdc
              exact hd (hantisymm _ _ hdc had)

/-- It comes before every row of its key. -/
theorem distinctOn_first (hkey : ∀ a b, le a b → keyLe (key a) (key b))
    (hantisymm : ∀ k k', keyLe k k' → keyLe k' k → k = k') (hrefl : ∀ a, le a a)
    (h : rows.Pairwise le) {a b : α} (ha : a ∈ distinctOn key rows) (hb : b ∈ rows)
    (hab : key b = key a) : le a b := by
  induction rows with
  | nil => cases hb
  | cons c rows ih =>
      obtain ⟨hhead, hrows⟩ := List.pairwise_cons.mp h
      have hkeys := distinctOn_keys hkey hantisymm h
      rw [distinctOn_cons] at ha hkeys
      rcases List.mem_cons.mp ha with rfl | ha
      · rcases List.mem_cons.mp hb with rfl | hb
        · exact hrefl _
        · exact hhead b hb
      · rcases List.mem_cons.mp hb with rfl | hb
        · exact absurd hab (List.rel_of_pairwise_cons hkeys ha)
        · exact ih hrows ((List.dropWhile_sublist _).subset ha) hb

end Sorted

end DistinctOn

/-! ## `JOIN` -/

section Join

variable {β κ : Type}

/-- `JOIN … ON`. -/
def join (on : α → β → Bool) (as : List α) (bs : List β) : List (α × β) :=
  as.flatMap (fun a => (bs.filter (on a)).map (fun b => (a, b)))

/-- Joined on a key that every row finds exactly once, each row has its partner. -/
theorem join_key [DecidableEq κ] {key : α → κ} {on : α → β → Bool} {partner : κ → β} {keys : List κ}
    (hkeys : keys.Nodup) (hon : ∀ a k, on a (partner k) = decide (k = key a)) {as : List α}
    (has : ∀ a ∈ as, key a ∈ keys) :
    join on as (keys.map partner) = as.map (fun a => (a, partner (key a))) := by
  induction as with
  | nil => rfl
  | cons a as ih =>
      have hone : keys.filter (fun k => on a (partner k)) = [key a] := by
        rw [funext (hon a), List.filter_eq,
          List.count_eq_one_of_mem hkeys (has a List.mem_cons_self)]
        rfl
      have hrest := ih (fun b hb => has b (List.mem_cons_of_mem a hb))
      rw [join] at hrest ⊢
      rw [List.flatMap_cons, List.filter_map, List.map_cons, hrest]
      show ((keys.filter (fun k => on a (partner k))).map partner).map _ ++ _ = _
      rw [hone]
      rfl

end Join

/-! ## Reading the rows of an answer -/

/-- Where reading a row keeps a column, reading all of them keeps it. -/
theorem map_of_mapM {β γ : Type} {f : α → Option β} {g : β → γ} {g' : α → γ}
    (h : ∀ a b, f a = some b → g b = g' a) {rows : List α} {results : List β}
    (hread : rows.mapM f = some results) : results.map g = rows.map g' := by
  induction rows generalizing results with
  | nil =>
      obtain rfl := Option.some.inj hread
      rfl
  | cons a rows ih =>
      rw [List.mapM_cons] at hread
      obtain ⟨b, hb, hread⟩ := Option.bind_eq_some_iff.mp hread
      obtain ⟨bs, hbs, hread⟩ := Option.bind_eq_some_iff.mp hread
      obtain rfl := Option.some.inj hread
      rw [List.map_cons, List.map_cons, ih hbs, h a b hb]

end Launcher.Lib
