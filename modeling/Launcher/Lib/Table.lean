import Mathlib.Data.List.Nodup
import Mathlib.Algebra.BigOperators.Group.List.Basic
import Mathlib.Tactic

set_option autoImplicit false

/-! # Tables with a primary key

A database table as a list of rows with pairwise distinct keys. The key is a function of the
row and part of the type, and the list carries the proof that no key occurs twice, so a
statement that would break the primary key cannot be written.

The operations are the ones SQL statements are made of: `find?` (`SELECT … WHERE key = k`),
`insert` (`INSERT … ON CONFLICT DO NOTHING`), `modify` (`UPDATE … WHERE key = k`),
`updateWhere` (`UPDATE … WHERE p`), `delete` (`DELETE … WHERE p`) and `insertAll` (an `INSERT`
of several rows that fails as a whole). -/

namespace Launcher.Lib

/-- Rows of type `ρ`, no two of them with the same `key`. -/
@[ext] structure Table {κ ρ : Type} (key : ρ → κ) where
  rows : List ρ
  nodup : (rows.map key).Nodup

namespace Table

section

variable {κ ρ : Type} {key : ρ → κ}

instance : Membership ρ (Table key) := ⟨fun t r => r ∈ t.rows⟩

theorem mem_def {t : Table key} {r : ρ} : r ∈ t ↔ r ∈ t.rows := Iff.rfl

/-- The table without rows. -/
def empty : Table key := ⟨[], List.nodup_nil⟩

/-- A key determines its row. -/
theorem eq_of_key_eq {t : Table key} {r r' : ρ} (hr : r ∈ t) (hr' : r' ∈ t)
    (h : key r = key r') : r = r' :=
  List.inj_on_of_nodup_map t.nodup hr hr' h

end

section

variable {κ ρ : Type} {key : ρ → κ} [DecidableEq κ]

/-! ## Looking up -/

def find? (t : Table key) (k : κ) : Option ρ := t.rows.find? (fun r => decide (key r = k))

theorem find?_eq_some {t : Table key} {k : κ} {r : ρ} :
    t.find? k = some r ↔ r ∈ t ∧ key r = k := by
  constructor
  · intro h
    exact ⟨List.mem_of_find?_eq_some h, by simpa using List.find?_some h⟩
  · rintro ⟨hr, hk⟩
    cases hf : t.find? k with
    | none =>
        have := List.find?_eq_none.mp hf r hr
        simp [hk] at this
    | some r' =>
        have hr' : r' ∈ t := List.mem_of_find?_eq_some hf
        have hk' : key r' = k := by simpa using List.find?_some hf
        rw [eq_of_key_eq hr' hr (hk'.trans hk.symm)]

theorem find?_eq_none {t : Table key} {k : κ} :
    t.find? k = none ↔ ∀ r ∈ t, key r ≠ k := by
  unfold find?
  rw [List.find?_eq_none]
  simp [mem_def]

theorem find?_of_mem {t : Table key} {r : ρ} (h : r ∈ t) : t.find? (key r) = some r :=
  find?_eq_some.mpr ⟨h, rfl⟩

theorem mem_of_find? {t : Table key} {k : κ} {r : ρ} (h : t.find? k = some r) : r ∈ t :=
  (find?_eq_some.mp h).1

theorem key_of_find? {t : Table key} {k : κ} {r : ρ} (h : t.find? k = some r) : key r = k :=
  (find?_eq_some.mp h).2

@[simp] theorem find?_empty (k : κ) : (empty : Table key).find? k = none := rfl

/-! ## Inserting -/

/-- Add `r`, unless its key is taken. -/
def insert (t : Table key) (r : ρ) : Table key :=
  if h : t.find? (key r) = none then
    ⟨r :: t.rows, by
      rw [List.map_cons, List.nodup_cons]
      refine ⟨?_, t.nodup⟩
      intro hm
      obtain ⟨r', hr', hk⟩ := List.mem_map.mp hm
      exact find?_eq_none.mp h r' hr' hk⟩
  else t

theorem insert_of_some {t : Table key} {r r' : ρ} (h : t.find? (key r) = some r') :
    t.insert r = t := by
  unfold insert
  rw [dif_neg (by rw [h]; exact Option.some_ne_none _)]

theorem mem_insert {t : Table key} {r : ρ} (h : t.find? (key r) = none) (r' : ρ) :
    r' ∈ t.insert r ↔ r' = r ∨ r' ∈ t := by
  unfold insert
  rw [dif_pos h]
  exact List.mem_cons

theorem mem_insert_of_mem {t : Table key} {r r' : ρ} (h : r' ∈ t) : r' ∈ t.insert r := by
  cases hf : t.find? (key r) with
  | none => exact (mem_insert hf r').mpr (Or.inr h)
  | some x => rw [insert_of_some hf]; exact h

theorem eq_or_mem_of_mem_insert {t : Table key} {r r' : ρ} (h : r' ∈ t.insert r) :
    r' = r ∨ r' ∈ t := by
  cases hf : t.find? (key r) with
  | none => exact (mem_insert hf r').mp h
  | some x => rw [insert_of_some hf] at h; exact Or.inr h

theorem mem_insert_of_ne {t : Table key} {r r' : ρ} (h : r' ≠ r) : r' ∈ t.insert r ↔ r' ∈ t :=
  ⟨fun hr' => (eq_or_mem_of_mem_insert hr').resolve_left h, mem_insert_of_mem⟩

theorem find?_insert_self {t : Table key} {r : ρ} (h : t.find? (key r) = none) :
    (t.insert r).find? (key r) = some r :=
  find?_eq_some.mpr ⟨(mem_insert h r).mpr (Or.inl rfl), rfl⟩

theorem find?_insert_ne {t : Table key} {r : ρ} {k : κ} (h : k ≠ key r) :
    (t.insert r).find? k = t.find? k := by
  cases hf : t.find? (key r) with
  | some r' => rw [insert_of_some hf]
  | none =>
      refine Option.ext (fun x => ?_)
      rw [find?_eq_some, find?_eq_some, mem_insert hf]
      constructor
      · rintro ⟨rfl | hx, hk⟩
        · exact absurd hk.symm h
        · exact ⟨hx, hk⟩
      · rintro ⟨hx, hk⟩
        exact ⟨Or.inr hx, hk⟩

theorem find?_insert (t : Table key) (r : ρ) (k : κ) :
    (t.insert r).find? k = (t.find? k).or (if key r = k then some r else none) := by
  by_cases hk : key r = k
  · subst hk
    cases hf : t.find? (key r) with
    | none => rw [find?_insert_self hf, if_pos rfl, Option.none_or]
    | some r' => rw [insert_of_some hf, hf, Option.some_or]
  · rw [find?_insert_ne (Ne.symm hk), if_neg hk, Option.or_none]

/-- Inserting one row after the other: the first row with a key stays. -/
theorem find?_foldl_insert (rs : List ρ) (k : κ) :
    ∀ t : Table key, (rs.foldl insert t).find? k
      = (t.find? k).or (rs.find? (fun r => decide (key r = k))) := by
  induction rs with
  | nil => exact fun t => (Option.or_none).symm
  | cons r rs ih =>
      intro t
      rw [List.foldl_cons, ih, find?_insert, Option.or_assoc, List.find?_cons]
      by_cases hk : key r = k
      · simp [hk]
      · simp [hk]

/-- Add all of `rs`, or nothing at all when a key would occur twice. -/
def insertAll (t : Table key) (rs : List ρ) : Option (Table key) :=
  if h : ((rs ++ t.rows).map key).Nodup then some ⟨rs ++ t.rows, h⟩ else none

theorem insertAll_rows {t t' : Table key} {rs : List ρ} (h : t.insertAll rs = some t') :
    t'.rows = rs ++ t.rows := by
  unfold insertAll at h
  split at h
  · simpa using congrArg rows (Option.some.inj h).symm
  · cases h

theorem mem_insertAll {t t' : Table key} {rs : List ρ} (h : t.insertAll rs = some t') (r : ρ) :
    r ∈ t' ↔ r ∈ rs ∨ r ∈ t := by
  rw [mem_def, insertAll_rows h, List.mem_append, mem_def]

/-! ## Updating one row -/

/-- A rewriting of rows that keeps their keys. -/
abbrev Update {κ ρ : Type} (key : ρ → κ) := { f : ρ → ρ // ∀ r, key (f r) = key r }

/-- Rewrite the row with key `k`. -/
def modify (t : Table key) (k : κ) (f : Update key) : Table key :=
  ⟨t.rows.map (fun r => if key r = k then f.1 r else r), by
    have h : (t.rows.map (fun r => if key r = k then f.1 r else r)).map key
        = t.rows.map key := by
      rw [List.map_map]
      refine List.map_congr_left (fun r _ => ?_)
      by_cases hk : key r = k
      · simp [hk, f.2]
      · simp [hk]
    rw [h]
    exact t.nodup⟩

theorem find?_modify_self {t : Table key} {k : κ} {f : Update key} :
    (t.modify k f).find? k = (t.find? k).map f.1 := by
  cases h : t.find? k with
  | none =>
      rw [Option.map_none, find?_eq_none]
      intro r hr hk
      obtain ⟨r₀, hr₀, rfl⟩ := List.mem_map.mp hr
      have hne := find?_eq_none.mp h r₀ hr₀
      simp [hne] at hk
  | some r =>
      obtain ⟨hr, hk⟩ := find?_eq_some.mp h
      rw [Option.map_some, find?_eq_some]
      refine ⟨List.mem_map.mpr ⟨r, hr, by simp [hk]⟩, by rw [f.2, hk]⟩

theorem find?_modify_ne {t : Table key} {k k' : κ} {f : Update key} (h : k' ≠ k) :
    (t.modify k f).find? k' = t.find? k' := by
  cases h' : t.find? k' with
  | none =>
      rw [find?_eq_none]
      intro r hr hk
      obtain ⟨r₀, hr₀, rfl⟩ := List.mem_map.mp hr
      refine find?_eq_none.mp h' r₀ hr₀ ?_
      by_cases hc : key r₀ = k
      · rw [if_pos hc, f.2] at hk; exact hk
      · rw [if_neg hc] at hk; exact hk
  | some r =>
      obtain ⟨hr, hk⟩ := find?_eq_some.mp h'
      rw [find?_eq_some]
      exact ⟨List.mem_map.mpr ⟨r, hr, by rw [if_neg (by rw [hk]; exact h)]⟩, hk⟩

theorem find?_modify (t : Table key) (k k' : κ) (f : Update key) :
    (t.modify k f).find? k' = if k' = k then (t.find? k).map f.1 else t.find? k' := by
  by_cases h : k' = k
  · subst h; rw [if_pos rfl, find?_modify_self]
  · rw [if_neg h, find?_modify_ne h]

/-- A row of the updated table is an updated or an untouched row of the old one. -/
theorem mem_modify {t : Table key} {k : κ} {f : Update key} {r' : ρ} :
    r' ∈ t.modify k f ↔ (∃ r ∈ t, key r = k ∧ r' = f.1 r) ∨ (r' ∈ t ∧ key r' ≠ k) := by
  constructor
  · intro h
    obtain ⟨r, hr, rfl⟩ := List.mem_map.mp h
    by_cases hk : key r = k
    · rw [if_pos hk]; exact Or.inl ⟨r, hr, hk, rfl⟩
    · rw [if_neg hk]; exact Or.inr ⟨hr, hk⟩
  · rintro (⟨r, hr, hk, rfl⟩ | ⟨hr, hk⟩)
    · exact List.mem_map.mpr ⟨r, hr, by rw [if_pos hk]⟩
    · exact List.mem_map.mpr ⟨r', hr, by rw [if_neg hk]⟩

/-- Of the rows with `p` an update of rows without `p` changes none. -/
theorem mem_modify_of_not {t : Table key} {k : κ} {f : Update key} {p : ρ → Prop}
    (h : ∀ r ∈ t, key r = k → ¬p r ∧ ¬p (f.1 r)) {r' : ρ} (hp : p r') :
    r' ∈ t.modify k f ↔ r' ∈ t := by
  rw [mem_modify]
  constructor
  · rintro (⟨r, hr, hk, rfl⟩ | ⟨hr', _⟩)
    · exact absurd hp (h r hr hk).2
    · exact hr'
  · exact fun hr' => Or.inr ⟨hr', fun hk => (h r' hr' hk).1 hp⟩

/-! ## Updating many rows -/

/-- Rewrite every row with `p`. -/
def updateWhere (t : Table key) (p : ρ → Bool) (f : Update key) : Table key :=
  ⟨t.rows.map (fun r => if p r then f.1 r else r), by
    have h : (t.rows.map (fun r => if p r then f.1 r else r)).map key = t.rows.map key := by
      rw [List.map_map]
      refine List.map_congr_left (fun r _ => ?_)
      by_cases hp : p r
      · simp [hp, f.2]
      · simp [hp]
    rw [h]
    exact t.nodup⟩

omit [DecidableEq κ] in
theorem mem_updateWhere {t : Table key} {p : ρ → Bool} {f : Update key} {r' : ρ} :
    r' ∈ t.updateWhere p f ↔ ∃ r ∈ t, r' = if p r then f.1 r else r := by
  rw [mem_def, updateWhere, List.mem_map]
  exact ⟨fun ⟨r, hr, h⟩ => ⟨r, hr, h.symm⟩, fun ⟨r, hr, h⟩ => ⟨r, hr, h.symm⟩⟩

/-! ## Deleting -/

omit [DecidableEq κ] in
private theorem nodup_filter_keys (t : Table key) (p : ρ → Bool) :
    ((t.rows.filter p).map key).Nodup :=
  t.nodup.sublist (List.filter_sublist.map key)

/-- Drop every row with `p`. -/
def delete (t : Table key) (p : ρ → Bool) : Table key :=
  ⟨t.rows.filter (fun r => !p r), nodup_filter_keys t _⟩

omit [DecidableEq κ] in
theorem mem_delete {t : Table key} {p : ρ → Bool} {r : ρ} :
    r ∈ t.delete p ↔ r ∈ t ∧ p r = false := by
  rw [mem_def, delete, List.mem_filter]
  simp [mem_def]

theorem find?_delete {t : Table key} {p : ρ → Bool} {k : κ} {r : ρ} :
    (t.delete p).find? k = some r ↔ t.find? k = some r ∧ p r = false := by
  rw [find?_eq_some, find?_eq_some, mem_delete]
  tauto

/-- Looking up among the rows that are left. -/
theorem find?_delete_eq (t : Table key) (p : ρ → Bool) (k : κ) :
    (t.delete p).find? k = (t.find? k).filter (fun r => !p r) := by
  refine Option.ext (fun r => ?_)
  rw [find?_delete, Option.filter_eq_some_iff]
  simp

omit [DecidableEq κ] in
/-- Dropping nothing. -/
theorem delete_eq_self {t : Table key} {p : ρ → Bool} (h : ∀ r ∈ t, p r = false) :
    t.delete p = t := by
  refine Table.ext (List.filter_eq_self.mpr (fun r hr => ?_))
  rw [h r hr]
  rfl

omit [DecidableEq κ] in
/-- Rewriting nothing. -/
theorem updateWhere_eq_self {t : Table key} {p : ρ → Bool} {f : Update key}
    (h : ∀ r ∈ t, p r = false) : t.updateWhere p f = t := by
  refine Table.ext ((List.map_congr_left (fun r hr => ?_)).trans (List.map_id _))
  rw [h r hr]
  rfl

/-! ## Rows over time

Keys are drawn from the ids that have been issued so far, and none is issued twice. What a row
says of its parent does not change, so a row with an old id says the same as before. -/

section Lineage

variable {π : Type} (parent : ρ → π) (issued : List κ)

/-- Every row of `t'` with an issued id was a row of `t`, with the same parent. -/
def Inherits (t t' : Table key) : Prop :=
  ∀ r' ∈ t', key r' ∈ issued → ∃ r ∈ t, key r = key r' ∧ parent r = parent r'

/-- Every id in use has been issued. -/
def Within (t : Table key) : Prop := ∀ r ∈ t, key r ∈ issued

/-- The id has been issued, and its row has the parent `p` if it is there. -/
def Fixed (t : Table key) (k : κ) (p : π) : Prop := k ∈ issued ∧ ∀ r ∈ t, key r = k → parent r = p

variable {parent issued} {t t' t'' : Table key}

omit [DecidableEq κ] in
theorem Inherits.refl : Inherits parent issued t t := fun r' hr' _ => ⟨r', hr', rfl, rfl⟩

omit [DecidableEq κ] in
theorem Inherits.trans {issued' : List κ} (hsub : ∀ k ∈ issued, k ∈ issued')
    (h : Inherits parent issued t t') (h' : Inherits parent issued' t' t'') :
    Inherits parent issued t t'' := by
  intro r'' hr'' hk
  obtain ⟨r', hr', hkey', hparent'⟩ := h' r'' hr'' (hsub _ hk)
  obtain ⟨r, hr, hkey, hparent⟩ := h r' hr' (hkey' ▸ hk)
  exact ⟨r, hr, hkey.trans hkey', hparent.trans hparent'⟩

theorem Inherits.insert {r : ρ} (hfresh : key r ∉ issued) : Inherits parent issued t (t.insert r) := by
  intro r' hr' hk
  rcases eq_or_mem_of_mem_insert hr' with rfl | hr'
  · exact absurd hk hfresh
  · exact ⟨r', hr', rfl, rfl⟩

theorem Inherits.modify {k : κ} {f : Update key}
    (hf : ∀ r ∈ t, key r = k → parent (f.1 r) = parent r) :
    Inherits parent issued t (t.modify k f) := by
  intro r' hr' _
  rcases mem_modify.mp hr' with ⟨r, hr, hk, rfl⟩ | ⟨hr', _⟩
  · exact ⟨r, hr, (f.2 r).symm, (hf r hr hk).symm⟩
  · exact ⟨r', hr', rfl, rfl⟩

omit [DecidableEq κ] in
theorem Inherits.delete {p : ρ → Bool} : Inherits parent issued t (t.delete p) :=
  fun r' hr' _ => ⟨r', (mem_delete.mp hr').1, rfl, rfl⟩

omit [DecidableEq κ] in
theorem Inherits.updateWhere {p : ρ → Bool} {f : Update key} (hf : ∀ r, parent (f.1 r) = parent r) :
    Inherits parent issued t (t.updateWhere p f) := by
  intro r' hr' _
  obtain ⟨r, hr, rfl⟩ := mem_updateWhere.mp hr'
  refine ⟨r, hr, ?_⟩
  split
  · exact ⟨(f.2 r).symm, (hf r).symm⟩
  · exact ⟨rfl, rfl⟩

omit [DecidableEq κ] in
theorem Within.mono {issued' : List κ} (h : Within issued t) (hsub : ∀ k ∈ issued, k ∈ issued') :
    Within issued' t := fun r hr => hsub _ (h r hr)

theorem Within.insert {r : ρ} (h : Within issued t) : Within (key r :: issued) (t.insert r) := by
  intro r' hr'
  rcases eq_or_mem_of_mem_insert hr' with rfl | hr'
  · exact List.mem_cons_self
  · exact List.mem_cons_of_mem _ (h r' hr')

theorem Within.modify {k : κ} {f : Update key} (h : Within issued t) :
    Within issued (t.modify k f) := by
  intro r' hr'
  rcases mem_modify.mp hr' with ⟨r, hr, _, rfl⟩ | ⟨hr', _⟩
  · rw [f.2]
    exact h r hr
  · exact h r' hr'

omit [DecidableEq κ] in
theorem Within.delete {p : ρ → Bool} (h : Within issued t) : Within issued (t.delete p) :=
  fun r hr => h r (mem_delete.mp hr).1

omit [DecidableEq κ] in
theorem Within.updateWhere {p : ρ → Bool} {f : Update key} (h : Within issued t) :
    Within issued (t.updateWhere p f) := by
  intro r' hr'
  obtain ⟨r, hr, rfl⟩ := mem_updateWhere.mp hr'
  split
  · rw [f.2]
    exact h r hr
  · exact h r hr

variable (parent) in
theorem Fixed.of_find? {k : κ} {r : ρ} (hk : k ∈ issued) (h : t.find? k = some r) :
    Fixed parent issued t k (parent r) := by
  refine ⟨hk, fun r' hr' hk' => ?_⟩
  obtain ⟨hr, hkey⟩ := find?_eq_some.mp h
  rw [eq_of_key_eq hr' hr (hk'.trans hkey.symm)]

omit [DecidableEq κ] in
/-- What is fixed stays fixed. -/
theorem Fixed.inherits {issued' : List κ} {k : κ} {p : π} (h : Fixed parent issued t k p)
    (hsub : ∀ k ∈ issued, k ∈ issued') (ht : Inherits parent issued t t') :
    Fixed parent issued' t' k p := by
  refine ⟨hsub k h.1, fun r' hr' hk => ?_⟩
  obtain ⟨r, hr, hkey, hparent⟩ := ht r' hr' (hk ▸ h.1)
  exact hparent.symm.trans (h.2 r hr (hkey.trans hk))

theorem Fixed.eq_of_find? {k : κ} {p : π} {r : ρ} (h : Fixed parent issued t k p)
    (hr : t.find? k = some r) : parent r = p :=
  h.2 r (mem_of_find? hr) (key_of_find? hr)

end Lineage

/-! ## Sums over a table -/

/-- The sum of `w` over all rows. -/
def sum (t : Table key) (w : ρ → Nat) : Nat := (t.rows.map w).sum

theorem sum_insert {t : Table key} {r : ρ} (h : t.find? (key r) = none) (w : ρ → Nat) :
    (t.insert r).sum w = w r + t.sum w := by
  unfold insert
  rw [dif_pos h]
  simp [sum]

omit [DecidableEq κ] in
private theorem sum_filter_key_ne {w : ρ → Nat} {p : ρ → Bool} :
    ∀ {l : List ρ} {r : ρ}, (l.map key).Nodup → r ∈ l →
      (∀ x ∈ l, p x = true ↔ key x = key r) →
      ((l.filter (fun x => !p x)).map w).sum + w r = (l.map w).sum
  | [], _, _, hr, _ => by cases hr
  | x :: l, r, hnd, hr, hp => by
      rw [List.map_cons, List.nodup_cons] at hnd
      rcases List.mem_cons.mp hr with rfl | hr'
      · have hx : p r = true := (hp r (by simp)).mpr rfl
        have hrest : l.filter (fun x => !p x) = l := by
          refine List.filter_eq_self.mpr (fun y hy => ?_)
          have hne : key y ≠ key r := fun he => hnd.1 (List.mem_map.mpr ⟨y, hy, he⟩)
          have : p y ≠ true := fun h => hne ((hp y (by simp [hy])).mp h)
          simpa using this
        rw [List.filter_cons_of_neg (by simp [hx]), hrest, List.map_cons, List.sum_cons,
          Nat.add_comm]
      · have hx : p x ≠ true := by
          intro h
          have hk : key x = key r := (hp x (by simp)).mp h
          exact hnd.1 (List.mem_map.mpr ⟨r, hr', hk.symm⟩)
        have ih := sum_filter_key_ne (w := w) hnd.2 hr' (fun y hy => hp y (by simp [hy]))
        rw [List.filter_cons_of_pos (by simp [hx]), List.map_cons, List.sum_cons, List.map_cons,
          List.sum_cons]
        omega

omit [DecidableEq κ] in
/-- Deleting exactly the row `r` takes exactly its summand away. -/
theorem sum_delete {t : Table key} {r : ρ} {p : ρ → Bool} (hr : r ∈ t)
    (hp : ∀ x ∈ t, p x = true ↔ key x = key r) (w : ρ → Nat) :
    (t.delete p).sum w + w r = t.sum w :=
  sum_filter_key_ne t.nodup hr hp

end

end Table

end Launcher.Lib
