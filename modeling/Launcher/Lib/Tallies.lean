import Mathlib.Algebra.BigOperators.Group.List.Basic
import Mathlib.Tactic

set_option autoImplicit false

/-! # Tallies

What `count` and `sum` with a filter make of the rows of a table. The tallies of the groups of a
`GROUP BY` add up to that of all rows with one of the keys (`tally_groups`). Two filters tally alike
if and only if what only the one admits tallies like what only the other admits
(`tally_eq_iff`). -/

namespace Launcher.Lib

variable {α κ : Type}

/-- `sum(f) FILTER (WHERE p)`; `count(*)` where every row weighs one. -/
def tally (f : α → Int) (p : α → Bool) (rows : List α) : Int := ((rows.filter p).map f).sum

section Tally

variable {f : α → Int} {p q : α → Bool} {rows : List α}

@[simp] theorem tally_nil : tally f p [] = 0 := rfl

theorem tally_cons (a : α) : tally f p (a :: rows) = (if p a then f a else 0) + tally f p rows := by
  unfold tally
  rw [List.filter_cons]
  split_ifs <;> simp

theorem tally_count (p : α → Bool) (rows : List α) :
    tally (fun _ => 1) p rows = (rows.filter p).length := by
  simp [tally]

theorem tally_congr (h : ∀ a ∈ rows, p a = q a) : tally f p rows = tally f q rows := by
  unfold tally
  rw [List.filter_congr h]

/-- Two filters that admit every row equally often, together. -/
theorem tally_balance {p' q' : α → Bool}
    (h : ∀ a ∈ rows, (p a).toNat + (p' a).toNat = (q a).toNat + (q' a).toNat) :
    tally f p rows + tally f p' rows = tally f q rows + tally f q' rows := by
  induction rows with
  | nil => rfl
  | cons a rows ih =>
      have hhead := h a List.mem_cons_self
      have htail := ih (fun b hb => h b (List.mem_cons_of_mem a hb))
      simp only [tally_cons]
      cases hp : p a <;> cases hp' : p' a <;> cases hq : q a <;> cases hq' : q' a <;>
        simp [hp, hp', hq, hq'] at hhead ⊢ <;> omega

theorem tally_eq_iff : tally f p rows = tally f q rows ↔
    tally f (fun a => p a && !q a) rows = tally f (fun a => q a && !p a) rows := by
  have hbalance := @tally_balance α f p q rows (fun a => q a && !p a) (fun a => p a && !q a)
    (fun a _ => by cases p a <;> cases q a <;> rfl)
  omega

end Tally

section Groups

variable [DecidableEq κ]

/-- A row is in the group of its key alone. -/
theorem sum_own_key {keys : List κ} (hkeys : keys.Nodup) (k : κ) (x : Int) :
    (keys.map (fun k' => if k = k' then x else 0)).sum = if k ∈ keys then x else 0 := by
  induction keys with
  | nil => rfl
  | cons k' keys ih =>
      obtain ⟨hfresh, hkeys⟩ := List.nodup_cons.mp hkeys
      rw [List.map_cons, List.sum_cons, ih hkeys]
      by_cases hk : k = k'
      · subst hk
        simp [hfresh]
      · simp [hk]

/-- **The groups of a `GROUP BY` add up.** -/
theorem tally_groups (f : α → Int) (p : α → Bool) (key : α → κ) {keys : List κ}
    (hkeys : keys.Nodup) (rows : List α) :
    (keys.map (fun k => tally f (fun a => p a && decide (key a = k)) rows)).sum =
      tally f (fun a => p a && decide (key a ∈ keys)) rows := by
  induction rows with
  | nil => simp
  | cons a rows ih =>
      simp only [tally_cons, List.sum_map_add, ih]
      congr 1
      cases p a with
      | false => simp
      | true => simpa using sum_own_key hkeys (key a) (f a)

/-- Where every row that is admitted has its group, they add up to the whole. -/
theorem tally_all_groups (f : α → Int) (p : α → Bool) (key : α → κ) {keys : List κ}
    (hkeys : keys.Nodup) {rows : List α} (h : ∀ a ∈ rows, p a = true → key a ∈ keys) :
    (keys.map (fun k => tally f (fun a => p a && decide (key a = k)) rows)).sum =
      tally f p rows := by
  rw [tally_groups f p key hkeys]
  refine tally_congr (fun a ha => ?_)
  cases hp : p a with
  | false => rfl
  | true => exact decide_eq_true (h a ha hp)

end Groups

end Launcher.Lib
