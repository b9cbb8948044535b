import Mathlib.Order.Interval.Set.Basic
import Mathlib.Data.Set.Lattice
import Mathlib.Tactic
import Mathlib.Order.CompletePartialOrder

set_option autoImplicit false

/-! # Consecutive ranges

A list of ranges *tiles* the interval from `a` to `b` when the first starts at `a`, each next
one starts where the one before ended, and the last ends at `b`. Ranges that tile an interval
are pairwise disjoint and their union is the interval. -/

namespace Launcher.Lib

/-- The positions `offset`, …, `offset + length - 1`. -/
structure Range where
  offset : Nat
  length : Nat
  deriving DecidableEq, Repr

namespace Range

def toSet (r : Range) : Set Nat := Set.Ico r.offset (r.offset + r.length)

theorem mem_toSet {r : Range} {x : Nat} :
    x ∈ r.toSet ↔ r.offset ≤ x ∧ x < r.offset + r.length := Iff.rfl

end Range

def Tiles : Nat → List Range → Nat → Prop
  | a, [], b => a = b
  | a, r :: rs, b => r.offset = a ∧ Tiles (a + r.length) rs b

namespace Tiles

theorem le : ∀ {rs : List Range} {a b : Nat}, Tiles a rs b → a ≤ b
  | [], _, _, h => Nat.le_of_eq h
  | r :: rs, a, b, h => by
      have ih : a + r.length ≤ b := le h.2
      omega

/-- One more range at the end. -/
theorem snoc : ∀ {rs : List Range} {a b : Nat}, Tiles a rs b → ∀ n,
    Tiles a (rs ++ [⟨b, n⟩]) (b + n)
  | [], a, b, h, n => by
      have hab : a = b := h
      subst hab
      exact ⟨rfl, rfl⟩
  | r :: rs, _, _, h, n => ⟨h.1, snoc h.2 n⟩

theorem mem_bounds : ∀ {rs : List Range} {a b : Nat}, Tiles a rs b → ∀ r ∈ rs,
    a ≤ r.offset ∧ r.offset + r.length ≤ b
  | r :: rs, a, b, h, x, hx => by
      have hle : a + r.length ≤ b := le h.2
      have hr : r.offset = a := h.1
      rcases List.mem_cons.mp hx with rfl | hx
      · omega
      · have ih : a + r.length ≤ x.offset ∧ x.offset + x.length ≤ b := mem_bounds h.2 x hx
        omega

theorem disjoint {rs : List Range} {a b : Nat} (h : Tiles a rs b) :
    rs.Pairwise (fun r r' => Disjoint r.toSet r'.toSet) := by
  induction rs generalizing a with
  | nil => exact List.Pairwise.nil
  | cons r rs ih =>
      refine List.Pairwise.cons (fun r' hr' => ?_) (ih h.2)
      have hr : r.offset = a := h.1
      have hb : a + r.length ≤ r'.offset ∧ r'.offset + r'.length ≤ b := mem_bounds h.2 r' hr'
      rw [Set.disjoint_left]
      intro x hx hx'
      rw [Range.mem_toSet] at hx hx'
      omega

theorem mem_iff {rs : List Range} {a b : Nat} (h : Tiles a rs b) (x : Nat) :
    (∃ r ∈ rs, x ∈ r.toSet) ↔ a ≤ x ∧ x < b := by
  induction rs generalizing a with
  | nil =>
      have hab : a = b := h
      simp only [List.not_mem_nil, false_and, exists_false, false_iff]
      omega
  | cons r rs ih =>
      have hr : r.offset = a := h.1
      have hle : a + r.length ≤ b := le h.2
      have hrest : (∃ r' ∈ rs, x ∈ r'.toSet) ↔ a + r.length ≤ x ∧ x < b := ih h.2
      rw [List.exists_mem_cons_iff, hrest, Range.mem_toSet]
      omega

theorem iUnion {rs : List Range} {a b : Nat} (h : Tiles a rs b) :
    ⋃ r ∈ rs, r.toSet = Set.Ico a b := by
  ext x
  rw [Set.mem_Ico, ← h.mem_iff x]
  simp only [Set.mem_iUnion, exists_prop]

/-- Empty ranges can be left out. -/
theorem filter_nonempty {rs : List Range} {a b : Nat} (h : Tiles a rs b) :
    Tiles a (rs.filter (fun r => decide (0 < r.length))) b := by
  induction rs generalizing a with
  | nil => exact h
  | cons r rs ih =>
      by_cases hr : 0 < r.length
      · rw [List.filter_cons_of_pos (by simpa using hr)]
        exact ⟨h.1, ih h.2⟩
      · have hzero : r.length = 0 := by omega
        have hrest : Tiles (a + r.length) rs b := h.2
        rw [hzero, Nat.add_zero] at hrest
        rw [List.filter_cons_of_neg (by simpa using hr)]
        exact ih hrest

end Tiles

end Launcher.Lib
