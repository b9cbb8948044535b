import Mathlib.Tactic
import Mathlib.Data.List.Lex

set_option autoImplicit false

/-! # Numerals as texts and as numbers

A numeral is a list of digits, the most significant first; `value` is the number it denotes.
Leading zeros do not change the number (`value_significant`), and between numerals without
leading zeros the number order is the order by length and then by the first difference
(`value_lt_iff`). The digits are elements of any ordered type, with a strictly monotone
valuation on those that occur. -/

namespace Launcher.Lib.Numerals

variable {α : Type} (base : Nat) (digit : α → Nat)

def value (numeral : List α) : Nat := numeral.foldl (fun n a => n * base + digit a) 0

theorem foldl_value (numeral : List α) (n : Nat) :
    numeral.foldl (fun n a => n * base + digit a) n
      = n * base ^ numeral.length + value base digit numeral := by
  induction numeral generalizing n with
  | nil => simp [value]
  | cons a rest ih =>
      rw [value, List.foldl_cons, List.foldl_cons, ih, ih (0 * base + digit a), List.length_cons,
        pow_succ]
      ring

theorem value_cons (a : α) (rest : List α) :
    value base digit (a :: rest) = digit a * base ^ rest.length + value base digit rest := by
  rw [value, List.foldl_cons, foldl_value]
  simp

/-- The numeral without its leading zeros. -/
def significant (numeral : List α) : List α := numeral.dropWhile (fun a => digit a == 0)

theorem value_significant (numeral : List α) :
    value base digit (significant digit numeral) = value base digit numeral := by
  induction numeral with
  | nil => rfl
  | cons a rest ih =>
      by_cases hzero : digit a = 0
      · rw [value_cons, hzero, Nat.zero_mul, Nat.zero_add, ← ih]
        simp [significant, hzero]
      · simp [significant, hzero]

theorem mem_significant {numeral : List α} {a : α} (h : a ∈ significant digit numeral) :
    a ∈ numeral :=
  (List.dropWhile_suffix _).subset h

/-- Fewer digits, or as many and a smaller one at the first difference. -/
def Precedes [LT α] (numeral other : List α) : Prop :=
  numeral.length < other.length ∨ numeral.length = other.length ∧ numeral < other

section Valued

variable {base digit} {s : Set α} {numeral other : List α}

theorem value_lt_pow (hs : ∀ a ∈ s, digit a < base) (h : ∀ a ∈ numeral, a ∈ s) :
    value base digit numeral < base ^ numeral.length := by
  induction numeral with
  | nil => simp [value]
  | cons a rest ih =>
      have hrest := ih (fun x hx => h x (List.mem_cons_of_mem _ hx))
      have ha : digit a + 1 ≤ base := hs a (h a List.mem_cons_self)
      calc value base digit (a :: rest)
          = digit a * base ^ rest.length + value base digit rest := value_cons base digit a rest
        _ < digit a * base ^ rest.length + base ^ rest.length := by omega
        _ = (digit a + 1) * base ^ rest.length := by ring
        _ ≤ base * base ^ rest.length := Nat.mul_le_mul_right _ ha
        _ = base ^ (a :: rest).length := by rw [List.length_cons, pow_succ]; ring

/-- A numeral that begins with no zero is at least the power of its length less one. -/
theorem pow_le_value {a : α} {rest : List α} (ha : digit a ≠ 0) :
    base ^ rest.length ≤ value base digit (a :: rest) := by
  rw [value_cons]
  calc base ^ rest.length = 1 * base ^ rest.length := (Nat.one_mul _).symm
    _ ≤ digit a * base ^ rest.length := Nat.mul_le_mul_right _ (by omega)
    _ ≤ digit a * base ^ rest.length + value base digit rest := Nat.le_add_right _ _

/-- Of two numerals without leading zeros, the shorter denotes the smaller number. -/
theorem value_lt_of_length_lt (hs : ∀ a ∈ s, digit a < base) (h : ∀ a ∈ numeral, a ∈ s)
    (h' : ∀ a ∈ other, a ∈ s) (hhead : ∀ a, other.head? = some a → digit a ≠ 0)
    (hlt : numeral.length < other.length) :
    value base digit numeral < value base digit other := by
  cases other with
  | nil => simp at hlt
  | cons b rest =>
      have hb : digit b < base := hs b (h' b List.mem_cons_self)
      have hlength : numeral.length ≤ rest.length := by
        rw [List.length_cons] at hlt
        omega
      calc value base digit numeral < base ^ numeral.length := value_lt_pow hs h
        _ ≤ base ^ rest.length := Nat.pow_le_pow_right (by omega) hlength
        _ ≤ value base digit (b :: rest) := pow_le_value (hhead b rfl)

/-- Numerals of one length compare as texts. -/
theorem value_lt_iff_of_length_eq [LinearOrder α] (hs : ∀ a ∈ s, digit a < base)
    (hmono : StrictMonoOn digit s) (h : ∀ a ∈ numeral, a ∈ s) (h' : ∀ a ∈ other, a ∈ s)
    (hlength : numeral.length = other.length) :
    value base digit numeral < value base digit other ↔ numeral < other := by
  induction numeral generalizing other with
  | nil =>
      rw [List.eq_nil_of_length_eq_zero hlength.symm]
      simp
  | cons a rest ih =>
      cases other with
      | nil => simp at hlength
      | cons b rest' =>
          have hlen : rest.length = rest'.length := by simpa using hlength
          have hrest := value_lt_pow hs (fun x hx => h x (List.mem_cons_of_mem _ hx))
          have hrest' := value_lt_pow hs (fun x hx => h' x (List.mem_cons_of_mem _ hx))
          have hih := ih (fun x hx => h x (List.mem_cons_of_mem _ hx))
            (fun x hx => h' x (List.mem_cons_of_mem _ hx)) hlen
          have ha : a ∈ s := h a List.mem_cons_self
          have hb : b ∈ s := h' b List.mem_cons_self
          rw [value_cons, value_cons, hlen, List.cons_lt_cons_iff]
          rw [hlen] at hrest
          -- one more in this place outweighs whatever follows
          rcases lt_trichotomy a b with hab | rfl | hab
          · have hd : digit a + 1 ≤ digit b := hmono ha hb hab
            have hmul := Nat.mul_le_mul_right (base ^ rest'.length) hd
            rw [Nat.add_mul, Nat.one_mul] at hmul
            exact iff_of_true (by omega) (Or.inl hab)
          · rw [Nat.add_lt_add_iff_left, hih]
            simp
          · have hd : digit b + 1 ≤ digit a := hmono hb ha hab
            have hmul := Nat.mul_le_mul_right (base ^ rest'.length) hd
            rw [Nat.add_mul, Nat.one_mul] at hmul
            refine iff_of_false (by omega) ?_
            rintro (hab' | ⟨heq, _⟩)
            · exact lt_asymm hab hab'
            · exact ne_of_gt hab heq

theorem head_significant {a : α} (h : (significant digit numeral).head? = some a) :
    digit a ≠ 0 := by
  have hno := List.head?_dropWhile_not (fun a => digit a == 0) numeral
  rw [significant] at h
  rw [h] at hno
  simpa using hno

/-- **The order of numbers.** Whatever zeros two numerals begin with, their significant digits
decide which denotes the smaller number. -/
theorem value_lt_iff [LinearOrder α] (hs : ∀ a ∈ s, digit a < base)
    (hmono : StrictMonoOn digit s) (h : ∀ a ∈ numeral, a ∈ s) (h' : ∀ a ∈ other, a ∈ s) :
    value base digit numeral < value base digit other ↔
      Precedes (significant digit numeral) (significant digit other) := by
  have hsig : ∀ a ∈ significant digit numeral, a ∈ s := fun a ha => h a (mem_significant digit ha)
  have hsig' : ∀ a ∈ significant digit other, a ∈ s :=
    fun a ha => h' a (mem_significant digit ha)
  rw [← value_significant base digit numeral, ← value_significant base digit other, Precedes]
  rcases lt_trichotomy (significant digit numeral).length (significant digit other).length
    with hlt | heq | hgt
  · have hval := value_lt_of_length_lt hs hsig hsig' (fun _ => head_significant) hlt
    exact iff_of_true hval (Or.inl hlt)
  · rw [value_lt_iff_of_length_eq hs hmono hsig hsig' heq]
    simp [heq]
  · have hval := value_lt_of_length_lt hs hsig' hsig (fun _ => head_significant) hgt
    refine iff_of_false (by omega) ?_
    omega

end Valued

end Launcher.Lib.Numerals
