import Mathlib.Data.List.Basic
import Mathlib.Tactic

set_option autoImplicit false

/-! # Base 64

Three bytes are four digits of six bits; two bytes left over are three digits and one is two,
without padding. What the digits look like is up to the alphabet. `decode_encode` is the round
trip. -/

namespace Launcher.Lib.Base64

/-- Sixty-four different digits. -/
structure Alphabet (α : Type) where
  digits : List α
  length : digits.length = 64
  nodup : digits.Nodup

namespace Alphabet

variable {α : Type} (A : Alphabet α)

/-- The digit of the last six bits. -/
def digit (n : Nat) : α :=
  A.digits.get ⟨n % 64, by rw [A.length]; exact Nat.mod_lt n (by decide)⟩

theorem digit_mem (n : Nat) : A.digit n ∈ A.digits := List.get_mem A.digits _

variable [DecidableEq α]

def value (a : α) : Option Nat := if a ∈ A.digits then some (A.digits.idxOf a) else none

@[simp] theorem value_digit (n : Nat) : A.value (A.digit n) = some (n % 64) := by
  rw [value, if_pos (A.digit_mem n), digit, List.get_idxOf A.nodup]

end Alphabet

/-! ## Three bytes and four digits -/

/-- The bits of three bytes. -/
def triple (a b c : UInt8) : Nat := a.toNat * 2 ^ 16 + b.toNat * 2 ^ 8 + c.toNat

/-- The bits of four digits. -/
def quadruple (w x y z : Nat) : Nat := w * 2 ^ 18 + x * 2 ^ 12 + y * 2 ^ 6 + z

theorem triple_lt (a b c : UInt8) : triple a b c < 2 ^ 24 := by
  have ha := a.toNat_lt
  have hb := b.toNat_lt
  have hc := c.toNat_lt
  unfold triple
  omega

/-- The same bits. -/
theorem quadruple_digits {n : Nat} (h : n < 2 ^ 24) :
    quadruple (n / 2 ^ 18 % 64) (n / 2 ^ 12 % 64) (n / 2 ^ 6 % 64) (n % 64) = n := by
  unfold quadruple
  omega

theorem ofNat_eq {n : Nat} {a : UInt8} (h : n % 2 ^ 8 = a.toNat) : UInt8.ofNat n = a := by
  rw [← UInt8.toNat_inj, UInt8.toNat_ofNat']
  exact h

theorem triple_bytes (a b c : UInt8) : UInt8.ofNat (triple a b c / 2 ^ 16) = a ∧
    UInt8.ofNat (triple a b c / 2 ^ 8) = b ∧ UInt8.ofNat (triple a b c) = c := by
  have ha := a.toNat_lt
  have hb := b.toNat_lt
  have hc := c.toNat_lt
  unfold triple
  exact ⟨ofNat_eq (by omega), ofNat_eq (by omega), ofNat_eq (by omega)⟩

/-- Nothing is lost of one or two bytes with the last digits. -/
theorem triple_short (a b : UInt8) :
    triple a b 0 % 64 = 0 ∧ triple a 0 0 / 2 ^ 6 % 64 = 0 ∧ triple a 0 0 % 64 = 0 := by
  have hzero : (0 : UInt8).toNat = 0 := rfl
  unfold triple
  omega

/-! ## Reading and writing -/

section Coding

variable {α : Type} (A : Alphabet α)

def encode : List UInt8 → List α
  | a :: b :: c :: rest =>
      A.digit (triple a b c / 2 ^ 18) :: A.digit (triple a b c / 2 ^ 12) ::
        A.digit (triple a b c / 2 ^ 6) :: A.digit (triple a b c) :: encode rest
  | [a, b] =>
      [A.digit (triple a b 0 / 2 ^ 18), A.digit (triple a b 0 / 2 ^ 12),
        A.digit (triple a b 0 / 2 ^ 6)]
  | [a] => [A.digit (triple a 0 0 / 2 ^ 18), A.digit (triple a 0 0 / 2 ^ 12)]
  | [] => []

theorem length_encode (bytes : List UInt8) :
    (encode A bytes).length = (4 * bytes.length + 2) / 3 := by
  fun_induction encode A bytes with
  | case1 a b c rest ih =>
      simp only [List.length_cons, ih]
      omega
  | case2 a b => simp
  | case3 a => simp
  | case4 => simp

theorem mem_encode {bytes : List UInt8} {a : α} (h : a ∈ encode A bytes) : a ∈ A.digits := by
  fun_induction encode A bytes with
  | case1 a b c rest ih =>
      simp only [List.mem_cons] at h
      rcases h with rfl | rfl | rfl | rfl | h
      · exact A.digit_mem _
      · exact A.digit_mem _
      · exact A.digit_mem _
      · exact A.digit_mem _
      · exact ih h
  | case2 a b =>
      simp only [List.mem_cons, List.not_mem_nil, or_false] at h
      rcases h with rfl | rfl | rfl <;> exact A.digit_mem _
  | case3 a =>
      simp only [List.mem_cons, List.not_mem_nil, or_false] at h
      rcases h with rfl | rfl <;> exact A.digit_mem _
  | case4 => cases h

variable [DecidableEq α]

/-- `none` for a character that is no digit, and for a digit left over. -/
def decode : List α → Option (List UInt8)
  | w :: x :: y :: z :: rest => do
      let bits := quadruple (← A.value w) (← A.value x) (← A.value y) (← A.value z)
      let bytes ← decode rest
      some (UInt8.ofNat (bits / 2 ^ 16) :: UInt8.ofNat (bits / 2 ^ 8) :: UInt8.ofNat bits :: bytes)
  | [w, x, y] => do
      let bits := quadruple (← A.value w) (← A.value x) (← A.value y) 0
      some [UInt8.ofNat (bits / 2 ^ 16), UInt8.ofNat (bits / 2 ^ 8)]
  | [w, x] => do
      let bits := quadruple (← A.value w) (← A.value x) 0 0
      some [UInt8.ofNat (bits / 2 ^ 16)]
  | [_] => none
  | [] => some []

/-- **What is encoded is read back.** -/
theorem decode_encode (bytes : List UInt8) : decode A (encode A bytes) = some bytes := by
  fun_induction encode A bytes with
  | case1 a b c rest ih =>
      obtain ⟨ha, hb, hc⟩ := triple_bytes a b c
      rw [decode, A.value_digit, A.value_digit, A.value_digit, A.value_digit, ih]
      simp only [Option.bind_eq_bind, Option.bind_some, quadruple_digits (triple_lt a b c), ha, hb,
        hc]
  | case2 a b =>
      obtain ⟨ha, hb, -⟩ := triple_bytes a b 0
      -- the digit left out stands for six zero bits
      have hbits := quadruple_digits (triple_lt a b 0)
      rw [(triple_short a b).1] at hbits
      rw [decode, A.value_digit, A.value_digit, A.value_digit]
      simp only [Option.bind_eq_bind, Option.bind_some, hbits, ha, hb]
  | case3 a =>
      obtain ⟨ha, -, -⟩ := triple_bytes a 0 0
      have hbits := quadruple_digits (triple_lt a 0 0)
      rw [(triple_short a 0).2.1, (triple_short a 0).2.2] at hbits
      rw [decode, A.value_digit, A.value_digit]
      simp only [Option.bind_eq_bind, Option.bind_some, hbits, ha]
  | case4 => rfl

end Coding

end Launcher.Lib.Base64
