import Launcher.Common.Basic
import Launcher.Lib.Base64
import Mathlib.Algebra.Order.Floor.Div

set_option autoImplicit false

/-! # `base64Url`

The function as the signer has it: a loop over indices that takes three bytes at a time, and two
cases for what is left over, with shifts and masks on words of 32 bits. A read outside of the
array is `none`. `base64Url_lossless` is what it writes. -/

namespace Launcher

open Lib

/-- The alphabet of `base64Url`. -/
def BASE64URL : Base64.Alphabet UInt8 where
  digits := ascii "ABCDEFGHIJKLMNOPQRSTUVWXYZabcdefghijklmnopqrstuvwxyz0123456789-_"
  length := by decide
  nodup := by decide +kernel

/-- `ALPHABET[(triple >> shift) & 0x3F]`; the last digit of four is not shifted. -/
def digitAt (triple shift : UInt32) : Option UInt8 :=
  BASE64URL.digits[((triple >>> shift) &&& 0x3f).toNat]?

/-- The loop; where it stops and what it has written. -/
def base64UrlLoop (data : Bytes) (length index : Nat) (encoded : Bytes) : Option (Nat × Bytes) :=
  if index + 2 < length then do
    let a ← data[index]?
    let b ← data[index + 1]?
    let c ← data[index + 2]?
    let triple := (a.toUInt32 <<< 16) ||| (b.toUInt32 <<< 8) ||| c.toUInt32
    let w ← digitAt triple 18
    let x ← digitAt triple 12
    let y ← digitAt triple 6
    let z ← digitAt triple 0
    base64UrlLoop data length (index + 3) (encoded ++ [w, x, y, z])
  else some (index, encoded)
termination_by length - index

/-- The two branches behind the loop. -/
def base64UrlTail (data : Bytes) (length index : Nat) (encoded : Bytes) : Option Bytes :=
  if index + 1 = length then do
    let a ← data[index]?
    let triple := a.toUInt32 <<< 16
    let w ← digitAt triple 18
    let x ← digitAt triple 12
    some (encoded ++ [w, x])
  else if index + 2 = length then do
    let a ← data[index]?
    let b ← data[index + 1]?
    let triple := (a.toUInt32 <<< 16) ||| (b.toUInt32 <<< 8)
    let w ← digitAt triple 18
    let x ← digitAt triple 12
    let y ← digitAt triple 6
    some (encoded ++ [w, x, y])
  else some encoded

def base64Url (data : Bytes) (length : Nat) : Option Bytes := do
  let (index, encoded) ← base64UrlLoop data length 0 []
  base64UrlTail data length index encoded

/-! ## Words of 32 bits -/

theorem toNat_triple (a b c : UInt8) :
    ((a.toUInt32 <<< 16) ||| (b.toUInt32 <<< 8) ||| c.toUInt32).toNat = Base64.triple a b c := by
  have ha := a.toNat_lt
  have hb := b.toNat_lt
  have hc := c.toNat_lt
  -- no bit is shifted out of the word
  have hhigh : (a.toUInt32 <<< 16).toNat = a.toNat <<< 16 := by
    rw [UInt32.toNat_shiftLeft, UInt8.toNat_toUInt32]
    exact Nat.mod_eq_of_lt (by rw [Nat.shiftLeft_eq]; simp; omega)
  have hmiddle : (b.toUInt32 <<< 8).toNat = b.toNat <<< 8 := by
    rw [UInt32.toNat_shiftLeft, UInt8.toNat_toUInt32]
    exact Nat.mod_eq_of_lt (by rw [Nat.shiftLeft_eq]; simp; omega)
  rw [UInt32.toNat_or, UInt32.toNat_or, hhigh, hmiddle, UInt8.toNat_toUInt32, Nat.or_assoc,
    ← Nat.shiftLeft_add_eq_or_of_lt hc, ← Nat.shiftLeft_add_eq_or_of_lt
      (by rw [Nat.shiftLeft_eq]; omega),
    Nat.shiftLeft_eq, Nat.shiftLeft_eq, Base64.triple, Nat.add_assoc]

theorem digitAt_eq {triple shift : UInt32} (hshift : shift.toNat < 32) :
    digitAt triple shift = some (BASE64URL.digit (triple.toNat / 2 ^ shift.toNat)) := by
  have hindex : ((triple >>> shift) &&& 0x3f).toNat = triple.toNat / 2 ^ shift.toNat % 64 := by
    rw [UInt32.toNat_and, UInt32.toNat_shiftRight, Nat.mod_eq_of_lt hshift,
      Nat.shiftRight_eq_div_pow]
    exact Nat.and_two_pow_sub_one_eq_mod _ 6
  rw [digitAt, hindex, Base64.Alphabet.digit, List.getElem?_eq_getElem]
  rfl

theorem digitAt_triple (a b c : UInt8) {shift : UInt32} (hshift : shift.toNat < 32) :
    digitAt ((a.toUInt32 <<< 16) ||| (b.toUInt32 <<< 8) ||| c.toUInt32) shift =
      some (BASE64URL.digit (Base64.triple a b c / 2 ^ shift.toNat)) := by
  rw [digitAt_eq hshift, toNat_triple]

/-- Words with fewer bytes are words with zeros. -/
theorem short_triple (a b : UInt8) :
    a.toUInt32 <<< 16
        = (a.toUInt32 <<< 16) ||| ((0 : UInt8).toUInt32 <<< 8) ||| (0 : UInt8).toUInt32 ∧
      (a.toUInt32 <<< 16) ||| (b.toUInt32 <<< 8)
        = (a.toUInt32 <<< 16) ||| (b.toUInt32 <<< 8) ||| (0 : UInt8).toUInt32 := by
  have hzero : (0 : UInt8).toUInt32 = 0 := rfl
  have hshifted : (0 : UInt32) <<< 8 = 0 := rfl
  rw [hzero, hshifted, UInt32.or_zero, UInt32.or_zero, UInt32.or_zero]
  exact ⟨rfl, rfl⟩

/-! ## The loop -/

section Loop

variable (front : Bytes) (a b c : UInt8) (rest encoded : Bytes)

/-- One pass. -/
theorem base64UrlLoop_step :
    base64UrlLoop (front ++ a :: b :: c :: rest) (front ++ a :: b :: c :: rest).length
        front.length encoded
      = base64UrlLoop (front ++ a :: b :: c :: rest) (front ++ a :: b :: c :: rest).length
          (front.length + 3)
          (encoded ++ [BASE64URL.digit (Base64.triple a b c / 2 ^ 18),
            BASE64URL.digit (Base64.triple a b c / 2 ^ 12),
            BASE64URL.digit (Base64.triple a b c / 2 ^ 6),
            BASE64URL.digit (Base64.triple a b c)]) := by
  have hlength : front.length + 2 < (front ++ a :: b :: c :: rest).length := by
    simp only [List.length_append, List.length_cons]
    omega
  have hread (k : Nat) (d : UInt8) (h : (a :: b :: c :: rest)[k]? = some d) :
      (front ++ a :: b :: c :: rest)[front.length + k]? = some d := by
    rw [List.getElem?_append_right (Nat.le_add_right _ _), Nat.add_sub_cancel_left, h]
  have ha := hread 0 a rfl
  have hb := hread 1 b rfl
  have hc := hread 2 c rfl
  have hw := digitAt_triple a b c (by decide : (18 : UInt32).toNat < 32)
  have hx := digitAt_triple a b c (by decide : (12 : UInt32).toNat < 32)
  have hy := digitAt_triple a b c (by decide : (6 : UInt32).toNat < 32)
  have hz := digitAt_triple a b c (by decide : (0 : UInt32).toNat < 32)
  rw [Nat.add_zero] at ha
  rw [UInt32.toNat_zero, pow_zero, Nat.div_one] at hz
  rw [base64UrlLoop.eq_def, if_pos hlength]
  simp only [ha, hb, hc, hw, hx, hy, hz, Option.bind_eq_bind, Option.bind_some]
  rfl

/-- The loop stops with two bytes or fewer. -/
theorem base64UrlLoop_stop (h : rest.length < 3) :
    base64UrlLoop (front ++ rest) (front ++ rest).length front.length encoded
      = some (front.length, encoded) := by
  rw [base64UrlLoop.eq_def, if_neg]
  rw [List.length_append]
  omega

/-- With two bytes or fewer the branches write what is left. -/
theorem base64UrlTail_eq (h : rest.length < 3) :
    base64UrlTail (front ++ rest) (front ++ rest).length front.length encoded
      = some (encoded ++ Base64.encode BASE64URL rest) := by
  have hread (k : Nat) (d : UInt8) (hk : rest[k]? = some d) :
      (front ++ rest)[front.length + k]? = some d := by
    rw [List.getElem?_append_right (Nat.le_add_right _ _), Nat.add_sub_cancel_left, hk]
  rw [base64UrlTail, List.length_append]
  match rest, h with
  | [], _ =>
      simp [Base64.encode]
  | [a], _ =>
      have ha := hread 0 a rfl
      have hw := digitAt_triple a 0 0 (by decide : (18 : UInt32).toNat < 32)
      have hx := digitAt_triple a 0 0 (by decide : (12 : UInt32).toNat < 32)
      rw [← (short_triple a 0).1] at hw hx
      rw [Nat.add_zero] at ha
      rw [if_pos (by rfl)]
      simp only [ha, hw, hx, Option.bind_eq_bind, Option.bind_some]
      rfl
  | [a, b], _ =>
      have ha := hread 0 a rfl
      have hb := hread 1 b rfl
      have hw := digitAt_triple a b 0 (by decide : (18 : UInt32).toNat < 32)
      have hx := digitAt_triple a b 0 (by decide : (12 : UInt32).toNat < 32)
      have hy := digitAt_triple a b 0 (by decide : (6 : UInt32).toNat < 32)
      rw [← (short_triple a b).2] at hw hx hy
      rw [Nat.add_zero] at ha
      rw [if_neg (by simp), if_pos (by rfl)]
      simp only [ha, hb, hw, hx, hy, Option.bind_eq_bind, Option.bind_some]
      rfl

end Loop

/-- From any pass on, what is left is encoded behind what has been written. -/
theorem base64Url_from (rest front encoded : Bytes) :
    (base64UrlLoop (front ++ rest) (front ++ rest).length front.length encoded).bind
        (fun r => base64UrlTail (front ++ rest) (front ++ rest).length r.1 r.2)
      = some (encoded ++ Base64.encode BASE64URL rest) := by
  -- the recursion of the encoder is that of the loop, with the bytes behind the index
  induction rest using Base64.encode.induct generalizing front encoded with
  | case1 a b c rest ih =>
      have hih := ih (front ++ [a, b, c]) (encoded ++
        [BASE64URL.digit (Base64.triple a b c / 2 ^ 18),
          BASE64URL.digit (Base64.triple a b c / 2 ^ 12),
          BASE64URL.digit (Base64.triple a b c / 2 ^ 6), BASE64URL.digit (Base64.triple a b c)])
      simp only [List.append_assoc, List.cons_append, List.nil_append, List.length_append,
        List.length_cons, List.length_nil] at hih
      rw [base64UrlLoop_step, Base64.encode]
      simpa using hih
  | case2 a b =>
      rw [base64UrlLoop_stop front [a, b] encoded (by simp), Option.bind_some]
      exact base64UrlTail_eq front [a, b] encoded (by simp)
  | case3 a =>
      rw [base64UrlLoop_stop front [a] encoded (by simp), Option.bind_some]
      exact base64UrlTail_eq front [a] encoded (by simp)
  | case4 =>
      rw [base64UrlLoop_stop front [] encoded (by simp), Option.bind_some]
      exact base64UrlTail_eq front [] encoded (by simp)

theorem base64Url_eq_encode (data : Bytes) :
    base64Url data data.length = some (Base64.encode BASE64URL data) :=
  base64Url_from data [] []

/-- **The encoding is lossless.** Every read is one of the array, there is no padding, and the
text is as long as RFC 4648 has it. -/
theorem base64Url_lossless (data : Bytes) : ∃ text, base64Url data data.length = some text ∧
    text.length = 4 * data.length ⌈/⌉ 3 ∧
    (∀ c ∈ text, c ∈ BASE64URL.digits ∧ c ≠ 0x3d) ∧
    Base64.decode BASE64URL text = some data := by
  have hpadding : ∀ c ∈ BASE64URL.digits, c ≠ 0x3d := by decide +kernel
  refine ⟨_, base64Url_eq_encode data, ?_, ?_, Base64.decode_encode BASE64URL data⟩
  · rw [Base64.length_encode, Nat.ceilDiv_eq_add_pred_div]
    rfl
  · intro c hc
    have hmem := Base64.mem_encode BASE64URL hc
    exact ⟨hmem, hpadding c hmem⟩

end Launcher
