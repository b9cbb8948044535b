import Launcher.Common.ClientAddress
import Launcher.Lib.Numerals

set_option autoImplicit false

/-! # IPv4 blocks

An entry `A/n` of the proxy list stands for the addresses that share their first `n` bits with
`A`. `InRange` is that notion, for a given way to write numbers. The code reads numbers with
`std::from_chars`, which admits a minus, and tests the sign of the value: all it lets through
beside decimal digits is a minus in front of zeros (`SignedDecimal`). `matchesEntry_iff` is what
the code computes, `matchesEntry_inRange_iff` when that is what the blocks are for. -/

namespace Launcher

namespace ClientAddress

open Lib

/-! ## Blocks of addresses -/

def digitValue (c : UInt8) : Nat := c.toNat - 0x30

/-- A number in decimal digits, leading zeros allowed. -/
structure Decimal (text : Bytes) (n : Nat) : Prop where
  nonempty : text ≠ []
  digits : ∀ c ∈ text, 0x30 ≤ c ∧ c ≤ 0x39
  value : Numerals.value 10 digitValue text = n

/-- What `parseNumber` takes for a number that is not negative. -/
def SignedDecimal (text : Bytes) (n : Nat) : Prop :=
  Decimal text n ∨ n = 0 ∧ ∃ zeros, text = minus :: zeros ∧ Decimal zeros 0

/-- Four octets, separated by single dots. -/
structure Quad (numeral : Bytes → Nat → Prop) (text : Bytes) (octets : List Nat) : Prop where
  four : octets.length = 4
  small : ∀ n ∈ octets, n ≤ 255
  written : ∃ parts, List.Forall₂ numeral parts octets ∧ text = [dot].intercalate parts

/-- The 32 bits of an address. -/
def bitsOf (octets : List Nat) : Nat := Numerals.value 256 id octets

/-- The entry is `A/n`, and the address has the first `n` bits of `A`. -/
def InRange (numeral : Bytes → Nat → Prop) (address entry : Bytes) : Prop :=
  ∃ network length A B n, entry = network ++ slash :: length ∧ Quad numeral network A ∧
    Quad numeral address B ∧ numeral length n ∧ n ≤ 32 ∧
    bitsOf A / 2 ^ (32 - n) = bitsOf B / 2 ^ (32 - n)

/-! ## Numbers -/

theorem not_decimal_minus (text : Bytes) (n : Nat) : ¬ Decimal (minus :: text) n := by
  intro h
  exact absurd (h.digits minus List.mem_cons_self).1 (by decide)

/-- The fold of `readDigits`, from any value on. -/
theorem foldl_readDigits (digits : Bytes) : ∀ start n : Nat,
    digits.foldl (fun value c => value.bind (fun n =>
      if 0x30 ≤ c ∧ c ≤ 0x39 then some (n * 10 + (c.toNat - 0x30)) else none))
        (some start) = some n ↔
    (∀ c ∈ digits, 0x30 ≤ c ∧ c ≤ 0x39) ∧
      digits.foldl (fun n c => n * 10 + digitValue c) start = n := by
  induction digits with
  | nil => simp
  | cons c digits ih =>
      intro start n
      have hnone : ∀ text : Bytes, text.foldl (fun value c => value.bind (fun n =>
          if 0x30 ≤ c ∧ c ≤ 0x39 then some (n * 10 + (c.toNat - 0x30)) else none))
          (none : Option Nat) = none := by
        intro text
        induction text with
        | nil => rfl
        | cons c text ih => exact ih
      rw [List.foldl_cons, List.foldl_cons, Option.bind_some]
      by_cases hc : 0x30 ≤ c ∧ c ≤ 0x39
      · rw [if_pos hc, ih]
        simp only [List.forall_mem_cons, digitValue]
        exact ⟨fun h => ⟨⟨hc, h.1⟩, h.2⟩, fun h => ⟨h.1.2, h.2⟩⟩
      · rw [if_neg hc, hnone]
        simp only [List.forall_mem_cons, reduceCtorEq, false_iff]
        exact fun h => hc h.1.1

theorem readDigits_eq_some_iff {text : Bytes} {n : Nat} :
    readDigits text = some n ↔ Decimal text n := by
  unfold readDigits
  cases text with
  | nil =>
      simp only [List.isEmpty_nil, if_true, reduceCtorEq, false_iff]
      exact fun h => h.nonempty rfl
  | cons c text =>
      simp only [List.isEmpty_cons, Bool.false_eq_true, if_false]
      rw [foldl_readDigits]
      exact ⟨fun h => ⟨List.cons_ne_nil c text, h.1, h.2⟩, fun h => ⟨h.digits, h.value⟩⟩

/-- The value as an `int`. -/
theorem readDigits_cast_iff {text : Bytes} {k : Int} :
    (do let n ← readDigits text; pure (n : Int)) = some k ↔
      ∃ n : Nat, Decimal text n ∧ (n : Int) = k := by
  simp only [Option.bind_eq_bind, Option.pure_def, Option.bind_eq_some_iff, readDigits_eq_some_iff,
    Option.some.injEq]

/-- **What the number parser accepts**, of the numbers that are asked for. -/
theorem parseNumber_eq_some_iff {text : Bytes} {n : Nat} (hn : n ≤ 255) :
    parseNumber text = some (n : Int) ↔ SignedDecimal text n := by
  unfold parseNumber SignedDecimal
  cases text with
  | nil =>
      simp only [Option.filter_none, reduceCtorEq, false_iff]
      rintro (h | ⟨-, zeros, h, -⟩)
      · exact h.nonempty rfl
      · cases h
  | cons c text =>
      simp only [Option.filter_eq_some_iff, decide_eq_true_eq]
      split_ifs with hc
      · -- a sign: the value is not negative only if it is zero
        subst hc
        simp only [Option.map_eq_some_iff, readDigits_cast_iff]
        constructor
        · rintro ⟨⟨_, ⟨k, hk, rfl⟩, hvalue⟩, -⟩
          obtain ⟨rfl, rfl⟩ : n = 0 ∧ k = 0 := by omega
          exact Or.inr ⟨rfl, text, rfl, hk⟩
        · rintro (h | ⟨rfl, zeros, hzeros, h⟩)
          · exact absurd h (not_decimal_minus text n)
          · rw [(List.cons.inj hzeros).2]
            exact ⟨⟨_, ⟨0, h, rfl⟩, rfl⟩, by omega⟩
      · simp only [Option.map_eq_some_iff, readDigits_cast_iff]
        constructor
        · rintro ⟨⟨_, ⟨k, hk, rfl⟩, hvalue⟩, -⟩
          obtain rfl : k = n := by omega
          exact Or.inl hk
        · rintro (h | ⟨rfl, zeros, hzeros, h⟩)
          · exact ⟨⟨_, ⟨n, h, rfl⟩, rfl⟩, by omega⟩
          · exact absurd (List.cons.inj hzeros).1 hc

/-! ## Addresses -/

theorem SignedDecimal.mem {text : Bytes} {n : Nat} (h : SignedDecimal text n) :
    ∀ c ∈ text, c = minus ∨ 0x30 ≤ c ∧ c ≤ 0x39 := by
  intro c hc
  rcases h with h | ⟨-, zeros, rfl, h⟩
  · exact Or.inr (h.digits c hc)
  · rcases List.mem_cons.mp hc with rfl | hc
    · exact Or.inl rfl
    · exact Or.inr (h.digits c hc)

theorem SignedDecimal.dot_notMem {text : Bytes} {n : Nat} (h : SignedDecimal text n) :
    dot ∉ text := fun hmem => absurd (h.mem dot hmem) (by decide)

/-- The packing of `parseIpv4`. -/
def pack (packed : UInt32) (octets : List Nat) : UInt32 :=
  octets.foldl (fun packed n => (packed <<< 8) ||| UInt32.ofNat n) packed

/-- One octet, and what is done with it. -/
theorem parseNumber_octet_iff {text : Bytes} {next : Nat → Option UInt32} {r : UInt32} :
    (match parseNumber text with
      | none => none
      | some value => if value < 0 ∨ 255 < value then none else next value.toNat) = some r ↔
    ∃ n ≤ 255, SignedDecimal text n ∧ next n = some r := by
  constructor
  · intro h
    split at h
    · cases h
    · next value hvalue =>
        split_ifs at h with hrange
        obtain ⟨n, rfl⟩ := Int.eq_ofNat_of_zero_le (a := value) (by omega)
        have hn : n ≤ 255 := by omega
        exact ⟨n, hn, (parseNumber_eq_some_iff hn).mp hvalue, h⟩
  · rintro ⟨n, hn, hnumber, hnext⟩
    rw [(parseNumber_eq_some_iff hn).mpr hnumber]
    simp only
    rw [if_neg (by omega), Int.toNat_natCast]
    exact hnext

/-- The last octet: nothing may follow it. -/
theorem parseOctets_last_iff {packed : UInt32} {address : Bytes} {r : UInt32} :
    parseOctets 1 packed address = some r ↔ dot ∉ address ∧
      ∃ n ≤ 255, SignedDecimal address n ∧ (packed <<< 8) ||| UInt32.ofNat n = r := by
  rw [parseOctets]
  cases hfound : address.findIdx? (· == dot) with
  | none =>
      have hmem : dot ∉ address := fun hmem => by
        simpa using List.findIdx?_eq_none_iff.mp hfound dot hmem
      simp only [if_true, Option.getD_none, List.take_length, parseOctets]
      refine (@parseNumber_octet_iff address
        (fun n => some ((packed <<< 8) ||| UInt32.ofNat n)) r).trans ?_
      simp [hmem]
  | some i =>
      have hmem := (of_findIdx?_mark hfound).2
      simp only [reduceCtorEq, iff_false, not_true, if_false, false_iff]
      rintro ⟨hno, -⟩
      exact hno (hmem ▸ List.mem_append_right _ List.mem_cons_self)

/-- Any other octet: the next one follows behind the first dot. -/
theorem parseOctets_next_iff {count : Nat} {packed : UInt32} {address : Bytes} {r : UInt32} :
    parseOctets (count + 2) packed address = some r ↔
      ∃ text rest, address = text ++ dot :: rest ∧ ∃ n ≤ 255, SignedDecimal text n ∧
        parseOctets (count + 1) ((packed <<< 8) ||| UInt32.ofNat n) rest = some r := by
  rw [parseOctets]
  cases hfound : address.findIdx? (· == dot) with
  | none =>
      have hmem : dot ∉ address := fun hmem => by
        simpa using List.findIdx?_eq_none_iff.mp hfound dot hmem
      simp only [Nat.add_eq_zero_iff, one_ne_zero, and_false, iff_true, if_false,
        reduceCtorEq, false_iff]
      rintro ⟨text, rest, rfl, -⟩
      exact hmem (List.mem_append_right _ List.mem_cons_self)
  | some i =>
      obtain ⟨hno, hsplit⟩ := of_findIdx?_mark hfound
      simp only [Nat.add_eq_zero_iff, one_ne_zero, and_false, reduceCtorEq, if_true,
        Option.getD_some]
      refine (@parseNumber_octet_iff (address.take i) (fun n => parseOctets (count + 1)
        ((packed <<< 8) ||| UInt32.ofNat n) (address.drop (i + 1))) r).trans ?_
      constructor
      · intro h
        exact ⟨_, _, hsplit, h⟩
      · rintro ⟨text, rest, heq, n, hn, hnumber, hrest⟩
        -- a number has no dot, so it ends where the loop cuts
        have hsame := findIdx?_mark hnumber.dot_notMem rest
        rw [← heq, hfound, Option.some.injEq] at hsame
        subst hsame
        have hdrop : (text ++ dot :: rest).drop (text.length + 1) = rest := by simp
        rw [heq, List.take_left, hdrop]
        exact ⟨n, hn, hnumber, hrest⟩

theorem intercalate_dot_cons (text : Bytes) {parts : List Bytes} (h : parts ≠ []) :
    [dot].intercalate (text :: parts) = text ++ dot :: [dot].intercalate parts := by
  rw [List.intercalate_cons_of_ne_nil h]
  simp

/-- The loop reads `count + 1` octets and nothing else. -/
theorem parseOctets_eq_some_iff (count : Nat) : ∀ (packed : UInt32) (address : Bytes) (r : UInt32),
    parseOctets (count + 1) packed address = some r ↔
      ∃ octets parts, octets.length = count + 1 ∧ (∀ n ∈ octets, n ≤ 255) ∧
        List.Forall₂ SignedDecimal parts octets ∧ address = [dot].intercalate parts ∧
        pack packed octets = r := by
  induction count with
  | zero =>
      intro packed address r
      rw [parseOctets_last_iff]
      -- one octet left: the text is its number
      constructor
      · rintro ⟨-, n, hn, hnumber, hr⟩
        exact ⟨[n], [address], rfl, by simpa using hn, .cons hnumber .nil, by simp, hr⟩
      · rintro ⟨octets, parts, hlength, hsmall, hparts, rfl, hr⟩
        cases hparts with
        | nil => cases hlength
        | cons hnumber hrest =>
            obtain rfl : _ = [] := List.length_eq_zero_iff.mp (Nat.succ.inj hlength)
            cases hrest
            refine ⟨?_, _, hsmall _ List.mem_cons_self, ?_, hr⟩
            · simpa using hnumber.dot_notMem
            · simpa using hnumber
  | succ count ih =>
      intro packed address r
      rw [parseOctets_next_iff]
      simp only [ih]
      constructor
      · rintro ⟨text, rest, rfl, n, hn, hnumber, octets, parts, hlength, hsmall, hparts, rfl, hr⟩
        refine ⟨n :: octets, text :: parts, congrArg (· + 1) hlength, ?_, .cons hnumber hparts, ?_,
          hr⟩
        · exact List.forall_mem_cons.mpr ⟨hn, hsmall⟩
        · refine (intercalate_dot_cons text ?_).symm
          rintro rfl
          cases hparts
          cases hlength
      · rintro ⟨octets, parts, hlength, hsmall, hparts, rfl, hr⟩
        cases hparts with
        | nil => cases hlength
        | @cons text n parts octets hnumber hparts =>
            have hne : parts ≠ [] := by
              rintro rfl
              cases hparts
              cases hlength
            obtain ⟨hn, hsmall⟩ := List.forall_mem_cons.mp hsmall
            exact ⟨text, _, intercalate_dot_cons text hne, n, hn, hnumber, octets, parts,
              Nat.succ.inj hlength, hsmall, hparts, rfl, hr⟩

/-- While there is room for another byte, nothing is lost by packing it. -/
theorem toNat_pack_byte {packed : UInt32} {n : Nat} (hpacked : packed.toNat < 2 ^ 24)
    (hn : n ≤ 255) :
    ((packed <<< 8) ||| UInt32.ofNat n).toNat = packed.toNat * 256 + n := by
  have hbyte : (UInt32.ofNat n).toNat = n := by
    rw [UInt32.toNat_ofNat']
    omega
  have hshift : (packed <<< 8).toNat = packed.toNat <<< 8 := by
    rw [UInt32.toNat_shiftLeft]
    exact Nat.mod_eq_of_lt (by rw [Nat.shiftLeft_eq]; simp; omega)
  rw [UInt32.toNat_or, hshift, hbyte, ← Nat.shiftLeft_add_eq_or_of_lt (by omega), Nat.shiftLeft_eq]

/-- The induction carries how many bytes have been packed. -/
theorem toNat_pack {octets : List Nat} (hsmall : ∀ n ∈ octets, n ≤ 255) :
    ∀ {packed : UInt32} {count : Nat}, packed.toNat < 2 ^ (8 * count) → octets.length + count ≤ 4 →
      (pack packed octets).toNat =
        octets.foldl (fun value n => value * 256 + id n) packed.toNat := by
  induction octets with
  | nil => exact fun _ _ => rfl
  | cons n octets ih =>
      intro packed count hpacked hroom
      obtain ⟨hn, hsmall⟩ := List.forall_mem_cons.mp hsmall
      rw [List.length_cons] at hroom
      have hle : 2 ^ (8 * count) ≤ 2 ^ 24 := Nat.pow_le_pow_right (by decide) (by omega)
      have hbyte := toNat_pack_byte (lt_of_lt_of_le hpacked hle) hn
      have hnext : packed.toNat * 256 + n < 2 ^ (8 * (count + 1)) := by
        rw [Nat.mul_add, pow_add]
        omega
      have hrest := @ih hsmall ((packed <<< 8) ||| UInt32.ofNat n) (count + 1) (by omega) (by omega)
      rw [List.foldl_cons, id, ← hbyte]
      exact hrest

theorem toNat_pack_zero {octets : List Nat} (hfour : octets.length = 4)
    (hsmall : ∀ n ∈ octets, n ≤ 255) : (pack 0 octets).toNat = bitsOf octets :=
  @toNat_pack octets hsmall 0 0 (by decide) (by omega)

theorem parseIpv4_eq_some_iff {address : Bytes} {r : UInt32} :
    parseIpv4 address = some r ↔
      ∃ octets, Quad SignedDecimal address octets ∧ r.toNat = bitsOf octets := by
  rw [parseIpv4, IPV4_OCTETS, parseOctets_eq_some_iff]
  constructor
  · rintro ⟨octets, parts, hfour, hsmall, hparts, htext, rfl⟩
    exact ⟨octets, ⟨hfour, hsmall, parts, hparts, htext⟩, toNat_pack_zero hfour hsmall⟩
  · rintro ⟨octets, ⟨hfour, hsmall, parts, hparts, htext⟩, hr⟩
    refine ⟨octets, parts, hfour, hsmall, hparts, htext, ?_⟩
    rw [← UInt32.toNat_inj, hr]
    exact toNat_pack_zero hfour hsmall

/-! ## Masks -/

/-- What a mask clears and what it keeps make up the word. -/
theorem toNat_and_not (x mask : UInt32) :
    (x &&& ~~~mask).toNat + (x &&& mask).toNat = x.toNat := by
  have hdisjoint : (x.toBitVec &&& ~~~mask.toBitVec) &&& (x.toBitVec &&& mask.toBitVec) = 0#32 := by
    ext i
    simp only [BitVec.getElem_and, BitVec.getElem_not, BitVec.getElem_zero]
    cases x.toBitVec[i] <;> cases mask.toBitVec[i] <;> rfl
  have hjoined : (x.toBitVec &&& ~~~mask.toBitVec) ||| (x.toBitVec &&& mask.toBitVec)
      = x.toBitVec := by
    ext i
    simp only [BitVec.getElem_or, BitVec.getElem_and, BitVec.getElem_not]
    cases x.toBitVec[i] <;> cases mask.toBitVec[i] <;> rfl
  have hsum := BitVec.toNat_add_of_and_eq_zero hdisjoint
  rw [BitVec.add_eq_or_of_and_eq_zero _ _ hdisjoint, hjoined] at hsum
  exact hsum.symm

/-- The words that agree under the mask of `32 - k` bits. -/
theorem and_mask_eq_iff (x y : UInt32) {k : Nat} (hk : k < 32) :
    x &&& ~~~((1 <<< UInt32.ofNat k) - 1) = y &&& ~~~((1 <<< UInt32.ofNat k) - 1) ↔
      x.toNat / 2 ^ k = y.toNat / 2 ^ k := by
  have hpow : 2 ^ k < 2 ^ 32 := Nat.pow_lt_pow_right (by decide) hk
  -- the distance is below the width, so the shift is a power of two
  have hone : (1 <<< UInt32.ofNat k : UInt32).toNat = 2 ^ k := by
    have hk' : k % 2 ^ 32 % 32 = k := by omega
    rw [UInt32.toNat_shiftLeft, UInt32.toNat_ofNat', Nat.shiftLeft_eq, hk', UInt32.toNat_one,
      Nat.one_mul, Nat.mod_eq_of_lt hpow]
  have hmask : ((1 <<< UInt32.ofNat k : UInt32) - 1).toNat = 2 ^ k - 1 := by
    rw [UInt32.toNat_sub_of_le, hone]
    · rfl
    · rw [UInt32.le_iff_toNat_le, hone]
      exact Nat.one_le_two_pow
  -- what is kept under the mask is all but the last `k` bits
  have hkept : ∀ z : UInt32, (z &&& ~~~((1 <<< UInt32.ofNat k) - 1)).toNat
      = 2 ^ k * (z.toNat / 2 ^ k) := by
    intro z
    have hparts := toNat_and_not z ((1 <<< UInt32.ofNat k) - 1)
    rw [UInt32.toNat_and z ((1 <<< UInt32.ofNat k) - 1), hmask,
      Nat.and_two_pow_sub_one_eq_mod] at hparts
    have hdiv := Nat.div_add_mod z.toNat (2 ^ k)
    omega
  rw [← UInt32.toNat_inj, hkept, hkept]
  exact Nat.mul_right_inj (Nat.two_pow_pos k).ne'

/-! ## Entries -/

/-- `matchesEntry`, with the distances that the mask is shifted by. -/
def matchesEntryShifts (address entry : Bytes) : Bool × List Int :=
  match entry.findIdx? (· == slash) with
  | none => (address == entry, [])
  | some i =>
      match parseIpv4 (entry.take i), parseIpv4 address, parseNumber (entry.drop (i + 1)) with
      | some network, some candidate, some bits =>
          if bits < 0 ∨ IPV4_BITS < bits then (false, [])
          else if bits = 0 then (true, [])
          else if bits = IPV4_BITS then (network &&& ~~~0 == candidate &&& ~~~0, [])
          else
            let mask : UInt32 := ~~~((1 <<< UInt32.ofNat (IPV4_BITS - bits).toNat) - 1)
            (network &&& mask == candidate &&& mask, [IPV4_BITS - bits])
      | _, _, _ => (false, [])

theorem matchesEntryShifts_fst (address entry : Bytes) :
    (matchesEntryShifts address entry).1 = matchesEntry address entry := by
  unfold matchesEntryShifts matchesEntry
  cases entry.findIdx? (· == slash) with
  | none => rfl
  | some i =>
      dsimp only
      cases parseIpv4 (entry.take i) with
      | none => rfl
      | some network =>
          cases parseIpv4 address with
          | none => rfl
          | some candidate =>
              cases parseNumber (entry.drop (i + 1)) with
              | none => rfl
              | some bits =>
                  dsimp only
                  split_ifs <;> rfl

/-- **No shift is by the width of the word.** -/
theorem matchesEntryShifts_lt (address entry : Bytes) :
    ∀ distance ∈ (matchesEntryShifts address entry).2, 0 < distance ∧ distance < 32 := by
  unfold matchesEntryShifts
  intro distance hmem
  split at hmem
  · cases hmem
  · split at hmem
    · split_ifs at hmem with hrange hzero hall
      · cases hmem
      · cases hmem
      · cases hmem
      · rw [List.mem_singleton.mp hmem]
        unfold IPV4_BITS at *
        omega
    · cases hmem

/-- The comparison of two addresses under the mask of an entry. -/
theorem masked_iff (network candidate : UInt32) {n : Nat} (hn : n ≤ 32) :
    (if (n : Int) = 0 then true
      else
        let mask : UInt32 := if (n : Int) = IPV4_BITS then ~~~0
          else ~~~((1 <<< UInt32.ofNat (IPV4_BITS - n).toNat) - 1)
        network &&& mask == candidate &&& mask) = true ↔
      network.toNat / 2 ^ (32 - n) = candidate.toNat / 2 ^ (32 - n) := by
  by_cases hzero : n = 0
  · -- no bit is compared, and both quotients are zero
    subst hzero
    simp only [Nat.cast_zero, if_true, true_iff, Nat.sub_zero]
    rw [Nat.div_eq_of_lt network.toNat_lt, Nat.div_eq_of_lt candidate.toNat_lt]
  by_cases hall : n = 32
  · -- every bit is compared
    subst hall
    simp [IPV4_BITS, ← UInt32.toNat_inj]
  · have hbits : (IPV4_BITS - (n : Int)).toNat = 32 - n := by
      unfold IPV4_BITS
      omega
    rw [if_neg (by omega)]
    simp only
    rw [if_neg (by unfold IPV4_BITS; omega), hbits, beq_iff_eq]
    exact and_mask_eq_iff network candidate (by omega)

theorem exists_numeral {numeral : Bytes → Nat → Prop} {parts : List Bytes} {octets : List Nat}
    (h : List.Forall₂ numeral parts octets) : ∀ part ∈ parts, ∃ n, numeral part n := by
  induction h with
  | nil => exact fun _ hpart => by cases hpart
  | @cons _ n _ _ hnumeral _ ih =>
      intro part hpart
      rcases List.mem_cons.mp hpart with rfl | hpart
      · exact ⟨n, hnumeral⟩
      · exact ih part hpart

theorem Quad.mem {text : Bytes} {octets : List Nat} (h : Quad SignedDecimal text octets) :
    ∀ c ∈ text, c = dot ∨ c = minus ∨ 0x30 ≤ c ∧ c ≤ 0x39 := by
  intro c hc
  obtain ⟨parts, hparts, rfl⟩ := h.written
  rcases mem_intercalate hc with rfl | ⟨part, hpart, hc⟩
  · exact Or.inl rfl
  · obtain ⟨n, hnumber⟩ := exists_numeral hparts part hpart
    exact Or.inr (hnumber.mem c hc)

theorem Quad.parseIpv4 {text : Bytes} {octets : List Nat} (h : Quad SignedDecimal text octets) :
    ∃ r, ClientAddress.parseIpv4 text = some r ∧ r.toNat = bitsOf octets := by
  have hbits := toNat_pack_zero h.four h.small
  exact ⟨_, parseIpv4_eq_some_iff.mpr ⟨octets, h, hbits⟩, hbits⟩

/-- **What an entry with a slash matches.** -/
theorem matchesEntry_iff {entry : Bytes} (hslash : slash ∈ entry) (address : Bytes) :
    matchesEntry address entry = true ↔ InRange SignedDecimal address entry := by
  cases hfound : entry.findIdx? (· == slash) with
  | none =>
      have hno := List.findIdx?_eq_none_iff.mp hfound slash hslash
      simp at hno
  | some i =>
      obtain ⟨-, hsplit⟩ := of_findIdx?_mark hfound
      constructor
      · intro h
        rw [matchesEntry, hfound] at h
        dsimp only at h
        split at h
        case h_2 => cases h
        case h_1 network candidate bits hnetwork hcandidate hbits =>
          -- the entry was read; a length out of range matches nothing
          by_cases hrange : bits < 0 ∨ IPV4_BITS < bits
          · rw [if_pos hrange] at h
            cases h
          · rw [if_neg hrange] at h
            unfold IPV4_BITS at hrange
            obtain ⟨n, rfl⟩ := Int.eq_ofNat_of_zero_le (by omega : 0 ≤ bits)
            obtain ⟨A, hA, hnetworkBits⟩ := parseIpv4_eq_some_iff.mp hnetwork
            obtain ⟨B, hB, hcandidateBits⟩ := parseIpv4_eq_some_iff.mp hcandidate
            have hsame := (masked_iff network candidate (by omega)).mp h
            rw [hnetworkBits, hcandidateBits] at hsame
            exact ⟨_, _, A, B, n, hsplit, hA, hB,
              (parseNumber_eq_some_iff (by omega)).mp hbits, by omega, hsame⟩
      · rintro ⟨network, length, A, B, n, rfl, hA, hB, hn, hle, hsame⟩
        -- the first slash is the one behind the network, which has none
        have hnoslash : slash ∉ network := fun hmem => absurd (hA.mem slash hmem) (by decide)
        have hi := findIdx?_mark hnoslash length
        rw [hfound, Option.some.injEq] at hi
        subst hi
        have htake : (network ++ slash :: length).take network.length = network := by simp
        have hdrop : (network ++ slash :: length).drop (network.length + 1) = length := by simp
        obtain ⟨r, hr, hrbits⟩ := hA.parseIpv4
        obtain ⟨r', hr', hrbits'⟩ := hB.parseIpv4
        have hbits := (parseNumber_eq_some_iff (by omega : n ≤ 255)).mpr hn
        rw [matchesEntry, hfound]
        dsimp only
        rw [htake, hdrop, hr, hr', hbits]
        dsimp only
        rw [if_neg (by unfold IPV4_BITS; omega)]
        refine (masked_iff r r' hle).mpr ?_
        rw [hrbits, hrbits', hsame]

/-! ## Signs -/

theorem Quad.imp {numeral numeral' : Bytes → Nat → Prop} {text : Bytes} {octets : List Nat}
    (h : Quad numeral text octets)
    (himp : ∀ part, (∀ c ∈ part, c ∈ text) → ∀ n, numeral part n → numeral' part n) :
    Quad numeral' text octets := by
  obtain ⟨parts, hparts, rfl⟩ := h.written
  refine ⟨h.four, h.small, parts, ?_, rfl⟩
  have hwithin : ∀ part ∈ parts, ∀ c ∈ part, c ∈ [dot].intercalate parts :=
    fun part hpart c hc => mem_intercalate_of_mem hpart hc
  clear h
  generalize [dot].intercalate parts = text at himp hwithin
  induction hparts with
  | nil => exact .nil
  | @cons part n parts octets hnumeral _ ih =>
      obtain ⟨hpart, hrest⟩ := List.forall_mem_cons.mp hwithin
      exact .cons (himp part hpart n hnumeral) (ih hrest)

theorem SignedDecimal.decimal {text : Bytes} {n : Nat} (h : SignedDecimal text n)
    (hminus : minus ∉ text) : Decimal text n := by
  rcases h with h | ⟨-, zeros, rfl, -⟩
  · exact h
  · exact absurd List.mem_cons_self hminus

theorem Decimal.minus_notMem {text : Bytes} {n : Nat} (h : Decimal text n) : minus ∉ text :=
  fun hmem => absurd (h.digits minus hmem).1 (by decide)

theorem Quad.minus_notMem {text : Bytes} {octets : List Nat} (h : Quad Decimal text octets) :
    minus ∉ text := by
  intro hmem
  obtain ⟨parts, hparts, rfl⟩ := h.written
  rcases mem_intercalate hmem with heq | ⟨part, hpart, hmem⟩
  · exact absurd heq (by decide)
  · obtain ⟨n, hnumber⟩ := exists_numeral hparts part hpart
    exact hnumber.minus_notMem hmem

/-- The blocks in decimal digits are those without a sign. -/
theorem inRange_decimal_iff {address entry : Bytes} : InRange Decimal address entry ↔
    InRange SignedDecimal address entry ∧ minus ∉ address ∧ minus ∉ entry := by
  constructor
  · rintro ⟨network, length, A, B, n, rfl, hA, hB, hn, hle, hsame⟩
    have hsigned : ∀ {text : Bytes} {octets : List Nat}, Quad Decimal text octets →
        Quad SignedDecimal text octets := fun h => h.imp (fun _ _ _ hnumber => Or.inl hnumber)
    refine ⟨⟨network, length, A, B, n, rfl, hsigned hA, hsigned hB, Or.inl hn, hle, hsame⟩,
      hB.minus_notMem, ?_⟩
    rw [List.mem_append, List.mem_cons, not_or, not_or]
    exact ⟨hA.minus_notMem, by decide, hn.minus_notMem⟩
  · rintro ⟨⟨network, length, A, B, n, rfl, hA, hB, hn, hle, hsame⟩, haddress, hentry⟩
    rw [List.mem_append, List.mem_cons, not_or, not_or] at hentry
    obtain ⟨hnetwork, -, hlength⟩ := hentry
    have hplain : ∀ {text : Bytes} {octets : List Nat}, minus ∉ text →
        Quad SignedDecimal text octets → Quad Decimal text octets :=
      fun hminus h => h.imp (fun _ hpart _ hnumber =>
        hnumber.decimal (fun hmem => hminus (hpart minus hmem)))
    exact ⟨network, length, A, B, n, rfl, hplain hnetwork hA, hplain haddress hB,
      hn.decimal hlength, hle, hsame⟩

/-- An entry matches the addresses of its block and no others, and no shift is undefined. -/
def MatchesExactly (address entry : Bytes) : Prop :=
  (matchesEntry address entry = true ↔ InRange Decimal address entry) ∧
    ∀ distance ∈ (matchesEntryShifts address entry).2, 0 ≤ distance ∧ distance < 32

/-- Read as zero, a minus in front of zeros makes the address one of the block. -/
def SignedMatch (address entry : Bytes) : Prop :=
  InRange SignedDecimal address entry ∧ (minus ∈ address ∨ minus ∈ entry)

/-- **Blocks match exactly the addresses in them**, but for numbers written as a minus and
zeros. -/
theorem matchesExactly_iff (address entry : Bytes) (hslash : slash ∈ entry) :
    MatchesExactly address entry ↔ ¬ SignedMatch address entry := by
  have hshifts : ∀ distance ∈ (matchesEntryShifts address entry).2, 0 ≤ distance ∧ distance < 32 :=
    fun distance hmem => (matchesEntryShifts_lt address entry distance hmem).imp_left le_of_lt
  rw [MatchesExactly, and_iff_left hshifts, matchesEntry_iff hslash, inRange_decimal_iff]
  unfold SignedMatch
  tauto

/-- The subnet of a container bridge. -/
theorem matchesExactly_bridge :
    MatchesExactly (ascii "172.18.0.1") (ascii "172.16.0.0/12") :=
  (matchesExactly_iff (ascii "172.18.0.1") (ascii "172.16.0.0/12") (by decide)).mpr
    (fun h => absurd h.2 (by decide))

/-- `std::from_chars` takes `-0` for a number. -/
theorem matchesEntry_signedZero :
    slash ∈ ascii "10.0.0.0/8" ∧ trim (ascii "10.0.0.0/8") = ascii "10.0.0.0/8" ∧
      isTrustedProxy (ascii "10.-0.0.1") [ascii "10.0.0.0/8"] = true ∧
      ¬ MatchesExactly (ascii "10.-0.0.1") (ascii "10.0.0.0/8") := by
  refine ⟨by decide, by decide +kernel, by decide +kernel, fun h => ?_⟩
  have hrange := h.1.mp (by decide +kernel)
  exact absurd (inRange_decimal_iff.mp hrange).2.1 (by decide)

end ClientAddress

end Launcher
