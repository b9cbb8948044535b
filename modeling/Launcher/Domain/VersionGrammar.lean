import Launcher.Domain.Versions
import Launcher.Lib.Patterns

set_option autoImplicit false

/-! # The grammar of versions

A version is one to three components with dots between them; a component is `0` or a number
without a zero in front, at most `MAX_VERSION_COMPONENT`. `parseSemver` reads exactly this, and
what it keeps has the form `game_versions` demands. The loop of `parseComponent` stops before
the next step could leave the range of an `int`. -/

namespace Launcher

open Lib
open scoped Computability

/-- `0|[1-9][0-9]*`. -/
def COMPONENT : Language UInt8 :=
  char 0x30 + oneOf (fun c => isDigit c && c != 0x30) * (oneOf isDigit)∗

/-- `game_versions_semver_format`: `^[0-9]+(\.[0-9]+){0,2}$`. -/
def GAME_VERSIONS_SEMVER_FORMAT : Language UInt8 :=
  atLeastOne (oneOf isDigit) * repeated 0 2 (char dot * atLeastOne (oneOf isDigit))

/-- The components of a version. -/
structure IsVersion (parts : List Bytes) (text : Bytes) : Prop where
  nonempty : parts ≠ []
  three : parts.length ≤ 3
  component : ∀ part ∈ parts, part ∈ COMPONENT
  bounded : ∀ part ∈ parts, numberOf part ≤ MAX_VERSION_COMPONENT
  joined : text = [dot].intercalate parts

/-! ## Components -/

section Components

variable {text : Bytes}

theorem mem_component : text ∈ COMPONENT ↔ text = [0x30] ∨
    text ≠ [] ∧ (∀ c ∈ text, isDigit c = true) ∧ text.head? ≠ some 0x30 := by
  rw [COMPONENT, Language.mem_add, mem_char]
  refine or_congr_right ?_
  rw [Language.mem_mul]
  constructor
  · rintro ⟨_, ⟨c, rfl, hc⟩, rest, hrest, rfl⟩
    rw [Bool.and_eq_true, bne_iff_ne] at hc
    rw [mem_oneOf_kstar] at hrest
    refine ⟨List.cons_ne_nil c rest, fun d hd => ?_, by simpa using hc.2⟩
    rcases List.mem_cons.mp hd with rfl | hd
    · exact hc.1
    · exact hrest d hd
  · rintro ⟨hne, hdigits, hhead⟩
    cases text with
    | nil => exact absurd rfl hne
    | cons c rest =>
        have hzero : c ≠ 0x30 := by simpa using hhead
        refine ⟨[c], ⟨c, rfl, ?_⟩, rest, ?_, rfl⟩
        · rw [Bool.and_eq_true, bne_iff_ne]
          exact ⟨hdigits c List.mem_cons_self, hzero⟩
        · rw [mem_oneOf_kstar]
          exact fun d hd => hdigits d (List.mem_cons_of_mem c hd)

theorem numberOf_decimal (n : Nat) : numberOf (decimal n) = n := by
  induction n using digit_induction with
  | small d hd =>
      rw [decimal_digit hd]
      simpa [numberOf] using (isDigit_ofNat d hd).2
  | more n d hn hd ih =>
      rw [decimal_snoc hn hd, numberOf_snoc, ih, (isDigit_ofNat d hd).2]

/-- Without a zero in front, digits are the spelling of the number they denote. -/
theorem decimal_numberOf (hne : text ≠ []) (hdigits : ∀ c ∈ text, isDigit c = true)
    (hhead : text.head? ≠ some 0x30) : decimal (numberOf text) = text ∧ 0 < numberOf text := by
  induction text using List.reverseRecOn with
  | nil => exact absurd rfl hne
  | append_singleton front c ih =>
      obtain ⟨hlt, hc⟩ := digit_value (hdigits c (by simp))
      rw [numberOf_snoc]
      -- only the first digit has to differ from zero
      by_cases hfront : front = []
      · subst hfront
        have hpos : c.toNat - 0x30 ≠ 0 := by
          intro hzero
          rw [hzero] at hc
          exact hhead (by simp [← hc])
        have hsum : numberOf [] * 10 + (c.toNat - 0x30) = c.toNat - 0x30 := by simp [numberOf]
        rw [hsum]
        exact ⟨by rw [decimal_digit hlt, hc, List.nil_append], by omega⟩
      · rw [List.head?_append_of_ne_nil _ hfront] at hhead
        obtain ⟨hspelled, hpos⟩ := ih hfront (fun d hd => hdigits d (by simp [hd])) hhead
        exact ⟨by rw [decimal_snoc hpos hlt, hspelled, hc], by omega⟩

theorem decimal_of_mem_component (h : text ∈ COMPONENT) : decimal (numberOf text) = text := by
  rcases mem_component.mp h with rfl | ⟨hne, hdigits, hhead⟩
  · exact decimal_digit (by decide)
  · exact (decimal_numberOf hne hdigits hhead).1

theorem decimal_mem_component (n : Nat) : decimal n ∈ COMPONENT := by
  rw [mem_component]
  rcases Nat.eq_zero_or_pos n with rfl | hpos
  · exact .inl (decimal_digit (by decide))
  · exact .inr ⟨decimal_ne_nil n, isDigit_decimal n, decimal_head hpos⟩

end Components

/-! ## Versions -/

section Parse

variable {input : Bytes} {version : Semver}

/-- `parseSemver` reads the numbers of a spelling. -/
theorem parseSemver_spell {numbers : List Nat} (hne : numbers ≠ []) (hthree : numbers.length ≤ 3)
    (hmax : ∀ n ∈ numbers, n ≤ MAX_VERSION_COMPONENT) (h : trim input = spell numbers) :
    parseSemver input
      = .ok ⟨numbers.getD 0 0, numbers.getD 1 0, numbers.getD 2 0, trim input⟩ := by
  have hparts : (trim input).splitOn dot = numbers.map (fun n : Nat => decimal n) := by
    rw [h]
    exact components_spell hne
  have hsome : (trim input).isEmpty = false := by
    rw [List.isEmpty_eq_false_iff]
    intro hnil
    obtain ⟨n, rest, rfl⟩ := List.exists_cons_of_ne_nil hne
    rw [hnil, List.map_cons] at hparts
    exact decimal_ne_nil n (List.cons.inj hparts).1.symm
  have hnumbers := mapM_parseComponent.mpr ⟨hparts, hmax⟩
  have hcount : ¬ 3 < ((trim input).splitOn dot).length := by
    rw [hparts, List.length_map]
    omega
  simp only [parseSemver, hsome, Bool.false_eq_true, if_false, hcount, hnumbers]
  rfl

theorem parseSemver_iff : parseSemver input = .ok version ↔ ∃ parts : List Bytes,
    IsVersion parts (trim input) ∧ version = ⟨(parts.map numberOf).getD 0 0,
      (parts.map numberOf).getD 1 0, (parts.map numberOf).getD 2 0, trim input⟩ := by
  constructor
  · intro h
    obtain ⟨htrim, numbers, hne, hthree, htext, h0, h1, h2, hmax⟩ := parseSemver_ok h
    -- reading the spelled numbers gives the numbers back
    have hback : (numbers.map (fun n : Nat => decimal n)).map numberOf = numbers := by
      rw [List.map_map]
      exact (List.map_congr_left (fun n _ => numberOf_decimal n)).trans (List.map_id numbers)
    refine ⟨numbers.map (fun n : Nat => decimal n), ⟨by simpa using hne, by simpa using hthree,
      fun part hpart => ?_, fun part hpart => ?_, by rw [← htrim, htext]; rfl⟩, ?_⟩
    · obtain ⟨n, hn, rfl⟩ := List.mem_map.mp hpart
      exact decimal_mem_component n
    · obtain ⟨n, hn, rfl⟩ := List.mem_map.mp hpart
      rw [numberOf_decimal]
      exact hmax n hn
    · rw [hback, ← h0, ← h1, ← h2, ← htrim]
  · rintro ⟨parts, hparts, rfl⟩
    have hspell : trim input = spell (parts.map numberOf) := by
      have hsame : (parts.map numberOf).map (fun n : Nat => decimal n) = parts := by
        rw [List.map_map]
        exact (List.map_congr_left (fun part hpart =>
          decimal_of_mem_component (hparts.component part hpart))).trans (List.map_id parts)
      rw [spell, hsame]
      exact hparts.joined
    refine parseSemver_spell (by simpa using hparts.nonempty) (by simpa using hparts.three)
      (fun n hn => ?_) hspell
    obtain ⟨part, hpart, rfl⟩ := List.mem_map.mp hn
    exact hparts.bounded part hpart

theorem IsVersion.format {parts : List Bytes} {text : Bytes} (h : IsVersion parts text) :
    text ∈ GAME_VERSIONS_SEMVER_FORMAT := by
  refine mem_separated_upTo.mpr ⟨parts, h.nonempty, h.three, fun part hpart => ?_, h.joined⟩
  rw [mem_atLeastOne_oneOf]
  rcases mem_component.mp (h.component part hpart) with rfl | ⟨hne, hdigits, -⟩
  · exact ⟨by decide, by decide +kernel⟩
  · exact ⟨hne, hdigits⟩

end Parse

/-! ## The range of an `int` -/

/-- The value of an `int` expression; `none` is an overflow. -/
def toInt32 (n : Int) : Option Int := if -2 ^ 31 ≤ n ∧ n < 2 ^ 31 then some n else none

/-- The loop of `parseComponent` with every intermediate value an `int`. -/
def scanComponentInt : Bytes → Int → Option (Result Int)
  | [], value => some (.ok value)
  | c :: rest, value =>
      if !isDigit c then some (versionInvalid "version components must be numeric")
      else do
        let scaled ← toInt32 (value * 10)
        let digit ← toInt32 ((c.toNat : Int) - 0x30)
        let value ← toInt32 (scaled + digit)
        if (MAX_VERSION_COMPONENT : Int) < value then
          some (.error (invalidInput (ascii "version components are too large")
            (ascii "version_too_large") [decimal MAX_VERSION_COMPONENT]))
        else scanComponentInt rest value

def parseComponentInt (text : Bytes) : Option (Result Int) :=
  if text.isEmpty then some (versionInvalid "version components must not be empty")
  else if 1 < text.length ∧ text.head? = some 0x30 then
    some (versionInvalid "version components must not have leading zeros")
  else scanComponentInt text 0

theorem toInt32_of_le {n : Nat} (h : n < 2 ^ 31) : toInt32 n = some (n : Int) := by
  rw [toInt32, if_pos (by omega)]

/-- What has been read is at most `MAX_VERSION_COMPONENT` when the next digit comes. -/
theorem scanComponentInt_eq {rest : Bytes} {value : Nat} (h : value ≤ MAX_VERSION_COMPONENT) :
    scanComponentInt rest value = some ((scanComponent rest value).map (Nat.cast : Nat → Int)) := by
  rw [MAX_VERSION_COMPONENT] at h
  induction rest generalizing value with
  | nil => rfl
  | cons c rest ih =>
      rw [scanComponentInt, scanComponent]
      cases hc : isDigit c with
      | false => rfl
      | true =>
          obtain ⟨hlt, -⟩ := digit_value hc
          have hdigit : ((c.toNat : Int) - 0x30) = ((c.toNat - 0x30 : Nat) : Int) := by
            have hle : 0x30 ≤ c.toNat := by
              simp only [isDigit, Bool.and_eq_true, decide_eq_true_eq,
                UInt8.le_iff_toNat_le] at hc
              exact hc.1
            omega
          -- each of the three intermediate values is far below `2 ^ 31`
          have hscaled : toInt32 ((value : Int) * 10) = some ((value * 10 : Nat) : Int) := by
            have hcast : (value : Int) * 10 = ((value * 10 : Nat) : Int) := by push_cast; ring
            rw [hcast]
            exact toInt32_of_le (by omega)
          have hsum : toInt32 (((value * 10 : Nat) : Int) + ((c.toNat - 0x30 : Nat) : Int))
              = some ((value * 10 + (c.toNat - 0x30) : Nat) : Int) := by
            rw [← Nat.cast_add]
            exact toInt32_of_le (by omega)
          have hsmall : toInt32 ((c.toNat - 0x30 : Nat) : Int)
              = some ((c.toNat - 0x30 : Nat) : Int) := toInt32_of_le (by omega)
          rw [if_neg (by simp), if_neg (by simp), hdigit, hscaled, hsmall]
          rw [Option.bind_eq_bind, Option.bind_some, Option.bind_some, hsum, Option.bind_some]
          by_cases hmax : MAX_VERSION_COMPONENT < value * 10 + (c.toNat - 0x30)
          · rw [if_pos hmax, if_pos (by exact_mod_cast hmax)]
            rfl
          · rw [if_neg hmax, if_neg (by exact_mod_cast hmax), ih]
            rw [MAX_VERSION_COMPONENT] at hmax
            omega

theorem parseComponentInt_eq (text : Bytes) :
    parseComponentInt text = some ((parseComponent text).map (Nat.cast : Nat → Int)) := by
  rw [parseComponentInt, parseComponent]
  split_ifs
  · rfl
  · rfl
  · exact scanComponentInt_eq (Nat.zero_le _)

/-- **The parser accepts exactly its grammar**, keeps what the table demands, and never
overflows. -/
theorem parseSemver_reads_grammar :
    (∀ input version, parseSemver input = .ok version ↔ ∃ parts : List Bytes,
      IsVersion parts (trim input) ∧ version = ⟨(parts.map numberOf).getD 0 0,
        (parts.map numberOf).getD 1 0, (parts.map numberOf).getD 2 0, trim input⟩) ∧
    (∀ input version, parseSemver input = .ok version →
      version.text ∈ GAME_VERSIONS_SEMVER_FORMAT) ∧
    ∀ text, parseComponentInt text = some ((parseComponent text).map (Nat.cast : Nat → Int)) := by
  refine ⟨fun input version => parseSemver_iff, fun input version h => ?_, parseComponentInt_eq⟩
  obtain ⟨parts, hparts, rfl⟩ := parseSemver_iff.mp h
  exact hparts.format

end Launcher
