import Launcher.Domain.ManifestIdentity
import Launcher.Domain.Publishing

set_option autoImplicit false

/-! # Versions and their spellings

What `parseSemver` accepts are one to three decimal numbers with dots between them, each
written the way `std::to_string` writes it. Leading zeros are refused, so the one freedom left
is how many components are written: the numbers and the number of components determine the
text. -/

namespace Launcher

/-! ## Decimal numbers -/

theorem decimal_natCast (n : Nat) :
    decimal n = (Nat.toDigits 10 n).map (fun c => UInt8.ofNat c.toNat) := by
  show ((toString (n : Int)).toList).map _ = _
  rw [show toString (n : Int) = n.repr from rfl]
  simp

theorem digitChar_toNat : ∀ d < 10, (Nat.digitChar d).toNat = 0x30 + d := by decide

theorem decimal_digit {d : Nat} (h : d < 10) : decimal d = [UInt8.ofNat (0x30 + d)] := by
  rw [decimal_natCast, Nat.toDigits_of_lt_base h]
  simp [digitChar_toNat d h]

/-- One more digit on the right. -/
theorem decimal_snoc {n d : Nat} (hn : 0 < n) (hd : d < 10) :
    decimal (n * 10 + d : Nat) = decimal n ++ [UInt8.ofNat (0x30 + d)] := by
  have hdigits : Nat.toDigits 10 (n * 10 + d) = Nat.toDigits 10 n ++ Nat.toDigits 10 d := by
    rw [Nat.toDigits_append_toDigits (by decide) hn hd, Nat.mul_comm]
  have hd' := decimal_digit hd
  rw [decimal_natCast] at hd'
  rw [decimal_natCast, decimal_natCast, hdigits, List.map_append, hd']

/-- A digit is the last one of a number. -/
theorem digit_value {c : UInt8} (h : isDigit c = true) :
    c.toNat - 0x30 < 10 ∧ UInt8.ofNat (0x30 + (c.toNat - 0x30)) = c := by
  simp only [isDigit, Bool.and_eq_true, decide_eq_true_eq, UInt8.le_iff_toNat_le] at h
  have hlo : 0x30 ≤ c.toNat := h.1
  have hhi : c.toNat ≤ 0x39 := h.2
  have hsum : 0x30 + (c.toNat - 0x30) = c.toNat := by omega
  exact ⟨by omega, by rw [hsum, UInt8.ofNat_toNat]⟩

theorem isDigit_ofNat : ∀ d < 10, isDigit (UInt8.ofNat (0x30 + d)) = true ∧
    (UInt8.ofNat (0x30 + d)).toNat - 0x30 = d := by decide

theorem numberOf_snoc (digits : Bytes) (c : UInt8) :
    numberOf (digits ++ [c]) = numberOf digits * 10 + (c.toNat - 0x30) := by
  rw [numberOf, List.foldl_append]
  rfl

/-- Induction over the decimal digits of a number. -/
theorem digit_induction {P : Nat → Prop} (small : ∀ d < 10, P d)
    (more : ∀ n d, 0 < n → d < 10 → P n → P (n * 10 + d)) (n : Nat) : P n := by
  induction n using Nat.strongRecOn with
  | ind n ih =>
      by_cases hsmall : n < 10
      · exact small n hsmall
      · have hsplit : n = n / 10 * 10 + n % 10 := by omega
        rw [hsplit]
        exact more (n / 10) (n % 10) (by omega) (by omega) (ih (n / 10) (by omega))

theorem decimal_ne_nil (n : Nat) : decimal n ≠ [] := by
  rw [decimal_natCast, ne_eq, List.map_eq_nil_iff]
  exact Nat.toDigits_ne_nil

theorem isDigit_decimal (n : Nat) : ∀ c ∈ decimal n, isDigit c = true := by
  induction n using digit_induction with
  | small d hd =>
      intro c hc
      rw [decimal_digit hd] at hc
      rw [List.mem_singleton.mp hc]
      exact (isDigit_ofNat d hd).1
  | more n d hn hd ih =>
      intro c hc
      rw [decimal_snoc hn hd] at hc
      rcases List.mem_append.mp hc with hc | hc
      · exact ih c hc
      · rw [List.mem_singleton.mp hc]
        exact (isDigit_ofNat d hd).1

theorem dot_notMem_decimal (n : Nat) : dot ∉ decimal n := fun h =>
  absurd (isDigit_decimal n dot h) (by decide)

/-- Only a single digit can be a zero in front. -/
theorem decimal_head {n : Nat} : 0 < n → (decimal n).head? ≠ some 0x30 := by
  induction n using digit_induction with
  | small d hd =>
      intro hpos
      rw [decimal_digit hd, List.head?_cons]
      revert d
      decide
  | more n d hn hd ih =>
      intro _
      rw [decimal_snoc hn hd, List.head?_append_of_ne_nil _ (decimal_ne_nil n)]
      exact ih hn

/-! ## Components -/

/-- The loop of `parseComponent` appends digits to the number it has read. -/
theorem scanComponent_ok {rest : Bytes} : ∀ {value n : Nat}, 0 < value →
    value ≤ MAX_VERSION_COMPONENT → scanComponent rest value = .ok n →
      decimal n = decimal value ++ rest ∧ n ≤ MAX_VERSION_COMPONENT := by
  induction rest with
  | nil =>
      intro value n _ hmax h
      simp only [scanComponent, Except.ok.injEq] at h
      subst h
      exact ⟨(List.append_nil _).symm, hmax⟩
  | cons c rest ih =>
      intro value n hpos _ h
      simp only [scanComponent] at h
      split at h
      case isTrue => cases h
      case isFalse hdigit =>
        split at h
        case isTrue => cases h
        case isFalse hmax =>
          obtain ⟨hlt, hc⟩ := digit_value (by simpa using hdigit)
          obtain ⟨hn, hle⟩ := ih (by omega) (by omega) h
          refine ⟨?_, hle⟩
          rw [hn, decimal_snoc hpos hlt, hc, List.append_assoc, List.singleton_append]

theorem scanComponent_decimal {rest : Bytes} {n : Nat} : n ≤ MAX_VERSION_COMPONENT →
    scanComponent (decimal n ++ rest) 0 = scanComponent rest n := by
  induction n using digit_induction generalizing rest with
  | small d hd =>
      intro hmax
      obtain ⟨hdigit, hvalue⟩ := isDigit_ofNat d hd
      rw [decimal_digit hd, List.singleton_append, scanComponent]
      simp only [hdigit, hvalue, Bool.not_true, Bool.false_eq_true, if_false, zero_mul, zero_add]
      rw [if_neg (by omega)]
  | more n d hn hd ih =>
      intro hmax
      obtain ⟨hdigit, hvalue⟩ := isDigit_ofNat d hd
      rw [decimal_snoc hn hd, List.append_assoc, ih (by omega), List.singleton_append,
        scanComponent]
      simp only [hdigit, hvalue, Bool.not_true, Bool.false_eq_true, if_false]
      rw [if_neg (by omega)]

/-- A component is the one spelling of its number. -/
theorem parseComponent_iff {text : Bytes} {n : Nat} :
    parseComponent text = .ok n ↔ text = decimal n ∧ n ≤ MAX_VERSION_COMPONENT := by
  constructor
  · intro h
    cases text with
    | nil => simp [parseComponent, versionInvalid] at h
    | cons c rest =>
        simp only [parseComponent, List.isEmpty_cons, Bool.false_eq_true, if_false] at h
        split at h
        case isTrue => cases h
        case isFalse hzero =>
          simp only [scanComponent, zero_mul, zero_add] at h
          split at h
          case isTrue => cases h
          case isFalse hdigit =>
            split at h
            case isTrue => cases h
            case isFalse hmax =>
              obtain ⟨hlt, hc⟩ := digit_value (by simpa using hdigit)
              have hfirst := decimal_digit hlt
              rw [hc] at hfirst
              cases rest with
              | nil =>
                  simp only [scanComponent, Except.ok.injEq] at h
                  subst h
                  exact ⟨hfirst.symm, by omega⟩
              | cons c' rest =>
                  -- the first of several digits is not a zero
                  have hpos : 0 < c.toNat - 0x30 := by
                    by_contra hnot
                    have hnil : c.toNat - 0x30 = 0 := by omega
                    rw [hnil] at hc
                    exact hzero ⟨by simp, by simp [← hc]⟩
                  obtain ⟨hn, hle⟩ := scanComponent_ok hpos (by omega) h
                  exact ⟨by rw [hn, hfirst, List.singleton_append], hle⟩
  · rintro ⟨rfl, hmax⟩
    have hzero : ¬ (1 < (decimal n).length ∧ (decimal n).head? = some 0x30) := by
      rintro ⟨hlen, hhead⟩
      by_cases hpos : 0 < n
      · exact decimal_head hpos hhead
      · have hnil : n = 0 := by omega
        rw [hnil, decimal_digit (by decide)] at hlen
        simp at hlen
    have hscan : scanComponent (decimal n ++ []) 0 = scanComponent [] n :=
      scanComponent_decimal hmax
    rw [List.append_nil] at hscan
    simp only [parseComponent, List.isEmpty_iff, decimal_ne_nil, if_false, hzero, hscan]
    rfl

/-! ## Versions -/

/-- The components of a version's text. -/
def components (text : Bytes) : List Bytes := text.splitOn dot

/-- The text whose components are the given numbers. -/
def spell (numbers : List Nat) : Bytes := [dot].intercalate (numbers.map (fun n : Nat => decimal n))

theorem components_spell {numbers : List Nat} (h : numbers ≠ []) :
    components (spell numbers) = numbers.map (fun n : Nat => decimal n) := by
  apply List.splitOn_intercalate
  · intro component hc
    obtain ⟨n, _, rfl⟩ := List.mem_map.mp hc
    exact dot_notMem_decimal n
  · simpa using h

theorem mapM_parseComponent {texts : List Bytes} : ∀ {numbers : List Nat},
    texts.mapM parseComponent = .ok numbers ↔
      texts = numbers.map (fun n : Nat => decimal n) ∧ ∀ n ∈ numbers, n ≤ MAX_VERSION_COMPONENT := by
  induction texts with
  | nil =>
      intro numbers
      cases numbers with
      | nil => simp [pure, Except.pure]
      | cons n rest => simp [pure, Except.pure]
  | cons text texts ih =>
      intro numbers
      rw [mapM_cons_ok]
      constructor
      · rintro ⟨n, rest, rfl, hfirst, hrest⟩
        obtain ⟨htext, hn⟩ := parseComponent_iff.mp hfirst
        obtain ⟨htexts, hmax⟩ := ih.mp hrest
        exact ⟨by rw [htext, htexts, List.map_cons], List.forall_mem_cons.mpr ⟨hn, hmax⟩⟩
      · rintro ⟨htexts, hmax⟩
        cases numbers with
        | nil => cases htexts
        | cons n rest =>
            obtain ⟨htext, hrest⟩ := List.cons.inj htexts
            obtain ⟨hn, hmax⟩ := List.forall_mem_cons.mp hmax
            exact ⟨n, rest, rfl, parseComponent_iff.mpr ⟨htext, hn⟩, ih.mpr ⟨hrest, hmax⟩⟩

/-- What `parseSemver` accepts, after the trim. -/
theorem parseSemver_ok {input : Bytes} {version : Semver} (h : parseSemver input = .ok version) :
    version.text = trim input ∧ ∃ numbers : List Nat, numbers ≠ [] ∧ numbers.length ≤ 3 ∧
      version.text = spell numbers ∧ version.major = numbers.getD 0 0 ∧
      version.minor = numbers.getD 1 0 ∧ version.patch = numbers.getD 2 0 ∧
      ∀ n ∈ numbers, n ≤ MAX_VERSION_COMPONENT := by
  simp only [parseSemver] at h
  split at h
  case isTrue => cases h
  case isFalse =>
    split at h
    case isTrue => cases h
    case isFalse hthree =>
      cases hnumbers : (trim input).splitOn dot |>.mapM parseComponent with
      | error e =>
          rw [hnumbers] at h
          cases h
      | ok numbers =>
          rw [hnumbers] at h
          obtain rfl : _ = version := Except.ok.inj h
          obtain ⟨htexts, hmax⟩ := mapM_parseComponent.mp hnumbers
          have hlen : numbers.length = ((trim input).splitOn dot).length := by
            rw [htexts, List.length_map]
          refine ⟨rfl, numbers, ?_, by omega, ?_, rfl, rfl, rfl, hmax⟩
          · rintro rfl
            exact List.splitOn_ne_nil dot (trim input) htexts
          · show trim input = spell numbers
            rw [spell, ← htexts, List.intercalate_splitOn]

/-- The numbers and how many of them are written determine the text of a version. -/
theorem text_eq_of_numbers {input input' : Bytes} {version version' : Semver}
    (h : parseSemver input = .ok version) (h' : parseSemver input' = .ok version')
    (hmajor : version.major = version'.major) (hminor : version.minor = version'.minor)
    (hpatch : version.patch = version'.patch)
    (hcount : (components version.text).length = (components version'.text).length) :
    version.text = version'.text := by
  obtain ⟨-, numbers, hne, hlen, htext, h0, h1, h2, -⟩ := parseSemver_ok h
  obtain ⟨-, numbers', hne', hlen', htext', h0', h1', h2', -⟩ := parseSemver_ok h'
  rw [htext, htext', components_spell hne, components_spell hne', List.length_map,
    List.length_map] at hcount
  have hnumbers : numbers = numbers' := by
    apply List.ext_getElem hcount
    intro i hi hi'
    have hget : ∀ l : List Nat, ∀ hl : i < l.length, l[i] = l.getD i 0 := by
      intro l hl
      simp [List.getD_eq_getElem?_getD, hl]
    rw [hget numbers hi, hget numbers' hi']
    have hthree : i = 0 ∨ i = 1 ∨ i = 2 := by omega
    rcases hthree with rfl | rfl | rfl
    · rw [← h0, ← h0', hmajor]
    · rw [← h1, ← h1', hminor]
    · rw [← h2, ← h2', hpatch]
  rw [htext, htext', hnumbers]

end Launcher
