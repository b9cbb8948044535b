import Launcher.Database.Timestamptz
import Launcher.Domain.CrashReport

set_option autoImplicit false

/-! # The instant of a crash report

`validateOccurredAt` checks the shape of an instant and the calendar, but of the time and the
zone only that they are digits. PostgreSQL reads the same text and wants them in range. A text
of the right shape is an `InstantText`; `acceptedInstants_iff` says for which of them the cast
succeeds whenever the validator has let the text through. -/

namespace Launcher

open Lib

/-! ## Texts of the right shape -/

/-- `n` decimal digits. -/
@[ext] structure Digits (n : Nat) where
  text : Bytes
  length_eq : text.length = n
  isDigit : ∀ c ∈ text, isDigit c = true

def Digits.value {n : Nat} (d : Digits n) : Nat := numberOf d.text

@[ext] structure DateText where
  year : Digits 4
  month : Digits 2
  day : Digits 2

def DateText.text (d : DateText) : Bytes :=
  d.year.text ++ hyphen :: (d.month.text ++ hyphen :: d.day.text)

/-- The day is one of its month. -/
structure DateText.Exists (d : DateText) : Prop where
  month_pos : 1 ≤ d.month.value
  month_le : d.month.value ≤ 12
  day_pos : 1 ≤ d.day.value
  day_le : d.day.value ≤ daysInMonth d.year.value d.month.value

/-- The digits behind the point; there is at least one. -/
@[ext] structure Fraction where
  digits : Bytes
  nonempty : digits ≠ []
  isDigit : ∀ c ∈ digits, isDigit c = true

inductive Zone
  | utc
  | offset (west : Bool) (hours minutes : Digits 2)

def Zone.text : Zone → Bytes
  | .utc => [0x5a]
  | .offset west hours minutes =>
      (if west then hyphen else 0x2b) :: (hours.text ++ CrashReport.colon :: minutes.text)

def fractionText : Option Fraction → Bytes
  | none => []
  | some fraction => dot :: fraction.digits

@[ext] structure InstantText where
  date : DateText
  hour : Digits 2
  minute : Digits 2
  second : Digits 2
  fraction : Option Fraction
  zone : Zone

def InstantText.text (t : InstantText) : Bytes :=
  t.date.text ++ 0x54 :: (t.hour.text ++ CrashReport.colon :: (t.minute.text ++
    CrashReport.colon :: (t.second.text ++ (fractionText t.fraction ++ t.zone.text))))

/-! ### A text has one reading -/

theorem Digits.two (d : Digits 2) : ∃ a b, d.text = [a, b] := List.length_eq_two.mp d.length_eq

theorem Digits.four (d : Digits 4) : ∃ a b c e, d.text = [a, b, c, e] := by
  obtain ⟨text, hlength, -⟩ := d
  match text, hlength with
  | [a, b, c, e], _ => exact ⟨a, b, c, e, rfl⟩

theorem Zone.text_cons (zone : Zone) : ∃ c rest, zone.text = c :: rest ∧ isDigit c = false ∧
    c ≠ dot := by
  cases zone with
  | utc => exact ⟨0x5a, [], rfl, by decide, by decide⟩
  | offset west hours minutes =>
      cases west with
      | false => exact ⟨0x2b, _, rfl, by decide, by decide⟩
      | true => exact ⟨hyphen, _, rfl, by decide, by decide⟩

theorem Digits.append_inj {n : Nat} {d d' : Digits n} {x y : Bytes}
    (h : d.text ++ x = d'.text ++ y) : d = d' ∧ x = y := by
  obtain ⟨htext, hrest⟩ := List.append_inj h (d.length_eq.trans d'.length_eq.symm)
  exact ⟨Digits.ext htext, hrest⟩

theorem Zone.text_inj {zone zone' : Zone} (h : zone.text = zone'.text) : zone = zone' := by
  cases zone with
  | utc =>
      cases zone' with
      | utc => rfl
      | offset west hours minutes =>
          have hhead := (List.cons.inj h).1
          cases west <;> cases hhead
  | offset west hours minutes =>
      cases zone' with
      | utc =>
          have hhead := (List.cons.inj h).1
          cases west <;> cases hhead
      | offset west' hours' minutes' =>
          obtain ⟨hsign, hrest⟩ := List.cons.inj h
          obtain ⟨rfl, hminutes⟩ := Digits.append_inj hrest
          have hwest : west = west' := by
            cases west <;> cases west' <;> first | rfl | cases hsign
          rw [hwest, Digits.ext (List.cons.inj hminutes).2]

theorem takeWhile_digits {digits rest : Bytes} {c : UInt8}
    (h : ∀ d ∈ digits, isDigit d = true) (hc : isDigit c = false) :
    (digits ++ c :: rest).takeWhile isDigit = digits := by
  rw [List.takeWhile_append_of_pos h, List.takeWhile_cons_of_neg (by simp [hc]), List.append_nil]

theorem fraction_zone_inj {fraction fraction' : Option Fraction} {zone zone' : Zone}
    (h : fractionText fraction ++ zone.text = fractionText fraction' ++ zone'.text) :
    fraction = fraction' ∧ zone = zone' := by
  obtain ⟨c, rest, hzone, hc, hdot⟩ := zone.text_cons
  obtain ⟨c', rest', hzone', hc', hdot'⟩ := zone'.text_cons
  cases fraction with
  | none =>
      cases fraction' with
      | none => exact ⟨rfl, Zone.text_inj h⟩
      | some f' =>
          rw [hzone] at h
          exact absurd (List.cons.inj h).1 hdot
  | some f =>
      cases fraction' with
      | none =>
          rw [hzone'] at h
          exact absurd (List.cons.inj h).1.symm hdot'
      | some f' =>
          have hrest : f.digits ++ zone.text = f'.digits ++ zone'.text := (List.cons.inj h).2
          have hdigits : f.digits = f'.digits := by
            rw [hzone, hzone'] at hrest
            rw [← takeWhile_digits f.isDigit hc, hrest, takeWhile_digits f'.isDigit hc']
          rw [hdigits, List.append_cancel_left_eq] at hrest
          rw [Fraction.ext hdigits, Zone.text_inj hrest]
          exact ⟨rfl, rfl⟩

theorem InstantText.text_inj {t t' : InstantText} (h : t.text = t'.text) : t = t' := by
  simp only [InstantText.text, DateText.text, List.append_assoc, List.cons_append] at h
  obtain ⟨hyear, h⟩ := Digits.append_inj h
  obtain ⟨hmonth, h⟩ := Digits.append_inj (List.cons.inj h).2
  obtain ⟨hday, h⟩ := Digits.append_inj (List.cons.inj h).2
  obtain ⟨hhour, h⟩ := Digits.append_inj (List.cons.inj h).2
  obtain ⟨hminute, h⟩ := Digits.append_inj (List.cons.inj h).2
  obtain ⟨hsecond, h⟩ := Digits.append_inj (List.cons.inj h).2
  obtain ⟨hfraction, hzone⟩ := fraction_zone_inj h
  exact InstantText.ext (DateText.ext hyear hmonth hday) hhour hminute hsecond hfraction hzone

/-! ## What the validator lets through -/

section Validator

/-- A field of the right width that holds digits only. -/
def Digits.ofField {text : Bytes} (offset : Nat) {n : Nat} (hlength : offset + n ≤ text.length)
    (h : ∀ c ∈ (text.drop offset).take n, Launcher.isDigit c = true) : Digits n where
  text := (text.drop offset).take n
  length_eq := by
    rw [List.length_take, List.length_drop]
    omega
  isDigit := h

theorem allDigits_iff {text : Bytes} :
    CrashReport.allDigits text = true ↔ text ≠ [] ∧ ∀ c ∈ text, isDigit c = true := by
  rw [CrashReport.allDigits, Bool.and_eq_true, List.all_eq_true, Bool.not_eq_true',
    List.isEmpty_eq_false_iff]

theorem Digits.allDigits {n : Nat} (d : Digits (n + 1)) : CrashReport.allDigits d.text = true := by
  refine allDigits_iff.mpr ⟨fun hnil => ?_, d.isDigit⟩
  have hlength := d.length_eq
  rw [hnil] at hlength
  cases hlength

theorem Digits.all {n : Nat} (d : Digits n) : d.text.all Launcher.isDigit = true :=
  List.all_eq_true.mpr d.isDigit

theorem numberOf_lt {digits : Bytes} (h : ∀ c ∈ digits, isDigit c = true) :
    numberOf digits < 10 ^ digits.length := by
  induction digits using List.reverseRecOn with
  | nil => decide
  | append_singleton digits c ih =>
      have hfront := ih (fun d hd => h d (List.mem_append_left _ hd))
      have hlast := (digit_value (h c (by simp))).1
      rw [numberOf_snoc, List.length_append, List.length_singleton, pow_succ]
      omega

/-- What `validateReleaseDate` lets through is a date from 1970 on. -/
theorem exists_dateText {text : Bytes} (h : validateReleaseDate text = .ok ()) :
    ∃ d : DateText, text = d.text ∧ 1970 ≤ d.year.value ∧ d.Exists := by
  unfold validateReleaseDate at h
  dsimp only at h
  split_ifs at h with hmarks hdigits hrange
  simp only [not_or, not_not] at hmarks
  simp only [Bool.or_eq_true, Bool.not_eq_true', not_or, Bool.not_eq_false,
    List.all_eq_true] at hdigits
  obtain ⟨hlength, hmark4, hmark7⟩ := hmarks
  let d : DateText := ⟨Digits.ofField 0 (by omega) hdigits.1.1,
    Digits.ofField 5 (by omega) hdigits.1.2,
    Digits.ofField 8 (by omega) hdigits.2⟩
  have hyear : d.year.value = numberOf (text.take 4) := rfl
  have hmonth : d.month.value = numberOf ((text.drop 5).take 2) := rfl
  have hday : d.day.value = numberOf ((text.drop 8).take 2) := rfl
  refine ⟨d, ?_, by omega, ?_⟩
  · have hend : text.drop 10 = [] := List.drop_of_length_le (by omega)
    calc text = text.drop 0 := rfl
      _ = d.year.text ++ text.drop 4 := drop_eq_field text 0 4
      _ = d.year.text ++ hyphen :: text.drop 5 := by rw [drop_eq_mark hmark4]
      _ = d.year.text ++ hyphen :: (d.month.text ++ text.drop 7) := by
        rw [drop_eq_field text 5 2]
        rfl
      _ = d.year.text ++ hyphen :: (d.month.text ++ hyphen :: text.drop 8) := by
        rw [drop_eq_mark hmark7]
      _ = d.text := by
        rw [drop_eq_field text 8 2, hend, List.append_nil]
        rfl
  · refine ⟨?_, ?_, ?_, ?_⟩ <;> simp only [hyear, hmonth, hday] <;> omega

theorem DateText.validate {d : DateText} (hyear : 1970 ≤ d.year.value) (h : d.Exists) :
    validateReleaseDate d.text = .ok () := by
  have hlarge : d.year.value < 10 ^ d.year.text.length := numberOf_lt d.year.isDigit
  rw [d.year.length_eq] at hlarge
  obtain ⟨a, b, c, e, hyearText⟩ := d.year.four
  obtain ⟨m, m', hmonthText⟩ := d.month.two
  obtain ⟨n, n', hdayText⟩ := d.day.two
  have hfields : d.text.take 4 = d.year.text ∧ (d.text.drop 5).take 2 = d.month.text ∧
      (d.text.drop 8).take 2 = d.day.text := by
    simp [DateText.text, hyearText, hmonthText, hdayText]
  have hmarks : ¬ (d.text.length ≠ 10 ∨ d.text[4]? ≠ some hyphen ∨
      d.text[7]? ≠ some hyphen) := by
    simp [DateText.text, hyearText, hmonthText, hdayText]
  unfold validateReleaseDate
  dsimp only
  rw [hfields.1, hfields.2.1, hfields.2.2, if_neg hmarks,
    if_neg (by simp [d.year.all, d.month.all, d.day.all])]
  refine if_neg ?_
  obtain ⟨hlow, hhigh, hfirst, hlast⟩ := h
  simp only [Digits.value] at hyear hlarge hlow hhigh hfirst hlast
  omega

/-! ### Fractions and zones -/

/-- The place `find_first_not_of` finds. -/
theorem findIdx?_digits {digits rest : Bytes} {c : UInt8}
    (h : ∀ d ∈ digits, isDigit d = true) (hc : isDigit c = false) :
    (digits ++ c :: rest).findIdx? (fun d => !isDigit d) = some digits.length := by
  induction digits with
  | nil => simp [List.findIdx?_cons, hc]
  | cons d digits ih =>
      have hd := h d List.mem_cons_self
      rw [List.cons_append, List.findIdx?_cons, hd,
        ih (fun e he => h e (List.mem_cons_of_mem d he))]
      rfl

theorem digits_of_findIdx? {text : Bytes} {n : Nat}
    (h : text.findIdx? (fun d => !isDigit d) = some n) :
    n < text.length ∧ ∀ c ∈ text.take n, isDigit c = true := by
  obtain ⟨hn, -, hbefore⟩ := List.findIdx?_eq_some_iff_getElem.mp h
  refine ⟨hn, fun c hc => ?_⟩
  obtain ⟨i, hi, rfl⟩ := List.mem_iff_getElem.mp hc
  rw [List.length_take] at hi
  rw [List.getElem_take]
  simpa using hbefore i (by omega)

theorem validateZone_text (zone : Zone) : CrashReport.validateZone zone.text = .ok () := by
  cases zone with
  | utc => rfl
  | offset west hours minutes =>
      have hh := hours.allDigits
      have hm := minutes.allDigits
      obtain ⟨a, b, hhours⟩ := hours.two
      obtain ⟨c, d, hminutes⟩ := minutes.two
      rw [hhours] at hh
      rw [hminutes] at hm
      -- either sign stands in front of the same five bytes
      have hsign : ∀ s : UInt8, (s = 0x2b ∨ s = hyphen) →
          CrashReport.validateZone (s :: [a, b, CrashReport.colon, c, d]) = .ok () := by
        intro s hs
        unfold CrashReport.validateZone
        rw [if_neg (fun h => by cases h), if_pos]
        exact ⟨rfl, by simpa using hs, rfl, hh, hm⟩
      have htext : (Zone.offset west hours minutes).text
          = (if west then hyphen else 0x2b) :: [a, b, CrashReport.colon, c, d] := by
        rw [Zone.text, hhours, hminutes]
        rfl
      rw [htext]
      refine hsign _ ?_
      cases west with
      | false => exact .inl rfl
      | true => exact .inr rfl

theorem exists_zone {text : Bytes} (h : CrashReport.validateZone text = .ok ()) :
    ∃ zone : Zone, text = zone.text := by
  unfold CrashReport.validateZone at h
  split_ifs at h with hutc hoffset
  · exact ⟨.utc, hutc⟩
  · obtain ⟨hlength, hsign, hmark, hhours, hminutes⟩ := hoffset
    let hours : Digits 2 := Digits.ofField 1 (by omega) (allDigits_iff.mp hhours).2
    let minutes : Digits 2 := Digits.ofField 4 (by omega) (allDigits_iff.mp hminutes).2
    have hend : text.drop 6 = [] := List.drop_of_length_le (by omega)
    have hrest : text.drop 1 = hours.text ++ CrashReport.colon :: minutes.text := by
      conv_lhs => rw [drop_eq_field text 1 2, drop_eq_mark hmark, drop_eq_field text 4 2, hend,
        List.append_nil]
      rfl
    have hfront : ∀ c, text[0]? = some c →
        text = c :: (hours.text ++ CrashReport.colon :: minutes.text) := by
      intro c hc
      rw [← hrest]
      exact drop_eq_mark hc
    rcases hsign with hplus | hminus
    · exact ⟨.offset false hours minutes, hfront _ hplus⟩
    · exact ⟨.offset true hours minutes, hfront _ hminus⟩
  · cases h

theorem exists_fraction {text : Bytes} (h : CrashReport.validateFraction text = .ok ()) :
    ∃ fraction zone, text = fractionText fraction ++ Zone.text zone := by
  unfold CrashReport.validateFraction at h
  split_ifs at h with hpoint
  · obtain ⟨digits, rfl⟩ : ∃ digits, text = dot :: digits := by
      cases text with
      | nil => cases hpoint
      | cons c digits => exact ⟨digits, by rw [Option.some.inj hpoint]⟩
    rw [List.drop_one, List.tail_cons] at h
    dsimp only at h
    split at h
    case h_1 => cases h
    -- the digits end where the zone begins
    case h_2 n hzero hfound =>
      obtain ⟨hn, hdigits⟩ := digits_of_findIdx? hfound
      obtain ⟨zone, hzone⟩ := exists_zone h
      have hpos : 0 < n := Nat.pos_of_ne_zero hzero
      have hsome : digits.take n ≠ [] := List.ne_nil_of_length_pos (by rw [List.length_take]; omega)
      refine ⟨some ⟨digits.take n, hsome, hdigits⟩, zone, ?_⟩
      show dot :: digits = dot :: (digits.take n ++ zone.text)
      rw [← hzone, List.take_append_drop]
    case h_3 => cases h
  · obtain ⟨zone, rfl⟩ := exists_zone h
    exact ⟨none, zone, rfl⟩

theorem validateFraction_text (fraction : Option Fraction) (zone : Zone) :
    CrashReport.validateFraction (fractionText fraction ++ zone.text) = .ok () := by
  obtain ⟨c, rest, hzone, hc, hdot⟩ := zone.text_cons
  unfold CrashReport.validateFraction
  cases fraction with
  | none =>
      have hhead : (fractionText none ++ zone.text).head? ≠ some dot := by
        rw [fractionText, List.nil_append, hzone, List.head?_cons, ne_eq, Option.some.injEq]
        exact hdot
      rw [if_neg hhead]
      exact validateZone_text zone
  | some f =>
      have hfound : (f.digits ++ zone.text).findIdx? (fun c => !isDigit c)
          = some f.digits.length := by
        rw [hzone]
        exact findIdx?_digits f.isDigit hc
      rw [if_pos (by rfl)]
      simp only [show (fractionText (some f) ++ zone.text).drop 1 = f.digits ++ zone.text from rfl,
        hfound]
      split
      case h_1 hzero =>
        exact absurd (List.length_eq_zero_iff.mp (Option.some.inj hzero)) f.nonempty
      case h_2 last hne hlast =>
        rw [← Option.some.inj hlast, List.drop_left]
        exact validateZone_text zone
      case h_3 hnone => cases hnone

theorem exists_instantText {text : Bytes} (h : CrashReport.validateOccurredAt text = .ok ()) :
    ∃ t : InstantText, text = t.text ∧ 1970 ≤ t.date.year.value ∧ t.date.Exists := by
  unfold CrashReport.validateOccurredAt at h
  split_ifs at h with hmarks hdate hdigits
  · cases h
  · cases h
  · cases h
  · simp only [not_or, not_not, not_lt, CrashReport.SECONDS_END,
      CrashReport.DATE_LENGTH] at hmarks hdate h
    simp only [Bool.or_eq_true, Bool.not_eq_true', not_or, Bool.not_eq_false] at hdigits
    obtain ⟨hlength, hmark10, hmark13, hmark16⟩ := hmarks
    obtain ⟨⟨hhour, hminute⟩, hsecond⟩ := hdigits
    obtain ⟨date, hdateText, hyear, hexists⟩ := exists_dateText hdate
    obtain ⟨fraction, zone, hrest⟩ := exists_fraction h
    let t : InstantText := ⟨date,
      Digits.ofField 11 (by omega) (allDigits_iff.mp hhour).2,
      Digits.ofField 14 (by omega) (allDigits_iff.mp hminute).2,
      Digits.ofField 17 (by omega) (allDigits_iff.mp hsecond).2, fraction, zone⟩
    refine ⟨t, ?_, hyear, hexists⟩
    calc text = text.drop 0 := rfl
      _ = date.text ++ text.drop 10 := by
        rw [← hdateText]
        exact drop_eq_field text 0 10
      _ = date.text ++ 0x54 :: (t.hour.text ++ text.drop 13) := by
        rw [drop_eq_mark hmark10, drop_eq_field text 11 2]
        rfl
      _ = date.text ++ 0x54 :: (t.hour.text ++ CrashReport.colon ::
            (t.minute.text ++ text.drop 16)) := by
        rw [drop_eq_mark hmark13, drop_eq_field text 14 2]
        rfl
      _ = t.text := by
        rw [drop_eq_mark hmark16, drop_eq_field text 17 2, hrest]
        rfl

theorem InstantText.validate {t : InstantText} (hyear : 1970 ≤ t.date.year.value)
    (h : t.date.Exists) : CrashReport.validateOccurredAt t.text = .ok () := by
  have hdate := DateText.validate hyear h
  have hhour := t.hour.allDigits
  have hminute := t.minute.allDigits
  have hsecond := t.second.allDigits
  obtain ⟨zoneHead, zoneRest, hzone, -, -⟩ := t.zone.text_cons
  have hfraction := validateFraction_text t.fraction t.zone
  have hnonempty : 0 < (fractionText t.fraction ++ t.zone.text).length := by
    rw [List.length_append, hzone, List.length_cons]
    omega
  obtain ⟨a, b, c, e, hyearText⟩ := t.date.year.four
  obtain ⟨m, m', hmonthText⟩ := t.date.month.two
  obtain ⟨n, n', hdayText⟩ := t.date.day.two
  obtain ⟨i, i', hhourText⟩ := t.hour.two
  obtain ⟨j, j', hminuteText⟩ := t.minute.two
  obtain ⟨k, k', hsecondText⟩ := t.second.two
  -- nineteen bytes are written out; of the others the validator wants one
  generalize hrest : fractionText t.fraction ++ t.zone.text = rest at hfraction hnonempty
  have hdateText : t.date.text = [a, b, c, e, hyphen, m, m', hyphen, n, n'] := by
    simp [DateText.text, hyearText, hmonthText, hdayText]
  have htext : t.text = [a, b, c, e, hyphen, m, m', hyphen, n, n', 0x54, i, i',
      CrashReport.colon, j, j', CrashReport.colon, k, k'] ++ rest := by
    simp [InstantText.text, hdateText, hhourText, hminuteText, hsecondText, hrest]
  rw [hdateText] at hdate
  rw [hhourText] at hhour
  rw [hminuteText] at hminute
  rw [hsecondText] at hsecond
  unfold CrashReport.validateOccurredAt
  rw [htext, if_neg, if_neg, if_neg]
  · exact hfraction
  · simp [hhour, hminute, hsecond]
  · rw [not_not]
    exact hdate
  · simp only [not_or, not_not, not_lt]
    refine ⟨?_, rfl, rfl, rfl⟩
    rw [List.length_append]
    simp only [CrashReport.SECONDS_END, List.length_cons, List.length_nil]
    omega

/-- **The validator checks the shape and the calendar.** -/
theorem validateOccurredAt_iff {text : Bytes} : CrashReport.validateOccurredAt text = .ok () ↔
    ∃ t : InstantText, text = t.text ∧ 1970 ≤ t.date.year.value ∧ t.date.Exists := by
  constructor
  · exact exists_instantText
  · rintro ⟨t, rfl, hyear, hexists⟩
    exact InstantText.validate hyear hexists

end Validator

/-! ## What PostgreSQL reads -/

def Zone.InRange : Zone → Prop
  | .utc => True
  | .offset _ hours minutes => hours.value ≤ 15 ∧ minutes.value ≤ 59

/-- A day has 24 hours; its last second may be a sixtieth one. -/
structure InstantText.InRange (t : InstantText) (micros : Option Fraction → Nat) (limit : ℕ∞) :
    Prop where
  minute : t.minute.value ≤ 59
  second : t.second.value ≤ 60
  day : ((t.hour.value * 60 + t.minute.value) * 60 + t.second.value) * 1000000 +
    micros t.fraction ≤ 24 * 60 * 60 * 1000000
  zone : t.zone.InRange
  length : (t.text.length : ℕ∞) ≤ limit

theorem InstantText.InRange.hour {t : InstantText} {micros : Option Fraction → Nat} {limit : ℕ∞}
    (h : t.InRange micros limit) : t.hour.value ≤ 23 ∨
      (t.hour.value = 24 ∧ t.minute.value = 0 ∧ t.second.value = 0 ∧ micros t.fraction = 0) := by
  have hday := h.day
  omega

/-- PostgreSQL's input of a `timestamptz`, on the texts that are sent. It counts a fraction in
microseconds, and its buffer takes a text up to some length. -/
structure TimestamptzInput where
  accepts : Bytes → Prop
  micros : Option Fraction → Nat
  limit : ℕ∞
  accepts_iff : ∀ t : InstantText, accepts t.text ↔
    1 ≤ t.date.year.value ∧ t.date.Exists ∧ t.InRange micros limit

section Submit

variable {sha256Hex : Bytes → Bytes} {report row : NewCrashReport} {fingerprint : Bytes}

/-- The instant that is inserted has passed the validator. -/
theorem submit_occurredAt (h : CrashReport.submit sha256Hex report = .ok (row, fingerprint)) :
    row.occurredAt = trim report.occurredAt ∧
      CrashReport.validateOccurredAt (trim report.occurredAt) = .ok () := by
  obtain ⟨⟨⟩, hchecks, hrow⟩ := bind_ok h
  cases hrow
  refine ⟨rfl, ?_⟩
  unfold validateCrashReport at hchecks
  split_ifs at hchecks
  · cases hchecks
  obtain ⟨-, -, hchecks⟩ := bind_ok hchecks
  obtain ⟨-, -, hchecks⟩ := bind_ok hchecks
  obtain ⟨-, -, hchecks⟩ := bind_ok hchecks
  obtain ⟨-, -, hchecks⟩ := bind_ok hchecks
  obtain ⟨-, -, hchecks⟩ := bind_ok hchecks
  obtain ⟨-, -, hchecks⟩ := bind_ok hchecks
  exact hchecks

end Submit

/-- **Exactly the instants whose time and zone are in range** are safe to let through. -/
theorem acceptedInstants_iff (pg : TimestamptzInput) (text : Bytes) :
    ((CrashReport.validateOccurredAt text = .ok () → pg.accepts text) ∧
      ∀ sha256Hex report row fingerprint, trim report.occurredAt = text →
        CrashReport.submit sha256Hex report = .ok (row, fingerprint) →
        pg.accepts row.occurredAt) ↔
    ∀ t : InstantText, t.text = text → 1970 ≤ t.date.year.value → t.date.Exists →
      t.InRange pg.micros pg.limit := by
  constructor
  · rintro ⟨h, -⟩ t rfl hyear hexists
    exact ((pg.accepts_iff t).mp (h (InstantText.validate hyear hexists))).2.2
  · intro h
    have haccepts : CrashReport.validateOccurredAt text = .ok () → pg.accepts text := by
      intro hok
      obtain ⟨t, rfl, hyear, hexists⟩ := exists_instantText hok
      exact (pg.accepts_iff t).mpr ⟨by omega, hexists, h t rfl hyear hexists⟩
    refine ⟨haccepts, ?_⟩
    rintro sha256Hex report row fingerprint rfl hsubmit
    obtain ⟨hstored, hok⟩ := submit_occurredAt hsubmit
    rw [hstored]
    exact haccepts hok

/-! ### An instant that does not exist -/

/-- Microseconds, rounded at the seventh digit. -/
def microseconds : Option Fraction → Nat
  | none => 0
  | some fraction => (numberOf ((fraction.digits ++ List.replicate 7 0x30).take 7) + 5) / 10

def postgres : TimestamptzInput where
  accepts := fun text => ∃ t : InstantText, t.text = text ∧
    1 ≤ t.date.year.value ∧ t.date.Exists ∧ t.InRange microseconds 128
  micros := microseconds
  limit := 128
  accepts_iff := fun t => by
    constructor
    · rintro ⟨t', htext, h⟩
      rwa [InstantText.text_inj htext] at h
    · exact fun h => ⟨t, rfl, h⟩

theorem acceptedInstants_iff_noon :
    ((CrashReport.validateOccurredAt (ascii "2026-08-05T12:00:00Z") = .ok () →
        postgres.accepts (ascii "2026-08-05T12:00:00Z")) ∧
      ∀ sha256Hex report row fingerprint, trim report.occurredAt = ascii "2026-08-05T12:00:00Z" →
        CrashReport.submit sha256Hex report = .ok (row, fingerprint) →
        postgres.accepts row.occurredAt) ↔
    ∀ t : InstantText, t.text = ascii "2026-08-05T12:00:00Z" → 1970 ≤ t.date.year.value →
      t.date.Exists → t.InRange postgres.micros postgres.limit :=
  acceptedInstants_iff postgres (ascii "2026-08-05T12:00:00Z")

/-- 99:99:99 on a day that exists. -/
def ninetyNine : InstantText where
  date := ⟨⟨ascii "2026", by decide, by decide +kernel⟩,
    ⟨ascii "08", by decide, by decide +kernel⟩, ⟨ascii "05", by decide, by decide +kernel⟩⟩
  hour := ⟨ascii "99", by decide, by decide +kernel⟩
  minute := ⟨ascii "99", by decide, by decide +kernel⟩
  second := ⟨ascii "99", by decide, by decide +kernel⟩
  fraction := none
  zone := .utc

theorem ninetyNine_accepted :
    CrashReport.validateOccurredAt (ascii "2026-08-05T99:99:99Z") = .ok () ∧
      ¬ postgres.accepts (ascii "2026-08-05T99:99:99Z") := by
  refine ⟨by decide +kernel, fun h => ?_⟩
  have hread := (postgres.accepts_iff ninetyNine).mp h
  exact absurd hread.2.2.minute (by decide)

end Launcher
