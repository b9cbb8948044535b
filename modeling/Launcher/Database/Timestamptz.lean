import Launcher.Domain.LauncherRelease
import Launcher.Domain.Versions
import Launcher.Lib.Words

set_option autoImplicit false

/-! # timestamptz

What PostgreSQL makes of an instant written `YYYY-MM-DDTHH:MM:SSZ`, and how `to_char` writes
it again. A value is kept as its calendar fields in UTC. The input allows a second 60 and
carries it into the next minute, so of the texts with the right shape exactly those with
another second come back as they were (`toChar_cast_iff`). -/

namespace Launcher

open Lib

/-- An instant, as its fields in UTC. -/
structure Timestamptz where
  year : Nat
  month : Nat
  day : Nat
  hour : Nat
  minute : Nat
  second : Nat
  month_pos : 1 ≤ month
  month_le : month ≤ 12
  day_pos : 1 ≤ day
  day_le : day ≤ daysInMonth year month
  hour_lt : hour < 24
  minute_lt : minute < 60
  second_lt : second < 60
  deriving DecidableEq, Repr

theorem daysInMonth_pos {year month : Nat} (h : 1 ≤ month) (h' : month ≤ 12) :
    1 ≤ daysInMonth year month := by
  unfold daysInMonth
  split
  · split <;> decide
  · interval_cases month <;> decide

namespace Timestamptz

/-! ## Carrying into the next field -/

section Carry

variable (t : Timestamptz)

def nextDay : Timestamptz :=
  if h : t.day < daysInMonth t.year t.month then
    { t with day := t.day + 1, day_pos := by omega, day_le := h }
  else if h : t.month < 12 then
    { t with
      month := t.month + 1, day := 1, month_pos := by omega, month_le := h, day_pos := le_refl 1,
      day_le := daysInMonth_pos (by omega) h }
  else
    { t with
      year := t.year + 1, month := 1, day := 1, month_pos := le_refl 1, month_le := by omega,
      day_pos := le_refl 1, day_le := daysInMonth_pos (le_refl 1) (by omega) }

def nextHour : Timestamptz :=
  if h : t.hour < 23 then { t with hour := t.hour + 1, hour_lt := by omega }
  else { t.nextDay with hour := 0, hour_lt := by omega }

/-- The start of the next minute. -/
def nextMinute : Timestamptz :=
  if h : t.minute < 59 then
    { t with minute := t.minute + 1, second := 0, minute_lt := by omega, second_lt := by omega }
  else
    { t.nextHour with minute := 0, second := 0, minute_lt := by omega, second_lt := by omega }

@[simp] theorem nextMinute_second : t.nextMinute.second = 0 := by
  unfold nextMinute
  split <;> rfl

end Carry

/-! ## Reading and writing -/

/-- `$n::timestamptz`, on the texts that pass `isUtcTimestamp`; no others are sent. There is no
year 0, and the day has to exist. -/
def cast (text : Bytes) : Option Timestamptz :=
  let year := numberAt text 0 4
  let month := numberAt text 5 2
  let day := numberAt text 8 2
  let hour := numberAt text 11 2
  let minute := numberAt text 14 2
  let second := numberAt text 17 2
  if !isUtcTimestamp text then none
  else if h : 1 ≤ year ∧ (1 ≤ month ∧ month ≤ 12) ∧ (1 ≤ day ∧ day ≤ daysInMonth year month) ∧
      hour < 24 ∧ minute < 60 then
    let start : Timestamptz :=
      { year := year, month := month, day := day, hour := hour, minute := minute, second := 0,
        month_pos := h.2.1.1, month_le := h.2.1.2, day_pos := h.2.2.1.1, day_le := h.2.2.1.2,
        hour_lt := h.2.2.2.1, minute_lt := h.2.2.2.2, second_lt := by omega }
    if hs : second < 60 then some { start with second := second, second_lt := hs }
    else some start.nextMinute
  else none

/-- `n` with leading zeros up to `width` digits. -/
def padded (width n : Nat) : Bytes :=
  List.replicate (width - (decimal n).length) 0x30 ++ decimal n

/-- `to_char(… AT TIME ZONE 'UTC', 'YYYY-MM-DD"T"HH24:MI:SS"Z"')`. -/
def toChar (t : Timestamptz) : Bytes :=
  padded 4 t.year ++ [hyphen] ++ padded 2 t.month ++ [hyphen] ++ padded 2 t.day ++ [0x54] ++
    padded 2 t.hour ++ [0x3a] ++ padded 2 t.minute ++ [0x3a] ++ padded 2 t.second ++ [0x5a]

/-! ## Digits of a fixed width -/

/-- Digits are what their number is padded to. -/
theorem padded_numberOf {digits : Bytes} (hne : digits ≠ [])
    (hdigits : ∀ c ∈ digits, isDigit c = true) :
    padded digits.length (numberOf digits) = digits := by
  induction digits using List.reverseRecOn with
  | nil => exact absurd rfl hne
  | append_singleton digits c ih =>
      obtain ⟨hlt, hc⟩ := digit_value (hdigits c (by simp))
      have hfirst : ∀ c' ∈ digits, isDigit c' = true := fun c' hc' =>
        hdigits c' (List.mem_append_left _ hc')
      rw [numberOf_snoc, List.length_append, List.length_singleton]
      rcases Nat.eq_zero_or_pos (numberOf digits) with hzero | hpos
      · -- all the digits in front are zeros
        have hzeros : digits = List.replicate digits.length 0x30 := by
          cases digits with
          | nil => rfl
          | cons d rest =>
              have hpad := ih (List.cons_ne_nil d rest) hfirst
              rw [hzero, padded, show decimal (0 : Nat) = [0x30] from decimal_digit (by decide),
                ← List.replicate_succ'] at hpad
              exact hpad.symm
        rw [hzero, zero_mul, zero_add, padded, decimal_digit hlt, hc, List.length_singleton,
          Nat.add_sub_cancel, ← hzeros]
      · have hne : digits ≠ [] := by
          rintro rfl
          exact absurd hpos (by decide)
        have hpad := ih hne hfirst
        rw [padded, decimal_snoc hpos hlt, hc, List.length_append, List.length_singleton,
          Nat.add_sub_add_right, ← List.append_assoc, ← padded, hpad]

theorem isDigit_padded {width n : Nat} : ∀ c ∈ padded width n, isDigit c = true := by
  intro c hc
  rcases List.mem_append.mp hc with hc | hc
  · rw [(List.mem_replicate.mp hc).2]
    decide
  · exact isDigit_decimal n c hc

/-! ## The round trip -/

/-- The places of a text of the right shape. -/
structure Shaped (text : Bytes) : Prop where
  length : text.length = TIMESTAMP_LENGTH
  digit : ∀ i ∈ TIMESTAMP_DIGITS, (text[i]?).any isDigit = true
  mark4 : text[4]? = some hyphen
  mark7 : text[7]? = some hyphen
  mark10 : text[10]? = some 0x54
  mark13 : text[13]? = some 0x3a
  mark16 : text[16]? = some 0x3a
  mark19 : text[19]? = some 0x5a
  second : numberAt text 17 2 ≤ 60

theorem shaped_of_isUtcTimestamp {text : Bytes} (h : isUtcTimestamp text = true) :
    Shaped text := by
  unfold isUtcTimestamp at h
  split_ifs at h with hlength hdigits hmarks
  simp only [Bool.not_eq_true', Bool.not_eq_false, List.all_eq_true] at hdigits
  simp only [not_or, not_not] at hmarks
  simp only [Bool.and_eq_true, decide_eq_true_eq] at h
  exact ⟨not_not.mp hlength, hdigits, hmarks.1, hmarks.2.1, hmarks.2.2.1, hmarks.2.2.2.1,
    hmarks.2.2.2.2.1, hmarks.2.2.2.2.2, h.2⟩

/-- Digits of the text that stand side by side are the padded form of their number. -/
theorem Shaped.field {text : Bytes} (h : Shaped text) {offset width : Nat} (hpos : 0 < width)
    (hplaces : ∀ i < width, offset + i ∈ TIMESTAMP_DIGITS) (hfits : offset + width ≤ 20) :
    padded width (numberAt text offset width) = (text.drop offset).take width := by
  have hlength : ((text.drop offset).take width).length = width := by
    rw [List.length_take, List.length_drop, h.length, TIMESTAMP_LENGTH]
    omega
  have hdigits : ∀ c ∈ (text.drop offset).take width, isDigit c = true := by
    intro c hc
    obtain ⟨i, hi, rfl⟩ := List.mem_iff_getElem.mp hc
    have hdigit := h.digit (offset + i) (hplaces i (by omega))
    rw [List.getElem_take, List.getElem_drop]
    rwa [List.getElem?_eq_getElem, Option.any_some] at hdigit
  have hpad := padded_numberOf (List.ne_nil_of_length_pos (by omega)) hdigits
  rw [hlength] at hpad
  exact hpad

theorem Shaped.eq_fields {text : Bytes} (h : Shaped text) :
    text = padded 4 (numberAt text 0 4) ++ [hyphen] ++ padded 2 (numberAt text 5 2) ++ [hyphen] ++
      padded 2 (numberAt text 8 2) ++ [0x54] ++ padded 2 (numberAt text 11 2) ++ [0x3a] ++
      padded 2 (numberAt text 14 2) ++ [0x3a] ++ padded 2 (numberAt text 17 2) ++ [0x5a] := by
  have hend : text.drop 20 = [] := List.drop_of_length_le (by rw [h.length, TIMESTAMP_LENGTH])
  rw [h.field (by decide) (by decide) (by decide), h.field (by decide) (by decide) (by decide),
    h.field (by decide) (by decide) (by decide), h.field (by decide) (by decide) (by decide),
    h.field (by decide) (by decide) (by decide), h.field (by decide) (by decide) (by decide)]
  simp only [List.append_assoc, List.cons_append, List.nil_append]
  conv_lhs =>
    rw [show text = text.drop 0 from rfl, drop_eq_field text 0 4, drop_eq_mark h.mark4,
      drop_eq_field text 5 2, drop_eq_mark h.mark7, drop_eq_field text 8 2,
      drop_eq_mark h.mark10, drop_eq_field text 11 2, drop_eq_mark h.mark13,
      drop_eq_field text 14 2, drop_eq_mark h.mark16, drop_eq_field text 17 2,
      drop_eq_mark h.mark19, hend]

/-- A value that was read from a text, and what the text says. -/
theorem cast_eq_some {text : Bytes} {t : Timestamptz} (h : cast text = some t) :
    isUtcTimestamp text = true ∧
      ((numberAt text 17 2 < 60 ∧ t.year = numberAt text 0 4 ∧ t.month = numberAt text 5 2 ∧
          t.day = numberAt text 8 2 ∧ t.hour = numberAt text 11 2 ∧
          t.minute = numberAt text 14 2 ∧ t.second = numberAt text 17 2) ∨
        (60 ≤ numberAt text 17 2 ∧ t.second = 0)) := by
  unfold cast at h
  simp only at h
  split_ifs at h with hshape hfields hsecond
  · obtain rfl := Option.some.inj h
    exact ⟨by simpa using hshape, Or.inl ⟨hsecond, rfl, rfl, rfl, rfl, rfl, rfl⟩⟩
  · obtain rfl := Option.some.inj h
    exact ⟨by simpa using hshape, Or.inr ⟨not_lt.mp hsecond, nextMinute_second _⟩⟩

/-- **The text comes back unless its second is 60.** -/
theorem toChar_cast_iff {text : Bytes} {t : Timestamptz} (h : cast text = some t) :
    t.toChar = text ↔ numberAt text 17 2 ≠ 60 := by
  obtain ⟨hshape, hvalue⟩ := cast_eq_some h
  have hshaped := shaped_of_isUtcTimestamp hshape
  rcases hvalue with ⟨hlt, hyear, hmonth, hday, hhour, hminute, hsecond⟩ | ⟨hge, hzero⟩
  · have hback : t.toChar = text := by
      rw [toChar, hyear, hmonth, hday, hhour, hminute, hsecond]
      exact hshaped.eq_fields.symm
    exact ⟨fun _ => by omega, fun _ => hback⟩
  · have hsixty : numberAt text 17 2 = 60 := le_antisymm hshaped.second hge
    refine ⟨fun hback => ?_, fun hne => absurd hsixty hne⟩
    -- the carried value writes its own second, 0
    have hdrop : text.drop (text.length - 3) = padded 2 t.second ++ [0x5a] := by
      have hlen : (padded 2 t.second).length = 2 := by
        rw [hzero]
        decide +kernel
      obtain ⟨front, hfront⟩ : ∃ front, t.toChar = front ++ (padded 2 t.second ++ [0x5a]) :=
        ⟨_, by rw [toChar, List.append_assoc]⟩
      rw [← hback, hfront]
      refine List.drop_left' ?_
      simp only [List.length_append, List.length_singleton, hlen]
      omega
    rw [hshaped.length, hzero] at hdrop
    rw [numberAt, show (17 : Nat) = TIMESTAMP_LENGTH - 3 from rfl, hdrop] at hsixty
    exact absurd hsixty (by decide +kernel)

end Timestamptz

end Launcher
