import Mathlib.Tactic

set_option autoImplicit false

/-! # JSON texts

The grammar of RFC 8259 as a relation between a text and the value it denotes. Texts are byte
strings, numbers are exact, and an object keeps its members in the order of the text, repeated
keys included.

Which bytes may stand for themselves in a string is a parameter. `unescaped` is the RFC's own
choice, with the multi-byte characters of UTF-8 taken byte by byte; `notDelimiter` also lets
control characters through, as many readers do.

A `Place` is a text with one value left out. Whatever value text is put in, the whole is a text
again, and denotes what it denoted with that value at the same place (`Place.denotes`). -/

namespace Launcher.Lib

inductive Json
  | null
  | bool (value : Bool)
  | number (value : ℚ)
  | string (value : List UInt8)
  | array (elements : List Json)
  | object (members : List (List UInt8 × Json))

namespace Json

def quote : UInt8 := 0x22
def comma : UInt8 := 0x2c
def colon : UInt8 := 0x3a
def openBracket : UInt8 := 0x5b
def backslash : UInt8 := 0x5c
def closeBracket : UInt8 := 0x5d
def letterU : UInt8 := 0x75
def openBrace : UInt8 := 0x7b
def closeBrace : UInt8 := 0x7d

def nullText : List UInt8 := [0x6e, 0x75, 0x6c, 0x6c]
def trueText : List UInt8 := [0x74, 0x72, 0x75, 0x65]
def falseText : List UInt8 := [0x66, 0x61, 0x6c, 0x73, 0x65]

def isSpace (c : UInt8) : Bool := c == 0x20 || c == 0x09 || c == 0x0a || c == 0x0d

/-- Insignificant whitespace. -/
def Space (w : List UInt8) : Prop := ∀ c ∈ w, isSpace c = true

def commaSeparated : List (List UInt8) → List UInt8
  | [] => []
  | [t] => t
  | t :: ts => t ++ comma :: commaSeparated ts

/-! ## Strings -/

def unescaped (c : UInt8) : Bool := 0x20 ≤ c && c != quote && c != backslash

def notDelimiter (c : UInt8) : Bool := c != quote && c != backslash

/-- The two-character escapes. -/
def simpleEscape (e : UInt8) : Option UInt8 :=
  if e = quote then some quote
  else if e = backslash then some backslash
  else if e = 0x2f then some 0x2f
  else if e = 0x62 then some 0x08
  else if e = 0x66 then some 0x0c
  else if e = 0x6e then some 0x0a
  else if e = 0x72 then some 0x0d
  else if e = 0x74 then some 0x09
  else none

def hexValue? (c : UInt8) : Option Nat :=
  if 0x30 ≤ c ∧ c ≤ 0x39 then some (c.toNat - 0x30)
  else if 0x61 ≤ c ∧ c ≤ 0x66 then some (c.toNat - 0x57)
  else if 0x41 ≤ c ∧ c ≤ 0x46 then some (c.toNat - 0x37)
  else none

/-- The code unit of `\uXXXX`. -/
def codeUnit (a b c d : UInt8) : Option Nat := do
  return (((← hexValue? a) * 16 + (← hexValue? b)) * 16 + (← hexValue? c)) * 16 + (← hexValue? d)

def isHighSurrogate (n : Nat) : Bool := 0xd800 ≤ n && n < 0xdc00

def isLowSurrogate (n : Nat) : Bool := 0xdc00 ≤ n && n < 0xe000

def fromSurrogates (high low : Nat) : Nat := 0x10000 + (high - 0xd800) * 0x400 + (low - 0xdc00)

def encodeUtf8 (n : Nat) : List UInt8 :=
  if n < 0x80 then [UInt8.ofNat n]
  else if n < 0x800 then [UInt8.ofNat (0xc0 + n / 0x40), UInt8.ofNat (0x80 + n % 0x40)]
  else if n < 0x10000 then
    [UInt8.ofNat (0xe0 + n / 0x1000), UInt8.ofNat (0x80 + n / 0x40 % 0x40),
      UInt8.ofNat (0x80 + n % 0x40)]
  else
    [UInt8.ofNat (0xf0 + n / 0x40000), UInt8.ofNat (0x80 + n / 0x1000 % 0x40),
      UInt8.ofNat (0x80 + n / 0x40 % 0x40), UInt8.ofNat (0x80 + n % 0x40)]

/-- The characters between the quotation marks, and the bytes they stand for. -/
inductive Chars (raw : UInt8 → Bool) : List UInt8 → List UInt8 → Prop
  | nil : Chars raw [] []
  | plain {c : UInt8} {t s : List UInt8} (hraw : raw c = true) (hquote : c ≠ quote)
      (hbackslash : c ≠ backslash) (rest : Chars raw t s) : Chars raw (c :: t) (c :: s)
  | escape {e c : UInt8} {t s : List UInt8} (h : simpleEscape e = some c)
      (rest : Chars raw t s) : Chars raw (backslash :: e :: t) (c :: s)
  | unicode {a b c d : UInt8} {n : Nat} {t s : List UInt8} (h : codeUnit a b c d = some n)
      (hhigh : isHighSurrogate n = false) (hlow : isLowSurrogate n = false)
      (rest : Chars raw t s) :
      Chars raw (backslash :: letterU :: a :: b :: c :: d :: t) (encodeUtf8 n ++ s)
  | surrogates {a b c d a' b' c' d' : UInt8} {n n' : Nat} {t s : List UInt8}
      (h : codeUnit a b c d = some n) (h' : codeUnit a' b' c' d' = some n')
      (hhigh : isHighSurrogate n = true) (hlow : isLowSurrogate n' = true)
      (rest : Chars raw t s) :
      Chars raw (backslash :: letterU :: a :: b :: c :: d ::
          backslash :: letterU :: a' :: b' :: c' :: d' :: t)
        (encodeUtf8 (fromSurrogates n n') ++ s)

/-! ## Numbers -/

def isDigit (c : UInt8) : Bool := 0x30 ≤ c && c ≤ 0x39

def Digits (ds : List UInt8) : Prop := ds ≠ [] ∧ ∀ c ∈ ds, isDigit c = true

def digitsValue (ds : List UInt8) : Nat := ds.foldl (fun n c => n * 10 + (c.toNat - 0x30)) 0

def isExponentMark (c : UInt8) : Bool := c == 0x65 || c == 0x45

/-- A fraction, and its digits. -/
inductive Fraction : List UInt8 → List UInt8 → Prop
  | absent : Fraction [] []
  | present {ds : List UInt8} (h : Digits ds) : Fraction (0x2e :: ds) ds

/-- An exponent, and what it is. -/
inductive Exponent : List UInt8 → Int → Prop
  | absent : Exponent [] 0
  | unsigned {mark : UInt8} {ds : List UInt8} (hmark : isExponentMark mark = true)
      (h : Digits ds) : Exponent (mark :: ds) (digitsValue ds)
  | plus {mark : UInt8} {ds : List UInt8} (hmark : isExponentMark mark = true)
      (h : Digits ds) : Exponent (mark :: 0x2b :: ds) (digitsValue ds)
  | minus {mark : UInt8} {ds : List UInt8} (hmark : isExponentMark mark = true)
      (h : Digits ds) : Exponent (mark :: 0x2d :: ds) (-digitsValue ds)

/-- `mantissa` times ten to the `exponent`. -/
def scaled (mantissa : Int) : Int → ℚ
  | .ofNat k => ((mantissa * 10 ^ k : Int) : ℚ)
  | .negSucc k => mkRat mantissa (10 ^ (k + 1))

def signed (negative : Bool) (n : Nat) : Int := if negative then -n else n

/-- A leading zero stands alone. -/
def NoLeadingZero (ds : List UInt8) : Prop := ds.head? = some 0x30 → ds = [0x30]

inductive Number : List UInt8 → ℚ → Prop
  | mk {whole fractionText fraction exponentText : List UInt8} {exponent : Int}
      (negative : Bool) (hwhole : Digits whole) (hzero : NoLeadingZero whole)
      (hfraction : Fraction fractionText fraction) (hexponent : Exponent exponentText exponent) :
      Number ((if negative then [0x2d] else []) ++ whole ++ fractionText ++ exponentText)
        (scaled (signed negative (digitsValue (whole ++ fraction)))
          (exponent - fraction.length))

/-! ## Values -/

/-- A member of an object, as it is written and what it means. -/
structure Member where
  before : List UInt8
  keyText : List UInt8
  key : List UInt8
  after : List UInt8
  valueText : List UInt8
  value : Json

/-- Up to the value. -/
def Member.lead (m : Member) : List UInt8 :=
  m.before ++ quote :: (m.keyText ++ quote :: (m.after ++ [colon]))

def Member.text (m : Member) : List UInt8 := m.lead ++ m.valueText

def Member.pair (m : Member) : List UInt8 × Json := (m.key, m.value)

/-- What surrounds the value of a member is written as it has to be. -/
structure Member.Keyed (raw : UInt8 → Bool) (m : Member) : Prop where
  before : Space m.before
  key : Chars raw m.keyText m.key
  after : Space m.after

/-- The text denotes the value. -/
inductive Denotes (raw : UInt8 → Bool) : List UInt8 → Json → Prop
  | space {w t w' : List UInt8} {j : Json} (h : Space w) (h' : Space w') (value : Denotes raw t j) :
      Denotes raw (w ++ t ++ w') j
  | null : Denotes raw nullText .null
  | true : Denotes raw trueText (.bool true)
  | false : Denotes raw falseText (.bool false)
  | number {t : List UInt8} {q : ℚ} (h : Number t q) : Denotes raw t (.number q)
  | string {t s : List UInt8} (h : Chars raw t s) :
      Denotes raw (quote :: (t ++ [quote])) (.string s)
  | emptyArray {w : List UInt8} (h : Space w) :
      Denotes raw (openBracket :: (w ++ [closeBracket])) (.array [])
  | array {es : List (List UInt8 × Json)} (hne : es ≠ []) (h : ∀ e ∈ es, Denotes raw e.1 e.2) :
      Denotes raw (openBracket :: (commaSeparated (es.map Prod.fst) ++ [closeBracket]))
        (.array (es.map Prod.snd))
  | emptyObject {w : List UInt8} (h : Space w) :
      Denotes raw (openBrace :: (w ++ [closeBrace])) (.object [])
  | object {ms : List Member} (hne : ms ≠ []) (hkeys : ∀ m ∈ ms, m.Keyed raw)
      (h : ∀ m ∈ ms, Denotes raw m.valueText m.value) :
      Denotes raw (openBrace :: (commaSeparated (ms.map Member.text) ++ [closeBrace]))
        (.object (ms.map Member.pair))

/-! ## A text with one value left out -/

/-- What is before the value, what is after it, and what the whole denotes by the value. -/
inductive Place (raw : UInt8 → Bool) : List UInt8 → List UInt8 → (Json → Json) → Prop
  | here : Place raw [] [] id
  | space {w w' pre post : List UInt8} {C : Json → Json} (h : Space w) (h' : Space w')
      (inner : Place raw pre post C) : Place raw (w ++ pre) (post ++ w') C
  | element {es es' : List (List UInt8 × Json)} {pre post : List UInt8} {C : Json → Json}
      (h : ∀ e ∈ es, Denotes raw e.1 e.2) (h' : ∀ e ∈ es', Denotes raw e.1 e.2)
      (inner : Place raw pre post C) :
      Place raw (openBracket :: (es.flatMap (fun e => e.1 ++ [comma]) ++ pre))
        (post ++ (es'.flatMap (fun e => comma :: e.1) ++ [closeBracket]))
        (fun j => .array (es.map Prod.snd ++ C j :: es'.map Prod.snd))
  | member {ms ms' : List Member} {m : Member} {pre post : List UInt8} {C : Json → Json}
      (hkey : m.Keyed raw) (hkeys : ∀ m ∈ ms, m.Keyed raw) (hkeys' : ∀ m ∈ ms', m.Keyed raw)
      (h : ∀ m ∈ ms, Denotes raw m.valueText m.value)
      (h' : ∀ m ∈ ms', Denotes raw m.valueText m.value) (inner : Place raw pre post C) :
      Place raw (openBrace :: (ms.flatMap (fun m => m.text ++ [comma]) ++ (m.lead ++ pre)))
        (post ++ (ms'.flatMap (fun m => comma :: m.text) ++ [closeBrace]))
        (fun j => .object (ms.map Member.pair ++ (m.key, C j) :: ms'.map Member.pair))

theorem commaSeparated_cons (t : List UInt8) (ts : List (List UInt8)) :
    commaSeparated (t :: ts) = t ++ ts.flatMap (fun u => comma :: u) := by
  induction ts generalizing t with
  | nil => simp [commaSeparated]
  | cons u us ih =>
      rw [commaSeparated, ih]
      · simp
      · simp

theorem commaSeparated_append_cons (ts : List (List UInt8)) (t : List UInt8)
    (ts' : List (List UInt8)) :
    commaSeparated (ts ++ t :: ts') =
      ts.flatMap (fun u => u ++ [comma]) ++ (t ++ ts'.flatMap (fun u => comma :: u)) := by
  induction ts with
  | nil => exact commaSeparated_cons t ts'
  | cons u us ih =>
      have hsplit : commaSeparated (u :: (us ++ t :: ts')) =
          u ++ comma :: commaSeparated (us ++ t :: ts') := by
        cases us <;> rfl
      rw [List.cons_append, hsplit, ih]
      simp

theorem Space.nil : Space [] := fun _ h => (List.not_mem_nil h).elim

/-- **Filling in the value.** -/
theorem Place.denotes {raw : UInt8 → Bool} {pre post t : List UInt8} {C : Json → Json} {j : Json}
    (h : Place raw pre post C) (ht : Denotes raw t j) : Denotes raw (pre ++ t ++ post) (C j) := by
  induction h with
  | here => simpa using ht
  | space h h' inner ih =>
      have := Denotes.space h h' ih
      simpa [List.append_assoc] using this
  | @element es es' pre post C h h' inner ih =>
      have hall : ∀ e ∈ es ++ (pre ++ t ++ post, C j) :: es', Denotes raw e.1 e.2 := by
        intro e he
        rcases List.mem_append.mp he with he | he
        · exact h e he
        · rcases List.mem_cons.mp he with rfl | he
          · exact ih
          · exact h' e he
      have hwhole := Denotes.array (by simp) hall
      rw [List.map_append, List.map_cons, commaSeparated_append_cons] at hwhole
      simpa [List.flatMap_map, List.append_assoc] using hwhole
  | @member ms ms' m pre post C hkey hkeys hkeys' h h' inner ih =>
      have hall : ∀ m' ∈ ms ++ { m with valueText := pre ++ t ++ post, value := C j } :: ms',
          m'.Keyed raw ∧ Denotes raw m'.valueText m'.value := by
        intro m' hm
        rcases List.mem_append.mp hm with hm | hm
        · exact ⟨hkeys m' hm, h m' hm⟩
        · rcases List.mem_cons.mp hm with rfl | hm
          · exact ⟨⟨hkey.before, hkey.key, hkey.after⟩, ih⟩
          · exact ⟨hkeys' m' hm, h' m' hm⟩
      have hwhole := Denotes.object (by simp) (fun m' hm => (hall m' hm).1)
        (fun m' hm => (hall m' hm).2)
      rw [List.map_append, List.map_cons, commaSeparated_append_cons] at hwhole
      simpa [List.flatMap_map, List.append_assoc, Member.text, Member.lead, Member.pair]
        using hwhole

/-- Bytes that stand for themselves. -/
theorem Chars.self {raw : UInt8 → Bool} {t : List UInt8}
    (h : ∀ c ∈ t, raw c = true ∧ c ≠ quote ∧ c ≠ backslash) : Chars raw t t := by
  induction t with
  | nil => exact .nil
  | cons c t ih =>
      obtain ⟨hraw, hquote, hbackslash⟩ := h c List.mem_cons_self
      exact .plain hraw hquote hbackslash (ih (fun d hd => h d (List.mem_cons_of_mem c hd)))

/-- A whole number without sign, fraction and exponent. -/
theorem Number.whole {ds : List UInt8} (h : Digits ds) (hzero : NoLeadingZero ds) :
    Number ds (digitsValue ds) := by
  have hnumber := Number.mk false h hzero .absent .absent
  simpa [signed, scaled] using hnumber

end Json

end Launcher.Lib
