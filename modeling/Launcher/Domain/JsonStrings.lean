import Launcher.Domain.Manifest
import Launcher.Lib.JsonStrings

set_option autoImplicit false

/-! # The two writers of JSON strings

`appendCanonicalJsonString` writes the strings of manifests and release documents, and
`escapeJson` those of the log lines. They escape different bytes in different ways; both write
characters that RFC 8259 reads back byte for byte. -/

namespace Launcher

open Lib

/-! ## The logger's -/

/-- An `int` that is not negative, after `std::hex`. -/
def hexText (n : Nat) : Bytes := (Nat.toDigits 16 n).map (fun c => UInt8.ofNat c.toNat)

/-- How `escapeJson` writes one byte: `std::setw(4)` and `std::setfill('0')` stand in front of
the number. -/
def escapeJsonByte (c : UInt8) : Bytes :=
  if c == 0x22 then [0x5c, 0x22]
  else if c == 0x5c then [0x5c, 0x5c]
  else if c == 0x0a then [0x5c, 0x6e]
  else if c == 0x0d then [0x5c, 0x72]
  else if c == 0x09 then [0x5c, 0x74]
  else if c < 0x20 then ascii "\\u" ++ (hexText c.toNat).leftpad 4 0x30
  else [c]

def escapeJson (value : Bytes) : Bytes := value.flatMap escapeJsonByte

/-- A value of a log line, between the quotation marks of the pattern. -/
def loggedString (value : Bytes) : Bytes := Json.quote :: (escapeJson value ++ [Json.quote])

/-! ## What they write -/

theorem plain_chars {c : UInt8} {t s : Bytes} (hquote : ¬ (c == 0x22) = true)
    (hbackslash : ¬ (c == 0x5c) = true) (hcontrol : ¬ c < 0x20)
    (h : Json.Chars Json.unescaped t s) : Json.Chars Json.unescaped (c :: t) (c :: s) := by
  have hquote' : c ≠ Json.quote := fun h => hquote (beq_iff_eq.mpr h)
  have hbackslash' : c ≠ Json.backslash := fun h => hbackslash (beq_iff_eq.mpr h)
  have hplain : Json.unescaped c = true := by
    simp only [Json.unescaped, Bool.and_eq_true, decide_eq_true_eq, bne_iff_ne]
    exact ⟨⟨not_lt.mp hcontrol, hquote'⟩, hbackslash'⟩
  exact .plain hplain hquote' hbackslash' h

/-- The code unit of a control character. -/
theorem control_chars {digits : Bytes} {c : UInt8} {t s : Bytes}
    (hdigits : ∃ a b d e, digits = [a, b, d, e] ∧ Json.codeUnit a b d e = some c.toNat)
    (hcontrol : c < 0x20) (h : Json.Chars Json.unescaped t s) :
    Json.Chars Json.unescaped (Json.backslash :: Json.letterU :: (digits ++ t)) (c :: s) := by
  obtain ⟨a, b, d, e, rfl, hunit⟩ := hdigits
  have hlow : ∀ n < 0x20, Json.isHighSurrogate n = false ∧ Json.isLowSurrogate n = false ∧
      Json.encodeUtf8 n = [UInt8.ofNat n] := by decide
  obtain ⟨hhigh, hlow, hencode⟩ := hlow c.toNat (UInt8.lt_iff_toNat_lt.mp hcontrol)
  have hchars := Json.Chars.unicode hunit hhigh hlow h
  rw [hencode, UInt8.ofNat_toNat] at hchars
  exact hchars

theorem canonicalJsonByte_control : ∀ n < 0x20,
    Json.codeUnit 0x30 0x30 (hexDigit (n / 16 % 16)) (hexDigit (n % 16)) = some n := by
  decide

theorem escapeJsonByte_control : ∀ n < 0x20, ∃ a b d e,
    (hexText n).leftpad 4 0x30 = [a, b, d, e] ∧ Json.codeUnit a b d e = some n := by
  have hpadded : ∀ n < 0x20, (hexText n).leftpad 4 0x30
      = [0x30, 0x30, hexDigit (n / 16 % 16), hexDigit (n % 16)] := by decide +kernel
  exact fun n hn => ⟨_, _, _, _, hpadded n hn, canonicalJsonByte_control n hn⟩

theorem canonicalJsonByte_chars : Json.WritesChars Json.unescaped canonicalJsonByte := by
  intro c t s h
  unfold canonicalJsonByte
  split_ifs with hquote hbackslash hb hf hn hr ht hcontrol
  · rw [beq_iff_eq.mp hquote]
    exact .escape (e := 0x22) (by decide) h
  · rw [beq_iff_eq.mp hbackslash]
    exact .escape (e := 0x5c) (by decide) h
  · rw [beq_iff_eq.mp hb]
    exact .escape (e := 0x62) (by decide) h
  · rw [beq_iff_eq.mp hf]
    exact .escape (e := 0x66) (by decide) h
  · rw [beq_iff_eq.mp hn]
    exact .escape (e := 0x6e) (by decide) h
  · rw [beq_iff_eq.mp hr]
    exact .escape (e := 0x72) (by decide) h
  · rw [beq_iff_eq.mp ht]
    exact .escape (e := 0x74) (by decide) h
  · have hlt : c.toNat < 0x20 := UInt8.lt_iff_toNat_lt.mp hcontrol
    have hunit := canonicalJsonByte_control c.toNat hlt
    exact control_chars ⟨_, _, _, _, rfl, hunit⟩ hcontrol h
  · exact plain_chars hquote hbackslash hcontrol h

/-- The logger has no short escapes for backspace and form feed. -/
theorem escapeJsonByte_chars : Json.WritesChars Json.unescaped escapeJsonByte := by
  intro c t s h
  unfold escapeJsonByte
  split_ifs with hquote hbackslash hn hr ht hcontrol
  · rw [beq_iff_eq.mp hquote]
    exact .escape (e := 0x22) (by decide) h
  · rw [beq_iff_eq.mp hbackslash]
    exact .escape (e := 0x5c) (by decide) h
  · rw [beq_iff_eq.mp hn]
    exact .escape (e := 0x6e) (by decide) h
  · rw [beq_iff_eq.mp hr]
    exact .escape (e := 0x72) (by decide) h
  · rw [beq_iff_eq.mp ht]
    exact .escape (e := 0x74) (by decide) h
  · have hlt : c.toNat < 0x20 := UInt8.lt_iff_toNat_lt.mp hcontrol
    exact control_chars (escapeJsonByte_control c.toNat hlt) hcontrol h
  · exact plain_chars hquote hbackslash hcontrol h

theorem canonicalJsonString_denotes (value : Bytes) :
    Json.Denotes Json.unescaped (canonicalJsonString value) (.string value) :=
  .string (canonicalJsonByte_chars.chars value)

/-! ## Faithful writers -/

/-- A writer of string tokens whose tokens are read back and can be told apart. -/
structure FaithfulWriter (write : Bytes → Bytes) : Prop where
  /-- A token is a JSON text of the string, and of nothing else. -/
  denotes : ∀ s, Json.Denotes Json.unescaped (write s) (.string s)
  unique : ∀ s j, Json.Denotes Json.unescaped (write s) j → j = .string s
  /-- The first quotation mark that is not escaped is the last byte, whatever follows. -/
  closed : ∀ s, ∃ characters, write s = Json.quote :: (characters ++ [Json.quote]) ∧
    ∀ rest, Json.closingQuote (characters ++ Json.quote :: rest) = some characters.length ∧
      Json.readChars Json.unescaped (characters ++ Json.quote :: rest) = some (s, rest)
  printable : ∀ s, ∀ c ∈ write s, 0x20 ≤ c
  prefixFree : ∀ s s', write s <+: write s' → s = s'
  injective : Function.Injective write

theorem FaithfulWriter.of_chars {write : UInt8 → Bytes}
    (h : Json.WritesChars Json.unescaped write) :
    FaithfulWriter (fun s => Json.quote :: (s.flatMap write ++ [Json.quote])) where
  denotes := fun s => .string (h.chars s)
  unique := fun s j hj => Json.denotes_unique hj (.string (h.chars s))
  closed := fun s => ⟨s.flatMap write, rfl, fun rest =>
    ⟨(h.chars s).closingQuote rest, Json.readChars_complete (h.chars s) rest⟩⟩
  printable := by
    intro s c hc
    rcases List.mem_cons.mp hc with rfl | hc
    · decide
    · rcases List.mem_append.mp hc with hc | hc
      · exact (h.chars s).printable c hc
      · rw [List.mem_singleton.mp hc]
        decide
  prefixFree := fun s s' hle => (h.chars s).eq_of_front (h.chars s') hle
  injective := by
    intro s s' heq
    dsimp only at heq
    exact (h.chars s).eq_of_front (h.chars s') (heq ▸ List.prefix_rfl)

/-- **Both writers are faithful**, and no token of the one begins with a token of the other
for another string. -/
theorem json_strings_faithful :
    FaithfulWriter canonicalJsonString ∧ FaithfulWriter loggedString ∧
    ∀ s s', (canonicalJsonString s <+: loggedString s' → s = s') ∧
      (loggedString s <+: canonicalJsonString s' → s = s') := by
  have hcanonical := canonicalJsonByte_chars
  have hlogged := escapeJsonByte_chars
  refine ⟨.of_chars hcanonical, .of_chars hlogged, fun s s' => ⟨fun hle => ?_, fun hle => ?_⟩⟩
  · exact (hcanonical.chars s).eq_of_front (hlogged.chars s') hle
  · exact (hlogged.chars s).eq_of_front (hcanonical.chars s') hle

end Launcher
