import Launcher.Common.JsonCpp
import Launcher.Domain.JsonStrings
import Launcher.Domain.LauncherRelease
import Launcher.Domain.Versions

set_option autoImplicit false

/-! # One spelling of every release document

`app/ReleaseDocumentJson.cpp` reads a document with jsoncpp and compares what it understood, in
canonical form, with the bytes it was given. The canonical form is a JSON text that denotes the
nine members (`canonical_denotes`), so a reader of RFC 8259 reads it back, and `one_spelling`
follows: the accepted byte strings are the canonical forms of the publishable documents, each of
exactly one. -/

namespace Launcher.Releases

open Lib

def notCanonical (canonical : Bytes) : Bytes :=
  ascii ("the release document is not in canonical form. It must be exactly the bytes the " ++
    "signature covers: the nine keys in order, no whitespace, nothing else. Expected:\n") ++
    canonical

/-- From the values of the members to the document, before the comparison. -/
def readReleaseDocument (jsoncpp : JsonCpp) (root : Json) :
    Except LogicError (Result ReleaseDocument) := do
  let value := fun key : String => JsonValue.member root (ascii key)
  if !JsonValue.isInt (value "schema") then
    return failure .InvalidInput (ascii "schema must be a number")
  let some channel := parseReleaseChannel (← JsonValue.asString jsoncpp (value "channel"))
    | return failure .InvalidInput (ascii "channel must be 'stable' or 'beta'")
  match parseSemver (← JsonValue.asString jsoncpp (value "version")) with
  | .error e =>
      return failure .InvalidInput (ascii "version is not a version number: " ++ e.detail)
  | .ok version =>
      let some platform := parseReleasePlatform (← JsonValue.asString jsoncpp (value "platform"))
        | return failure .InvalidInput (ascii "platform must be 'windows', 'linux' or 'macos'")
      let some arch := parseReleaseArch (← JsonValue.asString jsoncpp (value "arch"))
        | return failure .InvalidInput (ascii "arch must be 'x64' or 'arm64'")
      let artifactSha256 ← JsonValue.asString jsoncpp (value "sha256")
      if !JsonValue.isInt64 (value "size") then
        return failure .InvalidInput (ascii "size must be a whole number of bytes")
      let releasedAt ← JsonValue.asString jsoncpp (value "releasedAt")
      let notes ← JsonValue.asString jsoncpp (value "notes")
      return .ok
        { schema := JsonValue.asInteger (value "schema"), channel := channel, version := version,
          platform := platform, arch := arch, artifactSha256 := artifactSha256,
          artifactSize := JsonValue.asInteger (value "size"), releasedAt := releasedAt,
          notes := notes }

def parseReleaseDocument (jsoncpp : JsonCpp) (json : Bytes) :
    Except LogicError (Result ReleaseDocument) :=
  match jsoncpp.parse json with
  | none => .ok (failure .InvalidInput (ascii "the release document is not a JSON object"))
  | some root =>
      if !JsonValue.isObject root then
        .ok (failure .InvalidInput (ascii "the release document is not a JSON object"))
      else
        match readReleaseDocument jsoncpp root with
        | .error thrown => .error thrown
        | .ok (.error e) => .ok (.error e)
        | .ok (.ok document) =>
            match validateReleaseDocument document with
            | .error e => .ok (.error e)
            | .ok () =>
                let canonical := canonicalReleaseDocument document
                if canonical ≠ json then .ok (failure .InvalidInput (notCanonical canonical))
                else .ok (.ok document)

/-- A document that `validateReleaseDocument` accepts, with a version `parseSemver` made. -/
structure Publishable (document : ReleaseDocument) : Prop where
  valid : validateReleaseDocument document = .ok ()
  version : ∃ input, parseSemver input = .ok document.version

/-! ## The canonical form as a JSON text -/

theorem digits_decimal (n : Nat) : Json.Digits (decimal n) :=
  ⟨decimal_ne_nil n, isDigit_decimal n⟩

theorem digitsValue_decimal (n : Nat) : Json.digitsValue (decimal n) = n := by
  induction n using digit_induction with
  | small d hd =>
      rw [decimal_digit hd, Json.digitsValue, List.foldl_cons, List.foldl_nil,
        (isDigit_ofNat d hd).2]
      omega
  | more n d hn hd ih =>
      rw [Json.digitsValue] at ih
      rw [decimal_snoc hn hd, Json.digitsValue, List.foldl_append, ih, List.foldl_cons,
        List.foldl_nil, (isDigit_ofNat d hd).2]

theorem decimal_noLeadingZero (n : Nat) : Json.NoLeadingZero (decimal n) := by
  intro h
  rcases Nat.eq_zero_or_pos n with rfl | hpos
  · rfl
  · exact absurd h (decimal_head hpos)

theorem decimal_denotes (n : Nat) :
    Json.Denotes Json.unescaped (decimal n) (.number n) := by
  have h := Json.Number.whole (digits_decimal n) (decimal_noLeadingZero n)
  rw [digitsValue_decimal] at h
  exact .number h

/-- A member without white space, under a key that needs no escapes. -/
def plainMember (key : String) (valueText : Bytes) (value : Json) : Json.Member where
  before := []
  keyText := ascii key
  key := ascii key
  after := []
  valueText := valueText
  value := value

def documentMembers (document : ReleaseDocument) : List Json.Member :=
  [plainMember "schema" (decimal document.schema) (.number document.schema),
    plainMember "channel" (canonicalJsonString document.channel.name)
      (.string document.channel.name),
    plainMember "version" (canonicalJsonString document.version.text)
      (.string document.version.text),
    plainMember "platform" (canonicalJsonString document.platform.name)
      (.string document.platform.name),
    plainMember "arch" (canonicalJsonString document.arch.name) (.string document.arch.name),
    plainMember "sha256" (canonicalJsonString document.artifactSha256)
      (.string document.artifactSha256),
    plainMember "size" (decimal document.artifactSize) (.number document.artifactSize),
    plainMember "releasedAt" (canonicalJsonString document.releasedAt)
      (.string document.releasedAt),
    plainMember "notes" (canonicalJsonString document.notes) (.string document.notes)]

theorem plainMember_keyed {key : String} {valueText : Bytes} {value : Json}
    (h : (ascii key).all Json.unescaped = true) :
    (plainMember key valueText value).Keyed Json.unescaped := by
  refine ⟨Json.Space.nil, Json.Chars.self (fun c hc => ?_), Json.Space.nil⟩
  have hc : Json.unescaped c = true := List.all_eq_true.mp h c hc
  refine ⟨hc, ?_⟩
  simp only [Json.unescaped, Bool.and_eq_true, bne_iff_ne] at hc
  exact ⟨hc.1.2, hc.2⟩

theorem canonicalReleaseDocument_eq (document : ReleaseDocument) :
    canonicalReleaseDocument document =
      Json.openBrace :: (Json.commaSeparated ((documentMembers document).map Json.Member.text) ++
        [Json.closeBrace]) := by
  delta canonicalReleaseDocument
  simp only [documentMembers, plainMember, List.map_cons, List.map_nil, Json.commaSeparated,
    Json.Member.text, Json.Member.lead, List.nil_append, List.append_assoc, List.cons_append]
  rfl

/-- The canonical form denotes the nine members. -/
theorem canonical_denotes {document : ReleaseDocument} (hschema : 0 ≤ document.schema)
    (hsize : 0 ≤ document.artifactSize) :
    Json.Denotes Json.unescaped (canonicalReleaseDocument document)
      (.object ((documentMembers document).map Json.Member.pair)) := by
  have hnumber : ∀ n : Int, 0 ≤ n → Json.Denotes Json.unescaped (decimal n) (.number n) := by
    intro n hn
    obtain ⟨k, rfl⟩ := Int.eq_ofNat_of_zero_le hn
    exact decimal_denotes k
  rw [canonicalReleaseDocument_eq]
  refine .object (List.cons_ne_nil _ _) (fun m hm => ?_) (fun m hm => ?_)
  · simp only [documentMembers, List.mem_cons, List.not_mem_nil, or_false] at hm
    rcases hm with rfl | rfl | rfl | rfl | rfl | rfl | rfl | rfl | rfl <;>
      exact plainMember_keyed (by decide)
  · simp only [documentMembers, List.mem_cons, List.not_mem_nil, or_false] at hm
    rcases hm with rfl | rfl | rfl | rfl | rfl | rfl | rfl | rfl | rfl
    · exact hnumber document.schema hschema
    · exact canonicalJsonString_denotes document.channel.name
    · exact canonicalJsonString_denotes document.version.text
    · exact canonicalJsonString_denotes document.platform.name
    · exact canonicalJsonString_denotes document.arch.name
    · exact canonicalJsonString_denotes document.artifactSha256
    · exact hnumber document.artifactSize hsize
    · exact canonicalJsonString_denotes document.releasedAt
    · exact canonicalJsonString_denotes document.notes

/-! ## Reading it back -/

theorem trim_of_unspaced {text : Bytes} (h : ∀ c ∈ text, isWhitespace c = false) :
    trim text = text := by
  have hdrop : ∀ l : Bytes, (∀ c ∈ l, isWhitespace c = false) → l.dropWhile isWhitespace = l := by
    intro l hl
    cases l with
    | nil => rfl
    | cons c l =>
        rw [List.dropWhile_cons_of_neg]
        rw [hl c List.mem_cons_self]
        exact Bool.false_ne_true
  rw [trim, hdrop text h, hdrop _ (fun c hc => h c (List.mem_reverse.mp hc)),
    List.reverse_reverse]

theorem canonicalVersion_eq (version : Semver) :
    canonicalVersion version = spell [version.major, version.minor, version.patch] := by
  simp [canonicalVersion, spell, List.intercalate, List.intersperse, ascii, dot]

theorem isWhitespace_canonicalVersion {version : Semver} :
    ∀ c ∈ canonicalVersion version, isWhitespace c = false := by
  have hdigit : ∀ n : Nat, ∀ c ∈ decimal n, isWhitespace c = false := by
    intro n c hc
    have hd := (digits_decimal n).2 c hc
    simp only [Json.isDigit, Bool.and_eq_true, decide_eq_true_eq] at hd
    have hlow : 0x30 ≤ c.toNat := UInt8.le_iff_toNat_le.mp hd.1
    have hhigh : ¬c ≤ 0x0d := by
      intro h
      have hle : c.toNat ≤ 0x0d := UInt8.le_iff_toNat_le.mp h
      omega
    have hspace : c ≠ 0x20 := by
      rintro rfl
      exact absurd hlow (by decide)
    simp [isWhitespace, hspace, hhigh]
  intro c hc
  simp only [canonicalVersion, List.mem_append] at hc
  rcases hc with (((hc | hc) | hc) | hc) | hc
  · exact hdigit version.major c hc
  · rw [List.mem_singleton.mp hc]
    decide
  · exact hdigit version.minor c hc
  · rw [List.mem_singleton.mp hc]
    decide
  · exact hdigit version.patch c hc

/-- A version in the full form is read back to itself. -/
theorem parseSemver_canonical {version : Semver} (htext : version.text = canonicalVersion version)
    (hversion : ∃ input, parseSemver input = .ok version) :
    parseSemver version.text = .ok version := by
  obtain ⟨input, hinput⟩ := hversion
  obtain ⟨-, numbers, -, -, -, hmajor, hminor, hpatch, hmax⟩ := parseSemver_ok hinput
  have hbound : ∀ i, numbers.getD i 0 ≤ MAX_VERSION_COMPONENT := by
    intro i
    rw [List.getD_eq_getElem?_getD]
    cases hi : numbers[i]? with
    | none => exact Nat.zero_le _
    | some n => exact hmax n (List.mem_of_getElem? hi)
  have hspell := canonicalVersion_eq version
  have hparts : version.text.splitOn dot =
      [version.major, version.minor, version.patch].map (fun n : Nat => decimal n) := by
    rw [htext, hspell]
    exact components_spell (List.cons_ne_nil _ _)
  have hnumbers : (version.text.splitOn dot).mapM parseComponent =
      .ok [version.major, version.minor, version.patch] := by
    refine mapM_parseComponent.mpr ⟨hparts, fun n hn => ?_⟩
    simp only [List.mem_cons, List.not_mem_nil, or_false] at hn
    rcases hn with rfl | rfl | rfl
    · rw [hmajor]; exact hbound 0
    · rw [hminor]; exact hbound 1
    · rw [hpatch]; exact hbound 2
  have htrim : trim version.text = version.text := by
    rw [htext]
    exact trim_of_unspaced isWhitespace_canonicalVersion
  have hne : version.text.isEmpty = false := by
    rw [htext, canonicalVersion, List.isEmpty_eq_false_iff]
    simp [decimal_ne_nil]
  have hthree : ¬3 < (version.text.splitOn dot).length := by
    rw [hparts]
    simp
  unfold parseSemver
  simp only [htrim, hne, Bool.false_eq_true, if_false, hthree, hnumbers]
  rfl

section RoundTrip

variable {jsoncpp : JsonCpp} {document : ReleaseDocument}

theorem readReleaseDocument_members (h : Publishable document) :
    readReleaseDocument jsoncpp (.object ((documentMembers document).map Json.Member.pair)) =
      .ok (.ok document) := by
  have hvalid := validateReleaseDocument_ok.mp h.valid
  have hversion := parseSemver_canonical hvalid.version h.version
  have hinteger : ∀ (n low high : Int), low ≤ n → n ≤ high →
      JsonValue.isIntegerIn low high (.number n) = true := by
    intro n low high hlow hhigh
    simp [JsonValue.isIntegerIn, hlow, hhigh]
  have hschema : JsonValue.isInt (.number document.schema) = true := by
    rw [hvalid.schema]
    exact hinteger 1 _ _ (by decide) (by decide)
  have hsize : JsonValue.isInt64 (.number document.artifactSize) = true := by
    have hpos := hvalid.size_pos
    have hle := hvalid.size_le
    rw [MAX_RELEASE_ARTIFACT_BYTES] at hle
    exact hinteger _ _ _ (by omega) (by omega)
  -- the nine lookups
  have hvalue : ∀ m ∈ documentMembers document, JsonValue.member
      (.object ((documentMembers document).map Json.Member.pair)) m.key = m.value := by
    intro m hm
    simp only [documentMembers, List.mem_cons, List.not_mem_nil, or_false] at hm
    rcases hm with rfl | rfl | rfl | rfl | rfl | rfl | rfl | rfl | rfl <;> rfl
  simp only [documentMembers, List.forall_mem_cons, plainMember] at hvalue
  obtain ⟨h1, h2, h3, h4, h5, h6, h7, h8, h9, -⟩ := hvalue
  simp only [readReleaseDocument, documentMembers, plainMember, h1, h2, h3, h4, h5, h6, h7, h8, h9,
    hschema, hsize, hversion, JsonValue.asString, JsonValue.asInteger, Rat.num_intCast,
    parseReleaseChannel_name, parseReleasePlatform_name, parseReleaseArch_name, Bool.not_true,
    Bool.false_eq_true, if_false, bind, Except.bind, pure, Except.pure]

/-- The round trip. -/
theorem parse_canonical (hjson : jsoncpp.ReadsRfc8259) (h : Publishable document) :
    parseReleaseDocument jsoncpp (canonicalReleaseDocument document) = .ok (.ok document) := by
  have hvalid := validateReleaseDocument_ok.mp h.valid
  have hschema : 0 ≤ document.schema := by
    rw [hvalid.schema]
    decide
  have hroot := hjson.parse _ _ (canonical_denotes hschema hvalid.size_pos.le)
  simp only [parseReleaseDocument, hroot, JsonValue.isObject, Bool.not_true, Bool.false_eq_true,
    if_false, readReleaseDocument_members h, h.valid, ne_eq, not_true_eq_false]

theorem readReleaseDocument_version {root : Json}
    (h : readReleaseDocument jsoncpp root = .ok (.ok document)) :
    ∃ input, parseSemver input = .ok document.version := by
  simp only [readReleaseDocument, failure, bind, Except.bind, pure, Except.pure] at h
  -- every way out but the last is a refusal, or throws
  repeat' split at h
  all_goals cases h
  exact ⟨_, ‹parseSemver _ = .ok _›⟩

/-- What is accepted is the canonical form of what is returned. -/
theorem parseReleaseDocument_ok {json : Bytes}
    (h : parseReleaseDocument jsoncpp json = .ok (.ok document)) :
    Publishable document ∧ canonicalReleaseDocument document = json := by
  unfold parseReleaseDocument at h
  cases hroot : jsoncpp.parse json with
  | none =>
      rw [hroot] at h
      cases h
  | some root =>
      simp only [hroot] at h
      split at h
      case isTrue => cases h
      case isFalse =>
        cases hread : readReleaseDocument jsoncpp root with
        | error thrown =>
            rw [hread] at h
            cases h
        | ok outcome =>
            cases outcome with
            | error e =>
                rw [hread] at h
                cases h
            | ok read =>
                cases hvalid : validateReleaseDocument read with
                | error e =>
                    simp only [hread, hvalid] at h
                    cases h
                | ok _ =>
                    simp only [hread, hvalid] at h
                    split_ifs at h with hsame
                    · cases h
                    · obtain rfl : read = document := Except.ok.inj (Except.ok.inj h)
                      exact ⟨⟨hvalid, readReleaseDocument_version hread⟩, not_not.mp hsame⟩

end RoundTrip

/-- The parser accepts the bytes, as this document. -/
def Accepts (jsoncpp : JsonCpp) (json : Bytes) (document : ReleaseDocument) : Prop :=
  parseReleaseDocument jsoncpp json = .ok (.ok document)

/-- **Release documents have exactly one spelling.** -/
theorem one_spelling (jsoncpp : JsonCpp) (hjson : jsoncpp.ReadsRfc8259) :
    (∀ document, Publishable document →
      Accepts jsoncpp (canonicalReleaseDocument document) document) ∧
    (∀ json document, Accepts jsoncpp json document →
      ∃! d, Publishable d ∧ canonicalReleaseDocument d = json) ∧
    {json | ∃ document, Accepts jsoncpp json document} =
      canonicalReleaseDocument '' {document | Publishable document} ∧
    Set.InjOn canonicalReleaseDocument {document | Publishable document} := by
  have hinj : Set.InjOn canonicalReleaseDocument {document | Publishable document} := by
    intro d hd d' hd' heq
    have hback := parse_canonical hjson hd
    rw [heq, parse_canonical hjson hd'] at hback
    exact (Except.ok.inj (Except.ok.inj hback)).symm
  refine ⟨fun document h => parse_canonical hjson h, fun json document h => ?_, ?_, hinj⟩
  · obtain ⟨hpublishable, hcanonical⟩ := parseReleaseDocument_ok h
    refine ⟨document, ⟨hpublishable, hcanonical⟩, fun d hd => ?_⟩
    exact hinj hd.1 hpublishable (hd.2.trans hcanonical.symm)
  · ext json
    constructor
    · rintro ⟨document, h⟩
      obtain ⟨hpublishable, hcanonical⟩ := parseReleaseDocument_ok h
      exact ⟨document, hpublishable, hcanonical⟩
    · rintro ⟨document, h, rfl⟩
      exact ⟨document, parse_canonical hjson h⟩

namespace Demo

/-- The first release for Linux. -/
def release : ReleaseDocument where
  schema := 1
  channel := .Stable
  version := ⟨0, 2, 0, ascii "0.2.0"⟩
  platform := .Linux
  arch := .X64
  artifactSha256 := List.replicate 64 0x61
  artifactSize := 3
  releasedAt := ascii "2026-04-30T12:00:00Z"
  notes := ascii "first \"stable\" release\n"

theorem publishable_release : Publishable release where
  valid := validateReleaseDocument_ok.mpr
    ⟨rfl, by decide +kernel, by decide +kernel, by decide, by decide, by decide +kernel,
      by decide +kernel⟩
  version := ⟨ascii "0.2.0", by decide +kernel⟩

end Demo

theorem one_spelling_release :
    Accepts referenceJson (canonicalReleaseDocument Demo.release) Demo.release :=
  (one_spelling referenceJson referenceJson_reads).1 Demo.release Demo.publishable_release

end Launcher.Releases
