import Launcher.Domain.ManifestIdentity
import Launcher.Lib.Base64
import Launcher.Lib.LineEndings

set_option autoImplicit false

/-! # The document of a mail

`composeDocument` writes nine headers, an empty line and the body with LF at the end of every
line, and converts the whole of it to the line endings of the network. A message may hold any
bytes; `composeDocument_header` proves that none of them can add a header or end the block early.

The time, the random bytes and libsodium's base 64 are parameters. -/

namespace Launcher

namespace SmtpMailSender

open Lib LineEndings

structure MailMessage where
  /-- `to`, which is a word of Lean. -/
  toAddress : Bytes
  subject : Bytes
  body : Bytes

/-- What of the settings goes into the document. -/
structure SmtpSettings where
  fromAddress : Bytes
  fromName : Bytes

/-- A `std::tm`, in UTC. -/
structure Tm where
  tm_sec : Int
  tm_min : Int
  tm_hour : Int
  tm_mday : Int
  tm_mon : Int
  tm_year : Int
  tm_wday : Int

/-- What `randomUuid` draws, `none` when libsodium cannot be initialised. -/
abbrev RandomBytes := Option {bytes : Bytes // bytes.length = 16}

def isAscii (value : Bytes) : Bool := !value.any (fun character => decide (0x80 ≤ character))

/-- `sodium_bin2base64` fills a buffer that is cut at its first NUL. -/
def encodedWord (sodium_bin2base64 : Bytes → Bytes) (value : Bytes) : Bytes :=
  ascii "=?UTF-8?B?" ++ (sodium_bin2base64 value).takeWhile (· != 0) ++ ascii "?="

def headerSafe (sodium_bin2base64 : Bytes → Bytes) (value : Bytes) : Bytes :=
  let flattened := value.filter (fun character => character != cr && character != lf)
  if isAscii flattened then flattened else encodedWord sodium_bin2base64 flattened

/-- `%02d` and its like. -/
def zeroPadded (width : Nat) (n : Int) : Bytes :=
  if 0 ≤ n then (decimal n).leftpad width 0x30
  else hyphen :: (decimal (-n)).leftpad (width - 1) 0x30

def DAYS : List Bytes := ["Sun", "Mon", "Tue", "Wed", "Thu", "Fri", "Sat"].map ascii

def MONTHS : List Bytes :=
  ["Jan", "Feb", "Mar", "Apr", "May", "Jun", "Jul", "Aug", "Sep", "Oct", "Nov", "Dec"].map ascii

/-- `names.at(static_cast<std::size_t>(index) % names.size())`. -/
def nameAt (names : List Bytes) (index : Int) : Bytes :=
  names.getD ((index % 2 ^ 64).toNat % names.length) []

/-- The date in a buffer of 64 bytes, the last of which is NUL. -/
def rfc5322Date (utc : Tm) : Bytes :=
  (nameAt DAYS utc.tm_wday ++ ascii ", " ++ zeroPadded 2 utc.tm_mday ++ ascii " " ++
    nameAt MONTHS utc.tm_mon ++ ascii " " ++ zeroPadded 4 (utc.tm_year + 1900) ++ ascii " " ++
    zeroPadded 2 utc.tm_hour ++ ascii ":" ++ zeroPadded 2 utc.tm_min ++ ascii ":" ++
    zeroPadded 2 utc.tm_sec ++ ascii " +0000").take 63

/-- What is behind the last `@`. -/
def domainOf (address : Bytes) : Bytes :=
  if 0x40 ∈ address then (address.reverse.takeWhile (· != 0x40)).reverse else ascii "localhost"

/-- RFC 4122: version 4, variant 10xx. -/
def randomUuid (random : RandomBytes) : Bytes :=
  match random with
  | none => []
  | some drawn =>
      let bytes := (drawn.1.set 6 ((drawn.1.getD 6 0 &&& 0x0f) ||| 0x40)).set 8
        ((drawn.1.getD 8 0 &&& 0x3f) ||| 0x80)
      (List.range bytes.length).flatMap (fun i =>
        (if i = 4 ∨ i = 6 ∨ i = 8 ∨ i = 10 then [hyphen] else []) ++
          [hexDigit (bytes.getD i 0 >>> 4).toNat, hexDigit (bytes.getD i 0 &&& 0x0f).toNat])

/-- The loop of `withNetworkLineEndings` from `index` on. -/
def convertFrom (text : Bytes) (index : Nat) (converted : Bytes) : Bytes :=
  if _h : index < text.length then
    let converted :=
      if text[index] = lf ∧ (index = 0 ∨ text[index - 1]? ≠ some cr) then converted ++ [cr]
      else converted
    convertFrom text (index + 1) (converted ++ [text[index]])
  else converted
termination_by text.length - index

def withNetworkLineEndings (text : Bytes) : Bytes := convertFrom text 0 []

section Document

variable (sodium_bin2base64 : Bytes → Bytes) (utc : Tm) (random : RandomBytes)
  (settings : SmtpSettings) (message : MailMessage)

def sender : Bytes :=
  if settings.fromName.isEmpty then ascii "<" ++ settings.fromAddress ++ ascii ">"
  else ascii "\"" ++ headerSafe sodium_bin2base64 settings.fromName ++ ascii "\" <" ++
    settings.fromAddress ++ ascii ">"

def composeDocument : Bytes :=
  let document :=
    ascii "Date: " ++ rfc5322Date utc ++ [lf] ++
    (ascii "From: " ++ sender sodium_bin2base64 settings ++ [lf]) ++
    (ascii "To: <" ++ headerSafe sodium_bin2base64 message.toAddress ++ ascii ">" ++ [lf]) ++
    (ascii "Subject: " ++ headerSafe sodium_bin2base64 message.subject ++ [lf]) ++
    (ascii "Message-ID: <" ++ randomUuid random ++ ascii "@" ++ domainOf settings.fromAddress ++
      ascii ">" ++ [lf]) ++
    (ascii "MIME-Version: 1.0" ++ [lf]) ++
    (ascii "Content-Type: text/plain; charset=utf-8" ++ [lf]) ++
    (ascii "Content-Transfer-Encoding: 8bit" ++ [lf]) ++
    (ascii "Auto-Submitted: auto-generated" ++ [lf]) ++
    [lf] ++ message.body
  withNetworkLineEndings document

end Document

/-! ## Line endings -/

/-- The loop looks back at the last character. -/
theorem convertFrom_eq (rest : Bytes) : ∀ front converted : Bytes,
    convertFrom (front ++ rest) front.length converted =
      converted ++ network front.getLast? rest := by
  induction rest with
  | nil =>
      intro front converted
      rw [convertFrom, dif_neg (by simp), network, List.append_nil]
  | cons c rest ih =>
      intro front converted
      -- the loop looks at its index, `network` at the character before
      have hbefore : (front.length = 0 ∨ (front ++ c :: rest)[front.length - 1]? ≠ some cr) ↔
          front.getLast? ≠ some cr := by
        cases front using List.reverseRecOn with
        | nil => simp
        | append_singleton front d _ => simp
      have hnext := ih (front ++ [c])
      rw [List.append_assoc, List.singleton_append, List.length_append, List.length_singleton,
        List.getLast?_concat] at hnext
      rw [convertFrom, dif_pos (by simp), network]
      simp only [hbefore, List.getElem_append_right (le_refl _), Nat.sub_self,
        List.getElem_cons_zero]
      rw [hnext]
      split_ifs with hlf
      · obtain ⟨rfl, -⟩ := hlf
        simp [crlf]
      · simp

theorem withNetworkLineEndings_eq (text : Bytes) :
    withNetworkLineEndings text = network none text :=
  convertFrom_eq text [] []

/-! ## Values of headers -/

/-- The alphabet of base 64, with the padding. -/
def BASE64_CHARACTERS : Bytes :=
  ascii "ABCDEFGHIJKLMNOPQRSTUVWXYZabcdefghijklmnopqrstuvwxyz0123456789+/="

/-- What is assumed of libsodium: it writes characters of the alphabet, and NULs behind them. -/
def EmitsAlphabet (sodium_bin2base64 : Bytes → Bytes) : Prop :=
  ∀ value, ∀ c ∈ sodium_bin2base64 value, c ∈ BASE64_CHARACTERS ∨ c = 0

theorem oneLine_headerSafe {sodium_bin2base64 : Bytes → Bytes}
    (hbase64 : EmitsAlphabet sodium_bin2base64) (value : Bytes) :
    OneLine (headerSafe sodium_bin2base64 value) := by
  unfold headerSafe
  dsimp only
  split_ifs
  · -- the line ends have been taken out
    intro c hc
    have hkept := (List.mem_filter.mp hc).2
    simp only [Bool.and_eq_true, bne_iff_ne] at hkept
    exact hkept
  · -- an encoded word: the alphabet has no line end
    have halphabet : OneLine (0 :: BASE64_CHARACTERS) := by decide +kernel
    have hencoded : OneLine ((sodium_bin2base64 (value.filter
        (fun character => character != cr && character != lf))).takeWhile (· != 0)) := by
      intro c hc
      rcases hbase64 _ c ((List.takeWhile_prefix _).subset hc) with hmem | rfl
      · exact halphabet c (List.mem_cons_of_mem 0 hmem)
      · exact halphabet 0 List.mem_cons_self
    have hopen : OneLine (ascii "=?UTF-8?B?") := by decide
    exact (hopen.append hencoded).append (by decide)

theorem oneLine_decimal (n : Int) : OneLine (decimal n) := by
  intro c hc
  have hbounds := mem_decimal hc
  refine ⟨?_, ?_⟩ <;>
    · rintro rfl
      revert hbounds
      decide

theorem oneLine_zeroPadded (width : Nat) (n : Int) : OneLine (zeroPadded width n) := by
  have hpadded : ∀ (width : Nat) (n : Int), OneLine ((decimal n).leftpad width 0x30) := by
    intro width n
    unfold List.leftpad
    refine OneLine.append (fun c hc => ?_) (oneLine_decimal n)
    rw [(List.mem_replicate.mp hc).2]
    decide
  -- the sign is in front of the zeros
  unfold zeroPadded
  split_ifs
  · exact hpadded width n
  · exact OneLine.append (by decide : OneLine [hyphen]) (hpadded (width - 1) (-n))

theorem oneLine_nameAt {names : List Bytes} (h : ∀ name ∈ names, OneLine name) (index : Int) :
    OneLine (nameAt names index) := by
  unfold nameAt
  rw [List.getD_eq_getElem?_getD]
  cases hname : names[(index % 2 ^ 64).toNat % names.length]? with
  | none => exact fun c hc => by cases hc
  | some name => exact h name (List.mem_of_getElem? hname)

/-- Whatever the clock says, and wherever the buffer ends. -/
theorem oneLine_rfc5322Date (utc : Tm) : OneLine (rfc5322Date utc) := by
  have hday := oneLine_nameAt (by decide : ∀ name ∈ DAYS, OneLine name) utc.tm_wday
  have hmonth := oneLine_nameAt (by decide : ∀ name ∈ MONTHS, OneLine name) utc.tm_mon
  have hnumber := oneLine_zeroPadded
  -- the buffer has room for 63 characters and the NUL
  refine OneLine.of_subset ?_ (List.take_subset 63 _)
  have hcomma : OneLine (ascii ", ") := by decide
  have hspace : OneLine (ascii " ") := by decide
  have hcolon : OneLine (ascii ":") := by decide
  have hdate := (((((hday.append hcomma).append (hnumber 2 utc.tm_mday)).append hspace).append
    hmonth).append hspace).append (hnumber 4 (utc.tm_year + 1900))
  have htime := ((((hdate.append hspace).append (hnumber 2 utc.tm_hour)).append hcolon).append
    (hnumber 2 utc.tm_min)).append hcolon
  exact (htime.append (hnumber 2 utc.tm_sec)).append (by decide)

theorem oneLine_domainOf {address : Bytes} (h : OneLine address) : OneLine (domainOf address) := by
  unfold domainOf
  split_ifs
  · refine OneLine.of_subset h (fun c hc => ?_)
    exact List.mem_reverse.mp ((List.takeWhile_prefix _).subset (List.mem_reverse.mp hc))
  · decide

theorem oneLine_randomUuid (random : RandomBytes) : OneLine (randomUuid random) := by
  cases random with
  | none => exact fun c hc => by cases hc
  | some drawn =>
      have hdigit : ∀ n < 16, hexDigit n ≠ cr ∧ hexDigit n ≠ lf := by decide
      -- a byte is two digits, with a hyphen before some
      have hnibbles : ∀ byte : UInt8, (byte >>> 4).toNat < 16 ∧ (byte &&& 0x0f).toNat < 16 := by
        intro byte
        have hbyte := byte.toNat_lt
        rw [UInt8.toNat_shiftRight, UInt8.toNat_and, Nat.shiftRight_eq_div_pow]
        have hmask : (0x0f : UInt8).toNat < 2 ^ 4 := by decide
        exact ⟨by simp; omega, Nat.and_lt_two_pow _ hmask⟩
      intro c hc
      obtain ⟨i, -, hc⟩ := List.mem_flatMap.mp hc
      obtain ⟨hhigh, hlow⟩ := hnibbles
        (((drawn.1.set 6 ((drawn.1.getD 6 0 &&& 0x0f) ||| 0x40)).set 8
          ((drawn.1.getD 8 0 &&& 0x3f) ||| 0x80)).getD i 0)
      rcases List.mem_append.mp hc with hc | hc
      · split_ifs at hc
        · rw [List.mem_singleton.mp hc]
          decide
        · cases hc
      · simp only [List.mem_cons, List.not_mem_nil, or_false] at hc
        rcases hc with rfl | rfl
        · exact hdigit _ hhigh
        · exact hdigit _ hlow

theorem oneLine_sender {sodium_bin2base64 : Bytes → Bytes}
    (hbase64 : EmitsAlphabet sodium_bin2base64) {settings : SmtpSettings}
    (hfrom : OneLine settings.fromAddress) : OneLine (sender sodium_bin2base64 settings) := by
  unfold sender
  split_ifs
  · exact ((by decide : OneLine (ascii "<")).append hfrom).append (by decide)
  · exact ((((by decide : OneLine (ascii "\"")).append (oneLine_headerSafe hbase64 _)).append
      (by decide)).append hfrom).append (by decide)

/-! ## The document -/

/-- The headers, in the order of the document. -/
def HEADERS : List Bytes :=
  ["Date", "From", "To", "Subject", "Message-ID", "MIME-Version", "Content-Type",
    "Content-Transfer-Encoding", "Auto-Submitted"].map ascii

/-- A line of the header `name`. -/
def HeaderLine (name line : Bytes) : Prop :=
  ∃ value, line = name ++ ascii ": " ++ value ∧ OneLine value

theorem HeaderLine.ne_nil {name line : Bytes} (h : HeaderLine name line) : line ≠ [] := by
  obtain ⟨value, rfl, -⟩ := h
  exact fun hnil => by simpa [ascii] using congrArg List.length hnil

theorem HeaderLine.oneLine {name line : Bytes} (hname : OneLine name) (h : HeaderLine name line) :
    OneLine line := by
  obtain ⟨value, rfl, hvalue⟩ := h
  exact (hname.append (by decide)).append hvalue

/-- The lines of the document. -/
theorem composeDocument_lines {sodium_bin2base64 : Bytes → Bytes}
    (hbase64 : EmitsAlphabet sodium_bin2base64) (utc : Tm) (random : RandomBytes)
    {settings : SmtpSettings} (hfrom : OneLine settings.fromAddress) (message : MailMessage) :
    ∃ lines, List.Forall₂ HeaderLine HEADERS lines ∧
      composeDocument sodium_bin2base64 utc random settings message =
        network none ((lines.map (fun line => line ++ [lf])).flatten ++ lf :: message.body) := by
  refine ⟨[ascii "Date: " ++ rfc5322Date utc,
    ascii "From: " ++ sender sodium_bin2base64 settings,
    ascii "To: <" ++ headerSafe sodium_bin2base64 message.toAddress ++ ascii ">",
    ascii "Subject: " ++ headerSafe sodium_bin2base64 message.subject,
    ascii "Message-ID: <" ++ randomUuid random ++ ascii "@" ++ domainOf settings.fromAddress ++
      ascii ">",
    ascii "MIME-Version: 1.0", ascii "Content-Type: text/plain; charset=utf-8",
    ascii "Content-Transfer-Encoding: 8bit", ascii "Auto-Submitted: auto-generated"], ?_, ?_⟩
  · have hopen : OneLine (ascii "<") := by decide
    -- a value has no line end where its parts have none
    refine .cons ⟨_, rfl, oneLine_rfc5322Date utc⟩ (.cons ⟨_, rfl, oneLine_sender hbase64 hfrom⟩ ?_)
    refine .cons ⟨ascii "<" ++ headerSafe sodium_bin2base64 message.toAddress ++ ascii ">", rfl,
      (hopen.append (oneLine_headerSafe hbase64 _)).append (by decide)⟩ ?_
    refine .cons ⟨_, rfl, oneLine_headerSafe hbase64 _⟩ ?_
    refine .cons ⟨ascii "<" ++ randomUuid random ++ ascii "@" ++ domainOf settings.fromAddress ++
      ascii ">", rfl, (((hopen.append (oneLine_randomUuid random)).append
        (by decide)).append (oneLine_domainOf hfrom)).append (by decide)⟩ ?_
    exact .cons ⟨ascii "1.0", rfl, by decide⟩
      (.cons ⟨ascii "text/plain; charset=utf-8", rfl, by decide⟩
        (.cons ⟨ascii "8bit", rfl, by decide⟩
          (.cons ⟨ascii "auto-generated", rfl, by decide⟩ .nil)))
  · rw [composeDocument, withNetworkLineEndings_eq]
    simp only [List.map_cons, List.map_nil, List.flatten_cons, List.flatten_nil, List.append_assoc,
      List.cons_append, List.nil_append, List.append_nil]

/-- **Nothing in a message can add a header.** The header of the document is nine lines, and what
is behind its first empty line is the body with CR in front of every LF that had none. -/
theorem composeDocument_header (sodium_bin2base64 : Bytes → Bytes)
    (hbase64 : EmitsAlphabet sodium_bin2base64) (utc : Tm) (random : RandomBytes)
    (settings : SmtpSettings) (hfrom : OneLine settings.fromAddress) (message : MailMessage) :
    (∃ lines, readHeader (composeDocument sodium_bin2base64 utc random settings message)
        = some (lines, network none message.body) ∧
      List.Forall₂ HeaderLine HEADERS lines) ∧
    ∀ front back, composeDocument sodium_bin2base64 utc random settings message
      = front ++ lf :: back → front.getLast? = some cr := by
  obtain ⟨lines, hlines, hdocument⟩ :=
    composeDocument_lines hbase64 utc random hfrom message
  rw [hdocument]
  have hheader : ∀ line ∈ lines, line ≠ [] ∧ OneLine line := by
    have hnames : ∀ name ∈ HEADERS, OneLine name := by decide
    intro line hline
    obtain ⟨i, hi, rfl⟩ := List.getElem_of_mem hline
    have hi' : i < HEADERS.length := hlines.length_eq ▸ hi
    have hpair := hlines.get hi' hi
    exact ⟨hpair.ne_nil, hpair.oneLine (hnames _ (List.getElem_mem hi'))⟩
  refine ⟨⟨lines, ?_, hlines⟩, fun front back hfront => ?_⟩
  · exact readHeader_network (fun line hline => (hheader line hline).1)
      (fun line hline => (hheader line hline).2) message.body
  · simpa using network_lf hfront

namespace Demo

/-- Base 64 with padding. -/
def ORIGINAL : Base64.Alphabet UInt8 where
  digits := ascii "ABCDEFGHIJKLMNOPQRSTUVWXYZabcdefghijklmnopqrstuvwxyz0123456789+/"
  length := by decide +kernel
  nodup := by decide +kernel

def sodium_bin2base64 (value : Bytes) : Bytes :=
  let digits := Base64.encode ORIGINAL value
  digits ++ List.replicate ((4 - digits.length % 4) % 4) 0x3d

theorem emitsAlphabet : EmitsAlphabet sodium_bin2base64 := by
  have hdigits : ∀ c ∈ ORIGINAL.digits, c ∈ BASE64_CHARACTERS := by decide +kernel
  intro value c hc
  rcases List.mem_append.mp hc with hc | hc
  · exact Or.inl (hdigits c (Base64.mem_encode ORIGINAL hc))
  · rw [(List.mem_replicate.mp hc).2]
    exact Or.inl (by decide)

def settings : SmtpSettings where
  fromAddress := ascii "launcher@example.org"
  fromName := ascii "Launcher"

/-- A subject that is not ASCII and has a header in it. -/
def message : MailMessage where
  toAddress := ascii "player@example.org"
  subject := [0xc3, 0xa9] ++ crlf ++ ascii "Bcc: everybody@example.org"
  body := lf :: ascii "Hello."

/-- 7 July 2025. -/
def utc : Tm where
  tm_sec := 9
  tm_min := 30
  tm_hour := 8
  tm_mday := 7
  tm_mon := 6
  tm_year := 125
  tm_wday := 1

end Demo

theorem composeDocument_header_demo :
    ∃ lines, readHeader (composeDocument Demo.sodium_bin2base64 Demo.utc none Demo.settings
        Demo.message) = some (lines, network none Demo.message.body) ∧
      List.Forall₂ HeaderLine HEADERS lines :=
  (composeDocument_header Demo.sodium_bin2base64 Demo.emitsAlphabet Demo.utc none Demo.settings
    (by decide) Demo.message).1

end SmtpMailSender

end Launcher
