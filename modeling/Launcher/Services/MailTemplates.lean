import Launcher.Accounts.Schema
import Launcher.Lib.Uris
import Launcher.Services.SmtpMailSender

set_option autoImplicit false

/-! # The messages with a link

The two messages an account is sent differ in their texts only. Each is built around a link with
a token, and names the account, whose name may hold anything. `mail_carries_token` reads the link
back out of the document that is handed to the relay: whatever the account is called, it is the
line that the template puts it on, and its one argument is the token. -/

namespace Launcher.MailTemplates

open Lib Lib.LineEndings
open SmtpMailSender (composeDocument EmitsAlphabet HEADERS HeaderLine RandomBytes SmtpSettings Tm)

structure MailContext where
  linkBaseUrl : Bytes
  productName : Bytes := ascii "Custom Game Launcher"

def singleLine (value : Bytes) : Bytes :=
  value.map (fun character => if character = cr ∨ character = lf then 0x20 else character)

/-- One slash, unlike the one of the signed URLs. -/
def withoutTrailingSlash (url : Bytes) : Bytes :=
  if url.getLast? = some slash then url.dropLast else url

def greeting (displayName : Bytes) : Bytes :=
  let name := singleLine displayName
  if name.isEmpty then ascii "Hello," else ascii "Hello " ++ name ++ ascii ","

def verificationLink (context : MailContext) (token : Bytes) : Bytes :=
  withoutTrailingSlash context.linkBaseUrl ++ ascii "/verify-email?token=" ++ token

def passwordResetLink (context : MailContext) (token : Bytes) : Bytes :=
  withoutTrailingSlash context.linkBaseUrl ++ ascii "/password-reset?token=" ++ token

/-- The body of both messages. -/
def body (context : MailContext) (displayName invitation link closing : Bytes) : Bytes :=
  greeting displayName ++ [lf, lf] ++ invitation ++ [lf, lf] ++ link ++ [lf, lf] ++
    closing ++ [lf, lf] ++ [hyphen, hyphen, 0x20, lf] ++ context.productName ++ [lf]

def verificationInvitation (context : MailContext) : Bytes :=
  ascii "Open this link to confirm this address and finish creating your " ++
    context.productName ++ ascii " account:"

def verificationClosing : Bytes :=
  ascii "If you did not create an account, ignore this message: the address stays " ++
    ascii "unconfirmed and nothing else happens."

def verificationMessage (context : MailContext) (toAddress displayName token : Bytes) :
    SmtpMailSender.MailMessage where
  toAddress := toAddress
  subject := ascii "Confirm your " ++ context.productName ++ ascii " address"
  body := body context displayName (verificationInvitation context)
    (verificationLink context token) verificationClosing

def passwordResetInvitation : Bytes := ascii "Open this link to choose a new password:"

def passwordResetClosing : Bytes :=
  ascii "The link can be used once, and requesting another one replaces it. If you " ++
    ascii "did not ask for this, ignore this message: your password does not change " ++
    ascii "until somebody opens the link."

def passwordResetMessage (context : MailContext) (toAddress displayName token : Bytes) :
    SmtpMailSender.MailMessage where
  toAddress := toAddress
  subject := ascii "Reset your " ++ context.productName ++ ascii " password"
  body := body context displayName passwordResetInvitation (passwordResetLink context token)
    passwordResetClosing

/-- The message that the services of the accounts have sent. -/
def messageOf (context : MailContext) (mail : Accounts.MailMessage) :
    SmtpMailSender.MailMessage :=
  match mail.purpose with
  | .EmailVerification => verificationMessage context mail.recipient mail.displayName mail.token
  | .PasswordReset => passwordResetMessage context mail.recipient mail.displayName mail.token

/-! ## Reading a message -/

/-- The first `n` blocks of lines, each with an empty line behind it. -/
def readBlocks : Nat → Bytes → Option (List (List Bytes))
  | 0, _ => some []
  | n + 1, document => (readHeader document).bind (fun read =>
      (readBlocks n read.2).map (fun blocks => read.1 :: blocks))

theorem readBlocks_cons {n : Nat} {document rest : Bytes} {lines : List Bytes}
    {blocks : List (List Bytes)} (h : readHeader document = some (lines, rest))
    (hrest : readBlocks n rest = some blocks) :
    readBlocks (n + 1) document = some (lines :: blocks) := by
  rw [readBlocks, h, Option.bind_some, hrest]
  rfl

/-- A line with an empty one behind it is a block. -/
theorem readBlocks_line {n : Nat} {line rest : Bytes} {blocks : List (List Bytes)}
    (hne : line ≠ []) (h : OneLine line) (hrest : readBlocks n (network none rest) = some blocks) :
    readBlocks (n + 1) (network none (line ++ [lf, lf] ++ rest)) = some ([line] :: blocks) := by
  have hblock := @readHeader_network [line] (fun l hl => List.mem_singleton.mp hl ▸ hne)
    (fun l hl => List.mem_singleton.mp hl ▸ h) rest
  refine readBlocks_cons ?_ hrest
  simpa using hblock

/-! ## The lines of a message -/

/-- No name ends its line. -/
theorem oneLine_singleLine (value : Bytes) : OneLine (singleLine value) := by
  intro c hc
  obtain ⟨character, -, rfl⟩ := List.mem_map.mp hc
  split_ifs with h
  · decide
  · exact not_or.mp h

theorem oneLine_greeting (displayName : Bytes) : OneLine (greeting displayName) := by
  unfold greeting
  dsimp only
  split_ifs
  · decide
  · exact ((by decide : OneLine (ascii "Hello ")).append (oneLine_singleLine displayName)).append
      (by decide)

theorem greeting_ne_nil (displayName : Bytes) : greeting displayName ≠ [] := by
  unfold greeting
  dsimp only
  split_ifs
  · decide
  · exact fun h => by simp [ascii] at h

/-- **The blocks of a message**: behind the greeting comes the invitation, and then the link. -/
theorem readBlocks_body (context : MailContext) (displayName : Bytes)
    {invitation link closing : Bytes} (hi : OneLine invitation) (hine : invitation ≠ [])
    (hl : OneLine link) (hlne : link ≠ []) :
    readBlocks 3 (network none (body context displayName invitation link closing)) =
      some [[greeting displayName], [invitation], [link]] := by
  have hrest : readBlocks 0 (network none (closing ++ [lf, lf] ++ [hyphen, hyphen, 0x20, lf] ++
      context.productName ++ [lf])) = some [] := rfl
  have hlink := readBlocks_line hlne hl hrest
  have hblocks := readBlocks_line (greeting_ne_nil displayName) (oneLine_greeting displayName)
    (readBlocks_line hine hi hlink)
  simpa only [body, List.append_assoc] using hblocks

/-! ## The link -/

/-- A fixed text is checked character by character. -/
theorem forall_of_all {p : UInt8 → Prop} [DecidablePred p] {text : Bytes}
    (h : text.all (fun c => decide (p c)) = true) : ∀ c ∈ text, p c :=
  fun c hc => of_decide_eq_true (List.all_eq_true.mp h c hc)

/-- `scheme://authority/path`, with or without a slash behind it. -/
structure LinkBaseUrl where
  scheme : Bytes
  authority : Bytes
  path : Bytes
  trailing : Bool
  scheme_ne_nil : scheme ≠ []
  authority_ne_nil : authority ≠ []
  scheme_plain : ∀ c ∈ scheme, Uris.endsScheme c = false
  authority_plain : ∀ c ∈ authority, Uris.endsAuthority c = false
  path_plain : ∀ c ∈ path, Uris.endsPath c = false
  path_front : ∀ c, path.head? = some c → c = slash
  path_last : path.getLast? ≠ some slash
  oneLine : OneLine (scheme ++ authority ++ path)

namespace LinkBaseUrl

variable (base : LinkBaseUrl)

def plain : Bytes :=
  base.scheme ++ Uris.colon :: Uris.slash :: Uris.slash :: (base.authority ++ base.path)

def text : Bytes := base.plain ++ if base.trailing then [slash] else []

theorem getLast?_plain : base.plain.getLast? ≠ some slash := by
  have hsplit : base.plain = base.scheme ++ [Uris.colon, Uris.slash, Uris.slash] ++
      (base.authority ++ base.path) := by simp [plain]
  intro h
  rw [hsplit, List.getLast?_append, List.getLast?_append] at h
  cases hpath : base.path.getLast? with
  | some c =>
      rw [hpath, Option.some_or, Option.some_or] at h
      exact base.path_last (hpath.trans h)
  | none =>
      -- without a path the authority is last, and it is not empty
      cases hauthority : base.authority.getLast? with
      | none => exact base.authority_ne_nil (List.getLast?_eq_none_iff.mp hauthority)
      | some c =>
          rw [hpath, Option.none_or, hauthority, Option.some_or] at h
          have hends := base.authority_plain c (List.mem_of_getLast? hauthority)
          rw [Option.some.inj h] at hends
          cases hends

theorem withoutTrailingSlash_text : withoutTrailingSlash base.text = base.plain := by
  unfold text withoutTrailingSlash
  cases base.trailing with
  | true => simp
  | false => simp [base.getLast?_plain]

theorem oneLine_plain : OneLine base.plain := by
  have hscheme : OneLine base.scheme := base.oneLine.of_subset
    (fun c hc => List.mem_append_left _ (List.mem_append_left _ hc))
  have hauthority : OneLine base.authority := base.oneLine.of_subset
    (fun c hc => List.mem_append_left _ (List.mem_append_right _ hc))
  have hpath : OneLine base.path := base.oneLine.of_subset
    (fun c hc => List.mem_append_right _ hc)
  have hmarks : OneLine [Uris.colon, Uris.slash, Uris.slash] := by decide
  exact hscheme.append (hmarks.append (hauthority.append hpath))

/-- **A link is taken apart into what it was built from.** -/
theorem link_parts {page token : Bytes} (hfront : page.head? = some slash)
    (hpage : ∀ c ∈ page, Uris.endsPath c = false)
    (htoken : ∀ c ∈ token, c ≠ Uris.hash ∧ c ≠ Uris.ampersand) :
    Uris.path (base.plain ++ page ++ ascii "?token=" ++ token) = base.path ++ page ∧
      (Uris.query (base.plain ++ page ++ ascii "?token=" ++ token)).map Uris.arguments =
        some [(ascii "token", token)] := by
  have hlink : base.plain ++ page ++ ascii "?token=" ++ token = base.scheme ++ Uris.colon ::
      Uris.slash :: Uris.slash :: (base.authority ++ ((base.path ++ page) ++
        Uris.question :: (ascii "token" ++ Uris.equals :: token))) := by
    simp [plain, ascii, Uris.question, Uris.equals]
  have hrest : ∀ c, ((base.path ++ page) ++ Uris.question :: (ascii "token" ++
      Uris.equals :: token)).head? = some c → Uris.endsAuthority c = true := by
    intro c hc
    have hslash : c = slash := by
      cases hpath : base.path with
      | nil =>
          rw [hpath, List.nil_append, List.head?_append, hfront, Option.some_or] at hc
          exact (Option.some.inj hc).symm
      | cons d rest =>
          rw [hpath] at hc
          refine base.path_front c ?_
          rw [hpath]
          exact hc
    rw [hslash]
    rfl
  have hafter : Uris.afterAuthority (Uris.afterScheme (base.plain ++ page ++ ascii "?token=" ++
      token)) = (base.path ++ page) ++ Uris.question :: (ascii "token" ++
        Uris.equals :: token) := by
    rw [hlink, Uris.afterScheme_append base.scheme_ne_nil base.scheme_plain,
      Uris.afterAuthority_append base.authority_plain hrest]
  have hquery : Uris.hash ∉ ascii "token" ++ Uris.equals :: token := by
    intro hmem
    rcases List.mem_append.mp hmem with h | h
    · revert h
      decide
    · rcases List.mem_cons.mp h with h | h
      · cases h
      · exact (htoken _ h).1 rfl
  have hargs : Uris.arguments (ascii "token" ++ Uris.equals :: token) =
      [(ascii "token", token)] := by
    have hone := @Uris.arguments_intercalate [(ascii "token", token)] (List.cons_ne_nil _ _)
      (fun arg harg => by
        obtain rfl := List.mem_singleton.mp harg
        have hname : Uris.equals ∉ ascii "token" ∧ Uris.ampersand ∉ ascii "token" := by decide
        exact ⟨hname.1, hname.2, fun hmem => (htoken _ hmem).2 rfl⟩)
    simpa [List.intercalate] using hone
  obtain ⟨hpath, hread⟩ := Uris.path_query_append hafter (fun c hc => by
    rcases List.mem_append.mp hc with h | h
    · exact base.path_plain c h
    · exact hpage c h) hquery
  refine ⟨hpath, ?_⟩
  rw [hread, Option.map_some, hargs]

theorem verificationLink_text (productName token : Bytes) :
    verificationLink ⟨base.text, productName⟩ token =
      base.plain ++ ascii "/verify-email" ++ ascii "?token=" ++ token := by
  have htext : ascii "/verify-email?token=" = ascii "/verify-email" ++ ascii "?token=" := by
    decide
  rw [verificationLink, base.withoutTrailingSlash_text, htext, ← List.append_assoc base.plain]

theorem passwordResetLink_text (productName token : Bytes) :
    passwordResetLink ⟨base.text, productName⟩ token =
      base.plain ++ ascii "/password-reset" ++ ascii "?token=" ++ token := by
  have htext : ascii "/password-reset?token=" = ascii "/password-reset" ++ ascii "?token=" := by
    decide
  rw [passwordResetLink, base.withoutTrailingSlash_text, htext, ← List.append_assoc base.plain]

end LinkBaseUrl

/-! ## The mail -/

theorem readHeader_document {sodium_bin2base64 : Bytes → Bytes}
    (hbase64 : EmitsAlphabet sodium_bin2base64) (utc : Tm) (random : RandomBytes)
    {settings : SmtpSettings} (hfrom : OneLine settings.fromAddress)
    (message : SmtpMailSender.MailMessage) :
    ∃ headers, List.Forall₂ HeaderLine HEADERS headers ∧
      readHeader (composeDocument sodium_bin2base64 utc random settings message) =
        some (headers, network none message.body) := by
  obtain ⟨headers, hheaders, hdocument⟩ :=
    SmtpMailSender.composeDocument_lines hbase64 utc random hfrom message
  have hnames : ∀ name ∈ HEADERS, OneLine name := by decide
  have hlines : ∀ line ∈ headers, line ≠ [] ∧ OneLine line := by
    intro line hline
    obtain ⟨i, hi, rfl⟩ := List.getElem_of_mem hline
    have hi' : i < HEADERS.length := hheaders.length_eq ▸ hi
    have hpair := hheaders.get hi' hi
    exact ⟨hpair.ne_nil, hpair.oneLine (hnames _ (List.getElem_mem hi'))⟩
  refine ⟨headers, hheaders, ?_⟩
  rw [hdocument]
  exact readHeader_network (fun line hline => (hlines line hline).1)
    (fun line hline => (hlines line hline).2) message.body

/-- The page that the link of a message opens. -/
def pageOf : Accounts.UserTokenPurpose → Bytes
  | .EmailVerification => ascii "/verify-email"
  | .PasswordReset => ascii "/password-reset"

def invitationOf (context : MailContext) : Accounts.UserTokenPurpose → Bytes
  | .EmailVerification => verificationInvitation context
  | .PasswordReset => passwordResetInvitation

section Carried

variable {sodium_bin2base64 : Bytes → Bytes} {settings : SmtpSettings} {token : Bytes}

/-- A message that is built around a link to a page. -/
theorem readBlocks_document (hbase64 : EmitsAlphabet sodium_bin2base64) (utc : Tm)
    (random : RandomBytes) (hfrom : OneLine settings.fromAddress) (base : LinkBaseUrl)
    {message : SmtpMailSender.MailMessage} {context : MailContext}
    {displayName invitation page closing : Bytes}
    (hbody : message.body = body context displayName invitation
      (base.plain ++ page ++ ascii "?token=" ++ token) closing)
    (hi : OneLine invitation) (hine : invitation ≠ []) (hone : OneLine page)
    (hfront : page.head? = some slash) (hpage : ∀ c ∈ page, Uris.endsPath c = false)
    (htoken : ∀ c ∈ token, c ≠ cr ∧ c ≠ lf ∧ c ≠ Uris.hash ∧ c ≠ Uris.ampersand) :
    ∃ headers link, readBlocks 4 (composeDocument sodium_bin2base64 utc random settings message) =
        some [headers, [greeting displayName], [invitation], [link]] ∧
      List.Forall₂ HeaderLine HEADERS headers ∧ Uris.path link = base.path ++ page ∧
      (Uris.query link).map Uris.arguments = some [(ascii "token", token)] := by
  have hline : OneLine token := fun c hc => ⟨(htoken c hc).1, (htoken c hc).2.1⟩
  have hlink : OneLine (base.plain ++ page ++ ascii "?token=" ++ token) :=
    ((base.oneLine_plain.append hone).append (by decide)).append hline
  have hlinkne : base.plain ++ page ++ ascii "?token=" ++ token ≠ [] := by
    intro hnil
    simp [LinkBaseUrl.plain] at hnil
  obtain ⟨headers, hheaders, hread⟩ := readHeader_document hbase64 utc random hfrom message
  refine ⟨headers, _, readBlocks_cons hread ?_, hheaders,
    base.link_parts hfront hpage (fun c hc => (htoken c hc).2.2)⟩
  rw [hbody]
  exact readBlocks_body _ _ hi hine hlink hlinkne

end Carried

/-- **The mail carries the token**, whatever the account is called. -/
theorem mail_carries_token (sodium_bin2base64 : Bytes → Bytes)
    (hbase64 : EmitsAlphabet sodium_bin2base64) (utc : Tm) (random : RandomBytes)
    (settings : SmtpSettings) (hfrom : OneLine settings.fromAddress) (base : LinkBaseUrl)
    (productName : Bytes) (hproduct : OneLine productName) (mail : Accounts.MailMessage)
    (htoken : ∀ c ∈ mail.token, c ≠ cr ∧ c ≠ lf ∧ c ≠ Uris.hash ∧ c ≠ Uris.ampersand) :
    ∃ headers link,
      readBlocks 4 (composeDocument sodium_bin2base64 utc random settings
        (messageOf ⟨base.text, productName⟩ mail)) =
        some [headers, [greeting mail.displayName],
          [invitationOf ⟨base.text, productName⟩ mail.purpose], [link]] ∧
      List.Forall₂ HeaderLine HEADERS headers ∧
      Uris.path link = base.path ++ pageOf mail.purpose ∧
      (Uris.query link).map Uris.arguments = some [(ascii "token", mail.token)] := by
  obtain ⟨purpose, recipient, displayName, token⟩ := mail
  cases purpose with
  | EmailVerification =>
      have hbody := congrArg (fun link => body ⟨base.text, productName⟩ displayName
        (verificationInvitation ⟨base.text, productName⟩) link verificationClosing)
        (base.verificationLink_text productName token)
      have hi : OneLine (verificationInvitation ⟨base.text, productName⟩) :=
        (OneLine.append (by decide) hproduct).append (by decide)
      have hine : verificationInvitation ⟨base.text, productName⟩ ≠ [] := by
        intro hnil
        simp [verificationInvitation, ascii] at hnil
      have hpage : OneLine (ascii "/verify-email") ∧
          ∀ c ∈ ascii "/verify-email", Uris.endsPath c = false :=
        ⟨by decide, forall_of_all (by decide)⟩
      exact readBlocks_document hbase64 utc random hfrom base hbody hi hine hpage.1 rfl hpage.2
        htoken
  | PasswordReset =>
      have hbody := congrArg (fun link => body ⟨base.text, productName⟩ displayName
        passwordResetInvitation link passwordResetClosing)
        (base.passwordResetLink_text productName token)
      have hi : OneLine passwordResetInvitation ∧ passwordResetInvitation ≠ [] := by decide
      have hpage : OneLine (ascii "/password-reset") ∧
          ∀ c ∈ ascii "/password-reset", Uris.endsPath c = false :=
        ⟨by decide, forall_of_all (by decide)⟩
      exact readBlocks_document hbase64 utc random hfrom base hbody hi.1 hi.2 hpage.1 rfl hpage.2
        htoken

namespace Demo

def base : LinkBaseUrl where
  scheme := ascii "https"
  authority := ascii "launcher.example.com"
  path := []
  trailing := true
  scheme_ne_nil := by decide
  authority_ne_nil := by decide
  scheme_plain := forall_of_all (by decide)
  authority_plain := forall_of_all (by decide)
  path_plain := forall_of_all (by decide)
  path_front := fun c hc => by cases hc
  path_last := by decide
  oneLine := by decide

/-- The name of the account brings a link of its own. -/
def mail : Accounts.MailMessage where
  purpose := .PasswordReset
  recipient := ascii "player@example.org"
  displayName := ascii "Eve" ++ crlf ++ crlf ++ ascii "https://example.net/?token=x"
  token := ascii "aB3_-9"

end Demo

theorem mail_carries_token_demo : ∃ headers link,
    readBlocks 4 (composeDocument SmtpMailSender.Demo.sodium_bin2base64 SmtpMailSender.Demo.utc none
      SmtpMailSender.Demo.settings (messageOf ⟨Demo.base.text, ascii "Launcher"⟩ Demo.mail)) =
      some [headers, [greeting Demo.mail.displayName], [passwordResetInvitation], [link]] ∧
    List.Forall₂ HeaderLine HEADERS headers ∧ Uris.path link = ascii "/password-reset" ∧
    (Uris.query link).map Uris.arguments = some [(ascii "token", ascii "aB3_-9")] :=
  mail_carries_token SmtpMailSender.Demo.sodium_bin2base64 SmtpMailSender.Demo.emitsAlphabet
    SmtpMailSender.Demo.utc none SmtpMailSender.Demo.settings (by decide) Demo.base
    (ascii "Launcher") (by decide) Demo.mail (forall_of_all (by decide))

end Launcher.MailTemplates
