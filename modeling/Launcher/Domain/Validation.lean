import Launcher.Common.Basic

set_option autoImplicit false

/-! # Field validation

What a person types into a form (`domain/Validation.cpp`) and the names an erased account keeps
(`domain/User.h`). A refusal carries the rule that refused and the limit it names. -/

namespace Launcher

/-- `common::invalidInput(detail, rule, args)`. -/
def invalidInput (detail rule : Bytes) (args : List Bytes) : Error :=
  { code := .InvalidInput, detail := detail, rule := rule, ruleArgs := args }

def MIN_PASSWORD_LENGTH : Nat := 8
def MAX_PASSWORD_LENGTH : Nat := 256
def MAX_EMAIL_LENGTH : Nat := 254
def MIN_DISPLAY_NAME_LENGTH : Nat := 2
def MAX_DISPLAY_NAME_LENGTH : Nat := 64
def MAX_ERASURE_REASON_LENGTH : Nat := 500

def atSign : UInt8 := 0x40
def dot : UInt8 := 0x2e

def containsControlCharacter (text : Bytes) : Bool := text.any (fun c => c < 0x20 || c == 0x7f)

/-- `std::tolower` in the C locale. -/
def toLower (c : UInt8) : UInt8 := if 0x41 ≤ c && c ≤ 0x5a then c + 0x20 else c

def normalizeEmail (email : Bytes) : Bytes := (trim email).map toLower

/-- Every refusal of a present, short enough address names this rule. -/
def emailInvalid (detail : String) : VoidResult :=
  .error (invalidInput (ascii detail) (ascii "email_invalid") [])

/-- The domain has a dot with something on both sides of it, and does not begin or end with a
hyphen or end with a dot. -/
def validateDomain (domain : Bytes) : VoidResult :=
  match domain.idxOf? dot with
  | none => emailInvalid "email domain is not valid"
  | some at_ =>
      if at_ == 0 || domain.length ≤ at_ + 1 then emailInvalid "email domain is not valid"
      else if domain.head? == some hyphen || domain.getLast? == some hyphen ||
          domain.getLast? == some dot then
        emailInvalid "email domain is not valid"
      else .ok ()

def validateEmail (email : Bytes) : VoidResult :=
  let candidate := trim email
  if candidate.isEmpty then
    .error (invalidInput (ascii "email is required") (ascii "email_required") [])
  else if MAX_EMAIL_LENGTH < candidate.length then
    .error (invalidInput (ascii "email is too long") (ascii "email_too_long")
      [decimal MAX_EMAIL_LENGTH])
  else if containsControlCharacter candidate then
    emailInvalid "email contains invalid characters"
  else
    match candidate.idxOf? atSign with
    | none => emailInvalid "email must contain a local part and a domain"
    | some at_ =>
        if at_ == 0 || candidate.length ≤ at_ + 1 then
          emailInvalid "email must contain a local part and a domain"
        else if (candidate.drop (at_ + 1)).contains atSign then
          emailInvalid "email must contain exactly one '@'"
        else if candidate.any (fun c => c == 0x20 || c == 0x09) then
          emailInvalid "email must not contain spaces"
        else validateDomain (candidate.drop (at_ + 1))

def validatePassword (password : Bytes) : VoidResult :=
  if password.length < MIN_PASSWORD_LENGTH then
    .error (invalidInput
      (ascii "password must be at least " ++ decimal MIN_PASSWORD_LENGTH ++ ascii " characters")
      (ascii "password_too_short") [decimal MIN_PASSWORD_LENGTH])
  else if MAX_PASSWORD_LENGTH < password.length then
    .error (invalidInput
      (ascii "password must be at most " ++ decimal MAX_PASSWORD_LENGTH ++ ascii " characters")
      (ascii "password_too_long") [decimal MAX_PASSWORD_LENGTH])
  else if (trim password).isEmpty then
    .error (invalidInput (ascii "password must not consist only of whitespace")
      (ascii "password_blank") [])
  else .ok ()

def validateDisplayName (displayName : Bytes) : VoidResult :=
  let candidate := trim displayName
  if candidate.length < MIN_DISPLAY_NAME_LENGTH then
    .error (invalidInput
      (ascii "display name must be at least " ++ decimal MIN_DISPLAY_NAME_LENGTH ++
        ascii " characters")
      (ascii "display_name_too_short") [decimal MIN_DISPLAY_NAME_LENGTH])
  else if MAX_DISPLAY_NAME_LENGTH < candidate.length then
    .error (invalidInput
      (ascii "display name must be at most " ++ decimal MAX_DISPLAY_NAME_LENGTH ++
        ascii " characters")
      (ascii "display_name_too_long") [decimal MAX_DISPLAY_NAME_LENGTH])
  else if containsControlCharacter candidate then
    .error (invalidInput (ascii "display name contains invalid characters")
      (ascii "display_name_invalid") [])
  else .ok ()

/-! ## What an erased account is called -/

def ERASED_DISPLAY_NAME : Bytes := ascii "Deleted account"

/-- Not an Argon2id encoding, so that no password verifies against it. -/
def ERASED_PASSWORD_HASH : Bytes := ascii "erased"

def erasedEmailFor (userId : Uuid) : Bytes :=
  ascii "erased+" ++ uuidText userId ++ ascii "@deleted.invalid"

end Launcher
