import Launcher.Deployment.System
import Launcher.Lib.Utf8
import Launcher.Lib.Words

set_option autoImplicit false

/-! # Lengths in bytes and in characters

The validators count the bytes of a trimmed text, the constraints of the tables its characters.
A character has at least one byte, so the upper bounds agree in one direction, and a text that
is not empty has a character. Two bytes, though, may be a single character: a display name that
is one character of several bytes passes the validator and not the constraint, and no other text
does (`accepted_texts_fit_iff`). -/

namespace Launcher.Deployment

open Lib

/-- `users_display_name_length`. -/
def USERS_DISPLAY_NAME_LENGTH (displayName : Bytes) : Prop :=
  2 ≤ Utf8.charLength displayName ∧ Utf8.charLength displayName ≤ 64

/-- `games_title_length`. -/
def GAMES_TITLE_LENGTH (title : Bytes) : Prop :=
  1 ≤ Utf8.charLength title ∧ Utf8.charLength title ≤ 200

/-- `patch_notes_title_length`. -/
def PATCH_NOTES_TITLE_LENGTH (title : Bytes) : Prop :=
  1 ≤ Utf8.charLength title ∧ Utf8.charLength title ≤ 200

/-- What the validators accept of this text the tables accept. -/
structure AcceptedTextsFit (text : Bytes) : Prop where
  displayName : validateDisplayName text = .ok () → USERS_DISPLAY_NAME_LENGTH (trim text)
  /-- The `INSERT` of a registration does not fail on its constraint. -/
  registration : ∀ (env : Accounts.Env), env.charLength = Utf8.charLength →
    ∀ (command : Accounts.RegisterCommand), command.displayName = text →
    ∀ email name password, Accounts.registerUser command = .hash email name password →
    ∀ passwordHash choice (s : Accounts.State),
      (s.createUser env choice ⟨email, name, passwordHash⟩).1 ≠ .error .checkViolation
  newGame : ∀ actor command game, command.title = text →
    Storefront.newGame actor command = .ok game → GAMES_TITLE_LENGTH game.title
  gameUpdate : ∀ (changes checked : Storefront.GameUpdate), changes.title = some text →
    changes.checked = .ok checked → ∃ title, checked.title = some title ∧ GAMES_TITLE_LENGTH title
  newNote : validatePatchNoteTitle text = .ok () → PATCH_NOTES_TITLE_LENGTH (trim text)
  noteUpdate : ∀ changes checked : Storefront.PatchNoteUpdate, changes.title = some text →
    Storefront.Notes.checkUpdate changes = .ok checked →
      ∃ title, checked.title = some title ∧ PATCH_NOTES_TITLE_LENGTH title

/-! ## Trimming -/

section Trim

variable {text : Bytes}

theorem trim_trim (text : Bytes) : trim (trim text) = trim text :=
  trimmed_trimmed isWhitespace text

theorem isWhitespace_lt {c : UInt8} (h : isWhitespace c = true) : c < 0x80 := by
  simp only [isWhitespace, Bool.or_eq_true, beq_iff_eq, Bool.and_eq_true, decide_eq_true_eq,
    UInt8.le_iff_toNat_le] at h
  rw [UInt8.lt_iff_toNat_lt]
  rcases h with rfl | h
  · decide
  · simp only [UInt8.reduceToNat] at h ⊢
    omega

/-- Whitespace is ASCII, so no character is cut. -/
theorem valid_trim (h : Utf8.valid text = true) : Utf8.valid (trim text) = true := by
  obtain ⟨front, back, hsplit, hfront, hback⟩ := exists_trimmed isWhitespace text
  rw [hsplit, Utf8.valid_ascii_append (fun c hc => isWhitespace_lt (hfront c hc))] at h
  exact Utf8.valid_of_append_ascii (fun c hc => isWhitespace_lt (hback c hc)) h

end Trim

/-! ## What the validators accept -/

section Accepted

variable {text : Bytes}

theorem validateDisplayName_ok : validateDisplayName text = .ok () ↔
    2 ≤ (trim text).length ∧ (trim text).length ≤ 64 ∧
      containsControlCharacter (trim text) = false := by
  unfold validateDisplayName MIN_DISPLAY_NAME_LENGTH MAX_DISPLAY_NAME_LENGTH
  dsimp only
  split_ifs with hshort hlong hcontrol
  · exact iff_of_false (by simp) (by omega)
  · exact iff_of_false (by simp) (by omega)
  · exact iff_of_false (by simp) (by simp [hcontrol])
  · exact iff_of_true rfl ⟨by omega, by omega, by simpa using hcontrol⟩

theorem checkLength_ok {limit : Nat} {field rule : Bytes} :
    checkLength text limit field rule = .ok () ↔ text.length ≤ limit := by
  unfold checkLength
  split_ifs with hlong
  · exact iff_of_false (by simp) (by omega)
  · exact iff_of_true rfl (by omega)

theorem checkTitle_ok : checkTitle text = .ok () ↔ text ≠ [] ∧ text.length ≤ 200 := by
  unfold checkTitle
  split_ifs with hempty
  · exact iff_of_false (by simp) (fun h => h.1 (List.isEmpty_iff.mp hempty))
  · rw [checkLength_ok, MAX_TITLE_LENGTH]
    exact ⟨fun h => ⟨by simpa using hempty, h⟩, fun h => h.2⟩

theorem validatePatchNoteTitle_ok : validatePatchNoteTitle text = .ok () ↔
    trim text ≠ [] ∧ (trim text).length ≤ 200 := by
  unfold validatePatchNoteTitle
  dsimp only
  split_ifs with hempty
  · exact iff_of_false (by simp) (fun h => h.1 (List.isEmpty_iff.mp hempty))
  · rw [checkLength_ok, MAX_PATCH_NOTE_TITLE_LENGTH]
    exact ⟨fun h => ⟨by simpa using hempty, h⟩, fun h => h.2⟩

/-- A title that is short enough in bytes is in characters. -/
theorem title_fits (hvalid : Utf8.valid text = true) (h : text ≠ [] ∧ text.length ≤ 200) :
    1 ≤ Utf8.charLength text ∧ Utf8.charLength text ≤ 200 :=
  ⟨Utf8.charLength_pos hvalid h.1, (Utf8.charLength_le text).trans h.2⟩

/-- A display name is, unless all its bytes belong to one character. -/
theorem displayName_fits_iff (hvalid : Utf8.valid text = true) :
    (validateDisplayName text = .ok () → USERS_DISPLAY_NAME_LENGTH (trim text)) ↔
      Utf8.oneWideCharacter (trim text) = false := by
  have htrimmed := valid_trim hvalid
  constructor
  · intro h
    by_contra hwide
    rw [Bool.not_eq_false] at hwide
    obtain ⟨htwo, hfour, hbytes⟩ := Utf8.bytes_of_oneWideCharacter htrimmed hwide
    -- its bytes are 0x80 or more, and control characters lie below
    have hplain : containsControlCharacter (trim text) = false := by
      rw [containsControlCharacter, List.any_eq_false]
      intro c hc hcontrol
      have hwidth := hbytes c hc
      simp only [Bool.or_eq_true, beq_iff_eq, decide_eq_true_eq] at hcontrol
      grind
    obtain ⟨hlow, -⟩ := h (validateDisplayName_ok.mpr ⟨htwo, by omega, hplain⟩)
    rw [Utf8.two_le_charLength_iff htrimmed, hwide] at hlow
    cases hlow.2
  · intro hnarrow hok
    obtain ⟨htwo, hlong, -⟩ := validateDisplayName_ok.mp hok
    exact ⟨(Utf8.two_le_charLength_iff htrimmed).mpr ⟨htwo, hnarrow⟩,
      (Utf8.charLength_le _).trans hlong⟩

end Accepted

/-! ## What the requests store -/

section Requests

theorem newGame_title {actor : Actor} {command : Storefront.CreateGameCommand}
    {game : Storefront.NewGame} (h : Storefront.newGame actor command = .ok game) :
    checkTitle (trim command.title) = .ok () ∧ game.title = trim command.title := by
  obtain ⟨⟨⟩, htitle, h⟩ := bind_ok h
  obtain ⟨-, -, h⟩ := bind_ok h
  obtain ⟨-, -, h⟩ := bind_ok h
  obtain ⟨-, -, h⟩ := bind_ok h
  obtain ⟨-, -, h⟩ := bind_ok h
  obtain rfl := Except.ok.inj h
  exact ⟨htitle, rfl⟩

theorem gameUpdate_title {changes checked : Storefront.GameUpdate} {text : Bytes}
    (htext : changes.title = some text) (h : changes.checked = .ok checked) :
    checkTitle (trim text) = .ok () ∧ checked.title = some (trim text) := by
  obtain ⟨⟨⟩, htitle, h⟩ := bind_ok h
  obtain ⟨-, -, h⟩ := bind_ok h
  obtain ⟨-, -, h⟩ := bind_ok h
  obtain ⟨-, -, h⟩ := bind_ok h
  obtain rfl := Except.ok.inj h
  rw [htext] at htitle
  exact ⟨htitle, by simp [htext]⟩

theorem noteUpdate_title {changes checked : Storefront.PatchNoteUpdate} {text : Bytes}
    (htext : changes.title = some text) (h : Storefront.Notes.checkUpdate changes = .ok checked) :
    validatePatchNoteTitle (trim text) = .ok () ∧ checked.title = some (trim text) := by
  obtain ⟨⟨⟩, htitle, h⟩ := bind_ok h
  obtain ⟨-, -, h⟩ := bind_ok h
  obtain rfl := Except.ok.inj h
  rw [htext] at htitle
  exact ⟨htitle, by simp [htext]⟩

theorem registerUser_hash {command : Accounts.RegisterCommand} {email name password : Bytes}
    (h : Accounts.registerUser command = .hash email name password) :
    validateDisplayName (trim command.displayName) = .ok () ∧ name = trim command.displayName := by
  unfold Accounts.registerUser at h
  dsimp only at h
  split at h
  case h_1 => cases h
  case h_2 hchecks =>
    obtain ⟨-, -, hchecks⟩ := bind_ok hchecks
    obtain ⟨⟨⟩, hname, -⟩ := bind_ok hchecks
    cases h
    exact ⟨hname, rfl⟩

theorem createUser_checked {env : Accounts.Env} (henv : env.charLength = Utf8.charLength)
    {email name passwordHash : Bytes} (h : USERS_DISPLAY_NAME_LENGTH name)
    (choice : Accounts.Choice) (s : Accounts.State) :
    (s.createUser env choice ⟨email, name, passwordHash⟩).1 ≠ .error .checkViolation := by
  have hfits : ¬ (Utf8.charLength name < 2 || 64 < Utf8.charLength name) = true := by
    obtain ⟨hlow, hhigh⟩ := h
    rw [Bool.or_eq_true, decide_eq_true_eq, decide_eq_true_eq]
    omega
  simp only [Accounts.State.createUser, henv]
  rw [if_neg hfits]
  split_ifs <;> simp

end Requests

/-- **What the validators accept fits**, exactly if the trimmed text is not a single character of
several bytes; only the display name makes a difference. -/
theorem accepted_texts_fit_iff {text : Bytes} (h : Utf8.valid text = true) :
    AcceptedTextsFit text ↔ Utf8.oneWideCharacter (trim text) = false := by
  have htrimmed := valid_trim h
  constructor
  · intro hfit
    exact (displayName_fits_iff h).mp hfit.displayName
  · intro hnarrow
    have htitle : checkTitle (trim text) = .ok () → GAMES_TITLE_LENGTH (trim text) :=
      fun hok => title_fits htrimmed (checkTitle_ok.mp hok)
    have hnote : validatePatchNoteTitle text = .ok () → PATCH_NOTES_TITLE_LENGTH (trim text) :=
      fun hok => title_fits htrimmed (validatePatchNoteTitle_ok.mp hok)
    have hname := (displayName_fits_iff h).mpr hnarrow
    refine ⟨hname, ?_, ?_, ?_, hnote, ?_⟩
    · rintro env henv command rfl email name password hregister passwordHash choice s
      obtain ⟨hok, rfl⟩ := registerUser_hash hregister
      -- the service trims before the validator does
      rw [validateDisplayName_ok, trim_trim, ← validateDisplayName_ok] at hok
      exact createUser_checked henv (hname hok) choice s
    · rintro actor command game rfl hgame
      obtain ⟨hok, hstored⟩ := newGame_title hgame
      rw [hstored]
      exact htitle hok
    · intro changes checked htext hchecked
      obtain ⟨hok, hstored⟩ := gameUpdate_title htext hchecked
      exact ⟨trim text, hstored, htitle hok⟩
    · intro changes checked htext hchecked
      obtain ⟨hok, hstored⟩ := noteUpdate_title htext hchecked
      rw [validatePatchNoteTitle_ok, trim_trim, ← validatePatchNoteTitle_ok] at hok
      exact ⟨trim text, hstored, hnote hok⟩

theorem accepted_texts_fit_iff_ascii : AcceptedTextsFit (ascii " Ada ") ↔
    Utf8.oneWideCharacter (trim (ascii " Ada ")) = false :=
  accepted_texts_fit_iff (by decide)

/-- `é` is two bytes and one character: the registration goes on, and its `INSERT` fails. -/
theorem one_character_display_name :
    Utf8.valid [0xc3, 0xa9] = true ∧ (0 : UInt8) ∉ [0xc3, 0xa9] ∧
    validateDisplayName [0xc3, 0xa9] = .ok () ∧
    ¬ USERS_DISPLAY_NAME_LENGTH (trim [0xc3, 0xa9]) ∧
    ∀ env : Accounts.Env, env.charLength = Utf8.charLength →
      ∀ email passwordHash choice (s : Accounts.State),
        (s.createUser env choice ⟨email, trim [0xc3, 0xa9], passwordHash⟩).1
          = .error .checkViolation := by
  have hshort : Utf8.charLength (trim [0xc3, 0xa9]) = 1 := by decide
  refine ⟨by decide, by decide, by decide, ?_, fun env henv email passwordHash choice s => ?_⟩
  · rw [USERS_DISPLAY_NAME_LENGTH, hshort]
    omega
  · simp only [Accounts.State.createUser, henv, hshort]
    rfl

end Launcher.Deployment
