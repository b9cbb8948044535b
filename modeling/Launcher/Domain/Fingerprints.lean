import Launcher.Domain.CrashReport
import Launcher.Lib.Words
import Mathlib.Data.Set.Function

set_option autoImplicit false

/-! # Fingerprints of crashes

A normalised stack is the words of the stack in lower case with single spaces between them, a
word being a run of the characters that make up names. So it does not depend on what separates
the words, nor on the case of their letters, and two reports have one fingerprint exactly if
their exception types and the words of their stacks agree (`crashes_grouped_by_type_and_stack`).

A decimal number separates words, whichever it is. A hexadecimal literal does not: its letters
belong to the words, and `fingerprint_eq_iff` says which of them a rebuild has to leave alone. -/

namespace Launcher

open Lib CrashReport

/-! ## The words of a stack -/

section Words

variable {stack : Bytes}

theorem isNameCharacter_toLower (c : UInt8) : isNameCharacter (toLower c) = isNameCharacter c := by
  rw [Bool.eq_iff_iff]
  simp only [isNameCharacter, isAlpha, toLower, Bool.or_eq_true, Bool.and_eq_true,
    decide_eq_true_eq, beq_iff_eq, UInt8.le_iff_toNat_le, ← UInt8.toNat_inj]
  split_ifs with hupper
  · simp [UInt8.toNat_add] at hupper ⊢
    omega
  · rfl

theorem toLower_toLower (c : UInt8) : toLower (toLower c) = toLower c := by
  unfold toLower
  simp only [Bool.and_eq_true, decide_eq_true_eq, UInt8.le_iff_toNat_le]
  split_ifs with hupper htwice
  · simp [UInt8.toNat_add] at hupper htwice
    omega
  · rfl
  · rfl

theorem toLower_ne_space {c : UInt8} (h : isNameCharacter c = true) : toLower c ≠ space := by
  intro hspace
  rw [← isNameCharacter_toLower, hspace] at h
  exact absurd h (by decide)

/-- The loop, from what it has written so far. -/
theorem foldl_normalize (stack out : Bytes) (last : Bool) :
    (stack.foldl (fun (normalized, lastWasSeparator) c =>
      if isNameCharacter c then (normalized ++ [toLower c], false)
      else if !lastWasSeparator then (normalized ++ [space], true)
      else (normalized, lastWasSeparator)) (out, last)).1
      = out ++ squeeze isNameCharacter toLower space last stack := by
  induction stack generalizing out last with
  | nil => simp [squeeze]
  | cons c stack ih =>
      rw [List.foldl_cons, squeeze]
      cases hc : isNameCharacter c with
      | true =>
          refine (ih (out ++ [toLower c]) false).trans ?_
          rw [List.append_assoc]
          rfl
      | false =>
          cases last with
          | true => exact ih out true
          | false =>
              refine (ih (out ++ [space]) true).trans ?_
              rw [List.append_assoc]
              rfl

/-- The words of a stack, in lower case. -/
def stackWords (stack : Bytes) : List Bytes :=
  (words isNameCharacter stack).map (List.map toLower)

theorem normalizeStackForFingerprint_eq (stack : Bytes) :
    normalizeStackForFingerprint stack = [space].intercalate (stackWords stack) := by
  have hloop := foldl_normalize stack [] true
  rw [List.nil_append] at hloop
  have hstrip : (squeeze isNameCharacter toLower space true stack).rdropWhile (· == space)
      = [space].intercalate (stackWords stack) :=
    rdropWhile_squeeze (fun c hc => toLower_ne_space hc) stack
  unfold normalizeStackForFingerprint
  dsimp only
  rw [hloop]
  exact hstrip

theorem mem_stackWords {word : Bytes} (h : word ∈ stackWords stack) :
    word ≠ [] ∧ ∀ c ∈ word, isNameCharacter c = true ∧ toLower c = c := by
  obtain ⟨raw, hraw, rfl⟩ := List.mem_map.mp h
  obtain ⟨hne, hrun⟩ := mem_words hraw
  refine ⟨by simpa using hne, fun c hc => ?_⟩
  obtain ⟨d, hd, rfl⟩ := List.mem_map.mp hc
  exact ⟨by rw [isNameCharacter_toLower, hrun d hd], toLower_toLower d⟩

/-- Normalising twice is normalising once. -/
theorem stackWords_normalize (stack : Bytes) :
    stackWords (normalizeStackForFingerprint stack) = stackWords stack := by
  have hlower : ∀ word ∈ stackWords stack, word.map toLower = word := by
    intro word hword
    rw [List.map_congr_left (fun c hc => ((mem_stackWords hword).2 c hc).2), List.map_id']
  rw [normalizeStackForFingerprint_eq, stackWords,
    words_intercalate (by decide) (fun word hword => ⟨(mem_stackWords hword).1,
      fun c hc => ((mem_stackWords hword).2 c hc).1⟩),
    List.map_congr_left hlower, List.map_id']

theorem stackWords_toLower (stack : Bytes) : stackWords (stack.map toLower) = stackWords stack := by
  rw [stackWords, words_map isNameCharacter_toLower, List.map_map, stackWords]
  refine List.map_congr_left (fun word _ => ?_)
  rw [Function.comp_apply, List.map_map]
  exact List.map_congr_left (fun c _ => toLower_toLower c)

theorem stackWords_separated {run : Bytes} (hne : run ≠ [])
    (h : ∀ c ∈ run, isNameCharacter c = false) (front back : Bytes) :
    stackWords (front ++ run ++ back) = stackWords front ++ stackWords back := by
  rw [stackWords, words_append_run hne h, List.map_append]
  rfl

theorem newline_notMem_normalize (stack : Bytes) :
    newline ∉ normalizeStackForFingerprint stack := by
  intro h
  rw [normalizeStackForFingerprint_eq] at h
  rcases mem_intercalate h with hspace | ⟨word, hword, hc⟩
  · exact absurd hspace (by decide)
  · exact absurd ((mem_stackWords hword).2 newline hc).1 (by decide)

end Words

/-! ## Equal fingerprints -/

section Grouping

variable {sha256Hex : Bytes → Bytes} {A : Set Bytes}

/-- The last newline of what is hashed ends the exception type, whatever this contains. -/
theorem fingerprintText_inj {report report' : NewCrashReport} :
    fingerprintText report = fingerprintText report' ↔
      trim report.exceptionType = trim report'.exceptionType ∧
        normalizeStackForFingerprint report.stackTrace
          = normalizeStackForFingerprint report'.stackTrace := by
  constructor
  · intro h
    simp only [fingerprintText, List.append_assoc, List.singleton_append] at h
    exact append_cons_inj_of_notMem (newline_notMem_normalize _) (newline_notMem_normalize _) h
  · rintro ⟨htype, hstack⟩
    rw [fingerprintText, fingerprintText, htype, hstack]

/-- `sha256Hex` has no collision among the texts of `A`. -/
theorem crashFingerprint_eq_iff (hsha : Set.InjOn sha256Hex A) {report report' : NewCrashReport}
    (h : fingerprintText report ∈ A) (h' : fingerprintText report' ∈ A) :
    crashFingerprint sha256Hex report = crashFingerprint sha256Hex report' ↔
      trim report.exceptionType = trim report'.exceptionType ∧
        normalizeStackForFingerprint report.stackTrace
          = normalizeStackForFingerprint report'.stackTrace := by
  rw [← fingerprintText_inj]
  exact hsha.eq_iff h h'

theorem normalize_eq_iff {stack stack' : Bytes} :
    normalizeStackForFingerprint stack = normalizeStackForFingerprint stack' ↔
      stackWords stack = stackWords stack' := by
  constructor
  · intro h
    rw [← stackWords_normalize stack, h, stackWords_normalize]
  · intro h
    rw [normalizeStackForFingerprint_eq, h, ← normalizeStackForFingerprint_eq]

/-- **Crashes are grouped by type and normalised stack**, where normalising forgets what
separates the names of a stack and the case of their letters. -/
theorem crashes_grouped_by_type_and_stack (hsha : Set.InjOn sha256Hex A) :
    (∀ stack, normalizeStackForFingerprint (normalizeStackForFingerprint stack)
      = normalizeStackForFingerprint stack) ∧
    (∀ stack, ∃ names : List Bytes, normalizeStackForFingerprint stack = [space].intercalate names ∧
      ∀ name ∈ names, name ≠ [] ∧ ∀ c ∈ name, isNameCharacter c = true) ∧
    (∀ front run run' back : Bytes, run ≠ [] → run' ≠ [] →
      (∀ c ∈ run, isNameCharacter c = false) → (∀ c ∈ run', isNameCharacter c = false) →
      normalizeStackForFingerprint (front ++ run ++ back)
        = normalizeStackForFingerprint (front ++ run' ++ back)) ∧
    (∀ stack stack' : Bytes, stack.map toLower = stack'.map toLower →
      normalizeStackForFingerprint stack = normalizeStackForFingerprint stack') ∧
    ∀ report report' : NewCrashReport, fingerprintText report ∈ A → fingerprintText report' ∈ A →
      (crashFingerprint sha256Hex report = crashFingerprint sha256Hex report' ↔
        trim report.exceptionType = trim report'.exceptionType ∧
          normalizeStackForFingerprint report.stackTrace
            = normalizeStackForFingerprint report'.stackTrace) := by
  refine ⟨fun stack => ?_, fun stack => ?_, fun front run run' back hne hne' hrun hrun' => ?_,
    fun stack stack' h => ?_, fun report report' h h' => crashFingerprint_eq_iff hsha h h'⟩
  · exact normalize_eq_iff.mpr (stackWords_normalize stack)
  · exact ⟨stackWords stack, normalizeStackForFingerprint_eq stack, fun name hname =>
      ⟨(mem_stackWords hname).1, fun c hc => ((mem_stackWords hname).2 c hc).1⟩⟩
  · rw [normalize_eq_iff, stackWords_separated hne hrun, stackWords_separated hne' hrun']
  · rw [normalize_eq_iff, ← stackWords_toLower stack, h, stackWords_toLower]

end Grouping

/-! ## Two reports of one bug -/

namespace CrashReport.Demo

def report (stackTrace : Bytes) : NewCrashReport where
  kind := ascii "unhandled"
  occurredAt := ascii "2026-08-05T12:00:00Z"
  launcherVersion := ascii "1.2.0"
  platform := ascii "linux"
  exceptionType := ascii "System.IO.IOException"
  message := ascii "could not open a.pak"
  stackTrace := stackTrace

/-- The same crash before and after a rebuild moved an address. -/
def old : NewCrashReport := report (ascii "at Game.Load() 0x1a")
def new : NewCrashReport := report (ascii "at Game.Load() 0x12")

/-- SHA-256, on the two texts that are hashed here. -/
def sha256Hex (text : Bytes) : Bytes :=
  if text = ascii "System.IO.IOException\nat game.load x a" then
    ascii "4b2ceca6e27ca8059a546ae8c8f276f8872957709beadede35d45a03a2797aff"
  else if text = ascii "System.IO.IOException\nat game.load x" then
    ascii "815029ee72dd0cd5705dcb20325f0b3300354427d41d501fce0ec6b070d6bfae"
  else []

def hashed : Set Bytes :=
  {ascii "System.IO.IOException\nat game.load x a", ascii "System.IO.IOException\nat game.load x"}

theorem injOn_hashed : Set.InjOn sha256Hex hashed := by
  rintro x (rfl | rfl) y (rfl | rfl) h
  · rfl
  · exact absurd h (by decide +kernel)
  · exact absurd h (by decide +kernel)
  · rfl

end CrashReport.Demo

open CrashReport (Demo.old Demo.new Demo.sha256Hex Demo.injOn_hashed)

theorem crashes_grouped_by_address :
    crashFingerprint Demo.sha256Hex Demo.old = crashFingerprint Demo.sha256Hex Demo.new ↔
      trim Demo.old.exceptionType = trim Demo.new.exceptionType ∧
        normalizeStackForFingerprint Demo.old.stackTrace
          = normalizeStackForFingerprint Demo.new.stackTrace :=
  (crashes_grouped_by_type_and_stack Demo.injOn_hashed).2.2.2.2 _ _ (.inl (by decide +kernel))
    (.inr (by decide +kernel))

/-! ## Rebuilds -/

namespace CrashReport

/-- A decimal number. -/
structure Number where
  digits : Bytes
  nonempty : digits ≠ []
  isDigit : ∀ c ∈ digits, isDigit c = true

/-- A hexadecimal literal: `0x[0-9a-fA-F]+`. -/
structure HexLiteral where
  digits : Bytes
  nonempty : digits ≠ []
  isHexDigit : ∀ c ∈ digits, isHexDigit c = true

def HexLiteral.text (literal : HexLiteral) : Bytes := 0x30 :: 0x78 :: literal.digits

/-- A part of a stack trace that a rebuild leaves alone, or replaces. -/
inductive Piece
  | text (bytes : Bytes)
  | number (old new : Number)
  | address (old new : HexLiteral)

def Piece.before : Piece → Bytes
  | .text bytes => bytes
  | .number old _ => old.digits
  | .address old _ => old.text

def Piece.after : Piece → Bytes
  | .text bytes => bytes
  | .number _ new => new.digits
  | .address _ new => new.text

/-- The stack trace of the first build. -/
def before (pieces : List Piece) : Bytes := pieces.flatMap Piece.before

/-- The stack trace of the second build. -/
def after (pieces : List Piece) : Bytes := pieces.flatMap Piece.after

/-- The groups of letters of a literal, the `x` included. -/
def HexLiteral.letterGroups (literal : HexLiteral) : List Bytes :=
  stackWords (0x78 :: literal.digits)

def HexLiteral.endsInDigit (literal : HexLiteral) : Bool := literal.digits.getLast?.any isDigit

/-- A name begins at once. -/
def nameFollows (rest : Bytes) : Bool := rest.head?.any isNameCharacter

/-- Every literal keeps its groups of letters, and one that a name follows at once ends in a
digit again if it did. -/
def LettersStay : List Piece → Prop
  | [] => True
  | .address old new :: rest =>
      (old.letterGroups = new.letterGroups ∧
        (nameFollows (before rest) = true → old.endsInDigit = new.endsInDigit)) ∧
      LettersStay rest
  | .text _ :: rest => LettersStay rest
  | .number _ _ :: rest => LettersStay rest

section Rebuild

/-- What is written of a stack, from a state of the loop. -/
def written (state : Bool × Bool) (stack : Bytes) : Bytes :=
  held isNameCharacter toLower space state stack

theorem normalize_eq_written (stack : Bytes) :
    normalizeStackForFingerprint stack = written (false, false) stack := by
  rw [normalizeStackForFingerprint_eq]
  exact ((held_eq stack).1 false).symm

theorem before_cons (piece : Piece) (rest : List Piece) :
    before (piece :: rest) = piece.before ++ before rest := List.flatMap_cons

theorem after_cons (piece : Piece) (rest : List Piece) :
    after (piece :: rest) = piece.after ++ after rest := List.flatMap_cons

theorem isNameCharacter_of_isDigit {c : UInt8} (h : isDigit c = true) :
    isNameCharacter c = false := by
  rw [← Bool.not_eq_true]
  simp only [isDigit, isNameCharacter, isAlpha, Bool.or_eq_true, Bool.and_eq_true,
    decide_eq_true_eq, beq_iff_eq, UInt8.le_iff_toNat_le, ← UInt8.toNat_inj] at h ⊢
  simp only [UInt8.reduceToNat] at h ⊢
  omega

theorem written_number (number : Number) (state : Bool × Bool) (rest : Bytes) :
    written state (number.digits ++ rest) = written (state.1, true) rest :=
  held_seps number.nonempty (fun c hc => isNameCharacter_of_isDigit (number.isDigit c hc)) state
    rest

/-- A hexadecimal digit is a letter of a name or a decimal digit. -/
theorem not_isNameCharacter_of_isHexDigit {c : UInt8} (h : isHexDigit c = true) :
    (!isNameCharacter c) = isDigit c := by
  rw [Bool.eq_iff_iff, Bool.not_eq_true', ← Bool.not_eq_true]
  simp only [isHexDigit, isDigit, isNameCharacter, isAlpha, Bool.or_eq_true, Bool.and_eq_true,
    decide_eq_true_eq, beq_iff_eq, UInt8.le_iff_toNat_le, ← UInt8.toNat_inj] at h ⊢
  simp only [UInt8.reduceToNat] at h ⊢
  omega

/-- The zero separates, the `x` begins a word, and the digits go on with it. -/
theorem written_literal (literal : HexLiteral) (state : Bool × Bool) (rest : Bytes) :
    written state (literal.text ++ rest) = (if state.1 then [space] else []) ++ 0x78 ::
      (written (true, false) literal.digits ++ written (true, literal.endsInDigit) rest) := by
  have hx : ∀ started t, written (started, true) (0x78 :: t)
      = (if started then [space] else []) ++ 0x78 :: written (true, false) t := by
    intro started t
    cases started <;> rfl
  have hstate : literal.digits.foldl (advance isNameCharacter) (true, false)
      = (true, literal.endsInDigit) := by
    obtain ⟨front, c, hdigits⟩ : ∃ front c, literal.digits = front ++ [c] :=
      ⟨_, _, (List.dropLast_append_getLast literal.nonempty).symm⟩
    have hc := literal.isHexDigit c (by simp [hdigits])
    rw [HexLiteral.endsInDigit, hdigits, foldl_advance _ rfl, List.getLast?_concat,
      Option.any_some, not_isNameCharacter_of_isHexDigit hc]
  calc written state (literal.text ++ rest)
      = written (state.1, true) (0x78 :: (literal.digits ++ rest)) :=
        held_seps (List.cons_ne_nil 0x30 [])
          (fun c hc => by rw [List.mem_singleton.mp hc]; decide) state _
    _ = (if state.1 then [space] else []) ++ 0x78 ::
          written (true, false) (literal.digits ++ rest) := hx state.1 _
    _ = (if state.1 then [space] else []) ++ 0x78 ::
          (written (true, false) literal.digits ++ written (true, literal.endsInDigit) rest) := by
        rw [written, held_append, hstate]
        rfl

/-- What a literal writes after its `x` are its groups of letters. -/
theorem written_digits_eq_iff (literal literal' : HexLiteral) :
    written (true, false) literal.digits = written (true, false) literal'.digits ↔
      literal.letterGroups = literal'.letterGroups := by
  have hx : ∀ digits : Bytes, normalizeStackForFingerprint (0x78 :: digits)
      = 0x78 :: written (true, false) digits := by
    intro digits
    rw [normalize_eq_written]
    rfl
  rw [HexLiteral.letterGroups, HexLiteral.letterGroups, ← normalize_eq_iff, hx, hx,
    List.cons.injEq]
  exact ⟨fun h => ⟨rfl, h⟩, fun h => h.2⟩

/-! ### From left to right -/

/-- What a literal can write after its `x`. -/
def isLiteralOutput (c : UInt8) : Bool := c == space || (0x61 ≤ c && c ≤ 0x66)

theorem written_digits_literal (literal : HexLiteral) :
    ∀ c ∈ written (true, false) literal.digits, isLiteralOutput c = true := by
  intro c hc
  rcases mem_held hc with rfl | ⟨d, hd, hname, rfl⟩
  · rfl
  · have hhex := literal.isHexDigit d hd
    simp only [isHexDigit, isNameCharacter, isAlpha, toLower, isLiteralOutput, Bool.or_eq_true,
      Bool.and_eq_true, decide_eq_true_eq, beq_iff_eq, UInt8.le_iff_toNat_le,
      ← UInt8.toNat_inj] at hhex hname ⊢
    split_ifs with hupper
    · simp [UInt8.toNat_add] at hhex hname hupper ⊢
      omega
    · simp at hhex hname hupper ⊢
      omega

/-- Two literals write the same and leave the same behind, if a space behind each tells whether
the next word is a new one. -/
theorem written_digits_space {literal literal' : HexLiteral} {pending pending' : Bool}
    (h : written (true, false) literal.digits ++ (if pending then [space] else [])
      = written (true, false) literal'.digits ++ (if pending' then [space] else [])) :
    written (true, false) literal.digits = written (true, false) literal'.digits ∧
      pending = pending' := by
  have hlast : ∀ l : HexLiteral, (written (true, false) l.digits).getLast? ≠ some space :=
    fun l => held_getLast? (fun c hc => toLower_ne_space hc) _ _
  have hend : ∀ (l : HexLiteral) (y : Bytes),
      written (true, false) l.digits ≠ y ++ [space] := by
    intro l y heq
    have hspace := hlast l
    rw [heq, List.getLast?_concat] at hspace
    exact hspace rfl
  cases pending with
  | false =>
      cases pending' with
      | false => exact ⟨by simpa using h, rfl⟩
      | true => exact absurd (by simpa using h) (hend literal _)
  | true =>
      cases pending' with
      | false => exact absurd (by simpa using h.symm) (hend literal' _)
      | true => exact ⟨List.append_cancel_right h, rfl⟩

/-- Both builds go on with a name, or neither does. -/
theorem nameFollows_before_eq (pieces : List Piece) :
    nameFollows (before pieces) = nameFollows (after pieces) := by
  have hnumber : ∀ (number : Number) rest, nameFollows (number.digits ++ rest) = false := by
    intro number rest
    obtain ⟨c, digits, hdigits⟩ := List.exists_cons_of_ne_nil number.nonempty
    rw [hdigits]
    exact isNameCharacter_of_isDigit (number.isDigit c (by simp [hdigits]))
  induction pieces with
  | nil => rfl
  | cons piece pieces ih =>
      rw [before_cons, after_cons]
      cases piece with
      | text bytes =>
          cases bytes with
          | nil => exact ih
          | cons c bytes => rfl
      | number old new => exact (hnumber old _).trans (hnumber new _).symm
      | address old new => rfl

/-- Up to the next literal both builds write the same. -/
theorem takeWhile_written (pieces : List Piece) (state : Bool × Bool) :
    (written state (before pieces)).takeWhile isLiteralOutput
      = (written state (after pieces)).takeWhile isLiteralOutput := by
  induction pieces generalizing state with
  | nil => rfl
  | cons piece pieces ih =>
      rw [before_cons, after_cons]
      cases piece with
      | text bytes =>
          have hrest := ih (bytes.foldl (advance isNameCharacter) state)
          rw [written, written] at hrest
          rw [Piece.before, Piece.after, written, written, held_append, held_append,
            List.takeWhile_append, List.takeWhile_append, hrest]
      | number old new =>
          rw [Piece.before, Piece.after, written_number, written_number]
          exact ih _
      | address old new =>
          have hcut : ∀ rest : Bytes, ((if state.1 then [space] else []) ++ 0x78 ::
              rest).takeWhile isLiteralOutput = if state.1 then [space] else [] := by
            intro rest
            cases state.1 <;> rfl
          rw [Piece.before, Piece.after, written_literal, written_literal, hcut, hcut]

/-- In front of a separator, or at the end, it makes no difference whether one is held back. -/
theorem written_of_not_nameFollows {stack : Bytes} (h : nameFollows stack = false)
    (pending : Bool) : written (true, pending) stack = written (true, true) stack := by
  rw [written, held_pending, ← nameFollows, h]
  rfl

theorem written_of_nameFollows {stack : Bytes} (h : nameFollows stack = true) (pending : Bool) :
    written (true, pending) stack
      = (if pending then [space] else []) ++ written (true, false) stack := by
  rw [written, held_pending, ← nameFollows, h]
  rfl

theorem takeWhile_written_digits (literal : HexLiteral) (rest : Bytes) :
    (written (true, false) literal.digits ++ rest).takeWhile isLiteralOutput
      = written (true, false) literal.digits ++ rest.takeWhile isLiteralOutput :=
  List.takeWhile_append_of_pos (written_digits_literal literal)

section Address

variable {old new : HexLiteral} {pieces : List Piece}

/-- A literal with a separator behind it. -/
theorem written_address_apart (hname : nameFollows (before pieces) = false) :
    written (true, false) old.digits ++ written (true, old.endsInDigit) (before pieces)
        = written (true, false) new.digits ++ written (true, new.endsInDigit) (after pieces) ↔
      written (true, false) old.digits = written (true, false) new.digits ∧
        written (true, true) (before pieces) = written (true, true) (after pieces) := by
  rw [written_of_not_nameFollows hname,
    written_of_not_nameFollows ((nameFollows_before_eq pieces).symm.trans hname)]
  constructor
  · intro h
    -- the literals end where the rest begins, and the rests begin alike
    have hfront := congrArg (List.takeWhile isLiteralOutput) h
    rw [takeWhile_written_digits, takeWhile_written_digits, takeWhile_written,
      List.append_cancel_right_eq] at hfront
    rw [hfront, List.append_cancel_left_eq] at h
    exact ⟨hfront, h⟩
  · rintro ⟨hfront, hrest⟩
    rw [hfront, hrest]

/-- A literal that a name follows at once. -/
theorem written_address_joined (hname : nameFollows (before pieces) = true) :
    written (true, false) old.digits ++ written (true, old.endsInDigit) (before pieces)
        = written (true, false) new.digits ++ written (true, new.endsInDigit) (after pieces) ↔
      (written (true, false) old.digits = written (true, false) new.digits ∧
        old.endsInDigit = new.endsInDigit) ∧
      written (true, false) (before pieces) = written (true, false) (after pieces) := by
  have hspace : ∀ (pending : Bool) (rest : Bytes), ((if pending then [space] else []) ++
      rest).takeWhile isLiteralOutput
        = (if pending then [space] else []) ++ rest.takeWhile isLiteralOutput := by
    intro pending rest
    cases pending <;> rfl
  rw [written_of_nameFollows hname,
    written_of_nameFollows ((nameFollows_before_eq pieces).symm.trans hname)]
  constructor
  · intro h
    have hfront := congrArg (List.takeWhile isLiteralOutput) h
    rw [takeWhile_written_digits, takeWhile_written_digits, hspace, hspace, takeWhile_written,
      ← List.append_assoc, ← List.append_assoc, List.append_cancel_right_eq] at hfront
    -- the space between the literal and the name tells how the literal ended
    obtain ⟨hdigits, hlast⟩ := written_digits_space hfront
    rw [hdigits, hlast, List.append_cancel_left_eq, List.append_cancel_left_eq] at h
    exact ⟨⟨hdigits, hlast⟩, h⟩
  · rintro ⟨⟨hdigits, hlast⟩, hrest⟩
    rw [hdigits, hlast, hrest]

/-- One literal, in front of what the builds have in common. -/
theorem written_address_iff (ih : ∀ state,
      written state (before pieces) = written state (after pieces) ↔ LettersStay pieces) :
    written (true, false) old.digits ++ written (true, old.endsInDigit) (before pieces)
        = written (true, false) new.digits ++ written (true, new.endsInDigit) (after pieces) ↔
      (old.letterGroups = new.letterGroups ∧
        (nameFollows (before pieces) = true → old.endsInDigit = new.endsInDigit)) ∧
      LettersStay pieces := by
  rw [← written_digits_eq_iff]
  cases hname : nameFollows (before pieces) with
  | false =>
      rw [written_address_apart hname, ih]
      simp
  | true =>
      rw [written_address_joined hname, ih]
      simp

end Address

theorem written_eq_iff (pieces : List Piece) (state : Bool × Bool) :
    written state (before pieces) = written state (after pieces) ↔ LettersStay pieces := by
  induction pieces generalizing state with
  | nil => exact iff_of_true rfl trivial
  | cons piece pieces ih =>
      rw [before_cons, after_cons]
      cases piece with
      | text bytes =>
          rw [Piece.before, Piece.after, written, written, held_append, held_append,
            List.append_cancel_left_eq]
          exact ih _
      | number old new =>
          rw [Piece.before, Piece.after, written_number, written_number]
          exact ih _
      | address old new =>
          rw [Piece.before, Piece.after, written_literal, written_literal,
            List.append_cancel_left_eq, List.cons.injEq, eq_self, true_and]
          exact written_address_iff ih

end Rebuild

/-- **A rebuild is the same bug exactly if the letters of its addresses stay.** -/
theorem fingerprint_eq_iff {sha256Hex : Bytes → Bytes} {A : Set Bytes}
    (hsha : Set.InjOn sha256Hex A) {report : NewCrashReport} {pieces : List Piece}
    (hstack : report.stackTrace = before pieces) (h : fingerprintText report ∈ A)
    (h' : fingerprintText { report with stackTrace := after pieces } ∈ A) :
    crashFingerprint sha256Hex { report with stackTrace := after pieces }
      = crashFingerprint sha256Hex report ↔ LettersStay pieces := by
  rw [crashFingerprint_eq_iff hsha h' h, hstack, normalize_eq_written, normalize_eq_written,
    ← written_eq_iff pieces (false, false)]
  exact ⟨fun heq => heq.2.symm, fun heq => ⟨rfl, heq.symm⟩⟩

/-! ### A literal that loses its letters -/

/-- A line number moves, and with it an address. -/
def rebuilt : List Piece :=
  [.text (ascii "at Game.Load() "), .number ⟨ascii "42", by decide, by decide +kernel⟩
      ⟨ascii "117", by decide, by decide +kernel⟩,
    .text (ascii " "),
    .address ⟨ascii "1a", by decide, by decide +kernel⟩ ⟨ascii "2a", by decide, by decide +kernel⟩]

theorem fingerprint_eq_iff_rebuilt :
    crashFingerprint Demo.sha256Hex
        { Demo.report (before rebuilt) with stackTrace := after rebuilt }
      = crashFingerprint Demo.sha256Hex (Demo.report (before rebuilt)) ↔ LettersStay rebuilt :=
  fingerprint_eq_iff Demo.injOn_hashed rfl (.inl (by decide +kernel)) (.inl (by decide +kernel))

/-- The address alone: `0x1a` before, `0x12` after. -/
def moved : List Piece :=
  [.text (ascii "at Game.Load() "),
    .address ⟨ascii "1a", by decide, by decide +kernel⟩ ⟨ascii "12", by decide, by decide +kernel⟩]

theorem fingerprint_of_moved_address :
    before moved = ascii "at Game.Load() 0x1a" ∧
    after moved = ascii "at Game.Load() 0x12" ∧
    crashFingerprint Demo.sha256Hex (Demo.report (ascii "at Game.Load() 0x12"))
      ≠ crashFingerprint Demo.sha256Hex (Demo.report (ascii "at Game.Load() 0x1a")) :=
  ⟨by decide +kernel, by decide +kernel, by decide +kernel⟩

end CrashReport

end Launcher
