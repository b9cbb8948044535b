import Mathlib.Tactic

set_option autoImplicit false

/-! # UTF-8

A byte string is read one byte at a time. Between two bytes it is known how many continuation
bytes the current character still owes, and in which range the next one has to be (`Owed`): the
narrower ranges after some lead bytes are what excludes overlong forms, surrogates and code
points past U+10FFFF. A string is `valid` when every byte is accepted and the last character is
complete.

`replaceMalformed` is what a lenient writer makes of a byte string: complete characters are
kept, and each malformed sequence becomes U+FFFD. Its result is always valid, and it changes
nothing that was valid. -/

namespace Launcher.Lib.Utf8

/-- Continuation bytes owed, and the range of the next of them. -/
structure Owed where
  count : Nat
  low : UInt8
  high : UInt8
  deriving DecidableEq, Repr

/-- `n` continuation bytes without a special range; with `n = 0`, between two characters. -/
def owes (n : Nat) : Owed := ⟨n, 0x80, 0xbf⟩

/-- What the first byte of a character leaves owed. -/
def lead (c : UInt8) : Option Owed :=
  if c < 0x80 then some (owes 0)
  else if 0xc2 ≤ c ∧ c ≤ 0xdf then some (owes 1)
  else if c = 0xe0 then some ⟨2, 0xa0, 0xbf⟩
  else if c = 0xed then some ⟨2, 0x80, 0x9f⟩
  else if 0xe1 ≤ c ∧ c ≤ 0xef then some (owes 2)
  else if c = 0xf0 then some ⟨3, 0x90, 0xbf⟩
  else if 0xf1 ≤ c ∧ c ≤ 0xf3 then some (owes 3)
  else if c = 0xf4 then some ⟨3, 0x80, 0x8f⟩
  else none

def accept : Owed → UInt8 → Option Owed
  | ⟨0, _, _⟩, c => lead c
  | ⟨n + 1, low, high⟩, c => if low ≤ c ∧ c ≤ high then some (owes n) else none

def scan (o : Owed) (text : List UInt8) : Option Owed := text.foldlM accept o

def valid (text : List UInt8) : Bool := scan (owes 0) text == some (owes 0)

/-! ## Scanning -/

theorem scan_cons (o : Owed) (c : UInt8) (rest : List UInt8) :
    scan o (c :: rest) = (accept o c).bind (fun o' => scan o' rest) := rfl

theorem scan_append (o : Owed) (x y : List UInt8) :
    scan o (x ++ y) = (scan o x).bind (fun o' => scan o' y) := List.foldlM_append

theorem valid_iff {text : List UInt8} : valid text = true ↔ scan (owes 0) text = some (owes 0) :=
  beq_iff_eq

theorem valid_append {x y : List UInt8} (hx : valid x = true) (hy : valid y = true) :
    valid (x ++ y) = true := by
  rw [valid_iff] at hx hy ⊢
  rw [scan_append, hx, Option.bind_some, hy]

/-- A character that owes nothing is complete. -/
theorem accept_complete {o o' : Owed} {c : UInt8} (h : accept o c = some o')
    (h0 : o'.count = 0) : o' = owes 0 := by
  obtain ⟨count, low, high⟩ := o
  cases count with
  | zero =>
      simp only [accept, lead] at h
      split_ifs at h <;> cases h <;> first | rfl | cases h0
  | succ n =>
      simp only [accept] at h
      split_ifs at h
      cases h
      rw [show n = 0 from h0]

/-! ## Replacing what is malformed -/

/-- U+FFFD. -/
def replacement : List UInt8 := [0xef, 0xbf, 0xbd]

/-- Read on with the bytes `pending` of a character that still owes `o`. A byte that does not
continue the character ends it as malformed and is read again as a first byte. -/
def replaceFrom (o : Owed) (pending : List UInt8) : List UInt8 → List UInt8
  | [] => if pending.isEmpty then [] else replacement
  | c :: rest =>
      match accept o c with
      | some o' =>
          if o'.count = 0 then pending ++ c :: replaceFrom (owes 0) [] rest
          else replaceFrom o' (pending ++ [c]) rest
      | none =>
          (if pending.isEmpty then [] else replacement) ++
            match lead c with
            | some o' =>
                if o'.count = 0 then c :: replaceFrom (owes 0) [] rest
                else replaceFrom o' [c] rest
            | none => replacement ++ replaceFrom (owes 0) [] rest

def replaceMalformed (text : List UInt8) : List UInt8 := replaceFrom (owes 0) [] text

theorem valid_pending (pending : List UInt8) :
    valid (if pending.isEmpty then [] else replacement) = true := by
  split <;> decide

theorem valid_replaceFrom (text : List UInt8) :
    ∀ (o : Owed) (pending : List UInt8), scan (owes 0) pending = some o →
      valid (replaceFrom o pending text) = true := by
  induction text with
  | nil => exact fun o pending _ => valid_pending pending
  | cons c rest ih =>
      intro o pending hp
      -- a complete character followed by the rest, and a character that goes on
      have hdone : ∀ {o' : Owed} {x : List UInt8}, scan (owes 0) x = some o' → o' = owes 0 →
          valid (x ++ replaceFrom (owes 0) [] rest) = true := by
        intro o' x hx he
        refine valid_append (valid_iff.mpr ?_) (ih (owes 0) [] rfl)
        rw [hx, he]
      rw [replaceFrom]
      cases ha : accept o c with
      | some o' =>
          have hscan : scan (owes 0) (pending ++ [c]) = some o' := by
            rw [scan_append, hp, Option.bind_some, scan_cons, ha]
            rfl
          by_cases h0 : o'.count = 0
          · simp only [h0, if_true]
            have hv := hdone hscan (accept_complete ha h0)
            rw [List.append_assoc] at hv
            exact hv
          · simp only [h0, if_false]
            exact ih o' (pending ++ [c]) hscan
      | none =>
          refine valid_append (valid_pending pending) ?_
          cases hl : lead c with
          | none => exact valid_append (by decide) (ih (owes 0) [] rfl)
          | some o' =>
              have hacc : accept (owes 0) c = some o' := hl
              have hscan : scan (owes 0) [c] = some o' := by
                rw [scan_cons, hacc]
                rfl
              by_cases h0 : o'.count = 0
              · simp only [h0, if_true]
                exact hdone hscan (accept_complete hacc h0)
              · simp only [h0, if_false]
                exact ih o' [c] hscan

/-- The result is valid UTF-8, whatever the input. -/
theorem valid_replaceMalformed (text : List UInt8) : valid (replaceMalformed text) = true :=
  valid_replaceFrom text (owes 0) [] rfl

theorem replaceFrom_of_scan (text : List UInt8) :
    ∀ (o : Owed) (pending : List UInt8), scan o text = some (owes 0) →
      (o.count = 0 → pending = []) → replaceFrom o pending text = pending ++ text := by
  induction text with
  | nil =>
      intro o pending hs hp
      have ho : o = owes 0 := Option.some.inj hs
      rw [hp (by rw [ho]; rfl)]
      rfl
  | cons c rest ih =>
      intro o pending hs hp
      rw [scan_cons] at hs
      rw [replaceFrom]
      cases ha : accept o c with
      | none => rw [ha] at hs; cases hs
      | some o' =>
          rw [ha, Option.bind_some] at hs
          by_cases h0 : o'.count = 0
          · simp only [h0, if_true]
            rw [accept_complete ha h0] at hs
            rw [ih (owes 0) [] hs (fun _ => rfl), List.nil_append]
          · simp only [h0, if_false]
            rw [ih o' (pending ++ [c]) hs (fun h => absurd h h0), List.append_assoc]
            rfl

/-- Valid UTF-8 is written as it is. -/
theorem replaceMalformed_of_valid {text : List UInt8} (h : valid text = true) :
    replaceMalformed text = text :=
  replaceFrom_of_scan text (owes 0) [] (valid_iff.mp h) (fun _ => rfl)

/-! ## Characters -/

def isContinuation (c : UInt8) : Bool := 0x80 ≤ c && c ≤ 0xbf

/-- The number of characters of a valid text: each has one byte that continues no other. -/
def charLength (text : List UInt8) : Nat := text.countP (fun c => !isContinuation c)

/-- A valid text is one character, and this has several bytes. -/
def oneWideCharacter : List UInt8 → Bool
  | c :: d :: rest => (lead c).any (fun o => o.count == (d :: rest).length)
  | _ => false

/-- What can be owed: continuation bytes, and nothing between two characters. -/
structure Owed.Reached (o : Owed) : Prop where
  complete : o.count = 0 → o = owes 0
  low : 0x80 ≤ o.low
  high : o.high ≤ 0xbf

theorem reached_owes (n : Nat) : (owes n).Reached :=
  ⟨fun h => by rw [show n = 0 from h], UInt8.le_refl _, UInt8.le_refl _⟩

theorem lead_reached {c : UInt8} {o : Owed} (h : lead c = some o) :
    o.Reached ∧ isContinuation c = false := by
  have hfirst : isContinuation c = false := by
    cases hcont : isContinuation c with
    | false => rfl
    | true =>
        simp only [isContinuation, Bool.and_eq_true, decide_eq_true_eq] at hcont
        rw [lead] at h
        grind
  refine ⟨?_, hfirst⟩
  have hspecial : ∀ n (low high : UInt8), 0x80 ≤ low → high ≤ 0xbf →
      (⟨n + 1, low, high⟩ : Owed).Reached :=
    fun n low high hlow hhigh => ⟨fun h0 => absurd h0 (Nat.succ_ne_zero n), hlow, hhigh⟩
  rw [lead] at h
  split_ifs at h <;> cases h
  · exact reached_owes 0
  · exact reached_owes 1
  · exact hspecial 1 0xa0 0xbf (by decide) (by decide)
  · exact hspecial 1 0x80 0x9f (by decide) (by decide)
  · exact reached_owes 2
  · exact hspecial 2 0x90 0xbf (by decide) (by decide)
  · exact reached_owes 3
  · exact hspecial 2 0x80 0x8f (by decide) (by decide)

theorem accept_reached {o o' : Owed} {c : UInt8} (h : accept o c = some o') : o'.Reached := by
  obtain ⟨count, low, high⟩ := o
  cases count with
  | zero => exact (lead_reached h).1
  | succ n =>
      rw [accept] at h
      split_ifs at h
      cases h
      exact reached_owes n

theorem scan_reached {o o' : Owed} {text : List UInt8} (ho : o.Reached)
    (h : scan o text = some o') : o'.Reached := by
  induction text generalizing o with
  | nil => exact Option.some.inj h ▸ ho
  | cons c rest ih =>
      rw [scan_cons, Option.bind_eq_some_iff] at h
      obtain ⟨o'', haccept, hrest⟩ := h
      exact ih (accept_reached haccept) hrest

/-- Whether a byte continues a character is known from what is owed. -/
theorem accept_continuation {o o' : Owed} {c : UInt8} (ho : o.Reached)
    (h : accept o c = some o') :
    (o.count = 0 ∧ isContinuation c = false) ∨
      (o.count = o'.count + 1 ∧ isContinuation c = true) := by
  obtain ⟨count, low, high⟩ := o
  cases count with
  | zero => exact .inl ⟨rfl, (lead_reached h).2⟩
  | succ n =>
      rw [accept] at h
      split_ifs at h with hrange
      cases h
      refine .inr ⟨rfl, ?_⟩
      rw [isContinuation, Bool.and_eq_true, decide_eq_true_eq, decide_eq_true_eq]
      exact ⟨UInt8.le_trans ho.low hrange.1, UInt8.le_trans hrange.2 ho.high⟩

/-- No character begins in what completes the current one, and one does in everything longer. -/
theorem charLength_eq_zero_iff {o : Owed} {text : List UInt8} (ho : o.Reached)
    (h : scan o text = some (owes 0)) : charLength text = 0 ↔ text.length = o.count := by
  induction text generalizing o with
  | nil =>
      rw [show o = owes 0 from Option.some.inj h]
      exact iff_of_true rfl rfl
  | cons c rest ih =>
      rw [scan_cons, Option.bind_eq_some_iff] at h
      obtain ⟨o', haccept, hrest⟩ := h
      have hnext := ih (accept_reached haccept) hrest
      rw [charLength, List.countP_cons, ← charLength, List.length_cons]
      rcases accept_continuation ho haccept with ⟨hcount, hc⟩ | ⟨hcount, hc⟩
      · simp only [hc, Bool.not_false, if_true]
        omega
      · simp only [hc, Bool.not_true, Bool.false_eq_true, if_false]
        omega

/-- A valid text begins with a character. -/
theorem charLength_cons {c : UInt8} {rest : List UInt8} (h : valid (c :: rest) = true) :
    charLength (c :: rest) = charLength rest + 1 ∧
      ∃ o, lead c = some o ∧ (charLength rest = 0 ↔ rest.length = o.count) := by
  rw [valid_iff, scan_cons, Option.bind_eq_some_iff] at h
  obtain ⟨o, hlead, hrest⟩ := h
  obtain ⟨hreached, hfirst⟩ := lead_reached hlead
  refine ⟨?_, o, hlead, charLength_eq_zero_iff hreached hrest⟩
  rw [charLength, List.countP_cons, hfirst]
  rfl

theorem charLength_le (text : List UInt8) : charLength text ≤ text.length :=
  List.countP_le_length

theorem charLength_pos {text : List UInt8} (h : valid text = true) (hne : text ≠ []) :
    0 < charLength text := by
  cases text with
  | nil => exact absurd rfl hne
  | cons c rest =>
      rw [(charLength_cons h).1]
      omega

/-- Two bytes are two characters, unless they belong to one. -/
theorem two_le_charLength_iff {text : List UInt8} (h : valid text = true) :
    2 ≤ charLength text ↔ 2 ≤ text.length ∧ oneWideCharacter text = false := by
  cases text with
  | nil => exact iff_of_false (by decide) (by simp)
  | cons c rest =>
      obtain ⟨hcount, o, hlead, hrest⟩ := charLength_cons h
      cases rest with
      | nil =>
          rw [hcount]
          exact iff_of_false (by decide) (by simp)
      | cons d rest =>
          have hwide : oneWideCharacter (c :: d :: rest) = false ↔
              (d :: rest).length ≠ o.count := by
            rw [oneWideCharacter, hlead, Option.any_some, beq_eq_false_iff_ne]
            exact ne_comm
          rw [hwide, hcount]
          simp only [List.length_cons] at hrest ⊢
          omega

theorem lead_count {c : UInt8} {o : Owed} (h : lead c = some o) :
    o.count ≤ 3 ∧ (0 < o.count → 0x80 ≤ c) := by
  rw [lead] at h
  by_cases hascii : c < 0x80
  · rw [if_pos hascii] at h
    cases h
    exact ⟨by decide, fun hpos => absurd hpos (by decide)⟩
  · rw [if_neg hascii] at h
    refine ⟨?_, fun _ => UInt8.not_lt.mp hascii⟩
    split_ifs at h <;> cases h <;> decide

/-- Such a character has two to four bytes, none of them in ASCII. -/
theorem bytes_of_oneWideCharacter {text : List UInt8} (h : valid text = true)
    (hwide : oneWideCharacter text = true) :
    2 ≤ text.length ∧ text.length ≤ 4 ∧ ∀ c ∈ text, 0x80 ≤ c := by
  match text, h, hwide with
  | c :: d :: rest, h, hwide =>
      obtain ⟨-, o, hlead, hrest⟩ := charLength_cons h
      rw [oneWideCharacter, hlead, Option.any_some, beq_iff_eq] at hwide
      obtain ⟨hthree, hfirst⟩ := lead_count hlead
      have hnone := hrest.mpr hwide.symm
      rw [charLength, List.countP_eq_zero] at hnone
      simp only [List.length_cons] at hwide ⊢
      refine ⟨by omega, by omega, fun e he => ?_⟩
      rcases List.mem_cons.mp he with rfl | he
      · exact hfirst (by omega)
      · have hcont : isContinuation e = true := by simpa using hnone e he
        rw [isContinuation, Bool.and_eq_true, decide_eq_true_eq] at hcont
        exact hcont.1

/-! ### Characters of one byte -/

theorem scan_ascii {text : List UInt8} (h : ∀ c ∈ text, c < 0x80) :
    scan (owes 0) text = some (owes 0) := by
  induction text with
  | nil => rfl
  | cons c rest ih =>
      have hlead : accept (owes 0) c = some (owes 0) := if_pos (h c List.mem_cons_self)
      rw [scan_cons, hlead, Option.bind_some]
      exact ih (fun d hd => h d (List.mem_cons_of_mem c hd))

theorem valid_ascii_append {x y : List UInt8} (hx : ∀ c ∈ x, c < 0x80) :
    valid (x ++ y) = valid y := by
  rw [valid, valid, scan_append, scan_ascii hx, Option.bind_some]

theorem valid_of_append_ascii {x y : List UInt8} (hy : ∀ c ∈ y, c < 0x80)
    (h : valid (x ++ y) = true) : valid x = true := by
  rw [valid_iff, scan_append, Option.bind_eq_some_iff] at h
  obtain ⟨o, hx, hrest⟩ := h
  have ho := scan_reached (reached_owes 0) hx
  cases y with
  | nil => exact valid_iff.mpr (hx.trans hrest)
  | cons c y =>
      rw [scan_cons, Option.bind_eq_some_iff] at hrest
      obtain ⟨o', haccept, -⟩ := hrest
      have hc : isContinuation c = false := by
        rw [isContinuation, Bool.and_eq_false_iff]
        exact .inl (decide_eq_false (UInt8.not_le.mpr (hy c List.mem_cons_self)))
      rcases accept_continuation ho haccept with ⟨hcount, -⟩ | ⟨-, hcont⟩
      · rw [valid_iff, hx, ho.complete hcount]
      · rw [hc] at hcont
        cases hcont

end Launcher.Lib.Utf8
