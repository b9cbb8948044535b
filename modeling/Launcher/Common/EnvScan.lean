import Launcher.Common.EnvInterpolation

set_option autoImplicit false

/-! # The scan of the configuration, index by index

`scanEnv` is the loop of `interpolateEnv` with its cursor and its two `find`s, and it records the
variables it looks up. What it should do is said without it: an input falls into pieces in one way
(`Split`), and each piece has its value or its fault. `interpolateEnv_one_pass` proves that the
loop does this. -/

namespace Launcher

open Lib

def emptyNameError : Error where
  code := .InvalidInput
  detail := ascii "empty variable name in $\x7b...\x7d placeholder"

def unterminatedError : Error where
  code := .InvalidInput
  detail := ascii "unterminated $\x7b...\x7d placeholder in configuration"

def notSetError (name : Bytes) : Error where
  code := .InvalidInput
  detail := ascii "required environment variable is not set: " ++ name

/-- The loop from `cursor` on; `looked` are the names of the lookups so far. -/
def scanEnv (lookup : EnvLookup) (input : Bytes) (cursor : Nat) (output : Bytes)
    (looked : List Bytes) : Result Bytes × List Bytes :=
  if _hcursor : cursor < input.length then
    match _hstart : find input openMark cursor with
    | none => (.ok (output ++ input.drop cursor), looked)
    | some start =>
        let output := output ++ (input.drop cursor).take (start - cursor)
        match _hend : find input closeMark (start + 2) with
        | none => (.error unterminatedError, looked)
        | some stop =>
            let expression := (input.drop (start + 2)).take (stop - start - 2)
            let separator := find expression separatorMark 0
            let name := (separator.map (fun i => expression.take i)).getD expression
            if name.isEmpty then (.error emptyNameError, looked)
            else
              -- the value, else the default
              match (lookup name).or (separator.map (fun i => expression.drop (i + 2))) with
              | some text =>
                  scanEnv lookup input (stop + 1) (output ++ text) (looked ++ [name])
              | none => (.error (notSetError name), looked ++ [name])
  else (.ok output, looked)
termination_by input.length - cursor
decreasing_by
  have hstart := le_of_find _hstart
  have hend := le_of_find _hend
  omega

/-! ## The pieces of an input -/

/-- Text, and the placeholder behind it. -/
structure Piece where
  before : Bytes
  name : Bytes
  fallback : Option Bytes
  deriving DecidableEq

/-- What is behind the last placeholder. -/
inductive Tail
  | plain (text : Bytes)
  | unterminated
  deriving DecidableEq

/-- The expression is the name and, behind the first separator, the default. -/
def Piece.Reads (p : Piece) (expression : Bytes) : Prop :=
  match p.fallback with
  | none => expression = p.name ∧ ¬ separatorMark <:+: expression
  | some fallback => FirstMark separatorMark expression p.name fallback

/-- The leftmost `$` with a brace begins a placeholder and the first closing brace behind it ends
it; so on with what is left. -/
inductive Split : Bytes → List Piece → Tail → Prop
  | plain {text : Bytes} (h : ¬ openMark <:+: text) : Split text [] (.plain text)
  | unterminated {text before rest : Bytes} (hopen : FirstMark openMark text before rest)
      (hclose : ¬ closeMark <:+: rest) : Split text [] .unterminated
  | placeholder {text rest expression after : Bytes} {p : Piece} {pieces : List Piece} {tail : Tail}
      (hopen : FirstMark openMark text p.before rest)
      (hclose : FirstMark closeMark rest expression after) (hreads : p.Reads expression)
      (hafter : Split after pieces tail) : Split text (p :: pieces) tail

section

variable (lookup : EnvLookup)

/-- What a placeholder without a fault is replaced by. -/
def Piece.value (p : Piece) : Bytes := ((lookup p.name).or p.fallback).getD []

def Piece.fault (p : Piece) : Option Error :=
  if p.name = [] then some emptyNameError
  else if lookup p.name = none ∧ p.fallback = none then some (notSetError p.name)
  else none

def Tail.text : Tail → Bytes
  | .plain text => text
  | .unterminated => []

def Tail.fault : Tail → Option Error
  | .plain _ => none
  | .unterminated => some unterminatedError

/-- One pass over the pieces, in reading order, up to the first fault. -/
structure OnePass (pieces : List Piece) (tail : Tail) (result : Result Bytes)
    (looked : List Bytes) : Prop where
  fails_iff : (∃ e, result = .error e) ↔
    (∃ p ∈ pieces, p.fault lookup ≠ none) ∨ tail.fault ≠ none
  expands : (∀ p ∈ pieces, p.fault lookup = none) → tail.fault = none →
    result = .ok ((pieces.map (fun p => p.before ++ p.value lookup)).flatten ++ tail.text)
  looks : (∀ p ∈ pieces, p.fault lookup = none) → looked = pieces.map Piece.name
  first_fault : ∀ front p back e, pieces = front ++ p :: back →
    (∀ q ∈ front, q.fault lookup = none) → p.fault lookup = some e →
    result = .error e ∧
      looked = front.map Piece.name ++ (if p.name = [] then [] else [p.name])
  last_fault : (∀ p ∈ pieces, p.fault lookup = none) → ∀ e, tail.fault = some e →
    result = .error e

/-- The pass as a function. -/
def evaluate (tail : Tail) : List Piece → Result Bytes × List Bytes
  | [] =>
      (match tail.fault with
        | none => .ok tail.text
        | some e => .error e, [])
  | p :: pieces =>
      let names := if p.name = [] then [] else [p.name]
      match p.fault lookup with
      | some e => (.error e, names)
      | none =>
          let (result, looked) := evaluate tail pieces
          (result.map (fun output => p.before ++ p.value lookup ++ output), names ++ looked)

end

/-! ## One way to split -/

theorem Piece.reads_unique {p q : Piece} {expression : Bytes} (hp : p.Reads expression)
    (hq : q.Reads expression) : p.name = q.name ∧ p.fallback = q.fallback := by
  obtain ⟨before, name, fallback⟩ := p
  obtain ⟨before', name', fallback'⟩ := q
  cases fallback with
  | none =>
      cases fallback' with
      | none => exact ⟨hp.1.symm.trans hq.1, rfl⟩
      | some fallback' => exact absurd ⟨_, _, (FirstMark.split hq).symm⟩ hp.2
  | some fallback =>
      cases fallback' with
      | none => exact absurd ⟨_, _, (FirstMark.split hp).symm⟩ hq.2
      | some fallback' =>
          obtain ⟨hname, hfallback⟩ := FirstMark.unique hp hq
          exact ⟨hname, congrArg some hfallback⟩

theorem Split.unique {text : Bytes} {pieces pieces' : List Piece} {tail tail' : Tail}
    (h : Split text pieces tail) (h' : Split text pieces' tail') :
    pieces = pieces' ∧ tail = tail' := by
  induction h generalizing pieces' tail' with
  | plain hopen =>
      cases h' with
      | plain => exact ⟨rfl, rfl⟩
      | unterminated hopen' => exact absurd ⟨_, _, hopen'.split.symm⟩ hopen
      | placeholder hopen' => exact absurd ⟨_, _, hopen'.split.symm⟩ hopen
  | unterminated hopen hclose =>
      cases h' with
      | plain hopen' => exact absurd ⟨_, _, hopen.split.symm⟩ hopen'
      | unterminated => exact ⟨rfl, rfl⟩
      | placeholder hopen' hclose' =>
          -- the same first mark leaves the same rest, so the closing mark is in both or in neither
          obtain ⟨-, rfl⟩ := hopen.unique hopen'
          exact absurd ⟨_, _, hclose'.split.symm⟩ hclose
  | @placeholder text rest expression after p pieces tail hopen hclose hreads hafter ih =>
      cases h' with
      | plain hopen' => exact absurd ⟨_, _, hopen.split.symm⟩ hopen'
      | unterminated hopen' hclose' =>
          obtain ⟨-, rfl⟩ := hopen.unique hopen'
          exact absurd ⟨_, _, hclose.split.symm⟩ hclose'
      | @placeholder _ _ _ _ q pieces' _ hopen' hclose' hreads' hafter' =>
          -- both marks are the same, so the piece is; the induction has the pieces behind it
          obtain ⟨hbefore, rfl⟩ := hopen.unique hopen'
          obtain ⟨rfl, rfl⟩ := hclose.unique hclose'
          obtain ⟨hname, hfallback⟩ := Piece.reads_unique hreads hreads'
          obtain ⟨rfl, rfl⟩ := ih hafter'
          obtain ⟨before, name, fallback⟩ := p
          obtain ⟨before', name', fallback'⟩ := q
          obtain rfl : before = before' := hbefore
          obtain rfl : name = name' := hname
          obtain rfl : fallback = fallback' := hfallback
          exact ⟨rfl, rfl⟩

/-- The piece that an expression is read as. -/
def pieceOf (before expression : Bytes) : Piece where
  before := before
  name := nameOf expression
  fallback := (cut? separatorMark expression).map Prod.snd

theorem pieceOf_reads (before expression : Bytes) : (pieceOf before expression).Reads expression := by
  unfold pieceOf nameOf Piece.Reads
  cases hcut : cut? separatorMark expression with
  | none => exact ⟨rfl, cut?_eq_none_iff.mp hcut⟩
  | some cut => exact cut?_eq_some_iff.mp hcut

/-- **Every input falls into pieces.** -/
theorem exists_split (input : Bytes) : ∃ pieces tail, Split input pieces tail := by
  induction input using scan_induction with
  | plain input hopen => exact ⟨[], _, .plain (cut?_eq_none_iff.mp hopen)⟩
  | unterminated input before rest hopen hclose =>
      exact ⟨[], _, .unterminated (cut?_eq_some_iff.mp hopen) (cut?_eq_none_iff.mp hclose)⟩
  | placeholder input before rest expression after hopen hclose ih =>
      obtain ⟨pieces, tail, hafter⟩ := ih
      exact ⟨pieceOf before expression :: pieces, tail, .placeholder (cut?_eq_some_iff.mp hopen)
        (cut?_eq_some_iff.mp hclose) (pieceOf_reads before expression) hafter⟩

/-! ## The pass over the pieces -/

section

variable {lookup : EnvLookup} {tail : Tail}

theorem evaluate_fault {p : Piece} {e : Error} (h : p.fault lookup = some e)
    (pieces : List Piece) : evaluate lookup tail (p :: pieces) =
      (.error e, if p.name = [] then [] else [p.name]) := by
  rw [evaluate, h]

theorem name_of_no_fault {p : Piece} (h : p.fault lookup = none) : p.name ≠ [] := by
  intro hname
  rw [Piece.fault, if_pos hname] at h
  cases h

theorem evaluate_next {p : Piece} (h : p.fault lookup = none) (pieces : List Piece) :
    evaluate lookup tail (p :: pieces) =
      ((evaluate lookup tail pieces).1.map (fun output => p.before ++ p.value lookup ++ output),
        p.name :: (evaluate lookup tail pieces).2) := by
  rw [evaluate, h, if_neg (name_of_no_fault h)]
  rfl

theorem map_eq_error_iff {α β : Type} {x : Result α} {f : α → β} {e : Error} :
    x.map f = .error e ↔ x = .error e := by
  cases x <;> simp [Except.map]

/-- Without a fault among the pieces, all is up to the tail. -/
theorem evaluate_clean {pieces : List Piece} (h : ∀ p ∈ pieces, p.fault lookup = none) :
    (evaluate lookup tail pieces).2 = pieces.map Piece.name ∧
      (evaluate lookup tail pieces).1 = (match tail.fault with
        | none => .ok ((pieces.map (fun p => p.before ++ p.value lookup)).flatten ++ tail.text)
        | some e => .error e) := by
  induction pieces with
  | nil =>
      refine ⟨rfl, ?_⟩
      rw [evaluate]
      cases tail.fault <;> rfl
  | cons p pieces ih =>
      obtain ⟨hp, hpieces⟩ := List.forall_mem_cons.mp h
      obtain ⟨hlooked, hresult⟩ := ih hpieces
      rw [evaluate_next hp, hlooked, hresult]
      refine ⟨rfl, ?_⟩
      cases tail.fault with
      | none => simp [Except.map]
      | some e => rfl

/-- The first fault ends the pass. -/
theorem evaluate_first_fault {front back : List Piece} {p : Piece} {e : Error}
    (hfront : ∀ q ∈ front, q.fault lookup = none) (hp : p.fault lookup = some e) :
    evaluate lookup tail (front ++ p :: back) =
      (.error e, front.map Piece.name ++ (if p.name = [] then [] else [p.name])) := by
  induction front with
  | nil => exact evaluate_fault hp back
  | cons q front ih =>
      obtain ⟨hq, hfront⟩ := List.forall_mem_cons.mp hfront
      rw [List.cons_append, evaluate_next hq, ih hfront]
      rfl

/-- A list without faults, or its first one. -/
theorem clean_or_first_fault (pieces : List Piece) :
    (∀ p ∈ pieces, p.fault lookup = none) ∨ ∃ front p back e, pieces = front ++ p :: back ∧
      (∀ q ∈ front, q.fault lookup = none) ∧ p.fault lookup = some e := by
  induction pieces with
  | nil => exact Or.inl (fun p hp => by cases hp)
  | cons p pieces ih =>
      cases hp : p.fault lookup with
      | some e => exact Or.inr ⟨[], p, pieces, e, rfl, fun q hq => (by cases hq), hp⟩
      | none =>
          rcases ih with hclean | ⟨front, q, back, e, rfl, hfront, hq⟩
          · exact Or.inl (List.forall_mem_cons.mpr ⟨hp, hclean⟩)
          · exact Or.inr ⟨p :: front, q, back, e, rfl, List.forall_mem_cons.mpr ⟨hp, hfront⟩, hq⟩

theorem evaluate_onePass (pieces : List Piece) :
    OnePass lookup pieces tail (evaluate lookup tail pieces).1
      (evaluate lookup tail pieces).2 where
  fails_iff := by
    rcases @clean_or_first_fault lookup pieces with
      hclean | ⟨front, p, back, e, rfl, hfront, hp⟩
    · rw [(evaluate_clean hclean).2]
      have hno : ¬ ∃ p ∈ pieces, p.fault lookup ≠ none := fun ⟨p, hmem, hp⟩ => hp (hclean p hmem)
      rw [or_iff_right hno]
      cases tail.fault <;> simp
    · rw [evaluate_first_fault hfront hp]
      have hfault : ∃ q ∈ front ++ p :: back, q.fault lookup ≠ none :=
        ⟨p, by simp, by simp [hp]⟩
      exact ⟨fun _ => Or.inl hfault, fun _ => ⟨e, rfl⟩⟩
  expands := fun hclean htail => by rw [(evaluate_clean hclean).2, htail]
  looks := fun hclean => (evaluate_clean hclean).1
  first_fault := by
    rintro front p back e rfl hfront hp
    rw [evaluate_first_fault hfront hp]
    exact ⟨rfl, rfl⟩
  last_fault := fun hclean e htail => by rw [(evaluate_clean hclean).2, htail]

end

/-! ## The loop -/

section

variable {lookup : EnvLookup} {input output : Bytes} {cursor : Nat} {looked : List Bytes}

/-- The loop sees the input from the cursor on. -/
theorem find_drop {mark before rest : Bytes} (hmark : mark ≠ [])
    (h : FirstMark mark (input.drop cursor) before rest) :
    find input mark cursor = some (cursor + before.length) ∧
      (input.drop cursor).take before.length = before ∧
      input.drop (cursor + before.length + mark.length) = rest := by
  refine ⟨?_, ?_, ?_⟩
  · rw [find_eq input hmark, cut?_eq_some_iff.mpr h]
    rfl
  · rw [h.split, List.append_assoc, List.take_left]
  · rw [Nat.add_assoc, ← List.drop_drop, h.split, ← List.length_append, List.drop_left]

theorem find_drop_none {mark : Bytes} (hmark : mark ≠ []) (h : ¬ mark <:+: input.drop cursor) :
    find input mark cursor = none := by
  rw [find_eq input hmark, cut?_eq_none_iff.mpr h]
  rfl

theorem lt_of_firstMark {mark before rest : Bytes} (hmark : mark ≠ [])
    (h : FirstMark mark (input.drop cursor) before rest) : cursor < input.length := by
  by_contra hlt
  have hempty := h.split
  rw [List.drop_eq_nil_of_le (not_lt.mp hlt), eq_comm, List.append_assoc,
    List.append_eq_nil_iff, List.append_eq_nil_iff] at hempty
  exact hmark hempty.2.1

theorem scanEnv_plain (h : ¬ openMark <:+: input.drop cursor) :
    scanEnv lookup input cursor output looked = (.ok (output ++ input.drop cursor), looked) := by
  rw [scanEnv]
  split
  case isTrue =>
    split
    · rfl
    · next start hstart =>
        rw [find_drop_none (by decide) h] at hstart
        cases hstart
  case isFalse hcursor => rw [List.drop_eq_nil_of_le (not_lt.mp hcursor), List.append_nil]

theorem scanEnv_unterminated {before rest : Bytes}
    (hopen : FirstMark openMark (input.drop cursor) before rest) (hclose : ¬ closeMark <:+: rest) :
    scanEnv lookup input cursor output looked = (.error unterminatedError, looked) := by
  obtain ⟨hfind, -, hrest⟩ := find_drop (by decide) hopen
  rw [scanEnv, dif_pos (lt_of_firstMark (by decide) hopen)]
  split
  · next hstart =>
      rw [hfind] at hstart
      cases hstart
  · next start hstart =>
      rw [hfind] at hstart
      cases hstart
      split
      · rfl
      · next stop hend =>
          rw [← hrest] at hclose
          have hnone := find_drop_none (by decide) hclose
          rw [show openMark.length = 2 from rfl, hend] at hnone
          cases hnone

/-- The name and the default of an expression, as the loop computes them. -/
theorem Piece.Reads.find {p : Piece} {expression : Bytes} (h : p.Reads expression) :
    (((find expression separatorMark 0).map (fun i => expression.take i)).getD expression = p.name) ∧
      (find expression separatorMark 0).map (fun i => expression.drop (i + 2)) = p.fallback := by
  obtain ⟨before, name, fallback⟩ := p
  cases fallback with
  | none =>
      obtain ⟨rfl, hno⟩ := h
      have hnone := @find_drop_none expression 0 separatorMark (by decide) hno
      rw [hnone]
      exact ⟨rfl, rfl⟩
  | some fallback =>
      have hfirst : FirstMark separatorMark (expression.drop 0) name fallback := h
      obtain ⟨hfind, htake, hdrop⟩ := find_drop (by decide) hfirst
      rw [hfind, Option.map_some, Option.map_some, Option.getD_some, Nat.zero_add]
      rw [Nat.zero_add] at hdrop
      exact ⟨htake, congrArg some hdrop⟩

theorem scanEnv_placeholder {p : Piece} {rest expression after : Bytes}
    (hopen : FirstMark openMark (input.drop cursor) p.before rest)
    (hclose : FirstMark closeMark rest expression after) (hreads : p.Reads expression) :
    ∃ next, input.drop next = after ∧
      scanEnv lookup input cursor output looked = (match p.fault lookup with
        | some e => (.error e, looked ++ (if p.name = [] then [] else [p.name]))
        | none => scanEnv lookup input next (output ++ (p.before ++ p.value lookup))
            (looked ++ [p.name])) := by
  obtain ⟨hstart, hbefore, hrest⟩ := find_drop (by decide) hopen
  rw [show openMark.length = 2 from rfl] at hrest
  rw [← hrest] at hclose
  obtain ⟨hend, hexpression, hafter⟩ := find_drop (by decide) hclose
  refine ⟨_, hafter, ?_⟩
  -- the loop finds both marks where they are, so the two other ways out are not taken
  rw [scanEnv, dif_pos (lt_of_firstMark (by decide) hopen)]
  split
  · next hnone =>
      rw [hstart] at hnone
      cases hnone
  · next start hsome =>
      rw [hstart] at hsome
      cases hsome
      split
      · next hnone =>
          rw [hend] at hnone
          cases hnone
      · next stop hsome =>
          rw [hend] at hsome
          cases hsome
          -- the lengths that the loop takes its `substr` with
          have hbetween : cursor + p.before.length - cursor = p.before.length := by omega
          have hwithin : cursor + p.before.length + 2 + expression.length
              - (cursor + p.before.length) - 2 = expression.length := by omega
          obtain ⟨hname, hfallback⟩ := hreads.find
          simp only [hbetween, hbefore, hwithin, hexpression, hname, hfallback]
          unfold Piece.fault Piece.value
          by_cases hempty : p.name = []
          · simp [hempty]
          · cases hvalue : lookup p.name with
            | some value => simp [hempty, closeMark]
            | none => cases p.fallback <;> simp [hempty, closeMark]

/-- **The loop makes the pass.** The induction is along the pieces of what is left. -/
theorem scanEnv_eq {text : Bytes} {pieces : List Piece} {tail : Tail} (h : Split text pieces tail) :
    ∀ {cursor : Nat} {output : Bytes} {looked : List Bytes}, input.drop cursor = text →
      scanEnv lookup input cursor output looked =
        ((evaluate lookup tail pieces).1.map (fun rest => output ++ rest),
          looked ++ (evaluate lookup tail pieces).2) := by
  induction h with
  | plain hopen =>
      rintro cursor output looked rfl
      rw [scanEnv_plain hopen]
      simp [evaluate, Tail.fault, Tail.text, Except.map]
  | unterminated hopen hclose =>
      rintro cursor output looked rfl
      rw [scanEnv_unterminated hopen hclose]
      simp [evaluate, Tail.fault, Except.map]
  | @placeholder text rest expression after p pieces tail hopen hclose hreads _ ih =>
      rintro cursor output looked rfl
      obtain ⟨next, hnext, hround⟩ := scanEnv_placeholder hopen hclose hreads
      -- one round of the loop is one piece: it faults, or the rest goes on behind it
      rw [hround]
      cases hfault : p.fault lookup with
      | some e =>
          rw [evaluate_fault hfault]
          rfl
      | none =>
          dsimp only
          rw [ih hnext, evaluate_next hfault]
          cases (evaluate lookup tail pieces).1 <;> simp [Except.map]

theorem expand_eq {p : Piece} {expression : Bytes} (h : p.Reads expression) :
    expand lookup expression = (match p.fault lookup with
      | some e => .error e
      | none => .ok (p.value lookup)) := by
  obtain ⟨before, name, fallback⟩ := p
  -- an expression without a separator is a name alone
  have hcut : nameOf expression = name ∧
      (cut? separatorMark expression).map Prod.snd = fallback := by
    cases fallback with
    | none =>
        obtain ⟨rfl, hno⟩ := h
        rw [nameOf, cut?_eq_none_iff.mpr hno]
        exact ⟨rfl, rfl⟩
    | some fallback =>
        rw [nameOf, cut?_eq_some_iff.mpr h]
        exact ⟨rfl, rfl⟩
  obtain ⟨rfl, hfallback⟩ := hcut
  unfold expand Piece.fault Piece.value
  by_cases hempty : nameOf expression = []
  · simp [hempty, failure, emptyNameError]
  · cases hvalue : lookup (nameOf expression) with
    | some value => simp [hempty, hvalue]
    | none =>
        cases hcut : cut? separatorMark expression with
        | none =>
            rw [hcut] at hfallback
            subst hfallback
            simp [hempty, hvalue, failure, notSetError]
        | some cut =>
            rw [hcut] at hfallback
            subst hfallback
            simp [hempty, hvalue]

/-- The model that cuts the input instead of counting in it. -/
theorem interpolateEnv_eq {text : Bytes} {pieces : List Piece} {tail : Tail}
    (h : Split text pieces tail) : interpolateEnv lookup text = (evaluate lookup tail pieces).1 := by
  induction h with
  | plain hopen =>
      rw [interpolateEnv_plain (cut?_eq_none_iff.mpr hopen)]
      rfl
  | unterminated hopen hclose =>
      rw [interpolateEnv_unterminated (cut?_eq_some_iff.mpr hopen) (cut?_eq_none_iff.mpr hclose)]
      rfl
  | @placeholder text rest expression after p pieces tail hopen hclose hreads _ ih =>
      rw [interpolateEnv_cut (cut?_eq_some_iff.mpr hopen) (cut?_eq_some_iff.mpr hclose), ih,
        expand_eq hreads]
      cases hfault : p.fault lookup with
      | some e =>
          rw [evaluate_fault hfault]
          rfl
      | none =>
          rw [evaluate_next hfault]
          rfl

end

/-- **Interpolation is one left-to-right pass.** The input falls into pieces in one way, whatever
the variables hold; the result and the lookups are those of one pass over the pieces. -/
theorem interpolateEnv_one_pass (lookup : EnvLookup) (input : Bytes) :
    interpolateEnv lookup input = (scanEnv lookup input 0 [] []).1 ∧
    ∃ pieces tail, Split input pieces tail ∧
      (∀ pieces' tail', Split input pieces' tail' → pieces' = pieces ∧ tail' = tail) ∧
      OnePass lookup pieces tail (scanEnv lookup input 0 [] []).1
        (scanEnv lookup input 0 [] []).2 := by
  obtain ⟨pieces, tail, hsplit⟩ := exists_split input
  have hscan : scanEnv lookup input 0 [] [] = evaluate lookup tail pieces := by
    rw [scanEnv_eq hsplit (List.drop_zero)]
    obtain ⟨result, looked⟩ := evaluate lookup tail pieces
    cases result <;> rfl
  rw [hscan]
  exact ⟨interpolateEnv_eq hsplit, pieces, tail, hsplit, fun _ _ h => h.unique hsplit,
    evaluate_onePass pieces⟩

end Launcher
