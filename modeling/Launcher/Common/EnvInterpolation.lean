import Launcher.Common.Basic
import Launcher.Lib.Cuts

set_option autoImplicit false

/-! # Environment variables in the configuration

`common/EnvInterpolation.cpp`: `${VAR}` and `${VAR:-default}` are replaced in the bytes of a
document before anything else reads it. The scan goes from left to right and never looks at
what it has put in, so a text can be expanded piece by piece (`interpolateEnv_append`,
`interpolateEnv_placeholder`), and the result depends only on the variables the text names
(`interpolateEnv_congr`). -/

namespace Launcher

open Lib

/-- `common::EnvLookup`: the value of a variable, if it is set. -/
abbrev EnvLookup := Bytes → Option Bytes

def dollar : UInt8 := 0x24
def closeBrace : UInt8 := 0x7d

/-- `${`, `}` and `:-`. -/
def openMark : Bytes := [dollar, 0x7b]
def closeMark : Bytes := [closeBrace]
def separatorMark : Bytes := [0x3a, 0x2d]

/-- The name in an expression, up to the first separator. -/
def nameOf (expression : Bytes) : Bytes :=
  ((cut? separatorMark expression).map Prod.fst).getD expression

/-- What an expression is replaced by. -/
def expand (lookup : EnvLookup) (expression : Bytes) : Result Bytes :=
  let name := nameOf expression
  if name.isEmpty then
    failure .InvalidInput (ascii "empty variable name in $\x7b...\x7d placeholder")
  else
    match lookup name with
    | some value => .ok value
    | none =>
        match cut? separatorMark expression with
        | some (_, fallback) => .ok fallback
        | none =>
            failure .InvalidInput (ascii "required environment variable is not set: " ++ name)

theorem rest_shorter {input before rest expression after : Bytes}
    (h : cut? openMark input = some (before, rest))
    (h' : cut? closeMark rest = some (expression, after)) : after.length < input.length :=
  (length_lt_of_cut? (by decide) h').trans (length_lt_of_cut? (by decide) h)

/-- `interpolateEnv`, from `cursor` to the end of the input. -/
def interpolateEnv (lookup : EnvLookup) (input : Bytes) : Result Bytes :=
  match _hopen : cut? openMark input with
  | none => .ok input
  | some (before, rest) =>
      match _hclose : cut? closeMark rest with
      | none =>
          failure .InvalidInput (ascii "unterminated $\x7b...\x7d placeholder in configuration")
      | some (expression, after) =>
          match expand lookup expression with
          | .error e => .error e
          | .ok value =>
              (interpolateEnv lookup after).map (fun output => before ++ value ++ output)
termination_by input.length
decreasing_by exact rest_shorter _hopen _hclose

/-- The variables the placeholders of a text name. -/
def namedVariables (input : Bytes) : List Bytes :=
  match _hopen : cut? openMark input with
  | none => []
  | some (_, rest) =>
      match _hclose : cut? closeMark rest with
      | none => []
      | some (expression, after) => nameOf expression :: namedVariables after
termination_by input.length
decreasing_by exact rest_shorter _hopen _hclose

/-! ## One round of the scan -/

section

variable {lookup : EnvLookup} {input before rest expression after : Bytes}

theorem interpolateEnv_plain (h : cut? openMark input = none) :
    interpolateEnv lookup input = .ok input := by
  rw [interpolateEnv]
  split
  · rfl
  · next hopen =>
      rw [h] at hopen
      cases hopen

theorem interpolateEnv_unterminated (h : cut? openMark input = some (before, rest))
    (h' : cut? closeMark rest = none) :
    interpolateEnv lookup input =
      failure .InvalidInput (ascii "unterminated $\x7b...\x7d placeholder in configuration") := by
  rw [interpolateEnv]
  split
  · next hopen =>
      rw [h] at hopen
      cases hopen
  · next hopen =>
      rw [h] at hopen
      cases hopen
      split
      · rfl
      · next hclose =>
          rw [h'] at hclose
          cases hclose

theorem interpolateEnv_cut (h : cut? openMark input = some (before, rest))
    (h' : cut? closeMark rest = some (expression, after)) :
    interpolateEnv lookup input =
      (expand lookup expression).bind (fun value =>
        (interpolateEnv lookup after).map (fun output => before ++ value ++ output)) := by
  rw [interpolateEnv]
  split
  · next hopen =>
      rw [h] at hopen
      cases hopen
  · next hopen =>
      rw [h] at hopen
      cases hopen
      split
      · next hclose =>
          rw [h'] at hclose
          cases hclose
      · next hclose =>
          rw [h'] at hclose
          cases hclose
          cases expand lookup expression <;> rfl

theorem namedVariables_cut (h : cut? openMark input = some (before, rest))
    (h' : cut? closeMark rest = some (expression, after)) :
    namedVariables input = nameOf expression :: namedVariables after := by
  rw [namedVariables]
  split
  · next hopen =>
      rw [h] at hopen
      cases hopen
  · next hopen =>
      rw [h] at hopen
      cases hopen
      split
      · next hclose =>
          rw [h'] at hclose
          cases hclose
      · next hclose =>
          rw [h'] at hclose
          cases hclose
          rfl

end

/-- Induction along the scan. -/
theorem scan_induction {P : Bytes → Prop} (plain : ∀ input, cut? openMark input = none → P input)
    (unterminated : ∀ input before rest, cut? openMark input = some (before, rest) →
      cut? closeMark rest = none → P input)
    (placeholder : ∀ input before rest expression after,
      cut? openMark input = some (before, rest) →
      cut? closeMark rest = some (expression, after) → P after → P input)
    (input : Bytes) : P input := by
  generalize hlength : input.length = n
  induction n using Nat.strong_induction_on generalizing input with
  | _ n ih =>
      cases hopen : cut? openMark input with
      | none => exact plain input hopen
      | some cut =>
          obtain ⟨before, rest⟩ := cut
          cases hclose : cut? closeMark rest with
          | none => exact unterminated input before rest hopen hclose
          | some cut =>
              obtain ⟨expression, after⟩ := cut
              have hshorter : after.length < n := hlength ▸ rest_shorter hopen hclose
              exact placeholder input before rest expression after hopen hclose
                (ih after.length hshorter after rfl)

/-! ## Piece by piece -/

theorem expand_congr {lookup lookup' : EnvLookup} {expression : Bytes}
    (h : lookup (nameOf expression) = lookup' (nameOf expression)) :
    expand lookup expression = expand lookup' expression := by
  simp only [expand, h]

/-- **Only the variables a text names matter.** -/
theorem interpolateEnv_congr {lookup lookup' : EnvLookup} (input : Bytes)
    (h : ∀ name ∈ namedVariables input, lookup name = lookup' name) :
    interpolateEnv lookup input = interpolateEnv lookup' input := by
  induction input using scan_induction with
  | plain input hopen => rw [interpolateEnv_plain hopen, interpolateEnv_plain hopen]
  | unterminated input before rest hopen hclose =>
      rw [interpolateEnv_unterminated hopen hclose, interpolateEnv_unterminated hopen hclose]
  | placeholder input before rest expression after hopen hclose ih =>
      rw [namedVariables_cut hopen hclose, List.forall_mem_cons] at h
      rw [interpolateEnv_cut hopen hclose, interpolateEnv_cut hopen hclose, expand_congr h.1,
        ih h.2]

/-- Behind a text without placeholders, whether there is one is up to the rest. -/
theorem interpolateEnv_plain_append {lookup : EnvLookup} {input rest : Bytes}
    (hopen : cut? openMark input = none) (hapart : Apart openMark input rest) :
    interpolateEnv lookup (input ++ rest) =
      (interpolateEnv lookup rest).map (fun tail => input ++ tail) := by
  have hcut := cut?_append_of_none hopen hapart
  cases hrest : cut? openMark rest with
  | none =>
      rw [hrest, Option.map_none] at hcut
      rw [interpolateEnv_plain hcut, interpolateEnv_plain hrest]
      rfl
  | some cut =>
      obtain ⟨before, after⟩ := cut
      rw [hrest, Option.map_some] at hcut
      cases hclose : cut? closeMark after with
      | none =>
          rw [interpolateEnv_unterminated hcut hclose, interpolateEnv_unterminated hrest hclose]
          rfl
      | some cut =>
          obtain ⟨expression, after⟩ := cut
          rw [interpolateEnv_cut hcut hclose, interpolateEnv_cut hrest hclose]
          cases expand lookup expression with
          | error e => rfl
          | ok value =>
              cases interpolateEnv lookup after with
              | error e => rfl
              | ok tail => simp [Except.bind, Except.map]

/-- **A text that can be expanded, and what follows it.** -/
theorem interpolateEnv_append {lookup : EnvLookup} {input output rest : Bytes}
    (h : interpolateEnv lookup input = .ok output) (hapart : Apart openMark input rest) :
    interpolateEnv lookup (input ++ rest) =
      (interpolateEnv lookup rest).map (fun tail => output ++ tail) := by
  induction input using scan_induction generalizing output with
  | plain input hopen =>
      rw [interpolateEnv_plain hopen] at h
      cases h
      exact interpolateEnv_plain_append hopen hapart
  | unterminated input before rest hopen hclose =>
      rw [interpolateEnv_unterminated hopen hclose] at h
      cases h
  | placeholder input before rest' expression after hopen hclose ih =>
      -- the marks that were found first are still the first ones
      have hopen' := cut?_append rest hopen
      have hclose' := cut?_append rest hclose
      rw [interpolateEnv_cut hopen hclose] at h
      rw [interpolateEnv_cut hopen' hclose']
      cases hvalue : expand lookup expression with
      | error e =>
          rw [hvalue] at h
          cases h
      | ok value =>
          cases hafter : interpolateEnv lookup after with
          | error e =>
              rw [hvalue, hafter] at h
              cases h
          | ok tail =>
              rw [hvalue, hafter] at h
              cases h
              -- what is left is an end of the input, so no mark is made where it meets the rest
              have hsuffix : after <:+ input := by
                refine List.IsSuffix.trans ?_ ⟨before ++ openMark, (eq_of_cut? hopen).symm⟩
                exact ⟨expression ++ closeMark, (eq_of_cut? hclose).symm⟩
              have hapart' : Apart openMark after rest :=
                fun s t hmark hs ht hs' => hapart s t hmark hs ht (hs'.trans hsuffix)
              simp only [Except.bind, ih hafter hapart']
              cases interpolateEnv lookup rest with
              | error e => rfl
              | ok tail' => simp [Except.map]

/-! ## Placeholders -/

/-- `${NAME}` or `${NAME:-default}`. -/
structure Placeholder where
  name : Bytes
  fallback : Option Bytes
  name_ne_nil : name ≠ []
  name_whole : cut? separatorMark name = none
  name_closed : closeBrace ∉ name
  fallback_closed : ∀ text ∈ fallback, closeBrace ∉ text

namespace Placeholder

variable (p : Placeholder)

def expression : Bytes :=
  match p.fallback with
  | none => p.name
  | some text => p.name ++ (separatorMark ++ text)

def text : Bytes := openMark ++ (p.expression ++ closeMark)

theorem nameOf_expression : nameOf p.expression = p.name := by
  unfold expression nameOf
  cases p.fallback with
  | none => simp [p.name_whole]
  | some text =>
      have hapart : Apart separatorMark p.name (separatorMark ++ text) :=
        Apart.pair (fun _ => by simp [separatorMark])
      have hfront : cut? separatorMark (separatorMark ++ text) = some ([], text) :=
        cut?_front ⟨text, rfl⟩
      simp [cut?_append_of_none p.name_whole hapart, hfront]

theorem expression_closed : cut? closeMark p.expression = none := by
  refine cut?_eq_none_of_head ?_
  unfold expression
  cases hfallback : p.fallback with
  | none => exact p.name_closed
  | some text =>
      have htext : closeBrace ∉ text := p.fallback_closed text hfallback
      simp [separatorMark, closeBrace] at htext ⊢
      exact ⟨p.name_closed, htext⟩

theorem expand_expression {lookup : EnvLookup} {value : Bytes} (h : lookup p.name = some value) :
    expand lookup p.expression = .ok value := by
  simp [expand, p.nameOf_expression, h, p.name_ne_nil]

/-- **A placeholder and what follows it.** -/
theorem interpolateEnv_text {lookup : EnvLookup} {value : Bytes} (h : lookup p.name = some value)
    (rest : Bytes) :
    interpolateEnv lookup (p.text ++ rest) =
      (interpolateEnv lookup rest).map (fun tail => value ++ tail) := by
  have hopen : cut? openMark (p.text ++ rest) =
      some ([], p.expression ++ (closeMark ++ rest)) := by
    rw [text, List.append_assoc, List.append_assoc]
    exact cut?_front ⟨_, rfl⟩
  have hclose : cut? closeMark (p.expression ++ (closeMark ++ rest)) =
      some (p.expression, rest) := by
    have hfront : cut? closeMark (closeMark ++ rest) = some ([], rest) :=
      cut?_front ⟨rest, rfl⟩
    rw [cut?_append_of_none p.expression_closed (Apart.singleton closeBrace _ _), hfront]
    simp
  rw [interpolateEnv_cut hopen hclose, p.expand_expression h]
  rfl

end Placeholder

end Launcher
