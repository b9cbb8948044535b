import Mathlib.Data.List.Basic

set_option autoImplicit false

/-! # URIs

Where the parts of `scheme://authority/path?query#fragment` begin and end, for any text, and the
arguments in a query. A URI put together from parts that do not contain the characters that end
them is taken apart into the same parts. -/

namespace Launcher.Lib.Uris

def slash : UInt8 := 0x2f
def colon : UInt8 := 0x3a
def question : UInt8 := 0x3f
def hash : UInt8 := 0x23
def ampersand : UInt8 := 0x26
def equals : UInt8 := 0x3d

def endsPath (c : UInt8) : Bool := c == question || c == hash

def endsAuthority (c : UInt8) : Bool := c == slash || endsPath c

def endsScheme (c : UInt8) : Bool := c == colon || endsAuthority c

/-! ## Taking apart -/

/-- What follows `scheme:`; a scheme is not empty. -/
def afterScheme (uri : List UInt8) : List UInt8 :=
  match uri.dropWhile (fun c => !endsScheme c) with
  | c :: rest => if c = colon ∧ uri.head? ≠ some colon then rest else uri
  | [] => uri

/-- What follows `//authority`. -/
def afterAuthority : List UInt8 → List UInt8
  | a :: b :: rest =>
      if a = slash ∧ b = slash then rest.dropWhile (fun c => !endsAuthority c) else a :: b :: rest
  | rest => rest

def path (uri : List UInt8) : List UInt8 :=
  (afterAuthority (afterScheme uri)).takeWhile (fun c => !endsPath c)

def query (uri : List UInt8) : Option (List UInt8) :=
  match (afterAuthority (afterScheme uri)).dropWhile (fun c => !endsPath c) with
  | c :: rest => if c = question then some (rest.takeWhile (fun c => !(c == hash))) else none
  | [] => none

/-- The names and values of a query. -/
def arguments (query : List UInt8) : List (List UInt8 × List UInt8) :=
  (query.splitOn ampersand).map (fun argument =>
    (argument.takeWhile (fun c => !(c == equals)),
      (argument.dropWhile (fun c => !(c == equals))).drop 1))

/-! ## Putting together -/

section Scans

variable {α : Type} {p : α → Bool} {front rest : List α}

theorem dropWhile_part (h : ∀ c ∈ front, p c = false)
    (hrest : ∀ c, rest.head? = some c → p c = true) :
    (front ++ rest).dropWhile (fun c => !p c) = rest := by
  rw [List.dropWhile_append_of_pos (fun c hc => by rw [h c hc]; rfl)]
  cases rest with
  | nil => rfl
  | cons c rest => rw [List.dropWhile_cons_of_neg (by rw [hrest c rfl]; decide)]

theorem takeWhile_part (h : ∀ c ∈ front, p c = false)
    (hrest : ∀ c, rest.head? = some c → p c = true) :
    (front ++ rest).takeWhile (fun c => !p c) = front := by
  rw [List.takeWhile_append_of_pos (fun c hc => by rw [h c hc]; rfl)]
  cases rest with
  | nil => rw [List.takeWhile_nil, List.append_nil]
  | cons c rest => rw [List.takeWhile_cons_of_neg (by rw [hrest c rfl]; decide), List.append_nil]

end Scans

section Parts

variable {scheme authority path query rest : List UInt8}

theorem afterScheme_append (hne : scheme ≠ []) (h : ∀ c ∈ scheme, endsScheme c = false) :
    afterScheme (scheme ++ colon :: rest) = rest := by
  have hhead : (scheme ++ colon :: rest).head? ≠ some colon := by
    obtain ⟨c, more, rfl⟩ := List.exists_cons_of_ne_nil hne
    intro hc
    have hcolon := h c List.mem_cons_self
    rw [Option.some.inj hc] at hcolon
    cases hcolon
  rw [afterScheme, dropWhile_part h (fun c hc => by rw [← Option.some.inj hc]; rfl)]
  exact if_pos ⟨rfl, hhead⟩

theorem afterAuthority_append (h : ∀ c ∈ authority, endsAuthority c = false)
    (hrest : ∀ c, rest.head? = some c → endsAuthority c = true) :
    afterAuthority (slash :: slash :: (authority ++ rest)) = rest := by
  rw [afterAuthority, if_pos ⟨rfl, rfl⟩, dropWhile_part h hrest]

/-- Where there is no authority. -/
theorem afterAuthority_of_not (h : rest.take 2 ≠ [slash, slash]) : afterAuthority rest = rest := by
  unfold afterAuthority
  split
  · rw [if_neg]
    rintro ⟨rfl, rfl⟩
    exact h rfl
  · rfl

/-- **The path and the query** of what follows the authority. -/
theorem path_query_append {uri : List UInt8}
    (h : afterAuthority (afterScheme uri) = path ++ question :: query)
    (hpath : ∀ c ∈ path, endsPath c = false) (hquery : hash ∉ query) :
    Uris.path uri = path ∧ Uris.query uri = some query := by
  -- the question mark ends the path, and nothing ends the query
  have hquestion : ∀ c, (question :: query).head? = some c → endsPath c = true := by
    intro c hc
    rw [← Option.some.inj hc]
    rfl
  have hall : query.takeWhile (fun c => !(c == hash)) = query := by
    have hone : (query ++ []).takeWhile (fun c => !(c == hash)) = query :=
      takeWhile_part (p := (· == hash))
        (fun c hc => beq_eq_false_iff_ne.mpr (fun heq => hquery (heq ▸ hc)))
        (fun c hc => by cases hc)
    rwa [List.append_nil] at hone
  rw [Uris.path, Uris.query, h, takeWhile_part hpath hquestion, dropWhile_part hpath hquestion]
  refine ⟨rfl, ?_⟩
  show (if question = question then some (query.takeWhile (fun c => !(c == hash))) else none) = _
  rw [if_pos rfl, hall]

end Parts

/-- **The arguments of a query** put together from names and values. -/
theorem arguments_intercalate {args : List (List UInt8 × List UInt8)} (hne : args ≠ [])
    (h : ∀ arg ∈ args, equals ∉ arg.1 ∧ ampersand ∉ arg.1 ∧ ampersand ∉ arg.2) :
    arguments ([ampersand].intercalate (args.map (fun arg => arg.1 ++ equals :: arg.2)))
      = args := by
  have hpieces : ∀ piece ∈ args.map (fun arg => arg.1 ++ equals :: arg.2), ampersand ∉ piece := by
    intro piece hpiece
    obtain ⟨arg, harg, rfl⟩ := List.mem_map.mp hpiece
    obtain ⟨-, hname, hvalue⟩ := h arg harg
    rw [List.mem_append, List.mem_cons, not_or, not_or]
    exact ⟨hname, by decide, hvalue⟩
  rw [arguments, List.splitOn_intercalate ampersand hpieces (by simpa using hne), List.map_map]
  conv_rhs => rw [← List.map_id args]
  refine List.map_congr_left (fun arg harg => ?_)
  have hname : ∀ c ∈ arg.1, (c == equals) = false := fun c hc =>
    beq_eq_false_iff_ne.mpr (fun heq => (h arg harg).1 (heq ▸ hc))
  have hequals : ∀ c, (equals :: arg.2).head? = some c → (c == equals) = true := by
    intro c hc
    rw [← Option.some.inj hc]
    rfl
  show (_, _) = (arg.1, arg.2)
  rw [takeWhile_part (p := (· == equals)) hname hequals,
    dropWhile_part (p := (· == equals)) hname hequals]
  rfl

end Launcher.Lib.Uris
