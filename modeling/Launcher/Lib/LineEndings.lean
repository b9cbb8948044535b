import Launcher.Lib.Cuts

set_option autoImplicit false

/-! # Line endings on the network

`network` puts a CR in front of every LF that has none. A header is a sequence of lines that are
not empty, each ended by CR and LF; the first empty line ends it (`readHeader`). `readHeader_network`
is how lines ended by LF alone become a header. -/

namespace Launcher.Lib.LineEndings

def cr : UInt8 := 0x0d
def lf : UInt8 := 0x0a
def crlf : List UInt8 := [cr, lf]

/-- The text behind the character `previous`, with CR and LF at the end of every line. -/
def network (previous : Option UInt8) : List UInt8 → List UInt8
  | [] => []
  | c :: rest => (if c = lf ∧ previous ≠ some cr then crlf else [c]) ++ network (some c) rest

/-- A text without line ends. -/
def OneLine (text : List UInt8) : Prop := ∀ c ∈ text, c ≠ cr ∧ c ≠ lf

instance (text : List UInt8) : Decidable (OneLine text) :=
  List.decidableBAll (fun c => c ≠ cr ∧ c ≠ lf) text

theorem OneLine.append {s t : List UInt8} (hs : OneLine s) (ht : OneLine t) : OneLine (s ++ t) := by
  intro c hc
  rcases List.mem_append.mp hc with hc | hc
  · exact hs c hc
  · exact ht c hc

theorem OneLine.of_subset {s t : List UInt8} (ht : OneLine t) (h : s ⊆ t) : OneLine s :=
  fun c hc => ht c (h hc)

/-- The lines of a header and the body behind it, `none` without an empty line. -/
def readHeader (document : List UInt8) : Option (List (List UInt8) × List UInt8) :=
  match _hcut : cut? crlf document with
  | none => none
  | some (line, rest) =>
      if line = [] then some ([], rest)
      else (readHeader rest).map (fun (lines, body) => (line :: lines, body))
termination_by document.length
decreasing_by exact length_lt_of_cut? (by decide) _hcut

/-! ## Conversion -/

variable {text line : List UInt8} {previous : Option UInt8}

theorem network_cons (c : UInt8) (rest : List UInt8) : network previous (c :: rest) =
    (if c = lf ∧ previous ≠ some cr then crlf else [c]) ++ network (some c) rest := rfl

/-- All that matters of what stands in front is whether it is a CR. -/
theorem network_of_ne_cr (h : previous ≠ some cr) (text : List UInt8) :
    network previous text = network none text := by
  cases text with
  | nil => rfl
  | cons c rest => simp [network_cons, h]

theorem getLast?_cons_or (c : UInt8) (text : List UInt8) (previous : Option UInt8) :
    (c :: text).getLast?.or previous = text.getLast?.or (some c) := by
  cases htext : text.getLast? <;> simp [List.getLast?_cons, htext]

theorem network_oneLine (h : OneLine line) (previous : Option UInt8) (rest : List UInt8) :
    network previous (line ++ rest) = line ++ network (line.getLast?.or previous) rest := by
  induction line generalizing previous with
  | nil => rfl
  | cons c line ih =>
      obtain ⟨hc, hline⟩ := List.forall_mem_cons.mp h
      rw [List.cons_append, network_cons, if_neg (fun hlf => hc.2 hlf.1), ih hline, getLast?_cons_or]
      rfl

/-- A line ended by LF. -/
theorem network_line (h : OneLine line) (hprevious : previous ≠ some cr) (rest : List UInt8) :
    network previous (line ++ lf :: rest) = line ++ crlf ++ network none rest := by
  have hlast : line.getLast?.or previous ≠ some cr := by
    cases hline : line.getLast? with
    | none => exact hprevious
    | some c =>
        rw [Option.some_or]
        rintro ⟨rfl⟩
        exact (h cr (List.mem_of_getLast? hline)).1 rfl
  rw [network_oneLine h, network_cons, if_pos ⟨rfl, hlast⟩, network_of_ne_cr (by decide),
    List.append_assoc]

/-- **Every LF has a CR in front of it.** -/
theorem network_lf : ∀ {front back : List UInt8}, network previous text = front ++ lf :: back →
    (front.getLast?.or previous) = some cr := by
  induction text generalizing previous with
  | nil =>
      intro front back h
      exact absurd h.symm (by simp [show network previous [] = [] from rfl])
  | cons c rest ih =>
      intro front back h
      rw [network_cons] at h
      split_ifs at h with hlf
      · -- the CR that was put in, the LF, and what follows
        obtain ⟨rfl, -⟩ := hlf
        match front with
        | [] => cases h
        | [d] =>
            obtain ⟨rfl, -⟩ := List.cons.inj h
            rfl
        | d :: e :: front =>
            obtain ⟨-, htail⟩ := List.cons.inj h
            obtain ⟨rfl, hrest⟩ := List.cons.inj htail
            rw [getLast?_cons_or, getLast?_cons_or]
            exact ih hrest
      · cases front with
        | nil =>
            obtain ⟨rfl, -⟩ := List.cons.inj h
            exact not_not.mp (fun hprevious => hlf ⟨rfl, hprevious⟩)
        | cons d front =>
            obtain ⟨rfl, hrest⟩ := List.cons.inj h
            rw [getLast?_cons_or]
            exact ih hrest

/-! ## Headers -/

theorem cut?_line (h : OneLine line) (rest : List UInt8) :
    cut? crlf (line ++ crlf ++ rest) = some (line, rest) := by
  have hnone : cut? crlf line = none := cut?_eq_none_of_head (fun hmem => (h cr hmem).1 rfl)
  have hapart : Apart crlf line (crlf ++ rest) := by
    refine Apart.pair (fun hlast => ?_)
    exact absurd rfl (h cr (List.mem_of_getLast? hlast)).1
  rw [List.append_assoc, cut?_append_of_none hnone hapart]
  have hfront : crlf <+: cr :: (lf :: rest) := ⟨rest, rfl⟩
  rw [show crlf ++ rest = cr :: (lf :: rest) from rfl, cut?_front hfront]
  simp [crlf]

/-- The lines are read back, and the first empty one ends them. -/
theorem readHeader_of_cut {document rest : List UInt8}
    (h : cut? crlf document = some (line, rest)) : readHeader document =
      if line = [] then some ([], rest)
      else (readHeader rest).map (fun (lines, body) => (line :: lines, body)) := by
  rw [readHeader]
  split
  · next hnone =>
      rw [h] at hnone
      cases hnone
  · next hsome =>
      rw [h] at hsome
      cases hsome
      rfl

theorem readHeader_lines {lines : List (List UInt8)} (hne : ∀ line ∈ lines, line ≠ [])
    (h : ∀ line ∈ lines, OneLine line) (body : List UInt8) :
    readHeader ((lines.map (fun line => line ++ crlf)).flatten ++ (crlf ++ body)) =
      some (lines, body) := by
  induction lines with
  | nil =>
      have hcut := @cut?_line [] (fun c hc => by cases hc) body
      rw [List.nil_append] at hcut
      rw [List.map_nil, List.flatten_nil, List.nil_append, readHeader_of_cut hcut]
      rfl
  | cons line lines ih =>
      obtain ⟨hline, hlines⟩ := List.forall_mem_cons.mp h
      obtain ⟨hnil, hnils⟩ := List.forall_mem_cons.mp hne
      have hcut := cut?_line hline
        ((lines.map (fun line => line ++ crlf)).flatten ++ (crlf ++ body))
      rw [List.map_cons, List.flatten_cons, List.append_assoc, readHeader_of_cut hcut,
        if_neg hnil, ih hnils hlines]
      rfl

/-- Lines ended by LF, an empty one, and the body. -/
theorem network_lines {lines : List (List UInt8)} (h : ∀ line ∈ lines, OneLine line)
    (body : List UInt8) :
    network none ((lines.map (fun line => line ++ [lf])).flatten ++ lf :: body) =
      (lines.map (fun line => line ++ crlf)).flatten ++ (crlf ++ network none body) := by
  induction lines with
  | nil =>
      have hempty := @network_line [] none (fun c hc => by cases hc) (by decide) body
      simpa using hempty
  | cons line lines ih =>
      obtain ⟨hline, hlines⟩ := List.forall_mem_cons.mp h
      have hfirst := network_line hline (by decide : (none : Option UInt8) ≠ some cr)
        ((lines.map (fun line => line ++ [lf])).flatten ++ lf :: body)
      rw [ih hlines] at hfirst
      simpa using hfirst

/-- **Lines ended by LF become a header.** -/
theorem readHeader_network {lines : List (List UInt8)} (hne : ∀ line ∈ lines, line ≠ [])
    (h : ∀ line ∈ lines, OneLine line) (body : List UInt8) :
    readHeader (network none ((lines.map (fun line => line ++ [lf])).flatten ++ lf :: body)) =
      some (lines, network none body) := by
  rw [network_lines h, readHeader_lines hne h]

end Launcher.Lib.LineEndings
