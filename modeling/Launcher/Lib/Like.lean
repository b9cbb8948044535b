import Mathlib.Data.List.Infix
import Mathlib.Tactic

set_option autoImplicit false

/-! # The pattern language of LIKE

A pattern is read into tokens first: one mark stands for any text, one for any character, and one
escapes the character behind it. A pattern that ends in an escape is refused.

A text between two wildcards is the usual way to search for it. The search finds what contains the
text if no mark is in it (`matches_plain_iff`). If there is one, the shortest text that the pattern
matches does not contain it (`not_infix_shortest`). -/

namespace Launcher.Lib.Like

/-- The characters with a meaning. -/
structure Marks (α : Type) where
  many : α
  one : α
  escape : α
  many_ne_one : many ≠ one
  many_ne_escape : many ≠ escape
  one_ne_escape : one ≠ escape

inductive Token (α : Type)
  | many
  | one
  | lit (c : α)
  deriving DecidableEq, Repr

section Semantics

variable {α : Type} [DecidableEq α] (m : Marks α)

/-- What an unescaped character means. -/
def token (c : α) : Token α := if c = m.many then .many else if c = m.one then .one else .lit c

/-- `none` when the escape at the end has nothing to escape. -/
def tokens : List α → Option (List (Token α))
  | [] => some []
  | c :: rest =>
      if c = m.escape then
        match rest with
        | [] => none
        | d :: rest => (tokens rest).map (Token.lit d :: ·)
      else (tokens rest).map (token m c :: ·)

/-- The whole text matches. -/
def Token.matches : List (Token α) → List α → Bool
  | [], text => text.isEmpty
  | .many :: ts, text => text.tails.any (Token.matches ts)
  | .one :: ts, _ :: text => Token.matches ts text
  | .lit c :: ts, d :: text => c == d && Token.matches ts text
  | .one :: _, [] => false
  | .lit _ :: _, [] => false

/-- `text LIKE pattern`, or the error. -/
def like (pattern text : List α) : Option Bool :=
  (tokens m pattern).map (fun ts => Token.matches ts text)

/-- The characters that the tokens need. -/
def weight : List (Token α) → Nat
  | [] => 0
  | .many :: ts => weight ts
  | .one :: ts => weight ts + 1
  | .lit _ :: ts => weight ts + 1

/-- The shortest text the tokens match, with a filler for any character. -/
def shortest (filler : α) : List (Token α) → List α
  | [] => []
  | .many :: ts => shortest filler ts
  | .one :: ts => filler :: shortest filler ts
  | .lit c :: ts => c :: shortest filler ts

/-- The tokens of a text with a wildcard behind it. -/
def closed (q : List α) : List (Token α) := (tokens m (q ++ [m.many])).getD []

/-- No character of the text has a meaning. -/
def Marks.Plain (text : List α) : Prop := m.many ∉ text ∧ m.one ∉ text ∧ m.escape ∉ text

instance (text : List α) : Decidable (m.Plain text) := by
  unfold Marks.Plain
  infer_instance

end Semantics

theorem Marks.Plain.of_infix {α : Type} {m : Marks α} {q text : List α} (h : m.Plain text)
    (hpart : q <:+: text) : m.Plain q :=
  ⟨fun hmem => h.1 (hpart.subset hmem), fun hmem => h.2.1 (hpart.subset hmem),
    fun hmem => h.2.2 (hpart.subset hmem)⟩

/-! ## Matching -/

section Matching

variable {α : Type} [DecidableEq α] {ts : List (Token α)} {text : List α}

theorem matches_many : Token.matches (.many :: ts) text = true ↔
    ∃ rest, rest <:+ text ∧ Token.matches ts rest = true := by
  rw [Token.matches, List.any_eq_true]
  simp only [List.mem_tails]

theorem matches_lits {plain : List α} : Token.matches (plain.map Token.lit ++ ts) text = true ↔
    ∃ rest, text = plain ++ rest ∧ Token.matches ts rest = true := by
  induction plain generalizing text with
  | nil => simp
  | cons c plain ih =>
      cases text with
      | nil => simp [Token.matches]
      | cons d text =>
          -- the first literal takes the first character
          rw [List.map_cons, List.cons_append, Token.matches, Bool.and_eq_true, beq_iff_eq, ih]
          simp only [List.cons_append, List.cons.injEq]
          constructor
          · rintro ⟨rfl, rest, htext, hrest⟩
            exact ⟨rest, ⟨rfl, htext⟩, hrest⟩
          · rintro ⟨rest, ⟨rfl, htext⟩, hrest⟩
            exact ⟨rfl, rest, htext, hrest⟩

theorem matches_shortest (filler : α) : ∀ ts : List (Token α),
    Token.matches ts (shortest filler ts) = true
  | [] => rfl
  | .many :: ts => matches_many.mpr ⟨_, List.suffix_rfl, matches_shortest filler ts⟩
  | .one :: ts => matches_shortest filler ts
  | .lit c :: ts => by
      rw [shortest, Token.matches, matches_shortest filler ts, beq_self_eq_true, Bool.and_self]

omit [DecidableEq α] in
theorem length_shortest (filler : α) : ∀ ts : List (Token α),
    (shortest filler ts).length = weight ts
  | [] => rfl
  | .many :: ts => length_shortest filler ts
  | .one :: ts => congrArg (· + 1) (length_shortest filler ts)
  | .lit _ :: ts => congrArg (· + 1) (length_shortest filler ts)

/-- Nothing shorter is matched. -/
theorem weight_le_length (h : Token.matches ts text = true) : weight ts ≤ text.length := by
  induction ts generalizing text with
  | nil => exact Nat.zero_le _
  | cons t ts ih =>
      cases t with
      | many =>
          -- what it skips only makes the text longer
          obtain ⟨rest, hsuffix, hrest⟩ := matches_many.mp h
          exact (ih hrest).trans hsuffix.length_le
      | one =>
          cases text with
          | nil => cases h
          | cons d text => exact Nat.succ_le_succ (ih h)
      | lit c =>
          cases text with
          | nil => cases h
          | cons d text =>
              rw [Token.matches, Bool.and_eq_true] at h
              exact Nat.succ_le_succ (ih h.2)

end Matching

/-! ## A text between two wildcards -/

section Around

variable {α : Type} [DecidableEq α] {m : Marks α} {q : List α} {ts : List (Token α)}

theorem token_of_plain {c : α} (hmany : m.many ≠ c) (hone : m.one ≠ c) : token m c = .lit c := by
  rw [token, if_neg hmany.symm, if_neg hone.symm]

@[simp] theorem tokens_nil : tokens m [] = some [] := rfl

theorem tokens_escape {d : α} {rest : List α} :
    tokens m (m.escape :: d :: rest) = (tokens m rest).map (Token.lit d :: ·) := by
  rw [tokens, if_pos rfl]

theorem tokens_cons {c : α} {rest : List α} (h : c ≠ m.escape) :
    tokens m (c :: rest) = (tokens m rest).map (token m c :: ·) := by
  rw [tokens.eq_def]
  exact if_neg h

/-- The wildcard behind a text, or the literal that an escape at its end makes of it. -/
theorem tokens_many : tokens m [m.many] = some [.many] := by
  rw [tokens_cons m.many_ne_escape, tokens_nil, token, if_pos rfl]
  rfl

theorem tokens_dangling : tokens m [m.escape, m.many] = some [.lit m.many] := tokens_escape

theorem closed_eq (h : tokens m (q ++ [m.many]) = some ts) : closed m q = ts := by
  rw [closed, h, Option.getD_some]

/-- A text with a wildcard behind it is never refused. -/
theorem tokens_closed (q : List α) : tokens m (q ++ [m.many]) = some (closed m q) := by
  -- an escape at the end of the text escapes the wildcard
  suffices hsome : ∃ ts, tokens m (q ++ [m.many]) = some ts by
    obtain ⟨ts, hts⟩ := hsome
    rw [closed_eq hts, hts]
  induction q using tokens.induct (m := m) with
  | case1 => exact ⟨_, tokens_many⟩
  | case2 => exact ⟨_, tokens_dangling⟩
  | case3 d rest ih =>
      obtain ⟨ts, hts⟩ := ih
      exact ⟨_, tokens_escape.trans (congrArg _ hts)⟩
  | case4 c rest h ih =>
      obtain ⟨ts, hts⟩ := ih
      exact ⟨_, (tokens_cons h).trans (congrArg _ hts)⟩

@[simp] theorem closed_nil : closed m [] = [.many] := closed_eq tokens_many

@[simp] theorem closed_dangling : closed m [m.escape] = [.lit m.many] :=
  closed_eq tokens_dangling

@[simp] theorem closed_escape {d : α} {rest : List α} :
    closed m (m.escape :: d :: rest) = .lit d :: closed m rest :=
  closed_eq (tokens_escape.trans (congrArg _ (tokens_closed rest)))

theorem closed_cons {c : α} {rest : List α} (h : c ≠ m.escape) :
    closed m (c :: rest) = token m c :: closed m rest :=
  closed_eq ((tokens_cons h).trans (congrArg _ (tokens_closed rest)))

theorem like_closed (q text : List α) : like m (m.many :: q ++ [m.many]) text =
    some (Token.matches (.many :: closed m q) text) := by
  rw [like, List.cons_append, tokens_cons m.many_ne_escape, tokens_closed, token, if_pos rfl]
  rfl

theorem closed_plain (h : m.Plain q) : closed m q = q.map Token.lit ++ [.many] := by
  induction q with
  | nil => exact closed_nil
  | cons c rest ih =>
      obtain ⟨hmany, hone, hescape⟩ := h
      have hrest : m.Plain rest := ⟨List.not_mem_of_not_mem_cons hmany,
        List.not_mem_of_not_mem_cons hone, List.not_mem_of_not_mem_cons hescape⟩
      rw [closed_cons (List.ne_of_not_mem_cons hescape).symm, ih hrest,
        token_of_plain (List.ne_of_not_mem_cons hmany) (List.ne_of_not_mem_cons hone)]
      rfl

/-- Without a mark the search finds what contains the text. -/
theorem matches_plain_iff {text : List α} (h : m.Plain q) :
    Token.matches (.many :: closed m q) text = true ↔ q <:+: text := by
  rw [matches_many, closed_plain h, List.infix_iff_prefix_suffix]
  refine exists_congr (fun rest => and_comm.trans (and_congr_left' ?_))
  rw [matches_lits]
  constructor
  · rintro ⟨rest', rfl, -⟩
    exact List.prefix_append _ _
  · rintro ⟨rest', rfl⟩
    -- the wildcard at the end takes the rest
    exact ⟨rest', rfl, matches_many.mpr ⟨[], List.nil_suffix, rfl⟩⟩

section Shortest

variable {filler : α}

/-- What a character that is not an escape leaves in the shortest text. -/
theorem shortest_token_cons (c : α) (ts : List (Token α)) :
    shortest filler (token m c :: ts) = (if c = m.many then [] else if c = m.one then [filler]
      else [c]) ++ shortest filler ts := by
  unfold token
  split_ifs <;> rfl

/-- The shortest text is made of the characters searched for. -/
theorem mem_shortest {c : α} (h : c ∈ shortest filler (closed m q)) :
    c = filler ∨ c = m.many ∨ c ∈ q := by
  induction q using tokens.induct (m := m) with
  | case1 => simp [shortest] at h
  | case2 => simp_all [shortest]
  | case3 d rest ih =>
      rw [closed_escape, shortest] at h
      -- what is escaped stands for itself
      rcases List.mem_cons.mp h with rfl | h
      · simp
      · have hrest := ih h
        simp only [List.mem_cons]
        tauto
  | case4 d rest hd ih =>
      rw [closed_cons hd, shortest_token_cons] at h
      rcases List.mem_append.mp h with h | h
      · split_ifs at h <;> simp_all
      · have hrest := ih h
        simp only [List.mem_cons]
        tauto

theorem weight_closed_le (q : List α) : weight (closed m q) ≤ q.length := by
  induction q using tokens.induct (m := m) with
  | case1 => simp [weight]
  | case2 => simp [weight]
  | case3 d rest ih =>
      rw [closed_escape, weight]
      simp only [List.length_cons]
      omega
  | case4 c rest h ih =>
      rw [closed_cons h, List.length_cons]
      unfold token
      split_ifs <;> simp only [weight] <;> omega

/-- An escape is used up by what it escapes. -/
theorem count_escape_shortest (hfiller : filler ≠ m.escape) (q : List α) :
    (shortest filler (closed m q)).count m.escape + (if m.escape ∈ q then 1 else 0) ≤
      q.count m.escape := by
  induction q using tokens.induct (m := m) with
  | case1 => simp [shortest]
  | case2 => simp [shortest, m.many_ne_escape]
  | case3 d rest ih =>
      -- the escape is gone; what it escapes may be one
      rw [closed_escape, shortest, List.count_cons, List.count_cons, List.count_cons]
      simp only [beq_self_eq_true, if_true, List.mem_cons_self]
      split_ifs at ih ⊢ <;> omega
  | case4 c rest h ih =>
      rw [closed_cons h, shortest_token_cons, List.count_append, List.count_cons_of_ne h]
      have hhead : (if c = m.many then [] else if c = m.one then [filler] else [c]).count
          m.escape = 0 := by
        split_ifs <;> simp [hfiller, h]
      rw [hhead, Nat.zero_add]
      simpa [Ne.symm h] using ih

/-- Where nothing is escaped, no mark is left. -/
theorem mark_not_mem_shortest (hescape : m.escape ∉ q) (hfiller : m.Plain [filler]) :
    m.many ∉ shortest filler (closed m q) ∧ m.one ∉ shortest filler (closed m q) := by
  obtain ⟨hmany, hone, -⟩ := hfiller
  induction q with
  | nil => simp [shortest]
  | cons c rest ih =>
      obtain ⟨ihmany, ihone⟩ := ih (List.not_mem_of_not_mem_cons hescape)
      rw [closed_cons (List.ne_of_not_mem_cons hescape).symm, shortest_token_cons]
      simp only [List.mem_append, not_or]
      refine ⟨⟨?_, ihmany⟩, ?_, ihone⟩
      · split_ifs with h h' <;> simp_all [eq_comm]
      · split_ifs with h h' <;> simp_all [eq_comm]

/-- With a mark in it, the text is not in the shortest text that its pattern matches. -/
theorem not_infix_shortest (hq : ¬m.Plain q) (hfiller : m.Plain [filler]) :
    ¬ q <:+: shortest filler (closed m q) := by
  intro hpart
  -- an escape would have to occur as often in what has fewer of them
  by_cases hescape : m.escape ∈ q
  · have hcount := hpart.sublist.count_le m.escape
    have hused := count_escape_shortest (List.ne_of_not_mem_cons hfiller.2.2).symm q
    rw [if_pos hescape] at hused
    omega
  · -- without one there is no mark left at all
    obtain ⟨hmany, hone⟩ := mark_not_mem_shortest hescape hfiller
    exact hq ⟨fun h => hmany (hpart.subset h), fun h => hone (hpart.subset h), hescape⟩

end Shortest

/-- Reading commutes with a change of the other characters. -/
theorem shortest_closed_map {f : α → α} (hmany : ∀ c, f c = m.many ↔ c = m.many)
    (hone : ∀ c, f c = m.one ↔ c = m.one) (hescape : ∀ c, f c = m.escape ↔ c = m.escape)
    (filler : α) (q : List α) :
    shortest (f filler) (closed m (q.map f)) = (shortest filler (closed m q)).map f := by
  induction q using tokens.induct (m := m) with
  | case1 => simp [shortest]
  | case2 =>
      rw [List.map_singleton, (hescape _).mpr rfl, closed_dangling]
      simp [shortest, (hmany _).mpr rfl]
  | case3 d rest ih =>
      rw [List.map_cons, List.map_cons, (hescape _).mpr rfl, closed_escape, closed_escape,
        shortest, shortest, ih, List.map_cons]
  | case4 c rest h ih =>
      rw [List.map_cons, closed_cons (mt (hescape c).mp h), closed_cons h, shortest_token_cons,
        shortest_token_cons, ih, List.map_append]
      simp only [hmany, hone]
      split_ifs <;> rfl

end Around

end Launcher.Lib.Like
