import Mathlib.Data.List.TakeWhile
import Mathlib.Tactic

set_option autoImplicit false

/-! # Connection strings

The grammar in which a PostgreSQL client library reads a connection string: settings
`keyword = value` between white space, where a backslash quotes the next byte and a value that
begins with a single quote extends to the next one. The string is a C string, so it ends at the
first zero byte.

`join` writes settings down as they are. What comes out of the grammar is never larger than what
went in (`settings_budget`), and it is as large only where no byte was taken for white space,
a quote or a backslash. So a string that means the settings it was joined from is one whose
values the grammar takes literally (`join_means_iff`). -/

namespace Launcher.Lib.Conninfo

abbrev Setting := List UInt8 × List UInt8

def space : UInt8 := 0x20
def quote : UInt8 := 0x27
def backslash : UInt8 := 0x5c
def equals : UInt8 := 0x3d

/-- `isspace` in the C locale. -/
def isSpace (c : UInt8) : Bool := c == space || (0x09 ≤ c && c ≤ 0x0d)

/-! ## The grammar -/

/-- A value without quotes, and what follows the white space that ends it. -/
def bareValue : List UInt8 → List UInt8 × List UInt8
  | [] => ([], [])
  | c :: rest =>
      if isSpace c then ([], rest)
      else if c = backslash then
        match rest with
        -- a backslash at the end of the string stands for nothing
        | [] => ([], [])
        | c' :: rest' => (c' :: (bareValue rest').1, (bareValue rest').2)
      else (c :: (bareValue rest).1, (bareValue rest).2)

/-- A value after its opening quote, `none` without a closing one. -/
def quotedValue : List UInt8 → Option (List UInt8 × List UInt8)
  | [] => none
  | c :: rest =>
      if c = quote then some ([], rest)
      else if c = backslash then
        match rest with
        | [] => none
        | c' :: rest' => (quotedValue rest').map (fun p => (c' :: p.1, p.2))
      else (quotedValue rest).map (fun p => (c :: p.1, p.2))

def value (text : List UInt8) : Option (List UInt8 × List UInt8) :=
  match text.dropWhile isSpace with
  | [] => some ([], [])
  | c :: rest => if c = quote then quotedValue rest else some (bareValue (c :: rest))

def isKeywordByte (c : UInt8) : Bool := c != equals && !isSpace c

/-- A keyword, and what follows its equals sign. -/
def keyword (text : List UInt8) : Option (List UInt8 × List UInt8) :=
  match (text.dropWhile isKeywordByte).dropWhile isSpace with
  | [] => none
  | c :: rest => if c = equals then some (text.takeWhile isKeywordByte, rest) else none

/-- The settings of a text, of which `fuel` bounds the number. -/
def settingsFrom (known : List UInt8 → Bool) : Nat → List UInt8 → Option (List Setting)
  | 0, _ => none
  | fuel + 1, text =>
      match text.dropWhile isSpace with
      | [] => some []
      | c :: rest => do
          let (k, text) ← keyword (c :: rest)
          let (v, text) ← value text
          -- a keyword the library does not know fails the whole string
          if known k then
            let settings ← settingsFrom known fuel text
            some ((k, v) :: settings)
          else none

/-- Every setting takes a byte, so there are no more of them than bytes. -/
def parse (known : List UInt8 → Bool) (text : List UInt8) : Option (List Setting) :=
  let text := text.takeWhile (· != 0)
  settingsFrom known (text.length + 1) text

/-- Of several settings of one keyword the last one holds. -/
def lookup (settings : List Setting) (k : List UInt8) : Option (List UInt8) :=
  settings.reverse.lookup k

def join : List Setting → List UInt8
  | [] => []
  | [(k, v)] => k ++ equals :: v
  | (k, v) :: next :: settings => k ++ equals :: v ++ space :: join (next :: settings)

/-- The text means the settings: every keyword has the value they give it, or none. -/
def Means (known : List UInt8 → Bool) (text : List UInt8) (settings : List Setting) : Prop :=
  ∃ read, parse known text = some read ∧ ∀ k, lookup read k = lookup settings k

/-- A value that the grammar takes literally, up to the next white space. -/
def Bare (v : List UInt8) : Prop :=
  (∀ c ∈ v, c ≠ 0 ∧ isSpace c = false ∧ c ≠ backslash) ∧ v.head? ≠ some quote

/-- Bare values, of which at most the last one is empty. -/
def Literal : List Setting → Prop
  | [] => True
  | [(_, v)] => Bare v
  | (_, v) :: next :: settings => (Bare v ∧ v ≠ []) ∧ Literal (next :: settings)

/-- A keyword that reads as itself. -/
def Word (k : List UInt8) : Prop :=
  k ≠ [] ∧ ∀ c ∈ k, c ≠ 0 ∧ isSpace c = false ∧ c ≠ backslash ∧ c ≠ quote ∧ c ≠ equals

/-! ## What a text can pay for -/

/-- A text of `n` bytes, and one more for the white space that could have ended it. -/
def budget : List UInt8 → Nat
  | [] => 0
  | text => text.length + 1

/-- A keyword, an equals sign, a value and the white space between two settings. -/
def cost (settings : List Setting) : Nat :=
  (settings.map (fun s => s.1.length + s.2.length + 2)).sum

@[simp] theorem cost_nil : cost [] = 0 := rfl

@[simp] theorem cost_cons (k v : List UInt8) (settings : List Setting) :
    cost ((k, v) :: settings) = k.length + v.length + 2 + cost settings := by
  simp [cost]

theorem budget_le (text : List UInt8) : budget text ≤ text.length + 1 := by
  cases text <;> simp [budget]

theorem budget_of_length_pos {text : List UInt8} (h : 0 < text.length) :
    budget text = text.length + 1 := by
  cases text with
  | nil => simp at h
  | cons c rest => rfl

theorem budget_le_budget_iff {text other : List UInt8} :
    budget text ≤ budget other ↔ text.length ≤ other.length := by
  cases text <;> cases other <;> simp [budget]

theorem bareValue_budget (text : List UInt8) :
    (bareValue text).1.length + budget (bareValue text).2 ≤ text.length := by
  fun_induction bareValue text with
  | case1 => simp [budget]
  | case2 c rest hspace =>
      have hrest := budget_le rest
      simpa using hrest
  | case3 hspace => simp [budget]
  | case4 c' rest' hspace ih =>
      simp only [List.length_cons]
      omega
  | case5 c rest hspace hplain ih =>
      simp only [List.length_cons]
      omega

/-- A bare value that costs nothing beyond its own bytes is an initial part of the text. -/
theorem bareValue_eq_budget {text : List UInt8}
    (h : (bareValue text).1.length + budget (bareValue text).2 = text.length) :
    (∀ c ∈ (bareValue text).1, isSpace c = false ∧ c ≠ backslash)
      ∧ (bareValue text).1 <+: text := by
  fun_induction bareValue text with
  | case1 => simp
  | case2 c rest hspace => simp
  | case3 hspace => simp
  | case4 c' rest' hspace ih =>
      -- the backslash is a byte that the value does not have
      have hle := bareValue_budget rest'
      simp only [List.length_cons] at h
      omega
  | case5 c rest hspace hplain ih =>
      have hrest : (bareValue rest).1.length + budget (bareValue rest).2 = rest.length := by
        simp only [List.length_cons] at h
        omega
      obtain ⟨hbytes, hinitial⟩ := ih hrest
      refine ⟨fun x hx => ?_, List.cons_prefix_cons.mpr ⟨rfl, hinitial⟩⟩
      rcases List.mem_cons.mp hx with rfl | hx
      · exact ⟨by simpa using hspace, hplain⟩
      · exact hbytes x hx

theorem quotedValue_length {text v rest : List UInt8} (h : quotedValue text = some (v, rest)) :
    v.length + rest.length + 1 ≤ text.length := by
  fun_induction quotedValue text generalizing v with
  | case1 => cases h
  | case2 rest' =>
      simp only [Option.some.injEq, Prod.mk.injEq] at h
      obtain ⟨rfl, rfl⟩ := h
      simp
  | case3 => cases h
  | case4 c' rest' hquote ih =>
      obtain ⟨p, hp, hpair⟩ := Option.map_eq_some_iff.mp h
      obtain ⟨rfl, rfl⟩ := Prod.mk.inj hpair
      have hle := ih hp
      simp only [List.length_cons]
      omega
  | case5 c rest' hquote hplain ih =>
      obtain ⟨p, hp, hpair⟩ := Option.map_eq_some_iff.mp h
      obtain ⟨rfl, rfl⟩ := Prod.mk.inj hpair
      have hle := ih hp
      simp only [List.length_cons]
      omega

theorem value_budget {text v rest : List UInt8} (h : value text = some (v, rest)) :
    v.length + budget rest ≤ text.length := by
  have hskip := (List.dropWhile_suffix (l := text) isSpace).length_le
  unfold value at h
  split at h
  · next hempty =>
      simp only [Option.some.injEq, Prod.mk.injEq] at h
      obtain ⟨rfl, rfl⟩ := h
      simp [budget]
  · next c text' hskipped =>
      rw [hskipped] at hskip
      split at h
      · have hle := quotedValue_length h
        have hrest := budget_le rest
        simp only [List.length_cons] at hskip
        omega
      · have hle := bareValue_budget (c :: text')
        rw [Option.some.inj h] at hle
        exact hle.trans hskip

theorem value_eq_budget {text v rest : List UInt8} (h : value text = some (v, rest))
    (heq : v.length + budget rest = text.length) :
    (∀ c ∈ v, isSpace c = false ∧ c ≠ backslash) ∧ v.head? ≠ some quote := by
  have hskip := (List.dropWhile_suffix (l := text) isSpace).length_le
  unfold value at h
  split at h
  · next hempty =>
      simp only [Option.some.injEq, Prod.mk.injEq] at h
      obtain ⟨rfl, rfl⟩ := h
      simp
  · next c text' hskipped =>
      rw [hskipped] at hskip
      split at h
      · -- two quotes, where white space would have been one byte
        have hle := quotedValue_length h
        have hrest := budget_le rest
        simp only [List.length_cons] at hskip
        omega
      · next hquote =>
          have hpair := Option.some.inj h
          have hle := bareValue_budget (c :: text')
          have hfree : (bareValue (c :: text')).1.length + budget (bareValue (c :: text')).2
              = (c :: text').length := by
            rw [hpair] at hle ⊢
            exact le_antisymm hle (heq ▸ hskip)
          obtain ⟨hbytes, hinitial⟩ := bareValue_eq_budget hfree
          rw [hpair] at hbytes hinitial
          refine ⟨hbytes, ?_⟩
          -- the first byte of the value is the one at which the value was found not quoted
          cases v with
          | nil => simp
          | cons x rest' =>
              obtain ⟨rfl, -⟩ := List.cons_prefix_cons.mp hinitial
              simpa using hquote

theorem keyword_length {text k rest : List UInt8} (h : keyword text = some (k, rest)) :
    k.length + 1 + rest.length ≤ text.length := by
  have hsplit : (text.takeWhile isKeywordByte).length + (text.dropWhile isKeywordByte).length
      = text.length := by
    rw [← List.length_append, List.takeWhile_append_dropWhile]
  have hskip := (List.dropWhile_suffix (l := text.dropWhile isKeywordByte) isSpace).length_le
  unfold keyword at h
  split at h
  · cases h
  · next c text' hskipped =>
      split at h
      · simp only [Option.some.injEq, Prod.mk.injEq] at h
        obtain ⟨rfl, rfl⟩ := h
        rw [hskipped, List.length_cons] at hskip
        omega
      · cases h

/-- One setting is read off the front, and the rest from what it leaves. -/
theorem settingsFrom_cases {known : List UInt8 → Bool} {fuel : Nat} {text : List UInt8}
    {settings : List Setting} (h : settingsFrom known (fuel + 1) text = some settings) :
    (text.dropWhile isSpace = [] ∧ settings = []) ∨
    ∃ k text₁ v text₂ rest, keyword (text.dropWhile isSpace) = some (k, text₁) ∧
      value text₁ = some (v, text₂) ∧ settingsFrom known fuel text₂ = some rest ∧
      settings = (k, v) :: rest := by
  unfold settingsFrom at h
  split at h
  · next hempty => exact .inl ⟨hempty, (Option.some.inj h).symm⟩
  · next c text' hskipped =>
      right
      obtain ⟨⟨k, text₁⟩, hkeyword, h⟩ := Option.bind_eq_some_iff.mp h
      obtain ⟨⟨v, text₂⟩, hvalue, h⟩ := Option.bind_eq_some_iff.mp h
      dsimp only at h
      split at h
      · obtain ⟨rest, hrest, h⟩ := Option.bind_eq_some_iff.mp h
        exact ⟨k, text₁, v, text₂, rest, hskipped ▸ hkeyword, hvalue, hrest,
          (Option.some.inj h).symm⟩
      · cases h

/-- What is read is paid for by the text. -/
theorem settings_budget {known : List UInt8 → Bool} {fuel : Nat} {text : List UInt8}
    {settings : List Setting} (h : settingsFrom known fuel text = some settings) :
    cost settings ≤ budget text := by
  induction fuel generalizing text settings with
  | zero => cases h
  | succ fuel ih =>
      rcases settingsFrom_cases h with ⟨-, rfl⟩ | ⟨k, text₁, v, text₂, rest, hk, hv, hrest, rfl⟩
      · exact Nat.zero_le _
      · have hskip := (List.dropWhile_suffix (l := text) isSpace).length_le
        have hkeyword := keyword_length hk
        have hvalue := value_budget hv
        have hsettings := ih hrest
        have htext := budget_of_length_pos (show 0 < text.length by omega)
        rw [cost_cons, htext]
        omega

/-- A text that buys nothing beyond its settings has them written out literally. -/
theorem settings_eq_budget {known : List UInt8 → Bool} {fuel : Nat} {text : List UInt8}
    {settings : List Setting} (h : settingsFrom known fuel text = some settings)
    (heq : cost settings = budget text) :
    ∀ s ∈ settings, (∀ c ∈ s.2, isSpace c = false ∧ c ≠ backslash) ∧ s.2.head? ≠ some quote := by
  induction fuel generalizing text settings with
  | zero => cases h
  | succ fuel ih =>
      rcases settingsFrom_cases h with ⟨-, rfl⟩ | ⟨k, text₁, v, text₂, rest, hk, hv, hrest, rfl⟩
      · simp
      · have hskip := (List.dropWhile_suffix (l := text) isSpace).length_le
        have hkeyword := keyword_length hk
        have hvalue := value_budget hv
        have hsettings := settings_budget hrest
        have htext := budget_of_length_pos (show 0 < text.length by omega)
        rw [cost_cons] at heq
        -- each inequality of `settings_budget` is an equality here
        have hfree : v.length + budget text₂ = text₁.length := by omega
        intro s hs
        rcases List.mem_cons.mp hs with rfl | hs
        · exact value_eq_budget hv hfree
        · exact ih hrest (by omega) s hs

/-! ## Reading a joined text -/

section Joined

variable {known : List UInt8 → Bool}

theorem budget_join (settings : List Setting) : budget (join settings) = cost settings := by
  have hlength : settings ≠ [] → (join settings).length + 1 = cost settings := by
    intro hne
    induction settings with
    | nil => exact absurd rfl hne
    | cons s settings ih =>
        obtain ⟨k, v⟩ := s
        cases settings with
        | nil =>
            simp only [join, List.length_append, List.length_cons, cost_cons, cost_nil]
            omega
        | cons next settings =>
            have hrest := ih (List.cons_ne_nil _ _)
            simp only [join, List.length_append, List.length_cons, cost_cons k v]
            omega
  cases settings with
  | nil => rfl
  | cons s settings =>
      have hcost := hlength (List.cons_ne_nil _ _)
      obtain ⟨k, v⟩ := s
      rw [budget_of_length_pos, hcost]
      rw [cost_cons] at hcost
      omega

theorem bareValue_space {c : UInt8} (rest : List UInt8) (h : isSpace c = true) :
    bareValue (c :: rest) = ([], rest) := by
  rw [bareValue.eq_def]
  simp [h]

theorem bareValue_plain {c : UInt8} (rest : List UInt8) (h : isSpace c = false ∧ c ≠ backslash) :
    bareValue (c :: rest) = (c :: (bareValue rest).1, (bareValue rest).2) := by
  rw [bareValue.eq_def]
  simp [h.1, h.2]

/-- A bare value with white space behind it. -/
theorem bareValue_append {v : List UInt8} (rest : List UInt8)
    (h : ∀ c ∈ v, isSpace c = false ∧ c ≠ backslash) :
    bareValue (v ++ space :: rest) = (v, rest) := by
  induction v with
  | nil => exact bareValue_space rest (by decide)
  | cons c v ih =>
      have hrest := ih (fun x hx => h x (List.mem_cons_of_mem _ hx))
      rw [List.cons_append, bareValue_plain _ (h c List.mem_cons_self), hrest]

theorem bareValue_self {v : List UInt8} (h : ∀ c ∈ v, isSpace c = false ∧ c ≠ backslash) :
    bareValue v = (v, []) := by
  induction v with
  | nil => rfl
  | cons c v ih =>
      have hrest := ih (fun x hx => h x (List.mem_cons_of_mem _ hx))
      rw [bareValue_plain _ (h c List.mem_cons_self), hrest]

theorem value_eq_bareValue {c : UInt8} {text : List UInt8} (hspace : isSpace c = false)
    (hquote : c ≠ quote) : value (c :: text) = some (bareValue (c :: text)) := by
  simp [value, hspace, hquote]

/-- A bare value is read up to the white space behind it. -/
theorem value_append {v : List UInt8} (text : List UInt8) (h : Bare v) (hne : v ≠ []) :
    value (v ++ space :: text) = some (v, text) := by
  obtain ⟨c, rest, rfl⟩ := List.exists_cons_of_ne_nil hne
  have hquote : c ≠ quote := by simpa using h.2
  rw [List.cons_append, value_eq_bareValue (h.1 c List.mem_cons_self).2.1 hquote,
    ← List.cons_append, bareValue_append _ (fun x hx => (h.1 x hx).2)]

theorem value_self {v : List UInt8} (h : Bare v) : value v = some (v, []) := by
  cases v with
  | nil => rfl
  | cons c v =>
      have hquote : c ≠ quote := by simpa using h.2
      rw [value_eq_bareValue (h.1 c List.mem_cons_self).2.1 hquote,
        bareValue_self (fun x hx => (h.1 x hx).2)]

theorem join_cons_cons (k v : List UInt8) (next : Setting) (settings : List Setting) :
    join ((k, v) :: next :: settings)
      = k ++ equals :: (v ++ space :: join (next :: settings)) := by
  simp [join]

theorem keyword_append {k text : List UInt8} (h : Word k) :
    keyword (k ++ equals :: text) = some (k, text) := by
  have hbytes : ∀ c ∈ k, isKeywordByte c = true := by
    intro c hc
    obtain ⟨-, hspace, -, -, hequals⟩ := h.2 c hc
    simp [isKeywordByte, hspace, hequals]
  have hstop : isKeywordByte equals = false := by decide
  have hskip : isSpace equals = false := by decide
  simp [keyword, List.takeWhile_append_of_pos hbytes, List.dropWhile_append_of_pos hbytes, hstop,
    hskip]

/-- The keyword at the front of a joined text is read as it stands. -/
theorem settingsFrom_word {fuel : Nat} {k : List UInt8} (text : List UInt8) (hword : Word k)
    (hknown : known k = true) :
    settingsFrom known (fuel + 1) (k ++ equals :: text) =
      (value text).bind (fun p =>
        (settingsFrom known fuel p.2).map (fun settings => (k, p.1) :: settings)) := by
  obtain ⟨c, rest, rfl⟩ := List.exists_cons_of_ne_nil hword.1
  obtain ⟨-, hspace, -⟩ := hword.2 c List.mem_cons_self
  have hskip : ((c :: rest) ++ equals :: text).dropWhile isSpace
      = (c :: rest) ++ equals :: text := by
    simp [hspace]
  rw [settingsFrom, hskip]
  have hkeyword : keyword ((c :: rest) ++ equals :: text) = some (c :: rest, text) :=
    keyword_append hword
  rw [List.cons_append] at hkeyword ⊢
  simp only [hkeyword, Option.bind_eq_bind, Option.bind_some]
  cases value text with
  | none => rfl
  | some p => cases hrest : settingsFrom known fuel p.2 <;> simp [hknown, hrest]

theorem length_lt_join (settings : List Setting) :
    settings.length < (join settings).length + 1 := by
  have hcost : 2 * settings.length ≤ cost settings := by
    induction settings with
    | nil => simp
    | cons s settings ih =>
        obtain ⟨k, v⟩ := s
        rw [cost_cons, List.length_cons]
        omega
  have hbudget := budget_le (join settings)
  rw [budget_join] at hbudget
  omega

/-- Literal settings are read back as they were written. -/
theorem settingsFrom_join {settings : List Setting}
    (hkeys : ∀ s ∈ settings, Word s.1 ∧ known s.1 = true) (h : Literal settings) {fuel : Nat}
    (hfuel : settings.length < fuel) : settingsFrom known fuel (join settings) = some settings := by
  induction settings generalizing fuel with
  | nil =>
      obtain ⟨fuel, rfl⟩ := Nat.exists_eq_succ_of_ne_zero (Nat.ne_of_gt hfuel)
      rfl
  | cons s settings ih =>
      obtain ⟨k, v⟩ := s
      obtain ⟨fuel, rfl⟩ := Nat.exists_eq_succ_of_ne_zero (Nat.ne_of_gt (Nat.zero_lt_of_lt hfuel))
      obtain ⟨hword, hknown⟩ := hkeys (k, v) List.mem_cons_self
      have hrest := ih (fun s hs => hkeys s (List.mem_cons_of_mem _ hs))
      cases settings with
      | nil =>
          rw [join, settingsFrom_word v hword hknown, value_self h]
          have hdone := hrest trivial (Nat.lt_of_succ_lt_succ hfuel)
          rw [join] at hdone
          simp [hdone]
      | cons next settings =>
          obtain ⟨⟨hbare, hne⟩, hliteral⟩ := h
          rw [join_cons_cons, settingsFrom_word _ hword hknown, value_append _ hbare hne]
          simp [hrest hliteral (Nat.lt_of_succ_lt_succ hfuel)]

/-- An empty value before another setting swallows that setting. -/
theorem literal_of_settingsFrom {settings read : List Setting} {fuel : Nat}
    (hkeys : ∀ s ∈ settings, Word s.1 ∧ known s.1 = true) (hbare : ∀ s ∈ settings, Bare s.2)
    (hread : settingsFrom known fuel (join settings) = some read)
    (hvalues : ∀ k v w, (k, v) ∈ settings → (k, w) ∈ read → w = v) : Literal settings := by
  induction settings generalizing fuel read with
  | nil => trivial
  | cons s settings ih =>
      obtain ⟨k, v⟩ := s
      cases settings with
      | nil => exact hbare (k, v) List.mem_cons_self
      | cons next settings =>
          obtain ⟨hword, hknown⟩ := hkeys (k, v) List.mem_cons_self
          have hv := hbare (k, v) List.mem_cons_self
          obtain _ | fuel := fuel
          · cases hread
          rw [join_cons_cons, settingsFrom_word _ hword hknown] at hread
          obtain ⟨⟨w, text⟩, hvalue, hread⟩ := Option.bind_eq_some_iff.mp hread
          obtain ⟨rest, hrest, rfl⟩ := Option.map_eq_some_iff.mp hread
          have hw : w = v := hvalues k v w List.mem_cons_self List.mem_cons_self
          subst hw
          cases w with
          | nil =>
              -- the value begins with the keyword that follows
              obtain ⟨k', v'⟩ := next
              obtain ⟨hword', -⟩ := hkeys (k', v') (by simp)
              obtain ⟨c, k'', rfl⟩ := List.exists_cons_of_ne_nil hword'.1
              obtain ⟨-, hspace, hplain, hquote, -⟩ := hword'.2 c List.mem_cons_self
              obtain ⟨text', htext⟩ : ∃ text', join ((c :: k'', v') :: settings) = c :: text' := by
                cases settings <;> exact ⟨_, rfl⟩
              have hswallowed : value (space :: c :: text') = some (bareValue (c :: text')) := by
                simp [value, hspace, hquote, show isSpace space = true by decide]
              rw [List.nil_append, htext, hswallowed, bareValue_plain _ ⟨hspace, hplain⟩] at hvalue
              cases hvalue
          | cons c w =>
              rw [value_append _ hv (List.cons_ne_nil _ _)] at hvalue
              cases hvalue
              refine ⟨⟨hv, List.cons_ne_nil _ _⟩, ih
                (fun s hs => hkeys s (List.mem_cons_of_mem _ hs))
                (fun s hs => hbare s (List.mem_cons_of_mem _ hs)) hrest ?_⟩
              exact fun k v w hs hr =>
                hvalues k v w (List.mem_cons_of_mem _ hs) (List.mem_cons_of_mem _ hr)

/-! ## What a joined text means -/

theorem bare_of_literal {settings : List Setting} (h : Literal settings) :
    ∀ s ∈ settings, Bare s.2 := by
  induction settings with
  | nil => simp
  | cons s settings ih =>
      obtain ⟨k, v⟩ := s
      cases settings with
      | nil => exact List.forall_mem_singleton.mpr h
      | cons next settings =>
          intro s' hs'
          rcases List.mem_cons.mp hs' with rfl | hs'
          · exact h.1.1
          · exact ih h.2 s' hs'

theorem ne_zero_of_mem_join {settings : List Setting} (hkeys : ∀ s ∈ settings, Word s.1)
    (hbare : ∀ s ∈ settings, Bare s.2) : ∀ c ∈ join settings, c ≠ 0 := by
  induction settings with
  | nil => simp [join]
  | cons s settings ih =>
      obtain ⟨k, v⟩ := s
      have hk : ∀ c ∈ k, c ≠ 0 := fun c hc => ((hkeys (k, v) List.mem_cons_self).2 c hc).1
      have hv : ∀ c ∈ v, c ≠ 0 := fun c hc => ((hbare (k, v) List.mem_cons_self).1 c hc).1
      have hrest := ih (fun s hs => hkeys s (List.mem_cons_of_mem _ hs))
        (fun s hs => hbare s (List.mem_cons_of_mem _ hs))
      have hequals : equals ≠ 0 := by decide
      have hspace : space ≠ 0 := by decide
      intro c hc
      cases settings with
      | nil =>
          rw [join, List.mem_append, List.mem_cons] at hc
          rcases hc with hc | rfl | hc
          exacts [hk c hc, hequals, hv c hc]
      | cons next settings =>
          rw [join_cons_cons, List.mem_append, List.mem_cons, List.mem_append, List.mem_cons] at hc
          rcases hc with hc | rfl | hc | rfl | hc
          exacts [hk c hc, hequals, hv c hc, hspace, hrest c hc]

theorem mem_join_of_mem {settings : List Setting} {s : Setting} (hs : s ∈ settings) {c : UInt8}
    (hc : c ∈ s.2) : c ∈ join settings := by
  induction settings with
  | nil => cases hs
  | cons s' settings ih =>
      obtain ⟨k, v⟩ := s'
      cases settings with
      | nil =>
          rw [List.mem_singleton] at hs
          subst hs
          simp [join, hc]
      | cons next settings =>
          rw [join_cons_cons]
          rcases List.mem_cons.mp hs with rfl | hs
          · simp [hc]
          · simp [ih hs]

theorem mem_of_lookup {settings : List Setting} {k v : List UInt8}
    (h : lookup settings k = some v) : (k, v) ∈ settings := by
  obtain ⟨before, after, hsplit, -⟩ := List.lookup_eq_some_iff.mp h
  have hmem : (k, v) ∈ settings.reverse := by
    rw [hsplit]
    simp
  exact List.mem_reverse.mp hmem

/-- Among distinct keywords every setting holds. -/
theorem eq_of_mem_of_nodup {settings : List Setting} (h : (settings.map Prod.fst).Nodup)
    {k v w : List UInt8} (hv : (k, v) ∈ settings) (hw : (k, w) ∈ settings) : w = v :=
  congrArg Prod.snd (List.inj_on_of_nodup_map h hw hv rfl)

theorem lookup_of_mem {settings : List Setting} (h : (settings.map Prod.fst).Nodup)
    {k v : List UInt8} (hmem : (k, v) ∈ settings) : lookup settings k = some v := by
  cases hlookup : lookup settings k with
  | none =>
      have hne := List.lookup_eq_none_iff.mp hlookup (k, v) (List.mem_reverse.mpr hmem)
      simp at hne
  | some w => rw [eq_of_mem_of_nodup h hmem (mem_of_lookup hlookup)]

theorem cost_le_of_subperm {settings read : List Setting} (h : settings.Subperm read) :
    cost settings ≤ cost read := by
  obtain ⟨picked, hperm, hsub⟩ := h
  calc cost settings = cost picked := (hperm.map _).sum_eq.symm
    _ ≤ cost read := (hsub.map _).sum_le_sum (fun _ _ => Nat.zero_le _)

/-- A reading that gives every setting of `settings` and costs no more is those settings. -/
theorem perm_of_cost_le {settings read : List Setting} (h : (settings.map Prod.fst).Nodup)
    (hsub : settings ⊆ read) (hcost : cost read ≤ cost settings) : settings.Perm read := by
  have hsubperm := List.subperm_of_subset h.of_map hsub
  refine hsubperm.perm_of_length_le (Nat.le_of_not_lt fun hlt => ?_)
  obtain ⟨⟨k, v⟩, hmore⟩ := hsubperm.exists_of_length_lt hlt
  have hle := cost_le_of_subperm hmore
  rw [cost_cons] at hle
  omega

/-- The settings of distinct keywords are what their joined text means exactly if their values
are bare and none but the last is empty. -/
theorem join_means_iff {settings : List Setting}
    (hkeys : ∀ s ∈ settings, Word s.1 ∧ known s.1 = true)
    (hnodup : (settings.map Prod.fst).Nodup) :
    Means known (join settings) settings ↔ Literal settings := by
  constructor
  · rintro ⟨read, hparse, hlookup⟩
    unfold parse at hparse
    set text := (join settings).takeWhile (· != 0) with htext
    have hinitial : text <+: join settings := List.takeWhile_prefix _
    have hsub : settings ⊆ read := fun ⟨k, v⟩ hs =>
      mem_of_lookup ((hlookup k).trans (lookup_of_mem hnodup hs))
    -- the reading has every setting, and the text pays for no more than these
    have hread := settings_budget hparse
    have hjoin : budget text ≤ cost settings := by
      rw [← budget_join]
      exact budget_le_budget_iff.mpr hinitial.length_le
    have hperm := perm_of_cost_le hnodup hsub (hread.trans hjoin)
    have hcost : cost settings = cost read := (hperm.map _).sum_eq
    -- nothing is lost: the string has no zero byte, and its values are literal
    have hwhole : text = join settings := by
      have hbudget : budget (join settings) ≤ budget text := by
        rw [budget_join, hcost]
        exact hread
      exact hinitial.eq_of_length
        (le_antisymm hinitial.length_le (budget_le_budget_iff.mp hbudget))
    rw [hwhole] at hparse
    have hliteral := settings_eq_budget hparse (by rw [budget_join, hcost])
    have hzero : ∀ c ∈ join settings, c ≠ 0 := by
      intro c hc
      rw [← hwhole] at hc
      simpa using List.mem_takeWhile_imp hc
    refine literal_of_settingsFrom hkeys (fun s hs => ?_) hparse (fun k v w hs hr =>
      eq_of_mem_of_nodup hnodup hs (hperm.mem_iff.mpr hr))
    obtain ⟨hbytes, hquote⟩ := hliteral s (hsub hs)
    exact ⟨fun c hc => ⟨hzero c (mem_join_of_mem hs hc), hbytes c hc⟩, hquote⟩
  · intro hliteral
    have hzero := ne_zero_of_mem_join (fun s hs => (hkeys s hs).1) (bare_of_literal hliteral)
    have hwhole : (join settings).takeWhile (· != 0) = join settings := by
      rw [List.takeWhile_eq_self_iff]
      simpa using hzero
    refine ⟨settings, ?_, fun _ => rfl⟩
    unfold parse
    rw [hwhole]
    exact settingsFrom_join hkeys hliteral (length_lt_join settings)

end Joined

end Launcher.Lib.Conninfo
