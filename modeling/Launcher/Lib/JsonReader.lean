import Launcher.Lib.Json

set_option autoImplicit false

/-! # A reader of JSON texts

A recursive descent over the bytes, with fuel for the nesting. `read_complete` proves that it
reads every text of the grammar to the value the text denotes; a text therefore denotes one
value only (`denotes_unique`). It is what an assumption about a JSON library can be instantiated
with. -/

namespace Launcher.Lib.Json

/-! ## The reader -/

def skip (text : List UInt8) : List UInt8 := text.dropWhile isSpace

/-- The rest after the word, if the text starts with it. -/
def strip? (word text : List UInt8) : Option (List UInt8) :=
  if word.isPrefixOf text then some (text.drop word.length) else none

/-- The characters up to the closing quotation mark, and what follows it. -/
def readChars (raw : UInt8 → Bool) : List UInt8 → Option (List UInt8 × List UInt8)
  | [] => none
  | c :: t =>
      if c = quote then some ([], t)
      else if c = backslash then
        match t with
        | [] => none
        | e :: t =>
            if e = letterU then
              match t with
              | a :: b :: c :: d :: t =>
                  match codeUnit a b c d with
                  | none => none
                  | some n =>
                      if isHighSurrogate n then
                        match t with
                        | x :: y :: a' :: b' :: c' :: d' :: t =>
                            if x = backslash ∧ y = letterU then
                              match codeUnit a' b' c' d' with
                              | none => none
                              | some n' =>
                                  if isLowSurrogate n' then
                                    (readChars raw t).map
                                      (fun p => (encodeUtf8 (fromSurrogates n n') ++ p.1, p.2))
                                  else none
                            else none
                        | _ => none
                      else if isLowSurrogate n then none
                      else (readChars raw t).map (fun p => (encodeUtf8 n ++ p.1, p.2))
              | _ => none
            else
              match simpleEscape e with
              | none => none
              | some c => (readChars raw t).map (fun p => (c :: p.1, p.2))
      else if raw c then (readChars raw t).map (fun p => (c :: p.1, p.2))
      else none

def readDigits (text : List UInt8) : List UInt8 × List UInt8 :=
  (text.takeWhile isDigit, text.dropWhile isDigit)

def readFraction (text : List UInt8) : Option (List UInt8 × List UInt8) :=
  match text with
  | [] => some ([], [])
  | c :: t =>
      if c = 0x2e then
        let (ds, rest) := readDigits t
        if ds = [] then none else some (ds, rest)
      else some ([], c :: t)

def readExponent (text : List UInt8) : Option (Int × List UInt8) :=
  match text with
  | [] => some (0, [])
  | mark :: t =>
      if isExponentMark mark then
        let (negative, t) :=
          match t with
          | [] => (false, [])
          | c :: t =>
              if c = 0x2d then (true, t) else if c = 0x2b then (false, t) else (false, c :: t)
        let (ds, rest) := readDigits t
        if ds = [] then none else some (signed negative (digitsValue ds), rest)
      else some (0, mark :: t)

def readNumber (text : List UInt8) : Option (ℚ × List UInt8) := do
  let (negative, text) :=
    match text with
    | [] => (false, [])
    | c :: t => if c = 0x2d then (true, t) else (false, c :: t)
  let (whole, text) := readDigits text
  if whole = [] ∨ (whole.head? = some 0x30 ∧ whole ≠ [0x30]) then none
  else
    let (fraction, text) ← readFraction text
    let (exponent, text) ← readExponent text
    return (scaled (signed negative (digitsValue (whole ++ fraction)))
      (exponent - fraction.length), text)

mutual

def readValue (raw : UInt8 → Bool) : Nat → List UInt8 → Option (Json × List UInt8)
  | 0, _ => none
  | fuel + 1, text =>
      match skip text with
      | [] => none
      | c :: t =>
          if c = quote then (readChars raw t).map (fun p => (.string p.1, skip p.2))
          else if c = openBracket then
            match readElements raw fuel t with
            | some (es, rest) => some (.array es, skip rest)
            | none => (strip? [closeBracket] (skip t)).map (fun rest => (.array [], skip rest))
          else if c = openBrace then
            match readMembers raw fuel t with
            | some (ms, rest) => some (.object ms, skip rest)
            | none => (strip? [closeBrace] (skip t)).map (fun rest => (.object [], skip rest))
          else
            match strip? nullText (c :: t) with
            | some rest => some (.null, skip rest)
            | none =>
                match strip? trueText (c :: t) with
                | some rest => some (.bool true, skip rest)
                | none =>
                    match strip? falseText (c :: t) with
                    | some rest => some (.bool false, skip rest)
                    | none => (readNumber (c :: t)).map (fun p => (.number p.1, skip p.2))

/-- One element or more, up to the closing bracket. -/
def readElements (raw : UInt8 → Bool) : Nat → List UInt8 → Option (List Json × List UInt8)
  | 0, _ => none
  | fuel + 1, text =>
      match readValue raw fuel text with
      | some (j, c :: rest) =>
          if c = comma then (readElements raw fuel rest).map (fun p => (j :: p.1, p.2))
          else if c = closeBracket then some ([j], rest)
          else none
      | _ => none

/-- One member or more, up to the closing brace. -/
def readMembers (raw : UInt8 → Bool) :
    Nat → List UInt8 → Option (List (List UInt8 × Json) × List UInt8)
  | 0, _ => none
  | fuel + 1, text => do
      let text ← strip? [quote] (skip text)
      let (key, text) ← readChars raw text
      let text ← strip? [colon] (skip text)
      match readValue raw fuel text with
      | some (j, c :: rest) =>
          if c = comma then (readMembers raw fuel rest).map (fun p => ((key, j) :: p.1, p.2))
          else if c = closeBrace then some ([(key, j)], rest)
          else none
      | _ => none

end

/-- The value of a text, if it is one. -/
def read (raw : UInt8 → Bool) (text : List UInt8) : Option Json :=
  match readValue raw (2 * text.length) text with
  | some (j, []) => some j
  | _ => none

/-! ## Whitespace and words -/

theorem skip_space {w : List UInt8} (h : Space w) (t : List UInt8) : skip (w ++ t) = skip t := by
  induction w with
  | nil => rfl
  | cons c w ih =>
      have hc : isSpace c = true := h c List.mem_cons_self
      have hw : Space w := fun d hd => h d (List.mem_cons_of_mem c hd)
      rw [List.cons_append, skip, List.dropWhile_cons_of_pos hc]
      exact ih hw

theorem skip_cons {c : UInt8} (h : isSpace c = false) (t : List UInt8) :
    skip (c :: t) = c :: t := by
  rw [skip, List.dropWhile_cons_of_neg (by rw [h]; exact Bool.false_ne_true)]

theorem strip?_append (word t : List UInt8) : strip? word (word ++ t) = some t := by
  have hlead : word.isPrefixOf (word ++ t) = true := by
    rw [List.isPrefixOf_iff_prefix]
    exact List.prefix_append word t
  rw [strip?, hlead, if_pos rfl, List.drop_left]

theorem strip?_ne {c d : UInt8} (h : d ≠ c) (word t : List UInt8) :
    strip? (d :: word) (c :: t) = none := by
  simp [strip?, List.isPrefixOf, h]

/-! ## Strings -/

theorem readChars_complete {raw : UInt8 → Bool} {t s : List UInt8} (h : Chars raw t s)
    (rest : List UInt8) : readChars raw (t ++ quote :: rest) = some (s, rest) := by
  have hquote : backslash ≠ quote := by decide
  induction h with
  | nil =>
      rw [readChars.eq_def]
      simp
  | plain hraw hquote hbackslash _ ih =>
      rw [readChars.eq_def]
      simp [hquote, hbackslash, hraw, ih]
  | @escape e c t s h _ ih =>
      have hne : e ≠ letterU := by
        rintro rfl
        rw [show simpleEscape letterU = none by decide] at h
        cases h
      rw [readChars.eq_def]
      simp [hne, hquote, h, ih]
  | unicode h hhigh hlow _ ih =>
      rw [readChars.eq_def]
      simp [hquote, h, hhigh, hlow, ih]
  | surrogates h h' hhigh hlow _ ih =>
      rw [readChars.eq_def]
      simp [hquote, h, h', hhigh, hlow, ih]

/-! ## Numbers -/

/-- What follows cannot be read as more of a number. -/
def Ends (rest : List UInt8) : Prop :=
  ∀ c, rest.head? = some c → isDigit c = false ∧ c ≠ 0x2e ∧ isExponentMark c = false

theorem Ends.nil : Ends [] := fun _ h => by cases h

theorem Ends.cons {c : UInt8} (hdigit : isDigit c = false) (hdot : c ≠ 0x2e)
    (hmark : isExponentMark c = false) (t : List UInt8) : Ends (c :: t) := by
  intro d hd
  obtain rfl : c = d := Option.some.inj hd
  exact ⟨hdigit, hdot, hmark⟩

theorem Ends.space {w rest : List UInt8} (h : Space w) (hrest : Ends rest) : Ends (w ++ rest) := by
  cases w with
  | nil => exact hrest
  | cons c w =>
      have hspace : isSpace c = true := h c List.mem_cons_self
      simp only [isSpace, Bool.or_eq_true, beq_iff_eq] at hspace
      rcases hspace with ((rfl | rfl) | rfl) | rfl <;>
        exact Ends.cons (by decide) (by decide) (by decide) (w ++ rest)

theorem ne_of_isDigit {c d : UInt8} (h : isDigit c = true) (hd : isDigit d = false) : c ≠ d := by
  rintro rfl
  rw [h] at hd
  cases hd

theorem isExponentMark_spec {c : UInt8} (h : isExponentMark c = true) :
    isDigit c = false ∧ c ≠ 0x2e := by
  simp only [isExponentMark, Bool.or_eq_true, beq_iff_eq] at h
  rcases h with rfl | rfl <;> exact ⟨by decide, by decide⟩

theorem readDigits_append {ds rest : List UInt8} (h : ∀ c ∈ ds, isDigit c = true)
    (hrest : ∀ c, rest.head? = some c → isDigit c = false) :
    readDigits (ds ++ rest) = (ds, rest) := by
  induction ds with
  | nil =>
      cases rest with
      | nil => rfl
      | cons c t =>
          have hc : ¬isDigit c = true := by
            rw [hrest c rfl]
            exact Bool.false_ne_true
          rw [List.nil_append, readDigits, List.takeWhile_cons_of_neg hc,
            List.dropWhile_cons_of_neg hc]
  | cons c ds ih =>
      have hc : isDigit c = true := h c List.mem_cons_self
      have hds := ih (fun d hd => h d (List.mem_cons_of_mem c hd))
      rw [readDigits, Prod.mk.injEq] at hds
      rw [List.cons_append, readDigits, List.takeWhile_cons_of_pos hc,
        List.dropWhile_cons_of_pos hc, hds.1, hds.2]

theorem readFraction_complete {t fraction rest : List UInt8} (h : Fraction t fraction)
    (hrest : ∀ c, rest.head? = some c → isDigit c = false ∧ c ≠ 0x2e) :
    readFraction (t ++ rest) = some (fraction, rest) := by
  cases h with
  | absent =>
      cases rest with
      | nil => rfl
      | cons c t =>
          have hdot : c ≠ 0x2e := (hrest c rfl).2
          rw [List.nil_append, readFraction, if_neg hdot]
  | present hds =>
      rw [List.cons_append, readFraction, if_pos rfl,
        readDigits_append hds.2 (fun c hc => (hrest c hc).1)]
      simp [hds.1]

theorem readExponent_complete {t rest : List UInt8} {exponent : Int} (h : Exponent t exponent)
    (hrest : Ends rest) : readExponent (t ++ rest) = some (exponent, rest) := by
  have hdigits : ∀ {ds : List UInt8}, Digits ds → readDigits (ds ++ rest) = (ds, rest) :=
    fun hds => readDigits_append hds.2 (fun c hc => (hrest c hc).1)
  cases h with
  | absent =>
      cases rest with
      | nil => rfl
      | cons c t =>
          have hmark : isExponentMark c = false := (hrest c rfl).2.2
          simp [readExponent, hmark]
  | @unsigned mark ds hmark hds =>
      obtain ⟨c, ds', rfl⟩ := List.exists_cons_of_ne_nil hds.1
      have hdigit : isDigit c = true := hds.2 c List.mem_cons_self
      have hminus : c ≠ 0x2d := ne_of_isDigit hdigit (by decide)
      have hplus : c ≠ 0x2b := ne_of_isDigit hdigit (by decide)
      have hread := hdigits hds
      rw [List.cons_append] at hread
      simp [readExponent, hmark, hminus, hplus, hread, signed]
  | @plus mark ds hmark hds => simp [readExponent, hmark, hdigits hds, hds.1, signed]
  | @minus mark ds hmark hds => simp [readExponent, hmark, hdigits hds, hds.1, signed]

/-- What a number starts with. -/
theorem Number.head {t : List UInt8} {q : ℚ} (h : Number t q) (rest : List UInt8) :
    ∃ c t', t ++ rest = c :: t' ∧ (c = 0x2d ∨ isDigit c = true) := by
  cases h with
  | @mk whole fractionText fraction exponentText exponent negative hwhole hzero hfraction
      hexponent =>
      obtain ⟨c, ds, rfl⟩ := List.exists_cons_of_ne_nil hwhole.1
      have hdigit : isDigit c = true := hwhole.2 c List.mem_cons_self
      cases negative with
      | false =>
          exact ⟨c, ds ++ (fractionText ++ (exponentText ++ rest)), by simp, Or.inr hdigit⟩
      | true =>
          exact ⟨0x2d, c :: (ds ++ (fractionText ++ (exponentText ++ rest))), by simp, Or.inl rfl⟩

theorem Number.length_pos {t : List UInt8} {q : ℚ} (h : Number t q) : 0 < t.length := by
  obtain ⟨c, t', htext, _⟩ := h.head []
  rw [List.append_nil] at htext
  rw [htext, List.length_cons]
  omega

theorem Fraction.ends {t fraction rest : List UInt8} (h : Fraction t fraction)
    (hrest : ∀ c, rest.head? = some c → isDigit c = false) :
    ∀ c, (t ++ rest).head? = some c → isDigit c = false := by
  cases h with
  | absent => exact hrest
  | present _ =>
      intro c hc
      obtain rfl : 0x2e = c := Option.some.inj hc
      decide

theorem Exponent.ends {t rest : List UInt8} {exponent : Int} (h : Exponent t exponent)
    (hrest : Ends rest) : ∀ c, (t ++ rest).head? = some c → isDigit c = false ∧ c ≠ 0x2e := by
  cases h with
  | absent => exact fun c hc => ⟨(hrest c hc).1, (hrest c hc).2.1⟩
  | unsigned hmark _ =>
      intro c hc
      obtain rfl := Option.some.inj hc
      exact isExponentMark_spec hmark
  | plus hmark _ =>
      intro c hc
      obtain rfl := Option.some.inj hc
      exact isExponentMark_spec hmark
  | minus hmark _ =>
      intro c hc
      obtain rfl := Option.some.inj hc
      exact isExponentMark_spec hmark

theorem readNumber_complete {t rest : List UInt8} {q : ℚ} (h : Number t q) (hrest : Ends rest) :
    readNumber (t ++ rest) = some (q, rest) := by
  cases h with
  | @mk whole fractionText fraction exponentText exponent negative hwhole hzero hfraction
      hexponent =>
      have hexp := readExponent_complete hexponent hrest
      have hfrac := readFraction_complete hfraction (hexponent.ends hrest)
      have hint := readDigits_append hwhole.2
        (hfraction.ends (fun c hc => (hexponent.ends hrest c hc).1))
      have hok : ¬(whole = [] ∨ (whole.head? = some 0x30 ∧ whole ≠ [0x30])) := by
        rintro (hnil | ⟨hhead, hne⟩)
        · exact hwhole.1 hnil
        · exact hne (hzero hhead)
      obtain ⟨c, ds, rfl⟩ := List.exists_cons_of_ne_nil hwhole.1
      have hminus : c ≠ 0x2d := ne_of_isDigit (hwhole.2 c List.mem_cons_self) (by decide)
      rw [List.cons_append] at hint
      cases negative with
      | false =>
          simp only [Bool.false_eq_true, if_false, List.nil_append, List.append_assoc,
            List.cons_append, readNumber, hminus, hint, hok, hfrac, hexp, Option.bind_eq_bind,
            Option.bind_some]
          rfl
      | true =>
          simp only [if_true, List.append_assoc, List.cons_append, List.nil_append, readNumber,
            hint, hok, if_false, hfrac, hexp, Option.bind_eq_bind, Option.bind_some]
          rfl

/-! ## Values -/

section Values

variable {raw : UInt8 → Bool}

theorem readValue_space {w : List UInt8} (h : Space w) (n : Nat) (t : List UInt8) :
    readValue raw n (w ++ t) = readValue raw n t := by
  cases n with
  | zero => rfl
  | succ n => rw [readValue, readValue, skip_space h]

/-- Whatever follows, the text is read to the value. -/
def Reads (raw : UInt8 → Bool) (t : List UInt8) (j : Json) : Prop :=
  ∀ n rest, Ends rest → 2 * t.length ≤ n → readValue raw n (t ++ rest) = some (j, skip rest)

theorem Reads.before {t rest : List UInt8} {j : Json} (h : Reads raw t j) {n : Nat} {c : UInt8}
    (hc : c = comma ∨ c = closeBracket ∨ c = closeBrace) (hn : 2 * t.length ≤ n) :
    readValue raw n (t ++ c :: rest) = some (j, c :: rest) := by
  have hspace : isSpace c = false := by rcases hc with rfl | rfl | rfl <;> decide
  have hends : Ends (c :: rest) := by
    rcases hc with rfl | rfl | rfl <;> exact Ends.cons (by decide) (by decide) (by decide) rest
  rw [h n (c :: rest) hends hn, skip_cons hspace]

theorem readElements_complete {es : List (List UInt8 × Json)} (hne : es ≠ [])
    (h : ∀ e ∈ es, Reads raw e.1 e.2) (rest : List UInt8) :
    ∀ n, 2 * (commaSeparated (es.map Prod.fst)).length + 1 ≤ n →
      readElements raw n (commaSeparated (es.map Prod.fst) ++ closeBracket :: rest) =
        some (es.map Prod.snd, rest) := by
  induction es with
  | nil => exact absurd rfl hne
  | cons e es ih =>
      intro n hn
      have he : Reads raw e.1 e.2 := h e List.mem_cons_self
      obtain ⟨n, rfl⟩ : ∃ m, n = m + 1 := ⟨n - 1, by omega⟩
      cases es with
      | nil =>
          simp only [List.map_cons, List.map_nil, commaSeparated] at hn ⊢
          rw [readElements, he.before (Or.inr (Or.inl rfl)) (by omega)]
          rfl
      | cons e' es =>
          simp only [List.map_cons, commaSeparated, List.length_append, List.length_cons] at hn ⊢
          have hrest := ih (List.cons_ne_nil e' es) (fun x hx => h x (List.mem_cons_of_mem e hx))
            n (by simp only [List.map_cons]; omega)
          rw [List.map_cons] at hrest
          rw [List.append_assoc, List.cons_append, readElements,
            he.before (Or.inl rfl) (by omega)]
          simp only [if_true, hrest, Option.map_some]
          rfl

theorem readMember_complete {m : Member} (hkey : m.Keyed raw) (h : Reads raw m.valueText m.value)
    {n : Nat} {c : UInt8} (rest : List UInt8) (hc : c = comma ∨ c = closeBrace)
    (hn : 2 * m.text.length ≤ n) :
    readMembers raw (n + 1) (m.text ++ c :: rest) =
      if c = comma then (readMembers raw n rest).map (fun p => (m.pair :: p.1, p.2))
      else if c = closeBrace then some ([m.pair], rest) else none := by
  have hquote : ∀ t : List UInt8, strip? [quote] (skip (quote :: t)) = some t := fun t => by
    rw [skip_cons (by decide)]
    exact strip?_append [quote] t
  have hcolon : ∀ t : List UInt8, strip? [colon] (skip (colon :: t)) = some t := fun t => by
    rw [skip_cons (by decide)]
    exact strip?_append [colon] t
  have hvalue : readValue raw n (m.valueText ++ c :: rest) = some (m.value, c :: rest) := by
    refine h.before (hc.imp_right Or.inr) ?_
    rw [Member.text, List.length_append] at hn
    omega
  have htext : m.text ++ c :: rest = m.before ++ (quote :: (m.keyText ++
      (quote :: (m.after ++ (colon :: (m.valueText ++ c :: rest)))))) := by
    simp [Member.text, Member.lead]
  rw [htext, readMembers, skip_space hkey.before, hquote]
  simp only [Option.bind_eq_bind, Option.bind_some, readChars_complete hkey.key,
    skip_space hkey.after, hcolon, hvalue]
  rfl

theorem readMembers_complete {ms : List Member} (hne : ms ≠ []) (hkeys : ∀ m ∈ ms, m.Keyed raw)
    (h : ∀ m ∈ ms, Reads raw m.valueText m.value) (rest : List UInt8) :
    ∀ n, 2 * (commaSeparated (ms.map Member.text)).length + 1 ≤ n →
      readMembers raw n (commaSeparated (ms.map Member.text) ++ closeBrace :: rest) =
        some (ms.map Member.pair, rest) := by
  induction ms with
  | nil => exact absurd rfl hne
  | cons m ms ih =>
      intro n hn
      have hm : Reads raw m.valueText m.value := h m List.mem_cons_self
      have hkey : m.Keyed raw := hkeys m List.mem_cons_self
      obtain ⟨n, rfl⟩ : ∃ k, n = k + 1 := ⟨n - 1, by omega⟩
      cases ms with
      | nil =>
          simp only [List.map_cons, List.map_nil, commaSeparated] at hn ⊢
          rw [readMember_complete hkey hm rest (Or.inr rfl) (by omega)]
          rfl
      | cons m' ms =>
          simp only [List.map_cons, commaSeparated, List.length_append, List.length_cons] at hn ⊢
          have hrest := ih (List.cons_ne_nil m' ms)
            (fun x hx => hkeys x (List.mem_cons_of_mem m hx))
            (fun x hx => h x (List.mem_cons_of_mem m hx)) n (by simp only [List.map_cons]; omega)
          rw [List.map_cons] at hrest
          rw [List.append_assoc, List.cons_append,
            readMember_complete hkey hm _ (Or.inl rfl) (by omega), if_pos rfl, hrest]
          rfl

/-- A number starts with a sign or a digit, which starts nothing else. -/
theorem readValue_number {c : UInt8} (hc : c = 0x2d ∨ isDigit c = true) (n : Nat)
    (t : List UInt8) :
    readValue raw (n + 1) (c :: t) =
      (readNumber (c :: t)).map (fun p => (.number p.1, skip p.2)) := by
  have hne : ∀ d : UInt8, isDigit d = false → d ≠ 0x2d → c ≠ d := by
    rintro d hd hminus rfl
    rcases hc with hc | hc
    · exact hminus hc
    · rw [hd] at hc
      cases hc
  have hspace : isSpace c = false := by
    rw [Bool.eq_false_iff]
    intro h
    simp only [isSpace, Bool.or_eq_true, beq_iff_eq] at h
    rcases h with ((h | h) | h) | h <;> exact hne _ (by decide) (by decide) h
  rw [readValue, skip_cons hspace]
  simp only [hne quote (by decide) (by decide), hne openBracket (by decide) (by decide),
    hne openBrace (by decide) (by decide), if_false]
  rw [nullText, trueText, falseText, strip?_ne (hne 0x6e (by decide) (by decide)).symm,
    strip?_ne (hne 0x74 (by decide) (by decide)).symm,
    strip?_ne (hne 0x66 (by decide) (by decide)).symm]

theorem readElements_close {w : List UInt8} (h : Space w) (n : Nat) (rest : List UInt8) :
    readElements raw n (w ++ closeBracket :: rest) = none := by
  have hnumber : readNumber (closeBracket :: rest) = none := by
    rw [readNumber]
    rfl
  cases n with
  | zero => rfl
  | succ n =>
      rw [readElements, readValue_space h]
      cases n with
      | zero => rfl
      | succ n =>
          rw [readValue, skip_cons (by decide)]
          simp [quote, openBracket, openBrace, closeBracket, strip?, nullText, trueText,
            falseText] at hnumber ⊢
          rw [hnumber]
          rfl

theorem readMembers_close {w : List UInt8} (h : Space w) (n : Nat) (rest : List UInt8) :
    readMembers raw n (w ++ closeBrace :: rest) = none := by
  cases n with
  | zero => rfl
  | succ n =>
      rw [readMembers, skip_space h, skip_cons (by decide), strip?_ne (by decide)]
      rfl

/-- The reader reads a text whatever follows it. By the rules of the grammar. -/
theorem denotes_reads {t : List UInt8} {j : Json} (h : Denotes raw t j) : Reads raw t j := by
  have hword : ∀ word rest : List UInt8, strip? word (word ++ rest) = some rest := strip?_append
  induction h with
  | @space w t w' j h h' _ ih =>
      intro n rest hends hn
      simp only [List.length_append] at hn
      rw [List.append_assoc, List.append_assoc, readValue_space h,
        ih n (w' ++ rest) (hends.space h') (by omega), skip_space h']
  | null =>
      intro n rest _ hn
      obtain ⟨n, rfl⟩ : ∃ k, n = k + 1 := ⟨n - 1, by simp [nullText] at hn; omega⟩
      have hstrip := hword nullText rest
      rw [nullText, List.cons_append] at hstrip ⊢
      rw [readValue, skip_cons (by decide)]
      simp only [nullText, hstrip]
      rfl
  | true =>
      intro n rest _ hn
      obtain ⟨n, rfl⟩ : ∃ k, n = k + 1 := ⟨n - 1, by simp [trueText] at hn; omega⟩
      have hstrip := hword trueText rest
      rw [trueText, List.cons_append] at hstrip ⊢
      rw [readValue, skip_cons (by decide)]
      simp only [nullText, trueText, strip?_ne (show (0x6e : UInt8) ≠ 0x74 by decide), hstrip]
      rfl
  | false =>
      intro n rest _ hn
      obtain ⟨n, rfl⟩ : ∃ k, n = k + 1 := ⟨n - 1, by simp [falseText] at hn; omega⟩
      have hstrip := hword falseText rest
      rw [falseText, List.cons_append] at hstrip ⊢
      rw [readValue, skip_cons (by decide)]
      simp only [nullText, trueText, falseText, strip?_ne (show (0x6e : UInt8) ≠ 0x66 by decide),
        strip?_ne (show (0x74 : UInt8) ≠ 0x66 by decide), hstrip]
      rfl
  | number h =>
      intro n rest hends hn
      obtain ⟨c, t', htext, hc⟩ := h.head rest
      have hpos : 0 < _ := h.length_pos
      obtain ⟨n, rfl⟩ : ∃ k, n = k + 1 := ⟨n - 1, by omega⟩
      have hread := readNumber_complete h hends
      rw [htext] at hread ⊢
      rw [readValue_number hc, hread]
      rfl
  | string h =>
      intro n rest _ hn
      obtain ⟨n, rfl⟩ : ∃ k, n = k + 1 := ⟨n - 1, by simp at hn; omega⟩
      rw [List.cons_append, List.append_assoc, readValue, skip_cons (by decide)]
      simp only [if_true, List.singleton_append, readChars_complete h, Option.map_some]
  | @emptyArray w h =>
      intro n rest _ hn
      obtain ⟨n, rfl⟩ : ∃ k, n = k + 1 := ⟨n - 1, by simp at hn; omega⟩
      have hclose : strip? [closeBracket] (skip (w ++ closeBracket :: rest)) = some rest := by
        rw [skip_space h, skip_cons (by decide)]
        exact hword [closeBracket] rest
      rw [List.cons_append, List.append_assoc, readValue, skip_cons (by decide)]
      simp only [List.singleton_append, readElements_close h, hclose, Option.map_some]
      rfl
  | @array es hne _ ih =>
      intro n rest _ hn
      simp only [List.length_cons, List.length_append, List.length_nil] at hn
      obtain ⟨n, rfl⟩ : ∃ k, n = k + 1 := ⟨n - 1, by omega⟩
      have hread := readElements_complete hne ih rest n (by omega)
      rw [List.cons_append, List.append_assoc, readValue, skip_cons (by decide)]
      simp only [List.singleton_append, hread]
      rfl
  | @emptyObject w h =>
      intro n rest _ hn
      obtain ⟨n, rfl⟩ : ∃ k, n = k + 1 := ⟨n - 1, by simp at hn; omega⟩
      have hclose : strip? [closeBrace] (skip (w ++ closeBrace :: rest)) = some rest := by
        rw [skip_space h, skip_cons (by decide)]
        exact hword [closeBrace] rest
      rw [List.cons_append, List.append_assoc, readValue, skip_cons (by decide)]
      simp only [List.singleton_append, readMembers_close h, hclose, Option.map_some]
      rfl
  | @object ms hne hkeys _ ih =>
      intro n rest _ hn
      simp only [List.length_cons, List.length_append, List.length_nil] at hn
      obtain ⟨n, rfl⟩ : ∃ k, n = k + 1 := ⟨n - 1, by omega⟩
      have hread := readMembers_complete hne hkeys ih rest n (by omega)
      rw [List.cons_append, List.append_assoc, readValue, skip_cons (by decide)]
      simp only [List.singleton_append, hread]
      rfl

/-- **Every text of the grammar is read to the value it denotes.** -/
theorem read_complete {t : List UInt8} {j : Json} (h : Denotes raw t j) :
    read raw t = some j := by
  have hread := denotes_reads h (2 * t.length) [] Ends.nil (le_refl _)
  rw [List.append_nil] at hread
  rw [read, hread]
  rfl

theorem denotes_unique {t : List UInt8} {j j' : Json} (h : Denotes raw t j)
    (h' : Denotes raw t j') : j = j' := by
  have heq := (read_complete h).symm.trans (read_complete h')
  exact Option.some.inj heq

end Values

end Launcher.Lib.Json
