import Launcher.Lib.JsonReader

set_option autoImplicit false

/-! # JSON string tokens

Where a string token ends, whatever follows it, and what the characters between its quotation
marks look like. A writer that gives every byte string a token of its own characters
(`WritesChars`) is faithful: its tokens are read back, hold no control character, and none is
the beginning of another one. -/

namespace Launcher.Lib.Json

/-- The first quotation mark that no backslash stands in front of. -/
def closingQuote : List UInt8 → Option Nat
  | [] => none
  | c :: rest =>
      if c = quote then some 0
      else if c = backslash then
        match rest with
        | [] => none
        | _ :: rest => (closingQuote rest).map (· + 2)
      else (closingQuote rest).map (· + 1)

theorem closingQuote_quote (rest : List UInt8) : closingQuote (quote :: rest) = some 0 := by
  rw [closingQuote.eq_def]
  simp

theorem closingQuote_plain {c : UInt8} (hquote : c ≠ quote) (hbackslash : c ≠ backslash)
    (rest : List UInt8) : closingQuote (c :: rest) = (closingQuote rest).map (· + 1) := by
  rw [closingQuote.eq_def]
  simp [hquote, hbackslash]

theorem closingQuote_escape (e : UInt8) (rest : List UInt8) :
    closingQuote (backslash :: e :: rest) = (closingQuote rest).map (· + 2) := by
  rw [closingQuote.eq_def]
  simp [show backslash ≠ quote by decide]

/-- Four digits, which are no quotation marks and no control characters. -/
theorem digits_of_codeUnit {a b c d : UInt8} {n : Nat} (h : codeUnit a b c d = some n) :
    ∀ e ∈ [a, b, c, d], e ≠ quote ∧ e ≠ backslash ∧ 0x20 ≤ e := by
  have hdigit : ∀ {e : UInt8} {k : Nat}, hexValue? e = some k →
      e ≠ quote ∧ e ≠ backslash ∧ 0x20 ≤ e := by
    intro e k he
    refine ⟨?_, ?_, ?_⟩
    · rintro rfl
      cases he
    · rintro rfl
      cases he
    · unfold hexValue? at he
      simp only [UInt8.le_iff_toNat_le, UInt8.reduceToNat] at he ⊢
      split_ifs at he <;> omega
  unfold codeUnit at h
  cases ha : hexValue? a with
  | none => simp [ha] at h
  | some ka =>
      cases hb : hexValue? b with
      | none => simp [ha, hb] at h
      | some kb =>
          cases hc : hexValue? c with
          | none => simp [ha, hb, hc] at h
          | some kc =>
              cases hd : hexValue? d with
              | none => simp [ha, hb, hc, hd] at h
              | some kd =>
                  intro e he
                  simp only [List.mem_cons, List.not_mem_nil, or_false] at he
                  rcases he with rfl | rfl | rfl | rfl
                  · exact hdigit ha
                  · exact hdigit hb
                  · exact hdigit hc
                  · exact hdigit hd

theorem closingQuote_digits {digits : List UInt8}
    (h : ∀ e ∈ digits, e ≠ quote ∧ e ≠ backslash ∧ 0x20 ≤ e) (rest : List UInt8) :
    closingQuote (digits ++ rest) = (closingQuote rest).map (· + digits.length) := by
  induction digits with
  | nil => simp
  | cons e digits ih =>
      obtain ⟨hquote, hbackslash, -⟩ := h e List.mem_cons_self
      rw [List.cons_append, closingQuote_plain hquote hbackslash,
        ih (fun d hd => h d (List.mem_cons_of_mem e hd)), Option.map_map]
      rfl

section Characters

variable {raw : UInt8 → Bool} {t t' s s' : List UInt8}

/-- **The characters end where the token does.** -/
theorem Chars.closingQuote (h : Chars raw t s) (rest : List UInt8) :
    closingQuote (t ++ quote :: rest) = some t.length := by
  have hescape : ∀ (digits t : List UInt8),
      (∀ e ∈ digits, e ≠ quote ∧ e ≠ backslash ∧ 0x20 ≤ e) →
      Json.closingQuote (t ++ quote :: rest) = some t.length →
      Json.closingQuote (backslash :: letterU :: (digits ++ (t ++ quote :: rest)))
        = some (t.length + digits.length + 2) := by
    intro digits t hdigits hrest
    rw [closingQuote_escape, closingQuote_digits hdigits, hrest]
    rfl
  induction h with
  | nil => exact closingQuote_quote rest
  | plain hraw hquote hbackslash _ ih =>
      rw [List.cons_append, closingQuote_plain hquote hbackslash, ih]
      rfl
  | escape h _ ih =>
      rw [List.cons_append, List.cons_append, closingQuote_escape, ih]
      rfl
  | @unicode a b c d n t s h hhigh hlow _ ih =>
      exact hescape [a, b, c, d] t (digits_of_codeUnit h) ih
  | @surrogates a b c d a' b' c' d' n n' t s h h' hhigh hlow _ ih =>
      have hlast := hescape [a', b', c', d'] t (digits_of_codeUnit h') ih
      exact hescape [a, b, c, d] (backslash :: letterU :: a' :: b' :: c' :: d' :: t)
        (digits_of_codeUnit h) hlast

/-- With the RFC's own characters, none is a control character. -/
theorem Chars.printable (h : Chars unescaped t s) : ∀ c ∈ t, 0x20 ≤ c := by
  have hunicode : ∀ (digits t : List UInt8),
      (∀ e ∈ digits, e ≠ quote ∧ e ≠ backslash ∧ 0x20 ≤ e) → (∀ c ∈ t, 0x20 ≤ c) →
      ∀ c ∈ backslash :: letterU :: (digits ++ t), 0x20 ≤ c := by
    intro digits t hdigits ht c hc
    rcases List.mem_cons.mp hc with rfl | hc
    · decide
    · rcases List.mem_cons.mp hc with rfl | hc
      · decide
      · rcases List.mem_append.mp hc with hc | hc
        · exact (hdigits c hc).2.2
        · exact ht c hc
  induction h with
  | nil => exact fun c hc => by cases hc
  | plain hraw _ _ _ ih =>
      intro d hd
      rcases List.mem_cons.mp hd with rfl | hd
      · simp only [unescaped, Bool.and_eq_true, decide_eq_true_eq] at hraw
        exact hraw.1.1
      · exact ih d hd
  | @escape e c t s h _ ih =>
      have he : 0x20 ≤ e := by
        unfold simpleEscape at h
        split_ifs at h <;> subst_vars <;> decide
      intro d hd
      rcases List.mem_cons.mp hd with rfl | hd
      · decide
      · rcases List.mem_cons.mp hd with rfl | hd
        · exact he
        · exact ih d hd
  | @unicode a b c d n t s h hhigh hlow _ ih =>
      exact hunicode [a, b, c, d] t (digits_of_codeUnit h) ih
  | @surrogates a b c d a' b' c' d' n n' t s h h' hhigh hlow _ ih =>
      exact hunicode [a, b, c, d] _ (digits_of_codeUnit h)
        (hunicode [a', b', c', d'] t (digits_of_codeUnit h') ih)

theorem Chars.eq_of_same (h : Chars raw t s) (h' : Chars raw t s') : s = s' := by
  have hread := (readChars_complete h []).symm.trans (readChars_complete h' [])
  exact congrArg Prod.fst (Option.some.inj hread)

/-- **No token begins with another one.** -/
theorem Chars.eq_of_front (h : Chars raw t s) (h' : Chars raw t' s')
    (hle : quote :: (t ++ [quote]) <+: quote :: (t' ++ [quote])) : s = s' := by
  obtain ⟨rest, hrest⟩ := hle
  have htext : t ++ quote :: rest = t' ++ [quote] := by
    simpa using (List.cons.inj hrest).2
  have hlength : t.length = t'.length := by
    have hclose := h.closingQuote rest
    rw [htext, h'.closingQuote []] at hclose
    exact (Option.some.inj hclose).symm
  rw [(List.append_inj htext hlength).1] at h
  exact h.eq_of_same h'

end Characters

/-! ## Writers -/

/-- Every byte is written as characters that stand for it. -/
def WritesChars (raw : UInt8 → Bool) (write : UInt8 → List UInt8) : Prop :=
  ∀ (c : UInt8) (t s : List UInt8), Chars raw t s → Chars raw (write c ++ t) (c :: s)

theorem WritesChars.chars {raw : UInt8 → Bool} {write : UInt8 → List UInt8}
    (h : WritesChars raw write) (s : List UInt8) : Chars raw (s.flatMap write) s := by
  induction s with
  | nil => exact .nil
  | cons c s ih => exact h c _ _ ih

end Launcher.Lib.Json
