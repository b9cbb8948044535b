import Launcher.Domain.Publishing
import Launcher.Lib.Patterns

set_option autoImplicit false

/-! # Slugs

`validateSlug` reads a slug with one flag, `slugify` makes one out of a title, and the table
`games` has a pattern for it (migration 0001). The three agree: a slug is one or more runs of
lower-case letters and digits with single hyphens between them, and `slugify` gives the words
of a title in this form, cut to the length a slug may have. -/

namespace Launcher

open Lib
open scoped Computability

/-- `[a-z0-9]`. -/
def isSlugCharacter (c : UInt8) : Bool := (0x61 ≤ c && c ≤ 0x7a) || isDigit c

/-- `games_slug_format`: `^[a-z0-9]+(-[a-z0-9]+)*$`. -/
def GAMES_SLUG_FORMAT : Language UInt8 :=
  atLeastOne (oneOf isSlugCharacter) * (char hyphen * atLeastOne (oneOf isSlugCharacter))∗

theorem mem_slugFormat {slug : Bytes} : slug ∈ GAMES_SLUG_FORMAT ↔
    ∃ parts : List Bytes, parts ≠ [] ∧ (∀ part ∈ parts, part ≠ [] ∧
      ∀ c ∈ part, isSlugCharacter c = true) ∧ slug = [hyphen].intercalate parts := by
  simp only [GAMES_SLUG_FORMAT, mem_separated, mem_atLeastOne_oneOf]

/-! ## Characters -/

theorem isSlugCharacter_toLower (c : UInt8) (h : isAlnum c = true) :
    isSlugCharacter (toLower c) = true := by
  simp only [isAlnum, isAlpha, isDigit, isSlugCharacter, toLower, Bool.or_eq_true,
    Bool.and_eq_true, decide_eq_true_eq, UInt8.le_iff_toNat_le] at h ⊢
  split_ifs with hupper
  · simp [UInt8.toNat_add] at *
    omega
  · simp at *
    omega

theorem isAlnum_of_isSlugCharacter (c : UInt8) (h : isSlugCharacter c = true) :
    isAlnum c = true ∧ toLower c = c := by
  simp only [isAlnum, isAlpha, isDigit, isSlugCharacter, toLower, Bool.or_eq_true,
    Bool.and_eq_true, decide_eq_true_eq, UInt8.le_iff_toNat_le] at h ⊢
  simp only [UInt8.reduceToNat] at h ⊢
  refine ⟨by omega, if_neg (by omega)⟩

theorem toLower_ne_hyphen {c : UInt8} (h : isAlnum c = true) : toLower c ≠ hyphen := by
  intro he
  have hslug := isSlugCharacter_toLower c h
  rw [he] at hslug
  exact absurd hslug (by decide)

/-! ## The scanner -/

section Scan

variable {slug x y w : Bytes} {b b' : Bool}

theorem scanSlug_append (x y : Bytes) (b : Bool) :
    scanSlug (x ++ y) b = (scanSlug x b).bind (fun b' => scanSlug y b') := by
  induction x generalizing b with
  | nil => rfl
  | cons c x ih =>
      rw [List.cons_append, scanSlug, scanSlug]
      split_ifs
      · exact ih false
      · exact ih true
      · rfl

theorem scanSlug_run (hw : ∀ c ∈ w, isSlugCharacter c = true) (b : Bool) :
    scanSlug w b = .ok (b && w.isEmpty) := by
  induction w generalizing b with
  | nil => simp [scanSlug]
  | cons c w ih =>
      have hc := hw c List.mem_cons_self
      rw [isSlugCharacter] at hc
      rw [scanSlug, if_pos hc, ih (fun d hd => hw d (List.mem_cons_of_mem c hd))]
      simp

/-- A slug does not begin with a hyphen. -/
theorem head_of_scanSlug {c : UInt8} (h : scanSlug (c :: y) true = .ok b') :
    isSlugCharacter c = true := by
  rw [scanSlug] at h
  split_ifs at h with hc hhyphen
  · exact hc
  · simp at hhyphen

/-- The flag is set behind a hyphen only. -/
theorem scanSlug_last {c : UInt8} (hc : c ≠ hyphen) (h : scanSlug (x ++ [c]) b = .ok b') :
    b' = false := by
  rw [scanSlug_append] at h
  cases hx : scanSlug x b with
  | error e =>
      rw [hx] at h
      cases h
  | ok d =>
      rw [hx] at h
      simp only [Except.bind, scanSlug] at h
      split_ifs at h with hrun hhyphen
      · exact (Except.ok.inj h).symm
      · simp [hc] at hhyphen

/-- Another character is read only if it is a hyphen behind a letter or a digit. -/
theorem scanSlug_cons_ok {c : UInt8} (hc : isSlugCharacter c = false)
    (h : scanSlug (c :: y) b = .ok b') :
    c = hyphen ∧ b = false ∧ scanSlug y true = .ok b' := by
  rw [isSlugCharacter] at hc
  rw [scanSlug, if_neg (by simp [hc])] at h
  split_ifs at h with hhyphen
  rw [Bool.and_eq_true, beq_iff_eq, Bool.not_eq_true'] at hhyphen
  exact ⟨hhyphen.1, hhyphen.2, h⟩

theorem scanSlug_hyphen (y : Bytes) : scanSlug (hyphen :: y) false = scanSlug y true := by
  rw [scanSlug, if_neg (by decide), if_pos (by decide)]

/-- What is read to the end without a hyphen there is its own words, joined. -/
theorem eq_intercalate_of_scanSlug (h : scanSlug slug true = .ok false) :
    words isSlugCharacter slug ≠ [] ∧
      slug = [hyphen].intercalate (words isSlugCharacter slug) := by
  induction slug using words_induction (p := isSlugCharacter) with
  | last w hw =>
      rw [scanSlug_run hw] at h
      have hne : w ≠ [] := by
        rintro rfl
        cases h
      rw [words_word hne hw]
      exact ⟨List.cons_ne_nil w [], List.intercalate_singleton.symm⟩
  | more w c t hw hc ih =>
      rw [scanSlug_append, scanSlug_run hw] at h
      -- behind a run the scanner takes a hyphen, and nothing else
      obtain ⟨rfl, hfirst, ht⟩ := scanSlug_cons_ok hc h
      have hne : w ≠ [] := by
        rintro rfl
        cases hfirst
      obtain ⟨hwords, hjoined⟩ := ih ht
      rw [words_append_cons hc, words_word hne hw, List.singleton_append,
        List.intercalate_cons_of_ne_nil hwords, ← hjoined]
      exact ⟨List.cons_ne_nil w _, by simp⟩

theorem scanSlug_intercalate {parts : List Bytes} (hne : parts ≠ [])
    (h : ∀ part ∈ parts, part ≠ [] ∧ ∀ c ∈ part, isSlugCharacter c = true) (b : Bool) :
    scanSlug ([hyphen].intercalate parts) b = .ok false := by
  induction parts generalizing b with
  | nil => exact absurd rfl hne
  | cons part parts ih =>
      obtain ⟨hpart, hrun⟩ := h part List.mem_cons_self
      have hread : scanSlug part b = .ok false := by
        rw [scanSlug_run hrun, List.isEmpty_eq_false_iff.mpr hpart, Bool.and_false]
      cases parts with
      | nil => rw [List.intercalate_singleton, hread]
      | cons next parts =>
          rw [List.intercalate_cons_cons, List.append_assoc, scanSlug_append, hread]
          show scanSlug (hyphen :: _) false = _
          rw [scanSlug_hyphen]
          exact ih (List.cons_ne_nil next parts)
            (fun x hx => h x (List.mem_cons_of_mem part hx)) true

/-- **The scanner reads the pattern of the table.** -/
theorem scanSlug_iff : scanSlug slug true = .ok false ↔ slug ∈ GAMES_SLUG_FORMAT := by
  rw [mem_slugFormat]
  constructor
  · intro h
    obtain ⟨hne, hjoined⟩ := eq_intercalate_of_scanSlug h
    exact ⟨_, hne, fun part hpart => mem_words hpart, hjoined⟩
  · rintro ⟨parts, hne, hparts, rfl⟩
    exact scanSlug_intercalate hne hparts true

theorem validateSlug_ok : validateSlug slug = .ok () ↔
    scanSlug slug true = .ok false ∧ slug.length ≤ MAX_SLUG_LENGTH := by
  unfold validateSlug checkLength
  cases slug with
  | nil => exact iff_of_false (by simp) (by simp [scanSlug])
  | cons c rest =>
      rw [if_neg (by simp)]
      by_cases hlength : MAX_SLUG_LENGTH < (c :: rest).length
      · rw [if_pos hlength]
        exact iff_of_false (by simp [bind, Except.bind]) (by omega)
      · rw [if_neg hlength]
        cases hscan : scanSlug (c :: rest) true with
        | error e => exact iff_of_false (by simp [bind, Except.bind]) (by simp)
        | ok b =>
            cases b with
            | true => exact iff_of_false (by simp [bind, Except.bind]) (by simp)
            | false => exact iff_of_true rfl ⟨rfl, by omega⟩

end Scan

/-! ## Titles -/

section Titles

variable {title slug : Bytes}

/-- The loop of `slugify`, from what it has written so far. -/
theorem foldl_slugify (title out : Bytes) :
    title.foldl (fun slug c =>
        if isAlnum c then slug ++ [toLower c]
        else if !slug.isEmpty && slug.getLast? != some hyphen then slug ++ [hyphen]
        else slug) out
      = out ++ squeeze isAlnum toLower hyphen (out.isEmpty || out.getLast? == some hyphen)
          title := by
  induction title generalizing out with
  | nil => simp [squeeze]
  | cons c title ih =>
      rw [List.foldl_cons, ih, squeeze]
      cases hc : isAlnum c with
      | true =>
          have hlast : (toLower c == hyphen) = false := by
            simpa using toLower_ne_hyphen hc
          have hwritten : (out ++ [toLower c]).isEmpty = false := by simp
          simp [hlast, hwritten]
      | false =>
          by_cases hend : out.isEmpty || out.getLast? == some hyphen
          -- a separator in front of everything, or behind a hyphen, is dropped
          · have hkeep : ¬ (!out.isEmpty && out.getLast? != some hyphen) = true := by
              simp only [bne, ← Bool.not_or, hend]
              simp
            rw [if_neg (by simp), if_neg hkeep, hend]
            simp
          -- behind a word it becomes the hyphen
          · have hwrite : (!out.isEmpty && out.getLast? != some hyphen) = true := by
              simp only [bne, ← Bool.not_or]
              simpa using hend
            rw [if_neg (by simp), if_pos hwrite]
            simp [hend]

/-- The words of a title in lower case, with hyphens between them. -/
def hyphenated (title : Bytes) : Bytes :=
  [hyphen].intercalate ((words isAlnum title).map (List.map toLower))

theorem slugify_eq (title : Bytes) :
    slugify title = if MAX_SLUG_LENGTH < (hyphenated title).length then
      withoutTrailingHyphens ((hyphenated title).take MAX_SLUG_LENGTH)
    else hyphenated title := by
  have hloop : withoutTrailingHyphens (squeeze isAlnum toLower hyphen true title)
      = hyphenated title := rdropWhile_squeeze (fun c hc => toLower_ne_hyphen hc) title
  have hfold := foldl_slugify title []
  rw [List.nil_append] at hfold
  unfold slugify
  simp only [hfold]
  rw [show (([] : Bytes).isEmpty || [].getLast? == some hyphen) = true from rfl, hloop]

theorem scanSlug_hyphenated (h : words isAlnum title ≠ []) :
    scanSlug (hyphenated title) true = .ok false := by
  refine scanSlug_intercalate (by simpa using h) (fun part hpart => ?_) true
  obtain ⟨word, hword, rfl⟩ := List.mem_map.mp hpart
  obtain ⟨hne, hrun⟩ := mem_words hword
  refine ⟨by simpa using hne, fun c hc => ?_⟩
  obtain ⟨d, hd, rfl⟩ := List.mem_map.mp hc
  exact isSlugCharacter_toLower d (hrun d hd)

/-- Cut anywhere behind its first character, a slug without the hyphens at its end is one. -/
theorem scanSlug_cut (h : scanSlug slug true = .ok false) {n : Nat} (hn : 0 < n) :
    scanSlug (withoutTrailingHyphens (slug.take n)) true = .ok false := by
  have hfront : ∀ x y, scanSlug (x ++ y) true = .ok false → ∃ b, scanSlug x true = .ok b := by
    intro x y hxy
    rw [scanSlug_append] at hxy
    cases hx : scanSlug x true with
    | error e =>
        rw [hx] at hxy
        cases hxy
    | ok b => exact ⟨b, rfl⟩
  show scanSlug ((slug.take n).rdropWhile (· == hyphen)) true = .ok false
  generalize hkept : (slug.take n).rdropWhile (· == hyphen) = kept
  have hsplit : kept ++ ((slug.take n).rtakeWhile (· == hyphen) ++ slug.drop n) = slug := by
    rw [← hkept, ← List.append_assoc, List.rdropWhile_append_rtakeWhile, List.take_append_drop]
  -- the front of a slug is read without an error, to some flag
  obtain ⟨b, hb⟩ := hfront kept _ (by rw [hsplit, h])
  rcases List.eq_nil_or_concat kept with rfl | ⟨front, c, rfl⟩
  · -- the first character stays
    cases slug with
    | nil => cases h
    | cons c rest =>
        obtain ⟨m, rfl⟩ := Nat.exists_eq_add_of_lt hn
        rw [List.rdropWhile_eq_nil_iff] at hkept
        have hc := hkept c (by simp)
        rw [beq_iff_eq] at hc
        have hfirst := head_of_scanSlug h
        rw [hc] at hfirst
        exact absurd hfirst (by decide)
  · rw [List.concat_eq_append] at hkept hb ⊢
    -- what is left does not end in a hyphen, so the flag is down
    have hc : c ≠ hyphen := by
      have hlast := List.rdropWhile_last_not (· == hyphen) (slug.take n)
        (by rw [hkept]; simp)
      simpa [hkept] using hlast
    rw [hb, scanSlug_last hc hb]

/-- What `slugify` makes of a title is empty or a slug, and a slug stays what it is. -/
theorem slugify_nil_or_ok (title : Bytes) :
    slugify title = [] ∨ validateSlug (slugify title) = .ok () := by
  by_cases hnone : words isAlnum title = []
  · left
    simp [slugify_eq, hyphenated, hnone]
  · right
    have hscan := scanSlug_hyphenated hnone
    rw [validateSlug_ok, slugify_eq]
    split_ifs with hlong
    · refine ⟨scanSlug_cut hscan (by decide), ?_⟩
      have hcut : ((hyphenated title).take MAX_SLUG_LENGTH).length ≤ MAX_SLUG_LENGTH :=
        List.length_take_le _ _
      exact (List.rdropWhile_prefix (· == hyphen) _).length_le.trans hcut
    · exact ⟨hscan, by omega⟩

theorem not_isAlnum_of_slugify (h : slugify title = []) : ∀ c ∈ title, isAlnum c = false := by
  rw [← words_eq_nil_iff]
  by_contra hne
  have hscan := scanSlug_hyphenated hne
  rw [slugify_eq] at h
  split_ifs at h with hlong
  · have hcut := scanSlug_cut hscan (n := MAX_SLUG_LENGTH) (by decide)
    rw [h] at hcut
    cases hcut
  · rw [h] at hscan
    cases hscan

theorem hyphenated_slug (h : scanSlug slug true = .ok false) : hyphenated slug = slug := by
  obtain ⟨parts, hne, hparts, rfl⟩ := mem_slugFormat.mp (scanSlug_iff.mp h)
  have hsame : ∀ part ∈ parts, part.map toLower = part := by
    intro part hpart
    have hlower : ∀ c ∈ part, toLower c = c :=
      fun c hc => (isAlnum_of_isSlugCharacter c ((hparts part hpart).2 c hc)).2
    rw [List.map_congr_left hlower, List.map_id']
  rw [hyphenated, words_intercalate (by decide) (fun part hpart => ⟨(hparts part hpart).1,
    fun c hc => (isAlnum_of_isSlugCharacter c ((hparts part hpart).2 c hc)).1⟩),
    List.map_congr_left hsame, List.map_id']

theorem slugify_slug (h : validateSlug slug = .ok ()) : slugify slug = slug := by
  obtain ⟨hscan, hlength⟩ := validateSlug_ok.mp h
  rw [slugify_eq, hyphenated_slug hscan, if_neg (by omega)]

/-- **One grammar**: the validator, the generator and the constraint of the table have the same
slugs. -/
theorem slugs_have_one_grammar :
    (∀ slug, validateSlug slug = .ok () ↔
      slug ∈ GAMES_SLUG_FORMAT ∧ slug.length ≤ MAX_SLUG_LENGTH) ∧
    (∀ title, slugify title = [] ∨ validateSlug (slugify title) = .ok ()) ∧
    (∀ title, slugify title = [] → ∀ c ∈ title, isAlnum c = false) ∧
    (∀ slug, validateSlug slug = .ok () → slugify slug = slug) ∧
    ∀ title, slugify (slugify title) = slugify title := by
  refine ⟨fun slug => ?_, slugify_nil_or_ok, fun title => not_isAlnum_of_slugify,
    fun slug => slugify_slug, fun title => ?_⟩
  · rw [validateSlug_ok, scanSlug_iff]
  · rcases slugify_nil_or_ok title with hnil | hok
    · rw [hnil]
      rfl
    · exact slugify_slug hok

end Titles

end Launcher
