import Mathlib.Data.List.DropRight
import Mathlib.Tactic

set_option autoImplicit false

/-! # Words

The words of a text are its maximal runs of the characters that `p` admits; what stands between
two of them is of no account (`words_append_run`).

Two ways of writing the words down with one separator between them: `squeeze` writes the
separator as soon as a word ends, so that one may be left over at the end; `held` keeps it back
until the next word begins. Both come to `[sep].intercalate (words …)`. -/

namespace Launcher.Lib

variable {α β : Type} (p : α → Bool)

def words (text : List α) : List (List α) :=
  (text.splitOnP (fun c => !p c)).filter (fun word => !word.isEmpty)

/-! ## Trimming -/

section Trim

variable (q : α → Bool) (text : List α)

/-- Without what `q` admits at either end. -/
def trimmed : List α := (text.dropWhile q).rdropWhile q

theorem trimmed_trimmed : trimmed q (trimmed q text) = trimmed q text := by
  have hkept : (trimmed q text).dropWhile q = trimmed q text := by
    rw [List.dropWhile_eq_self_iff]
    intro hlen
    -- what is left of the right trim starts where the left trim stopped
    obtain ⟨rest, hrest⟩ : trimmed q text <+: text.dropWhile q := List.rdropWhile_prefix _ _
    have hlen' : 0 < (text.dropWhile q).length := by
      rw [← hrest, List.length_append]
      omega
    have hhead := List.dropWhile_get_zero_not q text hlen'
    have hget : (trimmed q text)[0] = (text.dropWhile q)[0] := by
      simp only [← hrest]
      exact (List.getElem_append_left hlen).symm
    rw [hget]
    exact hhead
  calc trimmed q (trimmed q text) = ((trimmed q text).dropWhile q).rdropWhile q := rfl
    _ = (trimmed q text).rdropWhile q := by rw [hkept]
    _ = trimmed q text := by rw [trimmed, List.rdropWhile_idempotent]

theorem exists_trimmed : ∃ front back, text = front ++ (trimmed q text ++ back) ∧
    (∀ c ∈ front, q c = true) ∧ ∀ c ∈ back, q c = true := by
  refine ⟨text.takeWhile q, (text.dropWhile q).rtakeWhile q, ?_, fun c hc => ?_, fun c hc => ?_⟩
  · rw [trimmed, List.rdropWhile_append_rtakeWhile, List.takeWhile_append_dropWhile]
  · exact List.mem_takeWhile_imp hc
  · exact List.mem_rtakeWhile_imp hc

end Trim

/-! ## Fields at fixed places -/

section Fields

variable (text : List α)

/-- A field of `width` from `offset` on, and what follows it. -/
theorem drop_eq_field (offset width : Nat) :
    text.drop offset = (text.drop offset).take width ++ text.drop (offset + width) := by
  rw [← List.drop_drop]
  exact (List.take_append_drop width (text.drop offset)).symm

variable {text}

/-- The last mark divides a list in one way. -/
theorem append_cons_inj_of_notMem {front front' back back' : List α} {mark : α}
    (h : mark ∉ back) (h' : mark ∉ back')
    (heq : front ++ mark :: back = front' ++ mark :: back') : front = front' ∧ back = back' := by
  have hside : ∀ {front front' back back' : List α}, mark ∉ back → (∃ a, front' = front ++ a ∧
      mark :: back = a ++ mark :: back') → front = front' ∧ back = back' := by
    rintro front front' back back' hback ⟨a, rfl, ha⟩
    -- a longer front would take the mark into the back
    cases a with
    | nil => exact ⟨(List.append_nil front).symm, (List.cons.inj ha).2⟩
    | cons c a =>
        refine absurd ?_ hback
        rw [(List.cons.inj ha).2]
        simp
  rcases List.append_eq_append_iff.mp heq with hleft | hright
  · exact hside h hleft
  · obtain ⟨hfront, hback⟩ := hside h' hright
    exact ⟨hfront.symm, hback.symm⟩

/-- The first mark. -/
theorem findIdx?_mark [DecidableEq α] {front : List α} {mark : α} (h : mark ∉ front)
    (back : List α) : (front ++ mark :: back).findIdx? (· == mark) = some front.length := by
  have hfront : ∀ c ∈ front, (c == mark) = false := by
    intro c hc
    rw [beq_eq_false_iff_ne]
    rintro rfl
    exact h hc
  rw [List.findIdx?_append, List.findIdx?_eq_none_iff.mpr hfront]
  simp [List.findIdx?_cons]

theorem of_findIdx?_mark [DecidableEq α] {text : List α} {mark : α} {i : Nat}
    (h : text.findIdx? (· == mark) = some i) :
    mark ∉ text.take i ∧ text = text.take i ++ mark :: text.drop (i + 1) := by
  obtain ⟨hlt, hat, hbefore⟩ := List.findIdx?_eq_some_iff_getElem.mp h
  constructor
  · intro hmem
    obtain ⟨k, hk, hget⟩ := List.getElem_of_mem hmem
    rw [List.length_take] at hk
    rw [List.getElem_take] at hget
    exact hbefore k (lt_of_lt_of_le hk (min_le_left _ _)) (beq_iff_eq.mpr hget)
  · rw [← beq_iff_eq.mp hat, List.cons_getElem_drop_succ, List.take_append_drop]

/-- A mark, and what follows it. -/
theorem drop_eq_mark {offset : Nat} {c : α} (h : text[offset]? = some c) :
    text.drop offset = c :: text.drop (offset + 1) := by
  obtain ⟨hlt, rfl⟩ := List.getElem?_eq_some_iff.mp h
  exact List.drop_eq_getElem_cons hlt

end Fields

/-! ## The words of a text -/

section Words

variable {p} {s t r word : List α} {c : α}

/-- A text is a run of word characters, or one that ends at a separator. -/
theorem words_induction {P : List α → Prop} (last : ∀ w, (∀ c ∈ w, p c = true) → P w)
    (more : ∀ w c t, (∀ d ∈ w, p d = true) → p c = false → P t → P (w ++ c :: t))
    (text : List α) : P text := by
  -- a run is carried along until a separator ends it
  have hrun : ∀ w, (∀ c ∈ w, p c = true) → P (w ++ text) := by
    induction text with
    | nil =>
        intro w hw
        rw [List.append_nil]
        exact last w hw
    | cons c text ih =>
        intro w hw
        cases hc : p c with
        | false => exact more w c text hw hc (ih [] (fun d hd => by cases hd))
        | true =>
            have hsnoc := ih (w ++ [c]) (fun d hd => by
              rcases List.mem_append.mp hd with hd | hd
              · exact hw d hd
              · rwa [List.mem_singleton.mp hd])
            rwa [List.append_assoc, List.singleton_append] at hsnoc
  exact hrun [] (fun c hc => by cases hc)

@[simp] theorem words_nil : words p [] = [] := by simp [words]

theorem words_append_cons (h : p c = false) (s t : List α) :
    words p (s ++ c :: t) = words p s ++ words p t := by
  rw [words, List.splitOnP_append_cons s t (by simpa using h), List.filter_append]
  rfl

theorem words_cons (h : p c = false) (t : List α) : words p (c :: t) = words p t := by
  have hsplit := words_append_cons h [] t
  rwa [words_nil, List.nil_append, List.nil_append] at hsplit

/-- A single word. -/
theorem words_word (hne : word ≠ []) (h : ∀ c ∈ word, p c = true) : words p word = [word] := by
  rw [words, List.splitOnP_eq_singleton (fun c hc => by simp [h c hc])]
  simp [hne]

theorem words_seps_append (h : ∀ c ∈ r, p c = false) (t : List α) :
    words p (r ++ t) = words p t := by
  induction r with
  | nil => rfl
  | cons c r ih =>
      rw [List.cons_append, words_cons (h c List.mem_cons_self)]
      exact ih (fun d hd => h d (List.mem_cons_of_mem c hd))

/-- **Between two words it does not matter what separates them.** -/
theorem words_append_run (hne : r ≠ []) (h : ∀ c ∈ r, p c = false) (s t : List α) :
    words p (s ++ r ++ t) = words p s ++ words p t := by
  cases r with
  | nil => exact absurd rfl hne
  | cons c r =>
      rw [List.append_assoc, List.cons_append, words_append_cons (h c List.mem_cons_self),
        words_seps_append (fun d hd => h d (List.mem_cons_of_mem c hd))]

theorem mem_words (h : word ∈ words p s) : word ≠ [] ∧ ∀ c ∈ word, p c = true := by
  have hrun : ∀ w, (∀ c ∈ w, p c = true) → word ∈ words p w →
      word ≠ [] ∧ ∀ c ∈ word, p c = true := by
    intro w hw hword
    cases w with
    | nil => cases hword
    | cons c w =>
        rw [words_word (List.cons_ne_nil c w) hw, List.mem_singleton] at hword
        rw [hword]
        exact ⟨List.cons_ne_nil c w, hw⟩
  induction s using words_induction (p := p) with
  | last w hw => exact hrun w hw h
  | more w c t hw hc ih =>
      rw [words_append_cons hc, List.mem_append] at h
      exact h.elim (hrun w hw) ih

theorem words_eq_nil_iff : words p s = [] ↔ ∀ c ∈ s, p c = false := by
  constructor
  · intro h
    induction s using words_induction (p := p) with
    | last w hw =>
        cases w with
        | nil => exact fun c hc => by cases hc
        | cons c w =>
            rw [words_word (List.cons_ne_nil c w) hw] at h
            cases h
    | more w c t hw hc ih =>
        rw [words_append_cons hc, List.append_eq_nil_iff] at h
        cases w with
        | nil =>
            rintro d (_ | ⟨_, hd⟩)
            · exact hc
            · exact ih h.2 d hd
        | cons d w =>
            rw [words_word (List.cons_ne_nil d w) hw] at h
            cases h.1
  · intro h
    have hseps := words_seps_append h []
    rwa [List.append_nil, words_nil] at hseps

/-- Characters may be rewritten one by one, if words stay words. -/
theorem words_map {q : β → Bool} {f : α → β} (h : ∀ c, q (f c) = p c) (s : List α) :
    words q (s.map f) = (words p s).map (List.map f) := by
  have hrun : ∀ w, (∀ c ∈ w, p c = true) → words q (w.map f) = (words p w).map (List.map f) := by
    intro w hw
    cases w with
    | nil => rfl
    | cons c w =>
        rw [words_word (List.cons_ne_nil c w) hw, words_word (by simp) (fun d hd => ?_)]
        · rfl
        · obtain ⟨e, he, rfl⟩ := List.mem_map.mp hd
          rw [h e]
          exact hw e he
  induction s using words_induction (p := p) with
  | last w hw => exact hrun w hw
  | more w c t hw hc ih =>
      rw [List.map_append, List.map_cons, words_append_cons (by rw [h c, hc]), hrun w hw, ih,
        words_append_cons hc, List.map_append]

/-- The words of words that were joined. -/
theorem words_intercalate {sep : α} (hsep : p sep = false) {ws : List (List α)}
    (h : ∀ w ∈ ws, w ≠ [] ∧ ∀ c ∈ w, p c = true) : words p ([sep].intercalate ws) = ws := by
  induction ws with
  | nil => exact words_nil
  | cons w ws ih =>
      obtain ⟨hne, hw⟩ := h w List.mem_cons_self
      cases ws with
      | nil => rw [List.intercalate_singleton, words_word hne hw]
      | cons w' ws =>
          rw [List.intercalate_cons_cons, List.append_assoc, List.singleton_append,
            words_append_cons hsep, words_word hne hw,
            ih (fun v hv => h v (List.mem_cons_of_mem w hv))]
          rfl

end Words

/-! ## Writing them down -/

section Squeeze

variable (f : α → β) (sep : β)

/-- `last` says that nothing has been written yet, or a separator was written last. -/
def squeeze : Bool → List α → List β
  | _, [] => []
  | last, c :: rest =>
      if p c then f c :: squeeze false rest
      else if last then squeeze true rest
      else sep :: squeeze true rest

variable {p f sep}

theorem squeeze_word {w : List α} (hw : ∀ c ∈ w, p c = true) (last : Bool) (t : List α) :
    squeeze p f sep last (w ++ t) = w.map f ++ squeeze p f sep (last && w.isEmpty) t := by
  induction w generalizing last with
  | nil => simp
  | cons c w ih =>
      rw [List.cons_append, squeeze, if_pos (hw c List.mem_cons_self),
        ih (fun d hd => hw d (List.mem_cons_of_mem c hd))]
      simp

theorem rdropWhile_append (q : β → Bool) (x y : List β) :
    (x ++ y).rdropWhile q
      = if y.rdropWhile q = [] then x.rdropWhile q else x ++ y.rdropWhile q := by
  have hnil : y.rdropWhile q = [] ↔ (y.reverse.dropWhile q).isEmpty = true := by
    rw [List.rdropWhile, List.reverse_eq_nil_iff, List.isEmpty_iff]
  rw [List.rdropWhile, List.reverse_append, List.dropWhile_append]
  by_cases h : (y.reverse.dropWhile q).isEmpty = true
  · rw [if_pos h, if_pos (hnil.mpr h)]
    rfl
  · rw [if_neg h, if_neg (fun hy => h (hnil.mp hy)), List.reverse_append, List.reverse_reverse]
    rfl

/-- **Without the separators at its end, the squeezed text is its words.** -/
theorem rdropWhile_squeeze [DecidableEq β] (hsep : ∀ c, p c = true → f c ≠ sep) (s : List α) :
    (squeeze p f sep true s).rdropWhile (· == sep)
      = [sep].intercalate ((words p s).map (List.map f)) := by
  have hkept : ∀ w : List α, (∀ c ∈ w, p c = true) →
      (w.map f).rdropWhile (· == sep) = w.map f := by
    intro w hw
    rw [List.rdropWhile_eq_self_iff]
    intro hne
    obtain ⟨c, hc, hlast⟩ := List.mem_map.mp (List.getLast_mem hne)
    rw [← hlast]
    simpa using hsep c (hw c hc)
  induction s using words_induction (p := p) with
  | last w hw =>
      have hend : squeeze p f sep true (w ++ []) =
          w.map f ++ squeeze p f sep (true && w.isEmpty) [] := squeeze_word hw true []
      rw [List.append_nil] at hend
      rw [hend, squeeze, List.append_nil, hkept w hw]
      cases w with
      | nil => rfl
      | cons c w =>
          rw [words_word (List.cons_ne_nil c w) hw, List.map_singleton,
            List.intercalate_singleton]
  | more w c t hw hc ih =>
      -- behind an empty run the separator is dropped, behind a word it is written
      rw [squeeze_word hw, words_append_cons hc, List.map_append]
      cases w with
      | nil =>
          rw [squeeze, if_neg (by simp [hc])]
          exact ih
      | cons d w =>
          rw [words_word (List.cons_ne_nil d w) hw, squeeze, if_neg (by simp [hc]),
            List.map_singleton, List.singleton_append]
          simp only [List.isEmpty_cons, Bool.and_false, Bool.false_eq_true, if_false]
          rw [show sep :: squeeze p f sep true t = [sep] ++ squeeze p f sep true t from rfl,
            rdropWhile_append, rdropWhile_append, ih]
          by_cases hnil : words p t = []
          · -- nothing but separators is left
            rw [hnil, List.map_nil, List.intercalate_nil, if_pos rfl,
              List.rdropWhile_singleton, if_pos (by simp), hkept _ hw, List.intercalate_singleton]
          · obtain ⟨v, vs, hvs⟩ := List.exists_cons_of_ne_nil hnil
            have hjoined : [sep].intercalate ((words p t).map (List.map f)) ≠ [] := by
              have hv : v ≠ [] := (mem_words (hvs ▸ List.mem_cons_self)).1
              rw [hvs, List.map_cons]
              cases vs with
              | nil => simpa using hv
              | cons v' vs => simp [List.intercalate_cons_cons, hv]
            rw [if_neg hjoined, if_neg (by simp),
              List.intercalate_cons_of_ne_nil (by simpa using hnil), List.append_assoc]

end Squeeze

section Held

variable (f : α → β) (sep : β)

/-- The state is whether a word has been written, and whether a separator is held back. -/
def advance (state : Bool × Bool) (c : α) : Bool × Bool :=
  if p c then (true, false) else (state.1, true)

def held (state : Bool × Bool) : List α → List β
  | [] => []
  | c :: rest =>
      (if p c then (if state.1 && state.2 then [sep] else []) ++ [f c] else []) ++
        held (advance p state c) rest

variable {p f sep}

theorem held_append (state : Bool × Bool) (s t : List α) :
    held p f sep state (s ++ t)
      = held p f sep state s ++ held p f sep (s.foldl (advance p) state) t := by
  induction s generalizing state with
  | nil => rfl
  | cons c s ih =>
      rw [List.cons_append, held, held, ih, List.append_assoc]
      rfl

theorem held_seps {r : List α} (hne : r ≠ []) (h : ∀ c ∈ r, p c = false) (state : Bool × Bool)
    (t : List α) : held p f sep state (r ++ t) = held p f sep (state.1, true) t := by
  induction r generalizing state with
  | nil => exact absurd rfl hne
  | cons c r ih =>
      have hc := h c List.mem_cons_self
      rw [List.cons_append, held, if_neg (by simp [hc]), List.nil_append, advance,
        if_neg (by simp [hc])]
      cases r with
      | nil => rfl
      | cons d r => exact ih (List.cons_ne_nil d r) (fun e he => h e (List.mem_cons_of_mem c he)) _

theorem held_word {w : List α} (hw : ∀ c ∈ w, p c = true) (t : List α) :
    held p f sep (true, false) (w ++ t) = w.map f ++ held p f sep (true, false) t := by
  induction w with
  | nil => rfl
  | cons c w ih =>
      have hc := hw c List.mem_cons_self
      rw [List.cons_append, held, if_pos hc, advance, if_pos hc,
        ih (fun d hd => hw d (List.mem_cons_of_mem c hd))]
      rfl

theorem mem_held {state : Bool × Bool} {s : List α} {c : β} (h : c ∈ held p f sep state s) :
    c = sep ∨ ∃ d ∈ s, p d = true ∧ c = f d := by
  induction s generalizing state with
  | nil => cases h
  | cons d s ih =>
      rw [held, List.mem_append] at h
      rcases h with h | h
      · cases hd : p d with
        | false =>
            rw [hd, if_neg (by simp)] at h
            cases h
        | true =>
            rw [hd, if_pos rfl, List.mem_append] at h
            rcases h with h | h
            · cases hboth : (state.1 && state.2) with
              | false =>
                  rw [hboth, if_neg (by simp)] at h
                  cases h
              | true =>
                  rw [hboth, if_pos rfl] at h
                  exact .inl (List.mem_singleton.mp h)
            · exact .inr ⟨d, List.mem_cons_self, hd, List.mem_singleton.mp h⟩
      · rcases ih h with hsep | ⟨e, he, hp, hc⟩
        · exact .inl hsep
        · exact .inr ⟨e, List.mem_cons_of_mem d he, hp, hc⟩

/-- A separator is written in front of a word only. -/
theorem held_getLast? (hsep : ∀ c, p c = true → f c ≠ sep) (state : Bool × Bool) (s : List α) :
    (held p f sep state s).getLast? ≠ some sep := by
  induction s generalizing state with
  | nil => simp [held]
  | cons c s ih =>
      rw [held, List.getLast?_append]
      cases hrest : (held p f sep (advance p state c) s).getLast? with
      | some d =>
          rw [Option.some_or, ← hrest]
          exact ih _
      | none =>
          rw [Option.none_or]
          cases hc : p c with
          | false => simp
          | true =>
              rw [if_pos rfl, List.getLast?_concat, ne_eq, Option.some.injEq]
              exact hsep c hc

/-- A separator that is held back is written if a word follows at once, and makes no difference
otherwise. -/
theorem held_pending (pending : Bool) (s : List α) :
    held p f sep (true, pending) s = if s.head?.any p then
      (if pending then [sep] else []) ++ held p f sep (true, false) s
    else held p f sep (true, true) s := by
  cases s with
  | nil => rfl
  | cons c s =>
      cases hc : p c with
      | true => cases pending <;> simp [held, advance, hc]
      | false => simp [held, advance, hc]

theorem foldl_advance {s : List α} {c : α} (state : Bool × Bool) (h : state.1 = true) :
    (s ++ [c]).foldl (advance p) state = (true, !p c) := by
  have hstarted : ∀ (s : List α) (state : Bool × Bool), state.1 = true →
      (s.foldl (advance p) state).1 = true := by
    intro s
    induction s with
    | nil => exact fun state h => h
    | cons d s ih =>
        intro state h
        refine ih (advance p state d) ?_
        unfold advance
        split_ifs
        · rfl
        · exact h
  rw [List.foldl_append, List.foldl_cons, List.foldl_nil, advance]
  cases hc : p c with
  | true => rfl
  | false =>
      rw [if_neg (by simp), hstarted s state h]
      rfl

theorem intercalate_eq_flatten (w : List β) (ws : List (List β)) :
    [sep].intercalate (w :: ws) = w ++ (ws.map (fun v => sep :: v)).flatten := by
  induction ws generalizing w with
  | nil => simp
  | cons v ws ih =>
      rw [List.intercalate_cons_cons, ih, List.map_cons, List.flatten_cons, List.append_assoc]
      rfl

theorem mem_intercalate {c : β} {ws : List (List β)} (h : c ∈ [sep].intercalate ws) :
    c = sep ∨ ∃ w ∈ ws, c ∈ w := by
  cases ws with
  | nil => cases h
  | cons w ws =>
      rw [intercalate_eq_flatten, List.mem_append] at h
      rcases h with h | h
      · exact .inr ⟨w, List.mem_cons_self, h⟩
      · obtain ⟨_, hpart, hc⟩ := List.mem_flatten.mp h
        obtain ⟨v, hv, rfl⟩ := List.mem_map.mp hpart
        rcases List.mem_cons.mp hc with rfl | hc
        · exact .inl rfl
        · exact .inr ⟨v, List.mem_cons_of_mem w hv, hc⟩

theorem mem_intercalate_of_mem {c : β} {w : List β} {ws : List (List β)} (hw : w ∈ ws)
    (hc : c ∈ w) : c ∈ [sep].intercalate ws := by
  cases ws with
  | nil => cases hw
  | cons first ws =>
      rw [intercalate_eq_flatten]
      rcases List.mem_cons.mp hw with rfl | hw
      · exact List.mem_append_left _ hc
      · refine List.mem_append_right _ (List.mem_flatten.mpr ⟨sep :: w, ?_, ?_⟩)
        · exact List.mem_map_of_mem hw
        · exact List.mem_cons_of_mem sep hc

/-- The first word is written without a separator in front, the others with one. -/
theorem held_eq (s : List α) :
    (∀ pending, held p f sep (false, pending) s
      = [sep].intercalate ((words p s).map (List.map f))) ∧
    held p f sep (true, true) s = ((words p s).map (fun w => sep :: w.map f)).flatten := by
  induction s using words_induction (p := p) with
  | last w hw =>
      cases w with
      | nil => exact ⟨fun _ => rfl, rfl⟩
      | cons c w =>
          have hc := hw c List.mem_cons_self
          have hrest : held p f sep (true, false) (w ++ []) =
              w.map f ++ held p f sep (true, false) [] :=
            held_word (fun d hd => hw d (List.mem_cons_of_mem c hd)) []
          rw [List.append_nil] at hrest
          rw [words_word (List.cons_ne_nil c w) hw]
          refine ⟨fun pending => ?_, ?_⟩
          · rw [held, if_pos hc, advance, if_pos hc, hrest]
            simp [held]
          · rw [held, if_pos hc, advance, if_pos hc, hrest]
            simp [held]
  | more w c t hw hc ih =>
      have hsep : ∀ state, held p f sep state (c :: t) = held p f sep (state.1, true) t := by
        intro state
        exact held_seps (List.cons_ne_nil c []) (fun d hd => by rwa [List.mem_singleton.mp hd])
          state t
      rw [words_append_cons hc]
      cases w with
      | nil =>
          rw [List.nil_append, words_nil, List.nil_append]
          exact ⟨fun pending => by rw [hsep, ih.1], by rw [hsep, ih.2]⟩
      | cons d w =>
          have hd := hw d List.mem_cons_self
          have hrest : held p f sep (true, false) (w ++ c :: t) =
              w.map f ++ held p f sep (true, false) (c :: t) :=
            held_word (fun e he => hw e (List.mem_cons_of_mem d he)) (c :: t)
          rw [words_word (List.cons_ne_nil d w) hw, List.singleton_append, List.cons_append]
          refine ⟨fun pending => ?_, ?_⟩
          · rw [held, if_pos hd, advance, if_pos hd, hrest, hsep, ih.2, List.map_cons,
              intercalate_eq_flatten, List.map_map]
            rfl
          · rw [held, if_pos hd, advance, if_pos hd, hrest, hsep, ih.2]
            simp

end Held

end Launcher.Lib
