import Launcher.Deployment.TextLengths
import Launcher.Lib.Characters
import Launcher.Lib.Like
import Launcher.Lib.Listings
import Launcher.Storefront.Lookups

set_option autoImplicit false

/-! # Searching for a title

The text of a search is put between two wildcards of `ILIKE` as it is. Where it has no character
with a meaning of its own there, the search finds what the documentation says: the titles that
contain it, in any case. Where it has one there is a title that is found and does not contain it,
unless every such title is too long for the table (`explore_finds_iff`). -/

namespace Launcher.Deployment

open Lib Storefront

/-- `%`, `_` and the backslash. -/
def likeMarks : Like.Marks Bytes where
  many := ascii "%"
  one := ascii "_"
  escape := ascii "\\"
  many_ne_one := by decide
  many_ne_escape := by decide
  one_ne_escape := by decide

/-- `title ILIKE '%' || search || '%'` of PostgreSQL on two texts that it takes: both sides are
folded to one case a character at a time, which makes no mark and loses none, and `LIKE` compares
what is left. A text is valid UTF-8 without a zero character. -/
structure IlikeFolds (env : Storefront.Env) (fold : Bytes → Bytes) : Prop where
  acceptsText : ∀ text, env.core.acceptsText text = true ↔ Utf8.valid text = true ∧ 0 ∉ text
  ilike : ∀ title search, env.core.acceptsText title = true → env.core.acceptsText search = true →
    Like.like likeMarks
      ((ascii "%" :: Utf8.characters search ++ [ascii "%"]).map fold)
      ((Utf8.characters title).map fold) = some (env.ilike title search)
  many : ∀ c, fold c = likeMarks.many ↔ c = likeMarks.many
  one : ∀ c, fold c = likeMarks.one ↔ c = likeMarks.one
  escape : ∀ c, fold c = likeMarks.escape ↔ c = likeMarks.escape

/-- The title has the text in it, in any case. -/
def Contains (fold : Bytes → Bytes) (title search : Bytes) : Prop :=
  (Utf8.characters search).map fold <:+: (Utf8.characters title).map fold

instance (fold : Bytes → Bytes) (title search : Bytes) :
    Decidable (Contains fold title search) := by
  unfold Contains
  infer_instance

/-- What the table has for a title: a text, of a length within `games_title_length`. -/
def TitlesFit (env : Storefront.Env) (s : Storefront.State) : Prop :=
  ∀ game ∈ s.core.games.rows, env.core.acceptsText (s.gameColumns game.id).title = true ∧
    GAMES_TITLE_LENGTH (s.gameColumns game.id).title

/-- The games to be found: the public ones with the text in the title. -/
def wanted (fold : Bytes → Bytes) (s : Storefront.State) (search : Bytes) : List GameRecord :=
  (s.core.games.rows.filter (fun game => game.visibility == .Public &&
    decide (Contains fold (s.gameColumns game.id).title search))).map s.readGame

/-- The answer to each page is the same in number, and enough pages have every game that is to be
found, each once, and no other. -/
def FindsTyped (env : Storefront.Env) (fold : Bytes → Bytes) (actor : Actor) (s : Storefront.State)
    (search : Bytes) : Prop :=
  ∀ query : GameQuery, query.search = search → ∃ pages : Nat → List GameRecord,
    (∀ k : Nat, (explore actor { query with offset := k * query.clamped.limit }).Wp
      (Storefront.exec env) (fun r s' => s' = s ∧
        r = .ok { items := pages k, total := (wanted fold s search).length }) s) ∧
    ∀ n : Nat, (wanted fold s search).length ≤ n * query.clamped.limit →
      ((List.range n).flatMap pages).Perm (wanted fold s search)

/-! ## What explore answers -/

section Explore

variable {env : Storefront.Env} {actor : Actor} {s : Storefront.State}

/-- The query that explore makes of the one it is given. -/
def explored (query : GameQuery) : GameQuery :=
  { query.clamped with includeUnpublished := false, publisherUserId := none }

/-- The rows of all its pages. -/
def found (env : Storefront.Env) (s : Storefront.State) (query : GameQuery) : List GameRecord :=
  (s.core.games.rows.filter (s.admits env (explored query))).map s.readGame

theorem admits_explored (query : GameQuery) (game : Game) :
    s.admits env (explored query) game = (game.visibility == .Public &&
      (query.search.isEmpty || env.ilike (s.gameColumns game.id).title query.search)) := by
  simp [State.admits, explored, GameQuery.clamped]

theorem acceptsAll_explored (query : GameQuery) :
    State.acceptsAll env [(explored query).search] = env.core.acceptsText query.search := by
  simp [State.acceptsAll, explored, GameQuery.clamped]

/-- What explore answers, run alone. -/
theorem explore_wp (hread : actor.can .GAME_READ = true) (query : GameQuery) :
    (explore actor query).Wp (Storefront.exec env) (fun r s' => s' = s ∧
      r = if env.core.acceptsText query.search then
          .ok { items := window query.clamped.limit.toNat query.clamped.offset.toNat
                  (State.sortGames env query.sort (found env s query))
                total := (found env s query).length }
        else .error (.threw .characterNotInRepertoire)) s := by
  have hexplore : explore actor query = Storefront.search (explored query) := by
    unfold explore demand
    rw [hread]
    rfl
  rw [hexplore]
  unfold Storefront.search
  refine Program.wp_bind.mpr (statement_wp (fun _ => rfl) ?_)
  unfold State.searchGames
  rw [acceptsAll_explored]
  cases haccepts : env.core.acceptsText query.search with
  | false => exact ⟨rfl, rfl⟩
  | true =>
      refine Program.wp_bind.mpr (statement_wp (fun _ => rfl) ?_)
      unfold State.countGames
      rw [acceptsAll_explored, haccepts]
      refine ⟨rfl, ?_⟩
      simp only [if_true, found, List.length_map]
      rfl

end Explore

/-! ## The list it is a page of -/

section Found

variable {env : Storefront.Env} {fold : Bytes → Bytes} {actor : Actor} {s : Storefront.State}

theorem clamped_limit_pos (query : GameQuery) : 0 < query.clamped.limit := by
  simp [GameQuery.clamped]

/-- The page with number `k`, the first one being 0. -/
def pageOf (env : Storefront.Env) (s : Storefront.State) (query : GameQuery) (k : Nat) :
    List GameRecord :=
  window query.clamped.limit.toNat (k * query.clamped.limit.toNat)
    (State.sortGames env query.sort (found env s query))

/-- Explore, asked for that page. -/
theorem explore_page (hread : actor.can .GAME_READ = true) (query : GameQuery) (k : Nat) :
    (explore actor { query with offset := k * query.clamped.limit }).Wp (Storefront.exec env)
      (fun r s' => s' = s ∧ r = if env.core.acceptsText query.search then
          .ok { items := pageOf env s query k, total := (found env s query).length }
        else .error (.threw .characterNotInRepertoire)) s := by
  refine (explore_wp hread _).mono (fun r s' h => ⟨h.1, h.2.trans ?_⟩)
  rw [pageOf, ← offset_toNat (clamped_limit_pos query)]
  rfl

/-- Enough pages have what was found. -/
theorem pages_perm {query : GameQuery} {n : Nat}
    (h : ((found env s query).length : Int) ≤ n * query.clamped.limit) :
    ((List.range n).flatMap (pageOf env s query)).Perm (found env s query) := by
  have hsorted : (State.sortGames env query.sort (found env s query)).Perm (found env s query) :=
    List.perm_insertionSort _ _
  rw [← hsorted.length_eq] at h
  unfold pageOf
  rw [pages_all_signed (clamped_limit_pos query) h]
  exact hsorted

theorem mem_found {query : GameQuery} {game : Game} (hgame : game ∈ s.core.games.rows) :
    s.readGame game ∈ found env s query ↔ game.visibility = .Public ∧
      (query.search.isEmpty || env.ilike (s.gameColumns game.id).title query.search) = true := by
  have hinj : Function.Injective s.readGame := fun _ _ h => congrArg GameRecord.toGame h
  rw [found, List.mem_map_of_injective hinj, List.mem_filter, admits_explored, Bool.and_eq_true,
    beq_iff_eq]
  exact and_iff_right hgame

theorem mem_wanted {search : Bytes} {game : Game} (hgame : game ∈ s.core.games.rows) :
    s.readGame game ∈ wanted fold s search ↔ game.visibility = .Public ∧
      Contains fold (s.gameColumns game.id).title search := by
  have hinj : Function.Injective s.readGame := fun _ _ h => congrArg GameRecord.toGame h
  rw [wanted, List.mem_map_of_injective hinj, List.mem_filter, Bool.and_eq_true, beq_iff_eq,
    decide_eq_true_eq]
  exact and_iff_right hgame

/-- Explore finds what was typed if it takes the text and the database's search agrees. -/
theorem findsTyped_iff (hread : actor.can .GAME_READ = true) (search : Bytes) :
    FindsTyped env fold actor s search ↔ env.core.acceptsText search = true ∧
      ∀ game ∈ s.core.games.rows, game.visibility = .Public →
        ((search.isEmpty || env.ilike (s.gameColumns game.id).title search) = true ↔
          Contains fold (s.gameColumns game.id).title search) := by
  constructor
  · intro h
    let query : GameQuery := { search := search }
    obtain ⟨pages, hpages, hall⟩ := h query rfl
    have hlimit := clamped_limit_pos query
    -- every page that is promised is the page that explore answers
    have hanswer : ∀ k, env.core.acceptsText search = true ∧ pages k = pageOf env s query k := by
      intro k
      obtain ⟨r, s', ⟨-, hr⟩, -, hr'⟩ := ((hpages k).and (explore_page hread query k)).exists
      cases haccepts : env.core.acceptsText query.search with
      | false =>
          rw [haccepts, hr] at hr'
          cases hr'
      | true =>
          rw [haccepts, hr] at hr'
          exact ⟨rfl, congrArg GamePage.items (Except.ok.inj hr')⟩
    refine ⟨(hanswer 0).1, fun game hgame hpublic => ?_⟩
    -- as many pages as both lists have rows
    let n := (found env s query).length + (wanted fold s search).length
    have hn : (n : Int) ≤ n * query.clamped.limit :=
      le_mul_of_one_le_right (Int.natCast_nonneg n) (by omega)
    have hwanted := hall n ((Int.ofNat_le.mpr (Nat.le_add_left _ _)).trans hn)
    rw [funext (fun k => (hanswer k).2)] at hwanted
    have hfound := pages_perm ((Int.ofNat_le.mpr (Nat.le_add_right _ _)).trans hn)
    have hsame := hfound.symm.trans hwanted
    have hmem := hsame.mem_iff (a := s.readGame game)
    rw [mem_found hgame, mem_wanted hgame] at hmem
    simpa [hpublic] using hmem
  · rintro ⟨haccepts, hagrees⟩ query hquery
    subst hquery
    have hfound : found env s query = wanted fold s query.search := by
      unfold found wanted
      refine congrArg _ (List.filter_congr (fun game hgame => ?_))
      rw [admits_explored, Bool.eq_iff_iff]
      simp only [Bool.and_eq_true, beq_iff_eq, decide_eq_true_eq]
      exact and_congr_right (hagrees game hgame)
    refine ⟨pageOf env s query, fun k => ?_, fun n hn => ?_⟩
    · refine (explore_page hread query k).mono (fun r s' h => ⟨h.1, ?_⟩)
      rw [h.2, haccepts, hfound]
      exact if_pos rfl
    · rw [← hfound] at hn ⊢
      exact pages_perm hn

end Found

/-! ## The order -/

section Order

variable {env : Storefront.Env} {s : Storefront.State}

theorem newestFirst_level {a b : GameRecord} (h : State.newestFirst a b = true)
    (h' : State.newestFirst b a = true) : a.id = b.id := by
  simp only [State.newestFirst, Bool.or_eq_true, Bool.and_eq_true, decide_eq_true_eq,
    beq_iff_eq] at h h'
  refine BitVec.eq_of_toNat_eq ?_
  omega

/-- Every `ORDER BY` ends in the id. -/
theorem gameLe_level {sort : GameSort} {a b : GameRecord} (h : State.gameLe env sort a b = true)
    (h' : State.gameLe env sort b a = true) : a.id = b.id := by
  cases sort with
  | RecentlyAdded => exact newestFirst_level h h'
  | Title =>
      simp only [State.gameLe] at h h'
      -- level titles are both before the other
      cases hab : env.core.collation (env.lower a.title) (env.lower b.title) with
      | false =>
          rw [hab] at h
          cases h
      | true =>
          cases hba : env.core.collation (env.lower b.title) (env.lower a.title) with
          | false =>
              rw [hba] at h'
              cases h'
          | true =>
              rw [hab, hba] at h h'
              exact newestFirst_level h h'
  | ReleaseDate =>
      simp only [State.gameLe] at h h'
      -- dates that differ are not level, and one that is empty is last
      by_cases hdate : a.releaseDate = b.releaseDate
      · rw [if_pos hdate] at h
        rw [if_pos hdate.symm] at h'
        exact newestFirst_level h h'
      · rw [if_neg hdate] at h
        rw [if_neg (Ne.symm hdate)] at h'
        cases ha : a.releaseDate.isEmpty with
        | true =>
            rw [ha] at h
            cases h
        | false =>
            cases hb : b.releaseDate.isEmpty with
            | true =>
                rw [hb] at h'
                cases h'
            | false =>
                rw [ha, hb] at h h'
                exact absurd (of_decide_eq_true h) (List.lt_asymm (of_decide_eq_true h'))

/-- The pages of two queries are pages of one list: whatever list of what was found keeps to the
`ORDER BY`, there is no other. -/
theorem order_unique {query : GameQuery} {games games' : List GameRecord}
    (h : OrderedBy (fun a b => State.gameLe env query.sort a b = true) (found env s query) games)
    (h' : OrderedBy (fun a b => State.gameLe env query.sort a b = true) (found env s query)
      games') :
    games = games' := by
  refine OrderedBy.unique (fun a ha b hb hab hba => ?_) h h'
  obtain ⟨game, hgame, rfl⟩ := List.mem_map.mp ha
  obtain ⟨game', hgame', rfl⟩ := List.mem_map.mp hb
  exact congrArg s.readGame (Table.eq_of_key_eq (List.mem_of_mem_filter hgame)
    (List.mem_of_mem_filter hgame') (gameLe_level hab hba))

end Order

/-! ## What the pattern finds -/

section Pattern

variable {env : Storefront.Env} {fold : Bytes → Bytes} {title search : Bytes}

/-- The tokens of a search, behind the wildcard in front. -/
def searchTokens (fold : Bytes → Bytes) (search : Bytes) : List (Like.Token Bytes) :=
  Like.closed likeMarks ((Utf8.characters search).map fold)

theorem ilike_iff (h : IlikeFolds env fold) (htitle : env.core.acceptsText title = true)
    (hsearch : env.core.acceptsText search = true) : env.ilike title search = true ↔
      Like.Token.matches (.many :: searchTokens fold search)
        ((Utf8.characters title).map fold) = true := by
  have hlike := h.ilike title search htitle hsearch
  rw [List.cons_append, List.map_cons, List.map_append, List.map_singleton,
    show fold (ascii "%") = likeMarks.many from (h.many _).mpr rfl] at hlike
  have hclosed := Like.like_closed (m := likeMarks) ((Utf8.characters search).map fold)
    ((Utf8.characters title).map fold)
  rw [List.cons_append] at hclosed
  rw [← Option.some.inj (hclosed.symm.trans hlike)]
  rfl

/-- Folding makes no mark and loses none. -/
theorem plain_map_iff (h : IlikeFolds env fold) (text : List Bytes) :
    likeMarks.Plain (text.map fold) ↔ likeMarks.Plain text := by
  have hmark : ∀ mark : Bytes, (∀ c, fold c = mark ↔ c = mark) →
      (mark ∈ text.map fold ↔ mark ∈ text) := by
    intro mark hfold
    rw [List.mem_map]
    simp only [hfold, exists_eq_right]
  unfold Like.Marks.Plain
  rw [hmark _ h.many, hmark _ h.one, hmark _ h.escape]

theorem weight_map (h : IlikeFolds env fold) (text : List Bytes) :
    Like.weight (Like.closed likeMarks (text.map fold)) =
      Like.weight (Like.closed likeMarks text) := by
  rw [← Like.length_shortest (fold []) (Like.closed likeMarks (text.map fold)),
    ← Like.length_shortest [] (Like.closed likeMarks text),
    Like.shortest_closed_map h.many h.one h.escape, List.length_map]

end Pattern

/-- How many characters a title needs at least that the search finds: `%` stands for none, a
backslash and what it escapes for one. -/
def charactersNeeded (search : Bytes) : Nat :=
  Like.weight (Like.closed likeMarks (Utf8.characters search))

/-- No character of the search has a meaning in a pattern. -/
def NoWildcard (search : Bytes) : Prop := likeMarks.Plain (Utf8.characters search)

instance (search : Bytes) : Decidable (NoWildcard search) := by
  unfold NoWildcard
  infer_instance

section Agrees

variable {env : Storefront.Env} {fold : Bytes → Bytes} {title search : Bytes}

theorem contains_nil : Contains fold title [] := List.nil_infix

theorem ilike_iff_of_noWildcard (h : IlikeFolds env fold)
    (htitle : env.core.acceptsText title = true) (hsearch : env.core.acceptsText search = true)
    (hplain : NoWildcard search) : env.ilike title search = true ↔ Contains fold title search :=
  (ilike_iff h htitle hsearch).trans (Like.matches_plain_iff ((plain_map_iff h _).mpr hplain))

/-- Where every title found needs more characters than there are, none is found, and the text
typed is too long as well. -/
theorem not_found_of_long (h : IlikeFolds env fold)
    (htitle : env.core.acceptsText title = true) (hsearch : env.core.acceptsText search = true)
    (hlong : (Utf8.characters title).length < charactersNeeded search) :
    ¬env.ilike title search = true ∧ ¬Contains fold title search := by
  constructor
  · intro hfound
    have hneeded := Like.weight_le_length ((ilike_iff h htitle hsearch).mp hfound)
    rw [Like.weight, searchTokens, weight_map h, List.length_map] at hneeded
    exact absurd hneeded (not_le.mpr hlong)
  · intro hcontains
    have hlength := hcontains.length_le
    rw [List.length_map, List.length_map] at hlength
    have hneeded : charactersNeeded search ≤ _ := Like.weight_closed_le (Utf8.characters search)
    omega

/-- With a wildcard in it, the text is not in the shortest text that its pattern matches. Where
this is empty, a letter takes its place. -/
theorem exists_matched_not_infix (h : IlikeFolds env fold) (hwild : ¬NoWildcard search) :
    ∃ title : List Bytes,
      (∀ c ∈ title, c = ascii "x" ∨ c = likeMarks.many ∨ c ∈ Utf8.characters search) ∧
      title.length = max 1 (charactersNeeded search) ∧
      Like.Token.matches (.many :: searchTokens fold search) (title.map fold) = true ∧
      ¬(Utf8.characters search).map fold <:+: title.map fold := by
  let base := Like.shortest (ascii "x") (Like.closed likeMarks (Utf8.characters search))
  have hletter : likeMarks.Plain [fold (ascii "x")] := (plain_map_iff h [ascii "x"]).mpr (by decide)
  have hfolded : ¬likeMarks.Plain ((Utf8.characters search).map fold) :=
    mt (plain_map_iff h _).mp hwild
  have hbase : Like.shortest (fold (ascii "x")) (searchTokens fold search) = base.map fold :=
    Like.shortest_closed_map h.many h.one h.escape (ascii "x") _
  have hlength : base.length = charactersNeeded search := Like.length_shortest (ascii "x") _
  have hmatches : Like.Token.matches (searchTokens fold search) (base.map fold) = true := by
    rw [← hbase]
    exact Like.matches_shortest _ _
  -- a title has a character
  by_cases hnil : base = []
  · rw [hnil] at hlength hmatches
    refine ⟨[ascii "x"], fun c hc => .inl (List.mem_singleton.mp hc), ?_, ?_, ?_⟩
    · rw [← hlength]
      rfl
    · exact Like.matches_many.mpr ⟨[], List.nil_suffix, hmatches⟩
    · exact mt hletter.of_infix hfolded
  · refine ⟨base, fun c hc => Like.mem_shortest hc, ?_, ?_, ?_⟩
    · have hpos := List.length_pos_of_ne_nil hnil
      omega
    · exact Like.matches_many.mpr ⟨_, List.suffix_rfl, hmatches⟩
    · rw [← hbase]
      exact Like.not_infix_shortest hfolded hletter

/-- So the search finds a title that does not contain it. -/
theorem exists_found_not_contains (h : IlikeFolds env fold)
    (hsearch : env.core.acceptsText search = true) (hwild : ¬NoWildcard search) :
    ∃ title, env.core.acceptsText title = true ∧
      Utf8.charLength title = max 1 (charactersNeeded search) ∧
      env.ilike title search = true ∧ ¬Contains fold title search := by
  obtain ⟨hvalid, hzero⟩ := (h.acceptsText search).mp hsearch
  obtain ⟨title, hchars, hlength, hmatches, hcontains⟩ := exists_matched_not_infix h hwild
  have hcharacter : ∀ c ∈ title, Utf8.IsCharacter c ∧ Utf8.valid c = true ∧ 0 ∉ c := by
    intro c hc
    rcases hchars c hc with rfl | rfl | hc
    · exact ⟨⟨0x78, [], by decide, by decide, by simp⟩, by decide, by decide⟩
    · exact ⟨⟨0x25, [], by decide, by decide, by simp⟩, by decide, by decide⟩
    · obtain ⟨hcharacter, hvalid, hbytes⟩ := Utf8.mem_characters hvalid hc
      exact ⟨hcharacter, hvalid, fun hmem => hzero (hbytes 0 hmem)⟩
  -- the characters are valid by themselves, so they are the characters of their text
  have hcut : Utf8.characters title.flatten = title :=
    Utf8.characters_flatten (fun c hc => (hcharacter c hc).1)
  have haccepts : env.core.acceptsText title.flatten = true := by
    refine (h.acceptsText _).mpr ⟨Utf8.valid_flatten (fun c hc => (hcharacter c hc).2.1), ?_⟩
    intro hmem
    obtain ⟨c, hc, hmem⟩ := List.mem_flatten.mp hmem
    exact (hcharacter c hc).2.2 hmem
  refine ⟨title.flatten, haccepts, ?_, ?_, ?_⟩
  · rw [← Utf8.length_characters, hcut, hlength]
  · rw [ilike_iff h haccepts hsearch, hcut]
    exact hmatches
  · rw [Contains, hcut]
    exact hcontains

end Agrees

/-- A catalog with one public game of this title. -/
def shelf (title : Bytes) : Storefront.State :=
  { Storefront.Demo.empty with
    core := { Storefront.Demo.empty.core with
      games := Table.empty.insert ⟨4, ascii "game", 1, .Public⟩ }
    gameColumns := fun _ => { Storefront.Demo.noColumns with title := title } }

theorem shelf_titlesFit {env : Storefront.Env} {title : Bytes}
    (haccepts : env.core.acceptsText title = true) (hlength : GAMES_TITLE_LENGTH title) :
    TitlesFit env (shelf title) := fun _ _ => ⟨haccepts, hlength⟩

/-- **When explore finds exactly what was typed.** -/
theorem explore_finds_iff {env : Storefront.Env} {fold : Bytes → Bytes} (h : IlikeFolds env fold)
    {actor : Actor} (hread : actor.can .GAME_READ = true) (search : Bytes) :
    (∀ s, TitlesFit env s → FindsTyped env fold actor s search) ↔
      env.core.acceptsText search = true ∧
        (NoWildcard search ∨ 200 < charactersNeeded search) := by
  constructor
  · intro hfinds
    have haccepts := ((findsTyped_iff hread search).mp
      (hfinds Storefront.Demo.empty (fun game hgame => by cases hgame))).1
    refine ⟨haccepts, or_iff_not_imp_left.mpr (fun hwild => not_le.mp (fun hshort => ?_))⟩
    -- a catalog whose one game has the title that is found by mistake
    obtain ⟨title, htitle, hlength, hfound, hcontains⟩ := exists_found_not_contains h haccepts hwild
    have hfit : TitlesFit env (shelf title) :=
      shelf_titlesFit htitle (by unfold GAMES_TITLE_LENGTH; omega)
    have hagrees := ((findsTyped_iff hread search).mp (hfinds (shelf title) hfit)).2
      ⟨4, ascii "game", 1, .Public⟩ List.mem_cons_self rfl
    exact hcontains (hagrees.mp (Bool.or_eq_true_iff.mpr (.inr hfound)))
  · rintro ⟨haccepts, hcondition⟩ s hfit
    refine (findsTyped_iff hread search).mpr ⟨haccepts, fun game hgame _ => ?_⟩
    obtain ⟨htitle, -, hlength⟩ := hfit game hgame
    rw [← Utf8.length_characters] at hlength
    -- an empty search leaves the title out
    cases hempty : search.isEmpty with
    | true =>
        rw [List.isEmpty_iff.mp hempty]
        exact iff_of_true rfl contains_nil
    | false =>
        rw [Bool.false_or]
        rcases hcondition with hplain | hlong
        · exact ilike_iff_of_noWildcard h htitle haccepts hplain
        · obtain ⟨hnot, hnot'⟩ := not_found_of_long h htitle haccepts (by omega)
          exact iff_of_false hnot hnot'

section Demo

open Storefront.Demo (carol)

/-- Every byte in lower case. -/
def lowerCharacter (c : Bytes) : Bytes := c.map toLower

/-- The demo deployment with `ILIKE` as it is. -/
def likeEnv : Storefront.Env := { Storefront.Demo.env with
  core := { Storefront.Demo.env.core with
    acceptsText := fun text => Utf8.valid text && !text.contains 0 }
  ilike := fun title search => (Like.like likeMarks
    ((ascii "%" :: Utf8.characters search ++ [ascii "%"]).map lowerCharacter)
    ((Utf8.characters title).map lowerCharacter)).getD false }

theorem toLower_eq_iff {c mark : UInt8} (h : mark.toNat < 0x41 ∨ 0x5a < mark.toNat ∧
    mark.toNat < 0x61) : toLower c = mark ↔ c = mark := by
  unfold toLower
  simp only [Bool.and_eq_true, decide_eq_true_eq, UInt8.le_iff_toNat_le, ← UInt8.toNat_inj]
  split_ifs with hupper
  · simp only [UInt8.toNat_add, UInt8.reduceToNat] at hupper ⊢
    omega
  · rfl

theorem lowerCharacter_eq_iff {mark : UInt8} (h : mark.toNat < 0x41 ∨ 0x5a < mark.toNat ∧
    mark.toNat < 0x61) (c : Bytes) : lowerCharacter c = [mark] ↔ c = [mark] := by
  rw [lowerCharacter, List.map_eq_singleton_iff]
  simp only [toLower_eq_iff h, exists_eq_right]

theorem likeEnv_folds : IlikeFolds likeEnv lowerCharacter where
  acceptsText := fun text => by simp [likeEnv]
  ilike := fun title search _ _ => by
    have hmark : lowerCharacter (ascii "%") = likeMarks.many := by decide
    have hclosed := Like.like_closed (m := likeMarks) ((Utf8.characters search).map lowerCharacter)
      ((Utf8.characters title).map lowerCharacter)
    simp only [likeEnv, List.cons_append, List.map_cons, List.map_append, List.map_nil, hmark]
      at hclosed ⊢
    rw [hclosed]
    rfl
  many := lowerCharacter_eq_iff (by decide)
  one := lowerCharacter_eq_iff (by decide)
  escape := lowerCharacter_eq_iff (by decide)

/-- What is typed without a wildcard is found. -/
theorem explore_finds_game :
    FindsTyped likeEnv lowerCharacter carol (shelf (ascii "The Game")) (ascii "gAme") :=
  (explore_finds_iff likeEnv_folds (by decide) (ascii "gAme")).mpr
    ⟨by decide +kernel, .inl (by decide +kernel)⟩ (shelf (ascii "The Game"))
    (shelf_titlesFit (by decide +kernel) ⟨by decide +kernel, by decide +kernel⟩)

/-- An underscore finds a title without one, and a backslash does not find the title that it is
in. -/
theorem wildcards_not_typed :
    (TitlesFit likeEnv (shelf (ascii "Game")) ∧
      ¬FindsTyped likeEnv lowerCharacter carol (shelf (ascii "Game")) (ascii "_")) ∧
    TitlesFit likeEnv (shelf (ascii "A\\B")) ∧
      ¬FindsTyped likeEnv lowerCharacter carol (shelf (ascii "A\\B")) (ascii "\\") := by
  have hshelf : ∀ title search : Bytes,
      FindsTyped likeEnv lowerCharacter carol (shelf title) search →
        ((search.isEmpty || likeEnv.ilike title search) = true ↔
          Contains lowerCharacter title search) :=
    fun title search h => ((findsTyped_iff (by decide) search).mp h).2
      ⟨4, ascii "game", 1, .Public⟩ List.mem_cons_self rfl
  refine ⟨⟨shelf_titlesFit (by decide +kernel) ⟨by decide +kernel, by decide +kernel⟩, fun h => ?_⟩,
    shelf_titlesFit (by decide +kernel) ⟨by decide +kernel, by decide +kernel⟩, fun h => ?_⟩
  · exact absurd (hshelf _ _ h) (by decide +kernel)
  · exact absurd (hshelf _ _ h) (by decide +kernel)

end Demo

end Launcher.Deployment
