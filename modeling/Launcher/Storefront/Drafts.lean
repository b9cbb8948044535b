import Launcher.Storefront.Lookups

set_option autoImplicit false

/-! # Drafts

A draft is shown to its publisher and to those who manage every game. Explore, the publisher's
own list, the detail page, the gallery and the devlog keep to that in every state. The library
is listed without asking for the visibility of its games, so it keeps to it as long as no entry
of somebody else's library names a draft: `LibraryVisible`, an invariant of the runs in which
entries are made, and games are withdrawn, only so. -/

namespace Launcher.Storefront

open Launcher.Lib

/-! ## What an answer shows -/

/-- The actor of a request that reads games. -/
def Request.reader : Request → Option Actor
  | .explore actor _ => some actor
  | .publishedByActor actor _ => some actor
  | .gameDetail actor _ => some actor
  | .library actor => some actor
  | .listMedia actor _ => some actor
  | .listNotes actor _ _ _ => some actor
  | _ => none

/-- The answer has a field of the game in it, or of a row that hangs off the game. -/
def State.shows (s : State) (reply : Reply) (gameId : Uuid) : Prop :=
  match reply with
  | .page page => ∃ game ∈ page.items, game.id = gameId
  | .games games => ∃ game ∈ games, game.id = gameId
  | .detail detail => detail.game.id = gameId ∨ (∃ v ∈ detail.versions, v.gameId = gameId) ∨
      (∃ b ∈ detail.builds, ∃ v, s.core.versions.find? b.gameVersionId = some v ∧
        v.gameId = gameId) ∨
      ∃ m ∈ detail.media, m.gameId = gameId
  | .gallery media => ∃ m ∈ media, m.gameId = gameId
  | .notes page => ∃ n ∈ page.items, n.gameId = gameId
  | _ => False

/-- Whatever it answers, it shows only games the actor may view. -/
def OnlyViewable (s : State) (actor : Actor) (reply : Reply) : Prop :=
  ∀ game ∈ s.core.games, s.shows reply game.id → mayViewGame game actor = true

/-- Every read, made in the state `s`, ends and answers only with games its actor may view. -/
def DraftsHidden (env : Env) (s : State) : Prop :=
  ∀ r actor, r.reader = some actor →
    (storefront env).Ends (fun _ t => ∀ reply, t.body = .program (.done (.ok reply)) →
      OnlyViewable s actor reply) s (entry env r)

section Reads

variable {env : Env} {s : State} {actor : Actor}

/-- A read whose answers all show only viewable games. -/
theorem ends_read {α : Type} {p : Coroutine α} {reply : α → Reply}
    (h : p.Wp (exec env) (fun r _ => ∀ a, r = .ok a → OnlyViewable s actor (reply a)) s) :
    (storefront env).Ends (fun _ t => ∀ reply, t.body = .program (.done (.ok reply)) →
      OnlyViewable s actor reply) s (start actor p reply) := by
  refine ends_program.mpr (Program.wp_bind.mpr (h.mono (fun r _ hr => ?_)))
  cases r with
  | ok a =>
      intro answer hanswer
      cases hanswer
      exact hr a rfl
  | error e =>
      intro answer hanswer
      cases hanswer

/-- A game with the id of a row is that row. -/
theorem game_unique {game game' : Game} (h : game ∈ s.core.games) (h' : game' ∈ s.core.games)
    (hid : game.id = game'.id) : game = game' := Table.eq_of_key_eq h h' hid

theorem mem_of_mem_page {α : Type} {limit offset : Int} {rows : List α} {x : α}
    (h : x ∈ State.page limit offset rows) : x ∈ rows :=
  List.mem_of_mem_drop (List.mem_of_mem_take h)

/-- A search whose filter admits only games the actor may view. -/
theorem search_viewable {query : GameQuery}
    (hadmits : ∀ game, s.admits env query game = true → mayViewGame game actor = true) :
    (search query).Wp (exec env)
      (fun r _ => ∀ page, r = .ok page → OnlyViewable s actor (.page page)) s := by
  unfold search
  refine Program.wp_bind.mpr (statement_wp (fun _ => rfl) ?_)
  cases hitems : s.searchGames env query with
  | error e =>
      intro page hpage
      cases hpage
  | ok items =>
      refine Program.wp_bind.mpr (statement_wp (fun _ => rfl) ?_)
      cases s.countGames env query with
      | error e =>
          intro page hpage
          cases hpage
      | ok total =>
          intro page hpage game hgame hshown
          cases hpage
          obtain ⟨record, hrecord, hid⟩ := hshown
          unfold State.searchGames at hitems
          split at hitems
          · cases hitems
          · obtain rfl := Except.ok.inj hitems
            have hmem := (List.mem_insertionSort _).mp (mem_of_mem_page hrecord)
            obtain ⟨row, hrow, rfl⟩ := List.mem_map.mp hmem
            obtain ⟨hrow, hadmitted⟩ := List.mem_filter.mp hrow
            rw [← game_unique hrow hgame hid]
            exact hadmits row hadmitted

theorem explore_viewable (query : GameQuery) :
    (explore actor query).Wp (exec env)
      (fun r _ => ∀ page, r = .ok page → OnlyViewable s actor (.page page)) s := by
  unfold explore demand
  refine Program.wp_bind.mpr ?_
  split
  · refine search_viewable (fun game hgame => ?_)
    have hpublic : game.visibility = .Public := by
      unfold State.admits at hgame
      simp only [Bool.and_eq_true, Bool.or_false, beq_iff_eq] at hgame
      exact hgame.1.1
    simp [mayViewGame, hpublic]
  · intro page hpage
    cases hpage

theorem publishedByActor_viewable (query : GameQuery) :
    (publishedByActor actor query).Wp (exec env)
      (fun r _ => ∀ page, r = .ok page → OnlyViewable s actor (.page page)) s := by
  unfold publishedByActor demand
  refine Program.wp_bind.mpr ?_
  split
  · refine search_viewable (fun game hgame => ?_)
    have hown : actor.userId = game.publisherUserId := by
      unfold State.admits at hgame
      simp only [Bool.and_eq_true, Option.all_some, beq_iff_eq] at hgame
      exact hgame.1.2
    simp [mayViewGame, mayEditGame, Actor.owns, hown]
  · intro page hpage
    cases hpage

/-- The rows that hang off a game the actor may view. -/
theorem viewable_of_id {game game' : Game} (hgame : game ∈ s.core.games)
    (hview : mayViewGame game actor = true) (hgame' : game' ∈ s.core.games)
    (hid : game.id = game'.id) : mayViewGame game' actor = true :=
  game_unique hgame hgame' hid ▸ hview

theorem gameDetail_viewable (idOrSlug : Bytes) :
    (gameDetail actor idOrSlug).Wp (exec env)
      (fun r _ => ∀ detail, r = .ok detail → OnlyViewable s actor (.detail detail)) s := by
  unfold gameDetail demand
  refine Program.wp_bind.mpr ?_
  split
  · refine Program.wp_bind.mpr (visibleGame_wp ?_)
    cases hv : s.visible env actor idOrSlug with
    | error e =>
        intro detail hdetail
        cases hdetail
    | ok record =>
        obtain ⟨hlookup, hview⟩ := visible_ok hv
        obtain ⟨game, hgame, rfl⟩ := lookup_mem hlookup
        refine Program.wp_bind.mpr (await_wp (fun _ => rfl) ?_)
        refine Program.wp_bind.mpr (listForVersions_wp ?_)
        refine Program.wp_bind.mpr (await_wp (fun _ => rfl) ?_)
        refine Program.wp_bind.mpr (await_wp (fun _ => rfl) ?_)
        intro detail hdetail shown hshown hshows
        cases hdetail
        refine viewable_of_id hgame hview hshown ?_
        rcases hshows with hid | ⟨version, hversion, hid⟩ | ⟨b, hb, v, hv, hid⟩ | ⟨m, hm, hid⟩
        · exact hid
        · have hmem := (List.mem_insertionSort _).mp hversion
          obtain ⟨row, hrow, rfl⟩ := List.mem_map.mp hmem
          obtain ⟨_, hlisted⟩ := List.mem_filter.mp hrow
          rw [Bool.and_eq_true, beq_iff_eq] at hlisted
          exact hlisted.1.symm.trans hid
        · obtain ⟨row, hrow, rfl⟩ := List.mem_map.mp ((List.mem_insertionSort _).mp hb)
          obtain ⟨_, hlisted⟩ := List.mem_filter.mp hrow
          obtain ⟨v', hv', hgameId, _⟩ := mem_listVersions.mp (List.contains_iff_mem.mp hlisted)
          obtain rfl : v' = v := Option.some.inj (hv'.symm.trans hv)
          exact hgameId.symm.trans hid
        · obtain ⟨_, hlisted⟩ := List.mem_filter.mp ((List.mem_insertionSort _).mp hm)
          exact (beq_iff_eq.mp hlisted).symm.trans hid
  · intro detail hdetail
    cases hdetail

theorem listMedia_viewable (idOrSlug : Bytes) :
    (Media.listForGame actor idOrSlug).Wp (exec env)
      (fun r _ => ∀ media, r = .ok media → OnlyViewable s actor (.gallery media)) s := by
  unfold Media.listForGame demand
  refine Program.wp_bind.mpr ?_
  split
  · refine Program.wp_bind.mpr (visibleGame_wp ?_)
    cases hv : s.visible env actor idOrSlug with
    | error e =>
        intro media hmedia
        cases hmedia
    | ok record =>
        obtain ⟨hlookup, hview⟩ := visible_ok hv
        obtain ⟨game, hgame, rfl⟩ := lookup_mem hlookup
        refine await_wp (fun _ => rfl) ?_
        intro media hmedia shown hshown hshows
        cases hmedia
        obtain ⟨m, hm, hid⟩ := hshows
        obtain ⟨_, hlisted⟩ := List.mem_filter.mp ((List.mem_insertionSort _).mp hm)
        exact viewable_of_id hgame hview hshown ((beq_iff_eq.mp hlisted).symm.trans hid)
  · intro media hmedia
    cases hmedia

theorem listNotes_viewable (idOrSlug : Bytes) (limit offset : Int) :
    (Notes.listForGame actor idOrSlug limit offset).Wp (exec env)
      (fun r _ => ∀ page, r = .ok page → OnlyViewable s actor (.notes page)) s := by
  unfold Notes.listForGame demand
  refine Program.wp_bind.mpr ?_
  split
  · refine Program.wp_bind.mpr (visibleGame_wp ?_)
    cases hv : s.visible env actor idOrSlug with
    | error e =>
        intro page hpage
        cases hpage
    | ok record =>
        obtain ⟨hlookup, hview⟩ := visible_ok hv
        obtain ⟨game, hgame, rfl⟩ := lookup_mem hlookup
        refine Program.wp_bind.mpr (await_wp (fun _ => rfl) ?_)
        refine Program.wp_bind.mpr (await_wp (fun _ => rfl) ?_)
        intro page hpage shown hshown hshows
        cases hpage
        obtain ⟨n, hn, hid⟩ := hshows
        have hmem := (List.mem_insertionSort _).mp (mem_of_mem_page hn)
        obtain ⟨row, hrow, rfl⟩ := List.mem_map.mp hmem
        obtain ⟨_, hlisted⟩ := List.mem_filter.mp hrow
        unfold State.admitsNote at hlisted
        rw [Bool.and_eq_true, beq_iff_eq] at hlisted
        exact viewable_of_id hgame hview hshown (hlisted.1.symm.trans hid)
  · intro page hpage
    cases hpage

/-! ## The library -/

/-- Every library entry names a game that is no draft, or one of its owner's own. -/
def LibraryVisible (s : State) : Prop :=
  ∀ u ∈ s.library, ∃ game, s.core.games.find? u.gameId = some game ∧
    (game.visibility ≠ .Draft ∨ game.publisherUserId = u.userId)

theorem library_viewable (h : LibraryVisible s) :
    (library actor).Wp (exec env)
      (fun r _ => ∀ games, r = .ok games → OnlyViewable s actor (.games games)) s := by
  unfold library demand
  refine Program.wp_bind.mpr ?_
  split
  · refine await_wp (fun _ => rfl) ?_
    intro games hgames shown hshown hshows
    cases hgames
    obtain ⟨record, hrecord, hid⟩ := hshows
    obtain ⟨game, hgame, rfl⟩ := List.mem_map.mp ((List.mem_insertionSort _).mp hrecord)
    obtain ⟨u, hu, hfound⟩ := List.mem_filterMap.mp hgame
    obtain ⟨hu, hmine⟩ := List.mem_filter.mp hu
    obtain ⟨game', hfound', hvisible⟩ := h u hu
    obtain rfl : game = game' := Option.some.inj (hfound.symm.trans hfound')
    refine viewable_of_id (Table.mem_of_find? hfound) ?_ hshown hid
    rcases hvisible with hpublic | hown
    · simp [mayViewGame, hpublic]
    · simp [mayViewGame, mayEditGame, Actor.owns, hown, beq_iff_eq.mp hmine]
  · intro games hgames
    cases hgames

/-- With such a library every read keeps drafts hidden. -/
theorem draftsHidden_of_library (h : LibraryVisible s) : DraftsHidden env s := by
  intro r reader hr
  cases r with
  | explore a query =>
      obtain rfl := Option.some.inj hr
      exact ends_read (explore_viewable query)
  | publishedByActor a query =>
      obtain rfl := Option.some.inj hr
      exact ends_read (publishedByActor_viewable query)
  | gameDetail a idOrSlug =>
      obtain rfl := Option.some.inj hr
      exact ends_read (gameDetail_viewable idOrSlug)
  | library a =>
      obtain rfl := Option.some.inj hr
      exact ends_read (library_viewable h)
  | listMedia a idOrSlug =>
      obtain rfl := Option.some.inj hr
      exact ends_read (listMedia_viewable idOrSlug)
  | listNotes a idOrSlug limit offset =>
      obtain rfl := Option.some.inj hr
      exact ends_read (listNotes_viewable idOrSlug limit offset)
  | _ => cases hr

end Reads

/-! ## Runs -/

/-- The two statements that can put a draft into a library do not: an entry is made while its
game is no draft or by the publisher, and a game becomes a draft while it is in nobody else's
library. -/
def keepsLibraryVisible (env : Env) (s : State) : {α : Type} → Call α → Bool
  | _, .addToLibrary userId gameId => (s.core.games.find? gameId).all (fun game =>
      game.visibility != .Draft || game.publisherUserId == userId)
  | _, .updateGame id changes => changes.visibility != some .Draft ||
      ((env.castUuid id).bind s.core.games.find?).all (fun game =>
        s.library.rows.all (fun u => u.gameId != game.id || game.publisherUserId == u.userId))
  | _, _ => true

section Steps

variable {env : Env} {s : State}

theorem LibraryVisible.congr {s' : State} (h : LibraryVisible s)
    (hg : s'.core.games = s.core.games) (hl : s'.library = s.library) : LibraryVisible s' := by
  intro u hu
  rw [hl] at hu
  rw [hg]
  exact h u hu

/-- The entries of a deleted game go with it. -/
theorem LibraryVisible.afterCore (h : LibraryVisible s) {core' : Launcher.State}
    (hp : ∃ p, core'.games = s.core.games.delete p) : LibraryVisible (s.afterCore core') := by
  obtain ⟨p, hp⟩ := hp
  intro u hu
  obtain ⟨hu, hkept⟩ := Table.mem_delete.mp hu
  obtain ⟨game, hgame, hvisible⟩ := h u hu
  refine ⟨game, ?_, hvisible⟩
  show core'.games.find? u.gameId = some game
  rw [hp, Table.find?_delete]
  refine ⟨hgame, ?_⟩
  cases hdel : p game with
  | false => rfl
  | true =>
      dsimp only at hkept
      rw [hp, Table.find?_delete_eq, hgame] at hkept
      simp [hdel] at hkept

theorem LibraryVisible.createGame (h : LibraryVisible s) (choice : Choice) (game : NewGame) :
    LibraryVisible (s.createGame env choice game).2 := by
  unfold State.createGame
  split
  · exact h
  · split
    · exact h
    · split
      · exact h
      · split
        · exact h
        · intro u hu
          obtain ⟨old, hold, hvisible⟩ := h u hu
          refine ⟨old, ?_, hvisible⟩
          show (s.core.games.insert _).find? u.gameId = some old
          rw [Table.find?_insert, hold, Option.some_or]

theorem LibraryVisible.updateGame (h : LibraryVisible s) {id : Bytes} {changes : GameUpdate}
    (hok : keepsLibraryVisible env s (.updateGame id changes) = true) :
    LibraryVisible (s.updateGame env id changes).2 := by
  unfold State.updateGame
  cases hid : env.castUuid id with
  | none => exact h
  | some gameId =>
      dsimp only
      split
      · exact h
      · cases hgame : s.core.games.find? gameId with
        | none => exact h
        | some game =>
            intro u hu
            obtain ⟨old, hold, hvisible⟩ := h u hu
            show ∃ game', (s.core.games.modify gameId _).find? u.gameId = some game' ∧ _
            rw [Table.find?_modify]
            by_cases hu' : u.gameId = gameId
            · obtain rfl : old = game := Option.some.inj (hold.symm.trans (hu' ▸ hgame))
              rw [if_pos hu', hgame]
              refine ⟨_, rfl, ?_⟩
              show changes.visibility.getD old.visibility ≠ .Draft ∨ old.publisherUserId = u.userId
              cases hv : changes.visibility with
              | none => exact hvisible
              | some visibility =>
                  by_cases hdraft : visibility = .Draft
                  · -- the game becomes a draft: the entry is its publisher's
                    right
                    simp only [keepsLibraryVisible, hv, hdraft, hid, Option.bind_some, hgame,
                      bne_self_eq_false, Bool.false_or, Option.all_some, List.all_eq_true] at hok
                    have hentry := hok u hu
                    rw [hu', Table.key_of_find? hgame] at hentry
                    simpa using hentry
                  · exact Or.inl hdraft
            · rw [if_neg hu']
              exact ⟨old, hold, hvisible⟩

theorem LibraryVisible.addToLibrary (h : LibraryVisible s) {userId gameId : Uuid}
    (hok : keepsLibraryVisible env s (.addToLibrary userId gameId) = true) :
    LibraryVisible (s.addToLibrary userId gameId).2 := by
  unfold State.addToLibrary
  split
  · exact h
  · split
    · exact h
    · rename_i hgame
      split
      · exact h
      · intro u hu
        rcases Table.eq_or_mem_of_mem_insert hu with rfl | hu
        · cases hfound : s.core.games.find? gameId with
          | none => exact absurd (by rw [hfound]; rfl) hgame
          | some game =>
              refine ⟨game, rfl, ?_⟩
              simpa [keepsLibraryVisible, hfound] using hok
        · exact h u hu

/-- What every call keeps, under the condition on those two. -/
theorem LibraryVisible.exec (h : LibraryVisible s) (choice : Choice) {α : Type} (c : Call α)
    (hok : keepsLibraryVisible env s c = true) : LibraryVisible (exec env choice c s).2 := by
  cases c with
  | core c => exact h.afterCore (exec_removes env.core choice c s.core).1
  | removeGame id => exact h.afterCore ⟨_, rfl⟩
  | createGame game => exact h.createGame choice game
  | updateGame id changes => exact h.updateGame hok
  | addToLibrary userId gameId => exact h.addToLibrary hok
  | removeFromLibrary userId gameId => exact fun u hu => h u (Table.mem_delete.mp hu).1
  | createVersion version =>
      show LibraryVisible (s.createVersion env choice version).2
      unfold State.createVersion
      split_ifs <;> exact h.congr rfl rfl
  | updateVersion id changes =>
      show LibraryVisible (s.updateVersion env id changes).2
      unfold State.updateVersion
      split
      · exact h
      · split <;> exact h.congr rfl rfl
  | createMedia media =>
      show LibraryVisible (s.createMedia env choice media).2
      unfold State.createMedia
      split
      · exact h
      · split
        · exact h.congr rfl rfl
        · split_ifs <;> exact h.congr rfl rfl
  | updateMedia id changes =>
      show LibraryVisible (s.updateMedia env id changes).2
      unfold State.updateMedia
      split <;> exact h.congr rfl rfl
  | createNote note =>
      show LibraryVisible (s.createNote env choice note).2
      unfold State.createNote
      split
      · exact h
      · split
        · exact h
        · split <;> exact h.congr rfl rfl
  | updateNote id changes =>
      show LibraryVisible (s.updateNote env id changes).2
      unfold State.updateNote
      split
      · exact h
      · split
        · exact h
        · dsimp only
          split <;> exact h.congr rfl rfl
  | recordEvent event =>
      show LibraryVisible (s.recordEvent event).2
      unfold State.recordEvent
      split_ifs <;> exact h.congr rfl rfl
  | storeMedia bytes format =>
      show LibraryVisible (s.storeMedia env choice.fault bytes format).2
      unfold State.storeMedia
      dsimp only
      split_ifs
      · exact h
      · exact h
      · split <;> exact h.congr rfl rfl
  | _ => exact h.congr rfl rfl

end Steps

section Demo

open Launcher.Demo (alice)
open Storefront.Demo (carol drawing)

/-- Tasks 0 and 1: alice publishes game 4, and carol takes it into her library. -/
def shelved : List Move :=
  .request (.createGame alice
    { title := ascii "Game", slug := [], summary := [], description := [], releaseDate := [],
      visibility := .Public }) :: drawing 4 0 1
    ++ .request (.addToLibrary carol (uuidText 4)) :: drawing 0 1 2

/-- Task 2: then alice makes it a draft again. -/
def withdrawn : List Move :=
  shelved ++ .request (.updateGame alice (uuidText 4) { visibility := some .Draft }) ::
    drawing 0 2 2

end Demo

end Launcher.Storefront
