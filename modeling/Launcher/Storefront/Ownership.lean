import Launcher.Storefront.Lookups
import Launcher.Storefront.Rows

set_option autoImplicit false

/-! # Ownership

Every operation that changes the catalog takes its ids from the request, asks whether the actor
may edit one game, and writes by another id after further calls. That the id still names a row
of the game that was asked about follows from `Evolves`: what was once read of a row with an
issued id stays true while the others move.

One statement does not fit: `updateGame` looks the game up by slug when the text it is given
does not have the spelling of a uuid, and then lets PostgreSQL read the same text as a uuid.
`aimed` is the condition that the two agree as far as ownership goes. -/

namespace Launcher.Storefront

open Launcher.Lib
open Catalog (NO_SUCH_GAME NOT_YOURS NO_SUCH_VERSION)

/-! ## What an actor may write -/

/-- The game the statement will update, if any, is one that `actor` may edit, or was looked up
by the same id. -/
def aimed (env : Env) (actor : Actor) (s : State) {α : Type} : Call α → Bool
  | .updateGame text _ => isUuid text ||
      ((env.castUuid text).bind s.core.games.find?).all (fun game => mayEditGame game actor)
  | _ => true

/-- What a call made for `actor` has to be. -/
structure Admits (env : Env) (actor : Actor) (s : State) {α : Type} (c : Call α) : Prop where
  owned : aimed env actor s c = true → ∀ g game, s.target env c = some g →
    s.core.games.find? g = some game → mayEditGame game actor = true
  links : Links s c

/-- The game with this id has been found to be one that `actor` may edit. -/
def Editable (actor : Actor) (s : State) (g : Uuid) : Prop :=
  actor.managesAnyGame = true ∨
    Table.Fixed (·.publisherUserId) s.core.issued s.core.games g actor.userId

/-- The same of the game that a row hangs off. -/
def EditableRow {ρ : Type} {key : ρ → Uuid} (actor : Actor) (s : State) (t : Table key)
    (gameOf : ρ → Uuid) (id : Uuid) : Prop :=
  ∃ g, Table.Fixed gameOf s.core.issued t id g ∧ Editable actor s g

/-- And of the game of a build. -/
def EditableBuild (actor : Actor) (s : State) (id : Uuid) : Prop :=
  ∃ v, Table.Fixed (·.gameVersionId) s.core.issued s.core.builds id v ∧
    EditableRow actor s s.core.versions (·.gameId) v

section Editable

variable {env : Env} {actor : Actor} {s s' : State} {g id : Uuid} {game : Game}

theorem mayEditGame_iff :
    mayEditGame game actor = true ↔
      actor.managesAnyGame = true ∨ game.publisherUserId = actor.userId := by
  rw [mayEditGame, Actor.owns, Bool.or_eq_true, beq_iff_eq, or_comm, eq_comm (a := actor.userId)]

theorem Editable.of_find? (h : Sound s) (hgame : s.core.games.find? g = some game)
    (he : mayEditGame game actor = true) : Editable actor s g := by
  rcases mayEditGame_iff.mp he with hm | hown
  · exact Or.inl hm
  · have hissued : g ∈ s.core.issued := by
      rw [← Table.key_of_find? hgame]
      exact h.games game (Table.mem_of_find? hgame)
    have hfixed := Table.Fixed.of_find? (·.publisherUserId) hissued hgame
    rw [hown] at hfixed
    exact Or.inr hfixed

theorem Editable.evolves (h : Editable actor s g) (he : Evolves s s') : Editable actor s' g :=
  h.imp_right (fun hown => hown.inherits he.issued he.games)

theorem Editable.mayEdit (h : Editable actor s g) (hgame : s.core.games.find? g = some game) :
    mayEditGame game actor = true :=
  mayEditGame_iff.mpr (h.imp_right (fun hown => hown.eq_of_find? hgame))

section Row

variable {ρ : Type} {key : ρ → Uuid} {gameOf : ρ → Uuid} {t t' : Table key}

theorem EditableRow.evolves (h : EditableRow actor s t gameOf id) (he : Evolves s s')
    (ht : Table.Inherits gameOf s.core.issued t t') : EditableRow actor s' t' gameOf id := by
  obtain ⟨g, hrow, hgame⟩ := h
  exact ⟨g, hrow.inherits he.issued ht, hgame.evolves he⟩

theorem EditableRow.mayEdit (h : EditableRow actor s t gameOf id)
    (hg : (t.find? id).map gameOf = some g) (hgame : s.core.games.find? g = some game) :
    mayEditGame game actor = true := by
  obtain ⟨g', hrow, hedit⟩ := h
  obtain ⟨row, hfound, rfl⟩ := Option.map_eq_some_iff.mp hg
  rw [hrow.eq_of_find? hfound] at hgame
  exact hedit.mayEdit hgame

end Row

theorem EditableBuild.evolves (h : EditableBuild actor s id) (he : Evolves s s') :
    EditableBuild actor s' id := by
  obtain ⟨v, hbuild, hversion⟩ := h
  exact ⟨v, hbuild.inherits he.issued he.builds, hversion.evolves he he.versions⟩

theorem EditableBuild.mayEdit (h : EditableBuild actor s id) (hg : s.gameOfBuild id = some g)
    (hgame : s.core.games.find? g = some game) : mayEditGame game actor = true := by
  obtain ⟨v, hbuild, hversion⟩ := h
  obtain ⟨b, hfound, hg⟩ := Option.bind_eq_some_iff.mp hg
  rw [hbuild.eq_of_find? hfound] at hg
  exact hversion.mayEdit hg hgame

end Editable

/-! ## Programs of one actor -/

/-- What holds of every state the catalog reaches. -/
structure Valid (s : State) : Prop where
  sound : Sound s
  linked : Linked s

/-- Whatever the others do in the meantime, every call of the program is one that `actor` may
make, and `Q` holds at its end. -/
abbrev Confined (env : Env) (actor : Actor) {α : Type} (Q : Except Failure α → State → Prop)
    (p : Coroutine α) (s : State) : Prop :=
  p.Safe (exec env) Valid Evolves (Admits env actor) Q s

/-- Every call of the program is one that `actor` may make, wherever it starts. -/
abbrev Harmless (env : Env) (actor : Actor) {α : Type} (p : Coroutine α) : Prop :=
  ∀ s, Confined env actor (fun _ _ => True) p s

section Programs

variable {env : Env} {actor : Actor} {s : State} {α : Type}

/-- A call that writes no game's rows. -/
theorem Admits.of_none {c : Call α} (ht : s.target env c = none) (hl : Links s c) :
    Admits env actor s c where
  owned _ g _ hg _ := by
    rw [ht] at hg
    cases hg
  links := hl

/-- A call whose target has been found to be editable. -/
theorem Admits.of_editable {c : Call α} (hl : Links s c)
    (h : ∀ g, s.target env c = some g → Editable actor s g) : Admits env actor s c where
  owned _ g _ hg hgame := (h g hg).mayEdit hgame
  links := hl

theorem harmless_await {c : Call α} (ht : ∀ s : State, s.target env c = none)
    (hl : ∀ s, Links s c) : Harmless env actor (.await c) :=
  fun _ s' _ _ => ⟨.of_none (ht s') (hl s'), fun _ => trivial⟩

theorem harmless_statement {c : Call (Except Failure α)}
    (ht : ∀ s : State, s.target env c = none) (hl : ∀ s, Links s c) :
    Harmless env actor (statement c) := by
  intro s
  refine Program.Safe.bind (harmless_await ht hl s) (fun r s' => ?_)
  cases r <;> trivial

theorem Harmless.bind {β : Type} {p : Coroutine α} {f : α → Coroutine β}
    (hp : Harmless env actor p) (hf : ∀ a, Harmless env actor (f a)) :
    Harmless env actor (p >>= f) := fun s => Program.Safe.bind (hp s) hf

theorem harmless_done {r : Except Failure α} : Harmless env actor (.done r : Coroutine α) :=
  fun _ => trivial

theorem harmless_require {check : Result α} : Harmless env actor (require check) := by
  intro s
  cases check <;> trivial

theorem harmless_demand {permission : Permission} {detail : Bytes} :
    Harmless env actor (demand actor permission detail) := by
  intro s
  unfold demand
  split <;> trivial

/-- After a check of the request, in the same state. -/
theorem require_bind {β : Type} {check : Result α} {f : α → Coroutine β}
    (h : ∀ a, Confined env actor (fun _ _ => True) (f a) s) :
    Confined env actor (fun _ _ => True) (require check >>= f) s := by
  cases check with
  | ok a => exact h a
  | error e => trivial

theorem demand_bind {permission : Permission} {detail : Bytes} {f : Unit → Coroutine α}
    (h : Confined env actor (fun _ _ => True) (f ()) s) :
    Confined env actor (fun _ _ => True) (demand actor permission detail >>= f) s := by
  unfold demand
  split
  · exact h
  · trivial

/-- Awaiting a call that only reads. -/
theorem await_confined {c : Call α} {Q : Except Failure α → State → Prop} (f : State → α)
    (hc : ∀ s' choice, exec env choice c s' = (f s', s'))
    (ht : ∀ s' : State, s'.target env c = none) (hl : ∀ s', Links s' c)
    (h : ∀ s', Valid s' → Evolves s s' → Q (.ok (f s')) s') :
    Confined env actor Q (.await c) s := by
  refine fun s' hs he => ⟨.of_none (ht s') (hl s'), fun choice => ?_⟩
  rw [hc s' choice]
  exact h s' hs he

theorem statement_confined {c : Call (Except Failure α)} {Q : Except Failure α → State → Prop}
    (f : State → Except Failure α) (hc : ∀ s' choice, exec env choice c s' = (f s', s'))
    (ht : ∀ s' : State, s'.target env c = none) (hl : ∀ s', Links s' c)
    (h : ∀ s', Valid s' → Evolves s s' → Q (f s') s') :
    Confined env actor Q (statement c) s := by
  refine Program.safe_bind (await_confined f hc ht hl (fun s' hs he => ?_))
  have hq := h s' hs he
  cases hr : f s' with
  | ok a => rw [hr] at hq; exact hq
  | error e => rw [hr] at hq; exact hq

/-- A statement that writes, and what is done with its reply. -/
theorem statement_bind {β : Type} {c : Call (Except Failure α)} {f : α → Coroutine β}
    (h : ∀ s', Valid s' → Evolves s s' → Admits env actor s' c) (hf : ∀ a, Harmless env actor (f a)) :
    Confined env actor (fun _ _ => True) (statement c >>= f) s := by
  refine Program.Safe.bind (Program.Safe.bind (fun s' hs he => ⟨h s' hs he, fun _ => trivial⟩)
    (fun r s' => ?_)) hf
  cases r <;> trivial

/-- Any call that writes no game's rows. -/
theorem await_evolves {c : Call α} {Q : Except Failure α → State → Prop}
    (ht : ∀ s' : State, s'.target env c = none) (hl : ∀ s', Links s' c)
    (h : ∀ r s', Evolves s s' → Q (.ok r) s') : Confined env actor Q (.await c) s := by
  refine fun s' hs he => ⟨.of_none (ht s') (hl s'), fun choice => h _ _ ?_⟩
  exact he.trans _ _ _ (hs.sound.exec env choice c).2

end Programs

/-! ## Lookups among other tasks

The one call of a lookup answers with the state it is made in. -/

section Lookups

variable {env : Env} {actor : Actor} {s : State}

theorem findGame_confined {idOrSlug : Bytes} {Q : Except Failure (Option GameRecord) → State → Prop}
    (h : ∀ s', Valid s' → Evolves s s' → Q (s'.lookup env idOrSlug) s') :
    Confined env actor Q (findGame idOrSlug) s := by
  unfold findGame
  unfold State.lookup at h
  split
  · rename_i hid
    simp only [if_pos hid] at h
    exact await_confined _ (fun _ _ => rfl) (fun _ => rfl) (fun _ => trivial) h
  · rename_i hid
    simp only [if_neg hid] at h
    refine statement_confined _ (fun _ _ => rfl) (fun _ => rfl) (fun _ => trivial)
      (fun s' hs he => ?_)
    have hq := h s' hs he
    split at hq
    · rename_i htext
      rw [if_pos htext]
      exact hq
    · rename_i htext
      rw [if_neg htext]
      exact hq

theorem visibleGame_confined {idOrSlug : Bytes} {Q : Except Failure GameRecord → State → Prop}
    (h : ∀ s', Valid s' → Evolves s s' → Q (s'.visible env actor idOrSlug) s') :
    Confined env actor Q (visibleGame actor idOrSlug) s := by
  unfold visibleGame
  refine Program.safe_bind (findGame_confined (fun s' hs he => ?_))
  have hq := h s' hs he
  unfold State.visible at hq
  cases hl : s'.lookup env idOrSlug with
  | error e => rw [hl] at hq; exact hq
  | ok found =>
      rw [hl] at hq
      cases found with
      | none => exact hq
      | some game =>
          show Confined env actor Q (if mayViewGame game.toGame actor then pure game
            else refuse .NotFound NO_SUCH_GAME) s'
          dsimp only at hq
          split
          · rename_i hv
            rw [if_pos hv] at hq
            exact hq
          · rename_i hv
            rw [if_neg hv] at hq
            exact hq

theorem editableGame_confined {gameId : Bytes} {Q : Except Failure GameRecord → State → Prop}
    (h : ∀ s', Valid s' → Evolves s s' → Q (s'.editable env actor gameId) s') :
    Confined env actor Q (editableGame actor gameId) s := by
  unfold editableGame
  refine Program.safe_bind (visibleGame_confined (fun s' hs he => ?_))
  have hq := h s' hs he
  unfold State.editable at hq
  cases hv : s'.visible env actor gameId with
  | error e => rw [hv] at hq; exact hq
  | ok game =>
      rw [hv] at hq
      show Confined env actor Q (if mayEditGame game.toGame actor then pure game
        else refuse .Forbidden NOT_YOURS) s'
      dsimp only at hq
      split
      · rename_i he
        rw [if_pos he] at hq
        exact hq
      · rename_i he
        rw [if_neg he] at hq
        exact hq

/-- The game `editableGame` answers with. -/
theorem editable_editable {gameId : Bytes} {game : GameRecord} (hs : Sound s)
    (h : s.editable env actor gameId = .ok game) :
    Editable actor s game.id ∧ (isUuid gameId = true → game.id = uuidOf gameId) := by
  obtain ⟨hvisible, he⟩ := editable_ok h
  have hlookup := (visible_ok hvisible).1
  obtain ⟨row, hrow, rfl⟩ := lookup_mem hlookup
  refine ⟨Editable.of_find? hs (Table.find?_of_mem hrow) he, fun hid => ?_⟩
  unfold State.lookup at hlookup
  rw [if_pos hid] at hlookup
  obtain ⟨row', hfound, hsame⟩ := Option.map_eq_some_iff.mp (Except.ok.inj hlookup)
  have hkey : row'.id = uuidOf gameId := Table.key_of_find? hfound
  rw [← hkey]
  exact congrArg (fun game : GameRecord => game.id) hsame.symm

/-- A program that starts by asking for a game the actor may edit. -/
theorem editableGame_bind {α : Type} {gameId : Bytes} {f : GameRecord → Coroutine α}
    (h : ∀ s' (game : GameRecord), Editable actor s' game.id →
      (isUuid gameId = true → game.id = uuidOf gameId) →
      Confined env actor (fun _ _ => True) (f game) s') :
    Harmless env actor (editableGame actor gameId >>= f) := by
  intro s
  refine Program.safe_bind (editableGame_confined (fun s' hs _ => ?_))
  cases hg : s'.editable env actor gameId with
  | error e => trivial
  | ok game =>
      obtain ⟨hedit, hid⟩ := editable_editable hs.sound hg
      exact h s' game hedit hid

/-- The version `versionOf` answers with is the one named, and stays one of the game's. -/
theorem versionOf_confined {gameId : Uuid} {versionId : Bytes}
    {Q : Except Failure VersionRecord → State → Prop}
    (h : ∀ s' (version : VersionRecord), Evolves s s' → version.id = uuidOf versionId →
      Table.Fixed (·.gameId) s'.core.issued s'.core.versions (uuidOf versionId) gameId →
      Q (.ok version) s')
    (herror : ∀ e s', Q (.error e) s') : Confined env actor Q (versionOf gameId versionId) s := by
  unfold versionOf
  split
  · exact herror _ s
  · refine Program.safe_bind (await_confined _ (fun _ _ => rfl) (fun _ => rfl) (fun _ => trivial)
      (fun s' hs he => ?_))
    cases hv : s'.core.versions.find? (uuidOf versionId) with
    | none => exact herror _ s'
    | some version =>
        show Confined env actor Q (if version.gameId = gameId then pure (s'.readVersion version)
          else refuse .NotFound NO_SUCH_VERSION) s'
        split
        · rename_i hg
          have hkey : version.id = uuidOf versionId := Table.key_of_find? hv
          have hissued : uuidOf versionId ∈ s'.core.issued :=
            hkey ▸ hs.sound.versions version (Table.mem_of_find? hv)
          have hfixed := Table.Fixed.of_find? (·.gameId) hissued hv
          rw [hg] at hfixed
          exact h s' _ he hkey hfixed
        · exact herror _ s'

/-- A row found by its own id, of a game that is asked about next. -/
theorem editableRow_confined {α : Type} {noSuchRow : Bytes} (row : α) (gameOf : α → Uuid)
    {Q : Except Failure α → State → Prop}
    (h : ∀ s', Evolves s s' → Editable actor s' (gameOf row) → Q (.ok row) s')
    (herror : ∀ e s', Q (.error e) s') :
    Confined env actor Q
      (do match ← .await (.findGameById (gameOf row)) with
          | none => refuse .NotFound noSuchRow
          | some game =>
              if !mayViewGame game.toGame actor then refuse .NotFound noSuchRow
              else if !mayEditGame game.toGame actor then refuse .Forbidden NOT_YOURS
              else pure row : Coroutine α) s := by
  refine Program.safe_bind (await_confined _ (fun _ _ => rfl) (fun _ => rfl) (fun _ => trivial)
    (fun s' hs he => ?_))
  cases hg : s'.core.games.find? (gameOf row) with
  | none => exact herror _ s'
  | some game =>
      show Confined env actor Q (if !mayViewGame game actor then refuse .NotFound noSuchRow
        else if !mayEditGame game actor then refuse .Forbidden NOT_YOURS else pure row) s'
      split
      · exact herror _ s'
      · split
        · exact herror _ s'
        · rename_i hedit
          exact h s' he (Editable.of_find? hs.sound hg (by simpa using hedit))

theorem editableMedia_confined {mediaId : Bytes} {Q : Except Failure GameMedia → State → Prop}
    (h : ∀ s' media,
      EditableRow actor s' s'.media (·.gameId) (uuidOf mediaId) → Q (.ok media) s')
    (herror : ∀ e s', Q (.error e) s') :
    Confined env actor Q (Media.editableMedia actor mediaId) s := by
  unfold Media.editableMedia
  split
  · exact herror _ s
  · refine Program.safe_bind (await_confined _ (fun _ _ => rfl) (fun _ => rfl) (fun _ => trivial)
      (fun s' hs _ => ?_))
    cases hm : s'.media.find? (uuidOf mediaId) with
    | none => exact herror _ s'
    | some media =>
        have hkey : media.id = uuidOf mediaId := Table.key_of_find? hm
        have hissued : uuidOf mediaId ∈ s'.core.issued :=
          hkey ▸ hs.sound.media media (Table.mem_of_find? hm)
        have hfixed := Table.Fixed.of_find? (·.gameId) hissued hm
        refine editableRow_confined media (·.gameId) (fun s'' he hedit => ?_) herror
        exact h s'' media ⟨media.gameId, hfixed.inherits he.issued he.media, hedit⟩

theorem editableNote_confined {noteId : Bytes} {Q : Except Failure PatchNote → State → Prop}
    (h : ∀ s' note,
      Table.Fixed (·.gameId) s'.core.issued s'.notes (uuidOf noteId) note.gameId →
      Editable actor s' note.gameId → Q (.ok note) s')
    (herror : ∀ e s', Q (.error e) s') :
    Confined env actor Q (Notes.editableNote actor noteId) s := by
  unfold Notes.editableNote
  split
  · exact herror _ s
  · refine Program.safe_bind (await_confined _ (fun _ _ => rfl) (fun _ => rfl) (fun _ => trivial)
      (fun s' hs _ => ?_))
    cases hn : s'.notes.find? (uuidOf noteId) with
    | none => exact herror _ s'
    | some note =>
        have hkey : note.id = uuidOf noteId := Table.key_of_find? hn
        have hissued : uuidOf noteId ∈ s'.core.issued :=
          hkey ▸ hs.sound.notes note (Table.mem_of_find? hn)
        have hfixed := Table.Fixed.of_find? (·.gameId) hissued hn
        refine editableRow_confined (s'.readNote note) (·.gameId) (fun s'' he hedit => ?_) herror
        exact h s'' (s'.readNote note) (hfixed.inherits he.issued he.notes) hedit

/-- The version of a note is none, or the one named if it is one of the game's. -/
theorem noteVersion_confined {gameId : Uuid} {versionId : Bytes}
    {Q : Except Failure (Option Uuid) → State → Prop}
    (h : ∀ s', Evolves s s' → (versionId.isEmpty = false →
        Table.Fixed (·.gameId) s'.core.issued s'.core.versions (uuidOf versionId) gameId) →
      Q (.ok (if versionId.isEmpty then none else some (uuidOf versionId))) s')
    (herror : ∀ e s', Q (.error e) s') :
    Confined env actor Q (Notes.noteVersion gameId versionId) s := by
  unfold Notes.noteVersion
  split
  · rename_i hempty
    simp only [hempty, if_true] at h
    exact h s (Evolves.refl s) (fun hne => by cases hne)
  · rename_i hempty
    simp only [if_neg hempty] at h
    refine Program.safe_bind (versionOf_confined (fun s' version he hid hfixed => ?_) herror)
    show Q (.ok (some version.id)) s'
    rw [hid]
    exact h s' he (fun _ => hfixed)

end Lookups

/-! ## The operations, one by one -/

section Operations

variable {env : Env} {actor : Actor} {gameId : Bytes}

theorem harmless_visibleGame {idOrSlug : Bytes} :
    Harmless env actor (visibleGame actor idOrSlug) :=
  fun _ => visibleGame_confined (fun _ _ _ => trivial)

theorem harmless_createGame {command : CreateGameCommand} :
    Harmless env actor (createGame actor command) := by
  intro s
  refine demand_bind (require_bind (fun game => ?_))
  refine statement_bind (fun _ _ _ => .of_none rfl trivial) (fun created => ?_)
  cases created <;> exact harmless_done

/-- PostgreSQL reads the canonical spelling of a uuid as `isUuid` does. -/
theorem harmless_updateGame {changes : GameUpdate}
    (hcast : ∀ text, isUuid text = true → env.castUuid text = some (uuidOf text)) :
    Harmless env actor (updateGame actor gameId changes) := by
  refine editableGame_bind (fun s game hedit hid => ?_)
  split
  · trivial
  · refine require_bind (fun changes => ?_)
    refine statement_bind (fun s' _ he => ⟨fun haimed g row hg hrow => ?_, trivial⟩)
      (fun updated => by cases updated <;> exact harmless_done)
    have hg : env.castUuid gameId = some g := hg
    cases huuid : isUuid gameId with
    | true =>
        rw [hcast gameId huuid, ← hid huuid] at hg
        obtain rfl := Option.some.inj hg
        exact (hedit.evolves he).mayEdit hrow
    | false =>
        -- the game that was looked up is another one: this is where `aimed` is needed
        simpa [aimed, huuid, hg, hrow] using haimed

theorem harmless_createVersion {command : CreateVersionCommand} :
    Harmless env actor (createVersion actor gameId command) := by
  refine fun s => demand_bind (editableGame_bind (fun s game hedit _ => ?_) s)
  refine require_bind (fun version => require_bind (fun _ => ?_))
  refine statement_bind (fun s' _ he => .of_editable trivial (fun g hg => ?_))
    (fun created => by cases created <;> exact harmless_done)
  obtain rfl := Option.some.inj hg
  exact hedit.evolves he

theorem harmless_updateVersion {versionId : Bytes} {changes : GameVersionUpdate} :
    Harmless env actor (updateVersion actor gameId versionId changes) := by
  refine fun s => demand_bind (editableGame_bind (fun s game hedit _ => ?_) s)
  refine Program.safe_bind (versionOf_confined (fun s' version he hid hfixed => ?_)
    (fun _ _ => trivial))
  have hrow : EditableRow actor s' s'.core.versions (·.gameId) (uuidOf versionId) :=
    ⟨game.id, hfixed, hedit.evolves he⟩
  show Confined env actor _ (if changes.empty then _ else _) s'
  split
  · trivial
  · refine require_bind (fun _ => ?_)
    refine statement_bind (fun s'' _ he => ⟨fun _ g row hg hgame => ?_, trivial⟩)
      (fun updated => by cases updated <;> exact harmless_done)
    exact (hrow.evolves he he.versions).mayEdit hg hgame

theorem harmless_reclaim {storageKey : Bytes} : Harmless env actor (reclaim storageKey) := by
  unfold reclaim
  split
  · exact harmless_done
  · refine Harmless.bind (harmless_await (fun _ => rfl) (fun _ => trivial)) (fun stillUsed => ?_)
    split
    · exact harmless_done
    · exact harmless_await (fun _ => rfl) (fun _ => trivial)

theorem harmless_reclaimAll : ∀ storageKeys : List Bytes,
    Harmless env actor (reclaimAll storageKeys)
  | [] => harmless_done
  | _ :: rest => Harmless.bind harmless_reclaim (fun _ => harmless_reclaimAll rest)

theorem harmless_deleteGame {idOrSlug : Bytes} :
    Harmless env actor (deleteGame actor idOrSlug) := by
  refine editableGame_bind (fun s game hedit _ => ?_)
  refine Program.Safe.bind (fun s' _ he => ⟨.of_editable trivial (fun g hg => ?_),
    fun _ => trivial⟩) (fun removed => ?_)
  · obtain rfl := Option.some.inj hg
    exact hedit.evolves he
  · cases removed with
    | none => exact harmless_done
    | some mediaStorageKeys => exact harmless_reclaimAll mediaStorageKeys

theorem harmless_upload {command : Media.UploadMediaCommand} :
    Harmless env actor (Media.upload env actor gameId command) := by
  refine editableGame_bind (fun s game hedit _ => require_bind (fun format => ?_))
  have hgallery : Confined env actor (fun _ s' => Editable actor s' game.id)
      (Media.checkGallery game.id command.kind) s := by
    unfold Media.checkGallery
    split
    · exact hedit
    · refine Program.safe_bind (await_evolves (fun _ => rfl) (fun _ => trivial)
        (fun existing s' he => ?_))
      show Confined env actor _ (if _ then _ else _) s'
      split <;> exact hedit.evolves he
  refine Program.safe_bind (hgallery.mono (fun r s' hedit => ?_))
  cases r with
  | error e => trivial
  | ok _ =>
      refine Program.safe_bind (await_evolves (fun _ => rfl) (fun _ => trivial)
        (fun stored s' he => require_bind (fun storageKey => ?_)))
      have hedit := hedit.evolves he
      refine statement_bind (fun s' _ he => .of_editable trivial (fun g hg => ?_)) (fun created => ?_)
      · obtain rfl := Option.some.inj hg
        exact hedit.evolves he
      · exact Harmless.bind harmless_reclaim (fun _ => harmless_done)

theorem harmless_updateMedia {mediaId : Bytes} {changes : GameMediaUpdate} :
    Harmless env actor (Media.update actor mediaId changes) := by
  refine fun s => Program.safe_bind (editableMedia_confined (fun s' existing hrow => ?_)
    (fun _ _ => trivial))
  show Confined env actor _ (if changes.empty then _ else _) s'
  split
  · trivial
  · refine require_bind (fun _ => ?_)
    refine statement_bind (fun s'' _ he => ⟨fun _ g row hg hgame => ?_, trivial⟩)
      (fun updated => by cases updated <;> exact harmless_done)
    exact (hrow.evolves he he.media).mayEdit hg hgame

theorem harmless_removeMedia {mediaId : Bytes} :
    Harmless env actor (Media.remove actor mediaId) := by
  refine fun s => Program.safe_bind (editableMedia_confined (fun s' existing hrow => ?_)
    (fun _ _ => trivial))
  refine Program.Safe.bind (fun s'' _ he => ⟨⟨fun _ g row hg hgame => ?_, trivial⟩,
    fun _ => trivial⟩) (fun removed => ?_)
  · exact (hrow.evolves he he.media).mayEdit hg hgame
  · cases removed with
    | none => exact harmless_done
    | some removed => exact harmless_reclaim

theorem harmless_createNote {command : Notes.CreatePatchNoteCommand} :
    Harmless env actor (Notes.create actor gameId command) := by
  refine editableGame_bind (fun s game hedit _ => ?_)
  refine require_bind (fun _ => require_bind (fun _ => ?_))
  refine Program.safe_bind (noteVersion_confined (fun s' he hfixed => ?_) (fun _ _ => trivial))
  have hedit := hedit.evolves he
  refine fun s'' _ he => ⟨⟨fun _ g row hg hgame => ?_, fun v row hv hrow => ?_⟩, fun _ => ?_⟩
  · obtain rfl := Option.some.inj hg
    exact (hedit.evolves he).mayEdit hgame
  · -- the version that was looked up is still one of the game's
    dsimp only at hv
    split at hv
    · cases hv
    · rename_i hempty
      obtain rfl := Option.some.inj hv
      exact ((hfixed (by simpa using hempty)).inherits he.issued he.versions).eq_of_find? hrow
  · show Confined env actor _ (.ofExcept _) _
    trivial

theorem harmless_updateNote {noteId : Bytes} {changes : PatchNoteUpdate} :
    Harmless env actor (Notes.update actor noteId changes) := by
  refine fun s => Program.safe_bind (editableNote_confined (fun s' existing hnote hedit => ?_)
    (fun _ _ => trivial))
  show Confined env actor _ (if changes.empty then _ else _) s'
  split
  · trivial
  · refine require_bind (fun changes => ?_)
    refine Program.safe_bind (noteVersion_confined (fun s'' he hfixed => ?_) (fun _ _ => trivial))
    have hnote := hnote.inherits he.issued he.notes
    have hedit := hedit.evolves he
    refine statement_bind (fun t ht he => ⟨fun _ g row hg hgame => ?_,
      fun note v row hfound hv hrow => ?_⟩) (fun updated => by cases updated <;> exact harmless_done)
    · have hrow : EditableRow actor s'' s''.notes (·.gameId) (uuidOf noteId) :=
        ⟨existing.gameId, hnote, hedit⟩
      exact (hrow.evolves he he.notes).mayEdit hg hgame
    · have hgame : note.gameId = existing.gameId :=
        (hnote.inherits he.issued he.notes).eq_of_find? hfound
      unfold PatchNoteUpdate.version at hv
      cases htext : changes.gameVersionId with
      | none =>
          -- the note keeps the version it has
          rw [htext] at hv
          obtain ⟨row', hrow', hid, hg⟩ := gameOfVersion_eq_some.mp
            (ht.linked note (Table.mem_of_find? hfound) v hv)
          obtain rfl : row' = row :=
            Option.some.inj ((Table.find?_eq_some.mpr ⟨hrow', hid⟩).symm.trans hrow)
          exact hg
      | some text =>
          rw [htext] at hv
          dsimp only at hv
          split at hv
          · cases hv
          · rename_i hempty
            obtain rfl := Option.some.inj hv
            rw [htext] at hfixed
            have hversion := (hfixed (by simpa using hempty)).inherits he.issued he.versions
            exact (hversion.eq_of_find? hrow).trans hgame.symm

theorem harmless_removeNote {noteId : Bytes} :
    Harmless env actor (Notes.remove actor noteId) := by
  refine fun s => Program.safe_bind (editableNote_confined (fun s' existing hnote hedit => ?_)
    (fun _ _ => trivial))
  have hrow : EditableRow actor s' s'.notes (·.gameId) (uuidOf noteId) :=
    ⟨existing.gameId, hnote, hedit⟩
  refine Program.Safe.bind (fun s'' _ he => ⟨⟨fun _ g row hg hgame => ?_, trivial⟩,
    fun _ => trivial⟩) (fun removed => ?_)
  · exact (hrow.evolves he he.notes).mayEdit hg hgame
  · show Harmless env actor (if removed then _ else _)
    split <;> exact harmless_done

end Operations

/-! ## Operations that write no game's rows -/

section Reading

variable {env : Env} {actor : Actor} {idOrSlug : Bytes}

theorem harmless_gameDetail : Harmless env actor (gameDetail actor idOrSlug) := by
  refine Harmless.bind harmless_demand (fun _ => Harmless.bind harmless_visibleGame (fun game => ?_))
  refine Harmless.bind (harmless_await (fun _ => rfl) (fun _ => trivial)) (fun versions => ?_)
  have hbuilds : Harmless env actor (listForVersions (versions.map (·.id))) := by
    unfold listForVersions
    split
    · exact harmless_done
    · exact harmless_await (fun _ => rfl) (fun _ => trivial)
  refine Harmless.bind hbuilds (fun builds => ?_)
  refine Harmless.bind (harmless_await (fun _ => rfl) (fun _ => trivial)) (fun media => ?_)
  exact Harmless.bind (harmless_await (fun _ => rfl) (fun _ => trivial)) (fun _ => harmless_done)

theorem harmless_search {query : GameQuery} : Harmless env actor (search query) := by
  refine Harmless.bind (harmless_statement (fun _ => rfl) (fun _ => trivial)) (fun items => ?_)
  exact Harmless.bind (harmless_statement (fun _ => rfl) (fun _ => trivial))
    (fun _ => harmless_done)

theorem harmless_addToLibrary : Harmless env actor (addToLibrary actor idOrSlug) := by
  refine Harmless.bind harmless_demand (fun _ => Harmless.bind harmless_visibleGame (fun game => ?_))
  refine Harmless.bind (harmless_statement (fun _ => rfl) (fun _ => trivial)) (fun present => ?_)
  split <;> exact harmless_done

theorem harmless_removeFromLibrary : Harmless env actor (removeFromLibrary actor idOrSlug) := by
  refine Harmless.bind harmless_demand (fun _ => ?_)
  split
  · exact harmless_done
  · refine Harmless.bind (harmless_await (fun _ => rfl) (fun _ => trivial)) (fun removed => ?_)
    split <;> exact harmless_done

theorem harmless_library : Harmless env actor (library actor) :=
  Harmless.bind harmless_demand (fun _ => harmless_await (fun _ => rfl) (fun _ => trivial))

theorem harmless_listMedia : Harmless env actor (Media.listForGame actor idOrSlug) :=
  Harmless.bind harmless_demand (fun _ => Harmless.bind harmless_visibleGame
    (fun _ => harmless_await (fun _ => rfl) (fun _ => trivial)))

theorem harmless_listNotes {limit offset : Int} :
    Harmless env actor (Notes.listForGame actor idOrSlug limit offset) := by
  refine Harmless.bind harmless_demand (fun _ => Harmless.bind harmless_visibleGame (fun game => ?_))
  refine Harmless.bind (harmless_await (fun _ => rfl) (fun _ => trivial)) (fun items => ?_)
  exact Harmless.bind (harmless_await (fun _ => rfl) (fun _ => trivial)) (fun _ => harmless_done)

theorem harmless_downloadableBuild {buildId : Bytes} :
    Harmless env actor (downloadableBuild actor buildId) := by
  unfold downloadableBuild
  split
  · exact harmless_done
  · exact Harmless.bind (harmless_await (fun _ => rfl) (fun _ => trivial)) (fun _ => harmless_done)

theorem harmless_installedFrom {target : BuildOwnership} {fromBuildId : Bytes} :
    Harmless env actor (installedFrom actor target fromBuildId) := by
  unfold installedFrom
  split
  · exact harmless_done
  · refine Harmless.bind harmless_downloadableBuild (fun source => ?_)
    split
    · exact harmless_done
    · split
      · exact harmless_done
      · exact Harmless.bind (harmless_await (fun _ => rfl) (fun _ => trivial))
          (fun _ => harmless_done)

theorem harmless_plan {buildId fromBuildId : Bytes} :
    Harmless env actor (plan env actor buildId fromBuildId) := by
  refine Harmless.bind harmless_downloadableBuild (fun target => ?_)
  refine Harmless.bind harmless_require (fun target => ?_)
  refine Harmless.bind harmless_installedFrom (fun installed => ?_)
  refine Harmless.bind (harmless_await (fun _ => rfl) (fun _ => trivial)) (fun build => ?_)
  split
  · exact harmless_done
  · refine Harmless.bind (harmless_await (fun _ => rfl) (fun _ => trivial)) (fun files => ?_)
    refine Harmless.bind (harmless_await (fun _ => rfl) (fun _ => trivial)) (fun now => ?_)
    refine Harmless.bind ?_ (fun _ => harmless_done)
    unfold recordPlan
    split
    · exact harmless_done
    · exact harmless_statement (fun _ => rfl) (fun _ => trivial)

theorem harmless_verifyInstall {buildId : Bytes} {installed : List InstalledFile} :
    Harmless env actor (verifyInstall env actor buildId installed) := by
  refine Harmless.bind harmless_downloadableBuild (fun ownership => ?_)
  refine Harmless.bind harmless_require (fun ownership => ?_)
  refine Harmless.bind harmless_require (fun observed => ?_)
  refine Harmless.bind (harmless_await (fun _ => rfl) (fun _ => trivial)) (fun build => ?_)
  split
  · exact harmless_done
  · refine Harmless.bind (harmless_await (fun _ => rfl) (fun _ => trivial)) (fun expected => ?_)
    exact Harmless.bind (harmless_await (fun _ => rfl) (fun _ => trivial)) (fun _ => harmless_done)

end Reading

/-! ## The coroutines of the upload side -/

/-- What `actor`'s coroutines know at the points where they are suspended. -/
def CoreGrounded (actor : Actor) (s : State) : Launcher.Task → Prop
  | .createBuild (.findGame caller _ _) => caller = actor
  | .createBuild (.findVersion game _) => Editable actor s game.id
  | .createBuild (.createBuild build) =>
      EditableRow actor s s.core.versions (·.gameId) build.gameVersionId
  | .finalizeBuild (.findOwnership caller _ _) => caller = actor
  | .finalizeBuild (.findMany build _) => EditableBuild actor s build.buildId
  | .finalizeBuild (.finalize build _ _) => EditableBuild actor s build.buildId
  | .deleteBuild (.findOwnership caller _) => caller = actor
  | .deleteBuild (.removeBuild buildId) => EditableBuild actor s buildId
  | .deleteVersion (.findGame caller _ _) => caller = actor
  | .deleteVersion (.findVersion game _) => Editable actor s game.id
  | .deleteVersion (.removeVersion versionId) =>
      EditableRow actor s s.core.versions (·.gameId) versionId
  -- games are deleted by the program that reclaims their artwork, and only timers mark failures
  | .deleteGame _ => False
  | .markFailed _ => False
  | .markedFailed _ => False
  | _ => True

section Core

variable {env : Env} {actor : Actor} {s s' : State}

theorem coreGrounded_of_kind {t : Launcher.Task} (h : t.kind.writesBuilds = false) :
    CoreGrounded actor s t := by
  cases t <;> trivial

theorem CoreGrounded.evolves {t : Launcher.Task} (h : CoreGrounded actor s t)
    (he : Evolves s s') : CoreGrounded actor s' t := by
  cases t with
  | createBuild t =>
      cases t with
      | findVersion game _ => exact Editable.evolves h he
      | createBuild build => exact EditableRow.evolves h he he.versions
      | _ => exact h
  | finalizeBuild t =>
      cases t with
      | findMany build _ => exact EditableBuild.evolves h he
      | finalize build _ _ => exact EditableBuild.evolves h he
      | _ => exact h
  | deleteBuild t =>
      cases t with
      | removeBuild buildId => exact EditableBuild.evolves h he
      | _ => exact h
  | deleteVersion t =>
      cases t with
      | findVersion game _ => exact Editable.evolves h he
      | removeVersion versionId => exact EditableRow.evolves h he he.versions
      | _ => exact h
  | _ => exact h

theorem coreTarget_of_quiet {α : Type} {c : Launcher.Call α} (h : c.writesBuilds = false) :
    s.coreTarget c = none := by
  cases c <;> first | rfl | cases h

/-- The game that `Catalog.editableGame` lets through. -/
theorem coreGame_editable (hs : Sound s) {idOrSlug : Bytes} {game : Game}
    (h : Catalog.editableGame actor (gameNamed s.core idOrSlug) = .ok game) :
    Editable actor s game.id := by
  obtain ⟨hfound, he⟩ := coreEditableGame_ok h
  exact Editable.of_find? hs (Table.find?_of_mem (gameNamed_mem hfound)) he

/-- The version that `Catalog.versionOf` lets through. -/
theorem coreVersion_editable (hs : Sound s) {game : Game} (hgame : Editable actor s game.id)
    {versionId : Uuid} {version : GameVersion}
    (h : Catalog.versionOf game (s.core.versions.find? versionId) = .ok version) :
    version.id = versionId ∧ EditableRow actor s s.core.versions (·.gameId) versionId := by
  obtain ⟨hfound, hg⟩ := coreVersionOf_ok h
  have hkey : version.id = versionId := Table.key_of_find? hfound
  have hissued : versionId ∈ s.core.issued :=
    hkey ▸ hs.versions version (Table.mem_of_find? hfound)
  have hfixed := Table.Fixed.of_find? (·.gameId) hissued hfound
  rw [hg] at hfixed
  exact ⟨hkey, game.id, hfixed, hgame⟩

/-- The build whose ownership record says that the actor may publish it. -/
theorem ownership_editable (hs : Sound s) {buildId : Uuid} {ownership : BuildOwnership}
    (h : s.core.findOwnership buildId = some ownership)
    (hmay : mayPublishBuild ownership actor = true) :
    ownership.buildId = buildId ∧ EditableBuild actor s buildId := by
  obtain ⟨b, v, game, hb, hv, hgame, rfl⟩ := Launcher.State.findOwnership_eq_some.mp h
  have hkey : b.id = buildId := Table.key_of_find? hb
  have hbissued : buildId ∈ s.core.issued := hkey ▸ hs.builds b (Table.mem_of_find? hb)
  have hvissued : b.gameVersionId ∈ s.core.issued := by
    rw [← Table.key_of_find? hv]
    exact hs.versions v (Table.mem_of_find? hv)
  refine ⟨hkey, b.gameVersionId, Table.Fixed.of_find? _ hbissued hb, v.gameId,
    Table.Fixed.of_find? _ hvissued hv, ?_⟩
  exact Editable.of_find? hs hgame hmay

/-- A call of the upload side among the calls of all services. -/
abbrev CoreStep (env : Env) (actor : Actor) (s : State) {α : Type} (c : Launcher.Call α)
    (k : α → Launcher.Task) : Prop :=
  Admits env actor s (.core c) ∧ ∀ choice, CoreGrounded actor (exec env choice (.core c) s).2
    (k (exec env choice (.core c) s).1)

/-- What starts from a game by its address goes on with one the actor may edit. -/
theorem coreSteps_findGame (hs : Valid s) {gameId : Bytes} {next : Option Game → Launcher.Task}
    (hnext : ∀ found, (∀ game, Catalog.editableGame actor found = .ok game →
      Editable actor s game.id) → CoreGrounded actor s (next found)) :
    (Suspended.call (Catalog.findGame gameId) next).All (fun c k => CoreStep env actor s c k) := by
  have hquiet : s.coreTarget (Catalog.findGame gameId) = none := by
    unfold Catalog.findGame
    split <;> rfl
  refine ⟨.of_none hquiet trivial, fun choice => ?_⟩
  rw [exec_findGame]
  exact hnext _ (fun game hgame => coreGame_editable hs.sound hgame)

theorem next_createBuild (hs : Valid s) {t : CreateBuild}
    (h : CoreGrounded actor s (.createBuild t)) :
    ((Launcher.Task.createBuild t).next env.core).All (fun c k => CoreStep env actor s c k) := by
  cases t with
  | findGame caller gameId command =>
      obtain rfl : caller = actor := h
      refine coreSteps_findGame hs (fun found hfound => ?_)
      cases hg : Catalog.editableGame caller found with
      | error e => simp only [hg]; trivial
      | ok game =>
          simp only [hg]
          split
          · trivial
          · exact hfound game hg
  | findVersion game command =>
      refine ⟨.of_none rfl trivial, fun choice => ?_⟩
      rw [exec_findVersion]
      cases hv : Catalog.versionOf game
          (s.core.versions.find? (uuidOf command.versionId)) with
      | error e => simp only [hv]; trivial
      | ok version =>
          simp only [hv]
          split
          · trivial
          · obtain ⟨hid, hrow⟩ := coreVersion_editable hs.sound h hv
            show EditableRow actor s s.core.versions (·.gameId) version.id
            rw [hid]
            exact hrow
  | createBuild build =>
      refine ⟨⟨fun _ g game hg hgame => EditableRow.mayEdit h hg hgame, trivial⟩,
        fun choice => ?_⟩
      cases (exec env choice (.core (.createBuild build)) s).1 with
      | error e => trivial
      | ok created => cases created <;> trivial
  | _ => trivial

theorem next_finalizeBuild (hs : Valid s) {t : FinalizeBuild}
    (h : CoreGrounded actor s (.finalizeBuild t)) :
    ((Launcher.Task.finalizeBuild t).next env.core).All (fun c k => CoreStep env actor s c k) := by
  cases t with
  | findOwnership caller buildId command =>
      refine ⟨.of_none rfl trivial, fun choice => ?_⟩
      rw [exec_findOwnership]
      obtain rfl : caller = actor := h
      cases ho : s.core.findOwnership buildId with
      | none => trivial
      | some ownership =>
          simp only [writableBuild]
          cases hmay : mayPublishBuild ownership caller with
          | false => trivial
          | true =>
              obtain ⟨hid, hbuild⟩ := ownership_editable hs.sound ho hmay
              rw [← hid] at hbuild
              by_cases hstatus : ownership.status = .Uploading
              · simp only [hstatus, ne_eq, not_true_eq_false, if_false, Bool.not_true,
                  Bool.false_eq_true]
                split
                · trivial
                · exact hbuild
              · simp only [hstatus, ne_eq, not_false_eq_true, if_true, Bool.not_true,
                  Bool.false_eq_true, if_false]
                trivial
  | findMany build command =>
      refine ⟨.of_none rfl trivial, fun choice => ?_⟩
      dsimp only
      split
      · exact EditableBuild.evolves h (hs.sound.exec env choice _).2
      · trivial
  | finalize build command manifest =>
      refine ⟨⟨fun _ g game hg hgame => EditableBuild.mayEdit h hg hgame, trivial⟩,
        fun choice => ?_⟩
      cases (exec env choice (.core (.finalizeBuild build.buildId manifest)) s).1 with
      | error e => trivial
      | ok finalized => cases finalized <;> trivial
  | _ => trivial

theorem next_deleteBuild (hs : Valid s) {t : DeleteBuild}
    (h : CoreGrounded actor s (.deleteBuild t)) :
    ((Launcher.Task.deleteBuild t).next env.core).All (fun c k => CoreStep env actor s c k) := by
  cases t with
  | findOwnership caller buildId =>
      refine ⟨.of_none rfl trivial, fun choice => ?_⟩
      rw [exec_findOwnership]
      obtain rfl : caller = actor := h
      cases ho : s.core.findOwnership buildId with
      | none => trivial
      | some ownership =>
          dsimp only
          split
          · trivial
          · split
            · trivial
            · rename_i hmay
              exact (ownership_editable hs.sound ho (by simpa using hmay)).2
  | removeBuild buildId =>
      refine ⟨⟨fun _ g game hg hgame => EditableBuild.mayEdit h hg hgame, trivial⟩,
        fun choice => ?_⟩
      dsimp only
      split <;> trivial
  | answered result => trivial

theorem next_deleteVersion (hs : Valid s) {t : DeleteVersion}
    (h : CoreGrounded actor s (.deleteVersion t)) :
    ((Launcher.Task.deleteVersion t).next env.core).All (fun c k => CoreStep env actor s c k) := by
  cases t with
  | findGame caller gameId versionId =>
      obtain rfl : caller = actor := h
      refine coreSteps_findGame hs (fun found hfound => ?_)
      cases hg : Catalog.editableGame caller found with
      | error e => simp only [hg]; trivial
      | ok game =>
          simp only [hg]
          split
          · trivial
          · exact hfound game hg
  | findVersion game versionId =>
      refine ⟨.of_none rfl trivial, fun choice => ?_⟩
      rw [exec_findVersion]
      cases hv : Catalog.versionOf game (s.core.versions.find? versionId) with
      | error e => simp only [hv]; trivial
      | ok version =>
          simp only [hv]
          exact (coreVersion_editable hs.sound h hv).2
  | removeVersion versionId =>
      refine ⟨⟨fun _ g game hg hgame => EditableRow.mayEdit h hg hgame, trivial⟩,
        fun choice => ?_⟩
      dsimp only
      split <;> trivial
  | answered result => trivial

variable (env) in
theorem next_coreGrounded (hs : Valid s) {t : Launcher.Task} (h : CoreGrounded actor s t) :
    (t.next env.core).All (fun c k => CoreStep env actor s c k) := by
  cases hk : t.kind.writesBuilds with
  | false =>
      refine (t.next_permits env.core).mono (fun c k hc => ⟨.of_none ?_ trivial, fun choice => ?_⟩)
      · refine coreTarget_of_quiet (Bool.eq_false_iff.mpr (fun hw => ?_))
        rw [hc.1.builds hw] at hk
        cases hk
      · exact coreGrounded_of_kind (by rw [hc.2]; exact hk)
  | true =>
      cases t with
      | createBuild t => exact next_createBuild hs h
      | finalizeBuild t => exact next_finalizeBuild hs h
      | deleteBuild t => exact next_deleteBuild hs h
      | deleteVersion t => exact next_deleteVersion hs h
      | deleteGame t => exact h.elim
      | markFailed buildId => exact h.elim
      | markedFailed marked => exact h.elim
      | _ => cases hk

end Core

/-! ## Every task -/

/-- What a task that is suspended knows. Programs are always somebody's. -/
def Grounded (env : Env) (s : State) (t : Task) : Prop :=
  match t.body with
  | .core u => ∀ actor, t.actor = some actor → CoreGrounded actor s u
  | .program p => ∃ actor, t.actor = some actor ∧ Confined env actor (fun _ _ => True) p s

section Tasks

variable {env : Env} {s s' : State}

theorem Grounded.evolves {t : Task} (h : Grounded env s t) (he : Evolves s s') :
    Grounded env s' t := by
  obtain ⟨asker, body⟩ := t
  cases body with
  | core u => exact fun actor ha => (h actor ha).evolves he
  | program p =>
      obtain ⟨actor, ha, hp⟩ := h
      exact ⟨actor, ha, hp.stable Evolves.trans he⟩

theorem grounded_start {α : Type} {actor : Actor} {p : Coroutine α} {reply : α → Reply}
    (h : Harmless env actor p) : Grounded env s (start actor p reply) :=
  ⟨actor, rfl, Harmless.bind h (fun _ => harmless_done) s⟩

theorem grounded_coreEntry (r : Launcher.Request) (hr : ∀ actor text, r ≠ .deleteGame actor text) :
    Grounded env s ⟨coreActor r, .core (Launcher.entry r)⟩ := by
  intro actor ha
  cases r with
  | createBuild caller gameId command =>
      obtain rfl := Option.some.inj ha
      show CoreGrounded caller s (.createBuild (createBuild caller gameId command))
      unfold createBuild
      split <;> trivial
  | finalizeBuild caller buildId command =>
      obtain rfl := Option.some.inj ha
      show CoreGrounded caller s (.finalizeBuild (finalizeBuild caller buildId command))
      unfold finalizeBuild
      split <;> trivial
  | deleteBuild caller buildId =>
      obtain rfl := Option.some.inj ha
      show CoreGrounded caller s (.deleteBuild (deleteBuild caller buildId))
      unfold deleteBuild
      split <;> trivial
  | deleteVersion caller gameId versionId => exact Option.some.inj ha
  | deleteGame caller idOrSlug => exact absurd rfl (hr caller idOrSlug)
  | markFailed buildId => cases ha
  | _ => trivial

theorem grounded_entry
    (hcast : ∀ text, isUuid text = true → env.castUuid text = some (uuidOf text)) (r : Request) :
    Grounded env s (entry env r) := by
  cases r with
  | core r =>
      cases r with
      | deleteGame actor idOrSlug => exact grounded_start harmless_deleteGame
      | _ => exact grounded_coreEntry _ (fun _ _ h => by cases h)
  | createGame actor command => exact grounded_start harmless_createGame
  | updateGame actor gameId changes => exact grounded_start (harmless_updateGame hcast)
  | gameDetail actor idOrSlug => exact grounded_start harmless_gameDetail
  | explore actor query =>
      exact grounded_start (Harmless.bind harmless_demand (fun _ => harmless_search))
  | publishedByActor actor query =>
      exact grounded_start (Harmless.bind harmless_demand (fun _ => harmless_search))
  | createVersion actor gameId command => exact grounded_start harmless_createVersion
  | updateVersion actor gameId versionId changes => exact grounded_start harmless_updateVersion
  | addToLibrary actor gameId => exact grounded_start harmless_addToLibrary
  | removeFromLibrary actor gameId => exact grounded_start harmless_removeFromLibrary
  | library actor => exact grounded_start harmless_library
  | listMedia actor idOrSlug => exact grounded_start harmless_listMedia
  | uploadMedia actor gameId command => exact grounded_start harmless_upload
  | updateMedia actor mediaId changes => exact grounded_start harmless_updateMedia
  | removeMedia actor mediaId => exact grounded_start harmless_removeMedia
  | listNotes actor idOrSlug limit offset => exact grounded_start harmless_listNotes
  | createNote actor gameId command => exact grounded_start harmless_createNote
  | updateNote actor noteId changes => exact grounded_start harmless_updateNote
  | removeNote actor noteId => exact grounded_start harmless_removeNote
  | plan actor buildId fromBuildId => exact grounded_start harmless_plan
  | verifyInstall actor buildId installed => exact grounded_start harmless_verifyInstall

/-- A task's next call: what its actor may do, and what the task knows after it. -/
theorem Grounded.next (hs : Valid s) {t : Task} (h : Grounded env s t) :
    (t.next env).All (fun c k => (∀ actor, t.actor = some actor → Admits env actor s c) ∧
      Links s c ∧ ∀ choice, Grounded env (exec env choice c s).2 (k (exec env choice c s).1)) := by
  obtain ⟨asker, body⟩ := t
  cases body with
  | core u =>
      show ((((u.next env.core).lift Call.core).map Body.core).map _).All _
      cases hn : u.next env.core with
      | done => trivial
      | call c k =>
          refine ⟨fun actor ha => ?_, trivial, fun choice actor ha => ?_⟩
          · have hstep := next_coreGrounded env hs (h actor ha)
            rw [hn] at hstep
            exact hstep.1
          · have hstep := next_coreGrounded env hs (h actor ha)
            rw [hn] at hstep
            exact hstep.2 choice
  | program p =>
      obtain ⟨actor, ha, hp⟩ := h
      have hstep := hp.step Evolves.refl hs
      show ((p.next.map Body.program).map _).All _
      cases hn : p.next with
      | done => trivial
      | call c k =>
          rw [hn] at hstep
          refine ⟨fun actor' ha' => ?_, hstep.1.links, fun choice => ⟨actor, ha, hstep.2 choice⟩⟩
          obtain rfl := Option.some.inj (ha.symm.trans ha')
          exact hstep.1

variable (env) in
theorem Valid.exec (hs : Valid s) (choice : Choice) {α : Type} {c : Call α} (hc : Links s c) :
    Valid (exec env choice c s).2 ∧ Evolves s (exec env choice c s).2 := by
  obtain ⟨hsound, he⟩ := hs.sound.exec env choice c
  exact ⟨⟨hsound, hs.linked.exec choice c hc⟩, he⟩

theorem Valid.outside (hs : Valid s) (e : Outside) :
    Valid (outside e s) ∧ Evolves s (outside e s) := by
  obtain ⟨hsound, he⟩ := hs.sound.outside e
  refine ⟨⟨hsound, ?_⟩, he⟩
  cases e <;> exact hs.linked

theorem Initial.valid {w : Server} (hw : Initial w) : Valid w.shared where
  sound := hw.sound
  linked := by
    intro n hn
    rw [hw.notes] at hn
    cases hn

/-- **What every state the catalog reaches has**, with what its tasks know. -/
theorem run_grounded
    (hcast : ∀ text, isUuid text = true → env.castUuid text = some (uuidOf text)) {w : Server}
    (hw : Initial w) (ls : List Move) :
    Valid ((storefront env).run w ls).shared ∧
      ∀ (i : Nat) t, ((storefront env).run w ls).tasks[i]? = some t →
        Grounded env ((storefront env).run w ls).shared t := by
  refine System.pool_invariant (A := fun _ _ => True) (fun r s _ => grounded_entry hcast r)
    (fun w' i choice t hs hall hi _ => ?_) (fun e s hs => ?_) ls w hw.valid (fun i t hi => ?_)
    (System.along_true _ _)
  · refine ((hall i t hi).next hs).wp (fun c k hc r s' e => ?_)
    obtain ⟨_, hlinks, hnext⟩ := hc
    obtain ⟨hvalid, he⟩ := hs.exec env choice hlinks
    have hgrounded := hnext choice
    rw [show exec env choice c w'.shared = (r, s') from e] at hvalid he hgrounded
    exact ⟨hvalid, hgrounded, fun j t' _ hj => (hall j t' hj).evolves he⟩
  · obtain ⟨hvalid, he⟩ := hs.outside e
    exact ⟨hvalid, fun t ht => ht.evolves he⟩
  · rw [hw.tasks] at hi
    cases hi

end Tasks

/-! ## Other people's games -/

/-- A step taken for somebody who does not manage every game leaves the rows of all games of
other publishers as they are. -/
def OthersKept (env : Env) (w : Server) : Move → Prop
  | .resume i choice => ∀ t actor, w.tasks[i]? = some t → t.actor = some actor →
      actor.managesAnyGame = false → ∀ g game, w.shared.core.games.find? g = some game →
        game.publisherUserId ≠ actor.userId →
          ((storefront env).step w (.resume i choice)).shared.rowsOf g = w.shared.rowsOf g
  | _ => True

/-- The step's call, if it is taken for somebody, is `aimed`. -/
def Aimed (env : Env) (w : Server) : Move → Prop
  | .resume i _ => ∀ t actor, w.tasks[i]? = some t → t.actor = some actor →
      (t.next env).All (fun c _ => aimed env actor w.shared c = true)
  | _ => True

/-- Notes and builds are of versions of the games that they and their ownership records name. -/
structure VersionsOwn (s : State) : Prop where
  notes : ∀ n ∈ s.notes, ∀ id, n.gameVersionId = some id →
    ∃ v, s.core.versions.find? id = some v ∧ v.gameId = n.gameId
  builds : ∀ b ∈ s.core.builds, ∃ ownership v, s.core.findOwnership b.id = some ownership ∧
    s.core.versions.find? b.gameVersionId = some v ∧ v.gameId = ownership.gameId

theorem Valid.versionsOwn {s : State} (h : Valid s) : VersionsOwn s where
  notes n hn id hid := Option.map_eq_some_iff.mp (h.linked n hn id hid)
  builds b hb := by
    obtain ⟨v, hv⟩ := Option.isSome_iff_exists.mp (h.sound.buildVersion b hb)
    obtain ⟨g, hg⟩ := Option.isSome_iff_exists.mp (h.sound.versionGame v (Table.mem_of_find? hv))
    exact ⟨_, v, Launcher.State.findOwnership_eq_some.mpr
      ⟨b, v, g, Table.find?_of_mem hb, hv, hg, rfl⟩, hv, rfl⟩

theorem othersKept_of_grounded {env : Env} {w : Server} (hs : Valid w.shared)
    (hall : ∀ (i : Nat) t, w.tasks[i]? = some t → Grounded env w.shared t) {l : Move}
    (hl : Aimed env w l) : OthersKept env w l := by
  cases l with
  | request r => trivial
  | outside e => trivial
  | resume i choice =>
      intro t actor hi ha hmanages g game hgame hother
      have hnext := (hall i t hi).next hs
      have haimed := hl t actor hi ha
      cases hn : t.next env with
      | done =>
          rw [System.step_idle (storefront env) hi hn]
      | call c k =>
          rw [hn] at hnext haimed
          rw [System.step_resume (storefront env) hi hn]
          refine (Spares.exec hs.sound hs.linked (by rw [hgame]; rfl) choice c (fun htarget => ?_)).rowsOf
          -- a call with this target is only made by its publisher
          have hmay := (hnext.1 actor ha).owned haimed g game htarget hgame
          rcases mayEditGame_iff.mp hmay with hm | hown
          · rw [hm] at hmanages
            cases hmanages
          · exact hother hown

/-- **Ownership confinement.** In every run, every step taken for an actor who does not manage
every game keeps the rows of other publishers' games, if its call is `aimed`; and in every state
reached, versions are of the games they should be of. -/
theorem others_kept (env : Env)
    (hcast : ∀ text, isUuid text = true → env.castUuid text = some (uuidOf text)) (w : Server)
    (hw : Initial w) (ls : List Move) :
    (∀ l, Aimed env ((storefront env).run w ls) l →
      OthersKept env ((storefront env).run w ls) l) ∧
    VersionsOwn ((storefront env).run w ls).shared := by
  obtain ⟨hs, hall⟩ := run_grounded hcast hw ls
  exact ⟨fun l hl => othersKept_of_grounded hs hall hl, hs.versionsOwn⟩

section Demo

open Launcher.Demo (alice)
open Storefront.Demo (carol drawing)

theorem demo_castUuid (text : Bytes) (h : isUuid text = true) :
    Demo.env.castUuid text = some (uuidOf text) := by
  show (if isUuid text || (text.length == 32 && text.all isHexDigit) then some (uuidOf text)
    else none) = some (uuidOf text)
  rw [h, Bool.true_or, if_pos rfl]

/-- A second publisher. -/
def dave : Actor := ⟨2, [.GAME_READ, .GAME_PUBLISH]⟩

def listing (title slug : Bytes) : CreateGameCommand :=
  { title := title, slug := slug, summary := [], description := [], releaseDate := [],
    visibility := .Public }

/-- The id of game 4 without its hyphens; a slug may look like this. -/
def slugOfFour : Bytes := ascii "00000000000000000000000000000004"

/-- Tasks 0 and 1: alice publishes game 4, and dave publishes game 5 with the slug above. -/
def decoyed : List Move :=
  .request (.createGame alice (listing (ascii "Game") [])) :: drawing 4 0 1
    ++ .request (.createGame dave (listing (ascii "Decoy") slugOfFour)) :: drawing 5 1 1

/-- Task 2: dave renames the game with that slug, and is in front of the update. -/
def aboutToRename : List Move :=
  decoyed ++ .request (.updateGame dave slugOfFour { title := some (ascii "Stolen") }) ::
    drawing 0 2 1

theorem others_kept_decoyed :
    (∀ l, Aimed Demo.env ((storefront Demo.env).run Demo.opened decoyed) l →
      OthersKept Demo.env ((storefront Demo.env).run Demo.opened decoyed) l) ∧
    VersionsOwn ((storefront Demo.env).run Demo.opened decoyed).shared :=
  others_kept Demo.env demo_castUuid Demo.opened Demo.initial_opened decoyed

/-- The update changes alice's game. -/
theorem renamed_by_stranger :
    Initial Demo.opened ∧
    ¬OthersKept Demo.env ((storefront Demo.env).run Demo.opened aboutToRename)
      (.resume 2 ⟨0, .none⟩) := by
  refine ⟨Demo.initial_opened, fun h => ?_⟩
  have hasked : (((storefront Demo.env).run Demo.opened aboutToRename).tasks[2]?).map
      (fun t => t.actor) = some (some dave) := by decide +kernel
  have hgame : ((storefront Demo.env).run Demo.opened aboutToRename).shared.core.games.find? 4
      = some ⟨4, ascii "game", 1, .Public⟩ := by decide +kernel
  obtain ⟨t, hi, ha⟩ := Option.map_eq_some_iff.mp hasked
  have hkept := congrArg GameRows.game
    (h t dave hi ha (by decide) 4 ⟨4, ascii "game", 1, .Public⟩ hgame (by decide))
  exact absurd hkept (by decide +kernel)

end Demo

end Launcher.Storefront
