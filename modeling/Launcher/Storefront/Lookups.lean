import Launcher.Storefront.System

set_option autoImplicit false

/-! # Looking things up

Every operation starts by looking up a game, a version, a picture or a note and asking whether
the actor may see or edit it. Run alone these programs only read: each of them answers with a
function of the state, given here beside it. -/

namespace Launcher.Storefront

open Launcher.Lib
open Catalog (NO_SUCH_GAME NOT_YOURS NO_SUCH_VERSION)

section Steps

variable {env : Env} {s : State} {α : Type} {Q : Except Failure α → State → Prop}

/-- Awaiting a call that only reads. -/
theorem await_wp {c : Call α} {reply : α} (hc : ∀ choice, exec env choice c s = (reply, s))
    (h : Q (.ok reply) s) : (Program.await c : Coroutine α).Wp (exec env) Q s := by
  intro choice
  rw [hc choice]
  exact h

theorem statement_wp {c : Call (Except Failure α)} {reply : Except Failure α}
    (hc : ∀ choice, exec env choice c s = (reply, s)) (h : Q reply s) :
    (statement c).Wp (exec env) Q s := by
  intro choice
  rw [hc choice]
  cases reply with
  | ok a => exact h
  | error e => exact h

end Steps

/-- A task that is a program ends as the program does. -/
theorem ends_program {env : Env} {actor : Actor} {Q : State → Task → Prop} :
    ∀ {p : Coroutine Reply} {s : State},
      (storefront env).Ends Q s ⟨some actor, .program p⟩ ↔
        p.Wp (exec env) (fun r s' => Q s' ⟨some actor, .program (.done r)⟩) s
  | .done _, _ => System.ends_done_iff (S := storefront env) rfl
  | .call _ _, _ => by
      rw [System.ends_call_iff (S := storefront env) rfl]
      exact forall_congr' (fun _ => ends_program)

/-! ## Games -/

namespace State

variable (env : Env) (s : State) (actor : Actor) (idOrSlug : Bytes)

/-- What `findGame` answers. -/
def lookup : Except Failure (Option GameRecord) :=
  if isUuid idOrSlug then .ok ((s.core.games.find? (uuidOf idOrSlug)).map s.readGame)
  else if !env.core.acceptsText idOrSlug then .error (.threw .characterNotInRepertoire)
  else .ok ((s.core.findBySlug idOrSlug).map s.readGame)

/-- What `visibleGame` answers. -/
def visible : Except Failure GameRecord :=
  match s.lookup env idOrSlug with
  | .error e => .error e
  | .ok none => .error (.refused { code := .NotFound, detail := NO_SUCH_GAME })
  | .ok (some game) =>
      if mayViewGame game.toGame actor then .ok game
      else .error (.refused { code := .NotFound, detail := NO_SUCH_GAME })

/-- What `editableGame` answers. -/
def editable : Except Failure GameRecord :=
  match s.visible env actor idOrSlug with
  | .error e => .error e
  | .ok game =>
      if mayEditGame game.toGame actor then .ok game
      else .error (.refused { code := .Forbidden, detail := NOT_YOURS })

end State

section Games

variable {env : Env} {s : State} {actor : Actor} {idOrSlug : Bytes}

theorem findGame_wp {Q : Except Failure (Option GameRecord) → State → Prop}
    (h : Q (s.lookup env idOrSlug) s) : (findGame idOrSlug).Wp (exec env) Q s := by
  unfold findGame
  unfold State.lookup at h
  split
  · rename_i hid
    rw [if_pos hid] at h
    exact await_wp (fun _ => rfl) h
  · rename_i hid
    rw [if_neg hid] at h
    refine statement_wp (fun _ => rfl) ?_
    split at h
    · rename_i htext
      rw [if_pos htext]
      exact h
    · rename_i htext
      rw [if_neg htext]
      exact h

theorem visibleGame_wp {Q : Except Failure GameRecord → State → Prop}
    (h : Q (s.visible env actor idOrSlug) s) :
    (visibleGame actor idOrSlug).Wp (exec env) Q s := by
  unfold visibleGame
  unfold State.visible at h
  refine Program.wp_bind.mpr (findGame_wp ?_)
  cases hl : s.lookup env idOrSlug with
  | error e => rw [hl] at h; exact h
  | ok game =>
      rw [hl] at h
      cases game with
      | none => exact h
      | some game =>
          show Program.Wp _ _ (if mayViewGame game.toGame actor then pure game
            else refuse .NotFound NO_SUCH_GAME) s
          dsimp only at h
          split
          · rename_i hv
            rw [if_pos hv] at h
            exact h
          · rename_i hv
            rw [if_neg hv] at h
            exact h

theorem editableGame_wp {Q : Except Failure GameRecord → State → Prop}
    (h : Q (s.editable env actor idOrSlug) s) :
    (editableGame actor idOrSlug).Wp (exec env) Q s := by
  unfold editableGame
  unfold State.editable at h
  refine Program.wp_bind.mpr (visibleGame_wp ?_)
  cases hv : s.visible env actor idOrSlug with
  | error e => rw [hv] at h; exact h
  | ok game =>
      rw [hv] at h
      show Program.Wp _ _ (if mayEditGame game.toGame actor then pure game
        else refuse .Forbidden NOT_YOURS) s
      dsimp only at h
      split
      · rename_i he
        rw [if_pos he] at h
        exact h
      · rename_i he
        rw [if_neg he] at h
        exact h

/-- The game a lookup finds is a row of `games`. -/
theorem lookup_mem {record : GameRecord} (h : s.lookup env idOrSlug = .ok (some record)) :
    ∃ game ∈ s.core.games, record = s.readGame game := by
  unfold State.lookup at h
  split at h
  · obtain ⟨game, hg, rfl⟩ := Option.map_eq_some_iff.mp (Except.ok.inj h)
    exact ⟨game, (Table.find?_eq_some.mp hg).1, rfl⟩
  · split at h
    · cases h
    · obtain ⟨game, hg, rfl⟩ := Option.map_eq_some_iff.mp (Except.ok.inj h)
      exact ⟨game, List.mem_of_find?_eq_some hg, rfl⟩

theorem visible_ok {record : GameRecord} (h : s.visible env actor idOrSlug = .ok record) :
    s.lookup env idOrSlug = .ok (some record) ∧ mayViewGame record.toGame actor = true := by
  unfold State.visible at h
  split at h
  · cases h
  · cases h
  · rename_i game hl
    split at h
    · rename_i hv
      obtain rfl := Except.ok.inj h
      exact ⟨hl, hv⟩
    · cases h

theorem editable_ok {record : GameRecord} (h : s.editable env actor idOrSlug = .ok record) :
    s.visible env actor idOrSlug = .ok record ∧ mayEditGame record.toGame actor = true := by
  unfold State.editable at h
  split at h
  · cases h
  · rename_i game hv
    split at h
    · rename_i he
      obtain rfl := Except.ok.inj h
      exact ⟨hv, he⟩
    · cases h

end Games

/-! ## Versions, pictures and notes -/

namespace State

variable (s : State) (actor : Actor)

/-- What `versionOf` answers. -/
def versionFor (gameId : Uuid) (versionId : Bytes) : Except Failure VersionRecord :=
  let missing := Failure.refused { code := .NotFound, detail := NO_SUCH_VERSION }
  if !isUuid versionId then .error missing
  else
    match s.core.versions.find? (uuidOf versionId) with
    | none => .error missing
    | some version => if version.gameId = gameId then .ok (s.readVersion version) else .error missing

/-- What `noteVersion` answers. -/
def noteVersionFor (gameId : Uuid) (versionId : Bytes) : Except Failure (Option Uuid) :=
  if versionId.isEmpty then .ok none
  else (s.versionFor gameId versionId).map (fun version => some version.id)

/-- What the services say of a row that hangs off a game and was found by its own id. -/
def editableRow {α : Type} (noSuchRow : Bytes) (row : Option α) (gameOf : α → Uuid) :
    Except Failure α :=
  let missing := Failure.refused { code := .NotFound, detail := noSuchRow }
  match row with
  | none => .error missing
  | some row =>
      match s.core.games.find? (gameOf row) with
      | none => .error missing
      | some game =>
          if !mayViewGame game actor then .error missing
          else if !mayEditGame game actor then
            .error (.refused { code := .Forbidden, detail := NOT_YOURS })
          else .ok row

/-- What `editableMedia` answers. -/
def editableMedia (mediaId : Bytes) : Except Failure GameMedia :=
  s.editableRow actor Media.NO_SUCH_MEDIA
    (if isUuid mediaId then s.media.find? (uuidOf mediaId) else none) (·.gameId)

/-- What `editableNote` answers. -/
def editableNote (noteId : Bytes) : Except Failure PatchNote :=
  s.editableRow actor Notes.NO_SUCH_NOTE
    (if isUuid noteId then (s.notes.find? (uuidOf noteId)).map s.readNote else none) (·.gameId)

end State

section Rows

variable {env : Env} {s : State} {actor : Actor}

theorem versionOf_wp {gameId : Uuid} {versionId : Bytes}
    {Q : Except Failure VersionRecord → State → Prop} (h : Q (s.versionFor gameId versionId) s) :
    (versionOf gameId versionId).Wp (exec env) Q s := by
  unfold versionOf
  unfold State.versionFor at h
  split
  · rename_i hid
    rw [if_pos hid] at h
    exact h
  · rename_i hid
    rw [if_neg hid] at h
    refine Program.wp_bind.mpr (await_wp (fun _ => rfl) ?_)
    cases hv : s.core.versions.find? (uuidOf versionId) with
    | none => rw [hv] at h; exact h
    | some version =>
        rw [hv] at h
        show Program.Wp _ _ (if version.gameId = gameId then pure (s.readVersion version)
          else refuse .NotFound NO_SUCH_VERSION) s
        dsimp only at h
        split
        · rename_i hg
          rw [if_pos hg] at h
          exact h
        · rename_i hg
          rw [if_neg hg] at h
          exact h

theorem noteVersion_wp {gameId : Uuid} {versionId : Bytes}
    {Q : Except Failure (Option Uuid) → State → Prop}
    (h : Q (s.noteVersionFor gameId versionId) s) :
    (Notes.noteVersion gameId versionId).Wp (exec env) Q s := by
  unfold Notes.noteVersion
  unfold State.noteVersionFor at h
  split
  · rename_i hempty
    rw [if_pos hempty] at h
    exact h
  · rename_i hempty
    rw [if_neg hempty] at h
    refine Program.wp_bind.mpr (versionOf_wp ?_)
    cases hv : s.versionFor gameId versionId with
    | error e => rw [hv] at h; exact h
    | ok version => rw [hv] at h; exact h

/-- The game of a row is looked up, and asked whether the actor may see and edit it. -/
theorem editableRow_wp {α : Type} {noSuchRow : Bytes} {row : α} {gameOf : α → Uuid}
    {Q : Except Failure α → State → Prop}
    (h : Q (s.editableRow actor noSuchRow (some row) gameOf) s) :
    (do match ← .await (.findGameById (gameOf row)) with
        | none => refuse .NotFound noSuchRow
        | some game =>
            if !mayViewGame game.toGame actor then refuse .NotFound noSuchRow
            else if !mayEditGame game.toGame actor then refuse .Forbidden NOT_YOURS
            else pure row : Coroutine α).Wp (exec env) Q s := by
  unfold State.editableRow at h
  refine Program.wp_bind.mpr (await_wp (fun _ => rfl) ?_)
  cases hg : s.core.games.find? (gameOf row) with
  | none => simp only [hg] at h; exact h
  | some game =>
      simp only [hg] at h
      show Program.Wp _ _ (if !mayViewGame game actor then _
        else if !mayEditGame game actor then _ else _) s
      split
      · rename_i hv
        rw [if_pos hv] at h
        exact h
      · rename_i hv
        rw [if_neg hv] at h
        split
        · rename_i he
          rw [if_pos he] at h
          exact h
        · rename_i he
          rw [if_neg he] at h
          exact h

theorem editableMedia_wp {mediaId : Bytes} {Q : Except Failure GameMedia → State → Prop}
    (h : Q (s.editableMedia actor mediaId) s) :
    (Media.editableMedia actor mediaId).Wp (exec env) Q s := by
  unfold Media.editableMedia
  unfold State.editableMedia at h
  cases hid : isUuid mediaId with
  | false => rw [hid] at h; exact h
  | true =>
      rw [hid] at h
      refine Program.wp_bind.mpr (await_wp (fun _ => rfl) ?_)
      cases hm : s.media.find? (uuidOf mediaId) with
      | none => simp only [hm, if_true] at h; exact h
      | some media =>
          simp only [hm, if_true] at h
          exact editableRow_wp h

theorem editableNote_wp {noteId : Bytes} {Q : Except Failure PatchNote → State → Prop}
    (h : Q (s.editableNote actor noteId) s) :
    (Notes.editableNote actor noteId).Wp (exec env) Q s := by
  unfold Notes.editableNote
  unfold State.editableNote at h
  cases hid : isUuid noteId with
  | false => rw [hid] at h; exact h
  | true =>
      rw [hid] at h
      refine Program.wp_bind.mpr (await_wp (fun _ => rfl) ?_)
      cases hn : s.notes.find? (uuidOf noteId) with
      | none => simp only [hn, if_true] at h; exact h
      | some note =>
          simp only [hn, if_true] at h
          exact editableRow_wp h

theorem editableRow_ok {α : Type} {noSuchRow : Bytes} {found : Option α} {gameOf : α → Uuid}
    {row : α} (h : s.editableRow actor noSuchRow found gameOf = .ok row) :
    found = some row ∧ ∃ game, s.core.games.find? (gameOf row) = some game ∧
      mayEditGame game actor = true := by
  unfold State.editableRow at h
  cases found with
  | none => cases h
  | some row' =>
      dsimp only at h
      cases hg : s.core.games.find? (gameOf row') with
      | none => rw [hg] at h; cases h
      | some game =>
          rw [hg] at h
          dsimp only at h
          split_ifs at h with hv he
          obtain rfl := Except.ok.inj h
          exact ⟨rfl, game, hg, by simpa using he⟩

theorem mem_listVersions {gameId : Uuid} {includeUnpublished : Bool} {id : Uuid} :
    id ∈ (s.listVersions gameId includeUnpublished).map (·.id) ↔
      ∃ v, s.core.versions.find? id = some v ∧ v.gameId = gameId ∧
        (v.published || includeUnpublished) = true := by
  unfold State.listVersions
  constructor
  · intro h
    obtain ⟨record, hrecord, rfl⟩ := List.mem_map.mp h
    obtain ⟨v, hv, rfl⟩ := List.mem_map.mp ((List.mem_insertionSort _).mp hrecord)
    obtain ⟨hv, hlisted⟩ := List.mem_filter.mp hv
    rw [Bool.and_eq_true, beq_iff_eq] at hlisted
    exact ⟨v, Table.find?_of_mem hv, hlisted.1, hlisted.2⟩
  · rintro ⟨v, hv, hgame, hshown⟩
    obtain ⟨hmem, rfl⟩ := Table.find?_eq_some.mp hv
    refine List.mem_map.mpr ⟨s.readVersion v, (List.mem_insertionSort _).mpr ?_, rfl⟩
    refine List.mem_map.mpr ⟨v, List.mem_filter.mpr ⟨hmem, ?_⟩, rfl⟩
    rw [Bool.and_eq_true, beq_iff_eq]
    exact ⟨hgame, hshown⟩

/-- An empty list of versions is answered without asking the database. -/
theorem listForVersions_wp {versionIds : List Uuid}
    {Q : Except Failure (List BuildRecord) → State → Prop}
    (h : Q (.ok (s.listBuilds versionIds)) s) :
    (listForVersions versionIds).Wp (exec env) Q s := by
  unfold listForVersions
  split
  · rename_i hempty
    have hnone : s.listBuilds versionIds = [] := by
      unfold State.listBuilds
      rw [List.isEmpty_iff.mp hempty]
      simp
    rw [hnone] at h
    exact h
  · exact await_wp (fun _ => rfl) h

end Rows

/-! ## On the upload side -/

/-- The game that `Catalog.findGame` reads. -/
def gameNamed (s : Launcher.State) (idOrSlug : Bytes) : Option Game :=
  if isUuid idOrSlug then s.games.find? (uuidOf idOrSlug) else s.findBySlug idOrSlug

section Core

variable {env : Env} {s : State} {actor : Actor}

/-- The query of `Catalog.findGame` changes nothing. -/
theorem exec_findGame (choice : Choice) (idOrSlug : Bytes) :
    exec env choice (.core (Catalog.findGame idOrSlug)) s = (gameNamed s.core idOrSlug, s) := by
  unfold Catalog.findGame gameNamed
  split
  · exact Prod.ext rfl s.afterCore_self
  · exact Prod.ext rfl s.afterCore_self

theorem exec_findVersion (choice : Choice) (versionId : Uuid) :
    exec env choice (.core (.findVersion versionId)) s = (s.core.versions.find? versionId, s) :=
  Prod.ext rfl s.afterCore_self

theorem exec_findOwnership (choice : Choice) (buildId : Uuid) :
    exec env choice (.core (.findOwnership buildId)) s = (s.core.findOwnership buildId, s) :=
  Prod.ext rfl s.afterCore_self

theorem coreEditableGame_ok {found : Option Game} {game : Game}
    (h : Catalog.editableGame actor found = .ok game) :
    found = some game ∧ mayEditGame game actor = true := by
  cases found with
  | none => cases h
  | some row =>
      simp only [Catalog.editableGame, Catalog.visibleGame, bind, Except.bind] at h
      split at h
      · cases h
      · rename_i shown hshown
        split at hshown
        · obtain rfl := Except.ok.inj hshown
          split at h
          · rename_i he
            obtain rfl := Except.ok.inj h
            exact ⟨rfl, he⟩
          · cases h
        · cases hshown

theorem coreVersionOf_ok {game : Game} {found : Option GameVersion} {version : GameVersion}
    (h : Catalog.versionOf game found = .ok version) :
    found = some version ∧ version.gameId = game.id := by
  cases found with
  | none => cases h
  | some row =>
      unfold Catalog.versionOf at h
      dsimp only at h
      split at h
      · rename_i hg
        obtain rfl := Except.ok.inj h
        exact ⟨rfl, hg⟩
      · cases h

theorem gameNamed_mem {idOrSlug : Bytes} {game : Game}
    (h : gameNamed s.core idOrSlug = some game) : game ∈ s.core.games := by
  unfold gameNamed at h
  split at h
  · exact Table.mem_of_find? h
  · exact List.mem_of_find?_eq_some h

end Core

end Launcher.Storefront
