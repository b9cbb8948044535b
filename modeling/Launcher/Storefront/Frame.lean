import Launcher.Database.Frame
import Launcher.Storefront.Statements

set_option autoImplicit false

/-! # What the catalog's calls do -/

namespace Launcher.Storefront

open Launcher.Lib

namespace State

/-! ## After a statement of the upload side -/

section AfterCore

variable (s : State) {core' : Launcher.State}

private theorem isSome_and_isNone {α : Type} (o : Option α) : (o.isSome && o.isNone) = false := by
  cases o <;> rfl

theorem afterCore_media (hg : core'.games = s.core.games) : (s.afterCore core').media = s.media :=
  Table.delete_eq_self (fun m _ => by rw [hg]; exact isSome_and_isNone _)

theorem afterCore_library (hg : core'.games = s.core.games) :
    (s.afterCore core').library = s.library :=
  Table.delete_eq_self (fun u _ => by rw [hg]; exact isSome_and_isNone _)

theorem afterCore_notes (hg : core'.games = s.core.games)
    (hv : core'.versions = s.core.versions) : (s.afterCore core').notes = s.notes := by
  have hkeep : s.notes.delete (fun n => (s.core.games.find? n.gameId).isSome &&
      (core'.games.find? n.gameId).isNone) = s.notes :=
    Table.delete_eq_self (fun n _ => by rw [hg]; exact isSome_and_isNone _)
  simp only [afterCore, hkeep, hv]
  refine Table.updateWhere_eq_self (fun n _ => ?_)
  cases n.gameVersionId with
  | none => rfl
  | some v => exact isSome_and_isNone _

theorem afterCore_events (hg : core'.games = s.core.games) (hv : core'.versions = s.core.versions)
    (hb : core'.builds = s.core.builds) : (s.afterCore core').events = s.events := by
  have hkeep : ∀ {α : Type} (o : Option α), o.filter (fun _ => true) = o := by
    intro α o
    cases o <;> rfl
  simp only [afterCore, hg, hv, hb, isSome_and_isNone, Bool.not_false, List.filter_true, hkeep]
  exact List.map_id _

theorem afterCore_buildColumns (hb : core'.builds = s.core.builds) :
    (s.afterCore core').buildColumns = s.buildColumns := by
  funext id
  simp only [afterCore, hb, Bool.and_comm _ (Option.isSome _), isSome_and_isNone,
    Bool.not_and_self, Bool.false_eq_true, if_false]

/-- A statement that leaves games, versions and builds alone leaves this layer alone. -/
theorem afterCore_eq (hg : core'.games = s.core.games) (hv : core'.versions = s.core.versions)
    (hb : core'.builds = s.core.builds) : s.afterCore core' = { s with core := core' } := by
  have h : s.afterCore core' = { s with
      core := core'
      buildColumns := (s.afterCore core').buildColumns
      media := (s.afterCore core').media
      notes := (s.afterCore core').notes
      library := (s.afterCore core').library
      events := (s.afterCore core').events } := rfl
  rw [h, s.afterCore_buildColumns hb, s.afterCore_media hg, s.afterCore_notes hg hv,
    s.afterCore_library hg, s.afterCore_events hg hv hb]

@[simp] theorem afterCore_self : s.afterCore s.core = s := s.afterCore_eq rfl rfl rfl

end AfterCore

/-! ## Cases of the statements -/

section Cases

variable (env : Env) (s : State)

theorem createGame_cases (choice : Choice) (game : NewGame) :
    (s.createGame env choice game).2 = s ∨
    ∃ row columns, row.publisherUserId = game.publisherUserId ∧ row.id ∉ s.core.issued ∧
      (s.createGame env choice game).2 = { s with
        core := { s.core with
          games := s.core.games.insert row
          issued := row.id :: s.core.issued }
        gameColumns := Function.update s.gameColumns row.id columns } := by
  unfold createGame
  split
  · exact Or.inl rfl
  · split
    · exact Or.inl rfl
    · split
      · exact Or.inl rfl
      · rename_i hfresh
        split
        · exact Or.inl rfl
        · exact Or.inr ⟨⟨choice.uuid, game.slug, game.publisherUserId, game.visibility⟩, _, rfl,
            by simpa using hfresh, rfl⟩

theorem updateGame_cases (id : Bytes) (changes : GameUpdate) :
    (s.updateGame env id changes).2 = s ∨
    ∃ gameId, env.castUuid id = some gameId ∧ ∃ columns, (s.updateGame env id changes).2 = { s with
      core := { s.core with
        games := s.core.games.modify gameId
          ⟨fun g => { g with visibility := changes.visibility.getD g.visibility }, fun _ => rfl⟩ }
      gameColumns := Function.update s.gameColumns gameId columns } := by
  unfold updateGame
  cases hid : env.castUuid id with
  | none => exact Or.inl rfl
  | some gameId =>
      dsimp only
      split
      · exact Or.inl rfl
      · split
        · exact Or.inl rfl
        · exact Or.inr ⟨gameId, rfl, _, rfl⟩

theorem createVersion_cases (choice : Choice) (version : NewGameVersion) :
    (s.createVersion env choice version).2 = s ∨
    ∃ row columns, row.gameId = version.gameId ∧ row.id ∉ s.core.issued ∧
      (s.core.games.find? version.gameId).isSome = true ∧
      (s.createVersion env choice version).2 = { s with
        core := { s.core with
          versions := s.core.versions.insert row
          issued := row.id :: s.core.issued }
        versionColumns := Function.update s.versionColumns row.id columns } := by
  unfold createVersion
  split
  · exact Or.inl rfl
  · split
    · exact Or.inl rfl
    · split
      · exact Or.inl rfl
      · rename_i hfresh
        split
        · exact Or.inl rfl
        · rename_i hgame
          refine Or.inr ⟨⟨choice.uuid, version.gameId, version.publish⟩, _, rfl,
            by simpa using hfresh, ?_, rfl⟩
          simpa [Option.isSome_iff_ne_none] using hgame

theorem updateVersion_cases (id : Uuid) (changes : GameVersionUpdate) :
    (s.updateVersion env id changes).2 = s ∨
    ∃ columns, (s.updateVersion env id changes).2 = { s with
      core := { s.core with
        versions := s.core.versions.modify id
          ⟨fun v => { v with published := changes.published.getD v.published }, fun _ => rfl⟩ }
      versionColumns := Function.update s.versionColumns id columns } := by
  unfold updateVersion
  split
  · exact Or.inl rfl
  · split
    · exact Or.inl rfl
    · exact Or.inr ⟨_, rfl⟩

theorem createMedia_cases (choice : Choice) (media : NewGameMedia) :
    (s.createMedia env choice media).2 = s ∨
    (∃ old ∈ s.media, old.gameId = media.gameId ∧ (s.createMedia env choice media).2 = { s with
      media := s.media.modify old.id ⟨fun m => media.row m.id m.createdAt, fun _ => rfl⟩ }) ∨
    (∃ row, row.gameId = media.gameId ∧ row.id ∉ s.core.issued ∧
      (s.createMedia env choice media).2 = { s with
        core := { s.core with issued := row.id :: s.core.issued }
        media := s.media.insert row }) := by
  unfold createMedia
  split
  · exact Or.inl rfl
  · split
    · rename_i old hold
      unfold replacedMedia at hold
      split at hold
      · have hmem := List.mem_of_find?_eq_some hold
        have hgame := List.find?_some hold
        rw [Bool.and_eq_true, beq_iff_eq] at hgame
        exact Or.inr (Or.inl ⟨old, hmem, hgame.1, rfl⟩)
      · cases hold
    · split
      · exact Or.inl rfl
      · rename_i hfresh
        have hnew : choice.uuid ∉ s.core.issued := by simpa using hfresh
        split
        · exact Or.inl rfl
        · exact Or.inr (Or.inr ⟨media.row choice.uuid s.core.now, rfl, hnew, rfl⟩)

theorem updateMedia_cases (id : Uuid) (changes : GameMediaUpdate) :
    (s.updateMedia env id changes).2 = s ∨
    (s.updateMedia env id changes).2 = { s with
      media := s.media.modify id ⟨fun m => m.apply changes, fun _ => rfl⟩ } := by
  unfold updateMedia
  split
  · exact Or.inl rfl
  · exact Or.inr rfl

theorem createNote_cases (choice : Choice) (note : NewPatchNote) :
    (s.createNote env choice note).2 = s ∨
    ∃ row, row.gameId = note.gameId ∧ row.gameVersionId = note.gameVersionId ∧
      row.id ∉ s.core.issued ∧
      (∀ id, note.gameVersionId = some id → (s.core.versions.find? id).isSome = true) ∧
      (s.createNote env choice note).2 = { s with
        core := { s.core with issued := row.id :: s.core.issued }
        notes := s.notes.insert row } := by
  unfold createNote
  split
  · exact Or.inl rfl
  · split
    · exact Or.inl rfl
    · rename_i hfresh
      split
      · exact Or.inl rfl
      · rename_i hkeys
        simp only [Bool.or_eq_true, not_or, Bool.not_eq_true] at hkeys
        obtain ⟨⟨_, hversion⟩, _⟩ := hkeys
        refine Or.inr ⟨⟨choice.uuid, note.gameId, note.gameVersionId, note.title,
          note.bodyMarkdown, some note.authorUserId, _, s.core.now, s.core.now⟩, rfl, rfl,
          by simpa using hfresh, ?_, rfl⟩
        intro id hid
        rw [hid] at hversion
        simpa using hversion

theorem updateNote_cases (id : Uuid) (changes : PatchNoteUpdate) :
    (s.updateNote env id changes).2 = s ∨
    ∃ note, s.notes.find? id = some note ∧
      (∀ v, changes.version note.gameVersionId = some v →
        (s.core.versions.find? v).isSome = true) ∧
      (s.updateNote env id changes).2 = { s with
        notes := s.notes.modify id ⟨fun n => n.apply changes s.core.now, fun _ => rfl⟩ } := by
  unfold updateNote
  split
  · exact Or.inl rfl
  · split
    · exact Or.inl rfl
    · rename_i note hnote
      dsimp only
      split
      · exact Or.inl rfl
      · rename_i hversion
        refine Or.inr ⟨note, hnote, fun v hv => ?_, rfl⟩
        have hrow : (note.apply changes s.core.now).gameVersionId = some v := hv
        rw [hrow] at hversion
        simpa [Option.isSome_iff_ne_none] using hversion

theorem addToLibrary_cases (userId gameId : Uuid) :
    (s.addToLibrary userId gameId).2 = s ∨
    (s.core.games.find? gameId).isSome = true ∧ (s.addToLibrary userId gameId).2 =
      { s with library := s.library.insert ⟨userId, gameId, s.core.now⟩ } := by
  unfold addToLibrary
  split
  · exact Or.inl rfl
  · split_ifs with hgame
    · exact Or.inl rfl
    · exact Or.inl rfl
    · exact Or.inr ⟨by simpa [Option.isSome_iff_ne_none] using hgame, rfl⟩

theorem recordEvent_cases (event : DownloadEvent) :
    (s.recordEvent event).2 = s ∨
    ∃ row : DownloadEventRow, row.userId = some event.userId ∧ row.gameId = event.gameId ∧
      row.buildId = some event.buildId ∧
      (s.recordEvent event).2 = { s with events := s.events ++ [row] } := by
  unfold recordEvent
  split_ifs
  · exact Or.inl rfl
  · exact Or.inl rfl
  · exact Or.inr ⟨⟨event.gameId, some event.buildId, some event.userId, event.fromVersionId,
      event.kind, event.bytesPlanned, s.core.now⟩, rfl, rfl, rfl, rfl⟩

theorem storeMedia_cases (fault : IoFault) (bytes : Bytes) (format : StoredFormat) :
    (s.storeMedia env fault bytes format).2 = s ∨
    (s.storeMedia env fault bytes format).2 = { s with
      artwork := Function.update s.artwork
        (mediaKeyFor (env.core.sha256Hex bytes) format) (some bytes) } := by
  unfold storeMedia
  dsimp only
  split_ifs
  · exact Or.inl rfl
  · exact Or.inl rfl
  · split
    · exact Or.inl rfl
    · exact Or.inl rfl
    · exact Or.inl rfl
    · exact Or.inl rfl
    · exact Or.inr rfl

end Cases

end State

/-! ## What the calls leave alone -/

/-- The parts of the catalog's state. -/
inductive Part
  | games
  | versions
  | builds
  | media
  | notes
  | library
  | events
  | artwork
  deriving DecidableEq

/-- A part is as it was. -/
def Same (s s' : State) : Part → Prop
  | .games => s'.core.games = s.core.games ∧ s'.gameColumns = s.gameColumns
  | .versions => s'.core.versions = s.core.versions ∧ s'.versionColumns = s.versionColumns
  | .builds => s'.core.builds = s.core.builds ∧ s'.core.buildFiles = s.core.buildFiles ∧
      s'.buildColumns = s.buildColumns
  | .media => s'.media = s.media
  | .notes => s'.notes = s.notes
  | .library => s'.library = s.library
  | .events => s'.events = s.events
  | .artwork => s'.artwork = s.artwork

/-- The call may write to the part. Statements of the upload side cascade to every table. -/
def Call.writes {α : Type} (part : Part) : Call α → Bool
  | .core _ => part != .artwork
  | .removeGame _ => part != .artwork
  | .createGame _ => part == .games
  | .updateGame _ _ => part == .games
  | .createVersion _ => part == .versions
  | .updateVersion _ _ => part == .versions
  | .createMedia _ => part == .media
  | .updateMedia _ _ => part == .media
  | .removeMedia _ => part == .media
  | .createNote _ => part == .notes
  | .updateNote _ _ => part == .notes
  | .removeNote _ => part == .notes
  | .addToLibrary _ _ => part == .library
  | .removeFromLibrary _ _ => part == .library
  | .recordEvent _ => part == .events
  | .storeMedia _ _ => part == .artwork
  | .removeArtwork _ => part == .artwork
  | _ => false

theorem Same.refl (s : State) (part : Part) : Same s s part := by
  cases part <;> simp [Same]

/-- **A call leaves alone what it does not write to.** -/
theorem exec_same (env : Env) (choice : Choice) (s : State) {α : Type} (c : Call α) {part : Part}
    (h : c.writes part = false) : Same s (exec env choice c s).2 part := by
  cases c with
  | core c =>
      cases part with
      | artwork => rfl
      | _ => cases h
  | removeGame id =>
      cases part with
      | artwork => rfl
      | _ => cases h
  | createGame game =>
      obtain e | ⟨_, _, _, _, e⟩ := s.createGame_cases env choice game <;> rw [exec, e]
      · exact Same.refl s part
      · cases part <;> simp [Call.writes, Same] at h ⊢
  | updateGame id changes =>
      obtain e | ⟨_, _, _, e⟩ := s.updateGame_cases env id changes <;> rw [exec, e]
      · exact Same.refl s part
      · cases part <;> simp [Call.writes, Same] at h ⊢
  | createVersion version =>
      obtain e | ⟨_, _, _, _, _, e⟩ := s.createVersion_cases env choice version <;> rw [exec, e]
      · exact Same.refl s part
      · cases part <;> simp [Call.writes, Same] at h ⊢
  | updateVersion id changes =>
      obtain e | ⟨_, e⟩ := s.updateVersion_cases env id changes <;> rw [exec, e]
      · exact Same.refl s part
      · cases part <;> simp [Call.writes, Same] at h ⊢
  | createMedia media =>
      obtain e | ⟨_, _, _, e⟩ | ⟨_, _, _, e⟩ := s.createMedia_cases env choice media <;>
        rw [exec, e]
      · exact Same.refl s part
      · cases part <;> simp [Call.writes, Same] at h ⊢
      · cases part <;> simp [Call.writes, Same] at h ⊢
  | updateMedia id changes =>
      obtain e | e := s.updateMedia_cases env id changes <;> rw [exec, e]
      · exact Same.refl s part
      · cases part <;> simp [Call.writes, Same] at h ⊢
  | removeMedia id => cases part <;> simp [Call.writes, Same, exec, State.removeMedia] at h ⊢
  | createNote note =>
      obtain e | ⟨_, _, _, _, _, e⟩ := s.createNote_cases env choice note <;> rw [exec, e]
      · exact Same.refl s part
      · cases part <;> simp [Call.writes, Same] at h ⊢
  | updateNote id changes =>
      obtain e | ⟨_, _, _, e⟩ := s.updateNote_cases env id changes <;> rw [exec, e]
      · exact Same.refl s part
      · cases part <;> simp [Call.writes, Same] at h ⊢
  | removeNote id => cases part <;> simp [Call.writes, Same, exec, State.removeNote] at h ⊢
  | addToLibrary userId gameId =>
      obtain e | ⟨_, e⟩ := s.addToLibrary_cases userId gameId <;> rw [exec, e]
      · exact Same.refl s part
      · cases part <;> simp [Call.writes, Same] at h ⊢
  | removeFromLibrary userId gameId =>
      cases part <;> simp [Call.writes, Same, exec, State.removeFromLibrary] at h ⊢
  | recordEvent event =>
      obtain e | ⟨_, _, _, _, e⟩ := s.recordEvent_cases event <;> rw [exec, e]
      · exact Same.refl s part
      · cases part <;> simp [Call.writes, Same] at h ⊢
  | storeMedia bytes format =>
      obtain e | e := s.storeMedia_cases env choice.fault bytes format <;> rw [exec, e]
      · exact Same.refl s part
      · cases part <;> simp [Call.writes, Same] at h ⊢
  | removeArtwork key => cases part <;> simp [Call.writes, Same, exec, State.removeArtwork] at h ⊢
  | _ => exact Same.refl s part

end Launcher.Storefront
