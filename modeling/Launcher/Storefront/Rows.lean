import Launcher.Storefront.System

set_option autoImplicit false

/-! # The rows of a game

Versions hang off games, builds off versions, files off builds, and artwork and notes off games.
This module says what every call keeps of that (`Sound`, an invariant, and `Evolves`, a relation
between the states before and after), which games a call touches (`Touches`), and that the rows
of the others stay as they are (`exec_rowsOf`).

Ids are never issued twice and no row changes what it hangs off, so what was true once of the
row with an id stays true: `Evolves` is what a task may count on between two of its calls. -/

namespace Launcher.Storefront

open Launcher.Lib

/-! ## What every call keeps -/

/-- Ids in use have been issued, and the foreign keys of versions and builds hold. -/
structure Sound (s : State) : Prop where
  games : Table.Within s.core.issued s.core.games
  versions : Table.Within s.core.issued s.core.versions
  builds : Table.Within s.core.issued s.core.builds
  media : Table.Within s.core.issued s.media
  notes : Table.Within s.core.issued s.notes
  versionGame : ∀ v ∈ s.core.versions, (s.core.games.find? v.gameId).isSome = true
  buildVersion : ∀ b ∈ s.core.builds, (s.core.versions.find? b.gameVersionId).isSome = true

/-- The rows with old ids are old rows, and hang off what they did. -/
structure Evolves (s s' : State) : Prop where
  issued : ∀ id ∈ s.core.issued, id ∈ s'.core.issued
  games : Table.Inherits (·.publisherUserId) s.core.issued s.core.games s'.core.games
  versions : Table.Inherits (·.gameId) s.core.issued s.core.versions s'.core.versions
  builds : Table.Inherits (·.gameVersionId) s.core.issued s.core.builds s'.core.builds
  media : Table.Inherits (·.gameId) s.core.issued s.media s'.media
  notes : Table.Inherits (·.gameId) s.core.issued s.notes s'.notes

theorem Evolves.refl (s : State) : Evolves s s :=
  ⟨fun _ h => h, .refl, .refl, .refl, .refl, .refl⟩

theorem Evolves.trans (s s' s'' : State) (h : Evolves s s') (h' : Evolves s' s'') :
    Evolves s s'' where
  issued id hid := h'.issued id (h.issued id hid)
  games := h.games.trans h.issued h'.games
  versions := h.versions.trans h.issued h'.versions
  builds := h.builds.trans h.issued h'.builds
  media := h.media.trans h.issued h'.media
  notes := h.notes.trans h.issued h'.notes

section Kept

variable {env : Env} {s s' : State}

/-- A step that leaves these tables alone. -/
theorem Sound.same (h : Sound s) (hi : ∀ id ∈ s.core.issued, id ∈ s'.core.issued)
    (hg : s'.core.games = s.core.games) (hv : s'.core.versions = s.core.versions)
    (hb : s'.core.builds = s.core.builds) (hm : s'.media = s.media) (hn : s'.notes = s.notes) :
    Sound s' ∧ Evolves s s' := by
  refine ⟨⟨?_, ?_, ?_, ?_, ?_, ?_, ?_⟩, ⟨hi, ?_, ?_, ?_, ?_, ?_⟩⟩
  · rw [hg]; exact h.games.mono hi
  · rw [hv]; exact h.versions.mono hi
  · rw [hb]; exact h.builds.mono hi
  · rw [hm]; exact h.media.mono hi
  · rw [hn]; exact h.notes.mono hi
  · rw [hg, hv]; exact h.versionGame
  · rw [hv, hb]; exact h.buildVersion
  · rw [hg]; exact .refl
  · rw [hv]; exact .refl
  · rw [hb]; exact .refl
  · rw [hm]; exact .refl
  · rw [hn]; exact .refl

/-- What a statement of the upload side has to keep, with the rows that hang off what it
deletes. -/
theorem Sound.afterCore (h : Sound s) {core' : Launcher.State}
    (hi : ∀ id ∈ s.core.issued, id ∈ core'.issued)
    (hg : ∃ p, core'.games = s.core.games.delete p)
    (hv : ∃ p, core'.versions = s.core.versions.delete p)
    (hb : Table.Within core'.issued core'.builds)
    (hbuilds : Table.Inherits (·.gameVersionId) s.core.issued s.core.builds core'.builds)
    (hvg : ∀ v ∈ core'.versions, (core'.games.find? v.gameId).isSome = true)
    (hbv : ∀ b ∈ core'.builds, (core'.versions.find? b.gameVersionId).isSome = true) :
    Sound (s.afterCore core') ∧ Evolves s (s.afterCore core') := by
  obtain ⟨p, hg⟩ := hg
  obtain ⟨q, hv⟩ := hv
  refine ⟨⟨?_, ?_, hb, ?_, ?_, hvg, hbv⟩, ⟨hi, ?_, ?_, hbuilds, .delete, ?_⟩⟩
  · show Table.Within core'.issued core'.games
    rw [hg]
    exact h.games.delete.mono hi
  · show Table.Within core'.issued core'.versions
    rw [hv]
    exact h.versions.delete.mono hi
  · exact h.media.delete.mono hi
  · exact h.notes.delete.updateWhere.mono hi
  · show Table.Inherits _ _ _ core'.games
    rw [hg]
    exact .delete
  · show Table.Inherits _ _ _ core'.versions
    rw [hv]
    exact .delete
  · -- the notes of a deleted game go, those of a deleted version lose the reference
    exact Table.Inherits.trans (fun _ hid => hid) Table.Inherits.delete
      (Table.Inherits.updateWhere (fun _ => rfl))

/-- A statement of the upload side that leaves games and versions alone. -/
theorem Sound.afterBuilds (h : Sound s) {core' : Launcher.State}
    (hi : ∀ id ∈ s.core.issued, id ∈ core'.issued)
    (hg : core'.games = s.core.games) (hv : core'.versions = s.core.versions)
    (hb : Table.Within core'.issued core'.builds)
    (hbuilds : Table.Inherits (·.gameVersionId) s.core.issued s.core.builds core'.builds)
    (hbv : ∀ b ∈ core'.builds, (s.core.versions.find? b.gameVersionId).isSome = true) :
    Sound (s.afterCore core') ∧ Evolves s (s.afterCore core') := by
  refine h.afterCore hi ⟨fun _ => false, ?_⟩ ⟨fun _ => false, ?_⟩ hb hbuilds ?_ ?_
  · rw [hg]
    exact (Table.delete_eq_self (fun _ _ => rfl)).symm
  · rw [hv]
    exact (Table.delete_eq_self (fun _ _ => rfl)).symm
  · rw [hg, hv]
    exact h.versionGame
  · rw [hv]
    exact hbv

variable (env) in
theorem Sound.execCore (h : Sound s) (choice : Choice) {α : Type} (c : Launcher.Call α) :
    Sound (s.afterCore (Launcher.exec env.core choice c s.core).2) ∧
      Evolves s (s.afterCore (Launcher.exec env.core choice c s.core).2) := by
  have hissued := exec_issued env.core choice c s.core
  cases hw : c.writesBuilds with
  | false =>
      obtain ⟨hg, hv⟩ := exec_quiet env.core choice c s.core hw
      have hb := (exec_frame env.core choice c s.core).builds hw
      refine h.afterBuilds hissued hg hv ?_ ?_ ?_
      · rw [hb]
        exact h.builds.mono hissued
      · rw [hb]
        exact .refl
      · rw [hb]
        exact h.buildVersion
  | true =>
      cases c with
      | createBuild build =>
          cases hversion : (s.core.versions.find? build.gameVersionId).isNone with
          | true =>
              rw [show (Launcher.exec env.core choice (.createBuild build) s.core).2 = s.core from
                s.core.createBuild_orphan choice hversion, s.afterCore_self]
              exact ⟨h, Evolves.refl s⟩
          | false =>
              obtain e | ⟨hfresh, e⟩ := s.core.createBuild_cases choice build
              · rw [show (Launcher.exec env.core choice (.createBuild build) s.core).2 = s.core
                  from e, s.afterCore_self]
                exact ⟨h, Evolves.refl s⟩
              · rw [show Launcher.exec env.core choice (.createBuild build) s.core = _ from e]
                  at hissued ⊢
                refine h.afterBuilds hissued rfl rfl h.builds.insert (.insert hfresh) ?_
                intro b hb
                rcases Table.eq_or_mem_of_mem_insert hb with rfl | hb
                · show (s.core.versions.find? build.gameVersionId).isSome = true
                  simpa using hversion
                · exact h.buildVersion b hb
      | finalizeBuild id manifest =>
          obtain ⟨_, e, _⟩ | ⟨_, _, _, _, _, _, _, _, _, e⟩ :=
            s.core.finalizeBuild_cases env.core id manifest
          · rw [show Launcher.exec env.core choice (.finalizeBuild id manifest) s.core = _ from e,
              s.afterCore_self]
            exact ⟨h, Evolves.refl s⟩
          · rw [show Launcher.exec env.core choice (.finalizeBuild id manifest) s.core = _ from e]
            refine h.afterBuilds (fun _ hid => hid) rfl rfl h.builds.modify
              (.modify (fun _ _ _ => rfl)) ?_
            intro b hb
            rcases Table.mem_modify.mp hb with ⟨row, hrow, _, rfl⟩ | ⟨hb, _⟩
            · exact h.buildVersion row hrow
            · exact h.buildVersion b hb
      | markFailed id =>
          obtain e | ⟨_, _, _, e⟩ := s.core.markFailed_cases id
          · rw [show Launcher.exec env.core choice (.markFailed id) s.core = _ from e,
              s.afterCore_self]
            exact ⟨h, Evolves.refl s⟩
          · rw [show Launcher.exec env.core choice (.markFailed id) s.core = _ from e]
            refine h.afterBuilds (fun _ hid => hid) rfl rfl h.builds.modify
              (.modify (fun _ _ _ => rfl)) ?_
            intro b hb
            rcases Table.mem_modify.mp hb with ⟨row, hrow, _, rfl⟩ | ⟨hb, _⟩
            · exact h.buildVersion row hrow
            · exact h.buildVersion b hb
      | removeBuild id =>
          exact h.afterBuilds (fun _ hid => hid) rfl rfl h.builds.delete .delete
            (fun b hb => h.buildVersion b (Table.mem_delete.mp hb).1)
      | removeVersion id =>
          refine h.afterCore (fun _ hid => hid) ⟨fun _ => false, ?_⟩ ⟨_, rfl⟩ h.builds.delete
            .delete (fun v hv => h.versionGame v (Table.mem_delete.mp hv).1) (fun b hb => ?_)
          · exact (Table.delete_eq_self (fun _ _ => rfl)).symm
          · exact s.core.cascadeVersions_references hb
              (h.buildVersion b (Table.mem_delete.mp hb).1)
      | removeGame id =>
          refine h.afterCore (fun _ hid => hid) ⟨_, rfl⟩ ⟨_, rfl⟩ h.builds.delete .delete
            (fun v hv => ?_) (fun b hb => ?_)
          · -- a version that stays is of another game
            obtain ⟨hv, hother⟩ := Table.mem_delete.mp hv
            obtain ⟨game, hgame⟩ := Option.isSome_iff_exists.mp (h.versionGame v hv)
            have hid : game.id ≠ id := by
              rw [Table.key_of_find? hgame]
              exact of_decide_eq_false hother
            have hleft : (s.core.games.delete (fun g => decide (g.id = id))).find? v.gameId
                = some game := Table.find?_delete.mpr ⟨hgame, decide_eq_false hid⟩
            exact Option.isSome_iff_exists.mpr ⟨game, hleft⟩
          · exact s.core.cascadeVersions_references hb
              (h.buildVersion b (Table.mem_delete.mp hb).1)
      | _ => cases hw

/-- Ids are only added. -/
private theorem issued_cons (id : Uuid) : ∀ x ∈ s.core.issued, x ∈ id :: s.core.issued :=
  fun _ hx => List.mem_cons_of_mem _ hx

theorem Sound.createGame (h : Sound s) (choice : Choice) (game : NewGame) :
    Sound (s.createGame env choice game).2 ∧ Evolves s (s.createGame env choice game).2 := by
  obtain e | ⟨row, columns, _, hfresh, e⟩ := s.createGame_cases env choice game
  · rw [e]
    exact ⟨h, Evolves.refl s⟩
  · rw [e]
    have hcons := issued_cons (s := s) row.id
    refine ⟨⟨h.games.insert, h.versions.mono hcons, h.builds.mono hcons, h.media.mono hcons,
      h.notes.mono hcons, fun v hv => ?_, h.buildVersion⟩,
      ⟨hcons, .insert hfresh, .refl, .refl, .refl, .refl⟩⟩
    obtain ⟨game, hgame⟩ := Option.isSome_iff_exists.mp (h.versionGame v hv)
    show ((s.core.games.insert row).find? v.gameId).isSome = true
    rw [Table.find?_insert, hgame, Option.some_or]
    rfl

theorem Sound.updateGame (h : Sound s) (id : Bytes) (changes : GameUpdate) :
    Sound (s.updateGame env id changes).2 ∧ Evolves s (s.updateGame env id changes).2 := by
  obtain e | ⟨gameId, _, columns, e⟩ := s.updateGame_cases env id changes
  · rw [e]
    exact ⟨h, Evolves.refl s⟩
  · rw [e]
    refine ⟨⟨h.games.modify, h.versions, h.builds, h.media, h.notes, fun v hv => ?_,
      h.buildVersion⟩,
      ⟨fun _ hid => hid, .modify (fun _ _ _ => rfl), .refl, .refl, .refl, .refl⟩⟩
    show ((s.core.games.modify gameId _).find? v.gameId).isSome = true
    rw [Table.find?_modify]
    split
    · rename_i hv'
      rw [Option.isSome_map, ← hv']
      exact h.versionGame v hv
    · exact h.versionGame v hv

theorem Sound.createVersion (h : Sound s) (choice : Choice) (version : NewGameVersion) :
    Sound (s.createVersion env choice version).2 ∧
      Evolves s (s.createVersion env choice version).2 := by
  obtain e | ⟨row, columns, hgameId, hfresh, hgame, e⟩ := s.createVersion_cases env choice version
  · rw [e]
    exact ⟨h, Evolves.refl s⟩
  · rw [e]
    have hcons := issued_cons (s := s) row.id
    refine ⟨⟨h.games.mono hcons, h.versions.insert, h.builds.mono hcons, h.media.mono hcons,
      h.notes.mono hcons, fun v hv => ?_, fun b hb => ?_⟩,
      ⟨hcons, .refl, .insert hfresh, .refl, .refl, .refl⟩⟩
    · rcases Table.eq_or_mem_of_mem_insert hv with rfl | hv
      · show (s.core.games.find? v.gameId).isSome = true
        rw [hgameId]
        exact hgame
      · exact h.versionGame v hv
    · obtain ⟨v, hv⟩ := Option.isSome_iff_exists.mp (h.buildVersion b hb)
      show ((s.core.versions.insert row).find? b.gameVersionId).isSome = true
      rw [Table.find?_insert, hv, Option.some_or]
      rfl

theorem Sound.updateVersion (h : Sound s) (id : Uuid) (changes : GameVersionUpdate) :
    Sound (s.updateVersion env id changes).2 ∧ Evolves s (s.updateVersion env id changes).2 := by
  obtain e | ⟨columns, e⟩ := s.updateVersion_cases env id changes
  · rw [e]
    exact ⟨h, Evolves.refl s⟩
  · rw [e]
    refine ⟨⟨h.games, h.versions.modify, h.builds, h.media, h.notes, fun v hv => ?_,
      fun b hb => ?_⟩,
      ⟨fun _ hid => hid, .refl, .modify (fun _ _ _ => rfl), .refl, .refl, .refl⟩⟩
    · rcases Table.mem_modify.mp hv with ⟨row, hrow, _, rfl⟩ | ⟨hv, _⟩
      · exact h.versionGame row hrow
      · exact h.versionGame v hv
    · show ((s.core.versions.modify id _).find? b.gameVersionId).isSome = true
      rw [Table.find?_modify]
      split
      · rename_i hb'
        rw [Option.isSome_map, ← hb']
        exact h.buildVersion b hb
      · exact h.buildVersion b hb

theorem Sound.createMedia (h : Sound s) (choice : Choice) (media : NewGameMedia) :
    Sound (s.createMedia env choice media).2 ∧ Evolves s (s.createMedia env choice media).2 := by
  obtain e | ⟨old, hold, hgameId, e⟩ | ⟨row, _, hfresh, e⟩ := s.createMedia_cases env choice media
  · rw [e]
    exact ⟨h, Evolves.refl s⟩
  · -- the row that is replaced is of the same game
    rw [e]
    refine ⟨⟨h.games, h.versions, h.builds, h.media.modify, h.notes, h.versionGame,
      h.buildVersion⟩, ⟨fun _ hid => hid, .refl, .refl, .refl, .modify ?_, .refl⟩⟩
    intro m hm hid
    rw [Table.eq_of_key_eq hm hold hid]
    exact hgameId.symm
  · rw [e]
    have hcons := issued_cons (s := s) row.id
    exact ⟨⟨h.games.mono hcons, h.versions.mono hcons, h.builds.mono hcons, h.media.insert,
      h.notes.mono hcons, h.versionGame, h.buildVersion⟩,
      ⟨hcons, .refl, .refl, .refl, .insert hfresh, .refl⟩⟩

theorem Sound.updateMedia (h : Sound s) (id : Uuid) (changes : GameMediaUpdate) :
    Sound (s.updateMedia env id changes).2 ∧ Evolves s (s.updateMedia env id changes).2 := by
  obtain e | e := s.updateMedia_cases env id changes
  · rw [e]
    exact ⟨h, Evolves.refl s⟩
  · rw [e]
    exact ⟨⟨h.games, h.versions, h.builds, h.media.modify, h.notes, h.versionGame,
      h.buildVersion⟩,
      ⟨fun _ hid => hid, .refl, .refl, .refl, .modify (fun _ _ _ => rfl), .refl⟩⟩

theorem Sound.createNote (h : Sound s) (choice : Choice) (note : NewPatchNote) :
    Sound (s.createNote env choice note).2 ∧ Evolves s (s.createNote env choice note).2 := by
  obtain e | ⟨row, _, _, hfresh, _, e⟩ := s.createNote_cases env choice note
  · rw [e]
    exact ⟨h, Evolves.refl s⟩
  · rw [e]
    have hcons := issued_cons (s := s) row.id
    exact ⟨⟨h.games.mono hcons, h.versions.mono hcons, h.builds.mono hcons, h.media.mono hcons,
      h.notes.insert, h.versionGame, h.buildVersion⟩,
      ⟨hcons, .refl, .refl, .refl, .refl, .insert hfresh⟩⟩

theorem Sound.updateNote (h : Sound s) (id : Uuid) (changes : PatchNoteUpdate) :
    Sound (s.updateNote env id changes).2 ∧ Evolves s (s.updateNote env id changes).2 := by
  obtain e | ⟨note, _, _, e⟩ := s.updateNote_cases env id changes
  · rw [e]
    exact ⟨h, Evolves.refl s⟩
  · rw [e]
    exact ⟨⟨h.games, h.versions, h.builds, h.media, h.notes.modify, h.versionGame,
      h.buildVersion⟩,
      ⟨fun _ hid => hid, .refl, .refl, .refl, .refl, .modify (fun _ _ _ => rfl)⟩⟩

variable (env) in
/-- **What every call keeps**, whoever makes it. -/
theorem Sound.exec (h : Sound s) (choice : Choice) {α : Type} (c : Call α) :
    Sound (exec env choice c s).2 ∧ Evolves s (exec env choice c s).2 := by
  cases c with
  | core c => exact h.execCore env choice c
  | removeGame id => exact h.execCore env choice (.removeGame id)
  | createGame game => exact h.createGame choice game
  | updateGame id changes => exact h.updateGame id changes
  | createVersion version => exact h.createVersion choice version
  | updateVersion id changes => exact h.updateVersion id changes
  | createMedia media => exact h.createMedia choice media
  | updateMedia id changes => exact h.updateMedia id changes
  | removeMedia id =>
      exact ⟨⟨h.games, h.versions, h.builds, h.media.delete, h.notes, h.versionGame,
        h.buildVersion⟩, ⟨fun _ hid => hid, .refl, .refl, .refl, .delete, .refl⟩⟩
  | createNote note => exact h.createNote choice note
  | updateNote id changes => exact h.updateNote id changes
  | removeNote id =>
      exact ⟨⟨h.games, h.versions, h.builds, h.media, h.notes.delete, h.versionGame,
        h.buildVersion⟩, ⟨fun _ hid => hid, .refl, .refl, .refl, .refl, .delete⟩⟩
  | addToLibrary userId gameId =>
      obtain e | ⟨_, e⟩ := s.addToLibrary_cases userId gameId <;> rw [Storefront.exec, e] <;>
        exact h.same (fun _ hid => hid) rfl rfl rfl rfl rfl
  | recordEvent event =>
      obtain e | ⟨_, _, _, _, e⟩ := s.recordEvent_cases event <;> rw [Storefront.exec, e] <;>
        exact h.same (fun _ hid => hid) rfl rfl rfl rfl rfl
  | storeMedia bytes format =>
      obtain e | e := s.storeMedia_cases env choice.fault bytes format <;> rw [Storefront.exec, e] <;>
        exact h.same (fun _ hid => hid) rfl rfl rfl rfl rfl
  | _ => exact h.same (fun _ hid => hid) rfl rfl rfl rfl rfl

theorem Sound.outside (h : Sound s) (e : Outside) :
    Sound (outside e s) ∧ Evolves s (outside e s) := by
  cases e <;> exact h.same (fun _ hid => hid) rfl rfl rfl rfl rfl

end Kept

theorem Initial.sound {w : Server} (hw : Initial w) : Sound w.shared := by
  refine ⟨?_, ?_, ?_, ?_, ?_, ?_, ?_⟩
  · rw [hw.games]; exact fun _ h => by cases h
  · rw [hw.versions]; exact fun _ h => by cases h
  · rw [hw.builds]; exact fun _ h => by cases h
  · rw [hw.media]; exact fun _ h => by cases h
  · rw [hw.notes]; exact fun _ h => by cases h
  · rw [hw.versions]; exact fun _ h => by cases h
  · rw [hw.builds]; exact fun _ h => by cases h

/-- Ids in use have been issued in every state. -/
theorem sound_run {env : Env} {w : Server} (hw : Initial w) (ls : List Move) :
    Sound ((storefront env).run w ls).shared :=
  System.shared_invariant (S := storefront env) (fun choice c _ h => (h.exec env choice c).1)
    (fun e _ h => (h.outside e).1) ls w hw.sound

/-! ## Whose rows -/

/-- The game of a version. -/
def State.gameOfVersion (s : State) (versionId : Uuid) : Option Uuid :=
  (s.core.versions.find? versionId).map (·.gameId)

/-- The game of a build. -/
def State.gameOfBuild (s : State) (buildId : Uuid) : Option Uuid :=
  (s.core.builds.find? buildId).bind (fun b => s.gameOfVersion b.gameVersionId)

/-- All rows that belong to one game, with all their columns. -/
structure GameRows where
  game : Option (Game × GameColumns)
  versions : Set (GameVersion × VersionColumns)
  builds : Set (Build × BuildColumns)
  files : Set BuildFileRow
  media : Set GameMedia
  notes : Set PatchNoteRow

def State.rowsOf (s : State) (gameId : Uuid) : GameRows where
  game := (s.core.games.find? gameId).map (fun game => (game, s.gameColumns gameId))
  versions := { x | x.1 ∈ s.core.versions ∧ x.1.gameId = gameId ∧ x.2 = s.versionColumns x.1.id }
  builds := { x | x.1 ∈ s.core.builds ∧ s.gameOfVersion x.1.gameVersionId = some gameId ∧
    x.2 = s.buildColumns x.1.id }
  files := { f | f ∈ s.core.buildFiles ∧ s.gameOfBuild f.buildId = some gameId }
  media := { m | m ∈ s.media ∧ m.gameId = gameId }
  notes := { n | n ∈ s.notes ∧ n.gameId = gameId }

/-- A note that names a version names one of its own game. -/
def Linked (s : State) : Prop :=
  ∀ n ∈ s.notes, ∀ v, n.gameVersionId = some v → s.gameOfVersion v = some n.gameId

/-- The game whose rows a call of the upload side may write. -/
def State.coreTarget (s : State) {α : Type} : Launcher.Call α → Option Uuid
  | .createBuild build => s.gameOfVersion build.gameVersionId
  | .finalizeBuild buildId _ => s.gameOfBuild buildId
  | .markFailed buildId => s.gameOfBuild buildId
  | .removeBuild buildId => s.gameOfBuild buildId
  | .removeVersion versionId => s.gameOfVersion versionId
  | .removeGame gameId => some gameId
  | _ => none

/-- The game whose rows a call may write. A new game is nobody else's. -/
def State.target (env : Env) (s : State) {α : Type} : Call α → Option Uuid
  | .core c => s.coreTarget c
  | .updateGame id _ => env.castUuid id
  | .removeGame gameId => some gameId
  | .createVersion version => some version.gameId
  | .updateVersion id _ => s.gameOfVersion id
  | .createMedia media => some media.gameId
  | .updateMedia id _ => (s.media.find? id).map (·.gameId)
  | .removeMedia id => (s.media.find? id).map (·.gameId)
  | .createNote note => some note.gameId
  | .updateNote id _ => (s.notes.find? id).map (·.gameId)
  | .removeNote id => (s.notes.find? id).map (·.gameId)
  | _ => none

section Whose

variable {s s' : State} {g x : Uuid}

theorem gameOfVersion_eq_some :
    s.gameOfVersion x = some g ↔ ∃ v ∈ s.core.versions, v.id = x ∧ v.gameId = g := by
  unfold State.gameOfVersion
  rw [Option.map_eq_some_iff]
  constructor
  · rintro ⟨v, hv, hg⟩
    exact ⟨v, Table.mem_of_find? hv, Table.key_of_find? hv, hg⟩
  · rintro ⟨v, hv, hid, hg⟩
    exact ⟨v, Table.find?_eq_some.mpr ⟨hv, hid⟩, hg⟩

theorem gameOfBuild_eq_some :
    s.gameOfBuild x = some g ↔
      ∃ b ∈ s.core.builds, b.id = x ∧ s.gameOfVersion b.gameVersionId = some g := by
  unfold State.gameOfBuild
  rw [Option.bind_eq_some_iff]
  constructor
  · rintro ⟨b, hb, hg⟩
    exact ⟨b, Table.mem_of_find? hb, Table.key_of_find? hb, hg⟩
  · rintro ⟨b, hb, hid, hg⟩
    exact ⟨b, Table.find?_eq_some.mpr ⟨hb, hid⟩, hg⟩

/-- Between `s` and `s'` nothing has happened to the rows of the game `g`. -/
structure Spares (s s' : State) (g : Uuid) : Prop where
  game : s'.core.games.find? g = s.core.games.find? g
  gameColumns : s'.gameColumns g = s.gameColumns g
  versions : ∀ v : GameVersion, v.gameId = g → (v ∈ s'.core.versions ↔ v ∈ s.core.versions)
  versionColumns : ∀ v ∈ s.core.versions, v.gameId = g →
    s'.versionColumns v.id = s.versionColumns v.id
  builds : ∀ b : Build, s.gameOfVersion b.gameVersionId = some g →
    (b ∈ s'.core.builds ↔ b ∈ s.core.builds)
  buildColumns : ∀ b ∈ s.core.builds, s.gameOfVersion b.gameVersionId = some g →
    s'.buildColumns b.id = s.buildColumns b.id
  files : ∀ f : BuildFileRow, s.gameOfBuild f.buildId = some g →
    (f ∈ s'.core.buildFiles ↔ f ∈ s.core.buildFiles)
  media : ∀ m : GameMedia, m.gameId = g → (m ∈ s'.media ↔ m ∈ s.media)
  notes : ∀ n : PatchNoteRow, n.gameId = g → (n ∈ s'.notes ↔ n ∈ s.notes)

theorem Spares.refl (s : State) (g : Uuid) : Spares s s g where
  game := rfl
  gameColumns := rfl
  versions _ _ := Iff.rfl
  versionColumns _ _ _ := rfl
  builds _ _ := Iff.rfl
  buildColumns _ _ _ := rfl
  files _ _ := Iff.rfl
  media _ _ := Iff.rfl
  notes _ _ := Iff.rfl

theorem Spares.of_same {s s' : State} (hgames : Same s s' .games)
    (hversions : Same s s' .versions) (hbuilds : Same s s' .builds) (hmedia : Same s s' .media)
    (hnotes : Same s s' .notes) (g : Uuid) : Spares s s' g where
  game := by rw [hgames.1]
  gameColumns := by rw [hgames.2]
  versions _ _ := by rw [hversions.1]
  versionColumns _ _ _ := by rw [hversions.2]
  builds _ _ := by rw [hbuilds.1]
  buildColumns _ _ _ := by rw [hbuilds.2.2]
  files _ _ := by rw [hbuilds.2.1]
  media _ _ := by rw [show s'.media = s.media from hmedia]
  notes _ _ := by rw [show s'.notes = s.notes from hnotes]

theorem gameOfVersion_congr
    (h : ∀ v : GameVersion, v.gameId = g → (v ∈ s'.core.versions ↔ v ∈ s.core.versions)) :
    s'.gameOfVersion x = some g ↔ s.gameOfVersion x = some g := by
  rw [gameOfVersion_eq_some, gameOfVersion_eq_some]
  constructor
  · rintro ⟨v, hv, hid, hg⟩
    exact ⟨v, (h v hg).mp hv, hid, hg⟩
  · rintro ⟨v, hv, hid, hg⟩
    exact ⟨v, (h v hg).mpr hv, hid, hg⟩

theorem Spares.gameOfBuild (h : Spares s s' g) :
    s'.gameOfBuild x = some g ↔ s.gameOfBuild x = some g := by
  rw [gameOfBuild_eq_some, gameOfBuild_eq_some]
  constructor
  · rintro ⟨b, hb, hid, hg⟩
    have hg' := (gameOfVersion_congr h.versions).mp hg
    exact ⟨b, (h.builds b hg').mp hb, hid, hg'⟩
  · rintro ⟨b, hb, hid, hg⟩
    exact ⟨b, (h.builds b hg).mpr hb, hid, (gameOfVersion_congr h.versions).mpr hg⟩

theorem Spares.rowsOf (h : Spares s s' g) : s'.rowsOf g = s.rowsOf g := by
  unfold State.rowsOf
  congr 1
  · rw [h.game, h.gameColumns]
  · ext ⟨v, columns⟩
    constructor
    · rintro ⟨hv, hg, hc⟩
      have hv' := (h.versions v hg).mp hv
      exact ⟨hv', hg, hc.trans (h.versionColumns v hv' hg)⟩
    · rintro ⟨hv, hg, hc⟩
      exact ⟨(h.versions v hg).mpr hv, hg, hc.trans (h.versionColumns v hv hg).symm⟩
  · ext ⟨b, columns⟩
    constructor
    · rintro ⟨hb, hg, hc⟩
      have hg' := (gameOfVersion_congr h.versions).mp hg
      have hb' := (h.builds b hg').mp hb
      exact ⟨hb', hg', hc.trans (h.buildColumns b hb' hg')⟩
    · rintro ⟨hb, hg, hc⟩
      exact ⟨(h.builds b hg).mpr hb, (gameOfVersion_congr h.versions).mpr hg,
        hc.trans (h.buildColumns b hb hg).symm⟩
  · ext f
    constructor
    · rintro ⟨hf, hg⟩
      have hg' := h.gameOfBuild.mp hg
      exact ⟨(h.files f hg').mp hf, hg'⟩
    · rintro ⟨hf, hg⟩
      exact ⟨(h.files f hg).mpr hf, h.gameOfBuild.mpr hg⟩
  · ext m
    exact and_congr_left (h.media m)
  · ext n
    exact and_congr_left (h.notes n)

end Whose

/-! ## Calls that leave a game alone -/

section Alone

variable {env : Env} {s : State} {g : Uuid}

/-- What follows a statement of the upload side spares the artwork and the notes of a game
whose own rows it has left alone. -/
theorem Spares.afterCore (hlinked : Linked s) {core' : Launcher.State}
    (hgame : core'.games.find? g = s.core.games.find? g)
    (hversions : ∀ v : GameVersion, v.gameId = g → (v ∈ core'.versions ↔ v ∈ s.core.versions))
    (hbuilds : ∀ b : Build, s.gameOfVersion b.gameVersionId = some g →
      (b ∈ core'.builds ↔ b ∈ s.core.builds))
    (hfiles : ∀ f : BuildFileRow, s.gameOfBuild f.buildId = some g →
      (f ∈ core'.buildFiles ↔ f ∈ s.core.buildFiles)) :
    Spares s (s.afterCore core') g := by
  have hleft : ((s.core.games.find? g).isSome && (core'.games.find? g).isNone) = false := by
    rw [hgame]
    cases s.core.games.find? g <;> rfl
  refine ⟨hgame, rfl, hversions, fun _ _ _ => rfl, hbuilds, fun b hb hg => ?_, hfiles,
    fun m hm => ?_, fun n hn => ?_⟩
  · -- the same row before and after, so it is not stamped
    have hbefore : s.core.builds.find? b.id = some b := Table.find?_of_mem hb
    have hafter : core'.builds.find? b.id = some b := Table.find?_of_mem ((hbuilds b hg).mpr hb)
    simp [State.afterCore, hbefore, hafter]
  · have hkept : (fun m : GameMedia => (s.core.games.find? m.gameId).isSome &&
        (core'.games.find? m.gameId).isNone) m = false := by
      rw [← hm] at hleft
      exact hleft
    exact Table.mem_delete.trans (and_iff_left hkept)
  · -- a version of the game is still there, so no note of the game loses it
    have hkept : ∀ n₀ ∈ s.notes, n₀.gameId = g → (n₀.gameVersionId.map (fun v =>
        (s.core.versions.find? v).isSome && (core'.versions.find? v).isNone)).getD false
          = false := by
      intro n₀ hn₀ hg
      cases hv : n₀.gameVersionId with
      | none => rfl
      | some v =>
          obtain ⟨row, hrow, rfl, hrowg⟩ := gameOfVersion_eq_some.mp (hlinked n₀ hn₀ v hv)
          have hthere : core'.versions.find? row.id = some row :=
            Table.find?_of_mem ((hversions row (hrowg.trans hg)).mpr hrow)
          simp [hthere]
    constructor
    · intro hmem
      obtain ⟨n₀, hn₀, rfl⟩ := Table.mem_updateWhere.mp hmem
      have hmem₀ := (Table.mem_delete.mp hn₀).1
      have hg₀ : n₀.gameId = g := by
        split at hn <;> exact hn
      rw [hkept n₀ hmem₀ hg₀]
      exact hmem₀
    · intro hmem
      refine Table.mem_updateWhere.mpr ⟨n, Table.mem_delete.mpr ⟨hmem, ?_⟩, ?_⟩
      · rw [← hn] at hleft
        exact hleft
      · rw [hkept n hmem hn]
        rfl

/-- Rewriting a build of another game. -/
theorem mem_modify_builds {id : Uuid} {f : Table.Update Build.id}
    (hf : ∀ b, (f.1 b).gameVersionId = b.gameVersionId) (hne : s.gameOfBuild id ≠ some g)
    {b : Build} (hb : s.gameOfVersion b.gameVersionId = some g) :
    b ∈ s.core.builds.modify id f ↔ b ∈ s.core.builds := by
  refine Table.mem_modify_of_not (p := fun b => s.gameOfVersion b.gameVersionId = some g)
    (fun r hr hid => ?_) hb
  have hother : s.gameOfVersion r.gameVersionId ≠ some g :=
    fun hg => hne (gameOfBuild_eq_some.mpr ⟨r, hr, hid, hg⟩)
  exact ⟨hother, by rw [hf]; exact hother⟩

/-- Deleting builds of other games. -/
theorem cascadeBuilds_spares (doomed : Build → Bool)
    (h : ∀ b ∈ s.core.builds, s.gameOfVersion b.gameVersionId = some g → doomed b = false) :
    (∀ b : Build, s.gameOfVersion b.gameVersionId = some g →
      (b ∈ (s.core.cascadeBuilds doomed).builds ↔ b ∈ s.core.builds)) ∧
    ∀ f : BuildFileRow, s.gameOfBuild f.buildId = some g →
      (f ∈ (s.core.cascadeBuilds doomed).buildFiles ↔ f ∈ s.core.buildFiles) := by
  constructor
  · intro b hb
    rw [Launcher.State.cascadeBuilds, Table.mem_delete]
    exact and_iff_left_of_imp (fun hmem => h b hmem hb)
  · intro f hf
    obtain ⟨b, hb, hid, hg⟩ := gameOfBuild_eq_some.mp hf
    have hfound : s.core.builds.find? f.buildId = some b := Table.find?_eq_some.mpr ⟨hb, hid⟩
    rw [Launcher.State.cascadeBuilds, Table.mem_delete]
    refine and_iff_left ?_
    show ((s.core.builds.find? f.buildId).map doomed).getD false = false
    rw [hfound]
    exact h b hb hg

/-- Deleting versions of other games. -/
theorem Spares.cascadeVersions (hlinked : Linked s) {doomed : GameVersion → Bool}
    (h : ∀ v ∈ s.core.versions, v.gameId = g → doomed v = false)
    {games : Table Game.id} (hgame : games.find? g = s.core.games.find? g) :
    Spares s (s.afterCore { s.core.cascadeVersions doomed with games := games }) g := by
  obtain ⟨hbuilds, hfiles⟩ := cascadeBuilds_spares (s := s) (g := g)
    (fun b => ((s.core.versions.find? b.gameVersionId).map doomed).getD false)
    (fun b _ hb => by
      obtain ⟨v, hv, hid, hg⟩ := gameOfVersion_eq_some.mp hb
      rw [Table.find?_eq_some.mpr ⟨hv, hid⟩]
      exact h v hv hg)
  refine Spares.afterCore hlinked hgame (fun v hv => ?_) hbuilds hfiles
  exact Table.mem_delete.trans (and_iff_left_of_imp (fun hmem => h v hmem hv))

variable (env) in
theorem Spares.execCore (hlinked : Linked s) (choice : Choice) {α : Type} (c : Launcher.Call α)
    (hne : s.coreTarget c ≠ some g) :
    Spares s (s.afterCore (Launcher.exec env.core choice c s.core).2) g := by
  cases hw : c.writesBuilds with
  | false =>
      obtain ⟨hg, hv⟩ := exec_quiet env.core choice c s.core hw
      have hb := (exec_frame env.core choice c s.core).builds hw
      have hf := (exec_frame env.core choice c s.core).buildFiles hw
      refine Spares.afterCore hlinked (by rw [hg]) (fun v _ => by rw [hv]) (fun b _ => by rw [hb])
        (fun f _ => by rw [hf])
  | true =>
      cases c with
      | createBuild build =>
          obtain e | ⟨_, e⟩ := s.core.createBuild_cases choice build
          · rw [show (Launcher.exec env.core choice (.createBuild build) s.core).2 = s.core from e,
              s.afterCore_self]
            exact Spares.refl s g
          · rw [show Launcher.exec env.core choice (.createBuild build) s.core = _ from e]
            refine Spares.afterCore hlinked rfl (fun _ _ => Iff.rfl) (fun b hb => ?_)
              (fun _ _ => Iff.rfl)
            refine Table.mem_insert_of_ne ?_
            rintro rfl
            exact hne hb
      | finalizeBuild id manifest =>
          obtain ⟨_, e, _⟩ | ⟨_, buildFiles, _, _, _, _, _, _, hrows, e⟩ :=
            s.core.finalizeBuild_cases env.core id manifest
          · rw [show Launcher.exec env.core choice (.finalizeBuild id manifest) s.core = _ from e,
              s.afterCore_self]
            exact Spares.refl s g
          · rw [show Launcher.exec env.core choice (.finalizeBuild id manifest) s.core = _ from e]
            refine Spares.afterCore hlinked rfl (fun _ _ => Iff.rfl)
              (fun b hb => mem_modify_builds (fun _ => rfl) hne hb) (fun f hf => ?_)
            -- the new rows are of the build that is finalized
            have hother : f ∉ Launcher.State.manifestRows env.core id manifest.files := by
              intro hmem
              obtain ⟨_, _, rfl⟩ := List.mem_map.mp hmem
              exact hne hf
            exact (Table.mem_insertAll hrows f).trans (or_iff_right hother)
      | markFailed id =>
          obtain e | ⟨_, _, _, e⟩ := s.core.markFailed_cases id
          · rw [show Launcher.exec env.core choice (.markFailed id) s.core = _ from e,
              s.afterCore_self]
            exact Spares.refl s g
          · rw [show Launcher.exec env.core choice (.markFailed id) s.core = _ from e]
            exact Spares.afterCore hlinked rfl (fun _ _ => Iff.rfl)
              (fun b hb => mem_modify_builds (fun _ => rfl) hne hb) (fun _ _ => Iff.rfl)
      | removeBuild id =>
          obtain ⟨hbuilds, hfiles⟩ := cascadeBuilds_spares (s := s) (g := g)
            (fun b => decide (b.id = id)) (fun b hb hg => decide_eq_false (fun hid =>
              hne (gameOfBuild_eq_some.mpr ⟨b, hb, hid, hg⟩)))
          exact Spares.afterCore hlinked rfl (fun _ _ => Iff.rfl) hbuilds hfiles
      | removeVersion id =>
          refine Spares.cascadeVersions hlinked (fun v hv hg => decide_eq_false (fun hid => ?_)) rfl
          exact hne (gameOfVersion_eq_some.mpr ⟨v, hv, hid, hg⟩)
      | removeGame id =>
          have hid : g ≠ id := fun h => hne (congrArg some h.symm)
          refine Spares.cascadeVersions hlinked (fun v _ hg => decide_eq_false (fun hv => ?_)) ?_
          · exact hid (hg.symm.trans hv)
          · rw [Table.find?_delete_eq]
            cases hgame : s.core.games.find? g with
            | none => rfl
            | some game =>
                have hkey : game.id = g := Table.key_of_find? hgame
                simp [hkey, hid]
      | _ => cases hw

/-- A row that hangs off another game, and whatever replaces it. -/
private theorem ne_of_found {ρ : Type} {key : ρ → Uuid} {t : Table key} {gameOf : ρ → Uuid}
    {id : Uuid} (hne : (t.find? id).map gameOf ≠ some g) :
    ∀ r ∈ t, key r = id → gameOf r ≠ g := by
  intro r hr hid hg
  rw [Table.find?_eq_some.mpr ⟨hr, hid⟩, Option.map_some, hg] at hne
  exact hne rfl

/-- **A call leaves every game alone but its target.** -/
theorem Spares.exec (h : Sound s) (hlinked : Linked s)
    (hgame : (s.core.games.find? g).isSome = true) (choice : Choice) {α : Type} (c : Call α)
    (hne : s.target env c ≠ some g) : Spares s (exec env choice c s).2 g := by
  have hkept : ∀ part, c.writes part = false → Same s (Storefront.exec env choice c s).2 part :=
    fun _ => exec_same env choice s c
  cases c with
  | core c => exact Spares.execCore env hlinked choice c hne
  | removeGame id => exact Spares.execCore env hlinked choice (.removeGame id) hne
  | createGame game =>
      show Spares s (s.createGame env choice game).2 g
      obtain e | ⟨row, columns, _, hfresh, e⟩ := s.createGame_cases env choice game
      · rw [e]
        exact Spares.refl s g
      · rw [e]
        -- the game is there, so its id is not the new one
        have hid : g ≠ row.id := by
          rintro rfl
          obtain ⟨old, hold⟩ := Option.isSome_iff_exists.mp hgame
          exact hfresh (Table.key_of_find? hold ▸ h.games old (Table.mem_of_find? hold))
        exact { Spares.refl s g with
          game := Table.find?_insert_ne hid
          gameColumns := Function.update_of_ne hid _ _ }
  | updateGame text changes =>
      show Spares s (s.updateGame env text changes).2 g
      obtain e | ⟨gameId, hcast, columns, e⟩ := s.updateGame_cases env text changes
      · rw [e]
        exact Spares.refl s g
      · rw [e]
        have hid : g ≠ gameId := by
          rintro rfl
          exact hne hcast
        exact { Spares.refl s g with
          game := Table.find?_modify_ne hid
          gameColumns := Function.update_of_ne hid _ _ }
  | createVersion version =>
      show Spares s (s.createVersion env choice version).2 g
      obtain e | ⟨row, columns, hrow, hfresh, _, e⟩ := s.createVersion_cases env choice version
      · rw [e]
        exact Spares.refl s g
      · rw [e]
        have hother : row.gameId ≠ g := fun hg => hne (congrArg some (hrow.symm.trans hg))
        exact { Spares.refl s g with
          versions := fun v hv => Table.mem_insert_of_ne (fun e => hother (e ▸ hv))
          versionColumns := fun v hv _ =>
            Function.update_of_ne (fun e : v.id = row.id => hfresh (e ▸ h.versions v hv)) _ _ }
  | updateVersion id changes =>
      show Spares s (s.updateVersion env id changes).2 g
      obtain e | ⟨columns, e⟩ := s.updateVersion_cases env id changes
      · rw [e]
        exact Spares.refl s g
      · rw [e]
        have hother := ne_of_found hne
        exact { Spares.refl s g with
          versions := fun v hv => Table.mem_modify_of_not (p := fun v => v.gameId = g)
            (fun r hr hid => ⟨hother r hr hid, hother r hr hid⟩) hv
          versionColumns := fun v hv hg =>
            Function.update_of_ne (fun hid => hother v hv hid hg) _ _ }
  | createMedia media =>
      show Spares s (s.createMedia env choice media).2 g
      have hother : media.gameId ≠ g := fun hg => hne (congrArg some hg)
      obtain e | ⟨old, hold, holdg, e⟩ | ⟨row, hrow, _, e⟩ := s.createMedia_cases env choice media
      · rw [e]
        exact Spares.refl s g
      · rw [e]
        exact { Spares.refl s g with
          media := fun m hm => Table.mem_modify_of_not (p := fun m => m.gameId = g)
            (fun r hr hid => ⟨by rw [Table.eq_of_key_eq hr hold hid, holdg]; exact hother,
              hother⟩) hm }
      · rw [e]
        exact { Spares.refl s g with
          media := fun m hm => Table.mem_insert_of_ne (fun e => hother (hrow ▸ e ▸ hm)) }
  | updateMedia id changes =>
      show Spares s (s.updateMedia env id changes).2 g
      obtain e | e := s.updateMedia_cases env id changes
      · rw [e]
        exact Spares.refl s g
      · rw [e]
        have hother := ne_of_found hne
        exact { Spares.refl s g with
          media := fun m hm => Table.mem_modify_of_not (p := fun m => m.gameId = g)
            (fun r hr hid => ⟨hother r hr hid, hother r hr hid⟩) hm }
  | removeMedia id =>
      have hother := ne_of_found hne
      exact { Spares.refl s g with
        media := fun m hm => Table.mem_delete.trans (and_iff_left_of_imp (fun hmem =>
          decide_eq_false (fun hid => hother m hmem hid hm))) }
  | createNote note =>
      show Spares s (s.createNote env choice note).2 g
      obtain e | ⟨row, hrow, _, _, _, e⟩ := s.createNote_cases env choice note
      · rw [e]
        exact Spares.refl s g
      · rw [e]
        have hother : row.gameId ≠ g := fun hg => hne (congrArg some (hrow.symm.trans hg))
        exact { Spares.refl s g with
          notes := fun n hn => Table.mem_insert_of_ne (fun e => hother (e ▸ hn)) }
  | updateNote id changes =>
      show Spares s (s.updateNote env id changes).2 g
      obtain e | ⟨_, _, _, e⟩ := s.updateNote_cases env id changes
      · rw [e]
        exact Spares.refl s g
      · rw [e]
        have hother := ne_of_found hne
        exact { Spares.refl s g with
          notes := fun n hn => Table.mem_modify_of_not (p := fun n => n.gameId = g)
            (fun r hr hid => ⟨hother r hr hid, hother r hr hid⟩) hn }
  | removeNote id =>
      have hother := ne_of_found hne
      exact { Spares.refl s g with
        notes := fun n hn => Table.mem_delete.trans (and_iff_left_of_imp (fun hmem =>
          decide_eq_false (fun hid => hother n hmem hid hn))) }
  | _ =>
      exact .of_same (hkept .games rfl) (hkept .versions rfl) (hkept .builds rfl)
        (hkept .media rfl) (hkept .notes rfl) g

end Alone

/-! ## Notes and their versions -/

/-- A call that attaches a note to a version attaches it to one of its own game. -/
def Links (s : State) {α : Type} : Call α → Prop
  | .createNote note => ∀ v row, note.gameVersionId = some v →
      s.core.versions.find? v = some row → row.gameId = note.gameId
  | .updateNote id changes => ∀ note v row, s.notes.find? id = some note →
      changes.version note.gameVersionId = some v → s.core.versions.find? v = some row →
        row.gameId = note.gameId
  | _ => True

section Links

variable {env : Env} {s s' : State}

theorem Linked.of_versions (h : Linked s) (hn : s'.notes = s.notes)
    (hv : ∀ v g, s.gameOfVersion v = some g → s'.gameOfVersion v = some g) : Linked s' := by
  intro n hmem v hversion
  rw [hn] at hmem
  exact hv v n.gameId (h n hmem v hversion)

theorem Linked.of_same (h : Linked s) (hversions : Same s s' .versions)
    (hnotes : Same s s' .notes) : Linked s' := by
  refine h.of_versions hnotes (fun v g hg => ?_)
  rw [State.gameOfVersion, hversions.1]
  exact hg

/-- A note whose version goes loses the reference. -/
theorem Linked.afterCore (h : Linked s) {core' : Launcher.State}
    (hv : ∃ p, core'.versions = s.core.versions.delete p) : Linked (s.afterCore core') := by
  obtain ⟨p, hv⟩ := hv
  intro n hmem v hversion
  obtain ⟨n₀, hn₀, rfl⟩ := Table.mem_updateWhere.mp hmem
  split at hversion
  · cases hversion
  · rename_i hgone
    rw [if_neg hgone]
    obtain ⟨row, hrow, hid, hg⟩ := gameOfVersion_eq_some.mp
      (h n₀ (Table.mem_delete.mp hn₀).1 v hversion)
    have hfound : s.core.versions.find? v = some row := Table.find?_eq_some.mpr ⟨hrow, hid⟩
    have hleft : core'.versions.find? v ≠ none := by
      intro hnone
      rw [hversion] at hgone
      simp [hfound, hnone] at hgone
    obtain ⟨row', hrow'⟩ := Option.ne_none_iff_exists'.mp hleft
    rw [hv] at hrow'
    have hsame := (Table.find?_delete.mp hrow').1
    rw [hfound] at hsame
    obtain rfl := Option.some.inj hsame
    refine gameOfVersion_eq_some.mpr ⟨row, ?_, hid, hg⟩
    show row ∈ core'.versions
    rw [hv]
    exact Table.mem_of_find? hrow'

theorem Linked.createNote (h : Linked s) (choice : Choice) {note : NewPatchNote}
    (hc : Links s (.createNote note)) : Linked (s.createNote env choice note).2 := by
  obtain e | ⟨row, hgame, hrow, _, hfk, e⟩ := s.createNote_cases env choice note
  · rw [e]
    exact h
  · rw [e]
    intro n hmem v hversion
    rcases Table.eq_or_mem_of_mem_insert hmem with rfl | hmem
    · rw [hrow] at hversion
      obtain ⟨version, hfound⟩ := Option.isSome_iff_exists.mp (hfk v hversion)
      rw [hgame]
      exact Option.map_eq_some_iff.mpr ⟨version, hfound, hc v version hversion hfound⟩
    · exact h n hmem v hversion

theorem Linked.updateNote (h : Linked s) {id : Uuid} {changes : PatchNoteUpdate}
    (hc : Links s (.updateNote id changes)) : Linked (s.updateNote env id changes).2 := by
  obtain e | ⟨note, hnote, hfk, e⟩ := s.updateNote_cases env id changes
  · rw [e]
    exact h
  · rw [e]
    intro n hmem v hversion
    rcases Table.mem_modify.mp hmem with ⟨old, hold, hid, rfl⟩ | ⟨hmem, _⟩
    · obtain rfl : old = note :=
        Option.some.inj ((Table.find?_eq_some.mpr ⟨hold, hid⟩).symm.trans hnote)
      obtain ⟨version, hfound⟩ := Option.isSome_iff_exists.mp (hfk v hversion)
      exact Option.map_eq_some_iff.mpr ⟨version, hfound, hc old v version hnote hversion hfound⟩
    · exact h n hmem v hversion

theorem Linked.exec (h : Linked s) (choice : Choice) {α : Type} (c : Call α) (hc : Links s c) :
    Linked (exec env choice c s).2 := by
  have hkept : ∀ part, c.writes part = false → Same s (Storefront.exec env choice c s).2 part :=
    fun _ => exec_same env choice s c
  cases c with
  | core c => exact h.afterCore (exec_removes env.core choice c s.core).2
  | removeGame id => exact h.afterCore ⟨_, rfl⟩
  | createVersion version =>
      show Linked (s.createVersion env choice version).2
      obtain e | ⟨row, _, _, _, _, e⟩ := s.createVersion_cases env choice version
      · rw [e]; exact h
      · rw [e]
        refine h.of_versions rfl (fun v g hg => ?_)
        obtain ⟨old, hold, hid, hg⟩ := gameOfVersion_eq_some.mp hg
        exact gameOfVersion_eq_some.mpr ⟨old, Table.mem_insert_of_mem hold, hid, hg⟩
  | updateVersion id changes =>
      show Linked (s.updateVersion env id changes).2
      obtain e | ⟨_, e⟩ := s.updateVersion_cases env id changes
      · rw [e]; exact h
      · rw [e]
        refine h.of_versions rfl (fun v g hg => ?_)
        show ((s.core.versions.modify id _).find? v).map (·.gameId) = some g
        rw [Table.find?_modify]
        split
        · rename_i hid
          subst hid
          rw [Option.map_map]
          exact hg
        · exact hg
  | createNote note => exact h.createNote choice hc
  | updateNote id changes => exact h.updateNote hc
  | removeNote id => exact fun n hmem => h n (Table.mem_delete.mp hmem).1
  | _ => exact h.of_same (hkept .versions rfl) (hkept .notes rfl)

end Links

end Launcher.Storefront
