import Launcher.Storefront.Lookups

set_option autoImplicit false

/-! # Who is allowed to change the catalog

Every operation that changes the catalog has a permission in the documentation. Nine of them
ask for it before anything else; the other eight only ask whether the game is the actor's. For
each of the seventeen it is said exactly when a caller without the permission is turned away
with nothing changed: always, or when one of the other checks fails. -/

namespace Launcher

/-- A coroutine of the upload side that has ended without doing what it was asked for. -/
def Task.failed : Task → Prop
  | .missingBlobs (.answered (.error _)) => True
  | .beginUpload (.answered (.error _)) => True
  | .beginUpload (.threw _) => True
  | .uploadChunk (.answered (.error _)) => True
  | .abortUpload (.answered (.error _)) => True
  | .finalizeBuild (.answered (.error _)) => True
  | .finalizeBuild (.threw _) => True
  | .manifest (.answered (.error _)) => True
  | .createBuild (.answered (.error _)) => True
  | .createBuild (.threw _) => True
  | .deleteBuild (.answered (.error _)) => True
  | .deleteVersion (.answered (.error _)) => True
  | .deleteGame (.answered (.error _)) => True
  | _ => False

end Launcher

namespace Launcher.Storefront

open Launcher.Lib

/-- A task that has ended in a refusal or an exception. -/
def Task.failed (t : Task) : Prop :=
  match t.body with
  | .core t => t.failed
  | .program (.done (.error _)) => True
  | .program _ => False

/-- The request, made in the state `s` and run alone, fails whatever its calls reply, and
leaves every table and file as it was. -/
def TurnedAway (env : Env) (s : State) (r : Request) : Prop :=
  (storefront env).Ends (fun s' t => t.failed ∧ s' = s) s (entry env r)

/-- The permission an operation is documented to need, and who has to hold it. -/
def Request.permission : Request → Option (Actor × Permission)
  | .createGame actor _ => some (actor, .GAME_PUBLISH)
  | .updateGame actor _ _ => some (actor, .GAME_PUBLISH)
  | .createVersion actor _ _ => some (actor, .GAME_PUBLISH)
  | .updateVersion actor _ _ _ => some (actor, .GAME_PUBLISH)
  | .core (.deleteVersion actor _ _) => some (actor, .GAME_PUBLISH)
  | .uploadMedia actor _ _ => some (actor, .GAME_PUBLISH)
  | .updateMedia actor _ _ => some (actor, .GAME_PUBLISH)
  | .removeMedia actor _ => some (actor, .GAME_PUBLISH)
  | .core (.createBuild actor _ _) => some (actor, .BUILD_UPLOAD)
  | .core (.missingBlobs actor _ _) => some (actor, .BUILD_UPLOAD)
  | .core (.beginUpload actor _ _) => some (actor, .BUILD_UPLOAD)
  | .core (.finalizeBuild actor _ _) => some (actor, .BUILD_UPLOAD)
  | .createNote actor _ _ => some (actor, .PATCHNOTE_WRITE)
  | .updateNote actor _ _ => some (actor, .PATCHNOTE_WRITE)
  | .removeNote actor _ => some (actor, .PATCHNOTE_WRITE)
  | .addToLibrary actor _ => some (actor, .LIBRARY_MANAGE)
  | .removeFromLibrary actor _ => some (actor, .LIBRARY_MANAGE)
  | _ => none

/-! ## Programs that fail -/

/-- A program has ended in a failure, with the state as it was. -/
def Fails {α : Type} (s : State) (r : Except Failure α) (s' : State) : Prop :=
  (∃ e, r = .error e) ∧ s' = s

section Fails

variable {env : Env} {s : State} {actor : Actor} {α β : Type}

theorem fails_error (e : Failure) : Fails s (.error e : Except Failure α) s := ⟨⟨e, rfl⟩, rfl⟩

theorem not_fails_ok {a : α} {s' : State} : ¬Fails s (.ok a) s' := by
  rintro ⟨⟨e, he⟩, _⟩
  cases he

theorem ends_start {p : Coroutine α} {reply : α → Reply} :
    (storefront env).Ends (fun s' t => t.failed ∧ s' = s) s (start actor p reply) ↔
      p.Wp (exec env) (Fails s) s := by
  refine ends_program.trans (Program.wp_bind.trans ⟨Program.Wp.mono ?_, Program.Wp.mono ?_⟩)
  · intro r s' h
    cases r with
    | ok a => exact h.1.elim
    | error e => exact ⟨⟨e, rfl⟩, h.2⟩
  · intro r s' h
    cases r with
    | ok a => exact (not_fails_ok h).elim
    | error e => exact ⟨trivial, h.2⟩

/-- After a part that only reads: it fails itself, or the rest fails from its answer. -/
theorem fails_bind {p : Coroutine α} {f : α → Coroutine β} {a : Except Failure α}
    (h : p.Wp (exec env) (fun r s' => r = a ∧ s' = s) s) :
    (p >>= f).Wp (exec env) (Fails s) s ↔
      ∀ x, a = .ok x → (f x).Wp (exec env) (Fails s) s := by
  rw [Program.wp_bind, Program.wp_iff_of_answer h]
  cases a with
  | ok x => exact ⟨fun hx y hy => Except.ok.inj hy ▸ hx, fun hx => hx x rfl⟩
  | error e => exact ⟨fun _ x hx => (by cases hx), fun _ => fails_error e⟩

theorem fails_require {check : Result α} {f : α → Coroutine β} :
    (require check >>= f).Wp (exec env) (Fails s) s ↔
      ∀ x, check = .ok x → (f x).Wp (exec env) (Fails s) s := by
  cases check with
  | ok x => exact ⟨fun hx y hy => Except.ok.inj hy ▸ hx, fun hx => hx x rfl⟩
  | error e => exact ⟨fun _ x hx => (by cases hx), fun _ => fails_error _⟩

/-- A permission that is asked for and not held. -/
theorem fails_demand {permission : Permission} (h : actor.can permission = false) {detail : Bytes}
    {f : Unit → Coroutine β} : (demand actor permission detail >>= f).Wp (exec env) (Fails s) s := by
  unfold demand
  rw [h]
  exact fails_error _

/-- The statement at the end of an operation. -/
theorem fails_statement {c : Call (Except Failure α)} {f : α → Coroutine β} {t : State} :
    (statement c >>= f).Wp (exec env) (Fails s) t ↔ ∀ choice,
      match exec env choice c t with
      | (.ok x, s') => (f x).Wp (exec env) (Fails s) s'
      | (.error _, s') => s' = s := by
  refine forall_congr' (fun choice => ?_)
  show Program.Wp _ _ (Program.ofExcept (exec env choice c t).1 >>= f) (exec env choice c t).2 ↔ _
  cases exec env choice c t with
  | mk reply s' =>
      cases reply with
      | ok x => exact Iff.rfl
      | error e => exact ⟨fun h => h.2, fun h => ⟨⟨e, rfl⟩, h⟩⟩

/-- A statement that answers with the row it changed, if there was one. -/
theorem fails_update {c : Call (Except Failure (Option α))} {f : Option α → Coroutine β}
    {e : Failure} {g : α → β} (hnone : f none = .done (.error e))
    (hsome : ∀ x, f (some x) = .done (.ok (g x))) :
    (statement c >>= f).Wp (exec env) (Fails s) s ↔ ∀ choice,
      (∀ x, (exec env choice c s).1 ≠ .ok (some x)) ∧ (exec env choice c s).2 = s := by
  refine fails_statement.trans (forall_congr' (fun choice => ?_))
  cases exec env choice c s with
  | mk reply s' =>
      cases reply with
      | error e => exact ⟨fun h => ⟨fun x hx => (by cases hx), h⟩, fun h => h.2⟩
      | ok found =>
          cases found with
          | none =>
              show (f none).Wp _ _ s' ↔ _
              rw [hnone]
              exact ⟨fun h => ⟨fun x hx => (by cases hx), h.2⟩, fun h => ⟨⟨e, rfl⟩, h.2⟩⟩
          | some x =>
              show (f (some x)).Wp _ _ s' ↔ _
              rw [hsome]
              exact ⟨fun h => (not_fails_ok h).elim, fun h => (h.1 x rfl).elim⟩

/-- The same for one that ends the operation. -/
theorem fails_last {c : Call (Except Failure α)} :
    (statement c).Wp (exec env) (Fails s) s ↔ ∀ choice,
      (∀ x, (exec env choice c s).1 ≠ .ok x) ∧ (exec env choice c s).2 = s := by
  refine forall_congr' (fun choice => ?_)
  show Program.Wp _ _ (Program.ofExcept (exec env choice c s).1) (exec env choice c s).2 ↔ _
  cases exec env choice c s with
  | mk reply s' =>
      cases reply with
      | ok x => exact ⟨fun h => (not_fails_ok h).elim, fun h => (h.1 x rfl).elim⟩
      | error e => exact ⟨fun h => ⟨fun x hx => (by cases hx), h.2⟩, fun h => ⟨⟨e, rfl⟩, h.2⟩⟩

end Fails

/-! ## The operations that do not ask for their permission -/

section Ungated

variable {env : Env} {s : State} {actor : Actor}

/-- The statement of `updateGame` finds a row to change. -/
def UpdatesGame (env : Env) (s : State) (gameId : Bytes) (changes : GameUpdate) : Prop :=
  ∃ id game, env.castUuid gameId = some id ∧ s.core.games.find? id = some game ∧
    State.acceptsAll env (changes.title.toList ++ changes.summary.toList ++
      changes.description.toList) = true

theorem updateGame_reply {gameId : Bytes} {changes : GameUpdate} :
    ((∀ game, (s.updateGame env gameId changes).1 ≠ .ok (some game)) ∧
      (s.updateGame env gameId changes).2 = s) ↔ ¬UpdatesGame env s gameId changes := by
  unfold State.updateGame
  constructor
  · rintro ⟨hreply, _⟩ ⟨id, game, hid, hgame, htexts⟩
    simp only [hid, htexts, hgame, Bool.not_true, Bool.false_eq_true, if_false] at hreply
    exact hreply _ rfl
  · intro h
    cases hid : env.castUuid gameId with
    | none => exact ⟨fun game hg => (by cases hg), rfl⟩
    | some id =>
        dsimp only
        split
        · exact ⟨fun game hg => (by cases hg), rfl⟩
        · rename_i htexts
          cases hgame : s.core.games.find? id with
          | none => exact ⟨fun game hg => (by cases hg), rfl⟩
          | some game => exact absurd ⟨id, game, hid, hgame, by simpa using htexts⟩ h

/-- The checks of `updateGame` pass: the game is the actor's, and the changes are fit. -/
def UpdateGamePasses (env : Env) (s : State) (actor : Actor) (gameId : Bytes)
    (changes : GameUpdate) : Prop :=
  ∃ game, s.editable env actor gameId = .ok game ∧ (changes.empty = true ∨
    ∃ checked, changes.checked = .ok checked ∧ UpdatesGame env s gameId checked)

theorem updateGame_fails_iff {gameId : Bytes} {changes : GameUpdate} :
    (updateGame actor gameId changes).Wp (exec env) (Fails s) s ↔
      ¬UpdateGamePasses env s actor gameId changes := by
  unfold updateGame
  rw [fails_bind (editableGame_wp ⟨rfl, rfl⟩)]
  constructor
  · rintro h ⟨game, hgame, hrest⟩
    have hgo := h game hgame
    rcases hrest with hempty | ⟨checked, hchecked, hupdates⟩
    · rw [hempty] at hgo
      exact not_fails_ok hgo
    · by_cases hempty : changes.empty = true
      · rw [hempty] at hgo
        exact not_fails_ok hgo
      · rw [if_neg hempty] at hgo
        have hstatement := fails_require.mp hgo checked hchecked
        rw [fails_update rfl (fun _ => rfl)] at hstatement
        exact updateGame_reply.mp (hstatement ⟨0, .none⟩) hupdates
  · intro h game hgame
    split
    · rename_i hempty
      exact absurd ⟨game, hgame, Or.inl hempty⟩ h
    · refine fails_require.mpr (fun checked hchecked => ?_)
      refine (fails_update rfl (fun _ => rfl)).mpr (fun choice => ?_)
      exact updateGame_reply.mpr (fun hupdates => h ⟨game, hgame, Or.inr ⟨checked, hchecked, hupdates⟩⟩)

/-- The checks of `MediaService::update` pass. -/
def UpdateMediaPasses (env : Env) (s : State) (actor : Actor) (mediaId : Bytes)
    (changes : GameMediaUpdate) : Prop :=
  ∃ media, s.editableMedia actor mediaId = .ok media ∧ (changes.empty = true ∨
    changes.altText.forM validateAltText = .ok () ∧
      State.acceptsAll env changes.altText.toList = true)

/-- A picture the actor may edit is a row of `game_media`. -/
theorem editableMedia_find {mediaId : Bytes} {media : GameMedia}
    (h : s.editableMedia actor mediaId = .ok media) : s.media.find? (uuidOf mediaId) = some media := by
  obtain ⟨hfound, _⟩ := editableRow_ok h
  split_ifs at hfound
  exact hfound

theorem updateMedia_fails_iff {mediaId : Bytes} {changes : GameMediaUpdate} :
    (Media.update actor mediaId changes).Wp (exec env) (Fails s) s ↔
      ¬UpdateMediaPasses env s actor mediaId changes := by
  unfold Media.update
  rw [fails_bind (editableMedia_wp ⟨rfl, rfl⟩)]
  constructor
  · rintro h ⟨media, hmedia, hrest⟩
    have hgo := h media hmedia
    by_cases hempty : changes.empty = true
    · rw [if_pos hempty] at hgo
      exact not_fails_ok hgo
    · obtain ⟨hchecked, htexts⟩ := hrest.resolve_left hempty
      rw [if_neg hempty] at hgo
      have hstatement := fails_require.mp hgo () hchecked
      rw [fails_update rfl (fun _ => rfl)] at hstatement
      refine (hstatement ⟨0, .none⟩).1 (media.apply changes) ?_
      show (s.updateMedia env (uuidOf mediaId) changes).1 = _
      simp [State.updateMedia, htexts, editableMedia_find hmedia]
  · intro h media hmedia
    split
    · rename_i hempty
      exact absurd ⟨media, hmedia, Or.inl hempty⟩ h
    · refine fails_require.mpr (fun _ hchecked => ?_)
      refine (fails_update rfl (fun _ => rfl)).mpr (fun choice => ?_)
      have htexts : ¬State.acceptsAll env changes.altText.toList = true :=
        fun htexts => h ⟨media, hmedia, Or.inr ⟨hchecked, htexts⟩⟩
      have hthrows : exec env choice (.updateMedia (uuidOf mediaId) changes) s
          = (.error (.threw .characterNotInRepertoire), s) := by
        show s.updateMedia env (uuidOf mediaId) changes = _
        simp [State.updateMedia, htexts]
      rw [hthrows]
      exact ⟨fun x hx => (by cases hx), rfl⟩

/-- Reclaiming a file does not fail. -/
theorem reclaim_wp (storageKey : Bytes) {Q : Except Failure Unit → State → Prop}
    (h : ∀ s', Q (.ok ()) s') : (reclaim storageKey).Wp (exec env) Q s := by
  unfold reclaim
  split
  · exact h s
  · refine Program.wp_bind.mpr (await_wp (fun _ => rfl) ?_)
    show Program.Wp _ _ (if s.isStorageKeyReferenced storageKey then _ else _) s
    split
    · exact h s
    · exact fun choice => h _

/-- What does not fail is not turned away. -/
theorem not_fails_of_ok {α : Type} {p : Coroutine α} {s' : State}
    (h : p.Wp (exec env) (fun r _ => ∃ a, r = .ok a) s') : ¬p.Wp (exec env) (Fails s) s' := by
  intro hfails
  obtain ⟨r, s'', ⟨a, rfl⟩, hr⟩ := (h.and hfails).exists
  exact not_fails_ok hr

theorem removeMedia_fails_iff {mediaId : Bytes} :
    (Media.remove actor mediaId).Wp (exec env) (Fails s) s ↔
      ¬∃ media, s.editableMedia actor mediaId = .ok media := by
  unfold Media.remove
  rw [fails_bind (editableMedia_wp ⟨rfl, rfl⟩)]
  constructor
  · rintro h ⟨media, hmedia⟩
    have hremoved : (exec env ⟨0, .none⟩ (.removeMedia (uuidOf mediaId)) s).1 = some media :=
      editableMedia_find hmedia
    have hgo := h media hmedia ⟨0, .none⟩
    rw [hremoved] at hgo
    exact not_fails_of_ok (reclaim_wp _ (fun _ => ⟨(), rfl⟩)) hgo
  · exact fun h media hmedia => absurd ⟨media, hmedia⟩ h

/-- The statement of `PatchNoteService::create` inserts its row, with a fresh id. -/
def InsertsNote (env : Env) (s : State) (note : NewPatchNote) : Prop :=
  State.acceptsAll env [note.title, note.bodyMarkdown] = true ∧
  (s.core.games.find? note.gameId).isNone = false ∧
  note.gameVersionId.any (fun id => (s.core.versions.find? id).isNone) = false ∧
  (s.core.users.find? note.authorUserId).isNone = false ∧
  ∃ id, s.core.issued.contains id = false

theorem createNote_reply {note : NewPatchNote} :
    (∀ choice, (∀ x, (s.createNote env choice note).1 ≠ .ok x) ∧
      (s.createNote env choice note).2 = s) ↔ ¬InsertsNote env s note := by
  unfold State.createNote
  constructor
  · rintro h ⟨htexts, hgame, hversion, huser, id, hid⟩
    have hreply := (h ⟨id, .none⟩).1
    simp only [htexts, hid, hgame, hversion, huser, Bool.not_true, Bool.false_eq_true, if_false,
      Bool.or_self] at hreply
    exact hreply _ rfl
  · intro h choice
    split
    · exact ⟨fun x hx => (by cases hx), rfl⟩
    · rename_i htexts
      split
      · exact ⟨fun x hx => (by cases hx), rfl⟩
      · rename_i hissued
        split
        · exact ⟨fun x hx => (by cases hx), rfl⟩
        · rename_i hkeys
          simp only [Bool.or_eq_true, not_or, Bool.not_eq_true] at hkeys
          obtain ⟨⟨hgame, hversion⟩, huser⟩ := hkeys
          refine absurd ⟨?_, hgame, hversion, huser, choice.uuid, ?_⟩ h
          · simpa using htexts
          · simpa using hissued

/-- The checks of `PatchNoteService::create` pass: the game is the actor's, the texts and the
version are fit. -/
def CreateNotePasses (env : Env) (s : State) (actor : Actor) (gameId : Bytes)
    (command : Notes.CreatePatchNoteCommand) : Prop :=
  ∃ game version, s.editable env actor gameId = .ok game ∧
    validatePatchNoteTitle (trim command.title) = .ok () ∧
    validatePatchNoteBody command.bodyMarkdown = .ok () ∧
    s.noteVersionFor game.id (trim command.versionId) = .ok version ∧
    InsertsNote env s
      { gameId := game.id, gameVersionId := version, title := trim command.title,
        bodyMarkdown := command.bodyMarkdown, authorUserId := actor.userId,
        publish := command.publish }

theorem createNote_fails_iff {gameId : Bytes} {command : Notes.CreatePatchNoteCommand} :
    (Notes.create actor gameId command).Wp (exec env) (Fails s) s ↔
      ¬CreateNotePasses env s actor gameId command := by
  unfold Notes.create
  rw [fails_bind (editableGame_wp ⟨rfl, rfl⟩)]
  constructor
  · rintro h ⟨game, version, hgame, htitle, hbody, hversion, hinserts⟩
    have hgo := fails_require.mp (fails_require.mp (h game hgame) () htitle) () hbody
    have hstatement := (fails_bind (noteVersion_wp ⟨rfl, rfl⟩)).mp hgo version hversion
    exact createNote_reply.mp (fails_last.mp hstatement) hinserts
  · intro h game hgame
    refine fails_require.mpr (fun _ htitle => fails_require.mpr (fun _ hbody => ?_))
    refine (fails_bind (noteVersion_wp ⟨rfl, rfl⟩)).mpr (fun version hversion => ?_)
    refine fails_last.mpr (createNote_reply.mpr (fun hinserts => ?_))
    exact h ⟨game, version, hgame, htitle, hbody, hversion, hinserts⟩

/-- The statement of `PatchNoteService::update` changes the row: the version it leaves in it
exists. -/
def UpdatesNote (env : Env) (s : State) (note : PatchNoteRow) (changes : PatchNoteUpdate) : Prop :=
  State.acceptsAll env (changes.title.toList ++ changes.bodyMarkdown.toList) = true ∧
  (changes.version note.gameVersionId).any (fun id => (s.core.versions.find? id).isNone) = false

theorem updateNote_reply {id : Uuid} {note : PatchNoteRow} (hnote : s.notes.find? id = some note)
    {changes : PatchNoteUpdate} :
    ((∀ x, (s.updateNote env id changes).1 ≠ .ok (some x)) ∧
      (s.updateNote env id changes).2 = s) ↔ ¬UpdatesNote env s note changes := by
  unfold State.updateNote
  rw [hnote]
  constructor
  · rintro ⟨hreply, _⟩ ⟨htexts, hversion⟩
    simp only [htexts, Bool.not_true, Bool.false_eq_true, if_false] at hreply
    exact hreply _ (congrArg Prod.fst (if_neg (by simpa [PatchNoteRow.apply] using hversion)))
  · intro h
    split_ifs with htexts
    · exact ⟨fun x hx => (by cases hx), rfl⟩
    · dsimp only
      split_ifs with hversion
      · exact ⟨fun x hx => (by cases hx), rfl⟩
      · exact absurd ⟨by simpa using htexts, by simpa [PatchNoteRow.apply] using hversion⟩ h

theorem editableNote_find {noteId : Bytes} {note : PatchNote}
    (h : s.editableNote actor noteId = .ok note) :
    s.notes.find? (uuidOf noteId) = some note.toPatchNoteRow := by
  obtain ⟨hfound, _⟩ := editableRow_ok h
  split_ifs at hfound
  obtain ⟨row, hrow, rfl⟩ := Option.map_eq_some_iff.mp hfound
  exact hrow

/-- The checks of `PatchNoteService::update` pass. -/
def UpdateNotePasses (env : Env) (s : State) (actor : Actor) (noteId : Bytes)
    (changes : PatchNoteUpdate) : Prop :=
  ∃ note, s.editableNote actor noteId = .ok note ∧ (changes.empty = true ∨
    ∃ checked version, Notes.checkUpdate changes = .ok checked ∧
      s.noteVersionFor note.gameId (checked.gameVersionId.getD []) = .ok version ∧
      UpdatesNote env s note.toPatchNoteRow checked)

theorem updateNote_fails_iff {noteId : Bytes} {changes : PatchNoteUpdate} :
    (Notes.update actor noteId changes).Wp (exec env) (Fails s) s ↔
      ¬UpdateNotePasses env s actor noteId changes := by
  unfold Notes.update
  rw [fails_bind (editableNote_wp ⟨rfl, rfl⟩)]
  constructor
  · rintro h ⟨note, hnote, hrest⟩
    have hgo := h note hnote
    by_cases hempty : changes.empty = true
    · rw [if_pos hempty] at hgo
      exact not_fails_ok hgo
    · obtain ⟨checked, version, hchecked, hversion, hupdates⟩ := hrest.resolve_left hempty
      rw [if_neg hempty] at hgo
      have hversions := fails_require.mp hgo checked hchecked
      have hstatement := (fails_bind (noteVersion_wp ⟨rfl, rfl⟩)).mp hversions version hversion
      rw [fails_update rfl (fun _ => rfl)] at hstatement
      exact (updateNote_reply (editableNote_find hnote)).mp (hstatement ⟨0, .none⟩) hupdates
  · intro h note hnote
    split
    · rename_i hempty
      exact absurd ⟨note, hnote, Or.inl hempty⟩ h
    · refine fails_require.mpr (fun checked hchecked => ?_)
      refine (fails_bind (noteVersion_wp ⟨rfl, rfl⟩)).mpr (fun version hversion => ?_)
      refine (fails_update rfl (fun _ => rfl)).mpr (fun choice => ?_)
      refine (updateNote_reply (editableNote_find hnote)).mpr (fun hupdates => ?_)
      exact h ⟨note, hnote, Or.inr ⟨checked, version, hchecked, hversion, hupdates⟩⟩

theorem removeNote_fails_iff {noteId : Bytes} :
    (Notes.remove actor noteId).Wp (exec env) (Fails s) s ↔
      ¬∃ note, s.editableNote actor noteId = .ok note := by
  unfold Notes.remove
  rw [fails_bind (editableNote_wp ⟨rfl, rfl⟩)]
  constructor
  · rintro h ⟨note, hnote⟩
    have hgo : Program.Wp _ _ (if (s.notes.find? (uuidOf noteId)).isSome then _ else _) _ :=
      h note hnote ⟨0, .none⟩
    rw [editableNote_find hnote] at hgo
    exact not_fails_ok hgo
  · exact fun h note hnote => absurd ⟨note, hnote⟩ h

/-- The statement of an upload leaves a row: in the place of the one it replaces, or as a new
one with a fresh id. -/
def InsertsMedia (env : Env) (s : State) (media : NewGameMedia) : Prop :=
  State.acceptsAll env [media.altText] = true ∧ ((s.replacedMedia media).isSome = true ∨
    (s.core.games.find? media.gameId).isNone = false ∧ ∃ id, s.core.issued.contains id = false)

/-- A row that could not be written leaves the state alone. -/
theorem createMedia_error {choice : Choice} {media : NewGameMedia} {e : Failure} {s' : State}
    (h : s.createMedia env choice media = (.error e, s')) : s' = s := by
  unfold State.createMedia at h
  split at h
  · exact (congrArg Prod.snd h).symm
  · split at h
    · cases h
    · split_ifs at h
      · exact (congrArg Prod.snd h).symm
      · exact (congrArg Prod.snd h).symm
      · cases h

theorem createMedia_reply {media : NewGameMedia} :
    (∀ choice, ∀ x, (s.createMedia env choice media).1 ≠ .ok x) ↔ ¬InsertsMedia env s media := by
  unfold State.createMedia
  constructor
  · rintro h ⟨htexts, hrow⟩
    cases hold : s.replacedMedia media with
    | some old =>
        have hreply := h ⟨0, .none⟩
        simp only [htexts, hold, Bool.not_true, Bool.false_eq_true, if_false] at hreply
        exact hreply _ rfl
    | none =>
        rw [hold] at hrow
        obtain ⟨hgame, id, hid⟩ := hrow.resolve_left (by simp)
        have hreply := h ⟨id, .none⟩
        simp only [htexts, hold, hid, hgame, Bool.not_true, Bool.false_eq_true, if_false] at hreply
        exact hreply _ rfl
  · intro h choice x hx
    split at hx
    · cases hx
    · rename_i htexts
      split at hx
      · rename_i old hold
        exact h ⟨by simpa using htexts, Or.inl (by rw [hold]; rfl)⟩
      · split_ifs at hx with hissued hgame
        refine h ⟨by simpa using htexts, Or.inr ⟨Bool.eq_false_iff.mpr hgame, choice.uuid, ?_⟩⟩
        simpa using hissued

/-- What `checkGallery` answers. -/
def State.galleryFor (s : State) (gameId : Uuid) (kind : MediaKind) : Except Failure Unit :=
  if isSingletonKind kind || decide (s.countMedia gameId kind < Media.galleryCap kind) then .ok ()
  else .error (.refused
    { code := .Conflict
      detail := ascii "a game may have at most " ++ decimal (Media.galleryCap kind) ++
        ascii (if isVideoKind kind then " videos" else " screenshots") })

theorem checkGallery_wp {gameId : Uuid} {kind : MediaKind}
    {Q : Except Failure Unit → State → Prop} (h : Q (s.galleryFor gameId kind) s) :
    (Media.checkGallery gameId kind).Wp (exec env) Q s := by
  unfold Media.checkGallery
  unfold State.galleryFor at h
  split
  · rename_i hkind
    rw [hkind] at h
    exact h
  · rename_i hkind
    rw [Bool.not_eq_true] at hkind
    rw [hkind, Bool.false_or] at h
    refine Program.wp_bind.mpr (await_wp (fun _ => rfl) ?_)
    show Program.Wp _ _ (if Media.galleryCap kind ≤ s.countMedia gameId kind then _ else _) s
    by_cases hcap : Media.galleryCap kind ≤ s.countMedia gameId kind
    · rw [if_pos hcap]
      rw [decide_eq_false (not_lt.mpr hcap)] at h
      exact h
    · rw [if_neg hcap]
      rw [decide_eq_true (not_le.mp hcap)] at h
      exact h

/-- The checks of `MediaService::upload` pass, and the file can be named. If it is not there
yet it is written before the row, and stays when the row is refused. -/
def UploadMediaPasses (env : Env) (s : State) (actor : Actor) (gameId : Bytes)
    (command : Media.UploadMediaCommand) : Prop :=
  ∃ game format, s.editable env actor gameId = .ok game ∧
    Media.checkUpload env.media command = .ok format ∧
    s.galleryFor game.id command.kind = .ok () ∧
    (State.mediaKeyFor (env.core.sha256Hex command.bytes) format).isEmpty = false ∧
    ((s.artwork (State.mediaKeyFor (env.core.sha256Hex command.bytes) format)).isSome = true →
      InsertsMedia env s (Media.mediaRow game.id command format
        (State.mediaKeyFor (env.core.sha256Hex command.bytes) format)))

/-- The row of an upload and the file it replaces. -/
def storeRow (media : NewGameMedia) : Coroutine GameMedia := do
  let created ← statement (.createMedia media)
  reclaim created.replacedStorageKey
  pure created.media

/-- From a state `t` with the file in place: the row is refused, and nothing has changed. -/
theorem storeRow_fails {media : NewGameMedia} {t : State} :
    (storeRow media).Wp (exec env) (Fails s) t ↔ ¬InsertsMedia env t media ∧ t = s := by
  unfold storeRow
  rw [fails_statement]
  have hrest : ∀ (created : StoredMedia) (s' : State), ¬((do
      reclaim created.replacedStorageKey
      pure created.media) : Coroutine GameMedia).Wp (exec env) (Fails s) s' := by
    intro created s'
    refine not_fails_of_ok (Program.wp_bind.mpr (reclaim_wp _ (fun _ => ?_)))
    exact ⟨_, rfl⟩
  constructor
  · intro h
    refine ⟨createMedia_reply.mp (fun choice x hx => ?_), ?_⟩
    · have hchoice := h choice
      rw [show exec env choice (.createMedia media) t = (.ok x, (t.createMedia env choice media).2)
        from Prod.ext hx rfl] at hchoice
      exact hrest x _ hchoice
    · have hchoice := h ⟨0, .none⟩
      cases hreply : t.createMedia env ⟨0, .none⟩ media with
      | mk reply s' =>
          rw [show exec env ⟨0, .none⟩ (.createMedia media) t = (reply, s') from hreply] at hchoice
          cases reply with
          | ok x => exact absurd hchoice (hrest x s')
          | error e => exact (createMedia_error hreply).symm.trans hchoice
  · rintro ⟨hrefused, rfl⟩ choice
    cases hreply : t.createMedia env choice media with
    | mk reply s' =>
        rw [show exec env choice (.createMedia media) t = (reply, s') from hreply]
        cases reply with
        | ok x =>
            exact absurd (congrArg Prod.fst hreply) (createMedia_reply.mpr hrefused choice x)
        | error e => exact createMedia_error hreply

section Store

variable {bytes : Bytes} {format : StoredFormat}

theorem storeMedia_unnamed
    (hkey : (State.mediaKeyFor (env.core.sha256Hex bytes) format).isEmpty = true)
    {fault : IoFault} : s.storeMedia env fault bytes format
      = (failure .Internal (ascii "cannot derive a storage key"), s) := by
  simp only [State.storeMedia, hkey, if_true]

/-- A file that is there already is not written again. -/
theorem storeMedia_present
    (hkey : (State.mediaKeyFor (env.core.sha256Hex bytes) format).isEmpty = false)
    (hfile : (s.artwork (State.mediaKeyFor (env.core.sha256Hex bytes) format)).isSome = true)
    {fault : IoFault} : s.storeMedia env fault bytes format
      = (.ok (State.mediaKeyFor (env.core.sha256Hex bytes) format), s) := by
  simp only [State.storeMedia, hkey, hfile, Bool.false_eq_true, if_false, if_true]

theorem storeMedia_new
    (hkey : (State.mediaKeyFor (env.core.sha256Hex bytes) format).isEmpty = false)
    (hfile : (s.artwork (State.mediaKeyFor (env.core.sha256Hex bytes) format)).isSome = false) :
    s.storeMedia env .none bytes format
      = (.ok (State.mediaKeyFor (env.core.sha256Hex bytes) format), { s with
        artwork := Function.update s.artwork
          (State.mediaKeyFor (env.core.sha256Hex bytes) format) (some bytes) }) := by
  unfold State.storeMedia
  rw [if_neg (by rw [hkey]; exact Bool.false_ne_true),
    if_neg (by rw [hfile]; exact Bool.false_ne_true)]

end Store

theorem uploadMedia_fails_iff {gameId : Bytes} {command : Media.UploadMediaCommand} :
    (Media.upload env actor gameId command).Wp (exec env) (Fails s) s ↔
      ¬UploadMediaPasses env s actor gameId command := by
  unfold Media.upload
  rw [fails_bind (editableGame_wp ⟨rfl, rfl⟩)]
  constructor
  · rintro h ⟨game, format, hgame, hformat, hroom, hkey, hrow⟩
    have hgo := fails_require.mp (h game hgame) format hformat
    have hstore := (fails_bind (checkGallery_wp ⟨rfl, rfl⟩)).mp hgo () hroom ⟨0, .none⟩
    rw [show exec env ⟨0, .none⟩ (.storeMedia command.bytes format) s
      = s.storeMedia env .none command.bytes format from rfl] at hstore
    cases hfile : (s.artwork (State.mediaKeyFor (env.core.sha256Hex command.bytes) format)).isSome
      with
    | true =>
        rw [storeMedia_present hkey hfile] at hstore
        exact (storeRow_fails.mp hstore).1 (hrow hfile)
    | false =>
        -- the file that was just written is still there at the end
        rw [storeMedia_new hkey hfile] at hstore
        have hsame := congrArg State.artwork (storeRow_fails.mp hstore).2
        have hnow := congrFun hsame (State.mediaKeyFor (env.core.sha256Hex command.bytes) format)
        dsimp only at hnow
        rw [Function.update_self] at hnow
        rw [← hnow] at hfile
        cases hfile
  · intro h game hgame
    refine fails_require.mpr (fun format hformat => ?_)
    refine (fails_bind (checkGallery_wp ⟨rfl, rfl⟩)).mpr (fun _ hroom choice => ?_)
    rw [show exec env choice (.storeMedia command.bytes format) s
      = s.storeMedia env choice.fault command.bytes format from rfl]
    cases hkey : (State.mediaKeyFor (env.core.sha256Hex command.bytes) format).isEmpty with
    | true =>
        rw [storeMedia_unnamed hkey]
        exact fails_error _
    | false =>
        have hpasses := fun hrow => h ⟨game, format, hgame, hformat, hroom, hkey, hrow⟩
        cases hfile : (s.artwork (State.mediaKeyFor (env.core.sha256Hex command.bytes)
          format)).isSome with
        | true =>
            rw [storeMedia_present hkey hfile]
            exact storeRow_fails.mpr ⟨fun hrow => hpasses (fun _ => hrow), rfl⟩
        | false => exact absurd (fun hsome => by rw [hfile] at hsome; cases hsome) hpasses

/-! ## `deleteVersion` -/

/-- The checks of `deleteVersion` pass: the game is the actor's, the version the game's. -/
def DeleteVersionPasses (s : State) (actor : Actor) (gameId versionId : Bytes) : Prop :=
  ∃ game version, Catalog.editableGame actor (gameNamed s.core gameId) = .ok game ∧
    isUuid versionId = true ∧
    Catalog.versionOf game (s.core.versions.find? (uuidOf versionId)) = .ok version

/-- The task after a call of the upload side, for whatever it replies. -/
theorem ends_core_call {Q : State → Task → Prop} {t : Launcher.Task} {asker : Option Actor}
    {α : Type} {c : Launcher.Call α} {k : α → Launcher.Task}
    (hc : t.next env.core = .call c k) :
    (storefront env).Ends Q s ⟨asker, .core t⟩ ↔ ∀ choice,
      (storefront env).Ends Q (exec env choice (.core c) s).2
        ⟨asker, .core (k (exec env choice (.core c) s).1)⟩ := by
  have hnext : (storefront env).next ⟨asker, .core t⟩
      = .call (.core c) (fun r => ⟨asker, .core (k r)⟩) := by
    show ((((t.next env.core).lift Call.core).map Body.core).map _) = _
    rw [hc]
    rfl
  exact System.ends_call_iff (S := storefront env) hnext

theorem ends_core_done {Q : State → Task → Prop} {t : Launcher.Task} {asker : Option Actor}
    (hd : t.next env.core = .done) :
    (storefront env).Ends Q s ⟨asker, .core t⟩ ↔ Q s ⟨asker, .core t⟩ := by
  have hnext : (storefront env).next ⟨asker, .core t⟩ = .done := by
    show ((((t.next env.core).lift Call.core).map Body.core).map _) = _
    rw [hd]
    rfl
  exact System.ends_done_iff (S := storefront env) hnext

theorem deleteVersion_fails_iff {gameId versionId : Bytes} :
    TurnedAway env s (.core (.deleteVersion actor gameId versionId)) ↔
      ¬DeleteVersionPasses s actor gameId versionId := by
  show (storefront env).Ends _ s ⟨some actor, .core (.deleteVersion (.findGame actor gameId versionId))⟩
    ↔ _
  rw [ends_core_call rfl]
  simp only [exec_findGame, forall_const]
  unfold DeleteVersionPasses
  cases hgame : Catalog.editableGame actor (gameNamed s.core gameId) with
  | error e =>
      rw [ends_core_done rfl]
      refine ⟨fun _ h => ?_, fun _ => ⟨trivial, rfl⟩⟩
      obtain ⟨game, _, hg, _⟩ := h
      cases hg
  | ok game =>
      dsimp only
      cases hid : isUuid versionId with
      | false =>
          rw [Bool.not_false, if_pos rfl, ends_core_done rfl]
          refine ⟨fun _ h => ?_, fun _ => ⟨trivial, rfl⟩⟩
          obtain ⟨_, _, _, hg, _⟩ := h
          cases hg
      | true =>
          rw [Bool.not_true, if_neg Bool.false_ne_true, ends_core_call rfl]
          have hread : ∀ choice, exec env choice (.core (.findVersion (uuidOf versionId))) s
              = (s.core.versions.find? (uuidOf versionId), s) :=
            fun choice => Prod.ext rfl s.afterCore_self
          simp only [hread, forall_const]
          cases hversion : Catalog.versionOf game (s.core.versions.find? (uuidOf versionId)) with
          | error e =>
              rw [ends_core_done rfl]
              refine ⟨fun _ h => ?_, fun _ => ⟨trivial, rfl⟩⟩
              obtain ⟨game', version, hg, _, hv⟩ := h
              obtain rfl := Except.ok.inj hg
              rw [hversion] at hv
              cases hv
          | ok version =>
              -- the version is there, so it is removed
              refine iff_of_false (fun h => ?_) (fun h => h ⟨game, version, rfl, trivial, hversion⟩)
              have hfound : (s.core.versions.find? (uuidOf versionId)).isSome = true := by
                cases hv : s.core.versions.find? (uuidOf versionId) with
                | none => rw [hv] at hversion; cases hversion
                | some v => rfl
              have hremoved : (exec env ⟨0, .none⟩ (.core (.removeVersion (uuidOf versionId))) s).1
                  = true := hfound
              have hgo := (ends_core_call rfl).mp h ⟨0, .none⟩
              rw [hremoved] at hgo
              exact ((ends_core_done rfl).mp hgo).1

end Ungated

/-! ## The table -/

/-- The checks that an operation makes besides the permission it should ask for all pass. An
operation that asks for its permission never gets there without it. -/
def PassesUnpermitted (env : Env) (s : State) : Request → Prop
  | .updateGame actor gameId changes => UpdateGamePasses env s actor gameId changes
  | .core (.deleteVersion actor gameId versionId) => DeleteVersionPasses s actor gameId versionId
  | .uploadMedia actor gameId command => UploadMediaPasses env s actor gameId command
  | .updateMedia actor mediaId changes => UpdateMediaPasses env s actor mediaId changes
  | .removeMedia actor mediaId => ∃ media, s.editableMedia actor mediaId = .ok media
  | .createNote actor gameId command => CreateNotePasses env s actor gameId command
  | .updateNote actor noteId changes => UpdateNotePasses env s actor noteId changes
  | .removeNote actor noteId => ∃ note, s.editableNote actor noteId = .ok note
  | _ => False

/-- An operation of the upload side that is answered before its first call. -/
theorem turned_away_at_once {env : Env} {s : State} {asker : Option Actor} {t : Launcher.Task}
    (hd : t.next env.core = .done) (hf : t.failed) :
    (storefront env).Ends (fun s' t => t.failed ∧ s' = s) s ⟨asker, .core t⟩ :=
  (ends_core_done hd).mpr ⟨hf, rfl⟩

theorem core_turned_away_iff {env : Env} {s : State} {r : Launcher.Request} {actor : Actor}
    {permission : Permission} (hr : Request.permission (.core r) = some (actor, permission))
    (hlacks : actor.can permission = false) :
    TurnedAway env s (.core r) ↔ ¬PassesUnpermitted env s (.core r) := by
  cases r with
  | deleteVersion => exact deleteVersion_fails_iff
  | createBuild a gameId command =>
      obtain ⟨rfl, rfl⟩ := Prod.mk.inj (Option.some.inj hr)
      refine ⟨fun _ hf => hf, fun _ => ?_⟩
      show (storefront env).Ends _ s ⟨_, .core (.createBuild (createBuild a gameId command))⟩
      rw [createBuild, hlacks]
      exact turned_away_at_once rfl trivial
  | missingBlobs a buildId blobs =>
      obtain ⟨rfl, rfl⟩ := Prod.mk.inj (Option.some.inj hr)
      refine ⟨fun _ hf => hf, fun _ => ?_⟩
      show (storefront env).Ends _ s ⟨_, .core (.missingBlobs (missingBlobs a buildId blobs))⟩
      rw [missingBlobs, writableBuildRequest, hlacks]
      exact turned_away_at_once rfl trivial
  | beginUpload a buildId blob =>
      obtain ⟨rfl, rfl⟩ := Prod.mk.inj (Option.some.inj hr)
      refine ⟨fun _ hf => hf, fun _ => ?_⟩
      show (storefront env).Ends _ s ⟨_, .core (.beginUpload (beginUpload a buildId blob))⟩
      rw [beginUpload, writableBuildRequest, hlacks]
      exact turned_away_at_once rfl trivial
  | finalizeBuild a buildId command =>
      obtain ⟨rfl, rfl⟩ := Prod.mk.inj (Option.some.inj hr)
      refine ⟨fun _ hf => hf, fun _ => ?_⟩
      show (storefront env).Ends _ s ⟨_, .core (.finalizeBuild (finalizeBuild a buildId command))⟩
      rw [finalizeBuild, writableBuildRequest, hlacks]
      exact turned_away_at_once rfl trivial
  | _ => cases hr

/-- **The permission table, as far as it is enforced.** In every state, an operation called by
an actor without its permission fails and leaves every table and file as it was if and only if
one of its other checks fails, or it is one of those that ask for the permission. -/
theorem unpermitted_turned_away_iff (env : Env) (s : State) (r : Request) (actor : Actor)
    (permission : Permission) (hr : r.permission = some (actor, permission))
    (hlacks : actor.can permission = false) :
    TurnedAway env s r ↔ ¬PassesUnpermitted env s r := by
  have hgated : ∀ {α : Type} {p : Coroutine α} {reply : α → Reply},
      p.Wp (exec env) (Fails s) s →
        ((storefront env).Ends (fun s' t => t.failed ∧ s' = s) s (start actor p reply) ↔ ¬False) :=
    fun h => ⟨fun _ hf => hf, fun _ => ends_start.mpr h⟩
  cases r with
  | updateGame => exact ends_start.trans updateGame_fails_iff
  | uploadMedia => exact ends_start.trans uploadMedia_fails_iff
  | updateMedia => exact ends_start.trans updateMedia_fails_iff
  | removeMedia => exact ends_start.trans removeMedia_fails_iff
  | createNote => exact ends_start.trans createNote_fails_iff
  | updateNote => exact ends_start.trans updateNote_fails_iff
  | removeNote => exact ends_start.trans removeNote_fails_iff
  | createGame =>
      obtain ⟨rfl, rfl⟩ := Prod.mk.inj (Option.some.inj hr)
      exact hgated (fails_demand hlacks)
  | createVersion =>
      obtain ⟨rfl, rfl⟩ := Prod.mk.inj (Option.some.inj hr)
      exact hgated (fails_demand hlacks)
  | updateVersion =>
      obtain ⟨rfl, rfl⟩ := Prod.mk.inj (Option.some.inj hr)
      exact hgated (fails_demand hlacks)
  | addToLibrary =>
      obtain ⟨rfl, rfl⟩ := Prod.mk.inj (Option.some.inj hr)
      exact hgated (fails_demand hlacks)
  | removeFromLibrary =>
      obtain ⟨rfl, rfl⟩ := Prod.mk.inj (Option.some.inj hr)
      exact hgated (fails_demand hlacks)
  | core r => exact core_turned_away_iff hr hlacks
  | _ => cases hr

section Demo

open Launcher.Demo (alice)
open Storefront.Demo (carol)

/-- alice has published game 4. -/
def published : Server := (storefront Demo.env).run Demo.opened
  (.request (.createGame alice
    { title := ascii "Game", slug := [], summary := [], description := [], releaseDate := [],
      visibility := .Public }) :: Demo.drawing 4 0 1)

/-- alice after her publishing role has been revoked. -/
def revoked : Actor := ⟨1, [.GAME_READ]⟩

def renamed : GameUpdate := { title := some (ascii "Other") }

/-- carol is no publisher, and turned away because the game is not hers. -/
theorem unpermitted_turned_away_carol :
    carol.can .GAME_PUBLISH = false ∧
    TurnedAway Demo.env published.shared (.updateGame carol (uuidText 4) renamed) := by
  have hlacks : carol.can .GAME_PUBLISH = false := by decide
  refine ⟨hlacks, (unpermitted_turned_away_iff Demo.env published.shared _ carol .GAME_PUBLISH rfl
    hlacks).mpr ?_⟩
  rintro ⟨game, hgame, _⟩
  have hrefused : published.shared.editable Demo.env carol (uuidText 4)
      = .error (.refused { code := .Forbidden, detail := Catalog.NOT_YOURS }) := by decide +kernel
  rw [hrefused] at hgame
  cases hgame

/-- alice may not publish any more, and still renames her game. -/
theorem revoked_publisher_renames :
    revoked.can .GAME_PUBLISH = false ∧
    ¬TurnedAway Demo.env published.shared (.updateGame revoked (uuidText 4) renamed) := by
  refine ⟨by decide, fun h => ?_⟩
  have hfails := updateGame_fails_iff.mp (ends_start.mp h)
  have hgame : published.shared.editable Demo.env revoked (uuidText 4)
      = .ok (published.shared.readGame ⟨4, ascii "game", 1, .Public⟩) := by decide +kernel
  refine hfails ⟨_, hgame, Or.inr ⟨renamed, by decide +kernel, 4, ⟨4, ascii "game", 1, .Public⟩, ?_⟩⟩
  decide +kernel

end Demo

end Launcher.Storefront
