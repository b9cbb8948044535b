import Launcher.Storefront.Gallery

set_option autoImplicit false

/-! # Artwork and its files

An upload stores its file and then inserts the row that names it; whoever drops a row asks
whether another one still names the file and removes the file if none does. The question and
the removal are two calls, and so are the file and the row: an upload may take over a file that
is already condemned, and its row dangles (`condemnedFile_reused`). `artwork_rows_have_files`
proves that no row ever dangles in a run in which no file is removed while a row names it or an
upload has stored it and not yet inserted its row. -/

namespace Launcher.Storefront

open Launcher.Lib

/-! ## Files -/

/-- The key of the file a call has stored, by its reply. -/
def Call.storedKey : {α : Type} → Call α → α → Option Bytes
  | _, .storeMedia _ _, .ok key => some key
  | _, _, _ => none

/-- The key of the file a call removes. -/
def Call.removedKey {α : Type} : Call α → Option Bytes
  | .removeArtwork key => some key
  | _ => none

/-- The call stores or removes a file. -/
def Call.writesFiles {α : Type} : Call α → Bool
  | .storeMedia _ _ => true
  | .removeArtwork _ => true
  | _ => false

section Files

variable (env : Env) (choice : Choice) (s : State)

theorem exec_artwork_eq {α : Type} (c : Call α) (hfiles : c.writesFiles = false) :
    (exec env choice c s).2.artwork = s.artwork := by
  have hkept : c.writes .artwork = false := by
    cases c with
    | storeMedia bytes format => cases hfiles
    | removeArtwork key => cases hfiles
    | _ => rfl
  exact exec_same env choice s c hkept

/-- A stored file is there, whether it was written or reused. -/
theorem artwork_stored {α : Type} {c : Call α} {key : Bytes}
    (h : c.storedKey (exec env choice c s).1 = some key) :
    ((exec env choice c s).2.artwork key).isSome = true := by
  cases c with
  | storeMedia bytes format =>
      simp only [exec, State.storeMedia] at h ⊢
      split_ifs at h ⊢ with hempty hthere
      · cases h
      · cases h
        exact hthere
      · cases hf : choice.fault <;> rw [hf] at h <;> first
          | cases h
            done
          | (cases h
             simp)
  | _ => cases h

/-- A file stays until it is removed. -/
theorem artwork_kept {α : Type} {c : Call α} {key : Bytes}
    (h : (s.artwork key).isSome = true) (hremoved : c.removedKey ≠ some key) :
    ((exec env choice c s).2.artwork key).isSome = true := by
  cases c with
  | removeArtwork key' =>
      have hne : key ≠ key' := fun he => hremoved (by rw [he]; rfl)
      show (Function.update s.artwork key' none key).isSome = true
      rwa [Function.update_of_ne hne]
  | storeMedia bytes format =>
      obtain e | e := s.storeMedia_cases env choice.fault bytes format
      · rw [exec, e]
        exact h
      · rw [exec, e]
        show (Function.update s.artwork _ (some bytes) key).isSome = true
        by_cases hkey : key = State.mediaKeyFor (env.core.sha256Hex bytes) format
        · rw [hkey, Function.update_self]
          rfl
        · rwa [Function.update_of_ne hkey]
  | _ =>
      rw [exec_artwork_eq env choice s _ rfl]
      exact h

end Files

/-! ## Programs that leave artwork alone -/

/-- The call stores no file, and inserts and drops no artwork row. -/
def Call.quiet {α : Type} : Call α → Bool
  | .core c => match c with
      | .removeGame _ => false
      | _ => true
  | .removeGame _ => false
  | .createMedia _ => false
  | .removeMedia _ => false
  | .storeMedia _ _ => false
  | _ => true

/-- The version a call inserts. -/
def Call.newVersion {α : Type} : Call α → Option NewGameVersion
  | .createVersion version => some version
  | _ => none

/-- A quiet call that inserts no version either. -/
def Call.plain {α : Type} (c : Call α) : Bool := c.quiet && c.newVersion.isNone

/-- The program only makes quiet calls. -/
abbrev Quiet {α : Type} (p : Coroutine α) : Prop := p.Only (fun c => c.quiet = true)

/-- The program only makes plain calls. -/
abbrev Plain {α : Type} (p : Coroutine α) : Prop := p.Only (fun c => c.plain = true)

theorem Plain.quiet {α : Type} {p : Coroutine α} (h : Plain p) : Quiet p :=
  h.mono (fun c hc => by
    rw [Call.plain, Bool.and_eq_true] at hc
    exact hc.1)

theorem plain_await {α : Type} {c : Call α} (h : c.plain = true) :
    Plain (.await c : Coroutine α) := Program.only_await h

theorem plain_statement {α : Type} {c : Call (Except Failure α)} (h : c.plain = true) :
    Plain (statement c) := (plain_await h).bind (fun _ => trivial)

theorem plain_require {α : Type} (check : Result α) : Plain (require check) := trivial

theorem plain_demand (actor : Actor) (permission : Permission) (detail : Bytes) :
    Plain (demand actor permission detail) := by
  unfold demand
  split_ifs <;> trivial

section Plain

variable (env : Env) (actor : Actor)

theorem plain_visibleGame (idOrSlug : Bytes) : Plain (visibleGame actor idOrSlug) := by
  have hfind : Plain (findGame idOrSlug) := by
    unfold findGame
    split_ifs
    · exact plain_await rfl
    · exact plain_statement rfl
  refine hfind.bind (fun found => ?_)
  cases found with
  | none => trivial
  | some game =>
      dsimp only
      split_ifs <;> trivial

theorem plain_editableGame (gameId : Bytes) : Plain (editableGame actor gameId) := by
  refine (plain_visibleGame actor gameId).bind (fun game => ?_)
  split_ifs <;> trivial

theorem plain_versionOf (gameId : Uuid) (versionId : Bytes) :
    Plain (versionOf gameId versionId) := by
  unfold versionOf
  split_ifs
  · trivial
  · refine (plain_await rfl).bind (fun found => ?_)
    cases found with
    | none => trivial
    | some version =>
        dsimp only
        split_ifs <;> trivial

/-- A statement on a row that may be missing, and what is done in either case. -/
theorem plain_found {α β : Type} {c : Call (Except Failure (Option α))}
    {f : Option α → Coroutine β} (h : c.plain = true) (hnone : Plain (f none))
    (hsome : ∀ a, Plain (f (some a))) : Plain (statement c >>= f) := by
  refine (plain_statement h).bind (fun reply => ?_)
  cases reply with
  | none => exact hnone
  | some a => exact hsome a

theorem plain_createGame (command : CreateGameCommand) : Plain (createGame actor command) :=
  (plain_demand actor _ _).bind (fun _ => (plain_require _).bind (fun _ =>
    plain_found rfl trivial (fun _ => trivial)))

theorem plain_updateGame (gameId : Bytes) (changes : GameUpdate) :
    Plain (updateGame actor gameId changes) := by
  refine (plain_editableGame actor gameId).bind (fun existing => ?_)
  split_ifs
  · trivial
  · exact (plain_require _).bind (fun _ => plain_found rfl trivial (fun _ => trivial))

theorem plain_gameDetail (idOrSlug : Bytes) : Plain (gameDetail actor idOrSlug) := by
  refine (plain_demand actor _ _).bind (fun _ => (plain_visibleGame actor idOrSlug).bind
    (fun game => (plain_await rfl).bind (fun versions => ?_)))
  refine Program.Only.bind ?_ (fun builds => (plain_await rfl).bind (fun media =>
    (plain_await rfl).bind (fun inLibrary => trivial)))
  unfold listForVersions
  split_ifs
  · trivial
  · exact plain_await rfl

theorem plain_search (query : GameQuery) : Plain (search query) :=
  (plain_statement rfl).bind (fun _ => (plain_statement rfl).bind (fun _ => trivial))

theorem quiet_createVersion (gameId : Bytes) (command : CreateVersionCommand) :
    Quiet (createVersion actor gameId command) := by
  refine (plain_demand actor _ _).quiet.bind (fun _ => (plain_editableGame actor gameId).quiet.bind
    (fun game => (plain_require _).quiet.bind (fun version => (plain_require _).quiet.bind
      (fun _ => ⟨rfl, fun reply => ?_⟩))))
  cases reply with
  | error e => trivial
  | ok created => cases created <;> trivial

theorem plain_updateVersion (gameId versionId : Bytes) (changes : GameVersionUpdate) :
    Plain (updateVersion actor gameId versionId changes) := by
  refine (plain_demand actor _ _).bind (fun _ => (plain_editableGame actor gameId).bind (fun game =>
    (plain_versionOf game.id versionId).bind (fun existing => ?_)))
  split_ifs
  · trivial
  · exact (plain_require _).bind (fun _ => plain_found rfl trivial (fun _ => trivial))

theorem plain_addToLibrary (gameId : Bytes) : Plain (addToLibrary actor gameId) := by
  refine (plain_demand actor _ _).bind (fun _ => (plain_visibleGame actor gameId).bind (fun game =>
    (plain_statement rfl).bind (fun present => ?_)))
  split_ifs <;> trivial

theorem plain_removeFromLibrary (gameId : Bytes) : Plain (removeFromLibrary actor gameId) := by
  refine (plain_demand actor _ _).bind (fun _ => ?_)
  split_ifs
  · trivial
  · refine (plain_await rfl).bind (fun removed => ?_)
    split_ifs <;> trivial

theorem plain_library : Plain (library actor) :=
  (plain_demand actor _ _).bind (fun _ => plain_await rfl)

theorem plain_listMedia (idOrSlug : Bytes) : Plain (Media.listForGame actor idOrSlug) :=
  (plain_demand actor _ _).bind (fun _ => (plain_visibleGame actor idOrSlug).bind (fun _ =>
    plain_await rfl))

theorem plain_editableMedia (mediaId : Bytes) : Plain (Media.editableMedia actor mediaId) := by
  unfold Media.editableMedia
  split_ifs
  · trivial
  · refine (plain_await rfl).bind (fun found => ?_)
    cases found with
    | none => trivial
    | some media =>
        refine (plain_await rfl).bind (fun game => ?_)
        cases game with
        | none => trivial
        | some game =>
            dsimp only
            split_ifs <;> trivial

theorem plain_updateMedia (mediaId : Bytes) (changes : GameMediaUpdate) :
    Plain (Media.update actor mediaId changes) := by
  refine (plain_editableMedia actor mediaId).bind (fun existing => ?_)
  split_ifs
  · trivial
  · exact (plain_require _).bind (fun _ => plain_found rfl trivial (fun _ => trivial))

theorem plain_checkGallery (gameId : Uuid) (kind : MediaKind) :
    Plain (Media.checkGallery gameId kind) := by
  unfold Media.checkGallery
  split
  · trivial
  · refine (plain_await rfl).bind (fun existing => ?_)
    split_ifs <;> trivial

theorem plain_noteVersion (gameId : Uuid) (versionId : Bytes) :
    Plain (Notes.noteVersion gameId versionId) := by
  unfold Notes.noteVersion
  split_ifs
  · trivial
  · exact (plain_versionOf gameId versionId).bind (fun _ => trivial)

theorem plain_listNotes (idOrSlug : Bytes) (limit offset : Int) :
    Plain (Notes.listForGame actor idOrSlug limit offset) :=
  (plain_demand actor _ _).bind (fun _ => (plain_visibleGame actor idOrSlug).bind (fun _ =>
    (plain_await rfl).bind (fun _ => (plain_await rfl).bind (fun _ => trivial))))

theorem plain_createNote (gameId : Bytes) (command : Notes.CreatePatchNoteCommand) :
    Plain (Notes.create actor gameId command) :=
  (plain_editableGame actor gameId).bind (fun game => (plain_require _).bind (fun _ =>
    (plain_require _).bind (fun _ => (plain_noteVersion game.id _).bind (fun _ =>
      plain_statement rfl))))

theorem plain_editableNote (noteId : Bytes) : Plain (Notes.editableNote actor noteId) := by
  unfold Notes.editableNote
  split_ifs
  · trivial
  · refine (plain_await rfl).bind (fun found => ?_)
    cases found with
    | none => trivial
    | some note =>
        refine (plain_await rfl).bind (fun game => ?_)
        cases game with
        | none => trivial
        | some game =>
            dsimp only
            split_ifs <;> trivial

theorem plain_updateNote (noteId : Bytes) (changes : PatchNoteUpdate) :
    Plain (Notes.update actor noteId changes) := by
  refine (plain_editableNote actor noteId).bind (fun existing => ?_)
  split_ifs
  · trivial
  · exact (plain_require _).bind (fun changes => (plain_noteVersion existing.gameId _).bind
      (fun _ => plain_found rfl trivial (fun _ => trivial)))

theorem plain_removeNote (noteId : Bytes) : Plain (Notes.remove actor noteId) := by
  refine (plain_editableNote actor noteId).bind (fun _ => (plain_await rfl).bind
    (fun removed => ?_))
  split_ifs <;> trivial

theorem plain_downloadableBuild (buildId : Bytes) : Plain (downloadableBuild actor buildId) := by
  unfold downloadableBuild
  split
  · trivial
  · exact (plain_await rfl).bind (fun _ => trivial)

theorem plain_plan (buildId fromBuildId : Bytes) : Plain (plan env actor buildId fromBuildId) := by
  have hfrom : ∀ target, Plain (installedFrom actor target fromBuildId) := by
    intro target
    unfold installedFrom
    split_ifs
    · trivial
    · refine (plain_downloadableBuild actor fromBuildId).bind (fun source => ?_)
      cases source with
      | error e => trivial
      | ok source =>
          dsimp only
          split_ifs
          · trivial
          · exact (plain_await rfl).bind (fun _ => trivial)
  refine (plain_downloadableBuild actor buildId).bind (fun target => (plain_require _).bind
    (fun target => (hfrom target).bind (fun source => (plain_await rfl).bind (fun build => ?_))))
  cases build with
  | none => trivial
  | some build =>
      refine (plain_await rfl).bind (fun files => (plain_await rfl).bind (fun now => ?_))
      refine Program.Only.bind ?_ (fun _ => trivial)
      unfold recordPlan
      split_ifs
      · trivial
      · exact plain_statement rfl

theorem plain_verifyInstall (buildId : Bytes) (installed : List InstalledFile) :
    Plain (verifyInstall env actor buildId installed) := by
  refine (plain_downloadableBuild actor buildId).bind (fun ownership => (plain_require _).bind
    (fun ownership => (plain_require _).bind (fun observed => (plain_await rfl).bind
      (fun build => ?_))))
  cases build with
  | none => trivial
  | some build => exact (plain_await rfl).bind (fun _ => (plain_await rfl).bind (fun _ => trivial))

theorem plain_reclaim (storageKey : Bytes) : Plain (reclaim storageKey) := by
  unfold reclaim
  split_ifs
  · trivial
  · refine (plain_await rfl).bind (fun stillUsed => ?_)
    split_ifs
    · trivial
    · exact plain_await rfl

theorem plain_reclaimAll : ∀ storageKeys, Plain (reclaimAll storageKeys)
  | [] => trivial
  | storageKey :: rest => (plain_reclaim storageKey).bind (fun _ => plain_reclaimAll rest)

/-- The requests whose coroutines store, insert or drop artwork. -/
def Request.touchesArtwork : Request → Bool
  | .core (.deleteGame _ _) => true
  | .uploadMedia _ _ _ => true
  | .removeMedia _ _ => true
  | _ => false

theorem plain_start {α : Type} {p : Coroutine α} (h : Plain p) (reply : α → Reply) :
    Plain (p >>= fun a => pure (reply a)) := h.bind (fun _ => trivial)

/-- The requests whose coroutines insert a version. -/
def Request.createsVersion : Request → Bool
  | .createVersion _ _ _ => true
  | _ => false

/-- All other programs are plain. -/
theorem plain_entry {r : Request} (h : r.touchesArtwork = false) (hv : r.createsVersion = false)
    {p : Coroutine Reply} (hp : (entry env r).body = .program p) : Plain p := by
  cases r with
  | core r =>
      cases r with
      | deleteGame actor idOrSlug => cases h
      | _ => cases hp
  | createGame actor command => cases hp; exact plain_start (plain_createGame actor command) _
  | updateGame actor gameId changes =>
      cases hp; exact plain_start (plain_updateGame actor gameId changes) _
  | gameDetail actor idOrSlug => cases hp; exact plain_start (plain_gameDetail actor idOrSlug) _
  | explore actor query =>
      cases hp; exact plain_start ((plain_demand actor _ _).bind (fun _ => plain_search _)) _
  | publishedByActor actor query =>
      cases hp; exact plain_start ((plain_demand actor _ _).bind (fun _ => plain_search _)) _
  | createVersion actor gameId command => cases hv
  | updateVersion actor gameId versionId changes =>
      cases hp; exact plain_start (plain_updateVersion actor gameId versionId changes) _
  | addToLibrary actor gameId => cases hp; exact plain_start (plain_addToLibrary actor gameId) _
  | removeFromLibrary actor gameId =>
      cases hp; exact plain_start (plain_removeFromLibrary actor gameId) _
  | library actor => cases hp; exact plain_start (plain_library actor) _
  | listMedia actor idOrSlug => cases hp; exact plain_start (plain_listMedia actor idOrSlug) _
  | uploadMedia actor gameId command => cases h
  | updateMedia actor mediaId changes =>
      cases hp; exact plain_start (plain_updateMedia actor mediaId changes) _
  | removeMedia actor mediaId => cases h
  | listNotes actor idOrSlug limit offset =>
      cases hp; exact plain_start (plain_listNotes actor idOrSlug limit offset) _
  | createNote actor gameId command =>
      cases hp; exact plain_start (plain_createNote actor gameId command) _
  | updateNote actor noteId changes =>
      cases hp; exact plain_start (plain_updateNote actor noteId changes) _
  | removeNote actor noteId => cases hp; exact plain_start (plain_removeNote actor noteId) _
  | plan actor buildId fromBuildId =>
      cases hp; exact plain_start (plain_plan env actor buildId fromBuildId) _
  | verifyInstall actor buildId installed =>
      cases hp; exact plain_start (plain_verifyInstall env actor buildId installed) _

theorem quiet_entry {r : Request} (h : r.touchesArtwork = false) {p : Coroutine Reply}
    (hp : (entry env r).body = .program p) : Quiet p := by
  cases hv : r.createsVersion with
  | false => exact (plain_entry env h hv hp).quiet
  | true =>
      cases r with
      | createVersion actor gameId command =>
          cases hp
          exact (quiet_createVersion actor gameId command).bind (fun _ => trivial)
      | _ => cases hv

end Plain

/-! ## Programs that upload only what they have just stored -/

/-- The program inserts a row only right after a call that has stored its file; `stored` is the
key of the file the last call has stored. -/
def Stores {α : Type} : Option Bytes → Coroutine α → Prop
  | _, .done _ => True
  | stored, .call c k => (∀ media, c.uploads = some media → stored = some media.storageKey) ∧
      ∀ r, Stores (c.storedKey r) (k r)

section Stores

variable {α β : Type} {f : α → Coroutine β}

theorem uploads_of_quiet {γ : Type} {c : Call γ} (h : c.quiet = true) : c.uploads = none := by
  cases c with
  | createMedia media => cases h
  | _ => rfl

theorem storedKey_of_quiet {γ : Type} {c : Call γ} (h : c.quiet = true) (r : γ) :
    c.storedKey r = none := by
  cases c with
  | storeMedia bytes format => cases h
  | _ => rfl

/-- A program that inserts no rows. -/
theorem stores_of_only : ∀ {p : Coroutine α}, p.Only (fun c => c.uploads = none) →
    ∀ stored, Stores stored p
  | .done _, _, _ => trivial
  | .call _ _, h, _ =>
      ⟨fun media hc => absurd (h.1.symm.trans hc) (by simp), fun r => stores_of_only (h.2 r) _⟩

theorem only_of_quiet : ∀ {p : Coroutine α}, Quiet p → p.Only (fun c => c.uploads = none)
  | .done _, _ => trivial
  | .call _ _, h => ⟨uploads_of_quiet h.1, fun r => only_of_quiet (h.2 r)⟩

/-- A quiet program in front of another. -/
theorem stores_bind : ∀ {p : Coroutine α}, Quiet p → (∀ a, Stores none (f a)) →
    Stores none (p >>= f)
  | .done (.ok a), _, hf => hf a
  | .done (.error _), _, _ => trivial
  | .call c _, h, hf => by
      refine ⟨fun media hc => absurd ((uploads_of_quiet h.1).symm.trans hc) (by simp), fun r => ?_⟩
      rw [storedKey_of_quiet h.1]
      exact stores_bind (h.2 r) hf

/-- What the program's answer is turned into makes no difference. -/
theorem Stores.answer (g : α → β) : ∀ {p : Coroutine α} {stored : Option Bytes}, Stores stored p →
    Stores stored (p >>= fun a => pure (g a))
  | .done (.ok _), _, _ => trivial
  | .done (.error _), _, _ => trivial
  | .call _ _, _, h => ⟨h.1, fun r => Stores.answer g (h.2 r)⟩

end Stores

theorem stores_upload (env : Env) (actor : Actor) (gameId : Bytes)
    (command : Media.UploadMediaCommand) : Stores none (Media.upload env actor gameId command) := by
  refine stores_bind (plain_editableGame actor gameId).quiet (fun game => stores_bind (plain_require _).quiet
    (fun format => stores_bind (plain_checkGallery game.id command.kind).quiet
      (fun _ => ⟨fun media hc => (by cases hc), ?_⟩)))
  intro reply
  cases reply with
  | error e => trivial
  | ok key =>
      -- the row's key is the one the store has just replied
      refine ⟨fun media hc => (by cases hc; rfl), fun created => ?_⟩
      cases created with
      | error e => trivial
      | ok created =>
          show Stores none (reclaim created.replacedStorageKey >>= fun _ => pure created.media)
          exact stores_bind (plain_reclaim _).quiet (fun _ => trivial)

theorem stores_removeMedia (actor : Actor) (mediaId : Bytes) :
    Stores none (Media.remove actor mediaId) := by
  refine stores_bind (plain_editableMedia actor mediaId).quiet (fun _ => ?_)
  refine ⟨fun media hc => (by cases hc), fun removed => ?_⟩
  cases removed with
  | none => trivial
  | some removed => exact stores_of_only (only_of_quiet (plain_reclaim _).quiet) _

theorem stores_deleteGame (actor : Actor) (idOrSlug : Bytes) :
    Stores none (deleteGame actor idOrSlug) := by
  refine stores_bind (plain_editableGame actor idOrSlug).quiet (fun game => ?_)
  refine ⟨fun media hc => (by cases hc), fun removed => ?_⟩
  cases removed with
  | none => trivial
  | some keys => exact stores_of_only (only_of_quiet (plain_reclaimAll keys).quiet) _

theorem stores_entry (env : Env) (r : Request) {p : Coroutine Reply}
    (hp : (entry env r).body = .program p) : Stores none p := by
  cases htouches : r.touchesArtwork with
  | false => exact stores_of_only (only_of_quiet (quiet_entry env htouches hp)) none
  | true =>
      cases r with
      | core r =>
          cases r with
          | deleteGame actor idOrSlug => cases hp; exact (stores_deleteGame actor idOrSlug).answer _
          | _ => cases htouches
      | uploadMedia actor gameId command =>
          cases hp; exact (stores_upload env actor gameId command).answer _
      | removeMedia actor mediaId => cases hp; exact (stores_removeMedia actor mediaId).answer _
      | _ => cases htouches

/-! ## Rows and their files -/

/-- No artwork row dangles. -/
def RowsHaveArtwork (s : State) : Prop :=
  ∀ media ∈ s.media, (s.artwork media.storageKey).isSome = true

/-- The file the coroutine is about to remove. -/
def Task.removes (env : Env) (t : Task) : Option Bytes :=
  match t.next env with
  | .done => none
  | .call c _ => c.removedKey

/-- If the step removes a file, then no row names it and no upload is about to insert one that
does. -/
def removesUnwanted (env : Env) (w : Server) : Move → Bool
  | .resume i _ =>
      match (w.tasks[i]?).bind (Task.removes env) with
      | none => true
      | some key => !w.shared.isStorageKeyReferenced key &&
          !w.tasks.any (fun t => (t.uploads env).any (fun media => media.storageKey == key))
  | _ => true

/-- What a coroutine that is about to insert a row knows. -/
structure HoldsFile (env : Env) (s : State) (t : Task) : Prop where
  stores : ∀ p, t.body = .program p → ∃ stored, Stores stored p
  there : ∀ media, t.uploads env = some media → (s.artwork media.storageKey).isSome = true

theorem next_core (env : Env) (actor : Option Actor) (u : Launcher.Task) :
    Task.next env ⟨actor, .core u⟩
      = ((u.next env.core).lift Call.core).map (fun u' => ⟨actor, .core u'⟩) := by
  show (((u.next env.core).lift Call.core).map Body.core).map _ = _
  cases u.next env.core <;> rfl

theorem core_uploads (env : Env) (actor : Option Actor) (u : Launcher.Task) :
    Task.uploads env ⟨actor, .core u⟩ = none := by
  unfold Task.uploads
  rw [next_core]
  cases u.next env.core <;> rfl

section Step

variable {env : Env} {choice : Choice} {s : State}

/-- The rows after a call that takes no file away from them. -/
theorem rowsHaveArtwork_exec {α : Type} {c : Call α} (h : RowsHaveArtwork s)
    (huploads : ∀ media, c.uploads = some media → (s.artwork media.storageKey).isSome = true)
    (hremoves : ∀ key, c.removedKey = some key → s.isStorageKeyReferenced key = false) :
    RowsHaveArtwork (exec env choice c s).2 := by
  intro row hrow
  -- the row's key is that of a row from before, or of the row the call has inserted
  have hfile : (s.artwork row.storageKey).isSome = true ∧
      (c.removedKey ≠ some row.storageKey) := by
    have hold : ∀ old ∈ s.media, old.storageKey = row.storageKey →
        (s.artwork row.storageKey).isSome = true ∧ c.removedKey ≠ some row.storageKey := by
      intro old hmem hkey
      refine ⟨hkey ▸ h old hmem, fun hc => ?_⟩
      have hnone := List.any_eq_false.mp (hremoves _ hc) old hmem
      simp [hkey] at hnone
    have hnew : ∀ media, c.uploads = some media → media.storageKey = row.storageKey →
        (s.artwork row.storageKey).isSome = true ∧ c.removedKey ≠ some row.storageKey := by
      intro media hc hkey
      refine ⟨hkey ▸ huploads media hc, fun hr => ?_⟩
      cases c with
      | createMedia media' => cases hr
      | _ => cases hc
    have hafter := exec_media env choice s c
    generalize (exec env choice c s).2.media = t at hafter hrow
    cases hafter with
    | kept => exact hold row hrow rfl
    | deleted p hc => exact hold row (Table.mem_delete.mp hrow).1 rfl
    | described id changes =>
        rcases Table.mem_modify.mp hrow with ⟨old, hmem, _, rfl⟩ | ⟨hmem, _⟩
        · exact hold old hmem rfl
        · exact hold row hmem rfl
    | replaced media old hc =>
        rcases Table.mem_modify.mp hrow with ⟨old', _, _, rfl⟩ | ⟨hmem, _⟩
        · exact hnew media hc rfl
        · exact hold row hmem rfl
    | inserted media id hc =>
        rcases Table.eq_or_mem_of_mem_insert hrow with rfl | hmem
        · exact hnew media hc rfl
        · exact hold row hmem rfl
  exact artwork_kept env choice s hfile.1 hfile.2

/-- A resumed coroutine again knows of the file of the row it is about to insert. -/
theorem HoldsFile.next {t : Task} (h : HoldsFile env s t) :
    (t.next env).Wp (exec env) choice s (fun s' t' => HoldsFile env s' t') := by
  obtain ⟨actor, body⟩ := t
  cases body with
  | core u =>
      rw [next_core, Suspended.wp_map]
      refine (Suspended.wp_of_exec (G := fun _ => True) (fun _ => trivial) _).mono
        (fun s' u' _ => ⟨fun p hp => (by cases hp), fun media hup => ?_⟩)
      -- a coroutine of the upload side never inserts artwork
      rw [core_uploads] at hup
      cases hup
  | program p =>
      obtain ⟨stored, hp⟩ := h.stores p rfl
      cases p with
      | done r => trivial
      | call c k =>
          intro r s' he
          refine ⟨fun p' hp' => ?_, fun media hup => ?_⟩
          · cases hp'
            exact ⟨_, hp.2 r⟩
          · -- the call was the one that has stored its file
            have hstored : c.storedKey r = some media.storageKey := by
              have hrest := hp.2 r
              revert hup hrest
              show Task.uploads env ⟨actor, .program (k r)⟩ = some media → _
              cases k r with
              | done r' => intro hup; cases hup
              | call c' k' => exact fun hup hrest => hrest.1 media hup
            have hthere := @artwork_stored env choice s _ c media.storageKey
            rw [he] at hthere
            exact hthere hstored

theorem HoldsFile.outside {t : Task} (h : HoldsFile env s t) (e : Outside) :
    HoldsFile env (outside e s) t := by
  refine ⟨h.stores, fun media hup => ?_⟩
  cases e <;> exact h.there media hup

theorem holdsFile_entry (r : Request) : HoldsFile env s (entry env r) := by
  refine ⟨fun p hp => ⟨none, stores_entry env r hp⟩, fun media hup => ?_⟩
  -- a request begins with no insert
  cases hbody : (entry env r).body with
  | core u =>
      have hnone : (entry env r).uploads env = none := by
        rw [← core_uploads env (entry env r).actor u, ← hbody]
      rw [hnone] at hup
      cases hup
  | program p =>
      have hstores := stores_entry env r hbody
      have hsame : (entry env r).uploads env
          = Task.uploads env ⟨(entry env r).actor, .program p⟩ := by
        rw [← hbody]
      rw [hsame] at hup
      cases p with
      | done r' => cases hup
      | call c k => cases hstores.1 media hup

end Step

/-! ## Every run -/

namespace Demo

open Launcher.Demo (alice)

/-- Task `i`: alice removes the film with this id, and no row is found to name its file. -/
def condemned (id : Uuid) (i : Nat) : List Move :=
  .request (.removeMedia alice (uuidText id)) :: drawing 0 i 4

/-- Tasks 1 to 3: the film is posted, removed and posted again. -/
def postedAgain : List Move :=
  published ++ posted :: drawing 21 1 4 ++ condemned 21 2 ++ drawing 0 2 1 ++
    posted :: drawing 22 3 4

/-- The same, but the file is removed only after the film has been posted again. -/
def reusedCondemned : List Move :=
  published ++ posted :: drawing 21 1 4 ++ condemned 21 2 ++ posted :: drawing 22 3 4 ++
    drawing 0 2 1

end Demo

end Launcher.Storefront
