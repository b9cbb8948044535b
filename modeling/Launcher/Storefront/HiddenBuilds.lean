import Launcher.Storefront.InstallPlans

set_option autoImplicit false

/-! # Builds that an actor may not read

A build an actor may not read looks to them like one that does not exist: every operation that
takes its id goes through the same points, and ends with the same answer, in the state where
the build is deleted. -/

namespace Launcher

open Launcher.Lib

/-! ## Deleting a build -/

namespace State

variable (s : State) (b : Uuid)

theorem builds_removeBuild (id : Uuid) :
    (s.removeBuild b).2.builds.find? id = if id = b then none else s.builds.find? id := by
  show (s.builds.delete (fun r => decide (r.id = b))).find? id = _
  rw [Table.find?_delete_eq]
  cases hf : s.builds.find? id with
  | none => simp
  | some r =>
      have hid : r.id = id := (Table.find?_eq_some.mp hf).2
      by_cases hb : id = b
      · simp [hb, hid]
      · simp [hb, hid]

theorem findOwnership_removeBuild (id : Uuid) :
    (s.removeBuild b).2.findOwnership id = if id = b then none else s.findOwnership id := by
  unfold findOwnership
  rw [builds_removeBuild]
  by_cases hb : id = b
  · rw [if_pos hb, if_pos hb]
    rfl
  · rw [if_neg hb, if_neg hb]
    rfl

theorem filesFor_removeBuild (env : Env) {id : Uuid} (h : id ≠ b) :
    (s.removeBuild b).2.filesFor env id = s.filesFor env id := by
  have hrows : (s.removeBuild b).2.buildFiles.rows.filter (fun f => decide (f.buildId = id))
      = s.buildFiles.rows.filter (fun f => decide (f.buildId = id)) := by
    show (s.buildFiles.rows.filter _).filter _ = _
    rw [List.filter_filter]
    refine List.filter_congr (fun f _ => ?_)
    by_cases hf : f.buildId = id
    · -- the build of this row is not the one that goes
      have hne : f.buildId ≠ b := hf ▸ h
      cases hb : s.builds.find? f.buildId with
      | none => simp [hb]
      | some r =>
          have hid : r.id = f.buildId := (Table.find?_eq_some.mp hb).2
          simp [hb, hid, hne]
    · simp [hf]
  unfold filesFor
  rw [hrows]
  rfl

end State

end Launcher

namespace Launcher.Storefront

open Launcher.Lib

/-- The state without the build and what goes with it. -/
def State.withoutBuild (s : State) (b : Uuid) : State := s.afterCore (s.core.removeBuild b).2

/-- A build that exists, and that the actor may not read. -/
structure Hidden (s : State) (actor : Actor) (b : Uuid) (build : BuildOwnership) : Prop where
  found : s.core.findOwnership b = some build
  unreadable : mayReadBuild build actor = false

section Hidden

variable {env : Env} {s : State} {actor : Actor} {b : Uuid} {build : BuildOwnership}

theorem withoutBuild_buildColumns : (s.withoutBuild b).buildColumns = s.buildColumns := by
  have hfind := s.core.builds_removeBuild b
  funext id
  show (if (s.core.builds.find? id).isNone && ((s.core.removeBuild b).2.builds.find? id).isSome
    then _ else if !_ && ((((s.core.removeBuild b).2.builds.find? id).map _).getD false) then _
    else _) = _
  rw [hfind id]
  by_cases hb : id = b
  · simp [hb]
  · rw [if_neg hb]
    cases hf : s.core.builds.find? id <;> simp [hf]

theorem withoutBuild_media : (s.withoutBuild b).media = s.media := s.afterCore_media rfl

theorem withoutBuild_library : (s.withoutBuild b).library = s.library := s.afterCore_library rfl

theorem withoutBuild_readGame : (s.withoutBuild b).readGame = s.readGame := by
  funext game
  unfold State.readGame State.coverOf
  rw [withoutBuild_media]
  rfl

theorem Hidden.not_publisher (h : Hidden s actor b build) :
    mayPublishBuild build actor = false := by
  have hread := h.unreadable
  unfold mayReadBuild at hread
  rw [Bool.or_eq_false_iff] at hread
  exact hread.2

/-- What `downloadableBuild` makes of the two replies. -/
theorem Hidden.downloadable (h : Hidden s actor b build) (id : Uuid) :
    downloadable actor ((s.withoutBuild b).core.findOwnership id)
      = downloadable actor (s.core.findOwnership id) := by
  rw [show (s.withoutBuild b).core.findOwnership id = _ from
    s.core.findOwnership_removeBuild b id]
  by_cases hb : id = b
  · subst hb
    rw [if_pos rfl, h.found]
    simp [Storefront.downloadable, h.unreadable, failure]
  · rw [if_neg hb]

theorem Hidden.resolve (h : Hidden s actor b build) (buildId : Bytes) :
    (s.withoutBuild b).resolve actor buildId = s.resolve actor buildId := by
  unfold State.resolve
  cases downloadableRequest actor buildId with
  | error e => rfl
  | ok id => exact h.downloadable id

/-- A build that can be downloaded is another one. -/
theorem Hidden.ne_of_mayDownload (h : Hidden s actor b build) {buildId : Bytes}
    {target : BuildOwnership} (ht : MayDownload s actor buildId target) : uuidOf buildId ≠ b := by
  intro hb
  have hsame : build = target := Option.some.inj (h.found.symm.trans (hb ▸ ht.found))
  have hread := h.unreadable
  rw [hsame, ht.readable] at hread
  cases hread

/-! ## Downloads -/

theorem downloadableBuild_alike (h : Hidden s actor b build) {buildId : Bytes}
    {Q : Except Failure (Result BuildOwnership) → State → State → Prop}
    (hq : Q (.ok (s.resolve actor buildId)) s (s.withoutBuild b)) :
    (downloadableBuild actor buildId).Alike (exec env) Q s (s.withoutBuild b) := by
  unfold downloadableBuild
  unfold State.resolve at hq
  cases hr : downloadableRequest actor buildId with
  | error e => rw [hr] at hq; exact hq
  | ok id =>
      rw [hr] at hq
      intro choice
      refine ⟨congrArg (fun r => Program.done (.ok r)) (h.downloadable id).symm, ?_⟩
      show Q (.ok (downloadable actor (s.core.findOwnership id))) (s.afterCore s.core)
        ((s.withoutBuild b).afterCore (s.withoutBuild b).core)
      rw [State.afterCore_self, State.afterCore_self]
      exact hq

/-- Awaiting a query of the upload side that replies the same without the build. -/
theorem coreRead_alike {α : Type} {c : Launcher.Call α} {reply : α}
    {Q : Except Failure α → State → State → Prop}
    (hs : ∀ choice, Launcher.exec env.core choice c s.core = (reply, s.core))
    (hs' : ∀ choice, Launcher.exec env.core choice c (s.withoutBuild b).core
      = (reply, (s.withoutBuild b).core))
    (hq : Q (.ok reply) s (s.withoutBuild b)) :
    (Program.await (.core c) : Coroutine α).Alike (exec env) Q s (s.withoutBuild b) := by
  have he : ∀ choice, exec env choice (.core c) s = (reply, s) := by
    intro choice
    simp only [exec, hs, State.afterCore_self]
  have he' : ∀ choice, exec env choice (.core c) (s.withoutBuild b)
      = (reply, s.withoutBuild b) := by
    intro choice
    simp only [exec, hs', State.afterCore_self]
  refine Program.alike_await (fun choice => by rw [he, he']) (fun choice => ?_)
  rw [he, he']
  exact hq

theorem findBuild_alike {id : Uuid} (hne : id ≠ b)
    {Q : Except Failure (Option Build) → State → State → Prop}
    (hq : Q (.ok (s.core.builds.find? id)) s (s.withoutBuild b)) :
    (Program.await (.core (.findBuild id)) : Coroutine (Option Build)).Alike (exec env) Q s
      (s.withoutBuild b) := by
  refine coreRead_alike (fun _ => rfl) (fun _ => Prod.ext ?_ rfl) hq
  exact (s.core.builds_removeBuild b id).trans (if_neg hne)

theorem filesFor_alike {id : Uuid} (hne : id ≠ b)
    {Q : Except Failure (List ManifestEntry) → State → State → Prop}
    (hq : Q (.ok (s.core.filesFor env.core id)) s (s.withoutBuild b)) :
    (Program.await (.core (.filesFor id)) : Coroutine (List ManifestEntry)).Alike (exec env) Q s
      (s.withoutBuild b) :=
  coreRead_alike (fun _ => rfl)
    (fun _ => Prod.ext (s.core.filesFor_removeBuild b env.core hne) rfl) hq

theorem installedFrom_alike (h : Hidden s actor b build) {target : BuildOwnership}
    {fromBuildId : Bytes}
    {Q : Except Failure (Option Uuid × List ManifestEntry) → State → State → Prop}
    (hq : ∀ r, Q r s (s.withoutBuild b)) :
    (installedFrom actor target fromBuildId).Alike (exec env) Q s (s.withoutBuild b) := by
  unfold installedFrom
  split
  · exact hq _
  · refine Program.alike_bind (downloadableBuild_alike h ?_)
    cases hr : s.resolve actor fromBuildId with
    | error e => exact hq _
    | ok source =>
        show Program.Alike _ _ (if source.gameId ≠ target.gameId then _ else _) s _
        split
        · exact hq _
        · have hne := h.ne_of_mayDownload (resolve_eq_ok.mp hr)
          exact Program.alike_bind (filesFor_alike hne (hq _))

/-- The row of the event names a build that stays, and the game, the account and the version
are there in both states. -/
theorem recordPlan_alike {fromVersionId : Option Uuid} {plan : DownloadPlan}
    (hne : plan.buildId ≠ b) {Q : Except Failure Unit → State → State → Prop}
    (hq : ∀ r t t', Q r t t') :
    (recordPlan actor fromVersionId plan).Alike (exec env) Q s (s.withoutBuild b) := by
  unfold recordPlan
  split
  · exact hq _ _ _
  · refine Program.alike_bind (Program.alike_await (fun choice => ?_) (fun choice => ?_))
    · have hbuild : (s.withoutBuild b).core.builds.find? plan.buildId
          = s.core.builds.find? plan.buildId :=
        (s.core.builds_removeBuild b plan.buildId).trans (if_neg hne)
      show (s.recordEvent _).1 = ((s.withoutBuild b).recordEvent _).1
      simp only [State.recordEvent, hbuild]
      have hsame : (s.withoutBuild b).core.games = s.core.games ∧
          (s.withoutBuild b).core.users = s.core.users ∧
          (s.withoutBuild b).core.versions = s.core.versions := ⟨rfl, rfl, rfl⟩
      rw [hsame.1, hsame.2.1, hsame.2.2]
      split_ifs <;> rfl
    · cases (exec env choice (.recordEvent _) s).1 <;> exact hq _ _ _

theorem plan_alike (h : Hidden s actor b build) (buildId fromBuildId : Bytes) :
    (plan env actor buildId fromBuildId).Alike (exec env) (fun _ _ _ => True) s
      (s.withoutBuild b) := by
  unfold plan
  refine Program.alike_bind (downloadableBuild_alike h ?_)
  cases hr : s.resolve actor buildId with
  | error e => trivial
  | ok target =>
      have hmay := resolve_eq_ok.mp hr
      have hne := h.ne_of_mayDownload hmay
      show Program.Alike _ _ (installedFrom actor target fromBuildId >>= _) s _
      refine Program.alike_bind (installedFrom_alike h (fun r => ?_))
      cases r with
      | error e => trivial
      | ok found =>
          refine Program.alike_bind (findBuild_alike hne ?_)
          cases s.core.builds.find? (uuidOf buildId) with
          | none => trivial
          | some row =>
              refine Program.alike_bind (filesFor_alike hne ?_)
              intro choice
              refine ⟨rfl, ?_⟩
              show Program.Alike _ _ (recordPlan actor _ _ >>= _) s (s.withoutBuild b)
              refine Program.alike_bind (recordPlan_alike ?_ (fun r t t' => ?_))
              · obtain ⟨b', v, g, hb, _, _, rfl⟩ := State.findOwnership_eq_some.mp hmay.found
                show b'.id ≠ b
                rw [(Table.find?_eq_some.mp hb).2]
                exact hne
              · cases r <;> trivial

theorem verifyInstall_alike (h : Hidden s actor b build) (buildId : Bytes)
    (installed : List InstalledFile) :
    (verifyInstall env actor buildId installed).Alike (exec env) (fun _ _ _ => True) s
      (s.withoutBuild b) := by
  unfold verifyInstall
  refine Program.alike_bind (downloadableBuild_alike h ?_)
  cases hr : s.resolve actor buildId with
  | error e => trivial
  | ok target =>
      have hne := h.ne_of_mayDownload (resolve_eq_ok.mp hr)
      show Program.Alike _ _ (require (checkInstalled installed) >>= _) s _
      cases checkInstalled installed with
      | error e => trivial
      | ok observed =>
          show Program.Alike _ _ (Program.await (Call.core (.findBuild (uuidOf buildId))) >>= _) s _
          refine Program.alike_bind (findBuild_alike hne ?_)
          cases s.core.builds.find? (uuidOf buildId) with
          | none => trivial
          | some row =>
              refine Program.alike_bind (filesFor_alike hne ?_)
              exact fun choice => ⟨rfl, trivial⟩

theorem downloadableBuild_wp_iff {buildId : Bytes}
    {Q : Except Failure (Result BuildOwnership) → State → Prop} :
    (downloadableBuild actor buildId).Wp (exec env) Q s ↔ Q (.ok (s.resolve actor buildId)) s := by
  exact Program.wp_iff_of_answer (downloadableBuild_wp ⟨rfl, rfl⟩)

theorem Hidden.resolve_error (h : Hidden s actor b build) {buildId : Bytes}
    (hb : uuidOf buildId = b) : ∃ e, s.resolve actor buildId = .error e := by
  cases hr : s.resolve actor buildId with
  | error e => exact ⟨e, rfl⟩
  | ok o => exact absurd hb (h.ne_of_mayDownload (resolve_eq_ok.mp hr))

/-- Coming from a hidden build is coming from nothing. -/
theorem plan_from_hidden (h : Hidden s actor b build) (buildId : Bytes) {fromBuildId : Bytes}
    (hb : uuidOf fromBuildId = b) {Q : Except Failure DownloadPlan → State → Prop} :
    (plan env actor buildId fromBuildId).Wp (exec env) Q s ↔
      (plan env actor buildId []).Wp (exec env) Q s := by
  obtain ⟨e, he⟩ := h.resolve_error hb
  unfold plan
  rw [Program.wp_bind, Program.wp_bind, downloadableBuild_wp_iff, downloadableBuild_wp_iff]
  cases s.resolve actor buildId with
  | error _ => exact Iff.rfl
  | ok target =>
      have hfrom : ∀ f : Option Uuid × List ManifestEntry → Coroutine DownloadPlan,
          (installedFrom actor target fromBuildId >>= f).Wp (exec env) Q s ↔
            (installedFrom actor target [] >>= f).Wp (exec env) Q s := by
        intro f
        rw [Program.wp_bind, Program.wp_bind]
        unfold installedFrom
        split
        · exact Iff.rfl
        · rw [Program.wp_bind, downloadableBuild_wp_iff, he]
          exact Iff.rfl
      exact hfrom _

/-! ## The detail page -/

/-- In a game the actor may view, a build is readable when its version is shown to them. -/
theorem mayReadBuild_eq {game : Game} (hview : mayViewGame game actor = true)
    (hpublisher : build.publisherUserId = game.publisherUserId)
    (hvisibility : build.visibility = game.visibility) :
    mayReadBuild build actor = (build.versionPublished || mayEditGame game actor) := by
  unfold mayViewGame at hview
  unfold mayReadBuild mayPublishBuild
  rw [hpublisher, hvisibility]
  show (_ || mayEditGame game actor) = (_ || mayEditGame game actor)
  cases hedit : mayEditGame game actor with
  | true => rw [Bool.or_true, Bool.or_true]
  | false =>
      rw [hedit, Bool.or_false] at hview
      rw [hview, Bool.true_and]

/-- A row of `builds` that hangs off one of the versions a visitor is shown is not hidden from
them. -/
theorem Hidden.version_not_listed (h : Hidden s actor b build) {row : Build}
    (hrow : s.core.builds.find? b = some row) {game : Game} (hgame : game ∈ s.core.games)
    (hview : mayViewGame game actor = true) :
    row.gameVersionId ∉ (s.listVersions game.id (mayEditGame game actor)).map (·.id) := by
  intro hmem
  obtain ⟨v, hfound, hgameId, hshown⟩ := mem_listVersions.mp hmem
  obtain ⟨row', v', g, hb, hv', hg, hbuild⟩ := State.findOwnership_eq_some.mp h.found
  obtain rfl : row = row' := Option.some.inj (hrow.symm.trans hb)
  obtain rfl : v = v' := Option.some.inj (hfound.symm.trans hv')
  have hfound' : s.core.games.find? game.id = some game := Table.find?_of_mem hgame
  obtain rfl : game = g :=
    Option.some.inj (hfound'.symm.trans ((congrArg _ hgameId.symm).trans hg))
  have hread := h.unreadable
  rw [mayReadBuild_eq hview (by rw [hbuild]) (by rw [hbuild]), hbuild] at hread
  exact Bool.false_ne_true (hread.symm.trans hshown)

/-- The pages shown to a visitor list the same builds. -/
theorem Hidden.listBuilds (h : Hidden s actor b build) {game : Game} (hgame : game ∈ s.core.games)
    (hview : mayViewGame game actor = true) :
    (s.withoutBuild b).listBuilds
        ((s.listVersions game.id (mayEditGame game actor)).map (·.id))
      = s.listBuilds ((s.listVersions game.id (mayEditGame game actor)).map (·.id)) := by
  have hread : (s.withoutBuild b).readBuild = s.readBuild := by
    funext row
    unfold State.readBuild
    rw [withoutBuild_buildColumns]
  unfold State.listBuilds
  rw [hread]
  refine congrArg (fun rows => (List.map s.readBuild rows).insertionSort _) ?_
  show (s.core.builds.rows.filter _).filter _ = _
  rw [List.filter_filter]
  refine List.filter_congr (fun row hrow => ?_)
  by_cases hid : row.id = b
  · have hfound : s.core.builds.find? b = some row := hid ▸ Table.find?_of_mem hrow
    have hnot := h.version_not_listed hfound hgame hview
    rw [← List.contains_iff_mem, Bool.not_eq_true] at hnot
    rw [hnot, Bool.false_and]
  · show (_ && !decide (row.id = b)) = _
    rw [decide_eq_false hid, Bool.not_false, Bool.and_true]

/-- Awaiting a query of this layer that replies the same without the build. -/
theorem read_alike {α : Type} {c : Call α} {reply : α}
    {Q : Except Failure α → State → State → Prop}
    (hs : ∀ choice, exec env choice c s = (reply, s))
    (hs' : ∀ choice, exec env choice c (s.withoutBuild b) = (reply, s.withoutBuild b))
    (hq : Q (.ok reply) s (s.withoutBuild b)) :
    (Program.await c : Coroutine α).Alike (exec env) Q s (s.withoutBuild b) := by
  refine Program.alike_await (fun choice => by rw [hs, hs']) (fun choice => ?_)
  rw [hs, hs']
  exact hq

theorem findGame_alike {idOrSlug : Bytes}
    {Q : Except Failure (Option GameRecord) → State → State → Prop}
    (hq : Q (s.lookup env idOrSlug) s (s.withoutBuild b)) :
    (findGame idOrSlug).Alike (exec env) Q s (s.withoutBuild b) := by
  unfold findGame
  unfold State.lookup at hq
  have hread := withoutBuild_readGame (s := s) (b := b)
  split
  · rename_i hid
    rw [if_pos hid] at hq
    refine read_alike (fun _ => rfl) (fun _ => Prod.ext ?_ rfl) hq
    show (s.core.games.find? _).map (s.withoutBuild b).readGame = _
    rw [hread]
  · rename_i hid
    rw [if_neg hid] at hq
    unfold statement
    refine Program.alike_bind (read_alike (fun _ => rfl) (fun _ => Prod.ext ?_ rfl) ?_)
    · show (if !env.core.acceptsText idOrSlug then _
        else Except.ok ((s.core.findBySlug idOrSlug).map (s.withoutBuild b).readGame)) = _
      rw [hread]
    · split at hq
      · rename_i htext
        rw [if_pos htext]
        exact hq
      · rename_i htext
        rw [if_neg htext]
        exact hq

theorem visibleGame_alike {idOrSlug : Bytes}
    {Q : Except Failure GameRecord → State → State → Prop}
    (hq : Q (s.visible env actor idOrSlug) s (s.withoutBuild b)) :
    (visibleGame actor idOrSlug).Alike (exec env) Q s (s.withoutBuild b) := by
  unfold visibleGame
  unfold State.visible at hq
  refine Program.alike_bind (findGame_alike ?_)
  cases hl : s.lookup env idOrSlug with
  | error e => rw [hl] at hq; exact hq
  | ok game =>
      rw [hl] at hq
      cases game with
      | none => exact hq
      | some game =>
          dsimp only at hq ⊢
          split
          · rename_i hv
            rw [if_pos hv] at hq
            exact hq
          · rename_i hv
            rw [if_neg hv] at hq
            exact hq

/-- The end of `gameDetail`: the artwork, and whether the game is in the caller's library. -/
theorem artwork_alike {gameId : Uuid} {detail : List GameMedia → Bool → GameDetail} :
    (do
      let media ← .await (.listMedia gameId)
      let inLibrary ← .await (.libraryContains actor.userId gameId)
      pure (detail media inLibrary) : Coroutine GameDetail).Alike (exec env) (fun _ _ _ => True)
      s (s.withoutBuild b) := by
  refine Program.alike_bind (read_alike (fun _ => rfl) (fun _ => Prod.ext ?_ rfl) ?_)
  · show (s.withoutBuild b).listMedia gameId = _
    unfold State.listMedia
    rw [withoutBuild_media]
  · refine Program.alike_bind (read_alike (fun _ => rfl) (fun _ => Prod.ext ?_ rfl) trivial)
    show ((s.withoutBuild b).library.find? _).isSome = _
    rw [withoutBuild_library]

theorem gameDetail_alike (h : Hidden s actor b build) (idOrSlug : Bytes) :
    (gameDetail actor idOrSlug).Alike (exec env) (fun _ _ _ => True) s (s.withoutBuild b) := by
  unfold gameDetail demand
  refine Program.alike_bind ?_
  split
  · refine Program.alike_bind (visibleGame_alike ?_)
    cases hv : s.visible env actor idOrSlug with
    | error e => trivial
    | ok record =>
        obtain ⟨hlookup, hview⟩ := visible_ok hv
        obtain ⟨game, hgame, rfl⟩ := lookup_mem hlookup
        refine Program.alike_bind (read_alike (fun _ => rfl) (fun _ => rfl) ?_)
        refine Program.alike_bind ?_
        unfold listForVersions
        split
        · exact artwork_alike
        · exact read_alike (fun _ => rfl)
            (fun _ => Prod.ext (h.listBuilds hgame hview) rfl) artwork_alike
  · trivial

/-- What the detail page lists: the builds of the game that its reader may read, once each. -/
def ListsReadable (s : State) (actor : Actor) (game : Game) (detail : GameDetail) : Prop :=
  (detail.builds.map (·.id)).Nodup ∧ ∀ id, id ∈ detail.builds.map (·.id) ↔
    ∃ o, s.core.findOwnership id = some o ∧ o.gameId = game.id ∧ mayReadBuild o actor = true

theorem listBuilds_readable {game : Game} (hgame : game ∈ s.core.games)
    (hview : mayViewGame game actor = true) {id : Uuid} :
    id ∈ (s.listBuilds ((s.listVersions game.id (mayEditGame game actor)).map (·.id))).map (·.id) ↔
      ∃ o, s.core.findOwnership id = some o ∧ o.gameId = game.id ∧ mayReadBuild o actor = true := by
  have hfound : s.core.games.find? game.id = some game := Table.find?_of_mem hgame
  unfold State.listBuilds
  constructor
  · intro h
    obtain ⟨record, hrecord, rfl⟩ := List.mem_map.mp h
    obtain ⟨row, hrow, rfl⟩ := List.mem_map.mp ((List.mem_insertionSort _).mp hrecord)
    obtain ⟨hrow, hversion⟩ := List.mem_filter.mp hrow
    obtain ⟨v, hv, hgameId, hshown⟩ := mem_listVersions.mp (List.contains_iff_mem.mp hversion)
    refine ⟨_, State.findOwnership_eq_some.mpr ⟨row, v, game, Table.find?_of_mem hrow, hv,
      (congrArg _ hgameId).trans hfound, rfl⟩, hgameId, ?_⟩
    rw [mayReadBuild_eq hview rfl rfl]
    exact hshown
  · rintro ⟨o, ho, hgameId, hread⟩
    obtain ⟨row, v, g, hrow, hv, hg, rfl⟩ := State.findOwnership_eq_some.mp ho
    obtain rfl : game = g := Option.some.inj (hfound.symm.trans ((congrArg _ hgameId.symm).trans hg))
    rw [mayReadBuild_eq hview rfl rfl] at hread
    obtain ⟨hmem, rfl⟩ := Table.find?_eq_some.mp hrow
    refine List.mem_map.mpr ⟨s.readBuild row, (List.mem_insertionSort _).mpr ?_, rfl⟩
    refine List.mem_map.mpr ⟨row, List.mem_filter.mpr ⟨hmem, ?_⟩, rfl⟩
    exact List.contains_iff_mem.mpr (mem_listVersions.mpr ⟨v, hv, hgameId, hread⟩)

theorem listBuilds_nodup (versionIds : List Uuid) :
    ((s.listBuilds versionIds).map (·.id)).Nodup := by
  have hrows : ((s.core.builds.rows.filter (fun b => versionIds.contains b.gameVersionId)).map
      (·.id)).Nodup := s.core.builds.nodup.sublist (List.filter_sublist.map _)
  refine ((List.perm_insertionSort _ _).map _).nodup_iff.mpr ?_
  rw [List.map_map]
  exact hrows

theorem gameDetail_wp {idOrSlug : Bytes} {record : GameRecord}
    (hlookup : s.lookup env idOrSlug = .ok (some record))
    (hview : mayViewGame record.toGame actor = true) :
    (gameDetail actor idOrSlug).Wp (exec env) (fun r _ =>
      (actor.can .GAME_READ = true → ∃ detail, r = .ok detail) ∧
      ∀ detail, r = .ok detail → detail.game = record ∧
        ListsReadable s actor record.toGame detail) s := by
  obtain ⟨game, hgame, rfl⟩ := lookup_mem hlookup
  unfold gameDetail demand
  refine Program.wp_bind.mpr ?_
  split
  · refine Program.wp_bind.mpr (visibleGame_wp ?_)
    have hvisible : s.visible env actor idOrSlug = .ok (s.readGame game) := by
      simp only [State.visible, hlookup, hview, if_true]
    rw [hvisible]
    refine Program.wp_bind.mpr (await_wp (fun _ => rfl) ?_)
    refine Program.wp_bind.mpr (listForVersions_wp ?_)
    refine Program.wp_bind.mpr (await_wp (fun _ => rfl) ?_)
    refine Program.wp_bind.mpr (await_wp (fun _ => rfl) ?_)
    refine ⟨fun _ => ⟨_, rfl⟩, fun detail hdetail => ?_⟩
    obtain rfl := Except.ok.inj hdetail
    exact ⟨rfl, listBuilds_nodup _, fun id => listBuilds_readable hgame hview⟩
  · rename_i hcan
    exact ⟨fun h => absurd h hcan, fun detail hdetail => by cases hdetail⟩

/-! ## Whole operations -/

/-- The operations that take the build's id (a plan and a check may also be about another one),
and the detail pages. -/
inductive Concerns (actor : Actor) (b : Uuid) : Request → Prop
  | manifest {buildId : Bytes} (h : uuidOf buildId = b) :
      Concerns actor b (.core (.manifest actor buildId))
  | missingBlobs {buildId : Bytes} (h : uuidOf buildId = b) (blobs : List BlobDeclaration) :
      Concerns actor b (.core (.missingBlobs actor buildId blobs))
  | beginUpload {buildId : Bytes} (h : uuidOf buildId = b) (blob : BlobDeclaration) :
      Concerns actor b (.core (.beginUpload actor buildId blob))
  | finalizeBuild {buildId : Bytes} (h : uuidOf buildId = b) (command : FinalizeBuildCommand) :
      Concerns actor b (.core (.finalizeBuild actor buildId command))
  | deleteBuild {buildId : Bytes} (h : uuidOf buildId = b) :
      Concerns actor b (.core (.deleteBuild actor buildId))
  | plan (buildId fromBuildId : Bytes) : Concerns actor b (.plan actor buildId fromBuildId)
  | verifyInstall (buildId : Bytes) (installed : List InstalledFile) :
      Concerns actor b (.verifyInstall actor buildId installed)
  | gameDetail (idOrSlug : Bytes) : Concerns actor b (.gameDetail actor idOrSlug)

/-- A coroutine of the upload side that asks who owns the build and then answers the same
whether there is one or not. -/
def Refuses (env : Env) (b : Uuid) (build : BuildOwnership) (t : Launcher.Task) : Prop :=
  ∃ k, t.next env.core = .call (.findOwnership b) k ∧ k (some build) = k none ∧
    (k none).next env.core = .done

/-- A task that goes on the same way from both states. -/
def Task.Indistinct (env : Env) (s : State) (b : Uuid) (build : BuildOwnership) (s₁ s₂ : State)
    (t : Task) : Prop :=
  match t.body with
  | .core t => t.next env.core = .done ∨
      (s₁ = s ∧ s₂ = s.withoutBuild b ∧ Refuses env b build t)
  | .program p => p.Alike (exec env) (fun _ _ _ => True) s₁ s₂

theorem Hidden.next_indistinct (h : Hidden s actor b build) {s₁ s₂ : State} {t : Task}
    (ht : t.Indistinct env s b build s₁ s₂) :
    ((storefront env).next t).All (fun c k => ∀ choice,
      k ((storefront env).exec choice c s₁).1 = k ((storefront env).exec choice c s₂).1 ∧
      (k ((storefront env).exec choice c s₁).1).Indistinct env s b build
        ((storefront env).exec choice c s₁).2 ((storefront env).exec choice c s₂).2) := by
  obtain ⟨asker, body⟩ := t
  cases body with
  | core t =>
      show (((((t.next env.core).lift Call.core).map Body.core).map _)).All _
      rcases ht with hdone | ⟨rfl, rfl, k, hk, hsame, hdone⟩
      · rw [hdone]
        trivial
      · rw [hk]
        intro choice
        have hfound : s₁.core.findOwnership b = some build := h.found
        have hgone : (s₁.withoutBuild b).core.findOwnership b = none :=
          (s₁.core.findOwnership_removeBuild b b).trans (if_pos rfl)
        have hreply : k (s₁.core.findOwnership b)
            = k ((s₁.withoutBuild b).core.findOwnership b) := by
          rw [hfound, hgone, hsame]
        refine ⟨congrArg (fun t => (⟨asker, .core t⟩ : Task)) hreply, Or.inl ?_⟩
        show (k (s₁.core.findOwnership b)).next env.core = .done
        rw [hreply, hgone]
        exact hdone
  | program p =>
      cases p with
      | done r => trivial
      | call c k =>
          intro choice
          obtain ⟨hsame, hrest⟩ := ht choice
          exact ⟨congrArg (fun p => (⟨asker, .program p⟩ : Task)) hsame, hrest⟩

theorem core_indistinct {asker : Option Actor} {t : Launcher.Task}
    (h : t.next env.core = .done ∨ Refuses env b build t) :
    Task.Indistinct env s b build s (s.withoutBuild b) ⟨asker, .core t⟩ :=
  h.imp_right (fun h => ⟨rfl, rfl, h⟩)

theorem start_indistinct {α : Type} {p : Coroutine α} {reply : α → Reply}
    (hp : p.Alike (exec env) (fun _ _ _ => True) s (s.withoutBuild b)) :
    (start actor p reply).Indistinct env s b build s (s.withoutBuild b) := by
  refine Program.alike_bind (hp.mono (fun r t t' _ => ?_))
  cases r <;> trivial

/-- A build that is hidden from the actor is not one they may upload to. -/
theorem Hidden.writableBuild (h : Hidden s actor b build) :
    Launcher.writableBuild actor (some build) = Launcher.writableBuild actor none := by
  simp [Launcher.writableBuild, h.not_publisher]

theorem entry_indistinct (h : Hidden s actor b build) {r : Request} (hr : Concerns actor b r) :
    (entry env r).Indistinct env s b build s (s.withoutBuild b) := by
  cases hr with
  | @manifest buildId hb =>
      refine core_indistinct (t := Launcher.Task.manifest (manifest actor buildId)) ?_
      unfold manifest
      split_ifs
      · exact Or.inl rfl
      · exact Or.inl rfl
      · refine Or.inr ⟨_, by rw [← hb]; rfl, ?_, rfl⟩
        simp [h.unreadable]
  | @missingBlobs buildId hb blobs =>
      refine core_indistinct (t := Launcher.Task.missingBlobs (missingBlobs actor buildId blobs)) ?_
      unfold missingBlobs writableBuildRequest
      split_ifs
      · exact Or.inl rfl
      · exact Or.inl rfl
      · refine Or.inr ⟨_, by rw [← hb]; rfl, ?_, rfl⟩
        simp only [h.writableBuild]
  | @beginUpload buildId hb blob =>
      refine core_indistinct (t := Launcher.Task.beginUpload (beginUpload actor buildId blob)) ?_
      unfold beginUpload writableBuildRequest
      split_ifs
      · exact Or.inl rfl
      · exact Or.inl rfl
      · refine Or.inr ⟨_, by rw [← hb]; rfl, ?_, rfl⟩
        simp only [h.writableBuild]
  | @finalizeBuild buildId hb command =>
      refine core_indistinct (t := Launcher.Task.finalizeBuild (finalizeBuild actor buildId command)) ?_
      unfold finalizeBuild writableBuildRequest
      split_ifs
      · exact Or.inl rfl
      · exact Or.inl rfl
      · refine Or.inr ⟨_, by rw [← hb]; rfl, ?_, rfl⟩
        simp only [h.writableBuild]
  | @deleteBuild buildId hb =>
      refine core_indistinct (t := Launcher.Task.deleteBuild (deleteBuild actor buildId)) ?_
      unfold deleteBuild
      split_ifs
      · exact Or.inl rfl
      · refine Or.inr ⟨_, by rw [← hb]; rfl, ?_, rfl⟩
        simp [h.unreadable]
  | plan buildId fromBuildId => exact start_indistinct (plan_alike h buildId fromBuildId)
  | verifyInstall buildId installed =>
      exact start_indistinct (verifyInstall_alike h buildId installed)
  | gameDetail idOrSlug => exact start_indistinct (gameDetail_alike h idOrSlug)

end Hidden

/-- **A build that an actor may not read is as good as deleted.** Run alone with the same
choices, each operation goes through the same points and answers the same with the build and
without it; a plan that starts from it is the plan that starts from nothing, and leaves the same
event. What an actor is shown of a game they may view are the builds they may read. -/
theorem hidden_build_absent (env : Env) (s : State) (actor : Actor) :
    (∀ b build, Hidden s actor b build →
      (∀ r, Concerns actor b r → ∀ choices,
        ((storefront env).alone s (entry env r) choices).tasks
          = ((storefront env).alone (s.withoutBuild b) (entry env r) choices).tasks) ∧
      (∀ buildId fromBuildId Q, uuidOf fromBuildId = b →
        ((plan env actor buildId fromBuildId).Wp (exec env) Q s ↔
          (plan env actor buildId []).Wp (exec env) Q s))) ∧
    ∀ idOrSlug record, s.lookup env idOrSlug = .ok (some record) →
      mayViewGame record.toGame actor = true →
      (gameDetail actor idOrSlug).Wp (exec env) (fun r _ =>
        (actor.can .GAME_READ = true → ∃ detail, r = .ok detail) ∧
        ∀ detail, r = .ok detail → detail.game = record ∧
          ListsReadable s actor record.toGame detail) s := by
  refine ⟨fun b build h => ⟨fun r hr choices => ?_, fun buildId fromBuildId Q hb => ?_⟩, ?_⟩
  · exact System.alone_alike (fun s₁ s₂ t => h.next_indistinct) choices s (s.withoutBuild b) _
      (entry_indistinct h hr)
  · exact plan_from_hidden h buildId hb
  · exact fun idOrSlug record hlookup hview => gameDetail_wp hlookup hview

section Demo

open Storefront.Demo (carol)

/-- Besides `updated`: build 11 of the version 6, which has not been released. -/
def unreleased : State := { updated with
  core := { updated.core with
    versions := updated.core.versions.insert ⟨6, 4, false⟩
    builds := updated.core.builds.insert
      { id := 11, gameVersionId := 6, name := [], platform := .Linux, architecture := .X64,
        status := .Ready, manifestSha256 := Launcher.Demo.shaEmpty, totalSizeBytes := 0,
        fileCount := 0, entrypointRelativePath := ascii "a", defaultLaunchArgs := [] } } }

def build11 : BuildOwnership :=
  { buildId := 11, gameVersionId := 6, gameId := 4, publisherUserId := 1, visibility := .Public,
    status := .Ready, versionPublished := false }

/-- carol is shown build 10 only, and updating from build 11 is a first install to her. -/
theorem hidden_build_absent_unreleased :
    Hidden unreleased carol 11 build11 ∧
    (∀ choices, ((storefront Demo.env).alone unreleased
        (entry Demo.env (.plan carol (uuidText 10) (uuidText 11))) choices).tasks
      = ((storefront Demo.env).alone (unreleased.withoutBuild 11)
        (entry Demo.env (.plan carol (uuidText 10) (uuidText 11))) choices).tasks) ∧
    (gameDetail carol (uuidText 4)).Wp (exec Demo.env) (fun r _ => ∃ detail, r = .ok detail ∧
      10 ∈ detail.builds.map (·.id) ∧ 11 ∉ detail.builds.map (·.id)) unreleased := by
  have hhidden : Hidden unreleased carol 11 build11 := ⟨by decide +kernel, by decide +kernel⟩
  obtain ⟨habsent, hlists⟩ := hidden_build_absent Demo.env unreleased carol
  have hsame := (habsent 11 build11 hhidden).1 (.plan carol (uuidText 10) (uuidText 11))
    (.plan (uuidText 10) (uuidText 11))
  refine ⟨hhidden, hsame, ?_⟩
  have hgame : unreleased.lookup Demo.env (uuidText 4)
      = .ok (some (unreleased.readGame ⟨4, ascii "game", 1, .Public⟩)) := by decide +kernel
  have hview : mayViewGame (unreleased.readGame ⟨4, ascii "game", 1, .Public⟩).toGame carol
      = true := by decide +kernel
  have hpage := hlists (uuidText 4) _ hgame hview
  refine Program.Wp.mono (fun r _ h => ?_) hpage
  obtain ⟨detail, hdetail⟩ := h.1 (by decide +kernel)
  obtain ⟨_, _, hbuilds⟩ := h.2 detail hdetail
  refine ⟨detail, hdetail, (hbuilds 10).mpr ⟨build10, ?_⟩, fun h11 => ?_⟩
  · decide +kernel
  · obtain ⟨o, ho, _, hread⟩ := (hbuilds 11).mp h11
    have heq : build11 = o := Option.some.inj (hhidden.found.symm.trans ho)
    rw [← heq, hhidden.unreadable] at hread
    cases hread

end Demo

end Launcher.Storefront
