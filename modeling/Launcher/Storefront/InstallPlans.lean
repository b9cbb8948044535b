import Launcher.Storefront.Lookups

set_option autoImplicit false

/-! # Plans and the directories they are applied to

What `plan` answers when it is run alone (`plan_wp`), and what becomes of a directory that the
plan is applied to. A directory is a map from paths to blobs; a plan's steps may be executed in
any order. An update leaves exactly the files of its target behind when the caller may still
read the source; when not, nothing is removed. -/

namespace Launcher

open Launcher.Lib

/-! ## Manifests as the database has them -/

namespace State

variable (env : Env) (s : State) (id : Uuid)

theorem filesFor_perm : (s.filesFor env id).Perm
    ((s.buildFiles.rows.filter (fun f => decide (f.buildId = id))).filterMap s.joinBlob) :=
  List.perm_insertionSort _ _

/-- The rows of one build have different paths, and a join keeps a row's path. -/
theorem filesFor_nodup : ((s.filesFor env id).map (·.relativePath)).Nodup := by
  have hrows : ((s.buildFiles.rows.filter (fun f => decide (f.buildId = id))).map
      (·.relativePath)).Nodup := by
    refine List.Nodup.map_on (fun f hf g hg h => ?_)
      ((List.Nodup.of_map _ s.buildFiles.nodup).filter _)
    obtain ⟨hf, hfid⟩ := List.mem_filter.mp hf
    obtain ⟨hg, hgid⟩ := List.mem_filter.mp hg
    refine Table.eq_of_key_eq hf hg ?_
    show (f.buildId, f.relativePath) = (g.buildId, g.relativePath)
    rw [of_decide_eq_true hfid, of_decide_eq_true hgid, h]
  refine ((s.filesFor_perm env id).map _).nodup_iff.mpr (hrows.sublist ?_)
  induction s.buildFiles.rows.filter (fun f => decide (f.buildId = id)) with
  | nil => exact List.Sublist.refl _
  | cons f rest ih =>
      cases hb : s.blobs.find? f.blobSha256 with
      | none =>
          rw [List.filterMap_cons_none (by simp [joinBlob, hb]), List.map_cons]
          exact ih.cons _
      | some b =>
          rw [List.filterMap_cons_some (by simp [joinBlob, hb]; rfl), List.map_cons, List.map_cons]
          exact ih.cons_cons _

theorem filesFor_sizes : ∀ e ∈ s.filesFor env id, 0 ≤ e.sizeBytes := by
  intro e he
  obtain ⟨f, _, hf⟩ := List.mem_filterMap.mp ((s.filesFor_perm env id).mem_iff.mp he)
  obtain ⟨b, _, rfl⟩ := Option.map_eq_some_iff.mp hf
  exact Int.natCast_nonneg b.sizeBytes

end State

theorem transferBytes_nonneg (fetch : List DeltaFile)
    (h : ∀ f ∈ fetch, 0 ≤ f.entry.sizeBytes) : 0 ≤ transferBytes fetch := by
  have hfold : ∀ (fetch : List DeltaFile) (state : List Bytes × Int), 0 ≤ state.2 →
      (∀ f ∈ fetch, 0 ≤ f.entry.sizeBytes) → 0 ≤ (fetch.foldl countTransfer state).2 := by
    intro fetch
    induction fetch with
    | nil => exact fun _ h _ => h
    | cons f rest ih =>
        intro state hs h
        refine ih _ ?_ (fun g hg => h g (List.mem_cons_of_mem _ hg))
        have hf := h f List.mem_cons_self
        unfold countTransfer
        split_ifs
        · exact hs
        · exact hs
        · show 0 ≤ state.2 + f.entry.sizeBytes
          omega
  exact hfold fetch ([], 0) (le_refl 0) h

end Launcher

namespace Launcher.Storefront

open Launcher.Lib Launcher.DeltaPlans

/-! ## Choosing the delta -/

theorem correct_chooseDelta (env : Env) {installed target : List ManifestEntry}
    (hi : (installed.map (·.relativePath)).Nodup) (ht : (target.map (·.relativePath)).Nodup) :
    Correct installed target (env.chooseDelta installed target) := by
  unfold Env.chooseDelta
  split
  · exact correct_fullDownload hi ht
  · dsimp only
    split
    · exact correct_fullDownload hi ht
    · exact correct_computeDelta hi ht

theorem chooseDelta_bytes (env : Env) {installed target : List ManifestEntry}
    (h : ∀ e ∈ target, 0 ≤ e.sizeBytes) : 0 ≤ (env.chooseDelta installed target).downloadBytes := by
  have hfull : 0 ≤ (fullDownload installed target).downloadBytes := by
    rw [fullDownload_eq]
    refine transferBytes_nonneg _ (fun f hf => ?_)
    obtain ⟨e, he, rfl⟩ := List.mem_map.mp hf
    exact h e he
  have hdelta : 0 ≤ (computeDelta installed target).downloadBytes := by
    rw [computeDelta_eq]
    refine transferBytes_nonneg _ (fun f hf => ?_)
    obtain ⟨e, he, rfl⟩ := List.mem_map.mp hf
    exact h e (List.mem_of_mem_filter he)
  unfold Env.chooseDelta
  split
  · exact hfull
  · dsimp only
    split
    · exact hfull
    · exact hdelta

/-! ## Which builds an actor may download -/

/-- What `downloadableBuild` asks of a build: the caller may download, may read it, and it has
been finalized. -/
structure MayDownload (s : State) (actor : Actor) (buildId : Bytes) (build : BuildOwnership) :
    Prop where
  permitted : actor.can .GAME_DOWNLOAD = true
  isId : isUuid buildId = true
  found : s.core.findOwnership (uuidOf buildId) = some build
  readable : mayReadBuild build actor = true
  ready : build.status = .Ready

/-- The answer of `downloadableBuild` in the state `s`. -/
def State.resolve (s : State) (actor : Actor) (buildId : Bytes) : Result BuildOwnership :=
  match downloadableRequest actor buildId with
  | .error e => .error e
  | .ok id => downloadable actor (s.core.findOwnership id)

theorem resolve_eq_ok {s : State} {actor : Actor} {buildId : Bytes} {build : BuildOwnership} :
    s.resolve actor buildId = .ok build ↔ MayDownload s actor buildId build := by
  constructor
  · intro h
    unfold State.resolve downloadableRequest at h
    by_cases hcan : actor.can .GAME_DOWNLOAD = true
    · by_cases hid : isUuid buildId = true
      · simp only [hcan, hid, Bool.not_true, Bool.false_eq_true, if_false] at h
        cases ho : s.core.findOwnership (uuidOf buildId) with
        | none => rw [ho] at h; cases h
        | some o =>
            rw [ho] at h
            unfold downloadable at h
            by_cases hread : mayReadBuild o actor = true
            · by_cases hready : o.status = .Ready
              · simp only [hread, hready, Bool.not_true, Bool.false_eq_true, if_false,
                  ne_eq, not_true_eq_false, Except.ok.injEq] at h
                subst h
                exact ⟨hcan, hid, ho, hread, hready⟩
              · simp [hread, hready, failure] at h
            · simp [hread, failure] at h
      · simp [hcan, hid, failure] at h
    · simp [hcan, failure] at h
  · rintro ⟨hcan, hid, ho, hread, hready⟩
    simp [State.resolve, downloadableRequest, downloadable, hcan, hid, ho, hread, hready]

section Wp

variable {env : Env} {s : State} {actor : Actor}

theorem downloadableBuild_wp {buildId : Bytes}
    {Q : Except Failure (Result BuildOwnership) → State → Prop}
    (h : Q (.ok (s.resolve actor buildId)) s) :
    (downloadableBuild actor buildId).Wp (exec env) Q s := by
  unfold downloadableBuild
  unfold State.resolve at h
  cases hr : downloadableRequest actor buildId with
  | error e => rw [hr] at h; exact h
  | ok id =>
      rw [hr] at h
      intro choice
      show Q (.ok (downloadable actor (s.core.findOwnership id))) (s.afterCore s.core)
      rw [s.afterCore_self]
      exact h

/-- What the caller has installed as far as the plan knows: nothing, when the source cannot be
read. -/
def State.sourceFiles (s : State) (env : Env) (actor : Actor) (fromBuildId : Bytes) :
    List ManifestEntry :=
  match s.resolve actor fromBuildId with
  | .error _ => []
  | .ok _ => s.core.filesFor env.core (uuidOf fromBuildId)

variable (env s actor) in
theorem sourceFiles_nodup (fromBuildId : Bytes) :
    ((s.sourceFiles env actor fromBuildId).map (·.relativePath)).Nodup := by
  unfold State.sourceFiles
  split
  · exact List.nodup_nil
  · exact s.core.filesFor_nodup env.core _

theorem installedFrom_wp {target : BuildOwnership} {fromBuildId : Bytes}
    {Q : Except Failure (Option Uuid × List ManifestEntry) → State → Prop}
    (hgame : ∀ o, s.resolve actor fromBuildId = .ok o → o.gameId = target.gameId)
    (h : Q (.ok ((s.resolve actor fromBuildId).toOption.map (·.gameVersionId),
      s.sourceFiles env actor fromBuildId)) s) :
    (installedFrom actor target fromBuildId).Wp (exec env) Q s := by
  unfold installedFrom
  split
  · -- the empty text is no uuid
    rename_i hempty
    have hr : ∃ e, s.resolve actor fromBuildId = .error e := by
      rw [List.isEmpty_iff.mp hempty]
      unfold State.resolve downloadableRequest
      by_cases hcan : actor.can .GAME_DOWNLOAD = true
      · exact ⟨_, by simp [hcan, isUuid, failure]; rfl⟩
      · exact ⟨_, by simp [hcan, failure]; rfl⟩
    obtain ⟨e, hr⟩ := hr
    rw [State.sourceFiles, hr] at h
    exact h
  · refine Program.wp_bind.mpr (downloadableBuild_wp ?_)
    cases hr : s.resolve actor fromBuildId with
    | error e => rw [State.sourceFiles, hr] at h; exact h
    | ok o =>
        rw [State.sourceFiles, hr] at h
        show Program.Wp _ _ (if o.gameId ≠ target.gameId then _ else _) s
        rw [if_neg (by rw [hgame o hr]; exact fun hne => hne rfl)]
        intro choice
        show Q _ (s.afterCore s.core)
        rw [s.afterCore_self]
        exact h

/-- The statement that records a plan goes through, and touches no other table. -/
theorem recordPlan_wp {fromVersionId : Option Uuid} {plan : DownloadPlan}
    {Q : Except Failure Unit → State → Prop}
    (hgame : (s.core.games.find? plan.gameId).isNone = false)
    (hbuild : (s.core.builds.find? plan.buildId).isNone = false)
    (huser : (s.core.users.find? actor.userId).isNone = false)
    (hfrom : ∀ v, fromVersionId = some v → (s.core.versions.find? v).isNone = false)
    (hbytes : 0 ≤ plan.downloadBytes) (h : ∀ s', s'.core = s.core → Q (.ok ()) s') :
    (recordPlan actor fromVersionId plan).Wp (exec env) Q s := by
  have hversion : fromVersionId.any (fun id => (s.core.versions.find? id).isNone) = false := by
    cases hv : fromVersionId with
    | none => rfl
    | some v => exact hfrom v hv
  unfold recordPlan
  split
  · exact h s rfl
  · intro choice
    have hok : exec env choice (.recordEvent
        { gameId := plan.gameId, buildId := plan.buildId, userId := actor.userId,
          fromVersionId := fromVersionId, kind := plan.kind,
          bytesPlanned := plan.downloadBytes }) s = (.ok (), { s with
        events := s.events ++ [{
          gameId := plan.gameId, buildId := some plan.buildId, userId := some actor.userId,
          fromVersionId := fromVersionId, kind := plan.kind,
          bytesPlanned := plan.downloadBytes, createdAt := s.core.now }] }) := by
      simp only [exec, State.recordEvent, hgame, hbuild, huser, hversion, Bool.or_self,
        Bool.false_eq_true, if_false, if_neg (not_lt.mpr hbytes)]
    rw [hok]
    exact h _ rfl

variable (env) in
/-- **What `plan` answers**: the plan from what it takes to be installed to the target. -/
theorem plan_wp {buildId : Bytes} (fromBuildId : Bytes) {target : BuildOwnership} {build : Build}
    (htarget : MayDownload s actor buildId target)
    (hbuild : s.core.builds.find? (uuidOf buildId) = some build)
    (hsource : ∀ o, MayDownload s actor fromBuildId o → o.gameId = target.gameId)
    (huser : (s.core.users.find? actor.userId).isNone = false) :
    (plan env actor buildId fromBuildId).Wp (exec env) (fun r s' => s'.core = s.core ∧
      r = .ok (env.planOf target build (env.chooseDelta (s.sourceFiles env actor fromBuildId)
        (s.core.filesFor env.core (uuidOf buildId))) s.core.now)) s := by
  have hexists := htarget.found
  unfold plan
  refine Program.wp_bind.mpr (downloadableBuild_wp ?_)
  rw [resolve_eq_ok.mpr htarget]
  show Program.Wp _ _ (installedFrom actor target fromBuildId >>= _) s
  refine Program.wp_bind.mpr (installedFrom_wp (fun o ho => hsource o (resolve_eq_ok.mp ho)) ?_)
  intro choice
  rw [show exec env choice (.core (.findBuild (uuidOf buildId))) s = (some build, s) from
    Prod.ext hbuild s.afterCore_self]
  intro choice' choice''
  show Program.Wp _ _ (recordPlan actor _ (env.planOf target build
    (env.chooseDelta _ (s.core.filesFor env.core (uuidOf buildId))) s.core.now) >>= _)
    (s.afterCore s.core)
  rw [s.afterCore_self]
  obtain ⟨b, v, g, hb, hv, hg, rfl⟩ := State.findOwnership_eq_some.mp hexists
  refine Program.wp_bind.mpr (recordPlan_wp ?_ ?_ huser (fun v' hv' => ?_) ?_ (fun s' hs' => ?_))
  · show (s.core.games.find? v.gameId).isNone = false
    rw [hg]
    rfl
  · show (s.core.builds.find? b.id).isNone = false
    rw [(Table.find?_eq_some.mp hb).2, hb]
    rfl
  · cases hr : s.resolve actor fromBuildId with
    | error e => rw [hr] at hv'; cases hv'
    | ok o =>
        rw [hr] at hv'
        obtain ⟨b', w, g', _, hw, _, rfl⟩ :=
          State.findOwnership_eq_some.mp (resolve_eq_ok.mp hr).found
        rw [← Option.some.inj hv', hw]
        rfl
  · exact chooseDelta_bytes env (s.core.filesFor_sizes env.core _)
  · exact ⟨hs', rfl⟩

end Wp

/-! ## Applying a plan -/

/-- What the client does with a plan: write or copy the files to fetch, delete what is to be
removed. -/
def DownloadPlan.steps (plan : DownloadPlan) : List (Plans.Step Bytes (Option Bytes)) :=
  plan.files.map (fun f => fetchStep ⟨f.entry, f.copyFromRelativePath⟩) ++
    plan.remove.map removeStep

theorem steps_planOf (env : Env) (target : BuildOwnership) (build : Build) (delta : BuildDelta)
    (now : Nat) : (env.planOf target build delta now).steps = DeltaPlans.steps delta := by
  simp [DownloadPlan.steps, DeltaPlans.steps, Env.planOf, Env.signAll, Function.comp_def]

/-- Applied to a directory that holds what the plan takes to be installed, perhaps beside other
files, every order of the plan's steps leads to the same directory. -/
theorem run_planOf {env : Env} {s : State} {actor : Actor} {buildId fromBuildId : Bytes}
    {target : BuildOwnership} {build : Build} {directory : Bytes → Option Bytes}
    (hdir : ∀ path blob, contents (s.sourceFiles env actor fromBuildId) path = some blob →
      directory path = some blob) (now : Nat)
    {order : List (Plans.Step Bytes (Option Bytes))}
    (horder : order.Perm (env.planOf target build
      (env.chooseDelta (s.sourceFiles env actor fromBuildId)
        (s.core.filesFor env.core (uuidOf buildId))) now).steps) :
    Plans.run directory order = replaced (s.sourceFiles env actor fromBuildId)
      (s.core.filesFor env.core (uuidOf buildId)) directory := by
  have hnd := s.core.filesFor_nodup env.core (uuidOf buildId)
  have hcorrect := correct_chooseDelta env (sourceFiles_nodup env s actor fromBuildId)
    hnd
  rw [steps_planOf] at horder
  exact hcorrect.run hnd (fun u hu => hdir _ _ (hcorrect.kept hnd hu)) horder

/-! ## Updates -/

/-- `plan` answers with a plan that turns a directory with exactly the files `files` into one
with exactly the files of the build. -/
def Replaces (env : Env) (s : State) (actor : Actor) (buildId fromBuildId : Bytes)
    (files : List ManifestEntry) : Prop :=
  (plan env actor buildId fromBuildId).Wp (exec env) (fun r _ => ∃ p, r = .ok p ∧
    ∀ order, order.Perm p.steps → Plans.run (contents files) order
      = contents (s.core.filesFor env.core (uuidOf buildId))) s

section Replaces

variable {env : Env} {s : State} {actor : Actor} {buildId fromBuildId : Bytes}
  {target : BuildOwnership} {files : List ManifestEntry}

theorem replaces_iff_replaced (htarget : MayDownload s actor buildId target)
    (hsource : ∀ o, MayDownload s actor fromBuildId o → o.gameId = target.gameId)
    (huser : (s.core.users.find? actor.userId).isNone = false)
    (hdir : ∀ path blob, contents (s.sourceFiles env actor fromBuildId) path = some blob →
      contents files path = some blob) :
    Replaces env s actor buildId fromBuildId files ↔
      replaced (s.sourceFiles env actor fromBuildId) (s.core.filesFor env.core (uuidOf buildId))
        (contents files) = contents (s.core.filesFor env.core (uuidOf buildId)) := by
  obtain ⟨build, _, _, hbuild, _⟩ := State.findOwnership_eq_some.mp htarget.found
  have hplan := plan_wp env fromBuildId htarget hbuild hsource huser
  constructor
  · intro h
    obtain ⟨r, s', ⟨p, hp, hrun⟩, _, hr⟩ := (h.and hplan).exists
    obtain rfl : p = _ := Except.ok.inj (hp.symm.trans hr)
    rw [← hrun _ (List.Perm.refl _), run_planOf hdir _ (List.Perm.refl _)]
  · intro h
    refine hplan.mono (fun r s' hr => ⟨_, hr.2, fun order horder => ?_⟩)
    rw [run_planOf hdir _ horder, h]

/-- Without a readable source nothing is removed. -/
theorem replaced_nil {target : List ManifestEntry} :
    replaced [] target (contents files) = contents target ↔
      ∀ f ∈ files, f.relativePath ∈ target.map (·.relativePath) := by
  constructor
  · intro h f hf
    by_contra hout
    have hp := congrFun h f.relativePath
    rw [contents_eq_none.mpr hout, replaced, if_neg hout, if_neg (by simp)] at hp
    exact contents_eq_none.mp hp (List.mem_map_of_mem hf)
  · intro h
    funext path
    by_cases hmem : path ∈ target.map (·.relativePath)
    · rw [replaced, if_pos hmem]
    · rw [replaced, if_neg hmem, if_neg (by simp), contents_eq_none.mpr hmem,
        contents_eq_none]
      intro hin
      obtain ⟨f, hf, rfl⟩ := List.mem_map.mp hin
      exact hmem (h f hf)

end Replaces

/-- **When an update leaves nothing of the previous build behind.** The client has exactly the
files of a build of the same game; if that build still exists, these are its files. Applying
the plan leaves exactly the files of the target if and only if the caller may still download
the source, or the source has no path that the target does not have. -/
theorem update_replaces (env : Env) (s : State) (actor : Actor) (buildId fromBuildId : Bytes)
    (target : BuildOwnership) (files : List ManifestEntry)
    (htarget : MayDownload s actor buildId target)
    (huser : (s.core.users.find? actor.userId).isNone = false)
    (hsource : ∀ o, s.core.findOwnership (uuidOf fromBuildId) = some o →
      o.gameId = target.gameId ∧ files.Perm (s.core.filesFor env.core (uuidOf fromBuildId))) :
    Replaces env s actor buildId fromBuildId files ↔
      (∃ source, MayDownload s actor fromBuildId source) ∨
        ∀ f ∈ files, f.relativePath ∈
          (s.core.filesFor env.core (uuidOf buildId)).map (·.relativePath) := by
  have hgame : ∀ o, MayDownload s actor fromBuildId o → o.gameId = target.gameId :=
    fun o ho => (hsource o ho.found).1
  cases hr : s.resolve actor fromBuildId with
  | ok o =>
      have ho := resolve_eq_ok.mp hr
      have hfiles : s.sourceFiles env actor fromBuildId
          = s.core.filesFor env.core (uuidOf fromBuildId) := by
        rw [State.sourceFiles, hr]
      have hcontents : contents files = contents (s.sourceFiles env actor fromBuildId) := by
        rw [hfiles]
        exact contents_perm (hsource o ho.found).2 (s.core.filesFor_nodup env.core _)
      rw [replaces_iff_replaced htarget hgame huser (by rw [hcontents]; exact fun _ _ h => h),
        hcontents]
      exact ⟨fun _ => Or.inl ⟨o, ho⟩, fun _ => replaced_contents⟩
  | error e =>
      have hfiles : s.sourceFiles env actor fromBuildId = [] := by rw [State.sourceFiles, hr]
      have hno : ¬∃ source, MayDownload s actor fromBuildId source := by
        rintro ⟨o, ho⟩
        have := resolve_eq_ok.mpr ho
        rw [hr] at this
        cases this
      rw [replaces_iff_replaced htarget hgame huser (by rw [hfiles]; exact fun _ _ h => by cases h),
        hfiles, replaced_nil]
      exact ⟨Or.inr, fun h => h.resolve_left hno⟩

section Demo

open Launcher.Demo (shaA shaEmpty)
open Storefront.Demo (carol)

/-- The public game 4 with its released version 5, whose build 10 has the file `a`. Build 11,
which carol has installed, has been deleted. -/
def updated : State := { Demo.empty with
  core := { Demo.empty.core with
    games := Table.empty.insert ⟨4, ascii "game", 1, .Public⟩
    versions := Table.empty.insert ⟨5, 4, true⟩
    builds := Table.empty.insert
      { id := 10, gameVersionId := 5, name := [], platform := .Linux, architecture := .X64,
        status := .Ready, manifestSha256 := shaEmpty, totalSizeBytes := 1, fileCount := 1,
        entrypointRelativePath := ascii "a", defaultLaunchArgs := [] }
    buildFiles := Table.empty.insert ⟨10, ascii "a", shaA, true⟩
    blobs := Table.empty.insert ⟨shaA, 1, storageKeyFor shaA, 0, some 1⟩ } }

def build10 : BuildOwnership :=
  { buildId := 10, gameVersionId := 5, gameId := 4, publisherUserId := 1, visibility := .Public,
    status := .Ready, versionPublished := true }

theorem mayDownload_build10 : MayDownload updated carol (uuidText 10) build10 :=
  ⟨by decide +kernel, by decide +kernel, by decide +kernel, by decide +kernel, rfl⟩

/-- The files of build 11: `a`, and `b` that build 10 does not have any more. -/
def files11 : List ManifestEntry := [⟨ascii "a", shaA, 1, true⟩, ⟨ascii "b", shaEmpty, 0, false⟩]

/-- Only the deleted build's files are left to go by: they were all replaced. -/
theorem update_replaces_samePaths :
    Replaces Demo.env updated carol (uuidText 10) (uuidText 11) [⟨ascii "a", shaEmpty, 0, true⟩] := by
  have hgone : updated.core.findOwnership (uuidOf (uuidText 11)) = none := by decide +kernel
  refine (update_replaces Demo.env updated carol (uuidText 10) (uuidText 11) build10
    [⟨ascii "a", shaEmpty, 0, true⟩] mayDownload_build10 (by decide +kernel) (fun o ho => ?_)).mpr
    (Or.inr (by decide +kernel))
  rw [hgone] at ho
  cases ho

/-- carol has build 11 installed and updates to build 10; `b` stays. -/
theorem update_leftover :
    MayDownload updated carol (uuidText 10) build10 ∧
    updated.core.findOwnership (uuidOf (uuidText 11)) = none ∧
    ¬Replaces Demo.env updated carol (uuidText 10) (uuidText 11) files11 := by
  have hgone : updated.core.findOwnership (uuidOf (uuidText 11)) = none := by decide +kernel
  have hsource : updated.sourceFiles Demo.env carol (uuidText 11) = [] := by decide +kernel
  refine ⟨mayDownload_build10, hgone, fun h => ?_⟩
  have hreplaced := (replaces_iff_replaced mayDownload_build10 (fun o ho => ?_) (by decide +kernel)
    (fun path blob hb => ?_)).mp h
  · rw [hsource] at hreplaced
    have hall := replaced_nil.mp hreplaced
    exact absurd (hall ⟨ascii "b", shaEmpty, 0, false⟩ (by decide +kernel)) (by decide +kernel)
  · have hfound := ho.found
    rw [hgone] at hfound
    cases hfound
  · rw [hsource] at hb
    cases hb

end Demo

end Launcher.Storefront
