import Launcher.Storefront.InstallPlans

set_option autoImplicit false

/-! # Checking an install

What `verifyInstall` reports when it is run alone: the loops over the reported files and over
the manifest in closed form, and from them that planning, applying and checking agree. A report
lists a directory when it has every file of it once. -/

namespace Launcher.Storefront

open Launcher.Lib Launcher.DeltaPlans

/-! ## The loops in closed form -/

/-- What the check of one reported file asks of it. -/
structure Reportable (file : InstalledFile) : Prop where
  named : file.relativePath ≠ []
  short : file.relativePath.length ≤ MAX_RELATIVE_PATH_LENGTH
  hashed : isSha256Hex file.sha256 = true

theorem observe_ok {observed : Observed} {file : InstalledFile} (h : Reportable file)
    (hnew : observed.find? file.relativePath = none) :
    observe observed file = .ok (observed.insert file) := by
  have hshort : ¬MAX_RELATIVE_PATH_LENGTH < file.relativePath.length := not_lt.mpr h.short
  simp [observe, h.named, hshort, h.hashed, hnew]

theorem observe_fold (installed : List InstalledFile) (hr : ∀ f ∈ installed, Reportable f)
    (hnd : (installed.map (·.relativePath)).Nodup) :
    ∀ observed : Observed, (∀ f ∈ installed, observed.find? f.relativePath = none) →
      installed.foldlM observe observed = .ok (installed.foldl Table.insert observed) := by
  induction installed with
  | nil => exact fun _ _ => rfl
  | cons f rest ih =>
      intro observed hnew
      obtain ⟨hf, hrest⟩ := List.nodup_cons.mp hnd
      rw [List.foldlM_cons, observe_ok (hr f List.mem_cons_self) (hnew f List.mem_cons_self)]
      refine ih (fun g hg => hr g (List.mem_cons_of_mem _ hg)) hrest _ (fun g hg => ?_)
      have hne : g.relativePath ≠ f.relativePath := fun he =>
        hf (List.mem_map.mpr ⟨g, hg, he⟩)
      rw [Table.find?_insert_ne hne]
      exact hnew g (List.mem_cons_of_mem _ hg)

/-- The hash a report has for a path. -/
def reported (installed : List InstalledFile) (path : Bytes) : Option Bytes :=
  (installed.find? (fun f => decide (f.relativePath = path))).map (·.sha256)

/-- A report that is accepted, as an index by path. -/
theorem checkInstalled_ok {installed : List InstalledFile} (hr : ∀ f ∈ installed, Reportable f)
    (hnd : (installed.map (·.relativePath)).Nodup)
    (hlen : installed.length ≤ MAX_MANIFEST_ENTRIES) :
    ∃ observed, checkInstalled installed = .ok observed ∧
      ∀ path, (observed.find? path).map (·.sha256) = reported installed path := by
  refine ⟨installed.foldl Table.insert Table.empty, ?_, fun path => ?_⟩
  · rw [checkInstalled, if_neg (not_lt.mpr hlen)]
    exact observe_fold installed hr hnd _ (fun _ _ => rfl)
  · rw [Table.find?_foldl_insert, Table.find?_empty, Option.none_or, reported]

def isMissing (directory : Bytes → Option Bytes) (entry : ManifestEntry) : Bool :=
  (directory entry.relativePath).isNone

def isCorrupt (directory : Bytes → Option Bytes) (entry : ManifestEntry) : Bool :=
  (directory entry.relativePath).any (· != entry.blobSha256)

def isMatching (directory : Bytes → Option Bytes) (entry : ManifestEntry) : Bool :=
  directory entry.relativePath == some entry.blobSha256

theorem compare_fold {observed : Observed} {directory : Bytes → Option Bytes}
    (hobs : ∀ path, (observed.find? path).map (·.sha256) = directory path)
    (expected : List ManifestEntry) : ∀ found : Comparison,
    expected.foldl (compareEntry observed) found =
      { missing := found.missing ++
          (expected.filter (isMissing directory)).map (·.relativePath)
        corrupt := found.corrupt ++
          (expected.filter (isCorrupt directory)).map (·.relativePath)
        damaged := found.damaged ++
          (expected.filter (fun e => !isMatching directory e)).map (fun e => ⟨e, []⟩) } := by
  induction expected with
  | nil => intro found; simp
  | cons e rest ih =>
      intro found
      rw [List.foldl_cons, ih, compareEntry]
      have hdir := hobs e.relativePath
      cases hf : observed.find? e.relativePath with
      | none =>
          rw [hf] at hdir
          simp [isMissing, isCorrupt, isMatching, ← hdir]
      | some file =>
          rw [hf] at hdir
          by_cases hs : file.sha256 = e.blobSha256
          · simp [isMissing, isCorrupt, isMatching, ← hdir, hs]
          · simp [isMissing, isCorrupt, isMatching, ← hdir, hs]

/-! ## What is reported -/

/-- What a report says about a directory that should hold `expected`. -/
structure Reports (directory : Bytes → Option Bytes) (paths : List Bytes)
    (expected : List ManifestEntry) (report : IntegrityReport) : Prop where
  missing : report.missing = (expected.filter (isMissing directory)).map (·.relativePath)
  corrupt : report.corrupt = (expected.filter (isCorrupt directory)).map (·.relativePath)
  repair : report.repair.map (fun f => (⟨f.entry, f.copyFromRelativePath⟩ : DeltaFile))
    = (expected.filter (fun e => !isMatching directory e)).map (fun e => ⟨e, []⟩)
  unexpected : report.unexpected.Perm
    (paths.filter (fun path => !(expected.map (·.relativePath)).contains path))
  intact : report.intact = (report.missing.isEmpty && report.corrupt.isEmpty)

section Wp

variable {env : Env} {s : State} {actor : Actor} {buildId : Bytes} {build : BuildOwnership}

/-- **What `verifyInstall` answers** to a report of distinct, valid files. -/
theorem verifyInstall_wp {installed : List InstalledFile}
    (hbuild : MayDownload s actor buildId build) (hr : ∀ f ∈ installed, Reportable f)
    (hnd : (installed.map (·.relativePath)).Nodup)
    (hlen : installed.length ≤ MAX_MANIFEST_ENTRIES) :
    (verifyInstall env actor buildId installed).Wp (exec env) (fun r _ => ∃ report,
      r = .ok report ∧ Reports (reported installed) (installed.map (·.relativePath))
        (s.core.filesFor env.core (uuidOf buildId)) report) s := by
  obtain ⟨b, _, _, hb, _⟩ := State.findOwnership_eq_some.mp hbuild.found
  obtain ⟨observed, hobserved, hindex⟩ := checkInstalled_ok hr hnd hlen
  unfold verifyInstall
  refine Program.wp_bind.mpr (downloadableBuild_wp ?_)
  rw [resolve_eq_ok.mpr hbuild]
  show Program.Wp _ _ (require (checkInstalled installed) >>= _) s
  rw [hobserved]
  intro choice
  rw [show exec env choice (.core (.findBuild (uuidOf buildId))) s = (some b, s) from
    Prod.ext hb s.afterCore_self]
  intro choice' choice''
  refine ⟨_, rfl, ?_⟩
  have hfound := compare_fold hindex (s.core.filesFor env.core (uuidOf buildId)) {}
  refine ⟨?_, ?_, ?_, List.perm_insertionSort _ _, rfl⟩
  · show Comparison.missing (List.foldl _ _ (s.core.filesFor env.core (uuidOf buildId))) = _
    rw [hfound]
    exact List.nil_append _
  · show Comparison.corrupt (List.foldl _ _ (s.core.filesFor env.core (uuidOf buildId))) = _
    rw [hfound]
    exact List.nil_append _
  · show (env.signAll (Comparison.damaged
      (List.foldl _ _ (s.core.filesFor env.core (uuidOf buildId)))) _).map _ = _
    rw [hfound, Env.signAll, List.map_map]
    exact List.map_id _

/-- A report with a file that is not accepted is refused. -/
theorem verifyInstall_refused {installed : List InstalledFile} {e : Error}
    (hbuild : MayDownload s actor buildId build) (he : checkInstalled installed = .error e) :
    (verifyInstall env actor buildId installed).Wp (exec env)
      (fun r _ => r = .error (.refused e)) s := by
  unfold verifyInstall
  refine Program.wp_bind.mpr (downloadableBuild_wp ?_)
  rw [resolve_eq_ok.mpr hbuild]
  show Program.Wp _ _ (require (checkInstalled installed) >>= _) s
  rw [he]
  rfl

end Wp

/-- The install is in order exactly when every file of the manifest is there as it should be. -/
theorem Reports.intact_iff {directory : Bytes → Option Bytes} {paths : List Bytes}
    {expected : List ManifestEntry} {report : IntegrityReport}
    (h : Reports directory paths expected report) :
    report.intact = true ↔
      ∀ e ∈ expected, directory e.relativePath = some e.blobSha256 := by
  rw [h.intact, h.missing, h.corrupt]
  simp only [Bool.and_eq_true, List.isEmpty_iff, List.map_eq_nil_iff, List.filter_eq_nil_iff]
  constructor
  · rintro ⟨hm, hc⟩ e he
    have hm := hm e he
    have hc := hc e he
    cases hd : directory e.relativePath with
    | none => simp [isMissing, hd] at hm
    | some blob =>
        have : blob = e.blobSha256 := by simpa [isCorrupt, hd] using hc
        rw [this]
  · intro hall
    exact ⟨fun e he => by simp [isMissing, hall e he], fun e he => by simp [isCorrupt, hall e he]⟩

/-- `report` has every file of the directory once. -/
structure Lists (report : List InstalledFile) (directory : Bytes → Option Bytes) : Prop where
  once : (report.map (·.relativePath)).Nodup
  exact : ∀ file, file ∈ report ↔ directory file.relativePath = some file.sha256

theorem Lists.reported_eq {report : List InstalledFile} {directory : Bytes → Option Bytes}
    (h : Lists report directory) : reported report = directory := by
  funext path
  cases hf : report.find? (fun f => decide (f.relativePath = path)) with
  | none =>
      rw [reported, hf]
      cases hd : directory path with
      | none => rfl
      | some blob =>
          have hmem := (h.exact ⟨path, blob⟩).mpr hd
          simpa using List.find?_eq_none.mp hf _ hmem
  | some f =>
      have hpath : f.relativePath = path := by simpa using List.find?_some hf
      rw [reported, hf, ← hpath, (h.exact f).mp (List.mem_of_find?_eq_some hf)]
      rfl

theorem Lists.mem_paths {report : List InstalledFile} {directory : Bytes → Option Bytes}
    (h : Lists report directory) {path : Bytes} :
    path ∈ report.map (·.relativePath) ↔ directory path ≠ none := by
  rw [Option.ne_none_iff_exists']
  constructor
  · intro hp
    obtain ⟨f, hf, rfl⟩ := List.mem_map.mp hp
    exact ⟨f.sha256, (h.exact f).mp hf⟩
  · rintro ⟨blob, hb⟩
    exact List.mem_map.mpr ⟨⟨path, blob⟩, (h.exact ⟨path, blob⟩).mpr hb, rfl⟩

/-! ## Every entry once -/

section Partition

variable (directory : Bytes → Option Bytes) (expected : List ManifestEntry)

/-- What is not as it should be is missing or corrupt, and not both. -/
theorem damaged_perm :
    (expected.filter (isMissing directory) ++ expected.filter (isCorrupt directory)).Perm
      (expected.filter (fun e => !isMatching directory e)) := by
  have hcases : ∀ e, (isMissing directory e && !isMatching directory e) = isMissing directory e ∧
      (!isMissing directory e && !isMatching directory e) = isCorrupt directory e := by
    intro e
    unfold isMissing isCorrupt isMatching
    cases hd : directory e.relativePath with
    | none => exact ⟨rfl, rfl⟩
    | some blob => by_cases hb : blob = e.blobSha256 <;> simp [hb, bne]
  have hsplit := List.filter_append_perm (isMissing directory)
    (expected.filter (fun e => !isMatching directory e))
  rw [List.filter_filter, List.filter_filter] at hsplit
  refine List.Perm.trans (List.Perm.of_eq ?_) hsplit
  congr 1
  · exact List.filter_congr (fun e _ => (hcases e).1.symm)
  · exact List.filter_congr (fun e _ => (hcases e).2.symm)

theorem compared_perm :
    (expected.filter (isMissing directory) ++ expected.filter (isCorrupt directory) ++
      expected.filter (isMatching directory)).Perm expected :=
  ((damaged_perm directory expected).append_right _).trans
    (List.perm_append_comm.trans (List.filter_append_perm (isMatching directory) expected))

/-- Writing every damaged file anew, in any order, leaves every file as it should be. -/
theorem run_repair (hnd : (expected.map (·.relativePath)).Nodup)
    {order : List (Plans.Step Bytes (Option Bytes))}
    (horder : order.Perm ((expected.filter (fun e => !isMatching directory e)).map
      (fun e => fetchStep ⟨e, []⟩))) :
    ∀ e ∈ expected, Plans.run directory order e.relativePath = some e.blobSha256 := by
  have htargets : ((expected.filter (fun e => !isMatching directory e)).map
      (fun e => fetchStep ⟨e, []⟩)).map Plans.Step.target
        = (expected.filter (fun e => !isMatching directory e)).map (·.relativePath) := by
    rw [List.map_map]
    rfl
  have hindep : Plans.Independent ((expected.filter (fun e => !isMatching directory e)).map
      (fun e => fetchStep ⟨e, []⟩)) := by
    refine ⟨?_, fun step hstep k hk => ?_⟩
    · rw [htargets]
      exact hnd.sublist (List.filter_sublist.map _)
    · obtain ⟨e, _, rfl⟩ := List.mem_map.mp hstep
      cases hk
  intro e he
  by_cases hm : isMatching directory e = true
  · have hout : e.relativePath ∉ order.map Plans.Step.target := by
      rw [(horder.map Plans.Step.target).mem_iff, htargets]
      intro hmem
      obtain ⟨e', he', hp⟩ := List.mem_map.mp hmem
      obtain ⟨he', hm'⟩ := List.mem_filter.mp he'
      rw [eq_of_path_eq hnd he' he hp, hm] at hm'
      cases hm'
    rw [Plans.run_other directory hout]
    simpa [isMatching] using hm
  · have hstep : fetchStep ⟨e, []⟩ ∈ order := by
      refine horder.mem_iff.mpr (List.mem_map.mpr ⟨e, List.mem_filter.mpr ⟨he, ?_⟩, rfl⟩)
      simpa using hm
    exact Plans.run_of_independent order directory (hindep.perm horder) _ hstep

end Partition

/-! ## The theorem -/

/-- The files of a manifest with other files beside them. -/
def beside (files : List ManifestEntry) (extra : Bytes → Option Bytes) (path : Bytes) :
    Option Bytes :=
  (contents files path).or (extra path)

/-- The build is the same in both states, as far as a check of it can see. -/
structure SameBuild (env : Env) (s s' : State) (id : Uuid) : Prop where
  ownership : s'.core.findOwnership id = s.core.findOwnership id
  files : s'.core.filesFor env.core id = s.core.filesFor env.core id

/-- `verifyInstall`, run alone, accepts the report and answers with `Q`. -/
def Verifies (env : Env) (s : State) (actor : Actor) (buildId : Bytes)
    (report : List InstalledFile) (Q : IntegrityReport → Prop) : Prop :=
  (verifyInstall env actor buildId report).Wp (exec env)
    (fun r _ => ∃ answer, r = .ok answer ∧ Q answer) s

section Agree

variable {env : Env} {s : State} {actor : Actor} {buildId fromBuildId : Bytes}
  {target : BuildOwnership}

/-- The plan replaces the source by the target and leaves what is beside them. -/
theorem run_beside {build : Build} {extra : Bytes → Option Bytes} {now : Nat}
    (hextra : ∀ path, extra path ≠ none →
      path ∉ (s.sourceFiles env actor fromBuildId).map (·.relativePath) ∧
      path ∉ (s.core.filesFor env.core (uuidOf buildId)).map (·.relativePath))
    {order : List (Plans.Step Bytes (Option Bytes))}
    (horder : order.Perm (env.planOf target build
      (env.chooseDelta (s.sourceFiles env actor fromBuildId)
        (s.core.filesFor env.core (uuidOf buildId))) now).steps) :
    Plans.run (beside (s.sourceFiles env actor fromBuildId) extra) order
      = beside (s.core.filesFor env.core (uuidOf buildId)) extra := by
  have hnone : ∀ path, path ∈ (s.sourceFiles env actor fromBuildId).map (·.relativePath) ∨
      path ∈ (s.core.filesFor env.core (uuidOf buildId)).map (·.relativePath) →
      extra path = none := by
    intro path hpath
    by_contra hne
    exact hpath.elim (hextra path hne).1 (hextra path hne).2
  rw [run_planOf (fun path blob hb => by rw [beside, hb, Option.some_or]) now horder]
  funext path
  by_cases ht : path ∈ (s.core.filesFor env.core (uuidOf buildId)).map (·.relativePath)
  · rw [replaced, if_pos ht, beside, hnone path (Or.inr ht), Option.or_none]
  · rw [replaced, if_neg ht, beside, beside, contents_eq_none.mpr ht, Option.none_or]
    by_cases hs : path ∈ (s.sourceFiles env actor fromBuildId).map (·.relativePath)
    · rw [if_pos hs, hnone path (Or.inl hs)]
    · rw [if_neg hs, contents_eq_none.mpr hs, Option.none_or]

theorem SameBuild.mayDownload {s' : State} (h : SameBuild env s s' (uuidOf buildId))
    (hb : MayDownload s actor buildId target) : MayDownload s' actor buildId target :=
  ⟨hb.permitted, hb.isId, h.ownership.trans hb.found, hb.readable, hb.ready⟩

/-- A directory with exactly the target's files and others beside them is in order, and the
others are what is unexpected. -/
theorem verifies_beside {s' : State} {report : List InstalledFile}
    {extra : Bytes → Option Bytes} (htarget : MayDownload s actor buildId target)
    (hsame : SameBuild env s s' (uuidOf buildId))
    (hextra : ∀ path, extra path ≠ none →
      path ∉ (s.core.filesFor env.core (uuidOf buildId)).map (·.relativePath))
    (hlists : Lists report (beside (s.core.filesFor env.core (uuidOf buildId)) extra))
    (hr : ∀ f ∈ report, Reportable f) (hlen : report.length ≤ MAX_MANIFEST_ENTRIES) :
    Verifies env s' actor buildId report (fun answer => answer.intact = true ∧
      answer.missing = [] ∧ answer.corrupt = [] ∧ answer.unexpected.Nodup ∧
      ∀ path, path ∈ answer.unexpected ↔ extra path ≠ none) := by
  refine (verifyInstall_wp (hsame.mayDownload htarget) hr hlists.once hlen).mono ?_
  rintro r _ ⟨answer, hr, hrep⟩
  rw [hlists.reported_eq, hsame.files] at hrep
  have hnd := s.core.filesFor_nodup env.core (uuidOf buildId)
  have hintact : answer.intact = true := hrep.intact_iff.mpr (fun e he => by
    rw [beside, contents_of_mem hnd he, Option.some_or])
  have hempty := hrep.intact.symm.trans hintact
  rw [Bool.and_eq_true, List.isEmpty_iff, List.isEmpty_iff] at hempty
  refine ⟨answer, hr, hintact, hempty.1, hempty.2, ?_, fun path => ?_⟩
  · exact hrep.unexpected.nodup_iff.mpr (hlists.once.filter _)
  · rw [hrep.unexpected.mem_iff, List.mem_filter, hlists.mem_paths]
    simp only [Bool.not_eq_true', List.contains_eq_mem, decide_eq_false_iff_not]
    constructor
    · rintro ⟨hne, hout⟩
      rwa [beside, contents_eq_none.mpr hout, Option.none_or] at hne
    · intro hne
      refine ⟨?_, hextra path hne⟩
      rwa [beside, contents_eq_none.mpr (hextra path hne), Option.none_or]

end Agree

/-- **Plan, apply and verify agree.** With a readable source of the same game, or none: applying
the plan, in any order, to the source's files beside any others and reporting the directory
finds every file of the target in place, and the others unexpected. And every accepted report
is split as it should be: each entry of the manifest is missing, corrupt or matching, the
first two are repaired, and after that the install is in order. -/
theorem plan_apply_verify (env : Env) (s : State) (actor : Actor) (buildId : Bytes)
    (target : BuildOwnership) (htarget : MayDownload s actor buildId target)
    (huser : (s.core.users.find? actor.userId).isNone = false) :
    (∀ fromBuildId, fromBuildId = [] ∨ (∃ source, MayDownload s actor fromBuildId source ∧
        source.gameId = target.gameId) →
      ∀ extra : Bytes → Option Bytes, (∀ path, extra path ≠ none →
        path ∉ (s.sourceFiles env actor fromBuildId).map (·.relativePath) ∧
        path ∉ (s.core.filesFor env.core (uuidOf buildId)).map (·.relativePath)) →
      (plan env actor buildId fromBuildId).Wp (exec env) (fun r _ => ∃ p, r = .ok p ∧
        ∀ order, order.Perm p.steps → ∀ s' report, SameBuild env s s' (uuidOf buildId) →
          Lists report (Plans.run (beside (s.sourceFiles env actor fromBuildId) extra) order) →
          (∀ f ∈ report, Reportable f) → report.length ≤ MAX_MANIFEST_ENTRIES →
          Verifies env s' actor buildId report (fun answer => answer.intact = true ∧
            answer.missing = [] ∧ answer.corrupt = [] ∧ answer.unexpected.Nodup ∧
            ∀ path, path ∈ answer.unexpected ↔ extra path ≠ none)) s) ∧
    ∀ installed : List InstalledFile, (∀ f ∈ installed, Reportable f) →
      (installed.map (·.relativePath)).Nodup → installed.length ≤ MAX_MANIFEST_ENTRIES →
      Verifies env s actor buildId installed (fun answer =>
        let expected := s.core.filesFor env.core (uuidOf buildId)
        (answer.missing ++ answer.corrupt ++
          (expected.filter (isMatching (reported installed))).map (·.relativePath)).Perm
            (expected.map (·.relativePath)) ∧
        (∀ e ∈ expected,
          (e.relativePath ∈ answer.missing ↔ reported installed e.relativePath = none) ∧
          (e.relativePath ∈ answer.corrupt ↔
            ∃ h, reported installed e.relativePath = some h ∧ h ≠ e.blobSha256)) ∧
        (answer.repair.map (·.entry.relativePath)).Perm (answer.missing ++ answer.corrupt) ∧
        (∀ f ∈ answer.repair, f.entry ∈ expected) ∧
        (∀ path, path ∈ answer.unexpected ↔
          path ∈ installed.map (·.relativePath) ∧ path ∉ expected.map (·.relativePath)) ∧
        ∀ order, order.Perm (answer.repair.map
            (fun f => fetchStep ⟨f.entry, f.copyFromRelativePath⟩)) →
          ∀ s' installed', SameBuild env s s' (uuidOf buildId) →
            Lists installed' (Plans.run (reported installed) order) →
            (∀ f ∈ installed', Reportable f) → installed'.length ≤ MAX_MANIFEST_ENTRIES →
            Verifies env s' actor buildId installed' (fun answer => answer.intact = true)) := by
  have hnd := s.core.filesFor_nodup env.core (uuidOf buildId)
  refine ⟨fun fromBuildId hfrom extra hextra => ?_, fun installed hr honce hlen => ?_⟩
  · obtain ⟨build, _, _, hbuild, _⟩ := State.findOwnership_eq_some.mp htarget.found
    have hsource : ∀ o, MayDownload s actor fromBuildId o → o.gameId = target.gameId := by
      intro o ho
      rcases hfrom with rfl | ⟨source, hs, hgame⟩
      · cases ho.isId
      · rw [Option.some.inj (ho.found.symm.trans hs.found), hgame]
    refine (plan_wp env _ htarget hbuild hsource huser).mono (fun r _ h => ⟨_, h.2, ?_⟩)
    intro order horder s' report hsame hlists hr hlen
    rw [run_beside hextra horder] at hlists
    exact verifies_beside htarget hsame (fun path hp => (hextra path hp).2) hlists hr hlen
  · refine (verifyInstall_wp htarget hr honce hlen).mono ?_
    rintro r _ ⟨answer, hr, hrep⟩
    refine ⟨answer, hr, ?_, fun e he => ⟨?_, ?_⟩, ?_, fun f hf => ?_, fun path => ?_, ?_⟩
    · rw [hrep.missing, hrep.corrupt, ← List.map_append, ← List.map_append]
      exact (compared_perm _ _).map _
    · rw [hrep.missing]
      constructor
      · intro hm
        obtain ⟨e', he', hp⟩ := List.mem_map.mp hm
        obtain ⟨he', hm'⟩ := List.mem_filter.mp he'
        rw [← eq_of_path_eq hnd he' he hp]
        simpa [isMissing] using hm'
      · intro hm
        exact List.mem_map_of_mem (List.mem_filter.mpr ⟨he, by simp [isMissing, hm]⟩)
    · rw [hrep.corrupt]
      constructor
      · intro hm
        obtain ⟨e', he', hp⟩ := List.mem_map.mp hm
        obtain ⟨he', hm'⟩ := List.mem_filter.mp he'
        rw [← eq_of_path_eq hnd he' he hp]
        simpa [isCorrupt, Option.any_eq_true] using hm'
      · rintro ⟨h, hd, hne⟩
        exact List.mem_map_of_mem (List.mem_filter.mpr ⟨he, by simp [isCorrupt, hd, hne]⟩)
    · have hpaths := congrArg (List.map (fun f : DeltaFile => f.entry.relativePath)) hrep.repair
      rw [List.map_map, List.map_map] at hpaths
      rw [hrep.missing, hrep.corrupt, ← List.map_append]
      exact (List.Perm.of_eq hpaths).trans ((damaged_perm _ _).map _).symm
    · have hmem := List.mem_map_of_mem (f := fun f : DownloadFile =>
        (⟨f.entry, f.copyFromRelativePath⟩ : DeltaFile)) hf
      rw [hrep.repair] at hmem
      obtain ⟨e, he, heq⟩ := List.mem_map.mp hmem
      have hentry : e = f.entry := congrArg DeltaFile.entry heq
      rw [← hentry]
      exact List.mem_of_mem_filter he
    · rw [hrep.unexpected.mem_iff, List.mem_filter]
      simp
    · intro order horder s' installed' hsame hlists hr' hlen'
      have hsteps := congrArg (List.map fetchStep) hrep.repair
      rw [List.map_map, List.map_map] at hsteps
      have hfixed := run_repair (reported installed) _ hnd (horder.trans (List.Perm.of_eq hsteps))
      refine (verifyInstall_wp (hsame.mayDownload htarget) hr' hlists.once hlen').mono ?_
      rintro r' _ ⟨answer', hr', hrep'⟩
      rw [hlists.reported_eq, hsame.files] at hrep'
      exact ⟨answer', hr', hrep'.intact_iff.mpr hfixed⟩

section Demo

open Launcher.Demo (shaA shaEmpty)
open Storefront.Demo (carol)

/-- One more file with the given path, beside an install. -/
def oneMore (path : Bytes) (p : Bytes) : Option Bytes := if p = path then some shaEmpty else none

theorem oneMore_beside {path : Bytes} (hpath : path ≠ ascii "a") : ∀ p, oneMore path p ≠ none →
    p ∉ (updated.sourceFiles Demo.env carol []).map (·.relativePath) ∧
    p ∉ (updated.core.filesFor Demo.env.core (uuidOf (uuidText 10))).map (·.relativePath) := by
  have hsource : updated.sourceFiles Demo.env carol [] = [] := by decide +kernel
  have hfiles : (updated.core.filesFor Demo.env.core (uuidOf (uuidText 10))).map (·.relativePath)
      = [ascii "a"] := by decide +kernel
  intro p hp
  have hpp : p = path := by
    by_contra hne
    exact hp (if_neg hne)
  rw [hsource, hfiles, hpp]
  exact ⟨by simp, by simpa using hpath⟩

theorem lists_oneMore {path : Bytes} (hpath : path ≠ ascii "a") :
    Lists [⟨ascii "a", shaA⟩, ⟨path, shaEmpty⟩]
      (beside (updated.core.filesFor Demo.env.core (uuidOf (uuidText 10))) (oneMore path)) := by
  have hfiles : updated.core.filesFor Demo.env.core (uuidOf (uuidText 10))
      = [⟨ascii "a", shaA, 1, true⟩] := by decide +kernel
  refine ⟨by simpa using hpath.symm, fun ⟨p, blob⟩ => ?_⟩
  rw [hfiles]
  by_cases ha : ascii "a" = p
  · subst ha
    simp [beside, contents, Ne.symm hpath, eq_comm (a := blob)]
  · simp [beside, contents, oneMore, ha, Ne.symm ha, eq_comm (a := blob)]

/-- carol installs build 10 beside a saved game, and checks the install. -/
theorem plan_apply_verify_firstInstall :
    (plan Demo.env carol (uuidText 10) []).Wp (exec Demo.env) (fun r _ => ∃ p, r = .ok p ∧
      ∀ order : List (Plans.Step Bytes (Option Bytes)), order.Perm p.steps →
        Verifies Demo.env updated carol (uuidText 10)
          [⟨ascii "a", shaA⟩, ⟨ascii "save", shaEmpty⟩] (fun answer => answer.intact = true ∧
            ∀ path, path ∈ answer.unexpected ↔ oneMore (ascii "save") path ≠ none)) updated := by
  have huser : (updated.core.users.find? carol.userId).isNone = false := by decide +kernel
  have hsave : ascii "save" ≠ ascii "a" := by decide
  have hextra := oneMore_beside hsave
  have hagree := (plan_apply_verify Demo.env updated carol (uuidText 10) build10
    mayDownload_build10 huser).1 [] (Or.inl rfl) _ hextra
  obtain ⟨build, _, _, hbuild, _⟩ := State.findOwnership_eq_some.mp mayDownload_build10.found
  have hplan := plan_wp Demo.env [] mayDownload_build10 hbuild
    (fun o ho => by cases ho.isId) huser
  refine (hagree.and hplan).mono ?_
  rintro r _ ⟨⟨p, hp, hverify⟩, _, hr⟩
  obtain rfl : p = _ := Except.ok.inj (hp.symm.trans hr)
  refine ⟨_, hp, fun order horder => ?_⟩
  have hlists := lists_oneMore hsave
  rw [← run_beside hextra horder] at hlists
  refine (hverify order horder updated _ ⟨rfl, rfl⟩ hlists (fun f hf => ?_) (by decide)).mono ?_
  · simp only [List.mem_cons, List.not_mem_nil, or_false] at hf
    rcases hf with rfl | rfl
    · exact ⟨by decide, by decide, by decide +kernel⟩
    · exact ⟨by decide, by decide, by decide +kernel⟩
  · rintro _ _ ⟨answer, hr, hintact, _, _, _, hunexpected⟩
    exact ⟨answer, hr, hintact, hunexpected⟩

/-- A report with a path that is too long is refused. -/
theorem checkInstalled_long {path : Bytes} (hlong : MAX_RELATIVE_PATH_LENGTH < path.length) :
    ∃ e, checkInstalled [⟨ascii "a", shaA⟩, ⟨path, shaEmpty⟩] = .error e := by
  have hfirst : observe Table.empty ⟨ascii "a", shaA⟩
      = .ok (Table.empty.insert ⟨ascii "a", shaA⟩) :=
    observe_ok ⟨by decide, by decide, by decide +kernel⟩ rfl
  have hlen : ¬MAX_MANIFEST_ENTRIES < 2 := by decide
  obtain ⟨e, hsecond⟩ : ∃ e, observe (Table.empty.insert ⟨ascii "a", shaA⟩) ⟨path, shaEmpty⟩
      = .error e := by
    rw [observe, if_pos (by simp [hlong])]
    exact ⟨_, rfl⟩
  refine ⟨e, ?_⟩
  rw [checkInstalled, List.length_cons, List.length_singleton, if_neg hlen, List.foldlM_cons,
    hfirst]
  show (observe _ _ >>= _) = _
  rw [hsecond]
  rfl

theorem not_verifies_long {path : Bytes} (hne : path ≠ ascii "a")
    (hlong : MAX_RELATIVE_PATH_LENGTH < path.length) :
    ¬(plan Demo.env carol (uuidText 10) []).Wp (exec Demo.env) (fun r _ => ∃ p, r = .ok p ∧
      ∀ order, order.Perm p.steps → ∀ report,
        Lists report (Plans.run (beside (updated.sourceFiles Demo.env carol []) (oneMore path))
          order) → report.length ≤ MAX_MANIFEST_ENTRIES →
        Verifies Demo.env updated carol (uuidText 10) report (fun answer =>
          answer.intact = true ∧ answer.missing = [] ∧ answer.corrupt = [] ∧
          ∀ p, p ∈ answer.unexpected ↔ oneMore path p ≠ none)) updated := by
  intro h
  obtain ⟨build, _, _, hbuild, _⟩ := State.findOwnership_eq_some.mp mayDownload_build10.found
  have hplan := plan_wp Demo.env [] mayDownload_build10 hbuild
    (fun o ho => by cases ho.isId) (by decide +kernel)
  obtain ⟨r, _, ⟨p, hp, hverify⟩, _, hr⟩ := (h.and hplan).exists
  obtain rfl : p = _ := Except.ok.inj (hp.symm.trans hr)
  have hlists := lists_oneMore hne
  rw [← run_beside (oneMore_beside hne) (List.Perm.refl _)] at hlists
  have hlen : 2 ≤ MAX_MANIFEST_ENTRIES := by decide
  have haccepted := hverify _ (List.Perm.refl _) _ hlists hlen
  obtain ⟨e, he⟩ := checkInstalled_long hlong
  obtain ⟨r', _, ⟨answer, hr', _⟩, hr''⟩ :=
    (haccepted.and (verifyInstall_refused mayDownload_build10 he)).exists
  rw [hr'] at hr''
  cases hr''

/-- A file name of 1025 bytes. -/
def longName : Bytes := List.replicate 1025 0x61

/-- Beside a file with a long name the report of the install is refused. -/
theorem plan_apply_refused :
    MayDownload updated carol (uuidText 10) build10 ∧
    (∀ path, oneMore longName path ≠ none →
      path ∉ (updated.sourceFiles Demo.env carol []).map (·.relativePath) ∧
      path ∉ (updated.core.filesFor Demo.env.core (uuidOf (uuidText 10))).map
        (·.relativePath)) ∧
    ¬(plan Demo.env carol (uuidText 10) []).Wp (exec Demo.env) (fun r _ => ∃ p, r = .ok p ∧
      ∀ order, order.Perm p.steps → ∀ report,
        Lists report (Plans.run (beside (updated.sourceFiles Demo.env carol []) (oneMore longName))
          order) → report.length ≤ MAX_MANIFEST_ENTRIES →
        Verifies Demo.env updated carol (uuidText 10) report (fun answer =>
          answer.intact = true ∧ answer.missing = [] ∧ answer.corrupt = [] ∧
          ∀ path, path ∈ answer.unexpected ↔ oneMore longName path ≠ none)) updated := by
  have hlong : longName.length = 1025 := List.length_replicate
  have hne : longName ≠ ascii "a" := by
    intro h
    have hlen := congrArg List.length h
    rw [hlong] at hlen
    cases hlen
  exact ⟨mayDownload_build10, oneMore_beside hne, not_verifies_long hne (by rw [hlong]; decide)⟩

end Demo

end Launcher.Storefront
