import Launcher.Invariants.Finalizing
import Launcher.Invariants.Reservation

set_option autoImplicit false

/-! # What happens to a build over a run

A build is created once, becomes ready at most once, and from then on its row, the rows of its
manifest and the blobs these name stay as they are until it is deleted (`BuildsKept`). A ready
build that was not ready before comes from a `finalize` statement (`Task.next_ready`), and the
rows it stores are the rows of the manifest (`finalize_rows`). -/

namespace Launcher

open Launcher.Lib

/-- The rows of `build_files` of one build. -/
def State.rowsOf (s : State) (buildId : Uuid) : List BuildFileRow :=
  s.buildFiles.rows.filter (fun f => decide (f.buildId = buildId))

theorem State.mem_rowsOf {s : State} {buildId : Uuid} {f : BuildFileRow} :
    f ∈ s.rowsOf buildId ↔ f ∈ s.buildFiles ∧ f.buildId = buildId := by
  rw [rowsOf, List.mem_filter, decide_eq_true_eq, Table.mem_def]

/-- The paths of one build are distinct. -/
theorem State.rowsOf_nodup (s : State) (buildId : Uuid) :
    ((s.rowsOf buildId).map (·.relativePath)).Nodup := by
  have hkeys : ((s.rowsOf buildId).map BuildFileRow.key).Nodup :=
    s.buildFiles.nodup.sublist (List.filter_sublist.map _)
  have hpair : (s.rowsOf buildId).map BuildFileRow.key
      = ((s.rowsOf buildId).map (·.relativePath)).map (fun p => (buildId, p)) := by
    rw [List.map_map]
    refine List.map_congr_left (fun f hf => ?_)
    show (f.buildId, f.relativePath) = (buildId, f.relativePath)
    rw [(mem_rowsOf.mp hf).2]
  rw [hpair] at hkeys
  exact hkeys.of_map _

/-! ## A ready build stays as it is -/

/-- Between `s` and `s'`: a build with an issued id was there before, and if it was ready, its
row, its manifest and the blobs of its manifest are unchanged. -/
structure BuildsKept (s s' : State) : Prop where
  issued : ∀ id ∈ s.issued, id ∈ s'.issued
  builds : ∀ id ∈ s.issued, ∀ b', s'.builds.find? id = some b' →
    ∃ b, s.builds.find? id = some b ∧ (b.status = .Ready → b' = b)
  rows : ∀ id ∈ s.issued, ∀ b b', s.builds.find? id = some b → b.status = .Ready →
    s'.builds.find? id = some b' → s'.rowsOf id = s.rowsOf id
  blobs : ∀ id ∈ s.issued, ∀ b b', s.builds.find? id = some b → b.status = .Ready →
    s'.builds.find? id = some b' →
    ∀ f ∈ s.rowsOf id, s'.blobs.find? f.blobSha256 = s.blobs.find? f.blobSha256

theorem BuildsKept.refl (s : State) : BuildsKept s s where
  issued _ h := h
  builds _ _ b h := ⟨b, h, fun _ => rfl⟩
  rows _ _ _ _ _ _ _ := rfl
  blobs _ _ _ _ _ _ _ _ _ := rfl

theorem BuildsKept.trans {s s' s'' : State} (h : BuildsKept s s') (h' : BuildsKept s' s'') :
    BuildsKept s s'' := by
  -- in the middle state the build is there, and it is ready if it was
  have hmid : ∀ id ∈ s.issued, ∀ b b'', s.builds.find? id = some b → b.status = .Ready →
      s''.builds.find? id = some b'' → s'.builds.find? id = some b := by
    intro id hid b b'' hb hr hb''
    obtain ⟨b', hb', _⟩ := h'.builds id (h.issued id hid) b'' hb''
    obtain ⟨x, hx, he⟩ := h.builds id hid b' hb'
    have hxb : x = b := Option.some.inj (hx.symm.trans hb)
    subst hxb
    rw [hb', he hr]
  refine ⟨fun id hid => h'.issued id (h.issued id hid), fun id hid b'' hb'' => ?_,
    fun id hid b b'' hb hr hb'' => ?_, fun id hid b b'' hb hr hb'' f hf => ?_⟩
  · obtain ⟨b', hb', he'⟩ := h'.builds id (h.issued id hid) b'' hb''
    obtain ⟨b, hb, he⟩ := h.builds id hid b' hb'
    refine ⟨b, hb, fun hr => ?_⟩
    have hbb : b' = b := he hr
    rw [he' (hbb ▸ hr), hbb]
  · have hb' := hmid id hid b b'' hb hr hb''
    rw [h'.rows id (h.issued id hid) b b'' hb' hr hb'', h.rows id hid b b hb hr hb']
  · have hb' := hmid id hid b b'' hb hr hb''
    have hf' : f ∈ s'.rowsOf id := by rw [h.rows id hid b b hb hr hb']; exact hf
    rw [h'.blobs id (h.issued id hid) b b'' hb' hr hb'' f hf', h.blobs id hid b b hb hr hb' f hf]

/-- The manifest that `filesFor` reads is the same. -/
theorem filesFor_congr (env : Env) {s s' : State} {id : Uuid} (hrows : s'.rowsOf id = s.rowsOf id)
    (hblobs : ∀ f ∈ s.rowsOf id, s'.blobs.find? f.blobSha256 = s.blobs.find? f.blobSha256) :
    s'.filesFor env id = s.filesFor env id := by
  have hjoin : (s'.rowsOf id).filterMap s'.joinBlob = (s.rowsOf id).filterMap s.joinBlob := by
    rw [hrows]
    refine List.filterMap_congr (fun f hf => ?_)
    unfold State.joinBlob
    rw [hblobs f hf]
  exact congrArg (List.insertionSort _) hjoin

section Statements

variable {s s' : State}

/-- Statements that leave `builds` and `build_files` alone. -/
theorem buildsKept_of_blobs (hi : ∀ id ∈ s.issued, id ∈ s'.issued) (hb : s'.builds = s.builds)
    (hf : s'.buildFiles = s.buildFiles)
    (hblobs : ∀ f ∈ s.buildFiles, s'.blobs.find? f.blobSha256 = s.blobs.find? f.blobSha256) :
    BuildsKept s s' := by
  refine ⟨hi, fun id _ b' h => ⟨b', hb ▸ h, fun _ => rfl⟩, fun id _ b b' _ _ _ => ?_,
    fun id _ b b' _ _ _ f hmem => hblobs f (State.mem_rowsOf.mp hmem).1⟩
  unfold State.rowsOf
  rw [hf]

/-- Statements that rewrite the row of a build that is not ready, and may add manifest rows
for it. -/
theorem buildsKept_of_modify {id : Uuid} {build : Build} {f : Table.Update Build.id}
    (hb : s.builds.find? id = some build) (hn : build.status ≠ .Ready)
    (hi : s'.issued = s.issued) (hs : s'.builds = s.builds.modify id f)
    (hrows : ∀ id' ≠ id, s'.rowsOf id' = s.rowsOf id') (hblobs : s'.blobs = s.blobs) :
    BuildsKept s s' := by
  have hother : ∀ id' b, s.builds.find? id' = some b → b.status = .Ready → id' ≠ id := by
    intro id' b hb' hr he
    rw [he] at hb'
    exact hn (Option.some.inj (hb.symm.trans hb') ▸ hr)
  refine ⟨fun _ h => hi ▸ h, fun id' _ b' hb' => ?_, fun id' _ b b' hb' hr _ => ?_,
    fun id' _ b b' hb' hr _ x hx => by rw [hblobs]⟩
  · rw [hs, Table.find?_modify] at hb'
    by_cases he : id' = id
    · subst he
      exact ⟨build, hb, fun hr => absurd hr hn⟩
    · rw [if_neg he] at hb'
      exact ⟨b', hb', fun _ => rfl⟩
  · exact hrows id' (hother id' b hb' hr)

/-- Statements that delete builds with everything below them. -/
theorem buildsKept_of_cascade {doomed : Build → Bool} (hi : s'.issued = s.issued)
    (hb : s'.builds = (s.cascadeBuilds doomed).builds)
    (hf : s'.buildFiles = (s.cascadeBuilds doomed).buildFiles) (hblobs : s'.blobs = s.blobs) :
    BuildsKept s s' := by
  refine ⟨fun _ h => hi ▸ h, fun id _ b' hb' => ?_, fun id _ b b' hbid _ hb' => ?_,
    fun id _ b b' _ _ _ f _ => by rw [hblobs]⟩
  · rw [hb] at hb'
    exact ⟨b', (Table.find?_delete.mp hb').1, fun _ => rfl⟩
  · rw [hb] at hb'
    have hkept : doomed b' = false := (Table.find?_delete.mp hb').2
    have hbb : b = b' := Option.some.inj (hbid.symm.trans (Table.find?_delete.mp hb').1)
    unfold State.rowsOf
    rw [hf]
    show (s.buildFiles.rows.filter _).filter _ = _
    rw [List.filter_filter]
    refine List.filter_congr (fun f _ => ?_)
    by_cases hid : f.buildId = id
    · simp [hid, hbid, hbb, hkept]
    · simp [hid]

/-- A new build has a new id. -/
theorem buildsKept_of_insert (row : Build) (hid : row.id ∉ s.issued) :
    BuildsKept s { s with
      builds := s.builds.insert row
      issued := row.id :: s.issued } := by
  refine ⟨fun _ h => List.mem_cons_of_mem _ h, fun id h b' hb' => ?_, fun _ _ _ _ _ _ _ => rfl,
    fun _ _ _ _ _ _ _ _ _ => rfl⟩
  have hne : id ≠ row.id := fun e => hid (e ▸ h)
  have hb : (s.builds.insert row).find? id = some b' := hb'
  rw [Table.find?_insert_ne hne] at hb
  exact ⟨b', hb, fun _ => rfl⟩

/-- The rows of other builds are not touched when `rs` are added for `id`. -/
theorem rowsOf_insertAll (s' : State) {id : Uuid} {rs : List BuildFileRow} {t : Table BuildFileRow.key}
    (h : s.buildFiles.insertAll rs = some t) (hrs : ∀ f ∈ rs, f.buildId = id)
    (hs : s'.buildFiles = t) :
    (∀ id' ≠ id, s'.rowsOf id' = s.rowsOf id') ∧ s'.rowsOf id = rs ++ s.rowsOf id := by
  have hrows : s'.buildFiles.rows = rs ++ s.buildFiles.rows := by
    rw [hs]
    exact Table.insertAll_rows h
  refine ⟨fun id' hne => ?_, ?_⟩
  · unfold State.rowsOf
    rw [hrows, List.filter_append, List.filter_eq_nil_iff.mpr, List.nil_append]
    intro f hf
    rw [decide_eq_true_eq, hrs f hf]
    exact Ne.symm hne
  · unfold State.rowsOf
    rw [hrows, List.filter_append, List.filter_eq_self.mpr]
    intro f hf
    exact decide_eq_true (hrs f hf)

end Statements

theorem manifestRows_buildId {env : Env} {id : Uuid} {files : List ManifestEntry} :
    ∀ f ∈ State.manifestRows env id files, f.buildId = id := by
  intro f hf
  obtain ⟨e, _, rfl⟩ := List.mem_map.mp hf
  rfl

theorem buildsKept_exec (env : Env) {α : Type} (choice : Choice) (c : Call α) {s : State}
    (h : Integrity s) : BuildsKept s (exec env choice c s).2 := by
  have hf := exec_frame env choice c s
  have hissued := (Reservation.evolves_exec env choice c s).issued
  by_cases hw : c.writesBlobs = true ∨ c.writesBuilds = true
  · cases c with
    | recordBlob sha256 size key userId =>
        refine buildsKept_of_blobs hissued (hf.builds rfl) (hf.buildFiles rfl) (fun f hmem => ?_)
        obtain ⟨_, _, e⟩ | ⟨hnone, e⟩ := s.recordBlob_cases sha256 size key userId
        · rw [exec, e]
        · rw [exec, e]
          refine Table.find?_insert_ne (fun he => ?_)
          obtain ⟨b, hb, hk⟩ := h.blobs f hmem
          have hsome := Table.find?_of_mem hb
          rw [hk, he] at hsome
          cases hnone.symm.trans hsome
    | deleteIfUnreferenced sha256 age =>
        refine buildsKept_of_blobs hissued (hf.builds rfl) (hf.buildFiles rfl) (fun f hmem => ?_)
        obtain e | ⟨b, hb, hc, e⟩ := s.deleteIfUnreferenced_cases sha256 age
        · rw [exec, e]
        · rw [exec, e]
          have hne : f.blobSha256 ≠ sha256 := by
            have hne := ((s.isCollectable_iff age b).mp hc).2.1 f hmem
            rwa [Table.key_of_find? hb] at hne
          refine Option.ext (fun x => ?_)
          rw [Table.find?_delete]
          refine ⟨fun hx => hx.1, fun hx => ⟨hx, decide_eq_false ?_⟩⟩
          rw [Table.key_of_find? hx]
          exact hne
    | createBuild build =>
        obtain e | ⟨hid, e⟩ := s.createBuild_cases choice build
        · rw [exec, e]
          exact BuildsKept.refl s
        · rw [exec, e]
          exact buildsKept_of_insert (State.newBuildRow choice.uuid build) hid
    | finalizeBuild id manifest =>
        obtain ⟨_, e, _⟩ | ⟨build, t, hb, hu, _, _, _, _, hi, e⟩ :=
          s.finalizeBuild_cases env id manifest
        · rw [exec, e]
          exact BuildsKept.refl s
        · rw [exec, e]
          refine buildsKept_of_modify hb (by rw [hu]; decide) rfl rfl ?_ rfl
          exact (rowsOf_insertAll _ hi manifestRows_buildId rfl).1
    | markFailed id =>
        obtain e | ⟨build, hb, hr, e⟩ := s.markFailed_cases id
        · rw [exec, e]
          exact BuildsKept.refl s
        · rw [exec, e]
          exact buildsKept_of_modify hb hr rfl rfl (fun _ _ => rfl) rfl
    | removeBuild id => exact buildsKept_of_cascade rfl rfl rfl rfl
    | removeVersion id => exact buildsKept_of_cascade rfl rfl rfl rfl
    | removeGame id => exact buildsKept_of_cascade rfl rfl rfl rfl
    | _ => simp [Call.writesBlobs, Call.writesBuilds] at hw
  · push Not at hw
    refine buildsKept_of_blobs hissued (hf.builds (by simpa using hw.2))
      (hf.buildFiles (by simpa using hw.2)) (fun f _ => ?_)
    rw [hf.blobs (by simpa using hw.1)]

theorem Task.next_buildsKept (env : Env) (choice : Choice) {s : State} (h : Integrity s)
    (t : Task) : (t.next env).Wp (exec env) choice s
      (fun s' _ => Integrity s' ∧ BuildsKept s s') :=
  Suspended.wp_of_exec (G := fun s' => Integrity s' ∧ BuildsKept s s')
    (fun c => ⟨h.exec env choice c, buildsKept_exec env choice c h⟩) _

theorem buildsKept_outside (e : Outside) (s : State) : BuildsKept s (outside e s) := by
  cases e <;> exact buildsKept_of_blobs (fun _ h => h) rfl rfl (fun _ _ => rfl)

/-- **A ready build stays as it is until it is deleted**, over any run. -/
theorem buildsKept_run (env : Env) {w : Server} (h : Integrity w.shared) (ls : List Move) :
    BuildsKept w.shared ((server env).run w ls).shared :=
  System.shared_relation (S := server env) (G := Integrity) BuildsKept.refl
    (fun _ _ _ h h' => h.trans h')
    (fun choice c _ h => ⟨h.exec env choice c, buildsKept_exec env choice c h⟩)
    (fun e s h => ⟨h.outside e, buildsKept_outside e s⟩) ls w h

/-! ## How a build becomes ready -/

section Ready

variable {env : Env} {choice : Choice} {s : State}

/-- No coroutine but `finalizeBuild` makes a build ready. -/
theorem Task.next_notReady {t : Task}
    (h : ∀ build command manifest, t ≠ .finalizeBuild (.finalize build command manifest)) :
    (t.next env).Wp (exec env) choice s
      (fun s' _ => ∀ b ∈ s'.builds, b.status = .Ready → b ∈ s.builds) := by
  by_cases hk : t.kind.writesBuilds = true
  · cases t with
    | finalizeBuild t =>
        rw [Task.next, Suspended.wp_map]
        cases t with
        | finalize build command manifest => exact absurd rfl (h build command manifest)
        | answered result => trivial
        | threw error => trivial
        | _ =>
            intro r s' e b hb _
            cases e
            exact hb
    | createBuild t =>
        rw [Task.next, Suspended.wp_map]
        cases t with
        | findGame actor gameId command =>
            intro r s' e b hb _
            unfold Catalog.findGame at e
            split at e <;> cases e <;> exact hb
        | findVersion game command =>
            intro r s' e b hb _
            cases e
            exact hb
        | createBuild build =>
            intro r s' e b hb hr
            have hs : s' = (s.createBuild choice build).2 := (congrArg Prod.snd e).symm
            obtain hc | ⟨_, hc⟩ := s.createBuild_cases choice build <;> rw [hs, hc] at hb
            · exact hb
            · rcases Table.eq_or_mem_of_mem_insert hb with rfl | hb
              · cases hr
              · exact hb
        | _ => trivial
    | deleteBuild t =>
        rw [Task.next, Suspended.wp_map]
        cases t with
        | findOwnership actor buildId =>
            intro r s' e b hb _
            cases e
            exact hb
        | removeBuild buildId =>
            intro r s' e b hb _
            cases e
            exact (Table.mem_delete.mp hb).1
        | answered result => trivial
    | deleteVersion t =>
        rw [Task.next, Suspended.wp_map]
        cases t with
        | findGame actor gameId versionId =>
            intro r s' e b hb _
            unfold Catalog.findGame at e
            split at e <;> cases e <;> exact hb
        | findVersion game versionId =>
            intro r s' e b hb _
            cases e
            exact hb
        | removeVersion versionId =>
            intro r s' e b hb _
            cases e
            exact (Table.mem_delete.mp hb).1
        | answered result => trivial
    | deleteGame t =>
        rw [Task.next, Suspended.wp_map]
        cases t with
        | findGame actor idOrSlug =>
            intro r s' e b hb _
            unfold Catalog.findGame at e
            split at e <;> cases e <;> exact hb
        | removeGame gameId =>
            intro r s' e b hb _
            cases e
            exact (Table.mem_delete.mp hb).1
        | answered result => trivial
    | markFailed buildId =>
        intro r s' e b hb hr
        obtain hc | ⟨_, _, _, hc⟩ := s.markFailed_cases buildId <;> cases hc.symm.trans e
        · exact hb
        · obtain ⟨x, _, _, rfl⟩ | ⟨hb, _⟩ := Table.mem_modify.mp hb
          · cases hr
          · exact hb
    | markedFailed marked => trivial
    | _ => cases hk
  · refine (t.next_keeps env choice s).mono (fun s' t' hs b hb _ => ?_)
    rw [hs.1.builds (by simpa using hk)] at hb
    exact hb

/-- What a `finalize` that succeeds does: the build `row` was uploading and becomes ready, and
exactly the rows of the manifest are added. -/
structure Stores (env : Env) (s : State) (id : Uuid) (manifest : FinalizedManifest) (row : Build)
    (s' : State) : Prop where
  found : s.builds.find? id = some row
  uploading : row.status = .Uploading
  held : ∀ f ∈ manifest.files, ∃ b, s.blobs.find? f.blobSha256 = some b
  safe : ∀ f ∈ manifest.files, State.relativePathSafe (env.jsonText f.relativePath) = true
  blobs : s'.blobs = s.blobs
  builds : s'.builds = s.builds.modify id ⟨State.readyBuild manifest, fun _ => rfl⟩
  others : ∀ id' ≠ id, s'.rowsOf id' = s.rowsOf id'
  rows : s'.rowsOf id = State.manifestRows env id manifest.files

/-- A build that is not ready has no manifest. -/
theorem rowsOf_eq_nil (h : Integrity s) {id : Uuid} {row : Build}
    (hb : s.builds.find? id = some row) (hn : row.status ≠ .Ready) : s.rowsOf id = [] := by
  refine List.eq_nil_iff_forall_not_mem.mpr (fun f hf => ?_)
  obtain ⟨hf, hid⟩ := State.mem_rowsOf.mp hf
  obtain ⟨b, hmem, hk, hr⟩ := h.builds f hf
  have hbr : b = row := Table.eq_of_key_eq hmem (Table.mem_of_find? hb)
    ((hk.trans hid).trans (Table.key_of_find? hb).symm)
  exact hn (hbr ▸ hr)

/-- **The statement of `finalizeBuild`.** It changes nothing and the request fails, or it
stores the manifest and the request succeeds. -/
theorem next_finalize_stores (env : Env) (choice : Choice) (h : Integrity s)
    (build : BuildOwnership) (command : FinalizeBuildCommand) (manifest : FinalizedManifest) :
    (Task.next env (.finalizeBuild (.finalize build command manifest))).Wp (exec env) choice s
      (fun s' t' =>
        (s' = s ∧ ∀ b, t' ≠ .finalizeBuild (.answered (.ok b))) ∨
        ∃ row, Stores env s build.buildId manifest row s' ∧
          t' = .finalizeBuild (.answered (.ok (State.readyBuild manifest row)))) := by
  intro r s' e
  obtain ⟨r', hc, hne⟩ | ⟨row, t, hb, hu, _, _, hsafe, hfk, hi, hc⟩ :=
    s.finalizeBuild_cases env build.buildId manifest
  · cases hc.symm.trans e
    refine Or.inl ⟨rfl, fun b => ?_⟩
    rcases r with err | (_ | x)
    · simp
    · simp [failure]
    · exact absurd rfl (hne x)
  · cases hc.symm.trans e
    obtain ⟨hothers, hrows⟩ := rowsOf_insertAll { s with
      builds := s.builds.modify build.buildId ⟨State.readyBuild manifest, fun _ => rfl⟩
      buildFiles := t } hi manifestRows_buildId rfl
    rw [rowsOf_eq_nil h hb (by rw [hu]; decide), List.append_nil] at hrows
    refine Or.inr ⟨row, ⟨hb, hu, fun f hf => ?_, fun f hf => ?_, rfl, rfl, hothers, hrows⟩, rfl⟩
    · exact hfk _ (List.mem_map_of_mem hf)
    · exact hsafe _ (List.mem_map_of_mem hf)

/-- The entries of the manifest as the tables hold them: the paths as they were stored, the
sizes of the blobs' rows. -/
def storedEntries (env : Env) (s : State) (files : List ManifestEntry) : List ManifestEntry :=
  files.map (fun f =>
    { relativePath := env.jsonText f.relativePath, blobSha256 := f.blobSha256
      sizeBytes := (((s.blobs.find? f.blobSha256).map (·.sizeBytes)).getD 0 : Nat)
      isExecutable := f.isExecutable })

theorem Stores.filesFor_perm {s' : State} {id : Uuid} {manifest : FinalizedManifest} {row : Build}
    (h : Stores env s id manifest row s') :
    (s'.filesFor env id).Perm (storedEntries env s manifest.files) := by
  have hjoin : (s'.rowsOf id).filterMap s'.joinBlob = storedEntries env s manifest.files := by
    rw [h.rows, State.manifestRows, storedEntries, List.filterMap_map,
      ← List.filterMap_eq_map]
    refine List.filterMap_congr (fun f hf => ?_)
    obtain ⟨b, hb⟩ := h.held f hf
    simp [State.joinBlob, h.blobs, hb]
  have hperm := List.perm_insertionSort
    (fun a b : ManifestEntry => env.collation a.relativePath b.relativePath = true)
    ((s'.rowsOf id).filterMap s'.joinBlob)
  rw [hjoin] at hperm
  exact hjoin ▸ hperm

end Ready

end Launcher
