import Launcher.Invariants.BuildHistory

set_option autoImplicit false

/-! # Ready builds

A build is ready when its manifest has been stored. `Consistent` says what its rows satisfy
then; the document that `manifest` serves is rebuilt from them, and it is the one whose hash
was computed when the build was finalized.

The sizes in that hash were read one statement earlier. If a blob of the manifest is collected
in between and stored again with another declared size, the stored total and hash are those of
the old size: `sizesCurrent` is the condition that this does not happen. -/

namespace Launcher.ReadyBuild

open Launcher.Lib

/-- When a manifest is stored, the blobs it names have the sizes that were read for it. -/
def sizesCurrent (w : Server) : Move → Bool
  | .resume i _ =>
      match w.tasks[i]? with
      | some (.finalizeBuild (.finalize _ _ manifest)) => manifest.files.all (fun f =>
          ((w.shared.blobs.find? f.blobSha256).map
            (fun b => decide (f.sizeBytes = b.sizeBytes))).getD true)
      | _ => true
  | _ => true

/-- What holds of a build once it is ready. -/
structure Consistent (env : Env) (s : State) (build : Build) : Prop where
  distinct : ((s.rowsOf build.id).map (·.relativePath)).Nodup
  paths : ∀ f ∈ s.rowsOf build.id, validateRelativePath f.relativePath = .ok ()
  entrypoint : build.entrypointRelativePath ∈ (s.rowsOf build.id).map (·.relativePath)
  blobs : ∀ f ∈ s.rowsOf build.id, ∃ b ∈ s.blobs, b.sha256 = f.blobSha256
  totalSize : build.totalSizeBytes = ((s.filesFor env build.id).map (·.sizeBytes)).sum
  fileCount : build.fileCount = (s.rowsOf build.id).length
  manifestSha256 : build.manifestSha256 = env.sha256Hex (canonicalManifestDocument
    (s.filesFor env build.id) build.entrypointRelativePath build.defaultLaunchArgs)

/-- The document that `manifest` serves for a build. -/
def document (env : Env) (s : State) (build : Build) : ManifestDocument where
  sha256 := build.manifestSha256
  json := canonicalManifestDocument (s.filesFor env build.id) build.entrypointRelativePath
    build.defaultLaunchArgs

/-! ## A manifest that has just been stored -/

section Stored

variable {env : Env} {s s' : State} {id : Uuid} {row : Build} {records : List BlobRecord}
  {command : FinalizeBuildCommand}

/-- With current sizes and texts that come back unchanged, the stored manifest is the one that
was hashed. -/
theorem storedEntries_eq {files : List ManifestEntry}
    (hjson : ∀ f ∈ files, env.jsonText f.relativePath = f.relativePath)
    (hsizes : ∀ f ∈ files, ∃ b, s.blobs.find? f.blobSha256 = some b ∧ f.sizeBytes = b.sizeBytes) :
    storedEntries env s files = files := by
  refine (List.map_congr_left (fun f hf => ?_)).trans (List.map_id files)
  obtain ⟨b, hb, hsize⟩ := hsizes f hf
  simp [hjson f hf, hb, ← hsize]

theorem consistent_of_stores
    (hjson : ∀ f ∈ command.files, env.jsonText f.relativePath = f.relativePath)
    (hcheck : checkCommand command = .ok ())
    (h : Stores env s id (finalizedManifest env records command) row s')
    (hsizes : ∀ f ∈ (finalizedManifest env records command).files, ∀ b,
      s.blobs.find? f.blobSha256 = some b → f.sizeBytes = b.sizeBytes) :
    Consistent env s' (State.readyBuild (finalizedManifest env records command) row) := by
  have hvalid := checkCommand_ok hcheck
  have hid : row.id = id := Table.key_of_find? h.found
  have hrows : s'.rowsOf row.id
      = command.files.map (fun f => ⟨row.id, f.relativePath, f.blobSha256, f.isExecutable⟩) := by
    rw [hid, h.rows, State.manifestRows, finalizedManifest, List.map_map]
    refine List.map_congr_left (fun f hf => ?_)
    simp [hjson f hf]
  have hpaths : (s'.rowsOf row.id).map (·.relativePath) = command.files.map (·.relativePath) := by
    rw [hrows, List.map_map]
    rfl
  have hperm : (s'.filesFor env row.id).Perm (finalizedManifest env records command).files := by
    have hp := h.filesFor_perm
    rw [storedEntries_eq (fun f hf => ?_) (fun f hf => ?_), ← hid] at hp
    · exact hp
    · obtain ⟨e, he, rfl⟩ := List.mem_map.mp hf
      exact hjson e he
    · obtain ⟨b, hb⟩ := h.held f hf
      exact ⟨b, hb, hsizes f hf b hb⟩
  have hnodup : ((finalizedManifest env records command).files.map (·.relativePath)).Nodup := by
    have he : (finalizedManifest env records command).files.map (·.relativePath)
        = command.files.map (·.relativePath) := by simp [finalizedManifest]
    rw [he]
    exact hvalid.distinct
  refine ⟨s'.rowsOf_nodup row.id, fun f hf => ?_, ?_, fun f hf => ?_, ?_, ?_, ?_⟩
  · obtain ⟨e, he, hpath⟩ := List.mem_map.mp (hpaths ▸ List.mem_map_of_mem hf)
    rw [← hpath]
    exact hvalid.paths e he
  · show trim command.entrypointRelativePath ∈ (s'.rowsOf row.id).map (·.relativePath)
    rw [hpaths]
    exact hvalid.entrypoint_mem
  · have hf' : f ∈ s'.rowsOf id := hid ▸ hf
    rw [h.rows] at hf'
    obtain ⟨e, he, rfl⟩ := List.mem_map.mp hf'
    obtain ⟨b, hb⟩ := h.held e he
    rw [h.blobs]
    exact ⟨b, Table.mem_of_find? hb, Table.key_of_find? hb⟩
  · exact ((hperm.map (·.sizeBytes)).sum_eq).symm
  · show (finalizedManifest env records command).files.length = (s'.rowsOf row.id).length
    rw [hrows]
    simp [finalizedManifest]
  · show env.sha256Hex _ = env.sha256Hex _
    exact congrArg env.sha256Hex (canonicalManifestDocument_congr hperm.symm hnodup _ _)

end Stored

/-! ## Ready builds over a run -/

section Kept

variable {s s' : State} {build : Build}

/-- A ready build that is still there keeps its row and its manifest. -/
theorem kept (env : Env) (h : BuildsKept s s') (hs : Integrity s) (hb : build ∈ s.builds)
    (hr : build.status = .Ready) {build' : Build} (hb' : build' ∈ s'.builds)
    (hid : build'.id = build.id) :
    build' = build ∧ s'.rowsOf build.id = s.rowsOf build.id ∧
      s'.filesFor env build.id = s.filesFor env build.id := by
  have hiss := hs.issuedBuilds build hb
  have hfind := Table.find?_of_mem hb
  have hfind' : s'.builds.find? build.id = some build' :=
    Table.find?_eq_some.mpr ⟨hb', hid⟩
  have hrows := h.rows build.id hiss build build' hfind hr hfind'
  refine ⟨?_, hrows, filesFor_congr env hrows
    (h.blobs build.id hiss build build' hfind hr hfind')⟩
  obtain ⟨x, hx, he⟩ := h.builds build.id hiss build' hfind'
  have hxb : x = build := Option.some.inj (hx.symm.trans hfind)
  rw [he (hxb ▸ hr), hxb]

theorem Consistent.kept {env : Env} (hc : Consistent env s build)
    (hrows : s'.rowsOf build.id = s.rowsOf build.id)
    (hfiles : s'.filesFor env build.id = s.filesFor env build.id) (hs' : Integrity s') :
    Consistent env s' build where
  distinct := s'.rowsOf_nodup build.id
  paths := by rw [hrows]; exact hc.paths
  entrypoint := by rw [hrows]; exact hc.entrypoint
  blobs f hf := hs'.blobs f (State.mem_rowsOf.mp hf).1
  totalSize := by rw [hfiles]; exact hc.totalSize
  fileCount := by rw [hrows]; exact hc.fileCount
  manifestSha256 := by rw [hfiles]; exact hc.manifestSha256

end Kept

def AllConsistent (env : Env) (s : State) : Prop :=
  ∀ build ∈ s.builds, build.status = .Ready → Consistent env s build

/-- A step after which every ready build was ready before. -/
theorem allConsistent_of_kept {env : Env} {s s' : State} (h : AllConsistent env s)
    (hs : Integrity s) (hs' : Integrity s') (hk : BuildsKept s s')
    (hold : ∀ b ∈ s'.builds, b.status = .Ready → b ∈ s.builds) : AllConsistent env s' := by
  intro build hb hr
  obtain ⟨_, hrows, hfiles⟩ := kept env hk hs (hold build hb hr) hr hb rfl
  exact (h build (hold build hb hr) hr).kept hrows hfiles hs'

theorem sizes_of_sizesCurrent {w : Server} {i : Nat} {choice : Choice} {build : BuildOwnership}
    {command : FinalizeBuildCommand} {manifest : FinalizedManifest}
    (hi : w.tasks[i]? = some (.finalizeBuild (.finalize build command manifest)))
    (hA : sizesCurrent w (.resume i choice) = true) :
    ∀ f ∈ manifest.files, ∀ b, w.shared.blobs.find? f.blobSha256 = some b →
      f.sizeBytes = b.sizeBytes := by
  intro f hf b hb
  simp only [sizesCurrent, hi] at hA
  have hall := List.all_eq_true.mp hA f hf
  simpa [hb] using hall

/-- The step of `finalizeBuild`. -/
theorem finalize_consistent {env : Env} (hjson : ∀ text, env.jsonText text = text) {w : Server}
    {i : Nat} {choice : Choice} {build : BuildOwnership} {command : FinalizeBuildCommand}
    {manifest : FinalizedManifest} (hs : Integrity w.shared) (h : AllConsistent env w.shared)
    (hi : w.tasks[i]? = some (.finalizeBuild (.finalize build command manifest)))
    (hA : sizesCurrent w (.resume i choice) = true)
    (ht : Finalizing env (.finalizeBuild (.finalize build command manifest))) :
    (Task.next env (.finalizeBuild (.finalize build command manifest))).Wp (exec env) choice
      w.shared (fun s' _ => AllConsistent env s') := by
  refine ((Task.next_buildsKept env choice hs _).and (next_finalize_stores env choice hs build command manifest)).mono (fun s' t' h' => ?_)
  obtain ⟨⟨hs', hk⟩, ⟨rfl, _⟩ | ⟨row, hst, _⟩⟩ := h'
  · exact h
  · obtain ⟨hcheck, records, _, rfl⟩ := ht
    intro b hb hr
    rw [hst.builds] at hb
    obtain ⟨x, hx, hid, rfl⟩ | ⟨hb, hne⟩ := Table.mem_modify.mp hb
    · have hxr : x = row := Table.eq_of_key_eq hx (Table.mem_of_find? hst.found)
        (hid.trans (Table.key_of_find? hst.found).symm)
      rw [hxr]
      exact consistent_of_stores (fun f _ => hjson _) hcheck hst (sizes_of_sizesCurrent hi hA)
    · have hb' : b ∈ s'.builds := by
        rw [hst.builds]
        exact Table.mem_modify.mpr (Or.inr ⟨hb, hne⟩)
      obtain ⟨_, hrows, hfiles⟩ := kept env hk hs hb hr hb' rfl
      exact (h b hb hr).kept hrows hfiles hs'

theorem consistent_run {env : Env} (hjson : ∀ text, env.jsonText text = text) {w : Server}
    (hw : Initial w) (ls : List Move)
    (hok : (server env).Along (fun w l => sizesCurrent w l = true) w ls) :
    AllConsistent env ((server env).run w ls).shared := by
  refine (System.pool_invariant (S := server env)
    (G := fun s => Integrity s ∧ AllConsistent env s) (L := fun _ t => Finalizing env t)
    (fun r s _ => entry_finalizing env r) (fun w i choice t hG hL hi hA => ?_) (fun e s h => ?_)
    ls w ⟨Integrity.initial hw, fun b hb => ?_⟩ (fun j t hj => ?_) hok).1.2
  · obtain ⟨hs, hc⟩ := hG
    have hkept := t.next_buildsKept env choice hs
    have hcons : (t.next env).Wp (exec env) choice w.shared
        (fun s' _ => AllConsistent env s') := by
      by_cases hf : ∃ build command manifest, t = .finalizeBuild (.finalize build command manifest)
      · obtain ⟨build, command, manifest, rfl⟩ := hf
        exact finalize_consistent hjson hs hc hi hA (hL i _ hi)
      · push Not at hf
        exact (hkept.and (Task.next_notReady hf)).mono
          (fun s' t' h => allConsistent_of_kept hc hs h.1.1 h.1.2 h.2)
    refine (hkept.and (hcons.and (next_finalizing (hL i t hi)))).mono (fun s' t' h => ?_)
    exact ⟨⟨h.1.1, h.2.1⟩, h.2.2, fun j t'' _ hj => hL j t'' hj⟩
  · refine ⟨⟨h.1.outside e, allConsistent_of_kept h.2 h.1 (h.1.outside e)
      (buildsKept_outside e s) (fun b hb _ => ?_)⟩, fun _ ht => ht⟩
    cases e <;> exact hb
  · rw [hw.builds] at hb
    cases hb
  · rw [hw.tasks] at hj
    cases hj

/-! ## The served document -/

/-- A `manifest` request between its statements: the build it is about is ready or gone, and
the row it holds is the build's row as long as that is there. -/
def Serving (s : State) : Task → Prop
  | .manifest (.findBuild id) => id ∈ s.issued ∧
      ∀ b, s.builds.find? id = some b → b.status = .Ready
  | .manifest (.filesFor build) => build.id ∈ s.issued ∧
      ∀ b, s.builds.find? build.id = some b → b = build ∧ b.status = .Ready
  | _ => True

theorem Serving.kept {s s' : State} (hk : BuildsKept s s') {t : Task} (h : Serving s t) :
    Serving s' t := by
  have hsame : ∀ id ∈ s.issued, (∀ b, s.builds.find? id = some b → b.status = .Ready) →
      ∀ b', s'.builds.find? id = some b' → s.builds.find? id = some b' := by
    intro id hid hready b' hb'
    obtain ⟨b, hb, he⟩ := hk.builds id hid b' hb'
    rw [hb, he (hready b hb)]
  cases t with
  | manifest t =>
      cases t with
      | findBuild id =>
          exact ⟨hk.issued id h.1, fun b' hb' => h.2 b' (hsame id h.1 h.2 b' hb')⟩
      | filesFor build =>
          exact ⟨hk.issued build.id h.1, fun b' hb' =>
            h.2 b' (hsame build.id h.1 (fun b hb => (h.2 b hb).2) b' hb')⟩
      | _ => trivial
  | _ => trivial

theorem next_serving {env : Env} {choice : Choice} {s : State} (hs : Integrity s) {t : Task}
    (h : Serving s t) : (t.next env).Wp (exec env) choice s (fun s' t' => Serving s' t') := by
  by_cases hk : t.kind = .manifest
  · cases t with
    | manifest t =>
        rw [Task.next, Suspended.wp_map]
        cases t with
        | answered result => trivial
        | findOwnership actor buildId =>
            intro r s' e
            cases e
            cases ho : s.findOwnership buildId with
            | none => trivial
            | some ownership =>
                obtain ⟨b, _, _, hb, _, _, he⟩ := State.findOwnership_eq_some.mp ho
                have hst : ownership.status = b.status := by rw [he]
                have hid : b.id = buildId := Table.key_of_find? hb
                show Serving s (.manifest (if !mayReadBuild ownership actor then _
                  else if ownership.status ≠ .Ready then _ else .findBuild buildId))
                split
                · trivial
                · split
                  · trivial
                  · rename_i hready
                    refine ⟨hid ▸ hs.issuedBuilds b (Table.mem_of_find? hb), fun b' hb' => ?_⟩
                    rw [Option.some.inj (hb'.symm.trans hb), ← hst]
                    exact not_not.mp hready
        | findBuild buildId =>
            intro r s' e
            cases e
            cases hb : s.builds.find? buildId with
            | none => trivial
            | some build =>
                have hid : build.id = buildId := Table.key_of_find? hb
                refine ⟨hid ▸ h.1, fun b hb' => ?_⟩
                rw [hid, hb] at hb'
                cases hb'
                exact ⟨rfl, h.2 build hb⟩
        | filesFor build =>
            intro r s' _
            trivial
    | _ => cases hk
  · refine (t.next_keeps env choice s).mono (fun s' t' hs' => ?_)
    cases t' with
    | manifest t' => exact absurd hs'.2.symm hk
    | _ => trivial

theorem serving_run (env : Env) {w : Server} (hw : Initial w) (ls : List Move) :
    ∀ (i : Nat) t, ((server env).run w ls).tasks[i]? = some t →
      Serving ((server env).run w ls).shared t := by
  refine (System.pool_invariant (S := server env) (G := Integrity) (L := Serving)
    (A := fun _ _ => True) (fun r s _ => ?_) (fun w i choice t hs hL hi _ => ?_)
    (fun e s hs => ⟨hs.outside e, fun t h => h.kept (buildsKept_outside e s)⟩) ls w
    (Integrity.initial hw) (fun j t hj => ?_) (System.along_true w ls)).2
  · cases r with
    | manifest actor buildId =>
        simp only [server, entry, manifest]
        split
        · trivial
        · split <;> trivial
    | _ => trivial
  · refine ((t.next_buildsKept env choice hs).and (next_serving hs (hL i t hi))).mono
      (fun s' t' h => ⟨h.1.1, h.2, fun j t'' _ hj => (hL j t'' hj).kept h.1.2⟩)
  · rw [hw.tasks] at hj
    cases hj

/-- A `manifest` request that ends while the build is there returns the build's document. -/
theorem served_document {env : Env} {w : Server} {i : Nat} {build b : Build} (choice : Choice)
    (hi : w.tasks[i]? = some (.manifest (.filesFor build)))
    (h : Serving w.shared (.manifest (.filesFor build))) (hb : b ∈ w.shared.builds)
    (hid : b.id = build.id) :
    ((server env).step w (.resume i choice)).tasks[i]?
      = some (.manifest (.answered (.ok (document env w.shared b)))) := by
  have hlt : i < w.tasks.length := (List.getElem?_eq_some_iff.mp hi).1
  have hbb : b = build := (h.2 b (Table.find?_eq_some.mpr ⟨hb, hid⟩)).1
  subst hbb
  rw [System.step_resume (server env) hi rfl]
  exact List.getElem?_set_self hlt

/-! ## At most one `finalizeBuild` for each build -/

/-- The build that a step makes ready. -/
def finalizedAt (env : Env) (w : Server) : Move → List Uuid
  | .resume i _ =>
      match w.tasks[i]? with
      | some (.finalizeBuild (.finalize build _ manifest)) =>
          match (w.shared.finalizeBuild env build.buildId manifest).1 with
          | .ok (some _) => [build.buildId]
          | _ => []
      | _ => []
  | _ => []

/-- The build was finalized: it is ready or gone. -/
def Settled (s : State) (id : Uuid) : Prop :=
  id ∈ s.issued ∧ ∀ b, s.builds.find? id = some b → b.status = .Ready

theorem Settled.kept {s s' : State} (hk : BuildsKept s s') {id : Uuid} (h : Settled s id) :
    Settled s' id := by
  refine ⟨hk.issued id h.1, fun b' hb' => ?_⟩
  obtain ⟨b, hb, he⟩ := hk.builds id h.1 b' hb'
  rw [he (h.2 b hb)]
  exact h.2 b hb

theorem finalizedAt_cases (env : Env) {w : Server} (l : Move) (hs : Integrity w.shared) :
    finalizedAt env w l = [] ∨ ∃ id, finalizedAt env w l = [id] ∧ ¬Settled w.shared id ∧
      Settled ((server env).step w l).shared id := by
  cases l with
  | request r => exact Or.inl rfl
  | outside e => exact Or.inl rfl
  | resume i choice =>
      by_cases hf : ∃ build command manifest,
          w.tasks[i]? = some (.finalizeBuild (.finalize build command manifest))
      · obtain ⟨build, command, manifest, hi⟩ := hf
        simp only [finalizedAt, hi]
        rw [System.step_resume (server env) hi rfl]
        obtain ⟨r, hc, hne⟩ | ⟨row, _, hb, hu, _, _, _, _, _, hc⟩ :=
          w.shared.finalizeBuild_cases env build.buildId manifest
        · rw [hc]
          left
          rcases r with e | (_ | x)
          · rfl
          · rfl
          · exact absurd rfl (hne x)
        · right
          have hiss := hs.issuedBuilds row (Table.mem_of_find? hb)
          have hid : row.id = build.buildId := Table.key_of_find? hb
          refine ⟨build.buildId, by rw [hc], fun h => ?_, ?_⟩
          · have hr := h.2 row hb
            rw [hu] at hr
            cases hr
          · show Settled (w.shared.finalizeBuild env build.buildId manifest).2 build.buildId
            rw [hc]
            refine ⟨hid ▸ hiss, fun b hb' => ?_⟩
            have hb'' : (w.shared.builds.modify build.buildId
                ⟨State.readyBuild manifest, fun _ => rfl⟩).find? build.buildId = some b := hb'
            rw [Table.find?_modify_self, hb, Option.map_some, Option.some.injEq] at hb''
            rw [← hb'']
            rfl
      · left
        push Not at hf
        simp only [finalizedAt]

theorem finalized_once (env : Env) {w : Server} (hw : Initial w) (ls : List Move) :
    ((server env).collect (finalizedAt env) w ls).Nodup := by
  have h := System.history_invariant (S := server env) (f := finalizedAt env)
    (I := fun (w' : Server) ids => Integrity w'.shared ∧ ids.Nodup ∧
      ∀ id ∈ ids, Settled w'.shared id) (A := fun _ _ => True)
    (fun w' ids l h _ => ?_) ls w [] ⟨Integrity.initial hw, List.nodup_nil, fun _ h => by cases h⟩
    (System.along_true w ls)
  · simpa using h.2.1
  · obtain ⟨hs, hnd, hset⟩ := h
    have hkept : ∀ id, Settled w'.shared id → Settled ((server env).step w' l).shared id :=
      fun id h => h.kept (buildsKept_run env hs [l])
    refine ⟨hs.run_from env [l], ?_, fun id hid => ?_⟩
    · obtain he | ⟨id, he, hn, _⟩ := finalizedAt_cases env l hs
      · rw [he, List.append_nil]
        exact hnd
      · rw [he]
        refine List.nodup_append.mpr ⟨hnd, List.nodup_singleton id, fun a ha b hb hab => hn ?_⟩
        rw [← List.mem_singleton.mp hb, ← hab]
        exact hset a ha
    · rcases List.mem_append.mp hid with hid | hid
      · exact hkept id (hset id hid)
      · obtain he | ⟨id', he, _, hset'⟩ := finalizedAt_cases env l hs
        · rw [he] at hid
          cases hid
        · rw [he] at hid
          rw [List.mem_singleton.mp hid]
          exact hset'

/-! ## The theorem -/

/-- A step of a `finalizeBuild` that does not end in success changes nothing. -/
theorem failed_unchanged (env : Env) {w : Server} {i : Nat} {t : FinalizeBuild} (choice : Choice)
    (hs : Integrity w.shared) (hi : w.tasks[i]? = some (.finalizeBuild t))
    (hfail : ∀ b, ((server env).step w (.resume i choice)).tasks[i]?
      ≠ some (.finalizeBuild (.answered (.ok b)))) :
    ((server env).step w (.resume i choice)).shared = w.shared := by
  have hlt : i < w.tasks.length := (List.getElem?_eq_some_iff.mp hi).1
  refine System.step_induction (S := server env) (w := w) (l := .resume i choice)
    (P := fun w' : Server => (∀ b, w'.tasks[i]? ≠ some (.finalizeBuild (.answered (.ok b)))) →
      w'.shared = w.shared) (fun r he => by cases he) (fun j choice' t' he hj => ?_) (fun _ => rfl)
    (fun e he => by cases he) hfail
  cases he
  cases hi.symm.trans hj
  have hwp : (Task.next env (.finalizeBuild t)).Wp (exec env) choice w.shared (fun s' t' =>
      s' = w.shared ∨ ∃ b, t' = .finalizeBuild (.answered (.ok b))) := by
    cases t with
    | finalize build command manifest =>
        refine (next_finalize_stores env choice hs build command manifest).mono (fun s' t' h => ?_)
        obtain ⟨rfl, _⟩ | ⟨_, _, ht'⟩ := h
        · exact Or.inl rfl
        · exact Or.inr ⟨_, ht'⟩
    | findOwnership actor buildId command =>
        intro r s' e
        cases e
        exact Or.inl rfl
    | findMany build command =>
        intro r s' e
        cases e
        exact Or.inl rfl
    | answered result => trivial
    | threw error => trivial
  refine hwp.mono (fun s' t' h hno => h.resolve_right ?_)
  rintro ⟨b, rfl⟩
  exact hno b (List.getElem?_set_self hlt)

/-- **Ready builds.** In every run in which no blob changes its size between being looked up
for a manifest and the manifest being stored: every ready build is consistent; whatever
happens next, every request for its manifest that ends while it exists gets the same document;
a `finalizeBuild` that fails changes nothing; and no build is finalized twice. -/
theorem ready_builds (env : Env) (hjson : ∀ text, env.jsonText text = text) (w : Server)
    (hw : Initial w) (ls : List Move)
    (hok : (server env).Along (fun w l => sizesCurrent w l = true) w ls) :
    (∀ build ∈ ((server env).run w ls).shared.builds, build.status = .Ready →
      Consistent env ((server env).run w ls).shared build ∧
      ∀ (ls' : List Move) (i : Nat) (choice : Choice) (b b' : Build),
        ((server env).run w (ls ++ ls')).tasks[i]? = some (.manifest (.filesFor b)) →
        b.id = build.id → b' ∈ ((server env).run w (ls ++ ls')).shared.builds →
        b'.id = build.id →
        ((server env).step ((server env).run w (ls ++ ls')) (.resume i choice)).tasks[i]?
          = some (.manifest (.answered (.ok
              (document env ((server env).run w ls).shared build))))) ∧
    (∀ (i : Nat) (t : FinalizeBuild) (choice : Choice),
      ((server env).run w ls).tasks[i]? = some (.finalizeBuild t) →
      (∀ b, ((server env).step ((server env).run w ls) (.resume i choice)).tasks[i]?
        ≠ some (.finalizeBuild (.answered (.ok b)))) →
      ((server env).step ((server env).run w ls) (.resume i choice)).shared.builds
          = ((server env).run w ls).shared.builds ∧
        ((server env).step ((server env).run w ls) (.resume i choice)).shared.buildFiles
          = ((server env).run w ls).shared.buildFiles) ∧
    ((server env).collect (finalizedAt env) w ls).Nodup := by
  have hs := Integrity.run env hw ls
  refine ⟨fun build hb hr => ⟨consistent_run hjson hw ls hok build hb hr, ?_⟩,
    fun i t choice hi hfail => ?_, finalized_once env hw ls⟩
  · intro ls' i choice b b' hi hid hb' hid'
    have hserving := serving_run env hw (ls ++ ls') i _ hi
    rw [served_document choice hi hserving hb' (hid'.trans hid.symm)]
    rw [System.run_append] at hb' ⊢
    obtain ⟨rfl, _, hfiles⟩ := kept env (buildsKept_run env hs ls') hs hb hr hb' hid'
    unfold document
    rw [hfiles]
  · have h := failed_unchanged env choice hs hi hfail
    exact ⟨by rw [h], by rw [h]⟩

section Demo

open Launcher.Demo

/-- The document of a build of the one file `a` with `contentA`, with a size of one digit. -/
def documentA (size : UInt8) : Bytes :=
  ascii "\x7b\"schema\":1,\"entrypoint\":\"a\",\"launchArgs\":\"\",\"files\":[" ++
    ascii "\x7b\"path\":\"a\",\"sha256\":\"" ++ shaA ++ ascii "\",\"size\":" ++ [0x30 + size] ++
    ascii ",\"executable\":false\x7d]\x7d"

/-- With the SHA-256 of `documentA 1` and `documentA 2`. -/
def documentEnv : Env := { Demo.env with
  sha256Hex := fun content =>
    if content = documentA 1 then
      ascii "4f32d9dd250c8a1e1a70443cfe01ebccbb6b92ae57ca6b44f73ba05cd632d36c"
    else if content = documentA 2 then
      ascii "cef13313a034d65578f03208a40d8bbe927cc20c9be1de68c46e418dabe503e4"
    else Demo.env.sha256Hex content }

/-- Task `i` finalizes build 10 with the file `a` and stops after `n` calls. -/
def finalizing (i n : Nat) : List Move :=
  .request (.finalizeBuild alice (uuidText 10)
    ⟨[⟨ascii "a", shaA, 0, false⟩], ascii "a", []⟩) :: go i n

/-- Alice uploads `contentA` and finalizes the build. -/
def published : List Move := stored ++ finalizing 3 3

theorem ready_builds_published :
    Initial start ∧
    (∃ build ∈ ((server documentEnv).run start published).shared.builds, build.status = .Ready ∧
      Consistent documentEnv ((server documentEnv).run start published).shared build) ∧
    (server documentEnv).collect (finalizedAt documentEnv) start published = [10] ∧
    ((server documentEnv).collect (finalizedAt documentEnv) start published).Nodup := by
  obtain ⟨hbuilds, _, honce⟩ := ready_builds documentEnv (fun _ => rfl) start initial_start
    published (by decide +kernel)
  have hready : ∃ build ∈ ((server documentEnv).run start published).shared.builds.rows,
      build.status = .Ready := by decide +kernel
  obtain ⟨build, hb, hr⟩ := hready
  exact ⟨initial_start, ⟨build, hb, hr, (hbuilds build hb hr).1⟩, by decide +kernel, honce⟩

/-- The blob of `contentA` is recorded with size 2. Task 5 finalizes the build and has read
that size when a collector pass removes the blob and alice uploads `contentA` again, now with
size 1; then task 5 stores its manifest. -/
def resized : List Move :=
  completedShort ++ after 20 ++ finalizing 5 2 ++ .request .collectUnreferencedBlobs :: go 6 4
    ++ uploadedA 7 alice 21 ++ go 5 1

/-- The build is ready with a total of 2 bytes and the hash of a manifest that says 2; its one
blob has 1, and so has the manifest that is served. -/
theorem resized_inconsistent :
    Initial start ∧ (∀ text, documentEnv.jsonText text = text) ∧
    ∃ build ∈ ((server documentEnv).run start resized).shared.builds, build.status = .Ready ∧
      build.totalSizeBytes ≠ ((((server documentEnv).run start resized).shared.filesFor
        documentEnv build.id).map (·.sizeBytes)).sum ∧
      build.manifestSha256 ≠ documentEnv.sha256Hex (canonicalManifestDocument
        (((server documentEnv).run start resized).shared.filesFor documentEnv build.id)
        build.entrypointRelativePath build.defaultLaunchArgs) := by
  refine ⟨initial_start, fun _ => rfl, ?_⟩
  have h : ∃ build ∈ ((server documentEnv).run start resized).shared.builds.rows,
      build.status = .Ready ∧
      build.totalSizeBytes ≠ ((((server documentEnv).run start resized).shared.filesFor
        documentEnv build.id).map (·.sizeBytes)).sum ∧
      build.manifestSha256 ≠ documentEnv.sha256Hex (canonicalManifestDocument
        (((server documentEnv).run start resized).shared.filesFor documentEnv build.id)
        build.entrypointRelativePath build.defaultLaunchArgs) := by decide +kernel
  exact h

end Demo

end Launcher.ReadyBuild
