import Launcher.Server.System

set_option autoImplicit false

/-! # What the constraints of the schema keep

The foreign keys of `build_files`, and that ids are drawn only once: invariants of the tables
that every statement keeps, so they hold in every state of every run without any condition. -/

namespace Launcher

open Launcher.Lib

structure Integrity (s : State) : Prop where
  /-- `build_files.blob_sha256 REFERENCES blobs ON DELETE RESTRICT`. -/
  blobs : ∀ f ∈ s.buildFiles, ∃ b ∈ s.blobs, b.sha256 = f.blobSha256
  /-- `build_files.build_id REFERENCES builds`; and only a ready build has files. -/
  builds : ∀ f ∈ s.buildFiles, ∃ b ∈ s.builds, b.id = f.buildId ∧ b.status = .Ready
  issuedBuilds : ∀ b ∈ s.builds, b.id ∈ s.issued
  issuedSessions : ∀ u ∈ s.sessions, u.id ∈ s.issued

namespace Integrity

variable {s : State}

theorem recordBlob (h : Integrity s) (b : BlobRow) :
    Integrity { s with blobs := s.blobs.insert b } where
  blobs f hf := by
    obtain ⟨x, hx, hk⟩ := h.blobs f hf
    exact ⟨x, Table.mem_insert_of_mem hx, hk⟩
  builds := h.builds
  issuedBuilds := h.issuedBuilds
  issuedSessions := h.issuedSessions

/-- The delete is restricted to blobs no manifest names. -/
theorem deleteIfUnreferenced (h : Integrity s) {sha256 : Bytes} {age : Nat} {b : BlobRow}
    (hb : s.blobs.find? sha256 = some b) (hc : s.isCollectable age b = true) :
    Integrity { s with blobs := s.blobs.delete (fun r => decide (r.sha256 = sha256)) } where
  blobs f hf := by
    obtain ⟨x, hx, hk⟩ := h.blobs f hf
    refine ⟨x, Table.mem_delete.mpr ⟨hx, ?_⟩, hk⟩
    have hne := ((s.isCollectable_iff age b).mp hc).2.1 f hf
    rw [Table.key_of_find? hb] at hne
    simpa [hk] using hne
  builds := h.builds
  issuedBuilds := h.issuedBuilds
  issuedSessions := h.issuedSessions

theorem insertSession (h : Integrity s) (row : UploadSessionRow) :
    Integrity { s with
      sessions := s.sessions.insert row
      issued := row.id :: s.issued } where
  blobs := h.blobs
  builds := h.builds
  issuedBuilds b hb := List.mem_cons_of_mem _ (h.issuedBuilds b hb)
  issuedSessions u hu := by
    rcases Table.eq_or_mem_of_mem_insert hu with rfl | hu
    · exact List.mem_cons_self
    · exact List.mem_cons_of_mem _ (h.issuedSessions u hu)

theorem modifySession (h : Integrity s) (id : Uuid) (f : Table.Update UploadSessionRow.id) :
    Integrity { s with sessions := s.sessions.modify id f } where
  blobs := h.blobs
  builds := h.builds
  issuedBuilds := h.issuedBuilds
  issuedSessions u hu := by
    obtain ⟨u', hu', _, rfl⟩ | ⟨hu', _⟩ := Table.mem_modify.mp hu
    · rw [f.2]
      exact h.issuedSessions u' hu'
    · exact h.issuedSessions u hu'

theorem deleteSession (h : Integrity s) (p : UploadSessionRow → Bool) :
    Integrity { s with sessions := s.sessions.delete p } where
  blobs := h.blobs
  builds := h.builds
  issuedBuilds := h.issuedBuilds
  issuedSessions u hu := h.issuedSessions u (Table.mem_delete.mp hu).1

theorem createBuild (h : Integrity s) (b : Build) :
    Integrity { s with
      builds := s.builds.insert b
      issued := b.id :: s.issued } where
  blobs := h.blobs
  builds f hf := by
    obtain ⟨x, hx, hk⟩ := h.builds f hf
    exact ⟨x, Table.mem_insert_of_mem hx, hk⟩
  issuedBuilds x hx := by
    rcases Table.eq_or_mem_of_mem_insert hx with rfl | hx
    · exact List.mem_cons_self
    · exact List.mem_cons_of_mem _ (h.issuedBuilds x hx)
  issuedSessions u hu := List.mem_cons_of_mem _ (h.issuedSessions u hu)

theorem finalizeBuild (h : Integrity s) {env : Env} {buildId : Uuid}
    {manifest : FinalizedManifest} {build : Build} {buildFiles : Table BuildFileRow.key}
    (hb : s.builds.find? buildId = some build)
    (hfk : ∀ f ∈ State.manifestRows env buildId manifest.files,
      ∃ b, s.blobs.find? f.blobSha256 = some b)
    (hi : s.buildFiles.insertAll (State.manifestRows env buildId manifest.files)
      = some buildFiles) :
    Integrity { s with
      builds := s.builds.modify buildId ⟨State.readyBuild manifest, fun _ => rfl⟩
      buildFiles := buildFiles } where
  blobs f hf := by
    rcases (Table.mem_insertAll hi f).mp hf with hf | hf
    · obtain ⟨b, hb⟩ := hfk f hf
      exact ⟨b, Table.mem_of_find? hb, Table.key_of_find? hb⟩
    · exact h.blobs f hf
  builds f hf := by
    have hid : build.id = buildId := Table.key_of_find? hb
    have hready : State.readyBuild manifest build
        ∈ s.builds.modify buildId ⟨State.readyBuild manifest, fun _ => rfl⟩ :=
      Table.mem_modify.mpr (Or.inl
        ⟨build, Table.mem_of_find? hb, hid, rfl⟩)
    rcases (Table.mem_insertAll hi f).mp hf with hf | hf
    · obtain ⟨e, _, rfl⟩ := List.mem_map.mp hf
      exact ⟨_, hready, hid, rfl⟩
    · obtain ⟨x, hx, hk, hr⟩ := h.builds f hf
      by_cases hxb : x.id = buildId
      · exact ⟨_, hready, hid.trans (hxb.symm.trans hk), rfl⟩
      · exact ⟨x, Table.mem_modify.mpr (Or.inr ⟨hx, hxb⟩), hk, hr⟩
  issuedBuilds x hx := by
    obtain ⟨y, hy, _, rfl⟩ | ⟨hx, _⟩ := Table.mem_modify.mp hx
    · exact h.issuedBuilds y hy
    · exact h.issuedBuilds x hx
  issuedSessions := h.issuedSessions

theorem markFailed (h : Integrity s) {buildId : Uuid} {build : Build}
    (hb : s.builds.find? buildId = some build) (hr : build.status ≠ .Ready) :
    Integrity { s with
      builds := s.builds.modify buildId
        ⟨fun b => { b with status := .Failed }, fun _ => rfl⟩ } where
  blobs := h.blobs
  builds f hf := by
    obtain ⟨x, hx, hk, hs⟩ := h.builds f hf
    refine ⟨x, Table.mem_modify.mpr (Or.inr ⟨hx, fun e => hr ?_⟩), hk, hs⟩
    rw [Table.eq_of_key_eq (Table.mem_of_find? hb) hx ((Table.key_of_find? hb).trans e.symm)]
    exact hs
  issuedBuilds x hx := by
    obtain ⟨y, hy, _, rfl⟩ | ⟨hx, _⟩ := Table.mem_modify.mp hx
    · exact h.issuedBuilds y hy
    · exact h.issuedBuilds x hx
  issuedSessions := h.issuedSessions

/-- The cascade takes a build's files with it. -/
theorem cascadeBuilds (h : Integrity s) (doomed : Build → Bool) :
    Integrity (s.cascadeBuilds doomed) where
  blobs f hf := h.blobs f (Table.mem_delete.mp hf).1
  builds f hf := by
    obtain ⟨hf, hgone⟩ := Table.mem_delete.mp hf
    obtain ⟨x, hx, hk, hr⟩ := h.builds f hf
    refine ⟨x, Table.mem_delete.mpr ⟨hx, ?_⟩, hk, hr⟩
    have hfind : s.builds.find? f.buildId = some x := hk ▸ Table.find?_of_mem hx
    simpa [hfind] using hgone
  issuedBuilds b hb := h.issuedBuilds b (Table.mem_delete.mp hb).1
  issuedSessions u hu := h.issuedSessions u (Table.mem_delete.mp hu).1

theorem cascadeVersions (h : Integrity s) (doomed : GameVersion → Bool) :
    Integrity (s.cascadeVersions doomed) := by
  have hc := h.cascadeBuilds (fun b => ((s.versions.find? b.gameVersionId).map doomed).getD false)
  exact ⟨hc.blobs, hc.builds, hc.issuedBuilds, hc.issuedSessions⟩

/-- Every call keeps the constraints. -/
theorem exec (env : Env) {α : Type} (choice : Choice) (c : Call α) (h : Integrity s) :
    Integrity (Launcher.exec env choice c s).2 := by
  by_cases hw : c.writesBlobs = true ∨ c.writesSessions = true ∨ c.writesBuilds = true
  · cases c with
    | recordBlob sha256 size key userId =>
        obtain ⟨_, _, e⟩ | ⟨_, e⟩ := s.recordBlob_cases sha256 size key userId <;>
          simp only [Launcher.exec, e]
        · exact h
        · exact h.recordBlob _
    | deleteIfUnreferenced sha256 age =>
        obtain e | ⟨b, hb, hc, e⟩ := s.deleteIfUnreferenced_cases sha256 age <;>
          simp only [Launcher.exec, e]
        · exact h
        · exact h.deleteIfUnreferenced hb hc
    | insertSession session =>
        obtain e | ⟨_, _, _, e⟩ := s.insertSession_cases choice session <;>
          simp only [Launcher.exec, e]
        · exact h
        · exact h.insertSession (s.newSessionRow choice.uuid session)
    | reserveBytes id offset count =>
        obtain e | ⟨_, _, _, _, _, _, e⟩ := s.reserveBytes_cases id offset count <;>
          simp only [Launcher.exec, e]
        · exact h
        · exact h.modifySession id _
    | markCompleted id =>
        obtain e | ⟨_, _, _, e⟩ := s.closeSession_cases id .Completed <;>
          simp only [Launcher.exec, e]
        · exact h
        · exact h.modifySession id _
    | markAborted id =>
        obtain e | ⟨_, _, _, e⟩ := s.closeSession_cases id .Aborted <;>
          simp only [Launcher.exec, e]
        · exact h
        · exact h.modifySession id _
    | deleteSession id => exact h.deleteSession _
    | createBuild build =>
        obtain e | ⟨_, e⟩ := s.createBuild_cases choice build <;> simp only [Launcher.exec, e]
        · exact h
        · exact h.createBuild (State.newBuildRow choice.uuid build)
    | finalizeBuild id manifest =>
        obtain ⟨_, e, _⟩ | ⟨_, _, hb, _, _, _, _, hfk, hi, e⟩ :=
          s.finalizeBuild_cases env id manifest <;> simp only [Launcher.exec, e]
        · exact h
        · exact h.finalizeBuild hb hfk hi
    | markFailed id =>
        obtain e | ⟨_, hb, hr, e⟩ := s.markFailed_cases id <;> simp only [Launcher.exec, e]
        · exact h
        · exact h.markFailed hb hr
    | removeBuild id => exact h.cascadeBuilds _
    | removeVersion id => exact h.cascadeVersions _
    | removeGame id =>
        have hc := h.cascadeVersions (fun v => decide (v.gameId = id))
        exact ⟨hc.blobs, hc.builds, hc.issuedBuilds, hc.issuedSessions⟩
    | _ => simp [Call.writesBlobs, Call.writesSessions, Call.writesBuilds] at hw
  · have hf := exec_frame env choice c s
    push Not at hw
    have hb := hf.blobs (by simpa using hw.1)
    have hu := hf.sessions (by simpa using hw.2.1)
    have hx := hf.builds (by simpa using hw.2.2)
    have hxf := hf.buildFiles (by simpa using hw.2.2)
    have hi : (Launcher.exec env choice c s).2.issued = s.issued := by
      refine hf.issued ?_
      cases c <;> first | rfl | simp [Call.writesSessions, Call.writesBuilds] at hw
    exact ⟨by rw [hb, hxf]; exact h.blobs, by rw [hx, hxf]; exact h.builds,
      by rw [hx, hi]; exact h.issuedBuilds, by rw [hu, hi]; exact h.issuedSessions⟩

theorem outside (e : Outside) (h : Integrity s) : Integrity (Launcher.outside e s) := by
  cases e <;> exact ⟨h.blobs, h.builds, h.issuedBuilds, h.issuedSessions⟩

theorem initial {w : Server} (h : Initial w) : Integrity w.shared where
  blobs f hf := by rw [h.buildFiles] at hf; cases hf
  builds f hf := by rw [h.buildFiles] at hf; cases hf
  issuedBuilds b hb := by rw [h.builds] at hb; cases hb
  issuedSessions u hu := by rw [h.sessions] at hu; cases hu

theorem run_from (env : Env) {w : Server} (h : Integrity w.shared) (ls : List Move) :
    Integrity ((server env).run w ls).shared :=
  System.shared_invariant (fun choice c _ h => h.exec env choice c)
    (fun e _ h => h.outside e) ls w h

/-- **The constraints hold in every state of every run.** -/
theorem run (env : Env) {w : Server} (hw : Initial w) (ls : List Move) :
    Integrity ((server env).run w ls).shared :=
  (initial hw).run_from env ls

end Integrity

end Launcher
