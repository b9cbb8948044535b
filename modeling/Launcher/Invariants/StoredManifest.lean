import Launcher.Lib.Utf8
import Launcher.Invariants.ReadyBuild

set_option autoImplicit false

/-! # The manifest that is stored

The paths of a manifest go two ways: byte by byte into the canonical document, which is hashed,
and through a JSON writer and `jsonb` into `build_files`. The checks in front of both look at
bytes and let any byte from 0x20 on pass. The JSON writer writes a malformed UTF-8 sequence as
U+FFFD, so the two agree exactly on paths that are valid UTF-8. -/

namespace Launcher.StoredManifest

open Launcher.Lib

/-- What a publisher submits of a file; its size comes from the store. -/
def submitted (f : ManifestEntry) : Bytes × Bytes × Bool :=
  (f.relativePath, f.blobSha256, f.isExecutable)

/-- The JSON writer and `->>`: valid UTF-8 comes back as it is, and only valid UTF-8 comes
back. -/
structure JsonText (env : Env) : Prop where
  faithful : ∀ text, Utf8.valid text = true → env.jsonText text = text
  valid : ∀ text, Utf8.valid (env.jsonText text) = true

theorem submitted_storedEntries (env : Env) (s : State) (records : List BlobRecord)
    (command : FinalizeBuildCommand) :
    (storedEntries env s (finalizedManifest env records command).files).map submitted
      = command.files.map (fun f => (env.jsonText f.relativePath, f.blobSha256, f.isExecutable)) := by
  simp [storedEntries, finalizedManifest, submitted, Function.comp_def]

/-- The stored triples are the submitted ones exactly when no path is changed. -/
theorem triples_iff {env : Env} (hj : JsonText env) {files : List ManifestEntry} :
    (files.map (fun f => (env.jsonText f.relativePath, f.blobSha256, f.isExecutable))).Perm
      (files.map submitted) ↔ ∀ f ∈ files, Utf8.valid f.relativePath = true := by
  constructor
  · intro h f hf
    have hmem := h.mem_iff.mpr (List.mem_map_of_mem (f := submitted) hf)
    obtain ⟨g, _, hg⟩ := List.mem_map.mp hmem
    have hpath : env.jsonText g.relativePath = f.relativePath := congrArg Prod.fst hg
    rw [← hpath]
    exact hj.valid g.relativePath
  · intro h
    refine List.Perm.of_eq (List.map_congr_left (fun f hf => ?_))
    rw [hj.faithful _ (h f hf)]
    rfl

section Success

variable {env : Env} {w : Server} {ls : List Move} {i : Nat} {choice : Choice}
  {build : BuildOwnership} {command : FinalizeBuildCommand} {manifest : FinalizedManifest}
  {row : Build}

/-- A `finalizeBuild` that succeeds has stored its manifest. -/
theorem stores_of_success (hw : Initial w)
    (hi : ((server env).run w ls).tasks[i]?
      = some (.finalizeBuild (.finalize build command manifest)))
    (hsucc : ((server env).run w (ls ++ [.resume i choice])).tasks[i]?
      = some (.finalizeBuild (.answered (.ok row)))) :
    ∃ old, Stores env ((server env).run w ls).shared build.buildId manifest old
        ((server env).run w (ls ++ [.resume i choice])).shared ∧
      row = State.readyBuild manifest old := by
  have hs := Integrity.run env hw ls
  rw [System.run_append, System.run_cons, System.run_nil] at hsucc ⊢
  obtain ⟨t', ht', h⟩ := System.step_resumed (S := server env) choice hi (fun h => by cases h)
    (next_finalize_stores env choice hs build command manifest)
  cases ht'.symm.trans hsucc
  obtain ⟨_, hne⟩ | ⟨old, hst, he⟩ := h
  · exact absurd rfl (hne row)
  · cases he
    exact ⟨old, hst, rfl⟩

/-- While the build exists, it is the row that was stored and has the manifest that was
stored. -/
theorem stored_later (hw : Initial w) {old : Build}
    (h : Stores env ((server env).run w ls).shared build.buildId manifest old
      ((server env).run w (ls ++ [.resume i choice])).shared) (ls' : List Move) {b : Build}
    (hb : b ∈ ((server env).run w (ls ++ .resume i choice :: ls')).shared.builds)
    (hid : b.id = build.buildId) :
    b = State.readyBuild manifest old ∧
      ((server env).run w (ls ++ .resume i choice :: ls')).shared.rowsOf b.id
        = ((server env).run w (ls ++ [.resume i choice])).shared.rowsOf b.id ∧
      ((server env).run w (ls ++ .resume i choice :: ls')).shared.filesFor env b.id
        = ((server env).run w (ls ++ [.resume i choice])).shared.filesFor env b.id := by
  have hold : old.id = build.buildId := Table.key_of_find? h.found
  have hmem : State.readyBuild manifest old
      ∈ ((server env).run w (ls ++ [.resume i choice])).shared.builds := by
    rw [h.builds]
    exact Table.mem_modify.mpr (Or.inl ⟨old, Table.mem_of_find? h.found, hold, rfl⟩)
  have hs := Integrity.run env hw (ls ++ [.resume i choice])
  have hsplit : (server env).run w (ls ++ .resume i choice :: ls')
      = (server env).run ((server env).run w (ls ++ [.resume i choice])) ls' := by
    rw [← System.run_append, List.append_assoc, List.singleton_append]
  rw [hsplit] at hb ⊢
  obtain ⟨rfl, hrows, hfiles⟩ := ReadyBuild.kept env (buildsKept_run env hs ls') hs hmem rfl hb
    (hid.trans hold.symm)
  exact ⟨rfl, hrows, hfiles⟩

end Success

/-- **The stored manifest is the submitted one exactly when every path is valid UTF-8.** After
any `finalizeBuild` that succeeds and as long as the build exists. Then, if also the sizes that
were read are still those of the blobs, the hash computed before storing is the hash of the
document served afterwards. -/
theorem stored_manifest (env : Env) (hj : JsonText env) (w : Server) (hw : Initial w)
    (ls : List Move) (i : Nat) (choice : Choice) (build : BuildOwnership)
    (command : FinalizeBuildCommand) (manifest : FinalizedManifest) (row : Build)
    (hi : ((server env).run w ls).tasks[i]?
      = some (.finalizeBuild (.finalize build command manifest)))
    (hsucc : ((server env).run w (ls ++ [.resume i choice])).tasks[i]?
      = some (.finalizeBuild (.answered (.ok row)))) :
    ((∀ ls' : List Move,
        ∀ b ∈ ((server env).run w (ls ++ .resume i choice :: ls')).shared.builds,
        b.id = build.buildId →
        ((((server env).run w (ls ++ .resume i choice :: ls')).shared.filesFor env b.id).map
          submitted).Perm (command.files.map submitted)) ↔
      ∀ f ∈ command.files, Utf8.valid f.relativePath = true) ∧
    ((∀ f ∈ command.files, Utf8.valid f.relativePath = true) →
      (∀ f ∈ manifest.files, ∀ blob,
        ((server env).run w ls).shared.blobs.find? f.blobSha256 = some blob →
        f.sizeBytes = blob.sizeBytes) →
      ∀ ls' : List Move,
        ∀ b ∈ ((server env).run w (ls ++ .resume i choice :: ls')).shared.builds,
        b.id = build.buildId → manifest.manifestSha256 = env.sha256Hex (ReadyBuild.document env
          ((server env).run w (ls ++ .resume i choice :: ls')).shared b).json) := by
  obtain ⟨old, hst, rfl⟩ := stores_of_success hw hi hsucc
  obtain ⟨hcheck, records, _, rfl⟩ := finalizing_run env hw ls i _ hi
  have hold : old.id = build.buildId := Table.key_of_find? hst.found
  have hperm := hst.filesFor_perm.map submitted
  rw [submitted_storedEntries] at hperm
  refine ⟨⟨fun h => (triples_iff hj).mp ?_, fun h ls' b hb hid => ?_⟩,
    fun hvalid hsizes ls' b hb hid => ?_⟩
  · have hmem : State.readyBuild (finalizedManifest env records command) old
        ∈ ((server env).run w (ls ++ [.resume i choice])).shared.builds := by
      rw [hst.builds]
      exact Table.mem_modify.mpr (Or.inl ⟨old, Table.mem_of_find? hst.found, hold, rfl⟩)
    have hnow := h [] _ hmem hold
    rw [show (State.readyBuild (finalizedManifest env records command) old).id = build.buildId
      from hold] at hnow
    exact hperm.symm.trans hnow
  · obtain ⟨_, _, hfiles⟩ := stored_later hw hst ls' hb hid
    rw [hfiles, hid]
    exact hperm.trans ((triples_iff hj).mpr h)
  · obtain ⟨rfl, _, hfiles⟩ := stored_later hw hst ls' hb hid
    have hc := ReadyBuild.consistent_of_stores (fun f hf => hj.faithful _ (hvalid f hf)) hcheck hst
      hsizes
    unfold ReadyBuild.document
    rw [hfiles]
    exact hc.manifestSha256

section Demo

open Launcher.Demo

/-- A build of the file `a` and a file at `second`, both with `contentA`. -/
def twoFiles (second : Bytes) : FinalizeBuildCommand where
  files := [⟨ascii "a", shaA, 0, false⟩, ⟨second, shaA, 0, false⟩]
  entrypointRelativePath := ascii "a"
  defaultLaunchArgs := []

/-- Its document. -/
def twoFilesDocument (second : Bytes) : Bytes :=
  let entry := fun path : Bytes => ascii "\x7b\"path\":\"" ++ path ++ ascii "\",\"sha256\":\"" ++
    shaA ++ ascii "\",\"size\":1,\"executable\":false\x7d"
  ascii "\x7b\"schema\":1,\"entrypoint\":\"a\",\"launchArgs\":\"\",\"files\":[" ++
    entry (ascii "a") ++ ascii "," ++ entry second ++ ascii "]\x7d"

/-- A writer that replaces what is malformed, and SHA-256 on three documents. -/
def lenientEnv : Env := { Demo.env with
  acceptsText := Utf8.valid
  jsonText := Utf8.replaceMalformed
  sha256Hex := fun content =>
    if content = twoFilesDocument [0xc3, 0xa9] then
      ascii "92fddfde5c2904838198ff9b1a3e812fcee2ffa042c8e51695447976d66fe23f"
    else if content = twoFilesDocument [0x62, 0xff] then
      ascii "2891ca68c357225cc3d8bf6e54364820e6e54336cebc56986634db1671d76ea8"
    else if content = twoFilesDocument [0x62, 0xef, 0xbf, 0xbd] then
      ascii "3dcb30cd496ecde620ba6a20dce3133d041b8d7fc1a3fbf4fcb7efcceb4f6985"
    else Demo.env.sha256Hex content }

theorem jsonText_lenientEnv : JsonText lenientEnv :=
  ⟨fun _ h => Utf8.replaceMalformed_of_valid h, Utf8.valid_replaceMalformed⟩

/-- Task 3 is about to store the manifest. -/
def storing (second : Bytes) : List Move :=
  stored ++ .request (.finalizeBuild alice (uuidText 10) (twoFiles second)) :: go 3 2

def awaitsFinalize (id : Uuid) (command : FinalizeBuildCommand) : Task → Bool
  | .finalizeBuild (.finalize build c _) => build.buildId == id && c == command
  | _ => false

def succeeded : Task → Bool
  | .finalizeBuild (.answered (.ok _)) => true
  | _ => false

theorem exists_awaiting (id : Uuid) (command : FinalizeBuildCommand) {t : Option Task}
    (h : t.any (awaitsFinalize id command) = true) : ∃ build manifest,
      build.buildId = id ∧ t = some (.finalizeBuild (.finalize build command manifest)) := by
  unfold awaitsFinalize at h
  rcases t with _ | t
  · cases h
  · simp only [Option.any_some] at h
    split at h
    · rename_i build c manifest
      obtain ⟨hid, hc⟩ : build.buildId = id ∧ c = command := by simpa using h
      exact ⟨build, manifest, hid, by rw [hc]⟩
    · cases h

theorem exists_succeeded {t : Option Task} (h : t.any succeeded = true) :
    ∃ row, t = some (.finalizeBuild (.answered (.ok row))) := by
  unfold succeeded at h
  rcases t with _ | t
  · cases h
  · simp only [Option.any_some] at h
    split at h
    · exact ⟨_, rfl⟩
    · cases h

theorem stored_manifest_twoFiles :
    JsonText lenientEnv ∧ Initial start ∧
    ∃ (build : BuildOwnership) (manifest : FinalizedManifest) (row : Build),
    build.buildId = 10 ∧
    ((server lenientEnv).run start (storing [0xc3, 0xa9])).tasks[3]?
      = some (.finalizeBuild (.finalize build (twoFiles [0xc3, 0xa9]) manifest)) ∧
    ((server lenientEnv).run start
      (storing [0xc3, 0xa9] ++ [.resume 3 ⟨0, .none⟩])).tasks[3]?
      = some (.finalizeBuild (.answered (.ok row))) ∧
    ∀ ls' : List Move, ∀ b ∈ ((server lenientEnv).run start
        (storing [0xc3, 0xa9] ++ .resume 3 ⟨0, .none⟩ :: ls')).shared.builds,
      b.id = build.buildId →
      ((((server lenientEnv).run start (storing [0xc3, 0xa9] ++
        .resume 3 ⟨0, .none⟩ :: ls')).shared.filesFor lenientEnv b.id).map submitted).Perm
          ((twoFiles [0xc3, 0xa9]).files.map submitted) := by
  obtain ⟨build, manifest, hid, hi⟩ := exists_awaiting 10 (twoFiles [0xc3, 0xa9])
    (t := ((server lenientEnv).run start (storing [0xc3, 0xa9])).tasks[3]?) (by decide +kernel)
  obtain ⟨row, hsucc⟩ := exists_succeeded (t := ((server lenientEnv).run start
    (storing [0xc3, 0xa9] ++ [.resume 3 ⟨0, .none⟩])).tasks[3]?) (by decide +kernel)
  refine ⟨jsonText_lenientEnv, initial_start, build, manifest, row, hid, hi, hsucc, ?_⟩
  exact (stored_manifest lenientEnv jsonText_lenientEnv start initial_start
    (storing [0xc3, 0xa9]) 3 ⟨0, .none⟩ build _ manifest row hi hsucc).1.mpr (by decide +kernel)

/-- A path with the byte `0xff` passes every check and `finalizeBuild` succeeds, but the stored
path ends in U+FFFD: the triples differ, and so do the hash that was stored and the hash of the
document that is served. -/
theorem malformedPath_replaced :
    JsonText lenientEnv ∧ Initial start ∧
    checkCommand (twoFiles [0x62, 0xff]) = .ok () ∧
    (∃ (build : BuildOwnership) (manifest : FinalizedManifest) (row : Build),
      build.buildId = 10 ∧
      ((server lenientEnv).run start (storing [0x62, 0xff])).tasks[3]?
        = some (.finalizeBuild (.finalize build (twoFiles [0x62, 0xff]) manifest)) ∧
      ((server lenientEnv).run start
        (storing [0x62, 0xff] ++ [.resume 3 ⟨0, .none⟩])).tasks[3]?
        = some (.finalizeBuild (.answered (.ok row)))) ∧
    ∃ b ∈ ((server lenientEnv).run start
        (storing [0x62, 0xff] ++ [.resume 3 ⟨0, .none⟩])).shared.builds, b.id = 10 ∧
      ¬((((server lenientEnv).run start (storing [0x62, 0xff] ++
        [.resume 3 ⟨0, .none⟩])).shared.filesFor lenientEnv b.id).map submitted).Perm
          ((twoFiles [0x62, 0xff]).files.map submitted) ∧
      b.manifestSha256 ≠ lenientEnv.sha256Hex (ReadyBuild.document lenientEnv
        ((server lenientEnv).run start
          (storing [0x62, 0xff] ++ [.resume 3 ⟨0, .none⟩])).shared b).json := by
  obtain ⟨build, manifest, hid, hi⟩ := exists_awaiting 10 (twoFiles [0x62, 0xff])
    (t := ((server lenientEnv).run start (storing [0x62, 0xff])).tasks[3]?) (by decide +kernel)
  obtain ⟨row, hsucc⟩ := exists_succeeded (t := ((server lenientEnv).run start
    (storing [0x62, 0xff] ++ [.resume 3 ⟨0, .none⟩])).tasks[3]?) (by decide +kernel)
  refine ⟨jsonText_lenientEnv, initial_start, by rfl, ⟨build, manifest, row, hid, hi, hsucc⟩, ?_⟩
  have h : ∃ b ∈ ((server lenientEnv).run start
      (storing [0x62, 0xff] ++ [.resume 3 ⟨0, .none⟩])).shared.builds.rows, b.id = 10 ∧
      ¬((((server lenientEnv).run start (storing [0x62, 0xff] ++
        [.resume 3 ⟨0, .none⟩])).shared.filesFor lenientEnv b.id).map submitted).Perm
          ((twoFiles [0x62, 0xff]).files.map submitted) ∧
      b.manifestSha256 ≠ lenientEnv.sha256Hex (ReadyBuild.document lenientEnv
        ((server lenientEnv).run start
          (storing [0x62, 0xff] ++ [.resume 3 ⟨0, .none⟩])).shared b).json := by
    decide +kernel
  exact h

end Demo

end Launcher.StoredManifest
