import Launcher.Invariants.Integrity

set_option autoImplicit false

/-! # A `finalizeBuild` on its way

`finalizeBuild` reads the sizes of the blobs in one statement, computes the manifest, and
stores it in another. This file says what is known in between: the submitted file list has
passed `validateManifest`, and the manifest is the one computed from the sizes that were read
(`Finalizing`). -/

namespace Launcher

open Launcher.Lib

/-! ## Looking up the sizes -/

theorem mem_distinctOf {values : List Bytes} {v : Bytes} : v ∈ distinctOf values ↔ v ∈ values := by
  have hfold : ∀ (values seen : List Bytes),
      v ∈ values.foldl (fun seen x => if seen.contains x then seen else x :: seen) seen ↔
        v ∈ values ∨ v ∈ seen := by
    intro values
    induction values with
    | nil => simp
    | cons x rest ih =>
        intro seen
        rw [List.foldl_cons, ih, List.mem_cons]
        by_cases hx : x ∈ seen
        · rw [if_pos (by simpa using hx)]
          constructor
          · rintro (h | h)
            · exact Or.inl (Or.inr h)
            · exact Or.inr h
          · rintro ((rfl | h) | h)
            · exact Or.inr hx
            · exact Or.inl h
            · exact Or.inr h
        · rw [if_neg (by simpa using hx), List.mem_cons]
          tauto
  rw [distinctOf, List.mem_reverse, hfold]
  simp

/-- The size read for a hash that was asked for is the size of its row. -/
theorem sizeOf_findMany (s : State) {hashes : List Bytes} {sha256 : Bytes}
    (h : sha256 ∈ hashes) :
    sizeOf (s.findMany hashes) sha256 = (s.blobs.find? sha256).map (·.sizeBytes) := by
  have hfind : (s.findMany hashes).find? (fun r => r.sha256 == sha256)
      = (s.blobs.find? sha256).map BlobRow.read := by
    rw [State.findMany, List.find?_map, List.find?_filter]
    unfold Table.find?
    congr 1
    refine List.find?_congr (fun b _ => ?_)
    by_cases hb : b.sha256 = sha256
    · simp [hb, h, BlobRow.read]
    · simp [hb, BlobRow.read]
  rw [sizeOf, hfind, Option.map_map]
  rfl

theorem missingFrom_eq_nil {s : State} {files : List ManifestEntry}
    (h : ∀ f ∈ files, ∃ b, s.blobs.find? f.blobSha256 = some b) :
    missingFrom (s.findMany (distinctOf (files.map (·.blobSha256)))) files = [] := by
  rw [missingFrom, List.filter_eq_nil_iff]
  intro sha256 hm
  obtain ⟨f, hf, rfl⟩ := List.mem_map.mp (mem_distinctOf.mp hm)
  obtain ⟨b, hb⟩ := h f hf
  simp [sizeOf_findMany s hm, hb]

/-! ## What a suspended `finalizeBuild` has checked -/

theorem checkCommand_ok {command : FinalizeBuildCommand} (h : checkCommand command = .ok ()) :
    ValidManifest command.files (trim command.entrypointRelativePath) := by
  unfold checkCommand at h
  split at h
  · cases h
  · exact validateManifest_ok h

/-- Suspended in front of its last two statements, a `finalizeBuild` has checked the command;
in front of the last, its manifest comes from records of every named blob. -/
def Finalizing (env : Env) : Task → Prop
  | .finalizeBuild (.findMany _ command) => checkCommand command = .ok ()
  | .finalizeBuild (.finalize _ command manifest) => checkCommand command = .ok () ∧
      ∃ records, missingFrom records command.files = [] ∧
        manifest = finalizedManifest env records command
  | _ => True

theorem next_finalizing {env : Env} {choice : Choice} {s : State} {t : Task}
    (h : Finalizing env t) : (t.next env).Wp (exec env) choice s (fun _ t' =>
      Finalizing env t') := by
  by_cases hk : t.kind = .finalizeBuild
  · cases t with
    | finalizeBuild t =>
        rw [Task.next, Suspended.wp_map]
        cases t with
        | findOwnership actor buildId command =>
            intro r s' _
            dsimp only
            cases writableBuild actor r with
            | error e => trivial
            | ok build =>
                cases hc : checkCommand command with
                | error e => trivial
                | ok u => exact hc
        | findMany build command =>
            intro r s' _
            show Finalizing env (.finalizeBuild (if (missingFrom r command.files).isEmpty = true
              then .finalize build command (finalizedManifest env r command)
              else .answered (failure .InvalidInput (missingDetail (missingFrom r command.files)))))
            split
            · rename_i hm
              exact ⟨h, r, by simpa using hm, rfl⟩
            · trivial
        | finalize build command manifest =>
            intro r s' _
            rcases r with e | (_ | _) <;> trivial
        | _ => trivial
    | _ => cases hk
  · refine (t.next_keeps env choice s).mono (fun s' t' hs => ?_)
    cases t' with
    | finalizeBuild t' => exact absurd hs.2.symm hk
    | _ => trivial

theorem entry_finalizing (env : Env) (r : Request) : Finalizing env (entry r) := by
  cases r with
  | finalizeBuild actor buildId command =>
      simp only [entry, finalizeBuild]
      cases writableBuildRequest actor buildId <;> trivial
  | _ => trivial

theorem finalizing_run (env : Env) {w : Server} (hw : Initial w) (ls : List Move) :
    ∀ (i : Nat) t, ((server env).run w ls).tasks[i]? = some t → Finalizing env t := by
  refine (System.pool_invariant (S := server env) (G := fun _ => True)
    (L := fun _ t => Finalizing env t) (A := fun _ _ => True)
    (fun r s _ => entry_finalizing env r) (fun w i choice t _ hL hi _ => ?_)
    (fun e s _ => ⟨trivial, fun _ h => h⟩) ls w trivial (fun j t hj => ?_)
    (System.along_true w ls)).2
  · exact (next_finalizing (hL i t hi)).mono
      (fun s' t' h => ⟨trivial, h, fun j t'' _ hj => hL j t'' hj⟩)
  · rw [hw.tasks] at hj
    cases hj

/-- The manifest names the submitted files, with sizes from the store. -/
theorem finalizedManifest_hashes (env : Env) (records : List BlobRecord)
    (command : FinalizeBuildCommand) :
    (finalizedManifest env records command).files.map (·.blobSha256)
      = command.files.map (·.blobSha256) := by
  simp [finalizedManifest]

end Launcher
