import Mathlib.Algebra.BigOperators.Group.Finset.Basic
import Launcher.Lib.Plans
import Launcher.Domain.Delta

set_option autoImplicit false

/-! # Applying a delta

The steps of a delta, as a plan over the map from paths to blobs: write a fetched blob, copy
what is at `copyFromRelativePath` now, delete a removed path. Copies are taken only from paths
the plan keeps, so the plan is independent and may be executed in any order. -/

namespace Launcher.DeltaPlans

open Launcher.Lib

/-- Write the fetched blob, or copy what another path holds when the step is executed. -/
def fetchStep (file : DeltaFile) : Plans.Step Bytes (Option Bytes) where
  target := file.entry.relativePath
  source :=
    if file.copyFromRelativePath.isEmpty then .value (some file.entry.blobSha256)
    else .read file.copyFromRelativePath

def removeStep (path : Bytes) : Plans.Step Bytes (Option Bytes) := ⟨path, .value none⟩

def steps (delta : BuildDelta) : List (Plans.Step Bytes (Option Bytes)) :=
  delta.fetch.map fetchStep ++ delta.remove.map removeStep

/-- The paths that some step writes or deletes. -/
theorem steps_targets (delta : BuildDelta) :
    (steps delta).map Plans.Step.target
      = delta.fetch.map (·.entry.relativePath) ++ delta.remove := by
  simp [steps, fetchStep, removeStep, Function.comp_def]

/-- What makes a delta a plan from `installed` to `target`. -/
structure Correct (installed target : List ManifestEntry) (delta : BuildDelta) : Prop where
  /-- The fetched and the unchanged files are the files of the target, each once. -/
  partition : (delta.fetch.map (·.entry) ++ delta.unchanged).Perm target
  removed : ∀ path, path ∈ delta.remove ↔
    path ∈ installed.map (·.relativePath) ∧ path ∉ target.map (·.relativePath)
  removedOnce : delta.remove.Nodup
  sortedFetch : delta.fetch.Pairwise (fun f g => f.entry.relativePath ≤ g.entry.relativePath)
  sortedUnchanged : delta.unchanged.Pairwise (fun e g => e.relativePath ≤ g.relativePath)
  sortedRemove : delta.remove.Pairwise (fun p q => p ≤ q)
  /-- Copies are taken from unchanged files of the same content. -/
  copies : ∀ file ∈ delta.fetch, file.copyFromRelativePath ≠ [] →
    ∃ u ∈ delta.unchanged, u.relativePath = file.copyFromRelativePath ∧
      u.blobSha256 = file.entry.blobSha256
  /-- No step writes or deletes an unchanged path. -/
  untouched : ∀ u ∈ delta.unchanged, u.relativePath ∉ (steps delta).map Plans.Step.target
  /-- Every order of the steps leads from the one install to the other. -/
  executes : ∀ order, order.Perm (steps delta) →
    Plans.run (contents installed) order = contents target

section Executing

variable {installed target : List ManifestEntry} {delta : BuildDelta}

theorem fetch_paths (hpart : (delta.fetch.map (·.entry) ++ delta.unchanged).Perm target)
    (hnd : (target.map (·.relativePath)).Nodup) :
    (delta.fetch.map (·.entry.relativePath)).Nodup ∧
    ∀ u ∈ delta.unchanged, u.relativePath ∉ delta.fetch.map (·.entry.relativePath) := by
  have hperm := (hpart.map (·.relativePath)).nodup_iff.mpr hnd
  rw [List.map_append, List.map_map] at hperm
  obtain ⟨hfetch, _, hdisj⟩ := List.nodup_append.mp hperm
  refine ⟨hfetch, fun u hu hmem => ?_⟩
  exact hdisj _ hmem _ (List.mem_map_of_mem hu) rfl

theorem unchanged_untouched (hnd : (target.map (·.relativePath)).Nodup)
    (hpart : (delta.fetch.map (·.entry) ++ delta.unchanged).Perm target)
    (hrem : ∀ path, path ∈ delta.remove ↔
      path ∈ installed.map (·.relativePath) ∧ path ∉ target.map (·.relativePath)) :
    ∀ u ∈ delta.unchanged, u.relativePath ∉ (steps delta).map Plans.Step.target := by
  intro u hu hmem
  rw [steps_targets, List.mem_append] at hmem
  rcases hmem with hmem | hmem
  · exact (fetch_paths hpart hnd).2 u hu hmem
  · have htarget : u ∈ target := hpart.mem_iff.mp (List.mem_append_right _ hu)
    exact ((hrem _).mp hmem).2 (List.mem_map_of_mem htarget)

/-- No path is written twice, and none that is written is read. -/
theorem steps_independent (hnd : (target.map (·.relativePath)).Nodup)
    (hpart : (delta.fetch.map (·.entry) ++ delta.unchanged).Perm target)
    (hrem : ∀ path, path ∈ delta.remove ↔
      path ∈ installed.map (·.relativePath) ∧ path ∉ target.map (·.relativePath))
    (honce : delta.remove.Nodup)
    (hcopies : ∀ file ∈ delta.fetch, file.copyFromRelativePath ≠ [] →
      ∃ u ∈ delta.unchanged, u.relativePath = file.copyFromRelativePath ∧
        u.blobSha256 = file.entry.blobSha256) :
    Plans.Independent (steps delta) := by
  refine ⟨?_, fun s hs k hk hmem => ?_⟩
  · rw [steps_targets]
    refine List.nodup_append.mpr ⟨(fetch_paths hpart hnd).1, honce, fun p hp q hq hpq => ?_⟩
    obtain ⟨file, hfile, rfl⟩ := List.mem_map.mp hp
    have htarget : file.entry ∈ target :=
      hpart.mem_iff.mp (List.mem_append_left _ (List.mem_map_of_mem hfile))
    exact ((hrem q).mp hq).2 (hpq ▸ List.mem_map_of_mem (f := (·.relativePath)) htarget)
  · -- only a copy reads, and it reads an unchanged path
    rcases List.mem_append.mp hs with hs | hs
    · obtain ⟨file, hfile, rfl⟩ := List.mem_map.mp hs
      by_cases he : file.copyFromRelativePath = []
      · simp [fetchStep, he] at hk
      · obtain ⟨u, hu, hp, _⟩ := hcopies file hfile he
        have hku : file.copyFromRelativePath = k := by simpa [fetchStep, he] using hk
        exact unchanged_untouched hnd hpart hrem u hu (hp.trans hku ▸ hmem)
    · obtain ⟨path, _, rfl⟩ := List.mem_map.mp hs
      cases hk

/-- What a step writes is what the plan leaves there. -/
theorem step_replaced (hnd : (target.map (·.relativePath)).Nodup)
    (hpart : (delta.fetch.map (·.entry) ++ delta.unchanged).Perm target)
    (hrem : ∀ path, path ∈ delta.remove ↔
      path ∈ installed.map (·.relativePath) ∧ path ∉ target.map (·.relativePath))
    (hcopies : ∀ file ∈ delta.fetch, file.copyFromRelativePath ≠ [] →
      ∃ u ∈ delta.unchanged, u.relativePath = file.copyFromRelativePath ∧
        u.blobSha256 = file.entry.blobSha256)
    {directory : Bytes → Option Bytes}
    (hkept : ∀ u ∈ delta.unchanged, directory u.relativePath = some u.blobSha256)
    {step : Plans.Step Bytes (Option Bytes)} (hstep : step ∈ steps delta) :
    step.source.eval directory = replaced installed target directory step.target := by
  rcases List.mem_append.mp hstep with hs | hs
  · obtain ⟨file, hfile, rfl⟩ := List.mem_map.mp hs
    have hmem : file.entry ∈ target :=
      hpart.mem_iff.mp (List.mem_append_left _ (List.mem_map_of_mem hfile))
    rw [show (fetchStep file).target = file.entry.relativePath from rfl, replaced,
      if_pos (List.mem_map_of_mem (f := (·.relativePath)) hmem), contents_of_mem hnd hmem]
    by_cases he : file.copyFromRelativePath = []
    · simp [fetchStep, he, Plans.Source.eval]
    · obtain ⟨u, hu, hp, hb⟩ := hcopies file hfile he
      have hcontent := hkept u hu
      rw [hp, hb] at hcontent
      simpa [fetchStep, he, Plans.Source.eval] using hcontent
  · obtain ⟨path, hpath, rfl⟩ := List.mem_map.mp hs
    obtain ⟨hin, hout⟩ := (hrem path).mp hpath
    show none = replaced installed target directory path
    rw [replaced, if_neg hout, if_pos hin]

/-- A delta that fetches what is not unchanged, removes what is not in the target and copies
only from unchanged files can be executed in any order, in every directory that holds the
unchanged files. -/
theorem executes_of (hnd : (target.map (·.relativePath)).Nodup)
    (hpart : (delta.fetch.map (·.entry) ++ delta.unchanged).Perm target)
    (hrem : ∀ path, path ∈ delta.remove ↔
      path ∈ installed.map (·.relativePath) ∧ path ∉ target.map (·.relativePath))
    (honce : delta.remove.Nodup)
    (hcopies : ∀ file ∈ delta.fetch, file.copyFromRelativePath ≠ [] →
      ∃ u ∈ delta.unchanged, u.relativePath = file.copyFromRelativePath ∧
        u.blobSha256 = file.entry.blobSha256)
    {directory : Bytes → Option Bytes}
    (hkept : ∀ u ∈ delta.unchanged, directory u.relativePath = some u.blobSha256) :
    (∀ u ∈ delta.unchanged, u.relativePath ∉ (steps delta).map Plans.Step.target) ∧
    ∀ order, order.Perm (steps delta) →
      Plans.run directory order = replaced installed target directory := by
  refine ⟨unchanged_untouched hnd hpart hrem, fun order horder => ?_⟩
  have hindep := steps_independent hnd hpart hrem honce hcopies
  refine Plans.run_eq (hindep.perm horder) (fun s hs => ?_) (fun k hk => ?_)
  · exact step_replaced hnd hpart hrem hcopies hkept (horder.mem_iff.mp hs)
  · have hk' : k ∉ delta.fetch.map (·.entry.relativePath) ++ delta.remove := by
      rw [← steps_targets]
      exact fun h => hk ((horder.map Plans.Step.target).mem_iff.mpr h)
    obtain ⟨hkf, hkr⟩ := not_or.mp (fun h => hk' (List.mem_append.mpr h))
    by_cases hmem : k ∈ target.map (·.relativePath)
    · obtain ⟨e, he, rfl⟩ := List.mem_map.mp hmem
      have hu : e ∈ delta.unchanged := by
        rcases List.mem_append.mp (hpart.mem_iff.mpr he) with h | h
        · obtain ⟨file, hfile, rfl⟩ := List.mem_map.mp h
          exact absurd (List.mem_map_of_mem (f := (·.entry.relativePath)) hfile) hkf
        · exact h
      rw [hkept e hu, replaced, if_pos hmem, contents_of_mem hnd he]
    · have hno : k ∉ installed.map (·.relativePath) :=
        fun h => hkr ((hrem k).mpr ⟨h, hmem⟩)
      rw [replaced, if_neg hmem, if_neg hno]

/-- In a directory with exactly the installed files, the plan leaves exactly the target's. -/
theorem replaced_contents : replaced installed target (contents installed) = contents target := by
  funext path
  by_cases ht : path ∈ target.map (·.relativePath)
  · rw [replaced, if_pos ht]
  · rw [contents_eq_none.mpr ht, replaced, if_neg ht]
    by_cases hi : path ∈ installed.map (·.relativePath)
    · rw [if_pos hi]
    · rw [if_neg hi, contents_eq_none.mpr hi]

/-- What a correct plan leaves unchanged is installed as the target has it. -/
theorem Correct.kept (h : Correct installed target delta)
    (hnd : (target.map (·.relativePath)).Nodup) {u : ManifestEntry} (hu : u ∈ delta.unchanged) :
    contents installed u.relativePath = some u.blobSha256 := by
  have hmem : u ∈ target := h.partition.mem_iff.mp (List.mem_append_right _ hu)
  rw [← contents_of_mem hnd hmem, ← h.executes _ (List.Perm.refl _),
    Plans.run_other _ (h.untouched u hu)]

/-- A correct plan in a directory with other files beside the install. -/
theorem Correct.run (h : Correct installed target delta)
    (hnd : (target.map (·.relativePath)).Nodup) {directory : Bytes → Option Bytes}
    (hkept : ∀ u ∈ delta.unchanged, directory u.relativePath = some u.blobSha256)
    {order : List (Plans.Step Bytes (Option Bytes))} (horder : order.Perm (steps delta)) :
    Plans.run directory order = replaced installed target directory :=
  (executes_of hnd h.partition h.removed h.removedOnce h.copies hkept).2 order horder

end Executing

/-! ## Both kinds of download -/

section Correct

variable {installed target : List ManifestEntry}

theorem mem_removedPaths {path : Bytes} : path ∈ removedPaths installed target ↔
    path ∈ installed.map (·.relativePath) ∧ path ∉ target.map (·.relativePath) := by
  rw [removedPaths, (List.perm_insertionSort _ _).mem_iff, List.mem_filter, decide_eq_true_iff]

theorem removedPaths_nodup (hnd : (installed.map (·.relativePath)).Nodup) :
    (removedPaths installed target).Nodup :=
  (List.perm_insertionSort _ _).nodup_iff.mpr (hnd.filter _)

theorem removedPaths_sorted : (removedPaths installed target).Pairwise (fun p q => p ≤ q) :=
  List.pairwise_insertionSort _ _

/-- The copy source, if there is one, is an unchanged file with the blob. -/
theorem copySource_mem {blob : Bytes} (h : copySource installed target blob ≠ []) :
    ∃ u ∈ target.filter (kept installed), u.relativePath = copySource installed target blob ∧
      u.blobSha256 = blob := by
  cases hf : (target.filter (kept installed)).find? (fun e => decide (e.blobSha256 = blob)) with
  | none => simp [copySource, hf] at h
  | some u =>
      refine ⟨u, List.mem_of_find?_eq_some hf, ?_, by simpa using List.find?_some hf⟩
      simp [copySource, hf]

theorem correct_of {delta : BuildDelta} (hi : (installed.map (·.relativePath)).Nodup)
    (ht : (target.map (·.relativePath)).Nodup)
    (hpart : (delta.fetch.map (·.entry) ++ delta.unchanged).Perm target)
    (hremove : delta.remove = removedPaths installed target)
    (hfetch : delta.fetch.Pairwise (fun f g => f.entry.relativePath ≤ g.entry.relativePath))
    (hunchanged : delta.unchanged.Pairwise (fun e g => e.relativePath ≤ g.relativePath))
    (hcopies : ∀ file ∈ delta.fetch, file.copyFromRelativePath ≠ [] →
      ∃ u ∈ delta.unchanged, u.relativePath = file.copyFromRelativePath ∧
        u.blobSha256 = file.entry.blobSha256)
    (hkept : ∀ u ∈ delta.unchanged, contents installed u.relativePath = some u.blobSha256) :
    Correct installed target delta := by
  have hrem : ∀ path, path ∈ delta.remove ↔
      path ∈ installed.map (·.relativePath) ∧ path ∉ target.map (·.relativePath) := by
    rw [hremove]
    exact fun path => mem_removedPaths
  have honce : delta.remove.Nodup := by
    rw [hremove]
    exact removedPaths_nodup hi
  obtain ⟨huntouched, hexec⟩ := executes_of ht hpart hrem honce hcopies hkept
  refine ⟨hpart, hrem, honce, hfetch, hunchanged, ?_, hcopies, huntouched, fun order horder =>
    (hexec order horder).trans replaced_contents⟩
  rw [hremove]
  exact removedPaths_sorted

/-- The entries of a list of fetched files, whatever their copy sources. -/
theorem fetch_entries (entries : List ManifestEntry) (copyFrom : ManifestEntry → Bytes) :
    (((sortByPath entries).map (fun e => DeltaFile.mk e (copyFrom e))).map (·.entry)).Perm
      entries := by
  rw [List.map_map]
  exact (List.Perm.of_eq (List.map_id _)).trans (sortByPath_perm entries)

theorem correct_computeDelta (hi : (installed.map (·.relativePath)).Nodup)
    (ht : (target.map (·.relativePath)).Nodup) :
    Correct installed target (computeDelta installed target) := by
  have hmem : ∀ u, u ∈ sortByPath (target.filter (kept installed)) ↔
      u ∈ target.filter (kept installed) := fun u => (sortByPath_perm _).mem_iff
  rw [computeDelta_eq]
  refine correct_of hi ht ?_ rfl (List.pairwise_map.mpr (sortByPath_sorted _))
    (sortByPath_sorted _) (fun file hfile hne => ?_) (fun u hu => ?_)
  · refine ((fetch_entries _ _).append (sortByPath_perm _)).trans ?_
    exact List.perm_append_comm.trans (List.filter_append_perm _ _)
  · obtain ⟨e, _, rfl⟩ := List.mem_map.mp hfile
    obtain ⟨u, hu, hp, hb⟩ := copySource_mem hne
    exact ⟨u, (hmem u).mpr hu, hp, hb⟩
  · exact decide_eq_true_iff.mp (List.mem_filter.mp ((hmem u).mp hu)).2

theorem correct_fullDownload (hi : (installed.map (·.relativePath)).Nodup)
    (ht : (target.map (·.relativePath)).Nodup) :
    Correct installed target (fullDownload installed target) := by
  rw [fullDownload_eq]
  refine correct_of hi ht ?_ rfl (List.pairwise_map.mpr (sortByPath_sorted _))
    List.Pairwise.nil (fun file hfile hne => ?_) (fun u hu => by cases hu)
  · rw [List.append_nil]
    exact fetch_entries target (fun _ => [])
  · obtain ⟨e, _, rfl⟩ := List.mem_map.mp hfile
    exact absurd rfl hne

end Correct

/-! ## The bytes to transfer -/

/-- The blobs that have to be downloaded. -/
def downloads (fetch : List DeltaFile) : List Bytes :=
  (fetch.filter (fun f => f.copyFromRelativePath.isEmpty)).map (·.entry.blobSha256)

theorem countTransfer_fold {size : Bytes → Int} (fetch : List DeltaFile)
    (hsize : ∀ f ∈ fetch, f.entry.sizeBytes = size f.entry.blobSha256) :
    ∀ counted bytes, (fetch.foldl countTransfer (counted, bytes)).2
      = bytes + ∑ blob ∈ (downloads fetch).toFinset \ counted.toFinset, size blob := by
  induction fetch with
  | nil => simp [downloads]
  | cons f rest ih =>
      intro counted bytes
      have ih' := ih (fun g hg => hsize g (List.mem_cons_of_mem _ hg))
      rw [List.foldl_cons]
      by_cases hc : f.copyFromRelativePath = []
      · have hdown : downloads (f :: rest) = f.entry.blobSha256 :: downloads rest := by
          simp [downloads, hc]
        by_cases hmem : f.entry.blobSha256 ∈ counted
        · rw [show countTransfer (counted, bytes) f = (counted, bytes) by
            simp [countTransfer, hc, hmem], ih', hdown, List.toFinset_cons,
            Finset.insert_sdiff_of_mem _ (List.mem_toFinset.mpr hmem)]
        · have hset : insert f.entry.blobSha256 (downloads rest).toFinset \ counted.toFinset
              = insert f.entry.blobSha256
                ((downloads rest).toFinset \ insert f.entry.blobSha256 counted.toFinset) := by
            ext blob
            simp only [Finset.mem_sdiff, Finset.mem_insert, List.mem_toFinset]
            by_cases he : blob = f.entry.blobSha256
            · simp [he, hmem]
            · simp [he]
          rw [show countTransfer (counted, bytes) f
              = (f.entry.blobSha256 :: counted, bytes + f.entry.sizeBytes) by
            simp [countTransfer, hc, hmem], ih', hdown, List.toFinset_cons, List.toFinset_cons,
            hset, Finset.sum_insert (by simp), hsize f List.mem_cons_self]
          ring
      · have hdown : downloads (f :: rest) = downloads rest := by
          simp [downloads, hc]
        rw [show countTransfer (counted, bytes) f = (counted, bytes) by
          simp [countTransfer, hc], ih', hdown]

/-- Where a blob has one size, the transfer is the sum over the distinct blobs. -/
theorem transferBytes_eq {size : Bytes → Int} {fetch : List DeltaFile}
    (hsize : ∀ f ∈ fetch, f.entry.sizeBytes = size f.entry.blobSha256) :
    transferBytes fetch = ∑ blob ∈ (downloads fetch).toFinset, size blob := by
  rw [transferBytes, countTransfer_fold fetch hsize [] 0]
  simp

/-! ## Permuting the manifests -/

section Perm

variable {installed installed' target target' : List ManifestEntry}

theorem contents_perm (h : installed'.Perm installed)
    (hnd : (installed.map (·.relativePath)).Nodup) : contents installed' = contents installed := by
  have hnd' : (installed'.map (·.relativePath)).Nodup := (h.map _).nodup_iff.mpr hnd
  funext path
  cases hc : contents installed path with
  | none =>
      rw [contents_eq_none] at hc ⊢
      exact fun hmem => hc ((h.map _).mem_iff.mp hmem)
  | some blob =>
      obtain ⟨e, he, rfl, rfl⟩ := contents_eq_some hc
      exact contents_of_mem hnd' (h.mem_iff.mpr he)

theorem kept_perm (h : installed'.Perm installed)
    (hnd : (installed.map (·.relativePath)).Nodup) : kept installed' = kept installed := by
  unfold kept
  rw [contents_perm h hnd]

theorem removedPaths_perm (hi : installed'.Perm installed) (ht : target'.Perm target) :
    removedPaths installed' target' = removedPaths installed target := by
  have hperm : (removedPaths installed' target').Perm (removedPaths installed target) := by
    refine (List.perm_insertionSort _ _).trans (List.Perm.trans ?_
      (List.perm_insertionSort _ _).symm)
    have hfilter : ∀ path : Bytes, decide (path ∉ target'.map (·.relativePath))
        = decide (path ∉ target.map (·.relativePath)) :=
      fun path => decide_eq_decide.mpr (not_congr (ht.map _).mem_iff)
    simp only [hfilter]
    exact (hi.map _).filter _
  exact List.Perm.eq_of_pairwise (fun _ _ _ _ h h' => le_antisymm h h') removedPaths_sorted
    removedPaths_sorted hperm

theorem sortByPath_filter_perm (ht : target'.Perm target)
    (hnd : (target.map (·.relativePath)).Nodup) (p : ManifestEntry → Bool) :
    sortByPath (target'.filter p) = sortByPath (target.filter p) := by
  refine (sortByPath_congr (ht.symm.filter p) ?_).symm
  exact hnd.sublist (List.filter_sublist.map _)

/-- Two results that differ at most in which unchanged file of the right content a fetched file
is copied from. -/
structure SameButCopies (delta delta' : BuildDelta) : Prop where
  kind : delta'.kind = delta.kind
  unchanged : delta'.unchanged = delta.unchanged
  remove : delta'.remove = delta.remove
  downloadBytes : delta'.downloadBytes = delta.downloadBytes
  totalBytes : delta'.totalBytes = delta.totalBytes
  fetch : List.Forall₂ (fun f f' => f'.entry = f.entry ∧
    (f'.copyFromRelativePath = f.copyFromRelativePath ∨
      ∃ u ∈ delta.unchanged, ∃ u' ∈ delta.unchanged,
        u.relativePath = f.copyFromRelativePath ∧ u'.relativePath = f'.copyFromRelativePath ∧
        u.blobSha256 = f.entry.blobSha256 ∧ u'.blobSha256 = f.entry.blobSha256))
    delta.fetch delta'.fetch

/-- A blob of the target determines its size, as it does in the store. -/
def SizedByBlob (target : List ManifestEntry) : Prop :=
  ∀ e ∈ target, ∀ e' ∈ target, e.blobSha256 = e'.blobSha256 → e.sizeBytes = e'.sizeBytes

def sizeIn (target : List ManifestEntry) (blob : Bytes) : Int :=
  ((target.find? (fun e => decide (e.blobSha256 = blob))).map (·.sizeBytes)).getD 0

theorem sizeIn_eq (h : SizedByBlob target) {e : ManifestEntry} (he : e ∈ target) :
    e.sizeBytes = sizeIn target e.blobSha256 := by
  unfold sizeIn
  cases hf : target.find? (fun x => decide (x.blobSha256 = e.blobSha256)) with
  | none => simpa using List.find?_eq_none.mp hf e he
  | some x =>
      have hb : x.blobSha256 = e.blobSha256 := by simpa using List.find?_some hf
      exact h e he x (List.mem_of_find?_eq_some hf) hb.symm

theorem copySource_eq_nil_iff (hpath : ∀ u ∈ target, kept installed u → u.relativePath ≠ [])
    {blob : Bytes} :
    copySource installed target blob = [] ↔
      ∀ u ∈ target.filter (kept installed), u.blobSha256 ≠ blob := by
  unfold copySource
  cases hf : (target.filter (kept installed)).find? (fun e => decide (e.blobSha256 = blob)) with
  | none => simpa using List.find?_eq_none.mp hf
  | some u =>
      have hu := List.mem_of_find?_eq_some hf
      have hb : u.blobSha256 = blob := by simpa using List.find?_some hf
      obtain ⟨hmem, hkept⟩ := List.mem_filter.mp hu
      refine ⟨fun h => absurd h (hpath u hmem hkept), fun h => ?_⟩
      exact absurd hb (h u hu)

theorem transferBytes_perm {fetch fetch' : List DeltaFile} (hs : SizedByBlob target)
    (hf : ∀ f ∈ fetch, f.entry ∈ target) (hf' : ∀ f ∈ fetch', f.entry ∈ target)
    (hd : ∀ blob, blob ∈ downloads fetch' ↔ blob ∈ downloads fetch) :
    transferBytes fetch' = transferBytes fetch := by
  rw [transferBytes_eq (fun f h => sizeIn_eq hs (hf' f h)),
    transferBytes_eq (fun f h => sizeIn_eq hs (hf f h))]
  congr 1
  ext blob
  rw [List.mem_toFinset, List.mem_toFinset, hd]

theorem mem_downloads (entries : List ManifestEntry) (copyFrom : ManifestEntry → Bytes)
    (blob : Bytes) : blob ∈ downloads (entries.map (fun e => ⟨e, copyFrom e⟩)) ↔
      ∃ e ∈ entries, copyFrom e = [] ∧ e.blobSha256 = blob := by
  simp [downloads, and_assoc]

theorem installedSize_perm (ht : target'.Perm target) :
    installedSize target' = installedSize target := by
  unfold installedSize
  exact (ht.map _).sum_eq

theorem fullDownload_perm (hi : installed'.Perm installed) (ht : target'.Perm target)
    (hnt : (target.map (·.relativePath)).Nodup) (hs : SizedByBlob target) :
    fullDownload installed' target' = fullDownload installed target := by
  have hbytes : transferBytes (target'.map (fun e => ⟨e, []⟩))
      = transferBytes (target.map (fun e => ⟨e, []⟩)) := by
    refine transferBytes_perm hs (fun f hf => ?_) (fun f hf => ?_) (fun blob => ?_)
    · obtain ⟨e, he, rfl⟩ := List.mem_map.mp hf
      exact he
    · obtain ⟨e, he, rfl⟩ := List.mem_map.mp hf
      exact ht.mem_iff.mp he
    · rw [mem_downloads target' (fun _ => []), mem_downloads target (fun _ => [])]
      simp only [ht.mem_iff]
  rw [fullDownload_eq, fullDownload_eq, removedPaths_perm hi ht, hbytes,
    (sortByPath_congr ht.symm hnt).symm, installedSize_perm ht]

theorem computeDelta_perm (hi : installed'.Perm installed) (ht : target'.Perm target)
    (hni : (installed.map (·.relativePath)).Nodup) (hnt : (target.map (·.relativePath)).Nodup)
    (hs : SizedByBlob target) (hpath : ∀ e ∈ target, e.relativePath ≠ []) :
    SameButCopies (computeDelta installed target) (computeDelta installed' target') := by
  have hk := kept_perm hi hni
  have hpath' : ∀ e ∈ target', e.relativePath ≠ [] := fun e he => hpath e (ht.mem_iff.mp he)
  have hnil : ∀ blob, copySource installed' target' blob = [] ↔
      copySource installed target blob = [] := by
    intro blob
    rw [copySource_eq_nil_iff (fun e he _ => hpath' e he),
      copySource_eq_nil_iff (fun e he _ => hpath e he), hk]
    simp only [(ht.filter (kept installed)).mem_iff]
  have hbytes : transferBytes ((target'.filter (fun e => !kept installed' e)).map
        (fun e => ⟨e, copySource installed' target' e.blobSha256⟩))
      = transferBytes ((target.filter (fun e => !kept installed e)).map
        (fun e => ⟨e, copySource installed target e.blobSha256⟩)) := by
    refine transferBytes_perm hs (fun f hf => ?_) (fun f hf => ?_) (fun blob => ?_)
    · obtain ⟨e, he, rfl⟩ := List.mem_map.mp hf
      exact (List.mem_filter.mp he).1
    · obtain ⟨e, he, rfl⟩ := List.mem_map.mp hf
      exact ht.mem_iff.mp (List.mem_filter.mp he).1
    · rw [mem_downloads _ (fun e => copySource installed' target' e.blobSha256),
        mem_downloads _ (fun e => copySource installed target e.blobSha256), hk]
      simp only [hnil, (ht.filter _).mem_iff]
  have hunchanged : sortByPath (target'.filter (kept installed'))
      = sortByPath (target.filter (kept installed)) := by
    rw [hk]
    exact sortByPath_filter_perm ht hnt _
  have hfetch : sortByPath (target'.filter (fun e => !kept installed' e))
      = sortByPath (target.filter (fun e => !kept installed e)) := by
    rw [hk]
    exact sortByPath_filter_perm ht hnt _
  rw [computeDelta_eq installed target, computeDelta_eq installed' target']
  refine ⟨rfl, hunchanged, removedPaths_perm hi ht, hbytes, installedSize_perm ht, ?_⟩
  show List.Forall₂ _ (List.map _ _) (List.map _ (sortByPath _))
  rw [hfetch]
  refine List.forall₂_map_left_iff.mpr (List.forall₂_map_right_iff.mpr
    (List.forall₂_same.mpr (fun e _ => ⟨rfl, ?_⟩)))
  by_cases hsource : copySource installed target e.blobSha256 = []
  · left
    rw [hsource, (hnil _).mpr hsource]
  · right
    obtain ⟨u, hu, hp, hb⟩ := copySource_mem hsource
    obtain ⟨u', hu', hp', hb'⟩ := copySource_mem (mt (hnil _).mp hsource)
    rw [hk] at hu'
    exact ⟨u, (sortByPath_perm _).mem_iff.mpr hu, u', (sortByPath_perm _).mem_iff.mpr
      ((ht.filter (kept installed)).mem_iff.mp hu'), hp, hp', hb, hb'⟩

theorem computeDelta_perm_installed (hi : installed'.Perm installed)
    (hni : (installed.map (·.relativePath)).Nodup) :
    computeDelta installed' target = computeDelta installed target := by
  have hcopy : copySource installed' target = copySource installed target := by
    unfold copySource
    rw [kept_perm hi hni]
  rw [computeDelta_eq, computeDelta_eq, removedPaths_perm hi (List.Perm.refl target), hcopy,
    kept_perm hi hni]

theorem fullDownload_perm_installed (hi : installed'.Perm installed) :
    fullDownload installed' target = fullDownload installed target := by
  rw [fullDownload_eq, fullDownload_eq, removedPaths_perm hi (List.Perm.refl target)]

end Perm

/-! ## The theorem -/

/-- **Deltas are correct in any order of application.** For manifests with distinct paths, both
kinds of download are correct plans. The order of the installed manifest does not matter at
all. The order of the target matters only for which of several unchanged files of the same
content is copied from, if a blob has one size and no path is empty. -/
theorem delta_plans (installed target : List ManifestEntry)
    (hni : (installed.map (·.relativePath)).Nodup) (hnt : (target.map (·.relativePath)).Nodup) :
    Correct installed target (computeDelta installed target) ∧
    Correct installed target (fullDownload installed target) ∧
    (∀ installed', installed'.Perm installed →
      computeDelta installed' target = computeDelta installed target ∧
      fullDownload installed' target = fullDownload installed target) ∧
    (SizedByBlob target → ∀ installed' target', installed'.Perm installed →
      target'.Perm target →
      fullDownload installed' target' = fullDownload installed target ∧
      ((∀ e ∈ target, e.relativePath ≠ []) →
        SameButCopies (computeDelta installed target) (computeDelta installed' target'))) :=
  ⟨correct_computeDelta hni hnt, correct_fullDownload hni hnt,
    fun _ hi => ⟨computeDelta_perm_installed hi hni, fullDownload_perm_installed hi⟩,
    fun hs _ _ hi ht => ⟨fullDownload_perm hi ht hnt hs,
      fun hpath => computeDelta_perm hi ht hni hnt hs hpath⟩⟩

section Demo

def file (path blob : Bytes) (size : Int) : ManifestEntry := ⟨path, blob, size, false⟩

/-- `c` keeps its content, `a` and `b` swap theirs, `d` is a copy of `c`, and `e` goes. -/
def before : List ManifestEntry :=
  [file (ascii "a") (ascii "x") 1, file (ascii "b") (ascii "y") 2, file (ascii "c") (ascii "z") 3,
    file (ascii "e") (ascii "w") 4]

def afterwards : List ManifestEntry :=
  [file (ascii "d") (ascii "z") 3, file (ascii "c") (ascii "z") 3, file (ascii "b") (ascii "x") 1,
    file (ascii "a") (ascii "y") 2]

theorem delta_plans_swapped :
    (computeDelta before afterwards).downloadBytes = 3 ∧
    (computeDelta before afterwards).fetch.map (·.copyFromRelativePath) = [[], [], ascii "c"] ∧
    (∀ order, order.Perm (steps (computeDelta before afterwards)) →
      Plans.run (contents before) order = contents afterwards) ∧
    SameButCopies (computeDelta before afterwards)
      (computeDelta before.reverse afterwards.reverse) := by
  obtain ⟨hdelta, _, _, hperm⟩ := delta_plans before afterwards (by decide) (by decide)
  have hs : SizedByBlob afterwards := by
    unfold SizedByBlob
    decide
  refine ⟨by decide, by decide, hdelta.executes, ?_⟩
  exact (hperm hs _ _ (List.reverse_perm _) (List.reverse_perm _)).2 (by decide)

/-- One blob, listed with two sizes. -/
def twoSizes : List ManifestEntry :=
  [file (ascii "a") (ascii "x") 1, file (ascii "b") (ascii "x") 2]

/-- The install and the target have the blob at the empty path and at `a`; `b` is new. -/
def withEmptyPath : List ManifestEntry := [file [] (ascii "x") 1, file (ascii "a") (ascii "x") 1]

/-- The order of the target changes `downloadBytes` when one blob is listed with two sizes, and
when content survives at the empty path, which the plan takes for "nowhere". -/
theorem downloadBytes_order :
    ((twoSizes.map (·.relativePath)).Nodup ∧ twoSizes.reverse.Perm twoSizes ∧
      (computeDelta [] twoSizes.reverse).downloadBytes
        ≠ (computeDelta [] twoSizes).downloadBytes) ∧
    ((withEmptyPath.map (·.relativePath)).Nodup ∧
      ((withEmptyPath ++ [file (ascii "b") (ascii "x") 1]).map (·.relativePath)).Nodup ∧
      (withEmptyPath.reverse ++ [file (ascii "b") (ascii "x") 1]).Perm
        (withEmptyPath ++ [file (ascii "b") (ascii "x") 1]) ∧
      SizedByBlob (withEmptyPath ++ [file (ascii "b") (ascii "x") 1]) ∧
      (computeDelta withEmptyPath
          (withEmptyPath.reverse ++ [file (ascii "b") (ascii "x") 1])).downloadBytes
        ≠ (computeDelta withEmptyPath
          (withEmptyPath ++ [file (ascii "b") (ascii "x") 1])).downloadBytes) := by
  unfold SizedByBlob
  decide

end Demo

end Launcher.DeltaPlans
