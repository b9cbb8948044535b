import Mathlib.Data.List.Dedup
import Launcher.Lib.Table
import Launcher.Domain.Manifest

set_option autoImplicit false

/-! # Deltas between two builds

`domain/Delta.cpp`: what a client has to fetch, may keep and has to remove to move from the
build it has installed to a target build. The two hash maps of the source are tables, filled
with `insert`, which like `emplace` keeps the first entry of a key. The byte counts are
integers; that they fit into 64 bits is not part of this model.

The lemmas after the definitions give the loops in closed form (`computeDelta_eq`,
`fullDownload_eq`), which is what the proofs about plans start from. -/

namespace Launcher

open Launcher.Lib

inductive DownloadKind
  | Full
  | Delta
  deriving DecidableEq, Repr

/-- A file the client does not have yet; `copyFromRelativePath` is a path of the install that
holds the same bytes, or empty. -/
structure DeltaFile where
  entry : ManifestEntry
  copyFromRelativePath : Bytes
  deriving DecidableEq, Repr

structure BuildDelta where
  kind : DownloadKind
  fetch : List DeltaFile
  unchanged : List ManifestEntry
  remove : List Bytes
  downloadBytes : Int
  totalBytes : Int
  deriving DecidableEq, Repr

abbrev PathIndex := Table ManifestEntry.relativePath

def indexByPath (entries : List ManifestEntry) : PathIndex := entries.foldl Table.insert Table.empty

/-- The index has the entry's path, with the entry's blob. -/
def PathIndex.holds (index : PathIndex) (entry : ManifestEntry) : Bool :=
  match index.find? entry.relativePath with
  | none => false
  | some found => found.blobSha256 == entry.blobSha256

/-- For each blob that stays at a path, the first such path of the target. -/
def survivingContent (installed : PathIndex) (target : List ManifestEntry) :
    Table (Prod.fst : Bytes × Bytes → Bytes) :=
  target.foldl (fun byBlob entry =>
    if installed.holds entry then byBlob.insert (entry.blobSha256, entry.relativePath)
    else byBlob) Table.empty

def sortPlan (delta : BuildDelta) : BuildDelta := { delta with
  fetch := delta.fetch.insertionSort
    (fun lhs rhs => lhs.entry.relativePath ≤ rhs.entry.relativePath)
  unchanged := sortByPath delta.unchanged
  remove := delta.remove.insertionSort (fun lhs rhs => lhs ≤ rhs) }

def pathsToRemove (installed : List ManifestEntry) (target : PathIndex) : List Bytes :=
  (installed.filter (fun entry => (target.find? entry.relativePath).isNone)).map
    (·.relativePath)

/-- The loop of `transferBytes`; `counted` holds the blobs so far. -/
def countTransfer (state : List Bytes × Int) (file : DeltaFile) : List Bytes × Int :=
  if !file.copyFromRelativePath.isEmpty then state
  else if state.1.contains file.entry.blobSha256 then state
  else (file.entry.blobSha256 :: state.1, state.2 + file.entry.sizeBytes)

def transferBytes (fetch : List DeltaFile) : Int := (fetch.foldl countTransfer ([], 0)).2

def installedSize (target : List ManifestEntry) : Int := (target.map (·.sizeBytes)).sum

def fullDownload (installed target : List ManifestEntry) : BuildDelta :=
  let fetch := target.map (fun entry => ⟨entry, []⟩)
  sortPlan
    { kind := .Full, fetch := fetch, unchanged := []
      remove := pathsToRemove installed (indexByPath target)
      downloadBytes := transferBytes fetch, totalBytes := installedSize target }

/-- One round of the loop of `computeDelta`: the fetched and the unchanged files so far. -/
def planEntry (installed : PathIndex) (reusable : Table (Prod.fst : Bytes × Bytes → Bytes))
    (lists : List DeltaFile × List ManifestEntry) (entry : ManifestEntry) :
    List DeltaFile × List ManifestEntry :=
  if installed.holds entry then (lists.1, lists.2 ++ [entry])
  else
    (lists.1 ++ [⟨entry, ((reusable.find? entry.blobSha256).map Prod.snd).getD []⟩], lists.2)

def computeDelta (installed target : List ManifestEntry) : BuildDelta :=
  let installedByPath := indexByPath installed
  let reusable := survivingContent installedByPath target
  let lists := target.foldl (planEntry installedByPath reusable) ([], [])
  sortPlan
    { kind := .Delta, fetch := lists.1, unchanged := lists.2
      remove := pathsToRemove installed (indexByPath target)
      downloadBytes := transferBytes lists.1, totalBytes := installedSize target }

/-! ## The loops in closed form -/

theorem find?_indexByPath (entries : List ManifestEntry) (path : Bytes) :
    (indexByPath entries).find? path
      = entries.find? (fun e => decide (e.relativePath = path)) := by
  rw [indexByPath, Table.find?_foldl_insert, Table.find?_empty, Option.none_or]

/-- What an install holds: the blob at each path. -/
def contents (entries : List ManifestEntry) (path : Bytes) : Option Bytes :=
  (entries.find? (fun e => decide (e.relativePath = path))).map (·.blobSha256)

theorem contents_eq_some {entries : List ManifestEntry} {path blob : Bytes}
    (h : contents entries path = some blob) :
    ∃ e ∈ entries, e.relativePath = path ∧ e.blobSha256 = blob := by
  obtain ⟨e, he, hb⟩ := Option.map_eq_some_iff.mp h
  exact ⟨e, List.mem_of_find?_eq_some he, by simpa using List.find?_some he, hb⟩

theorem contents_eq_none {entries : List ManifestEntry} {path : Bytes} :
    contents entries path = none ↔ path ∉ entries.map (·.relativePath) := by
  simp [contents, List.find?_eq_none]

theorem contents_of_mem {entries : List ManifestEntry}
    (hnd : (entries.map (·.relativePath)).Nodup) {e : ManifestEntry} (he : e ∈ entries) :
    contents entries e.relativePath = some e.blobSha256 := by
  cases hc : contents entries e.relativePath with
  | none =>
      exact absurd (List.mem_map_of_mem (f := (·.relativePath)) he) (contents_eq_none.mp hc)
  | some blob =>
      obtain ⟨x, hx, hp, rfl⟩ := contents_eq_some hc
      rw [eq_of_path_eq hnd hx he hp]

/-- The install has the entry's blob at the entry's path. -/
def kept (installed : List ManifestEntry) (entry : ManifestEntry) : Bool :=
  decide (contents installed entry.relativePath = some entry.blobSha256)

theorem holds_indexByPath (installed : List ManifestEntry) (entry : ManifestEntry) :
    (indexByPath installed).holds entry = kept installed entry := by
  unfold PathIndex.holds kept contents
  rw [find?_indexByPath]
  cases installed.find? (fun e => decide (e.relativePath = entry.relativePath)) with
  | none => simp
  | some found => by_cases h : found.blobSha256 = entry.blobSha256 <;> simp [h]

/-- The path that a file with this blob is copied from, or the empty path. -/
def copySource (installed target : List ManifestEntry) (blob : Bytes) : Bytes :=
  (((target.filter (kept installed)).find? (fun e => decide (e.blobSha256 = blob))).map
    (·.relativePath)).getD []

theorem reusable_eq (installed target : List ManifestEntry) (blob : Bytes) :
    (((survivingContent (indexByPath installed) target).find? blob).map Prod.snd).getD []
      = copySource installed target blob := by
  have hfold : survivingContent (indexByPath installed) target
      = ((target.filter (kept installed)).map
          (fun e => (e.blobSha256, e.relativePath))).foldl Table.insert Table.empty := by
    rw [List.foldl_map, List.foldl_filter]
    simp only [survivingContent, holds_indexByPath]
  rw [hfold, Table.find?_foldl_insert, Table.find?_empty, Option.none_or, List.find?_map,
    Option.map_map]
  rfl

theorem planEntry_fold (installed : PathIndex)
    (reusable : Table (Prod.fst : Bytes × Bytes → Bytes)) (target : List ManifestEntry) :
    ∀ lists, target.foldl (planEntry installed reusable) lists =
      (lists.1 ++ (target.filter (fun e => !installed.holds e)).map (fun e =>
          ⟨e, ((reusable.find? e.blobSha256).map Prod.snd).getD []⟩),
        lists.2 ++ target.filter installed.holds) := by
  induction target with
  | nil => simp
  | cons e rest ih =>
      intro lists
      rw [List.foldl_cons, ih, planEntry]
      cases h : installed.holds e <;> simp [h]

/-- Sorting the fetched files is sorting their entries. -/
theorem sort_fetch (entries : List ManifestEntry) (copyFrom : ManifestEntry → Bytes) :
    (entries.map (fun e => DeltaFile.mk e (copyFrom e))).insertionSort
        (fun lhs rhs => lhs.entry.relativePath ≤ rhs.entry.relativePath)
      = (sortByPath entries).map (fun e => ⟨e, copyFrom e⟩) :=
  (List.map_insertionSort (fun lhs rhs : ManifestEntry => lhs.relativePath ≤ rhs.relativePath)
    (fun lhs rhs : DeltaFile => lhs.entry.relativePath ≤ rhs.entry.relativePath)
    (fun e => DeltaFile.mk e (copyFrom e)) entries (fun _ _ _ _ => Iff.rfl)).symm

def removedPaths (installed target : List ManifestEntry) : List Bytes :=
  ((installed.map (·.relativePath)).filter
    (fun path => decide (path ∉ target.map (·.relativePath)))).insertionSort
      (fun lhs rhs => lhs ≤ rhs)

theorem sort_pathsToRemove (installed target : List ManifestEntry) :
    (pathsToRemove installed (indexByPath target)).insertionSort (fun lhs rhs => lhs ≤ rhs)
      = removedPaths installed target := by
  unfold pathsToRemove removedPaths
  congr 1
  rw [List.filter_map]
  congr 1
  refine List.filter_congr (fun e _ => ?_)
  have hc : contents target e.relativePath = none ↔ _ := contents_eq_none
  rw [contents, Option.map_eq_none_iff] at hc
  rw [find?_indexByPath, Bool.eq_iff_iff, Option.isNone_iff_eq_none, hc]
  exact decide_eq_true_iff.symm

theorem computeDelta_eq (installed target : List ManifestEntry) :
    computeDelta installed target =
      { kind := .Delta
        fetch := (sortByPath (target.filter (fun e => !kept installed e))).map
          (fun e => ⟨e, copySource installed target e.blobSha256⟩)
        unchanged := sortByPath (target.filter (kept installed))
        remove := removedPaths installed target
        downloadBytes := transferBytes ((target.filter (fun e => !kept installed e)).map
          (fun e => ⟨e, copySource installed target e.blobSha256⟩))
        totalBytes := installedSize target } := by
  have hlists := planEntry_fold (indexByPath installed)
    (survivingContent (indexByPath installed) target) target ([], [])
  simp only [reusable_eq, holds_indexByPath, List.nil_append] at hlists
  simp only [computeDelta, sortPlan, hlists, sort_fetch, sort_pathsToRemove]
  congr 3
  exact funext (holds_indexByPath installed)

theorem fullDownload_eq (installed target : List ManifestEntry) :
    fullDownload installed target =
      { kind := .Full
        fetch := (sortByPath target).map (fun e => ⟨e, []⟩)
        unchanged := []
        remove := removedPaths installed target
        downloadBytes := transferBytes (target.map (fun e => ⟨e, []⟩))
        totalBytes := installedSize target } := by
  simp only [fullDownload, sortPlan, sort_fetch target (fun _ => []), sort_pathsToRemove]
  rfl

/-- What a plan makes of a directory: at a path of the target the target's file, at another
path of the install nothing, elsewhere what was there. -/
def DeltaPlans.replaced (installed target : List ManifestEntry) (directory : Bytes → Option Bytes)
    (path : Bytes) : Option Bytes :=
  if path ∈ target.map (·.relativePath) then contents target path
  else if path ∈ installed.map (·.relativePath) then none
  else directory path

end Launcher
