import Launcher.Domain.DeltaPlans
import Launcher.Storefront.InstallChecks

set_option autoImplicit false

/-! # What a download costs

A plan writes paths and transfers blobs: a blob is counted once, however many paths it goes to,
and not at all where it is copied. The sums of the source are over `int64_t`; the versions with
checked additions (`transferBytes64` and the others) fail when one of them leaves the range. -/

namespace Launcher.Storefront

open Launcher.Lib Launcher.DeltaPlans

/-! ## Sums in 64 bits -/

/-- An addition of `int64_t`: nothing is said of a sum out of range. -/
def addInt64 (a b : Int) : Option Int :=
  if -2 ^ 63 ≤ a + b ∧ a + b < 2 ^ 63 then some (a + b) else none

theorem addInt64_eq {a b : Int} (ha : 0 ≤ a) (hb : 0 ≤ b) (h : a + b < 2 ^ 63) :
    addInt64 a b = some (a + b) :=
  if_pos ⟨by omega, h⟩

def countTransfer64 (state : List Bytes × Int) (file : DeltaFile) : Option (List Bytes × Int) :=
  if !file.copyFromRelativePath.isEmpty then some state
  else if state.1.contains file.entry.blobSha256 then some state
  else (addInt64 state.2 file.entry.sizeBytes).map (fun bytes =>
    (file.entry.blobSha256 :: state.1, bytes))

def transferBytes64 (fetch : List DeltaFile) : Option Int :=
  (fetch.foldlM countTransfer64 ([], 0)).map Prod.snd

def installedSize64 (target : List ManifestEntry) : Option Int :=
  target.foldlM (fun bytes entry => addInt64 bytes entry.sizeBytes) 0

def fullDownload64 (installed target : List ManifestEntry) : Option BuildDelta := do
  let totalBytes ← installedSize64 target
  let downloadBytes ← transferBytes64 (target.map (fun entry => ⟨entry, []⟩))
  some { fullDownload installed target with downloadBytes, totalBytes }

def computeDelta64 (installed target : List ManifestEntry) : Option BuildDelta := do
  let installedByPath := indexByPath installed
  let lists := target.foldl
    (planEntry installedByPath (survivingContent installedByPath target)) ([], [])
  let totalBytes ← installedSize64 target
  let downloadBytes ← transferBytes64 lists.1
  some { computeDelta installed target with downloadBytes, totalBytes }

def distinctBlobBytes64 (files : List DownloadFile) : Option Int :=
  (files.foldlM (fun (counted : List Bytes × Int) file =>
    if counted.1.contains file.entry.blobSha256 then some counted
    else (addInt64 counted.2 file.entry.sizeBytes).map (fun bytes =>
      (file.entry.blobSha256 :: counted.1, bytes))) ([], 0)).map Prod.snd

/-- The repair list, as files that are not copied. -/
theorem distinctBlobBytes_eq (files : List DownloadFile) :
    distinctBlobBytes files = transferBytes (files.map (fun f => ⟨f.entry, []⟩)) ∧
    distinctBlobBytes64 files = transferBytes64 (files.map (fun f => ⟨f.entry, []⟩)) := by
  unfold distinctBlobBytes transferBytes distinctBlobBytes64 transferBytes64
  rw [List.foldl_map, List.foldlM_map]
  exact ⟨rfl, rfl⟩

/-- What `n` files of at most this size can add up to stays in range. -/
def MAX_FILE_BYTES : Int := 2 ^ 40

theorem countTransfer64_fold (fetch : List DeltaFile)
    (hsize : ∀ f ∈ fetch, 0 ≤ f.entry.sizeBytes ∧ f.entry.sizeBytes ≤ MAX_FILE_BYTES) :
    ∀ state : List Bytes × Int, 0 ≤ state.2 →
      state.2 + fetch.length * MAX_FILE_BYTES < 2 ^ 63 →
      fetch.foldlM countTransfer64 state = some (fetch.foldl countTransfer state) := by
  induction fetch with
  | nil => intro state _ _; rfl
  | cons f rest ih =>
      intro state hstate hroom
      obtain ⟨hlow, hhigh⟩ := hsize f List.mem_cons_self
      have ih' := ih (fun g hg => hsize g (List.mem_cons_of_mem _ hg))
      unfold MAX_FILE_BYTES at hroom hhigh ih'
      rw [List.length_cons] at hroom
      push_cast at hroom
      have hstep : countTransfer64 state f = some (countTransfer state f) := by
        unfold countTransfer64 countTransfer
        split
        · rfl
        · split
          · rfl
          · rw [addInt64_eq hstate hlow (by omega)]
            rfl
      have hbytes : 0 ≤ (countTransfer state f).2 ∧
          (countTransfer state f).2 ≤ state.2 + f.entry.sizeBytes := by
        unfold countTransfer
        split
        · exact ⟨hstate, by omega⟩
        · split
          · exact ⟨hstate, by omega⟩
          · exact ⟨add_nonneg hstate hlow, le_refl _⟩
      -- the sum has grown by one file at most, which leaves room for the rest
      rw [List.foldlM_cons, hstep, List.foldl_cons]
      exact ih' _ hbytes.1 (by omega)

theorem installedSize64_fold (target : List ManifestEntry)
    (hsize : ∀ e ∈ target, 0 ≤ e.sizeBytes ∧ e.sizeBytes ≤ MAX_FILE_BYTES) :
    ∀ bytes : Int, 0 ≤ bytes → bytes + target.length * MAX_FILE_BYTES < 2 ^ 63 →
      target.foldlM (fun bytes entry => addInt64 bytes entry.sizeBytes) bytes
        = some (bytes + installedSize target) := by
  induction target with
  | nil =>
      intro bytes _ _
      simp [installedSize]
  | cons e rest ih =>
      intro bytes hbytes hroom
      obtain ⟨hlow, hhigh⟩ := hsize e List.mem_cons_self
      have ih' := ih (fun g hg => hsize g (List.mem_cons_of_mem _ hg)) (bytes + e.sizeBytes)
      unfold MAX_FILE_BYTES at hroom hhigh ih'
      rw [List.length_cons] at hroom
      push_cast at hroom
      rw [List.foldlM_cons, addInt64_eq hbytes hlow (by omega)]
      show rest.foldlM _ (bytes + e.sizeBytes) = _
      rw [ih' (by omega) (by omega), installedSize, installedSize, List.map_cons, List.sum_cons,
        add_assoc]

section Sized

variable {size : Bytes → Int} {installed target : List ManifestEntry}

/-- The blobs of a list of files, each once, weigh no more than the files. -/
theorem sum_blobs_le {files : List ManifestEntry}
    (hsize : ∀ e ∈ files, e.sizeBytes = size e.blobSha256)
    (hnonneg : ∀ e ∈ files, 0 ≤ e.sizeBytes) :
    ∑ blob ∈ (files.map (·.blobSha256)).toFinset, size blob ≤ installedSize files := by
  induction files with
  | nil => simp [installedSize]
  | cons e rest ih =>
      have ih' := ih (fun g hg => hsize g (List.mem_cons_of_mem _ hg))
        (fun g hg => hnonneg g (List.mem_cons_of_mem _ hg))
      have he := hsize e List.mem_cons_self
      have hpos := hnonneg e List.mem_cons_self
      have htotal : installedSize (e :: rest) = e.sizeBytes + installedSize rest := by
        simp [installedSize]
      rw [List.map_cons, List.toFinset_cons, htotal]
      by_cases hmem : e.blobSha256 ∈ (rest.map (·.blobSha256)).toFinset
      · rw [Finset.insert_eq_of_mem hmem]
        omega
      · rw [Finset.sum_insert hmem]
        omega

/-- Fewer blobs, fewer bytes. -/
theorem sum_blobs_mono {some all : List Bytes}
    (hsize : ∀ e ∈ target, e.sizeBytes = size e.blobSha256)
    (hnonneg : ∀ e ∈ target, 0 ≤ e.sizeBytes)
    (hall : ∀ blob ∈ all, ∃ e ∈ target, e.blobSha256 = blob)
    (hsub : ∀ blob ∈ some, blob ∈ all) :
    ∑ blob ∈ some.toFinset, size blob ≤ ∑ blob ∈ all.toFinset, size blob := by
  apply Finset.sum_le_sum_of_subset_of_nonneg
  · intro blob hblob
    exact List.mem_toFinset.mpr (hsub blob (List.mem_toFinset.mp hblob))
  · intro blob hblob _
    obtain ⟨e, he, rfl⟩ := hall blob (List.mem_toFinset.mp hblob)
    rw [← hsize e he]
    exact hnonneg e he

/-- The blobs a plan from one install to another has to transfer. -/
theorem mem_downloads_computeDelta
    (hpath : ∀ u ∈ target, kept installed u → u.relativePath ≠ []) (blob : Bytes) :
    blob ∈ downloads (computeDelta installed target).fetch ↔
      (∃ e ∈ target, e.blobSha256 = blob) ∧
      ∀ u ∈ (computeDelta installed target).unchanged, u.blobSha256 ≠ blob := by
  have hunchanged : ∀ u, u ∈ sortByPath (target.filter (kept installed)) ↔
      u ∈ target.filter (kept installed) := fun u => (sortByPath_perm _).mem_iff
  have hfetch : ∀ e, e ∈ sortByPath (target.filter (fun e => !kept installed e)) ↔
      e ∈ target.filter (fun e => !kept installed e) := fun e => (sortByPath_perm _).mem_iff
  rw [computeDelta_eq]
  simp only [mem_downloads _ (fun e => copySource installed target e.blobSha256), hfetch,
    hunchanged, copySource_eq_nil_iff hpath]
  constructor
  · rintro ⟨e, he, hnone, rfl⟩
    exact ⟨⟨e, (List.mem_filter.mp he).1, rfl⟩, hnone⟩
  · rintro ⟨⟨e, he, rfl⟩, hnone⟩
    refine ⟨e, List.mem_filter.mpr ⟨he, ?_⟩, hnone, rfl⟩
    -- a file that is kept is unchanged, and then its blob is not downloaded
    by_contra hkept
    have hmem : e ∈ target.filter (kept installed) :=
      List.mem_filter.mpr ⟨he, by simpa using hkept⟩
    exact hnone e hmem rfl

theorem downloads_subset_target (blob : Bytes)
    (h : blob ∈ downloads (computeDelta installed target).fetch) :
    ∃ e ∈ target, e.blobSha256 = blob := by
  rw [computeDelta_eq] at h
  obtain ⟨e, he, _, rfl⟩ :=
    (mem_downloads _ (fun e => copySource installed target e.blobSha256) blob).mp h
  exact ⟨e, (List.mem_filter.mp ((sortByPath_perm _).mem_iff.mp he)).1, rfl⟩

theorem transferBytes_map {entries : List ManifestEntry} {copyFrom : ManifestEntry → Bytes}
    (hsize : ∀ e ∈ entries, e.sizeBytes = size e.blobSha256) :
    transferBytes (entries.map (fun e => ⟨e, copyFrom e⟩))
      = ∑ blob ∈ (downloads (entries.map (fun e => ⟨e, copyFrom e⟩))).toFinset, size blob := by
  have hsized : ∀ f ∈ entries.map (fun e => DeltaFile.mk e (copyFrom e)),
      f.entry.sizeBytes = size f.entry.blobSha256 := by
    intro f hf
    obtain ⟨e, he, rfl⟩ := List.mem_map.mp hf
    exact hsize e he
  exact transferBytes_eq hsized

/-- The transfer of a plan does not depend on the order of its files. -/
theorem transferBytes_sorted {entries : List ManifestEntry} {copyFrom : ManifestEntry → Bytes}
    (hsize : ∀ e ∈ entries, e.sizeBytes = size e.blobSha256) :
    transferBytes (entries.map (fun e => ⟨e, copyFrom e⟩))
      = ∑ blob ∈ (downloads ((sortByPath entries).map (fun e => ⟨e, copyFrom e⟩))).toFinset,
          size blob := by
  rw [transferBytes_map hsize]
  congr 1
  ext blob
  rw [List.mem_toFinset, List.mem_toFinset, mem_downloads, mem_downloads]
  simp only [(sortByPath_perm entries).mem_iff]

theorem computeDelta_bytes (hsize : ∀ e ∈ target, e.sizeBytes = size e.blobSha256) :
    (computeDelta installed target).downloadBytes
      = ∑ blob ∈ (downloads (computeDelta installed target).fetch).toFinset, size blob := by
  rw [computeDelta_eq]
  exact transferBytes_sorted (fun e he => hsize e (List.mem_filter.mp he).1)

/-- Where nothing is copied, every blob of the files is transferred. -/
theorem transferBytes_uncopied {entries : List ManifestEntry}
    (hsize : ∀ e ∈ entries, e.sizeBytes = size e.blobSha256) :
    transferBytes (entries.map (fun e => ⟨e, []⟩))
      = ∑ blob ∈ (entries.map (·.blobSha256)).toFinset, size blob := by
  rw [transferBytes_map hsize]
  congr 1
  ext blob
  rw [List.mem_toFinset, List.mem_toFinset, mem_downloads entries (fun _ => [])]
  simp

theorem fullDownload_bytes (hsize : ∀ e ∈ target, e.sizeBytes = size e.blobSha256) :
    (fullDownload installed target).downloadBytes
      = ∑ blob ∈ (target.map (·.blobSha256)).toFinset, size blob := by
  rw [fullDownload_eq]
  exact transferBytes_uncopied hsize

/-- The files to repair are the files of the manifest that were not found as they should be. -/
theorem repair_entries (env : Env) (ownership : BuildOwnership) (build : Build)
    (reported : List InstalledFile) (observed : Observed) (expected : List ManifestEntry)
    (now : Nat) :
    (env.reportOf ownership build reported observed expected now).repair.map (·.entry)
      = expected.filter (fun e =>
          !isMatching (fun path => (observed.find? path).map (·.sha256)) e) := by
  have hfound := @compare_fold observed _ (fun _ => rfl) expected {}
  show ((env.signAll (Comparison.damaged (expected.foldl (compareEntry observed) {})) _).map
    (·.entry)) = _
  rw [hfound, Env.signAll, List.map_map]
  show List.map _ (List.map _ _) = _
  rw [List.map_map]
  exact List.map_id _

/-! ## Within 64 bits -/

/-- A manifest whose files are not absurdly large. -/
structure Bounded (files : List ManifestEntry) : Prop where
  length : files.length ≤ MAX_MANIFEST_ENTRIES
  sizes : ∀ e ∈ files, 0 ≤ e.sizeBytes ∧ e.sizeBytes ≤ MAX_FILE_BYTES

theorem Bounded.room {files : List ManifestEntry} (h : Bounded files) :
    (0 : Int) + files.length * MAX_FILE_BYTES < 2 ^ 63 := by
  have hlength := h.length
  unfold MAX_MANIFEST_ENTRIES at hlength
  unfold MAX_FILE_BYTES
  omega

theorem Bounded.sublist {files some : List ManifestEntry} (h : Bounded files)
    (hsub : some.Sublist files) : Bounded some :=
  ⟨hsub.length_le.trans h.length, fun e he => h.sizes e (hsub.subset he)⟩

theorem Bounded.transferBytes64 {files : List ManifestEntry} (h : Bounded files)
    (copyFrom : ManifestEntry → Bytes) :
    transferBytes64 (files.map (fun e => ⟨e, copyFrom e⟩))
      = some (transferBytes (files.map (fun e => ⟨e, copyFrom e⟩))) := by
  have hroom := h.room
  unfold Storefront.transferBytes64 transferBytes
  rw [countTransfer64_fold _ ?_ ([], 0) (le_refl _) (by rwa [List.length_map])]
  · rfl
  · intro f hf
    obtain ⟨e, he, rfl⟩ := List.mem_map.mp hf
    exact h.sizes e he

theorem Bounded.installedSize64 {files : List ManifestEntry} (h : Bounded files) :
    installedSize64 files = some (installedSize files) := by
  rw [Storefront.installedSize64, installedSize64_fold files h.sizes 0 (le_refl _) h.room,
    Int.zero_add]

theorem Bounded.fullDownload64 (h : Bounded target) :
    fullDownload64 installed target = some (fullDownload installed target) := by
  rw [Storefront.fullDownload64, h.installedSize64, h.transferBytes64 (fun _ => [])]
  rfl

theorem Bounded.computeDelta64 (h : Bounded target) :
    computeDelta64 installed target = some (computeDelta installed target) := by
  have hlists := planEntry_fold (indexByPath installed)
    (survivingContent (indexByPath installed) target) target ([], [])
  have hfetched := h.sublist
    (List.filter_sublist (l := target) (p := fun e => !(indexByPath installed).holds e))
  simp only [Storefront.computeDelta64, h.installedSize64, hlists, List.nil_append,
    hfetched.transferBytes64 (fun e => _)]
  simp only [computeDelta, hlists, List.nil_append]
  rfl

/-! ## Repairs -/

theorem repair_cost (hsize : ∀ e ∈ target, e.sizeBytes = size e.blobSha256)
    (hnonneg : ∀ e ∈ target, 0 ≤ e.sizeBytes) {files : List DownloadFile}
    (hfiles : (files.map (·.entry)).Sublist target) :
    distinctBlobBytes files = ∑ blob ∈ (files.map (·.entry.blobSha256)).toFinset, size blob ∧
    distinctBlobBytes files ≤ (fullDownload installed target).downloadBytes ∧
    (Bounded target → distinctBlobBytes64 files = some (distinctBlobBytes files)) := by
  obtain ⟨hplain, hchecked⟩ := distinctBlobBytes_eq files
  have hentries : files.map (fun f => DeltaFile.mk f.entry [])
      = (files.map (·.entry)).map (fun e => DeltaFile.mk e []) := by
    rw [List.map_map]
    rfl
  have hblobs : files.map (·.entry.blobSha256) = (files.map (·.entry)).map (·.blobSha256) := by
    rw [List.map_map]
    rfl
  have hsum : distinctBlobBytes files
      = ∑ blob ∈ (files.map (·.entry.blobSha256)).toFinset, size blob := by
    rw [hplain, hentries, hblobs]
    exact transferBytes_uncopied (fun e he => hsize e (hfiles.subset he))
  refine ⟨hsum, ?_, fun hbounded => ?_⟩
  · rw [hsum, fullDownload_bytes hsize]
    refine sum_blobs_mono hsize hnonneg (fun blob hblob => ?_) (fun blob hblob => ?_)
    · exact List.mem_map.mp hblob
    · rw [hblobs] at hblob
      exact (hfiles.map _).subset hblob
  · rw [hchecked, hplain, hentries]
    exact (hbounded.sublist hfiles).transferBytes64 (fun _ => [])

end Sized

/-! ## The theorem -/

/-- **Transfer cost is exact and never worse than a full download.** For a target in which a
blob has one size. The blobs to transfer are those at no unchanged path unless a file is
unchanged at the empty path, which the plan takes for "nowhere". -/
theorem transfer_cost (size : Bytes → Int) (installed target : List ManifestEntry)
    (hsize : ∀ e ∈ target, e.sizeBytes = size e.blobSha256)
    (hnonneg : ∀ e ∈ target, 0 ≤ e.sizeBytes) :
    let delta := computeDelta installed target
    let full := fullDownload installed target
    delta.downloadBytes = ∑ blob ∈ (downloads delta.fetch).toFinset, size blob ∧
    ((∀ u ∈ delta.unchanged, u.relativePath ≠ []) → ∀ blob, blob ∈ downloads delta.fetch ↔
      (∃ e ∈ target, e.blobSha256 = blob) ∧ ∀ u ∈ delta.unchanged, u.blobSha256 ≠ blob) ∧
    delta.downloadBytes ≤ full.downloadBytes ∧ full.downloadBytes ≤ delta.totalBytes ∧
    delta.totalBytes = (target.map (·.sizeBytes)).sum ∧ full.totalBytes = delta.totalBytes ∧
    (target.length ≤ MAX_MANIFEST_ENTRIES → (∀ e ∈ target, e.sizeBytes ≤ MAX_FILE_BYTES) →
      computeDelta64 installed target = some delta ∧ fullDownload64 installed target = some full) ∧
    ∀ (env : Env) (ownership : BuildOwnership) (build : Build) (reported : List InstalledFile)
      (observed : Observed) (now : Nat),
      let report := env.reportOf ownership build reported observed target now
      report.repairBytes
        = ∑ blob ∈ (report.repair.map (·.entry.blobSha256)).toFinset, size blob ∧
      report.repairBytes ≤ full.downloadBytes ∧
      (target.length ≤ MAX_MANIFEST_ENTRIES → (∀ e ∈ target, e.sizeBytes ≤ MAX_FILE_BYTES) →
        distinctBlobBytes64 report.repair = some report.repairBytes) := by
  have hbounded : target.length ≤ MAX_MANIFEST_ENTRIES →
      (∀ e ∈ target, e.sizeBytes ≤ MAX_FILE_BYTES) → Bounded target :=
    fun hlength hmax => ⟨hlength, fun e he => ⟨hnonneg e he, hmax e he⟩⟩
  have hunchanged : (∀ u ∈ (computeDelta installed target).unchanged, u.relativePath ≠ []) →
      ∀ u ∈ target, kept installed u → u.relativePath ≠ [] := by
    intro h u hu hkept
    apply h u
    rw [computeDelta_eq]
    exact (sortByPath_perm _).mem_iff.mpr (List.mem_filter.mpr ⟨hu, hkept⟩)
  refine ⟨computeDelta_bytes hsize, fun h => mem_downloads_computeDelta (hunchanged h), ?_, ?_,
    rfl, rfl, fun hlength hmax => ?_, fun env ownership build reported observed now => ?_⟩
  · rw [computeDelta_bytes hsize, fullDownload_bytes hsize]
    refine sum_blobs_mono hsize hnonneg (fun blob hblob => List.mem_map.mp hblob)
      (fun blob hblob => ?_)
    exact List.mem_map.mpr (downloads_subset_target blob hblob)
  · rw [fullDownload_bytes hsize]
    exact sum_blobs_le hsize hnonneg
  · exact ⟨(hbounded hlength hmax).computeDelta64, (hbounded hlength hmax).fullDownload64⟩
  · have hsub : ((env.reportOf ownership build reported observed target now).repair.map
        (·.entry)).Sublist target := by
      rw [repair_entries]
      exact List.filter_sublist
    obtain ⟨hsum, hle, hchecked⟩ := repair_cost hsize hnonneg hsub
    exact ⟨hsum, hle, fun hlength hmax => hchecked (hbounded hlength hmax)⟩

def demoSize (blob : Bytes) : Int :=
  if blob = ascii "x" then 1 else if blob = ascii "y" then 2 else 3

theorem transfer_cost_swapped :
    (computeDelta before afterwards).downloadBytes = 3 ∧
    (∀ blob, blob ∈ downloads (computeDelta before afterwards).fetch ↔
      (∃ e ∈ afterwards, e.blobSha256 = blob) ∧
      ∀ u ∈ (computeDelta before afterwards).unchanged, u.blobSha256 ≠ blob) ∧
    (fullDownload before afterwards).downloadBytes ≤ 9 ∧
    computeDelta64 before afterwards = some (computeDelta before afterwards) := by
  obtain ⟨hsum, hblobs, _, hle, htotal, _, hchecked, _⟩ :=
    transfer_cost demoSize before afterwards (by decide) (by decide)
  refine ⟨?_, hblobs (by decide), ?_, (hchecked (by decide) (by decide)).1⟩
  · rw [hsum]
    decide
  · rw [htotal] at hle
    exact hle

/-- A file unchanged at the empty path: the other file of its content is copied from nowhere,
that is, transferred. -/
theorem transfer_cost_empty_path :
    ([file [] (ascii "x") 1, file (ascii "b") (ascii "x") 1].map (·.relativePath)).Nodup ∧
    SizedByBlob [file [] (ascii "x") 1, file (ascii "b") (ascii "x") 1] ∧
    ¬ ∀ blob, blob ∈ downloads (computeDelta [file [] (ascii "x") 1]
          [file [] (ascii "x") 1, file (ascii "b") (ascii "x") 1]).fetch ↔
        (∃ e ∈ [file [] (ascii "x") 1, file (ascii "b") (ascii "x") 1], e.blobSha256 = blob) ∧
        ∀ u ∈ (computeDelta [file [] (ascii "x") 1]
          [file [] (ascii "x") 1, file (ascii "b") (ascii "x") 1]).unchanged,
          u.blobSha256 ≠ blob := by
  unfold SizedByBlob
  refine ⟨by decide, by decide, fun h => ?_⟩
  have hx := (h (ascii "x")).mp (by decide)
  exact hx.2 (file [] (ascii "x") 1) (by decide) rfl

end Launcher.Storefront
