import Launcher.Lib.Paths
import Launcher.Domain.Validation
import Launcher.Database.Statements

set_option autoImplicit false

/-! # Paths of a manifest

What `validateRelativePath` accepts, as a grammar (`SafePath`); that the CHECK on `build_files`
accepts it as well; and that such a path cannot lead out of the directory it is joined to. A
whole file list is the files of a directory tree unless one of its paths lies below
another, which `validateManifest` does not ask. -/

namespace Launcher

open Launcher.Lib

/-! ## The scanner -/

/-- `path.find(c, start)`. -/
def findFrom (path : Bytes) (c : UInt8) (start : Nat) : Option Nat :=
  ((path.drop start).findIdx? (· == c)).map (start + ·)

theorem le_of_findFrom {path : Bytes} {c : UInt8} {start separator : Nat}
    (h : findFrom path c start = some separator) : start ≤ separator := by
  obtain ⟨i, _, rfl⟩ := Option.map_eq_some_iff.mp h
  exact Nat.le_add_right start i

/-- The loop of `validateRelativePath` over positions. -/
def scanSegments (path : Bytes) (start : Nat) : VoidResult :=
  if start ≤ path.length then
    match h : findFrom path slash start with
    | none => validateSegment path (path.drop start)
    | some separator => do
        validateSegment path ((path.drop start).take (separator - start))
        scanSegments path (separator + 1)
  else .ok ()
termination_by path.length + 1 - start
decreasing_by
  have := le_of_findFrom h
  omega

theorem splitOn_of_findIdx?_none {rest : Bytes} (h : rest.findIdx? (· == slash) = none) :
    rest.splitOn slash = [rest] := by
  apply List.splitOn_eq_singleton
  intro hmem
  have hno := List.findIdx?_eq_none_iff.mp h slash hmem
  simp at hno

theorem splitOn_of_findIdx?_some {rest : Bytes} {i : Nat}
    (h : rest.findIdx? (· == slash) = some i) :
    i < rest.length ∧
      rest.splitOn slash = rest.take i :: (rest.drop (i + 1)).splitOn slash := by
  obtain ⟨hlt, hat, hbefore⟩ := List.findIdx?_eq_some_iff_getElem.mp h
  have hslash : rest[i] = slash := by simpa using hat
  refine ⟨hlt, ?_⟩
  have hcut : rest = rest.take i ++ slash :: rest.drop (i + 1) := by
    rw [← hslash, ← List.drop_eq_getElem_cons hlt, List.take_append_drop]
  have hno : slash ∉ rest.take i := by
    intro hmem
    obtain ⟨j, hj, hget⟩ := List.mem_take_iff_getElem.mp hmem
    have hne := hbefore j (by omega)
    rw [hget] at hne
    simp at hne
  conv_lhs => rw [hcut]
  rw [List.splitOn_append_cons_self, List.splitOn_eq_singleton hno, List.singleton_append]

/-- The positions the loop visits are the segments of the path. -/
theorem scanSegments_eq (path : Bytes) (start : Nat) (hstart : start ≤ path.length) :
    scanSegments path start = validateSegments path ((path.drop start).splitOn slash) := by
  -- by the loop: a last segment, a segment with others behind it
  induction start using scanSegments.induct path with
  | case1 start _ hfind =>
      have hnone : (path.drop start).findIdx? (· == slash) = none := by
        simpa [findFrom] using hfind
      rw [scanSegments, if_pos hstart, splitOn_of_findIdx?_none hnone, validateSegments]
      split
      · cases validateSegment path (path.drop start) with
        | error e => rfl
        | ok _ => rfl
      · rename_i hsome
        rw [hfind] at hsome
        cases hsome
  | case2 start _ separator hfind ih =>
      obtain ⟨i, hi, hseparator⟩ := Option.map_eq_some_iff.mp hfind
      obtain ⟨hlt, hsplit⟩ := splitOn_of_findIdx?_some hi
      have hsize : separator + 1 ≤ path.length := by
        rw [List.length_drop] at hlt
        omega
      have hdrop : (path.drop start).drop (i + 1) = path.drop (separator + 1) := by
        rw [List.drop_drop, ← hseparator]
        rfl
      have htake : separator - start = i := by omega
      rw [scanSegments, if_pos hstart, hsplit, validateSegments, hdrop]
      split
      · rename_i hno
        rw [hfind] at hno
        cases hno
      · rename_i found hsome
        rw [hfind] at hsome
        cases hsome
        rw [ih hsize, htake]
  | case3 start hout => exact absurd hstart hout

/-- The segments the check looks at are those its loop finds. -/
theorem validateSegments_eq_scan (path : Bytes) :
    validateSegments path (path.splitOn slash) = scanSegments path 0 := by
  rw [scanSegments_eq path 0 (Nat.zero_le _), List.drop_zero]

/-! ## What the check accepts -/

structure SafePath (path : Bytes) : Prop where
  nonempty : path ≠ []
  bounded : path.length ≤ MAX_RELATIVE_PATH_LENGTH
  noBackslash : 0x5c ∉ path
  noControl : ∀ c ∈ path, 0x20 ≤ c
  noDrive : ¬ ∃ c rest, path = c :: 0x3a :: rest ∧ isAlpha c = true
  names : ∀ segment ∈ path.splitOn slash,
    segment ≠ [] ∧ segment ≠ ascii "." ∧ segment ≠ ascii ".."

theorem hasDrive_iff {path : Bytes} :
    (path[1]? == some 0x3a && (path.head?.map isAlpha).getD false) = true ↔
      ∃ c rest, path = c :: 0x3a :: rest ∧ isAlpha c = true := by
  match path with
  | [] => simp
  | [c] => simp
  | c :: d :: rest =>
      simp only [List.getElem?_cons_succ, List.getElem?_cons_zero, List.head?_cons,
        Option.map_some, Option.getD_some, Bool.and_eq_true, beq_iff_eq, Option.some.injEq]
      constructor
      · rintro ⟨rfl, halpha⟩
        exact ⟨c, rest, rfl, halpha⟩
      · rintro ⟨c', rest', heq, halpha⟩
        cases heq
        exact ⟨rfl, halpha⟩

theorem validateSegment_iff {path segment : Bytes} :
    validateSegment path segment = .ok () ↔
      (segment ≠ [] ∧ segment ≠ ascii "." ∧ segment ≠ ascii "..") ∧ ∀ c ∈ segment, 0x20 ≤ c := by
  unfold validateSegment
  split
  · rename_i hempty
    refine iff_of_false (fun h => by cases h) (fun h => h.1.1 (by simpa using hempty))
  · rename_i hempty
    split
    · rename_i hdots
      refine iff_of_false (fun h => by cases h) (fun h => ?_)
      rcases Bool.or_eq_true _ _ ▸ hdots with hdot | hdot
      · exact h.1.2.1 (by simpa using hdot)
      · exact h.1.2.2 (by simpa using hdot)
    · rename_i hdots
      simp only [Bool.or_eq_true, beq_iff_eq, not_or] at hdots
      split
      · rename_i hcontrol
        refine iff_of_false (fun h => by cases h) (fun h => ?_)
        obtain ⟨c, hc, hlt⟩ := List.any_eq_true.mp hcontrol
        exact absurd (h.2 c hc) (not_le.mpr (by simpa using hlt))
      · rename_i hcontrol
        refine iff_of_true rfl ⟨⟨by simpa using hempty, hdots⟩, fun c hc => ?_⟩
        exact not_lt.mp (fun hlt => hcontrol (List.any_eq_true.mpr ⟨c, hc, by simpa using hlt⟩))

theorem validateSegments_iff {path : Bytes} {segments : List Bytes} :
    validateSegments path segments = .ok () ↔
      ∀ segment ∈ segments, validateSegment path segment = .ok () := by
  induction segments with
  | nil => simp [validateSegments]
  | cons segment rest ih =>
      rw [validateSegments, List.forall_mem_cons]
      cases h : validateSegment path segment with
      | error e => exact iff_of_false (fun h => by cases h) (fun h => by cases h.1)
      | ok u =>
          rw [← ih]
          exact ⟨fun hrest => ⟨rfl, hrest⟩, fun hboth => hboth.2⟩

theorem segments_noControl {path : Bytes} :
    (∀ segment ∈ path.splitOn slash, ∀ c ∈ segment, 0x20 ≤ c) ↔ ∀ c ∈ path, 0x20 ≤ c := by
  constructor
  · intro h c hc
    by_cases hslash : c = slash
    · rw [hslash]
      decide
    · obtain ⟨segment, hsegment, hmem⟩ := (Paths.exists_mem_splitOn hslash).mpr hc
      exact h segment hsegment c hmem
  · intro h segment hsegment c hc
    by_cases hslash : c = slash
    · rw [hslash]
      decide
    · exact h c ((Paths.exists_mem_splitOn hslash).mp ⟨segment, hsegment, hc⟩)

theorem SafePath.relative {path : Bytes} (h : SafePath path) : path.head? ≠ some slash := by
  intro hhead
  obtain ⟨rest, rfl⟩ := List.head?_eq_some_iff.mp hhead
  have hempty : [] ∈ (slash :: rest).splitOn slash := by
    rw [show slash :: rest = [] ++ slash :: rest from rfl, List.splitOn_append_cons_self]
    exact List.mem_append_left _ (by simp)
  exact (h.names [] hempty).1 rfl

/-- **The grammar of relative paths.** -/
theorem validateRelativePath_iff {path : Bytes} :
    validateRelativePath path = .ok () ↔ SafePath path := by
  have hsegments : validateSegments path (path.splitOn slash) = .ok () ↔
      (∀ segment ∈ path.splitOn slash,
        segment ≠ [] ∧ segment ≠ ascii "." ∧ segment ≠ ascii "..") ∧ ∀ c ∈ path, 0x20 ≤ c := by
    rw [validateSegments_iff, ← segments_noControl, ← forall₂_and]
    exact forall₂_congr (fun _ _ => validateSegment_iff)
  constructor
  · intro h
    unfold validateRelativePath at h
    split at h
    · cases h
    · rename_i hempty
      split at h
      · cases h
      · rename_i hlength
        split at h
        · cases h
        · -- that the path is relative follows from its segments, see `SafePath.relative`
          split at h
          · cases h
          · rename_i hbackslash
            split at h
            · cases h
            · rename_i hdrive
              obtain ⟨hnames, hcontrol⟩ := hsegments.mp h
              exact ⟨by simpa using hempty, not_lt.mp hlength, by simpa using hbackslash,
                hcontrol, fun hd => hdrive (hasDrive_iff.mpr hd), hnames⟩
  · intro h
    unfold validateRelativePath
    rw [if_neg (by simpa using h.nonempty), if_neg (not_lt.mpr h.bounded),
      if_neg (by simpa using h.relative), if_neg (by simpa using h.noBackslash),
      if_neg (fun hd => h.noDrive (hasDrive_iff.mp hd))]
    exact hsegments.mpr ⟨h.names, h.noControl⟩

/-! ## The CHECK on `build_files` -/

/-- `build_files_relative_path_safe`, with its regular expressions written out. -/
structure RelativePathCheck (path : Bytes) : Prop where
  nonempty : path ≠ []
  /-- `!~ '^/'` -/
  relative : ¬ [slash] <+: path
  /-- `!~ '(^|/)\.\.(/|$)'` -/
  noParent : ¬ ∃ front back, path = front ++ ascii ".." ++ back ∧
    (front = [] ∨ [slash] <:+ front) ∧ (back = [] ∨ [slash] <+: back)
  /-- `!~ '\\'` -/
  noBackslash : 0x5c ∉ path
  /-- `!~ '^[A-Za-z]:'` -/
  noDrive : ¬ ∃ c rest, path = c :: 0x3a :: rest ∧ isAlpha c = true

theorem relativePathSafe_iff {path : Bytes} :
    State.relativePathSafe path = true ↔ RelativePathCheck path := by
  have hparent : (path.splitOn slash).contains (ascii "..") = true ↔
      ∃ front back, path = front ++ ascii ".." ++ back ∧
        (front = [] ∨ [slash] <:+ front) ∧ (back = [] ∨ [slash] <+: back) := by
    rw [List.contains_iff_mem]
    exact Paths.mem_splitOn_iff (by decide)
  have hhead : path.head? = some slash ↔ [slash] <+: path := by
    rw [List.head?_eq_some_iff]
    exact exists_congr (fun rest => eq_comm)
  have hdrive : ((path[1]? == some 0x3a) = true ∧
      (path.head?.map isAlpha).getD false = true) ↔
      ∃ c rest, path = c :: 0x3a :: rest ∧ isAlpha c = true := by
    rw [← Bool.and_eq_true]
    exact hasDrive_iff
  unfold State.relativePathSafe
  simp only [Bool.and_eq_true, Bool.not_eq_true', bne_iff_ne, ne_eq, ← Bool.not_eq_true,
    hparent, hhead, hdrive]
  constructor
  · rintro ⟨⟨⟨⟨hempty, hrelative⟩, hno⟩, hbackslash⟩, hdrive⟩
    exact ⟨by simpa using hempty, hrelative, hno, by simpa using hbackslash, hdrive⟩
  · intro h
    exact ⟨⟨⟨⟨by simpa using h.nonempty, h.relative⟩, h.noParent⟩, by simpa using h.noBackslash⟩,
      h.noDrive⟩

/-- The database refuses no path the service accepts. -/
theorem SafePath.check {path : Bytes} (h : SafePath path) : RelativePathCheck path where
  nonempty := h.nonempty
  relative := by
    rintro ⟨rest, rfl⟩
    exact h.relative rfl
  noParent := by
    intro hparent
    exact (h.names _ ((Paths.mem_splitOn_iff (by decide)).mpr hparent)).2.2 rfl
  noBackslash := h.noBackslash
  noDrive := h.noDrive

/-! ## Inside the install directory -/

/-- **Path safety.** -/
theorem relative_path_safe (path : Bytes) :
    (validateRelativePath path = .ok () ↔ SafePath path) ∧
    (validateRelativePath path = .ok () →
      State.relativePathSafe path = true ∧ RelativePathCheck path ∧
      ∀ root : Bytes, Paths.Inside dot (Paths.resolve slash dot root)
        (Paths.resolve slash dot (Paths.join slash root path))) := by
  refine ⟨validateRelativePath_iff, fun h => ?_⟩
  have hsafe := validateRelativePath_iff.mp h
  exact ⟨relativePathSafe_iff.mpr hsafe.check, hsafe.check,
    Paths.inside_join (fun segment hsegment => hsafe.names segment hsegment)⟩

theorem relative_path_safe_nested :
    validateRelativePath (ascii "bin/..data/game.exe") = .ok () ∧
    State.relativePathSafe (ascii "bin/..data/game.exe") = true ∧
    Paths.Inside dot (Paths.resolve slash dot (ascii "/srv/../games/"))
      (Paths.resolve slash dot
        (Paths.join slash (ascii "/srv/../games/") (ascii "bin/..data/game.exe"))) := by
  have h : validateRelativePath (ascii "bin/..data/game.exe") = .ok () := by decide +kernel
  obtain ⟨hcheck, _, hinside⟩ := (relative_path_safe (ascii "bin/..data/game.exe")).2 h
  exact ⟨h, hcheck, hinside (ascii "/srv/../games/")⟩

/-! ## A file list as a directory tree -/

def ManifestEntry.segments (entry : ManifestEntry) : List Bytes :=
  entry.relativePath.splitOn slash

/-- There is a directory tree with just these files, every file and directory of it named. -/
def Installable (entries : List ManifestEntry) : Prop :=
  ∃ tree : Paths.FileTree Bytes,
    (∀ path, tree.node path = some .file ↔ path ∈ entries.map (·.segments)) ∧
    ∀ path, tree.node path ≠ none → ∀ name ∈ path, Paths.ProperName dot name

/-- No file's path goes on from another's with a slash. -/
def NoneBelow (entries : List ManifestEntry) : Prop :=
  ∀ e ∈ entries, ∀ f ∈ entries, ¬ e.relativePath ++ [slash] <+: f.relativePath

theorem prefixFree_segments {entries : List ManifestEntry} :
    Paths.PrefixFree (entries.map (·.segments)) ↔ NoneBelow entries := by
  constructor
  · intro hfree e he f hf hbelow
    obtain ⟨hstarts, hne⟩ := Paths.append_separator_prefix_iff.mp hbelow
    apply hne
    apply Paths.splitOn_injective
    exact hfree _ (List.mem_map_of_mem he) _ (List.mem_map_of_mem hf) hstarts
  · rintro hnone path hpath other hother hstarts
    obtain ⟨e, he, rfl⟩ := List.mem_map.mp hpath
    obtain ⟨f, hf, rfl⟩ := List.mem_map.mp hother
    by_contra hne
    apply hnone e he f hf
    apply Paths.append_separator_prefix_iff.mpr
    refine ⟨hstarts, fun heq => hne ?_⟩
    rw [ManifestEntry.segments, heq, ManifestEntry.segments]

/-- **When a validated manifest can be installed.** -/
theorem installable_iff {entries : List ManifestEntry} {entrypoint : Bytes}
    (h : validateManifest entries entrypoint = .ok ()) :
    Installable entries ↔ NoneBelow entries := by
  have hroot : [] ∉ entries.map (·.segments) := by
    intro hmem
    obtain ⟨e, _, hnil⟩ := List.mem_map.mp hmem
    exact List.splitOn_ne_nil slash e.relativePath hnil
  rw [← prefixFree_segments]
  constructor
  · rintro ⟨tree, hfiles, _⟩
    exact (Paths.exists_fileTree_iff.mp ⟨tree, hfiles⟩).2
  · intro hfree
    refine ⟨Paths.FileTree.spanned _ hroot hfree, Paths.FileTree.spanned_file_iff hroot hfree,
      fun path hnode name hname => ?_⟩
    obtain ⟨other, hother, hmem⟩ := Paths.FileTree.spanned_names hroot hfree hnode hname
    obtain ⟨e, he, rfl⟩ := List.mem_map.mp hother
    have hpath := (validateManifest_ok h).paths e he
    exact (validateRelativePath_iff.mp hpath).names name hmem

/-- A file with some blob. -/
def someFile (path : String) : ManifestEntry :=
  ⟨ascii path, List.replicate 64 0x61, 1, false⟩

theorem installable_two_files :
    validateManifest [someFile "bin/game.exe", someFile "bin/data"] (ascii "bin/game.exe")
      = .ok () ∧
    Installable [someFile "bin/game.exe", someFile "bin/data"] := by
  have h : validateManifest [someFile "bin/game.exe", someFile "bin/data"]
      (ascii "bin/game.exe") = .ok () := by decide +kernel
  refine ⟨h, (installable_iff h).mpr ?_⟩
  unfold NoneBelow
  decide +kernel

/-- `a` and `a/b` are accepted as one build, and no directory holds both. -/
theorem file_below_a_file :
    validateManifest [someFile "a", someFile "a/b"] (ascii "a") = .ok () ∧
    ¬ Installable [someFile "a", someFile "a/b"] := by
  refine ⟨by decide +kernel, ?_⟩
  rintro ⟨tree, hfiles, _⟩
  have hfree := (Paths.exists_fileTree_iff.mp ⟨tree, hfiles⟩).2
  refine prefixFree_segments.mp hfree (someFile "a") ?_ (someFile "a/b") ?_ ?_
  · exact List.mem_cons_self
  · exact List.mem_cons_of_mem _ List.mem_cons_self
  · decide +kernel

end Launcher
