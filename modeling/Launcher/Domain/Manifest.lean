import Mathlib.Data.List.SplitBy
import Mathlib.Data.List.Sort
import Launcher.Common.Basic

set_option autoImplicit false

/-! # Manifests

A manifest lists the files of a build: where each goes, which blob holds its bytes, how long
that blob is and whether it is executable (`ManifestEntry`). This file models
`domain/Manifest.cpp` and `domain/CanonicalJson.cpp`: the checks a submitted file list has to
pass (`validateRelativePath`, `validateManifest`) and the byte-exact document whose SHA-256
identifies a build (`canonicalManifestDocument`). -/

namespace Launcher

structure ManifestEntry where
  relativePath : Bytes
  blobSha256 : Bytes
  sizeBytes : Int
  isExecutable : Bool
  deriving DecidableEq, Repr

def SHA256_HEX_LENGTH : Nat := 64
def MAX_RELATIVE_PATH_LENGTH : Nat := 1024
def MAX_MANIFEST_ENTRIES : Nat := 200000
def MAX_LAUNCH_ARGS_LENGTH : Nat := 1000

def isLowercaseHexDigit (c : UInt8) : Bool := (0x30 ≤ c && c ≤ 0x39) || (0x61 ≤ c && c ≤ 0x66)

/-- 64 lower-case hexadecimal digits. -/
def isSha256Hex (value : Bytes) : Bool :=
  value.length == SHA256_HEX_LENGTH && value.all isLowercaseHexDigit

/-! ## Paths -/

/-- The checks `validateRelativePath` makes on one segment. -/
def validateSegment (path segment : Bytes) : VoidResult :=
  if segment.isEmpty then
    failure .InvalidInput (ascii "file paths must not contain empty segments: " ++ path)
  else if segment == ascii "." || segment == ascii ".." then
    failure .InvalidInput (ascii "file paths must not contain '.' or '..' segments: " ++ path)
  else if segment.any (fun c => c < 0x20) then
    failure .InvalidInput (ascii "file paths must not contain control characters")
  else .ok ()

/-- The loop over the segments: the first one refused refuses the path. -/
def validateSegments (path : Bytes) : List Bytes → VoidResult
  | [] => .ok ()
  | segment :: rest => do
      validateSegment path segment
      validateSegments path rest

def validateRelativePath (path : Bytes) : VoidResult :=
  if path.isEmpty then
    failure .InvalidInput (ascii "a file path must not be empty")
  else if path.length > MAX_RELATIVE_PATH_LENGTH then
    failure .InvalidInput
      (ascii "file path is longer than " ++ decimal MAX_RELATIVE_PATH_LENGTH ++ ascii " characters")
  else if path.head? == some slash then
    failure .InvalidInput
      (ascii "file paths must be relative to the install directory: " ++ path)
  else if path.contains 0x5c then
    failure .InvalidInput (ascii "file paths must use '/' as the separator: " ++ path)
  -- a Windows drive prefix such as "C:relative" is not caught by the leading-slash rule
  else if path[1]? == some 0x3a && (path.head?.map isAlpha).getD false then
    failure .InvalidInput (ascii "file paths must not be absolute: " ++ path)
  else validateSegments path (path.splitOn slash)

/-! ## File lists -/

/-- The loop over the entries; `seen` holds the paths so far. -/
def validateEntries : List ManifestEntry → List Bytes → Result (List Bytes)
  | [], seen => .ok seen
  | entry :: rest, seen => do
      validateRelativePath entry.relativePath
      if !isSha256Hex entry.blobSha256 then
        failure .InvalidInput
          (ascii "sha256 must be 64 lowercase hex characters, for " ++ entry.relativePath)
      else if entry.sizeBytes < 0 then
        failure .InvalidInput (ascii "size must not be negative, for " ++ entry.relativePath)
      else if seen.contains entry.relativePath then
        failure .Conflict
          (ascii "the manifest lists " ++ entry.relativePath ++ ascii " twice")
      else validateEntries rest (entry.relativePath :: seen)

def validateManifest (entries : List ManifestEntry) (entrypointRelativePath : Bytes) :
    VoidResult := do
  if entries.isEmpty then
    failure .InvalidInput (ascii "a build must contain at least one file")
  else if entries.length > MAX_MANIFEST_ENTRIES then
    failure .InvalidInput
      (ascii "a build may contain at most " ++ decimal MAX_MANIFEST_ENTRIES ++ ascii " files")
  else do
    validateRelativePath entrypointRelativePath
    let seen ← validateEntries entries []
    if seen.contains entrypointRelativePath then .ok ()
    else
      failure .InvalidInput (ascii "the entrypoint " ++ entrypointRelativePath ++
        ascii " is not one of the files in the manifest")

/-! ## The canonical document -/

/-- How `appendCanonicalJsonString` writes one byte. -/
def canonicalJsonByte (c : UInt8) : Bytes :=
  if c == 0x22 then [0x5c, 0x22]
  else if c == 0x5c then [0x5c, 0x5c]
  else if c == 0x08 then [0x5c, 0x62]
  else if c == 0x0c then [0x5c, 0x66]
  else if c == 0x0a then [0x5c, 0x6e]
  else if c == 0x0d then [0x5c, 0x72]
  else if c == 0x09 then [0x5c, 0x74]
  else if c < 0x20 then
    ascii "\\u00" ++ [hexDigit (c.toNat / 16 % 16), hexDigit (c.toNat % 16)]
  else [c]

/-- `appendCanonicalJsonString`, as the bytes it appends. -/
def canonicalJsonString (value : Bytes) : Bytes :=
  [0x22] ++ value.flatMap canonicalJsonByte ++ [0x22]

def canonicalEntry (entry : ManifestEntry) : Bytes :=
  ascii "\x7b\"path\":" ++ canonicalJsonString entry.relativePath ++
  ascii ",\"sha256\":" ++ canonicalJsonString entry.blobSha256 ++
  ascii ",\"size\":" ++ decimal entry.sizeBytes ++
  ascii ",\"executable\":" ++ ascii (if entry.isExecutable then "true" else "false") ++
  ascii "\x7d"

/-- `std::sort` by path. Manifests have pairwise distinct paths, so the order is determined. -/
def sortByPath (entries : List ManifestEntry) : List ManifestEntry :=
  entries.insertionSort (fun lhs rhs => lhs.relativePath ≤ rhs.relativePath)

def canonicalManifestDocument (entries : List ManifestEntry) (entrypointRelativePath : Bytes)
    (defaultLaunchArgs : Bytes) : Bytes :=
  ascii "\x7b\"schema\":1,\"entrypoint\":" ++ canonicalJsonString entrypointRelativePath ++
  ascii ",\"launchArgs\":" ++ canonicalJsonString defaultLaunchArgs ++
  ascii ",\"files\":[" ++
  List.intercalate [0x2c] ((sortByPath entries).map canonicalEntry) ++
  ascii "]\x7d"

/-! ## What the checks establish -/

theorem validateEntries_ok {entries : List ManifestEntry} {seen seen' : List Bytes}
    (h : validateEntries entries seen = .ok seen') :
    seen' = (entries.map (·.relativePath)).reverse ++ seen ∧
    (∀ e ∈ entries, validateRelativePath e.relativePath = .ok () ∧
      isSha256Hex e.blobSha256 = true ∧ 0 ≤ e.sizeBytes) ∧
    (entries.map (·.relativePath)).Nodup ∧
    ∀ e ∈ entries, e.relativePath ∉ seen := by
  induction entries generalizing seen with
  | nil =>
      cases h
      simp
  | cons e rest ih =>
      rw [validateEntries] at h
      cases hp : validateRelativePath e.relativePath with
      | error err => rw [hp] at h; cases h
      | ok u =>
          rw [hp] at h
          simp only [Except.bind, bind] at h
          split at h
          · cases h
          · rename_i hsha
            split at h
            · cases h
            · rename_i hsize
              split at h
              · cases h
              · rename_i hseen
                obtain ⟨h1, h2, h3, h4⟩ := ih h
                have hnot : e.relativePath ∉ seen := by simpa using hseen
                refine ⟨?_, ?_, ?_, ?_⟩
                · rw [h1]; simp
                · intro x hx
                  rcases List.mem_cons.mp hx with rfl | hx
                  · exact ⟨hp, by simpa using hsha, by omega⟩
                  · exact h2 x hx
                · rw [List.map_cons, List.nodup_cons]
                  refine ⟨?_, h3⟩
                  intro hm
                  obtain ⟨x, hx, hxe⟩ := List.mem_map.mp hm
                  exact h4 x hx (by rw [hxe]; exact List.mem_cons_self)
                · intro x hx
                  rcases List.mem_cons.mp hx with rfl | hx
                  · exact hnot
                  · exact fun hm => h4 x hx (List.mem_cons_of_mem _ hm)

/-- **What an accepted file list satisfies.** -/
structure ValidManifest (entries : List ManifestEntry) (entrypoint : Bytes) : Prop where
  nonempty : entries ≠ []
  bounded : entries.length ≤ MAX_MANIFEST_ENTRIES
  paths : ∀ e ∈ entries, validateRelativePath e.relativePath = .ok ()
  hashes : ∀ e ∈ entries, isSha256Hex e.blobSha256 = true
  distinct : (entries.map (·.relativePath)).Nodup
  entrypoint_mem : entrypoint ∈ entries.map (·.relativePath)

theorem validateManifest_ok {entries : List ManifestEntry} {entrypoint : Bytes}
    (h : validateManifest entries entrypoint = .ok ()) : ValidManifest entries entrypoint := by
  unfold validateManifest at h
  split at h
  · cases h
  · rename_i hne
    split at h
    · cases h
    · rename_i hlen
      cases hp : validateRelativePath entrypoint with
      | error err => rw [hp] at h; cases h
      | ok u =>
          cases hs : validateEntries entries [] with
          | error err => rw [hp, hs] at h; cases h
          | ok seen =>
              rw [hp, hs] at h
              simp only [Except.bind, bind] at h
              split at h
              · rename_i hmem
                obtain ⟨h1, h2, h3, -⟩ := validateEntries_ok hs
                refine ⟨by simpa using hne, by omega, fun e he => (h2 e he).1,
                  fun e he => (h2 e he).2.1, h3, ?_⟩
                rw [h1, List.append_nil] at hmem
                simpa using hmem
              · cases h

/-! ## The document does not depend on the order of the entries -/

theorem sortByPath_perm (entries : List ManifestEntry) : (sortByPath entries).Perm entries :=
  List.perm_insertionSort _ entries

instance : Std.Total (fun lhs rhs : ManifestEntry => lhs.relativePath ≤ rhs.relativePath) :=
  ⟨fun a b => le_total a.relativePath b.relativePath⟩

instance : IsTrans ManifestEntry (fun lhs rhs => lhs.relativePath ≤ rhs.relativePath) :=
  ⟨fun _ _ _ h h' => le_trans h h'⟩

theorem sortByPath_sorted (entries : List ManifestEntry) :
    (sortByPath entries).Pairwise (fun lhs rhs => lhs.relativePath ≤ rhs.relativePath) :=
  List.pairwise_insertionSort _ entries

theorem eq_of_path_eq {entries : List ManifestEntry}
    (hnd : (entries.map (·.relativePath)).Nodup) {a b : ManifestEntry} (ha : a ∈ entries)
    (hb : b ∈ entries) (h : a.relativePath = b.relativePath) : a = b :=
  List.inj_on_of_nodup_map hnd ha hb h

/-- Two orders of one file list with distinct paths sort to the same list. -/
theorem sortByPath_congr {entries entries' : List ManifestEntry} (h : entries.Perm entries')
    (hnd : (entries.map (·.relativePath)).Nodup) : sortByPath entries = sortByPath entries' := by
  refine List.Perm.eq_of_pairwise (fun a b ha hb hab hba => ?_) (sortByPath_sorted entries)
    (sortByPath_sorted entries')
    ((sortByPath_perm entries).trans (h.trans (sortByPath_perm entries').symm))
  have ha' : a ∈ entries := (sortByPath_perm entries).mem_iff.mp ha
  have hb' : b ∈ entries := h.mem_iff.mpr ((sortByPath_perm entries').mem_iff.mp hb)
  exact eq_of_path_eq hnd ha' hb' (le_antisymm hab hba)

theorem canonicalManifestDocument_congr {entries entries' : List ManifestEntry}
    (h : entries.Perm entries') (hnd : (entries.map (·.relativePath)).Nodup)
    (entrypoint args : Bytes) :
    canonicalManifestDocument entries entrypoint args
      = canonicalManifestDocument entries' entrypoint args := by
  unfold canonicalManifestDocument
  rw [sortByPath_congr h hnd]

end Launcher
