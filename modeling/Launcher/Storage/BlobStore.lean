import Launcher.Domain.Manifest

set_option autoImplicit false

/-! # The blob store

`storage/BlobStore.cpp` over a file system that maps paths below the blob root to file
contents. A blob lives at `ab/cd/<sha256>`, an upload is assembled at
`staging/<session>.part`, and `commit` moves the one to the other once the bytes hash to the
name they claim. Each of `writeAt`, `commit` and `discard` is one step on the file system.

What the operating system may refuse is not under the program's control: a call takes an
`IoFault`, which names the operation that fails in it, if any. SHA-256 is a parameter. -/

namespace Launcher

/-- A path below the blob root, as its components. -/
abbrev Path := List Bytes

/-- The regular files below the blob root. -/
abbrev Files := Path → Option Bytes

def Files.set (files : Files) (path : Path) (content : Bytes) : Files :=
  fun p => if p = path then some content else files p

/-- `std::filesystem::remove`. -/
def Files.remove (files : Files) (path : Path) : Files :=
  fun p => if p = path then none else files p

@[simp] theorem Files.set_self (files : Files) (path : Path) (content : Bytes) :
    files.set path content path = some content := by simp [Files.set]

theorem Files.set_ne (files : Files) {path p : Path} (content : Bytes) (h : p ≠ path) :
    files.set path content p = files p := by simp [Files.set, h]

@[simp] theorem Files.remove_self (files : Files) (path : Path) :
    files.remove path path = none := by simp [Files.remove]

theorem Files.remove_ne (files : Files) {path p : Path} (h : p ≠ path) :
    files.remove path p = files p := by simp [Files.remove, h]

/-- The operation of the current call that the operating system refuses. -/
inductive IoFault
  | none
  | directory (message : Bytes)
  | create
  | openFile
  | seek
  | write (written : Nat)
  | digest (error : Error)
  | rename (message : Bytes)
  deriving DecidableEq, Repr

/-! ## Names -/

def STAGING_DIRECTORY : Bytes := ascii "staging"

/-- The path relative to the root, as recorded in `blobs.storage_key`; empty for anything
that is not a hash. -/
def storageKeyFor (sha256 : Bytes) : Bytes :=
  if isSha256Hex sha256 then
    sha256.take 2 ++ [slash] ++ (sha256.drop 2).take 2 ++ [slash] ++ sha256
  else []

/-- `BlobStore::pathFor`; `none` is the empty path of a malformed hash. -/
def pathFor (sha256 : Bytes) : Option Path :=
  if isSha256Hex sha256 then some [sha256.take 2, (sha256.drop 2).take 2, sha256] else none

def stagingPathFor (sessionId : Uuid) : Path :=
  [STAGING_DIRECTORY, uuidText sessionId ++ ascii ".part"]

/-! ## Writing, committing, discarding -/

/-- The bytes of a file after writing `data` at `offset`. Seeking past the end and writing
fills the gap with zeros; writing nothing changes nothing. -/
def overwrite (content : Bytes) (offset : Nat) (data : Bytes) : Bytes :=
  if data.isEmpty then content
  else content.take offset ++ List.replicate (offset - content.length) 0 ++ data ++
    content.drop (offset + data.length)

/-- The part of `writeAt` after the staging file is known to exist. -/
def writeOpened (files : Files) (fault : IoFault) (staging : Path) (offset : Nat)
    (data content : Bytes) : VoidResult × Files :=
  match fault with
  | .openFile => (failure .DependencyFailure (ascii "cannot open the staging file"), files)
  | .seek => (failure .DependencyFailure (ascii "cannot seek to the resume offset"), files)
  | .write written =>
      (failure .DependencyFailure (ascii "cannot write the uploaded bytes"),
        files.set staging (overwrite content offset (data.take written)))
  | _ => (.ok (), files.set staging (overwrite content offset data))

def writeAt (files : Files) (fault : IoFault) (staging : Path) (offset : Int) (data : Bytes) :
    VoidResult × Files :=
  if offset < 0 then
    (failure .InvalidInput (ascii "offset must not be negative"), files)
  else
    match fault with
    | .directory message =>
        (failure .DependencyFailure
          (ascii "cannot create the storage directory: " ++ message), files)
    | _ =>
        match files staging with
        | none =>
            if offset ≠ 0 then
              (failure .Conflict
                (ascii "this upload has no data yet; resume from offset 0"), files)
            else if fault = .create then
              (failure .DependencyFailure (ascii "cannot create the staging file"), files)
            else writeOpened (files.set staging []) fault staging offset.toNat data []
        | some content => writeOpened files fault staging offset.toNat data content

/-- Hash-check the staging file and move it to its content address. Every outcome but a
malformed address removes the staging file. -/
def commit (sha256Hex : Bytes → Bytes) (files : Files) (fault : IoFault) (staging : Path)
    (sha256 : Bytes) : VoidResult × Files :=
  match pathFor sha256 with
  | none => (failure .InvalidInput (ascii "not a valid content address"), files)
  | some target =>
      match files staging, fault with
      | none, _ =>
          (failure .NotFound (ascii "cannot open file for hashing: " ++
            List.intercalate [slash] staging), files.remove staging)
      | some _, .digest error => (.error error, files.remove staging)
      | some content, _ =>
          if sha256Hex content ≠ sha256 then
            (failure .InvalidInput
              (ascii "the uploaded bytes do not hash to the declared sha256"),
              files.remove staging)
          else
            match fault, files target with
            | .directory message, _ =>
                (failure .DependencyFailure
                  (ascii "cannot create the storage directory: " ++ message),
                  files.remove staging)
            | _, some _ => (.ok (), files.remove staging)
            | .rename message, none =>
                (failure .DependencyFailure
                  (ascii "cannot move the blob into storage: " ++ message),
                  files.remove staging)
            | _, none => (.ok (), (files.remove staging).set target content)

def discard (files : Files) (path : Path) : Files := files.remove path

/-! ## Staging names and content names never meet -/

theorem pathFor_eq_some {sha256 : Bytes} {path : Path} (h : pathFor sha256 = some path) :
    isSha256Hex sha256 = true ∧ path = [sha256.take 2, (sha256.drop 2).take 2, sha256] := by
  unfold pathFor at h
  split at h
  · exact ⟨‹_›, (Option.some.inj h).symm⟩
  · cases h

theorem pathFor_of_isSha256Hex {sha256 : Bytes} (h : isSha256Hex sha256 = true) :
    pathFor sha256 = some [sha256.take 2, (sha256.drop 2).take 2, sha256] := by
  simp [pathFor, h]

theorem pathFor_injective {sha256 sha256' : Bytes} {path : Path}
    (h : pathFor sha256 = some path) (h' : pathFor sha256' = some path) : sha256 = sha256' := by
  have e := (pathFor_eq_some h).2
  have e' := (pathFor_eq_some h').2
  rw [e] at e'
  simpa using (List.cons.inj (List.cons.inj (List.cons.inj e').2).2).1

/-- A storage key ends with the hash. -/
theorem drop_storageKeyFor {sha256 : Bytes} (h : isSha256Hex sha256 = true) :
    (storageKeyFor sha256).drop 6 = sha256 := by
  have hlong : sha256.length = 64 := by
    rw [isSha256Hex, Bool.and_eq_true, beq_iff_eq] at h
    exact h.1
  rw [storageKeyFor, if_pos h]
  refine List.drop_left' ?_
  simp only [List.length_append, List.length_take, List.length_drop, List.length_singleton, hlong]
  decide

theorem pathFor_ne_staging {sha256 : Bytes} {path : Path} (h : pathFor sha256 = some path)
    (sessionId : Uuid) : path ≠ stagingPathFor sessionId := by
  intro e
  have := congrArg List.length ((pathFor_eq_some h).2.symm.trans e)
  simp [stagingPathFor] at this

theorem stagingPathFor_injective : Function.Injective stagingPathFor := by
  intro id id' h
  simp only [stagingPathFor, List.cons.injEq, true_and, and_true] at h
  exact uuidText_injective (List.append_cancel_right h)

/-! ## What the three calls do to the files -/

theorem writeOpened_frame (files : Files) (fault : IoFault) (staging : Path) (offset : Nat)
    (data content : Bytes) {p : Path} (h : p ≠ staging) :
    (writeOpened files fault staging offset data content).2 p = files p := by
  unfold writeOpened
  split <;> simp [Files.set_ne, h]

/-- `writeAt` touches the staging file only. -/
theorem writeAt_frame (files : Files) (fault : IoFault) (staging : Path) (offset : Int)
    (data : Bytes) {p : Path} (h : p ≠ staging) :
    (writeAt files fault staging offset data).2 p = files p := by
  unfold writeAt
  split
  · rfl
  · split
    · rfl
    · split
      · split
        · rfl
        · split
          · rfl
          · rw [writeOpened_frame _ _ _ _ _ _ h, Files.set_ne _ _ h]
      · rw [writeOpened_frame _ _ _ _ _ _ h]

/-- **Everything `commit` can do.** It fails and the staging file is gone (or the address is
malformed and nothing happens), or it succeeds: the staging file held content of the declared
hash, it is gone, and the file at the address is the one that was there before or, when there
was none, the staging file. Other files are as before. -/
theorem commit_cases (sha256Hex : Bytes → Bytes) (files : Files) (fault : IoFault)
    (staging : Path) (sha256 : Bytes) :
    (∃ e, commit sha256Hex files fault staging sha256 = (.error e, files) ∧
        pathFor sha256 = none) ∨
    (∃ e, commit sha256Hex files fault staging sha256 = (.error e, files.remove staging)) ∨
    (∃ target content, pathFor sha256 = some target ∧ files staging = some content ∧
      sha256Hex content = sha256 ∧
      ((∃ old, files target = some old ∧
          commit sha256Hex files fault staging sha256 = (.ok (), files.remove staging)) ∨
        (files target = none ∧
          commit sha256Hex files fault staging sha256
            = (.ok (), (files.remove staging).set target content)))) := by
  unfold commit
  cases hp : pathFor sha256 with
  | none => exact Or.inl ⟨_, rfl, rfl⟩
  | some target =>
      right
      cases hf : files staging with
      | none => exact Or.inl ⟨_, rfl⟩
      | some content =>
          by_cases hsha : sha256Hex content = sha256
          · cases ht : files target with
            | some old =>
                cases fault with
                | digest e => exact Or.inl ⟨_, rfl⟩
                | directory m => exact Or.inl ⟨_, by simp [hsha, failure]; rfl⟩
                | _ =>
                    exact Or.inr ⟨target, content, rfl, rfl, hsha,
                      Or.inl ⟨old, ht, by simp [hsha, ht]⟩⟩
            | none =>
                cases fault with
                | digest e => exact Or.inl ⟨_, rfl⟩
                | directory m => exact Or.inl ⟨_, by simp [hsha, failure]; rfl⟩
                | rename m => exact Or.inl ⟨_, by simp [hsha, ht, failure]; rfl⟩
                | _ =>
                    exact Or.inr ⟨target, content, rfl, rfl, hsha,
                      Or.inr ⟨ht, by simp [hsha, ht]⟩⟩
          · cases fault with
            | digest e => exact Or.inl ⟨_, rfl⟩
            | _ => exact Or.inl ⟨_, by simp [hsha, failure]; rfl⟩

end Launcher
