import Launcher.Invariants.ContentAddress
import Launcher.Invariants.Integrity

set_option autoImplicit false

/-! # Every blob row has its file

A row is recorded only after a commit has left the file in place, and the one call that
removes a file at a content address is the collector's `discard`. The collector deletes the
row first; between that and the `discard` another completion of the same content may find the
file still there, keep it, and record a new row. `unlinksUnused` is the condition that this
has not happened: the hash has no row, and no completion stands between its commit and its
record of it. -/

namespace Launcher.BlobFiles

open Launcher.Lib

/-- There is a regular file at the address of `sha256`. -/
def HasFile (files : Files) (sha256 : Bytes) : Prop :=
  ∃ p, pathFor sha256 = some p ∧ files p ≠ none

/-- A completion between its commit and its record of `sha256`. -/
def awaitsRecord (sha256 : Bytes) : Task → Bool
  | .uploadChunk (.completing session .recordBlob) => session.blobSha256 == sha256
  | _ => false

/-- The collector unlinks a file only while nothing relies on it. -/
def unlinksUnused (w : Server) : Move → Bool
  | .resume i _ =>
      match w.tasks[i]? with
      | some (.collectBlobs (.discard _ blob _ _)) =>
          (w.shared.blobs.find? blob.sha256).isNone &&
            w.tasks.all (fun t => !awaitsRecord blob.sha256 t)
      | _ => true
  | _ => true

/-! ## The invariant -/

/-- Every row has its file. -/
def RowsHaveFiles (s : State) : Prop := ∀ b ∈ s.blobs, HasFile s.files b.sha256

/-- A completion in front of `record` has the file its row will need. -/
def Ready (s : State) (t : Task) : Prop := ∀ sha256, awaitsRecord sha256 t = true →
  HasFile s.files sha256

theorem awaitsRecord_eq {sha256 : Bytes} {t : Task} (h : awaitsRecord sha256 t = true) :
    ∃ session, t = .uploadChunk (.completing session .recordBlob) ∧
      session.blobSha256 = sha256 := by
  unfold awaitsRecord at h
  split at h
  · exact ⟨_, rfl, by simpa using h⟩
  · cases h

theorem hasFile_of_holdsContent {env : Env} {files : Files} {sha256 : Bytes}
    (h : HoldsContent env files sha256) : HasFile files sha256 := by
  obtain ⟨p, content, hp, hc, _⟩ := h
  exact ⟨p, hp, by rw [hc]; exact Option.some_ne_none _⟩

theorem hasFile_of_onlyCreates {env : Env} {s s' : State} {t : Task}
    (h : OnlyCreates env s t s') {sha256 : Bytes} (hf : HasFile s.files sha256) : HasFile s'.files sha256 := by
  obtain ⟨p, hp, hne⟩ := hf
  refine ⟨p, hp, ?_⟩
  rcases h sha256 p hp with he | ⟨_, content, _, he⟩
  · rw [he]; exact hne
  · rw [he]; exact Option.some_ne_none _

/-- Unlinking the file of one hash leaves the files of the others. -/
theorem hasFile_of_discard {files : Files} {sha256 sha256' : Bytes} (hne : sha256' ≠ sha256)
    (hf : HasFile files sha256') :
    HasFile (discard files ((pathFor sha256).getD [])) sha256' := by
  obtain ⟨p, hp, hex⟩ := hf
  refine ⟨p, hp, ?_⟩
  rw [discard, Files.remove_ne]
  · exact hex
  · intro he
    cases hq : pathFor sha256 with
    | none =>
        rw [hq, Option.getD_none] at he
        rw [(pathFor_eq_some hp).2] at he
        cases he
    | some q =>
        rw [hq, Option.getD_some] at he
        exact hne (pathFor_injective hp (he ▸ hq))

section Step

variable {env : Env} {choice : Choice} {s : State}

/-- Every task but a collector at its `discard` keeps every file. -/
theorem next_keepsFiles {t : Task}
    (h : ∀ deleted blob rest report, t ≠ .collectBlobs (.discard deleted blob rest report)) :
    (t.next env).Wp (exec env) choice s (fun s' _ =>
      ∀ sha256, HasFile s.files sha256 → HasFile s'.files sha256) :=
  (Task.next_onlyCreates h).mono (fun _ _ hs _ hf => hasFile_of_onlyCreates hs hf)

/-- A step keeps the invariant if the files the rows and the other completions rely on stay. -/
theorem step_rowsHaveFiles (ha : Addressed env s) (hG : RowsHaveFiles s) {t : Task}
    (ht : Ready s t)
    (h : ∀ deleted blob rest report, t ≠ .collectBlobs (.discard deleted blob rest report)) :
    (t.next env).Wp (exec env) choice s (fun s' t' => RowsHaveFiles s' ∧ Ready s' t' ∧
      ∀ t'', Ready s t'' → Ready s' t'') := by
  refine (((next_keepsFiles h).and (t.next_rows env choice s)).and
    (Task.next_recordBlob ha t)).mono (fun s' t' hs => ?_)
  obtain ⟨⟨hkeep, hrows⟩, hrec⟩ := hs
  refine ⟨fun b hb => ?_, fun sha256 hr => ?_, fun t'' ht'' sha256 hr => ?_⟩
  · rcases hrows b hb with hb | ⟨session, rfl, _, rfl⟩
    · exact hkeep _ (hG b hb)
    · exact hkeep _ (ht session.blobSha256 (by simp [awaitsRecord]))
  · obtain ⟨session, hsession, rfl⟩ := awaitsRecord_eq hr
    exact hasFile_of_holdsContent (hrec session hsession).2
  · exact hkeep sha256 (ht'' sha256 hr)

theorem discard_rowsHaveFiles {w : Server} {i : Nat} {deleted : BlobRow}
    {blob : CollectableBlob} {rest : List CollectableBlob} {report : SweepReport}
    (hG : RowsHaveFiles w.shared)
    (hi : w.tasks[i]? = some (.collectBlobs (.discard deleted blob rest report)))
    (hA : unlinksUnused w (.resume i choice) = true) :
    (Task.next env (.collectBlobs (.discard deleted blob rest report))).Wp (exec env) choice
      w.shared (fun s' t' => RowsHaveFiles s' ∧ Ready s' t' ∧
        ∀ t'' ∈ w.tasks, Ready w.shared t'' → Ready s' t'') := by
  simp only [unlinksUnused, hi, Bool.and_eq_true, Option.isNone_iff_eq_none,
    List.all_eq_true, Bool.not_eq_true'] at hA
  obtain ⟨hnone, hidle⟩ := hA
  rw [Task.next, Suspended.wp_map]
  intro r s' e
  cases e
  refine ⟨fun b hb => ?_, fun sha256 hr => ?_, fun t'' hm ht'' sha256 hr => ?_⟩
  · exact hasFile_of_discard (Table.find?_eq_none.mp hnone b hb) (hG b hb)
  · cases hr
  · refine hasFile_of_discard (fun he => ?_) (ht'' sha256 hr)
    rw [he, hidle t'' hm] at hr
    cases hr

end Step

/-! ## Every run -/

theorem entry_ready (r : Request) (s : State) : Ready s (entry r) := by
  intro sha256 h
  obtain ⟨session, he, _⟩ := awaitsRecord_eq h
  exact absurd he (entry_ne_completing r session .recordBlob)

theorem files_invariant {env : Env} {w : Server} (hw : Initial w) (ls : List Move)
    (hok : (server env).Along (fun w l => unlinksUnused w l = true) w ls) :
    RowsHaveFiles ((server env).run w ls).shared := by
  refine (System.pool_invariant (S := server env)
    (G := fun s => Addressed env s ∧ RowsHaveFiles s) (L := Ready)
    (fun r s _ => entry_ready r s) (fun w i choice t hG hL hi hA => ?_) (fun e s h => ?_) ls w
    ⟨addressed_run env hw [], fun b hb => ?_⟩ (fun j t hj => ?_) hok).1.2
  · by_cases hd : ∃ deleted blob rest report,
        t = .collectBlobs (.discard deleted blob rest report)
    · obtain ⟨deleted, blob, rest, report, rfl⟩ := hd
      refine ((Task.next_addressStep env choice w.shared _).and
        (discard_rowsHaveFiles hG.2 hi hA)).mono (fun s' t' hs => ?_)
      obtain ⟨hstep, hrows, hself, hothers⟩ := hs
      exact ⟨⟨hstep.addressed hG.1, hrows⟩, hself,
        fun j t'' _ hj => hothers t'' (List.mem_of_getElem? hj) (hL j t'' hj)⟩
    · push Not at hd
      refine ((Task.next_addressStep env choice w.shared t).and
        (step_rowsHaveFiles hG.1 hG.2 (hL i t hi) hd)).mono (fun s' t' hs => ?_)
      obtain ⟨hstep, hrows, hself, hothers⟩ := hs
      exact ⟨⟨hstep.addressed hG.1, hrows⟩, hself, fun j t'' _ hj => hothers t'' (hL j t'' hj)⟩
  · cases e <;> exact ⟨h, fun _ ht => ht⟩
  · rw [hw.blobs] at hb
    cases hb
  · rw [hw.tasks] at hj
    cases hj

section Demo

open Launcher.Demo

/-- A pass that collects the blob before anybody uploads it again. -/
def collectedThenStored : List Move :=
  stored ++ after 11 ++ .request .collectUnreferencedBlobs :: go 3 4 ++ uploadedA 4 bob 21

/-- The pass (task 3) deletes the row and is suspended before it unlinks the file; bob uploads
the same content, which finds the file in place and is recorded; the pass goes on. -/
def storedInBetween : List Move :=
  stored ++ after 11 ++ .request .collectUnreferencedBlobs :: go 3 2 ++ uploadedA 4 bob 21
    ++ go 3 2

end Demo

end Launcher.BlobFiles
