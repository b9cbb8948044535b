import Launcher.Invariants.ContentAddress

set_option autoImplicit false

/-! # The recorded size is the stored size

A completion records the size its session *declared*. Nothing compares it with the bytes: the
commit checks the hash, and `received_bytes = declared_size_bytes` only says that every range
has been reserved. A chunk of length zero at the end of a session completes it while the range
of an earlier request is still to be written, and a client that declared the hash of the short
file gets a row with the wrong size.

So the sizes agree in runs in which every accepted commit finds a staging file of the declared
length (`commitsWhole`). SHA-256 comes in as having no collision among the contents the run
accepts. -/

namespace Launcher.StoredSize

open Launcher.Lib

/-- The content the step accepts, if it is a commit that passes the hash check, with the
session it is committed for. -/
def acceptedAt (env : Env) (w : Server) : Move → List (UploadSession × Bytes)
  | .resume i _ =>
      match w.tasks[i]? with
      | some (.uploadChunk (.completing session .commit)) =>
          match w.shared.files (stagingPathFor session.id) with
          | some content =>
              if env.sha256Hex content = session.blobSha256 then [(session, content)] else []
          | none => []
      | _ => []
  | _ => []

/-- The contents the commits of a run accept. -/
def accepted (env : Env) (w : Server) (ls : List Move) : List Bytes :=
  ((server env).collect (acceptedAt env) w ls).map Prod.snd

/-- An accepted staging file has the length the session declared. -/
def commitsWhole (env : Env) (w : Server) (l : Move) : Bool :=
  (acceptedAt env w l).all (fun a => a.2.length == a.1.declaredSizeBytes)

/-! ## The invariant -/

section Invariant

variable (env : Env) (K : Set Bytes)

/-- Some content in `K` has this hash and this length. -/
def Witnessed (sha256 : Bytes) (size : Nat) : Prop :=
  ∃ content ∈ K, env.sha256Hex content = sha256 ∧ content.length = size

structure Sized (s : State) : Prop where
  files : ∀ sha256 p content, pathFor sha256 = some p → s.files p = some content →
    content ∈ K ∧ env.sha256Hex content = sha256
  rows : ∀ b ∈ s.blobs, Witnessed env K b.sha256 b.sizeBytes

/-- A completion in front of `record` has committed content of the size it will record. -/
def Committed (t : Task) : Prop :=
  ∀ session, t = .uploadChunk (.completing session .recordBlob) →
    Witnessed env K session.blobSha256 session.declaredSizeBytes

/-- What a task is about to commit is in `K` and has the declared length. -/
def Whole (s : State) (t : Task) : Prop :=
  ∀ session content, t = .uploadChunk (.completing session .commit) →
    s.files (stagingPathFor session.id) = some content →
    env.sha256Hex content = session.blobSha256 →
    content ∈ K ∧ content.length = session.declaredSizeBytes

end Invariant

section Step

variable {env : Env} {K : Set Bytes} {choice : Choice} {s : State}

theorem step_files {t : Task} (hs : Sized env K s) (hwhole : Whole env K s t) :
    (t.next env).Wp (exec env) choice s (fun s' _ =>
      ∀ sha256 p content, pathFor sha256 = some p → s'.files p = some content →
        content ∈ K ∧ env.sha256Hex content = sha256) := by
  by_cases hd : ∃ deleted blob rest report, t = .collectBlobs (.discard deleted blob rest report)
  · obtain ⟨deleted, blob, rest, report, rfl⟩ := hd
    refine (discard_files env choice s deleted blob rest report).mono
      (fun s' _ h sha256 p content hp hc => ?_)
    rcases h p with he | he
    · exact hs.files sha256 p content hp (he.symm.trans hc)
    · rw [he] at hc; cases hc
  · push Not at hd
    refine (Task.next_onlyCreates hd).mono (fun s' _ h sha256 p content hp hc => ?_)
    rcases h sha256 p hp with he | ⟨_, content', ⟨session, ht, hsession, hst, hsha⟩, he⟩
    · exact hs.files sha256 p content hp (he.symm.trans hc)
    · rw [he] at hc
      cases hc
      exact ⟨(hwhole session content ht hst (hsha.trans hsession.symm)).1, hsha⟩

/-- A completion reaches `record` only through a commit that accepted its staging file. -/
theorem step_committed {t : Task} (hs : Sized env K s) (hwhole : Whole env K s t) :
    (t.next env).Wp (exec env) choice s (fun _ t' => Committed env K t') := by
  have ha : Addressed env s := fun sha256 p content hp hc => (hs.files sha256 p content hp hc).2
  by_cases hc : ∃ session, t = .uploadChunk (.completing session .commit)
  · obtain ⟨session, rfl⟩ := hc
    intro r s' e session' ht'
    cases r with
    | error error => cases ht'
    | ok u =>
        cases ht'
        have hcom := exec_commit e
        obtain ⟨_, h, _⟩ | ⟨_, h⟩ | ⟨_, content, _, hst, hsha, _⟩ :=
          commit_cases env.sha256Hex s.files choice.fault (stagingPathFor session.id)
            session.blobSha256
        · cases congrArg Prod.fst (hcom.symm.trans h)
        · cases congrArg Prod.fst (hcom.symm.trans h)
        · obtain ⟨hK, hlen⟩ := hwhole session content rfl hst hsha
          exact ⟨content, hK, hsha, hlen⟩
  · refine (Task.next_recordBlob ha t).mono (fun s' t' h session ht' => ?_)
    exact absurd ⟨session, (h session ht').1⟩ hc

theorem step_rows {t : Task} (hs : Sized env K s) (ht : Committed env K t) :
    (t.next env).Wp (exec env) choice s (fun s' _ =>
      ∀ b ∈ s'.blobs, Witnessed env K b.sha256 b.sizeBytes) := by
  refine (t.next_rows env choice s).mono (fun s' _ h b hb => ?_)
  rcases h b hb with hb | ⟨session, rfl, _, rfl⟩
  · exact hs.rows b hb
  · exact ht session rfl

end Step

/-! ## Every run -/

/-- What the step at task `i` accepts, read off the task. -/
theorem whole_of_acceptedAt {env : Env} {K : Set Bytes} {w : Server} {i : Nat}
    {choice : Choice} {t : Task} (hi : w.tasks[i]? = some t)
    (hK : ∀ a ∈ acceptedAt env w (.resume i choice), a.2 ∈ K)
    (hw : commitsWhole env w (.resume i choice) = true) : Whole env K w.shared t := by
  intro session content ht hst hsha
  have hmem : (session, content) ∈ acceptedAt env w (.resume i choice) := by
    simp [acceptedAt, hi, ht, hst, hsha]
  simp only [commitsWhole, List.all_eq_true] at hw
  exact ⟨hK _ hmem, by simpa using hw _ hmem⟩

theorem sized_run {env : Env} {w : Server} (hw : Initial w) (ls : List Move)
    (hok : (server env).Along (fun w l => commitsWhole env w l = true) w ls) :
    Sized env { content | content ∈ accepted env w ls } ((server env).run w ls).shared ∧
    ∀ (j : Nat) t, ((server env).run w ls).tasks[j]? = some t →
      Committed env { content | content ∈ accepted env w ls } t := by
  set K : Set Bytes := { content | content ∈ accepted env w ls } with hK
  have hall : (server env).Along (fun w' l => (∀ a ∈ acceptedAt env w' l, a.2 ∈ K) ∧
      commitsWhole env w' l = true) w ls := by
    refine System.Along.and (System.Along.mono (fun w' l h a ha => ?_)
      (System.along_collect (acceptedAt env) ls w)) hok
    exact List.mem_map.mpr ⟨a, h a ha, rfl⟩
  refine System.pool_invariant (S := server env) (G := Sized env K)
    (L := fun _ t => Committed env K t) (fun r s _ session he => ?_)
    (fun w i choice t hG hL hi hA => ?_) (fun e s h => ?_) ls w ⟨?_, ?_⟩ (fun j t hj => ?_) hall
  · exact absurd he (entry_ne_completing r session .recordBlob)
  · have hwhole := whole_of_acceptedAt hi hA.1 hA.2
    refine (((step_files hG hwhole).and (step_rows hG (hL i t hi))).and
      (step_committed hG hwhole)).mono (fun s' t' h => ?_)
    exact ⟨⟨h.1.1, h.1.2⟩, h.2, fun j t'' _ hj => hL j t'' hj⟩
  · cases e <;> exact ⟨⟨h.files, h.rows⟩, fun _ ht => ht⟩
  · intro sha256 p content _ hc
    rw [hw.files p] at hc
    cases hc
  · intro b hb
    rw [hw.blobs] at hb
    cases hb
  · rw [hw.tasks] at hj
    cases hj

theorem length_of_witnessed {env : Env} {K : Set Bytes} (hK : Set.InjOn env.sha256Hex K)
    {s : State} (hs : Sized env K s) {sha256 : Bytes} {size : Nat}
    (h : Witnessed env K sha256 size) {p : Path} {content : Bytes}
    (hp : pathFor sha256 = some p) (hc : s.files p = some content) : size = content.length := by
  obtain ⟨content', hK', hsha', rfl⟩ := h
  obtain ⟨hin, hsha⟩ := hs.files sha256 p content hp hc
  rw [hK hK' hin (hsha'.trans hsha.symm)]

section Demo

open Launcher.Demo

end Demo

end Launcher.StoredSize
