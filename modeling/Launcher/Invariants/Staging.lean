import Launcher.Invariants.ContentAddress
import Launcher.Invariants.Reservation

set_option autoImplicit false

/-! # Staging files and their sessions

A staging file is found again only through its session: the sweep looks for pending rows. So
when nothing is executing, every staging file should belong to a pending row.

The coroutines that close or delete a session take its staging file with them, before or after
the statement: `cleans` lists the points from which a coroutine is still going to remove the
file, and `closing` those between the removal and the statement that ends the session. Two
things break this. A deletion of a build, a version or a game takes sessions with it by
cascade, and nobody removes their files. And a chunk whose range was reserved in time may be
written late, after the session was closed or while it is being closed. `leavesNoStaging` is
the condition that neither happens. -/

namespace Launcher.Staging

open Launcher.Lib

/-! ## The points of the coroutines -/

/-- The part of a completion up to the removal of the staging file; the rest ends the
session. -/
def beforeRemoval : CompletePoint → Bool
  | .findBySha256 => true
  | .discardHeld => true
  | .chargeUpload => true
  | .discardRefused => true
  | .commit => true
  | _ => false

/-- The task is going to remove the staging file of `id`. -/
def cleans (id : Uuid) : Task → Bool
  | .uploadChunk (.abortUnwritten session _) => session.id == id
  | .uploadChunk (.discardUnwritten session _) => session.id == id
  | .uploadChunk (.completing session point) => session.id == id && beforeRemoval point
  | .abortUpload (.markAborted session) => session.id == id
  | .abortUpload (.discard session) => session.id == id
  | .sweepSessions (.discard session rest _) => (session :: rest).any (fun u => u.id == id)
  | .sweepSessions (.deleteSession _ rest _) => rest.any (fun u => u.id == id)
  | _ => false

/-- The task has removed the staging file of `id` and is going to end the session. -/
def closing (id : Uuid) : Task → Bool
  | .uploadChunk (.completing session point) => session.id == id && !beforeRemoval point
  | .sweepSessions (.deleteSession session _ _) => session.id == id
  | _ => false

/-- The task is about to write into the staging file of `id`. -/
def writes (id : Uuid) : Task → Bool
  | .uploadChunk (.writeAt session _ _ _) => session.id == id
  | _ => false

def Pending (s : State) (id : Uuid) : Prop :=
  ∃ row, s.sessions.find? id = some row ∧ row.status = .Pending

/-- The session has a staging file. -/
def hasStaging (s : State) (u : UploadSessionRow) : Bool := (s.files (stagingPathFor u.id)).isSome

/-- The session goes when the task's next statement is a deletion. -/
def cascades (s : State) (u : UploadSessionRow) : Task → Bool
  | .deleteBuild (.removeBuild buildId) => u.buildId == buildId
  | .deleteVersion (.removeVersion versionId) =>
      ((s.builds.find? u.buildId).map (fun b => b.gameVersionId == versionId)).getD false
  | .deleteGame (.removeGame gameId) =>
      (((s.builds.find? u.buildId).bind (fun b => s.versions.find? b.gameVersionId)).map
        (fun v => v.gameId == gameId)).getD false
  | _ => false

/-- Somebody is going to remove the staging file of `id`. -/
def cleaned (w : Server) (id : Uuid) : Bool := w.tasks.any (cleans id)

/-- The row of `id` is pending and nobody is closing it. -/
def keptOpen (w : Server) (id : Uuid) : Bool :=
  ((w.shared.sessions.find? id).map (fun u => u.status == .Pending)).getD false &&
    w.tasks.all (fun t => !closing id t)

/-- A chunk that does not complete its session is written only while the session is kept open,
and a deletion takes no session that has a staging file; except when a coroutine is about to
remove the file anyway. -/
def leavesNoStaging (w : Server) : Move → Bool
  | .resume i _ =>
      match w.tasks[i]? with
      | some (.uploadChunk (.writeAt session reserved _ _)) =>
          reserved.complete || cleaned w session.id || keptOpen w session.id
      | some t => w.shared.sessions.rows.all (fun u =>
          !cascades w.shared u t || !hasStaging w.shared u || cleaned w u.id)
      | none => true
  | _ => true

/-! ## Rows that stay pending -/

theorem pending_modify {s : State} {id k : Uuid} {f : Table.Update UploadSessionRow.id}
    (h : Pending s id) (hf : id = k → ∀ r, (f.1 r).status = r.status) :
    Pending { s with sessions := s.sessions.modify k f } id := by
  obtain ⟨row, hr, hp⟩ := h
  by_cases he : id = k
  · subst he
    refine ⟨f.1 row, ?_, (hf rfl row).trans hp⟩
    show (s.sessions.modify id f).find? id = _
    rw [Table.find?_modify_self, hr]
    rfl
  · refine ⟨row, ?_, hp⟩
    show (s.sessions.modify k f).find? id = _
    rw [Table.find?_modify_ne he]
    exact hr

theorem pending_delete {s s' : State} {id : Uuid} {p : UploadSessionRow → Bool}
    (h : Pending s id) (hs : s'.sessions = s.sessions.delete p)
    (hp : ∀ row, s.sessions.find? id = some row → p row = false) : Pending s' id := by
  obtain ⟨row, hr, hpend⟩ := h
  refine ⟨row, ?_, hpend⟩
  rw [hs]
  exact Table.find?_delete.mpr ⟨hr, hp row hr⟩

theorem pending_close {s : State} {id k : Uuid} {status : UploadSessionStatus}
    (h : Pending s id) (hne : id ≠ k) : Pending (s.closeSession k status).2 id := by
  obtain e | ⟨_, _, _, e⟩ := s.closeSession_cases k status
  · rw [e]
    exact h
  · rw [e]
    exact pending_modify h (fun he => absurd he hne)

theorem pending_reserve {s : State} {id k : Uuid} {offset : Int} {count : Nat}
    (h : Pending s id) : Pending (s.reserveBytes k offset count).2 id := by
  obtain e | ⟨_, _, _, _, _, _, e⟩ := s.reserveBytes_cases k offset count
  · rw [e]
    exact h
  · rw [e]
    exact pending_modify h (fun _ _ => rfl)

theorem pending_insert {s : State} {id : Uuid} {choice : Choice} {session : NewUploadSession}
    (h : Pending s id) : Pending (s.insertSession choice session).2 id := by
  obtain e | ⟨_, _, _, e⟩ := s.insertSession_cases choice session
  · rw [e]
    exact h
  · obtain ⟨row, hr, hp⟩ := h
    rw [e]
    exact ⟨row, Table.find?_eq_some.mpr
      ⟨Table.mem_insert_of_mem (Table.mem_of_find? hr), Table.key_of_find? hr⟩, hp⟩

/-! ## One step of a task -/

/-- The row of `id` is one that the task's deletion takes. -/
def Doomed (s : State) (id : Uuid) (t : Task) : Prop :=
  ∃ row, s.sessions.find? id = some row ∧ cascades s row t = true

/-- What a step of `t` to `t'` does to staging files and their rows. -/
structure Local (s : State) (t : Task) (s' : State) (t' : Task) : Prop where
  /-- A staging file was there before, or the step wrote it. -/
  old : ∀ id, s'.files (stagingPathFor id) ≠ none →
    s.files (stagingPathFor id) ≠ none ∨ writes id t = true
  /-- As long as the file is there, whoever was going to remove it still is. -/
  owed : ∀ id, s'.files (stagingPathFor id) ≠ none → cleans id t = true → cleans id t' = true
  /-- Only a task that is closing the session ends it and is not going to remove the file. -/
  row : ∀ id, Pending s id → closing id t = false → ¬Doomed s id t →
    Pending s' id ∨ cleans id t' = true
  /-- A task starts to close a session by removing the file. -/
  closes : ∀ id, s'.files (stagingPathFor id) ≠ none → closing id t' = true →
    closing id t = true

section Shapes

variable {s s' : State} {t t' : Task}

/-- Steps that leave the files alone. -/
theorem local_of_rows (hf : ∀ id, s'.files (stagingPathFor id) = s.files (stagingPathFor id))
    (hc : ∀ id, cleans id t = true → cleans id t' = true)
    (hrow : ∀ id, Pending s id → closing id t = false → ¬Doomed s id t →
      Pending s' id ∨ cleans id t' = true)
    (hcl : ∀ id, closing id t' = true → closing id t = true) : Local s t s' t' where
  old id h := Or.inl (by rw [← hf id]; exact h)
  owed id _ h := hc id h
  row := hrow
  closes id _ h := hcl id h

theorem pending_of_sessions {id : Uuid} (hs : s'.sessions = s.sessions) (h : Pending s id) :
    Pending s' id := by
  unfold Pending
  rw [hs]
  exact h

/-- Steps that leave files and sessions alone. -/
theorem local_of_quiet (hf : ∀ id, s'.files (stagingPathFor id) = s.files (stagingPathFor id))
    (hs : s'.sessions = s.sessions) (hc : ∀ id, cleans id t = true → cleans id t' = true)
    (hcl : ∀ id, closing id t' = true → closing id t = true) : Local s t s' t' :=
  local_of_rows hf hc (fun _ hp _ _ => Or.inl (pending_of_sessions hs hp)) hcl

/-- Steps that remove the staging file of `k`. -/
theorem local_of_remove (k : Uuid)
    (hf : ∀ id, s'.files (stagingPathFor id)
      = if id = k then none else s.files (stagingPathFor id))
    (hs : s'.sessions = s.sessions)
    (hc : ∀ id, id ≠ k → cleans id t = true → cleans id t' = true)
    (hcl : ∀ id, id ≠ k → closing id t' = true → closing id t = true) : Local s t s' t' := by
  have hne : ∀ id, s'.files (stagingPathFor id) ≠ none → id ≠ k := by
    intro id h e
    exact h (by rw [hf id, if_pos e])
  refine ⟨fun id h => Or.inl ?_, fun id h => hc id (hne id h),
    fun id hp _ _ => Or.inl (pending_of_sessions hs hp), fun id h => hcl id (hne id h)⟩
  have hk := hne id h
  rw [hf id, if_neg hk] at h
  exact h

/-- Steps that close the session `k`. -/
theorem local_of_close {k : Uuid} {status : UploadSessionStatus}
    (hs : s' = (s.closeSession k status).2)
    (hk : closing k t = true ∨ cleans k t' = true)
    (hc : ∀ id, cleans id t = true → cleans id t' = true)
    (hcl : ∀ id, closing id t' = true → closing id t = true) : Local s t s' t' := by
  have hf : s'.files = s.files := by
    rw [hs]
    obtain e | ⟨_, _, _, e⟩ := s.closeSession_cases k status <;> rw [e]
  refine local_of_rows (fun id => by rw [hf]) hc (fun id hp hopen _ => ?_) hcl
  by_cases he : id = k
  · subst he
    exact Or.inr (hk.resolve_left (by rw [hopen]; exact Bool.false_ne_true))
  · rw [hs]
    exact Or.inl (pending_close hp he)

end Shapes

theorem remove_staging_files (files : Files) (k id : Uuid) :
    files.remove (stagingPathFor k) (stagingPathFor id)
      = if id = k then none else files (stagingPathFor id) := by
  by_cases h : id = k
  · rw [if_pos h, h]
    exact Files.remove_self _ _
  · rw [if_neg h]
    exact Files.remove_ne _ (fun e => h (stagingPathFor_injective e))

/-- A commit of a well-formed hash removes the staging file, whatever its outcome. -/
theorem commit_removes {env : Env} {files files' : Files} {fault : IoFault} {k : Uuid}
    {sha256 : Bytes} {r : VoidResult} (hsha : isSha256Hex sha256 = true)
    (e : commit env.sha256Hex files fault (stagingPathFor k) sha256 = (r, files')) (id : Uuid) :
    files' (stagingPathFor id) = if id = k then none else files (stagingPathFor id) := by
  rw [← remove_staging_files]
  obtain ⟨_, _, hnone⟩ | ⟨_, hc⟩ | ⟨target, _, ht, _, _, ⟨_, _, hc⟩ | ⟨_, hc⟩⟩ :=
    commit_cases env.sha256Hex files fault (stagingPathFor k) sha256
  · rw [pathFor_of_isSha256Hex hsha] at hnone
    cases hnone
  · cases hc.symm.trans e
    rfl
  · cases hc.symm.trans e
    rfl
  · cases hc.symm.trans e
    exact Files.set_ne _ _ (pathFor_ne_staging ht id).symm

/-! ## The coroutines -/

/-- A session that a chunk was reserved in, or that is being completed, has a well-formed
hash; the request writes into the file of the session it reserved in. -/
def Sane : Task → Prop
  | .uploadChunk (.writeAt session reserved _ _) =>
      reserved.id = session.id ∧ isSha256Hex reserved.blobSha256 = true
  | .uploadChunk (.completing session _) => isSha256Hex session.blobSha256 = true
  | _ => True

section Coroutines

variable {env : Env} {choice : Choice} {s : State}

theorem local_of_frame {α : Type} {c : Call α} {r : α} {s' : State} {t t' : Task}
    (e : exec env choice c s = (r, s')) (hw : c.writesFiles = false)
    (hs : c.writesSessions = false) (hc : ∀ id, cleans id t = true → cleans id t' = true)
    (hcl : ∀ id, closing id t' = true → closing id t = true) : Local s t s' t' := by
  have hf := Frame.of_exec e
  exact local_of_quiet (fun id => by rw [hf.files hw]) (hf.sessions hs) hc hcl

theorem local_of_discard {k : Uuid} {r : Unit} {s' : State} {t t' : Task}
    (e : exec env choice (.discard (stagingPathFor k)) s = (r, s'))
    (hc : ∀ id, id ≠ k → cleans id t = true → cleans id t' = true)
    (hcl : ∀ id, id ≠ k → closing id t' = true → closing id t = true) : Local s t s' t' := by
  have hs : s' = { s with files := s.files.remove (stagingPathFor k) } :=
    (congrArg Prod.snd e).symm
  refine local_of_remove k (fun id => ?_) (by rw [hs]) hc hcl
  rw [hs]
  dsimp only
  rw [remove_staging_files]

theorem completing_local (session : UploadSession) (point : CompletePoint)
    (hsha : isSha256Hex session.blobSha256 = true) :
    (Task.next env (.uploadChunk (.completing session point))).Wp (exec env) choice s
      (fun s' t' => Local s (.uploadChunk (.completing session point)) s' t') := by
  rw [Task.next, Suspended.wp_map]
  cases point with
  | findBySha256 =>
      intro r s' e
      cases r <;> exact local_of_frame e rfl rfl (fun _ h => h) (fun _ h => h)
  | chargeUpload =>
      intro r s' e
      cases r <;> exact local_of_frame e rfl rfl (fun _ h => h) (fun _ h => h)
  | releaseFailed error =>
      intro r s' e
      exact local_of_frame e rfl rfl (fun _ h => h) (fun _ h => h)
  | releaseLost =>
      intro r s' e
      exact local_of_frame e rfl rfl (fun _ h => h) (fun _ h => h)
  | recordBlob =>
      intro r s' e
      cases r <;> exact local_of_frame e rfl rfl (fun _ h => h) (fun _ h => h)
  | discardHeld =>
      intro r s' e
      refine local_of_discard e (fun id hne h => ?_) (fun id hne h => ?_)
      · simp [cleans, beforeRemoval, hne.symm] at h
      · simp [closing, hne.symm] at h
  | discardRefused =>
      intro r s' e
      refine local_of_discard e (fun id hne h => ?_) (fun id hne h => ?_)
      · simp [cleans, beforeRemoval, hne.symm] at h
      · simp [closing, hne.symm] at h
  | commit =>
      intro r s' e
      have hs : s'.sessions = s.sessions := by
        cases e
        rfl
      refine local_of_remove session.id (commit_removes hsha (exec_commit e)) hs
        (fun id hne h => ?_) (fun id hne h => ?_)
      · simp [cleans, beforeRemoval, hne.symm] at h
      · cases r <;> simp [closing, hne.symm] at h
  | markHeld =>
      intro r s' e
      refine local_of_close (congrArg Prod.snd e).symm (Or.inl ?_) (fun id h => ?_)
        (fun id h => ?_)
      · simp [closing, beforeRemoval]
      · simp [cleans, beforeRemoval] at h
      · simp [closing, finished] at h
  | abortRefused =>
      intro r s' e
      refine local_of_close (congrArg Prod.snd e).symm (Or.inl ?_) (fun id h => ?_)
        (fun id h => ?_)
      · simp [closing, beforeRemoval]
      · simp [cleans, beforeRemoval] at h
      · simp [closing] at h
  | abortFailed error =>
      intro r s' e
      refine local_of_close (congrArg Prod.snd e).symm (Or.inl ?_) (fun id h => ?_)
        (fun id h => ?_)
      · simp [closing, beforeRemoval]
      · simp [cleans, beforeRemoval] at h
      · simp [closing] at h
  | markCompleted =>
      intro r s' e
      refine local_of_close (congrArg Prod.snd e).symm (Or.inl ?_) (fun id h => ?_)
        (fun id h => ?_)
      · simp [closing, beforeRemoval]
      · simp [cleans, beforeRemoval] at h
      · simp [closing, finished] at h

theorem upload_local (t : UploadChunk) (ht : Sane (.uploadChunk t)) :
    (Task.next env (.uploadChunk t)).Wp (exec env) choice s
      (fun s' t' => Local s (.uploadChunk t) s' t') := by
  cases t with
  | completing session point => exact completing_local session point ht
  | answered result => trivial
  | findSession actor sessionId offset chunk =>
      intro r s' e
      refine local_of_frame e rfl rfl (fun _ h => by cases h) (fun id h => ?_)
      change closing id (.uploadChunk (admitted env actor offset chunk r)) = true at h
      obtain ⟨_, ha⟩ | ⟨_, _, _, _, ha⟩ := admitted_cases env actor offset chunk r <;>
        rw [ha] at h <;> cases h
  | reserveBytes session offset chunk =>
      intro r s' e
      have hf := Frame.of_exec e
      have hs : s' = (s.reserveBytes session.id offset chunk.length).2 := (congrArg Prod.snd e).symm
      refine local_of_rows (fun id => by rw [hf.files rfl]) (fun _ h => by cases h)
        (fun id hp _ _ => Or.inl ?_) (fun id h => ?_)
      · rw [hs]
        exact pending_reserve hp
      · cases r <;> cases h
  | writeAt session reserved offset chunk =>
      intro r s' e
      have hs : s'.sessions = s.sessions := by
        cases e
        rfl
      have hfiles : ∀ id ≠ session.id,
          s'.files (stagingPathFor id) = s.files (stagingPathFor id) := by
        intro id hne
        cases e
        exact writeAt_frame _ _ _ _ _ (fun he => hne (stagingPathFor_injective he))
      refine ⟨fun id h => ?_, fun _ _ h => (by cases h),
        fun id hp _ _ => Or.inl (pending_of_sessions hs hp), fun id _ h => ?_⟩
      · by_cases hid : id = session.id
        · right
          simp [writes, hid]
        · left
          rw [← hfiles id hid]
          exact h
      · change closing id (.uploadChunk (written session reserved r)) = true at h
        obtain ⟨_, _, hw⟩ | ⟨_, _, hw⟩ | ⟨_, _, hw⟩ := written_cases session reserved r <;>
          rw [hw] at h <;> simp [closing, beforeRemoval] at h
  | abortUnwritten session error =>
      intro r s' e
      refine local_of_close (congrArg Prod.snd e).symm (Or.inr ?_) (fun id h => h)
        (fun id h => by cases h)
      simp [cleans]
  | discardUnwritten session error =>
      intro r s' e
      refine local_of_discard e (fun id hne h => ?_) (fun id _ h => by cases h)
      simp [cleans, hne.symm] at h

theorem abort_local (t : AbortUpload) :
    (Task.next env (.abortUpload t)).Wp (exec env) choice s
      (fun s' t' => Local s (.abortUpload t) s' t') := by
  cases t with
  | answered result => trivial
  | findSession actor sessionId =>
      intro r s' e
      refine local_of_frame e rfl rfl (fun _ h => by cases h) (fun id h => ?_)
      cases sessionStatus actor r <;> simp [closing] at h
  | markAborted session =>
      intro r s' e
      refine local_of_close (congrArg Prod.snd e).symm (Or.inr ?_) (fun id h => h)
        (fun id h => by cases h)
      simp [cleans]
  | discard session =>
      intro r s' e
      refine local_of_discard e (fun id hne h => ?_) (fun id _ h => by cases h)
      simp [cleans, hne.symm] at h

theorem closing_loop (id : Uuid) (rest : List UploadSession) (reclaimed : Nat) :
    closing id (.sweepSessions (.loop rest reclaimed)) = false := by
  cases rest <;> rfl

theorem cleans_loop (id : Uuid) (rest : List UploadSession) (reclaimed : Nat) :
    cleans id (.sweepSessions (.loop rest reclaimed)) = rest.any (fun u => u.id == id) := by
  cases rest <;> rfl

theorem sweep_local (t : SweepSessions) :
    (Task.next env (.sweepSessions t)).Wp (exec env) choice s
      (fun s' t' => Local s (.sweepSessions t) s' t') := by
  cases t with
  | finished reclaimed => trivial
  | findExpired =>
      intro r s' e
      refine local_of_frame e rfl rfl (fun _ h => by cases h) (fun id h => ?_)
      rw [closing_loop] at h
      cases h
  | discard session rest reclaimed =>
      intro r s' e
      refine local_of_discard e (fun id hne h => ?_) (fun id hne h => ?_)
      · simpa [cleans, hne.symm] using h
      · simp [closing, hne.symm] at h
  | deleteSession session rest reclaimed =>
      intro r s' e
      have hs : s'.sessions = s.sessions.delete (fun u => decide (u.id = session.id)) := by
        cases e
        rfl
      have hf := Frame.of_exec e
      refine local_of_rows (fun id => by rw [hf.files rfl]) (fun id h => ?_)
        (fun id hp hopen _ => Or.inl ?_) (fun id h => ?_)
      · rw [cleans_loop]
        exact h
      · refine pending_delete hp hs (fun row hr => ?_)
        have hid : row.id = id := Table.key_of_find? hr
        have hne : session.id ≠ id := by simpa [closing] using hopen
        rw [hid]
        exact decide_eq_false hne.symm
      · rw [closing_loop] at h
        cases h

/-- A coroutine that removes staging files writes files and sessions. -/
theorem cleans_of_kind {t : Task} (h : t.kind.writesFiles = false ∨ t.kind.writesSessions = false)
    (id : Uuid) : cleans id t = false ∧ closing id t = false := by
  cases t with
  | uploadChunk t => rcases h with h | h <;> cases h
  | abortUpload t => rcases h with h | h <;> cases h
  | sweepSessions t => rcases h with h | h <;> cases h
  | _ => exact ⟨rfl, rfl⟩

theorem cascade_kept {s' : State} {id : Uuid} {doomed : Build → Bool}
    (hs : s'.sessions = (s.cascadeBuilds doomed).sessions) (hp : Pending s id)
    (hd : ∀ row b, s.sessions.find? id = some row → s.builds.find? row.buildId = some b →
      doomed b = false) : Pending s' id := by
  refine pending_delete hp hs (fun row hr => ?_)
  show ((s.builds.find? row.buildId).map doomed).getD false = false
  cases hb : s.builds.find? row.buildId with
  | none => rfl
  | some b => exact hd row b hr hb

/-- The coroutines that touch no file keep every pending row, deletions apart. -/
theorem rows_kept {t : Task} (hk : t.kind.writesFiles = false) :
    (t.next env).Wp (exec env) choice s
      (fun s' _ => ∀ id, Pending s id → ¬Doomed s id t → Pending s' id) := by
  by_cases hw : t.kind.writesSessions = true
  · cases t with
    | beginUpload t =>
        rw [Task.next, Suspended.wp_map]
        cases t with
        | insertSession actor request =>
            intro r s' e id hp _
            have hs : s' = (s.insertSession choice request).2 := (congrArg Prod.snd e).symm
            rw [hs]
            exact pending_insert hp
        | answered result => trivial
        | threw error => trivial
        | _ =>
            intro r s' e id hp _
            cases e
            exact hp
    | deleteBuild t =>
        rw [Task.next, Suspended.wp_map]
        cases t with
        | answered result => trivial
        | findOwnership actor buildId =>
            intro r s' e id hp _
            cases e
            exact hp
        | removeBuild buildId =>
            intro r s' e id hp hd
            cases e
            refine cascade_kept rfl hp (fun row b hr hb => ?_)
            have hid : b.id = row.buildId := Table.key_of_find? hb
            refine decide_eq_false (fun he => hd ⟨row, hr, ?_⟩)
            simp [cascades, ← he, hid]
    | deleteVersion t =>
        rw [Task.next, Suspended.wp_map]
        cases t with
        | answered result => trivial
        | removeVersion versionId =>
            intro r s' e id hp hd
            cases e
            refine cascade_kept rfl hp (fun row b hr hb => ?_)
            cases hv : s.versions.find? b.gameVersionId with
            | none => rfl
            | some v =>
                have hid : v.id = b.gameVersionId := Table.key_of_find? hv
                refine decide_eq_false (fun he => hd ⟨row, hr, ?_⟩)
                simp [cascades, hb, ← he, hid]
        | findGame actor gameId versionId =>
            intro r s' e id hp _
            unfold Catalog.findGame at e
            split at e <;> cases e <;> exact hp
        | findVersion game versionId =>
            intro r s' e id hp _
            cases e
            exact hp
    | deleteGame t =>
        rw [Task.next, Suspended.wp_map]
        cases t with
        | answered result => trivial
        | removeGame gameId =>
            intro r s' e id hp hd
            cases e
            refine cascade_kept rfl hp (fun row b hr hb => ?_)
            cases hv : s.versions.find? b.gameVersionId with
            | none => rfl
            | some v =>
                refine decide_eq_false (fun he => hd ⟨row, hr, ?_⟩)
                simp [cascades, hb, hv, he]
        | findGame actor idOrSlug =>
            intro r s' e id hp _
            unfold Catalog.findGame at e
            split at e <;> cases e <;> exact hp
    | uploadChunk t => cases hk
    | abortUpload t => cases hk
    | sweepSessions t => cases hk
    | _ => cases hw
  · refine (t.next_keeps env choice s).mono (fun s' t' h id hp _ => ?_)
    exact pending_of_sessions (h.1.sessions (by simpa using hw)) hp

/-- The collector removes files at content addresses only. -/
theorem collect_files (t : CollectBlobs) :
    (Task.next env (.collectBlobs t)).Wp (exec env) choice s
      (fun s' _ => ∀ id, s'.files (stagingPathFor id) = s.files (stagingPathFor id)) := by
  rw [Task.next, Suspended.wp_map]
  cases t with
  | finished report => trivial
  | discard deleted blob rest report =>
      intro r s' e id
      have hne : stagingPathFor id ≠ (pathFor blob.sha256).getD [] := by
        cases hp : pathFor blob.sha256 with
        | none => simp [stagingPathFor]
        | some p => exact (pathFor_ne_staging hp id).symm
      cases e
      exact Files.remove_ne _ hne
  | findUnreferenced =>
      intro r s' e id
      cases e
      rfl
  | deleteIfUnreferenced blob rest report =>
      intro r s' e id
      have hf := Frame.of_exec e
      rw [hf.files rfl]
  | releaseUpload deleted blob userId rest report =>
      intro r s' e id
      cases e
      rfl

/-- **The step of any task.** -/
theorem next_local {t : Task} (ht : Sane t) :
    (t.next env).Wp (exec env) choice s (fun s' t' => Local s t s' t') := by
  have hquiet : ∀ {s' : State} {t' : Task},
      t.kind.writesFiles = false ∨ t.kind.writesSessions = false → t'.kind = t.kind →
      (∀ id, s'.files (stagingPathFor id) = s.files (stagingPathFor id)) →
      (∀ id, Pending s id → ¬Doomed s id t → Pending s' id) → Local s t s' t' := by
    intro s' t' hk hkind hf hrow
    refine local_of_rows hf (fun id h => ?_) (fun id hp _ hd => Or.inl (hrow id hp hd))
      (fun id h => ?_)
    · rw [(cleans_of_kind hk id).1] at h
      cases h
    · rw [(cleans_of_kind (hkind ▸ hk) id).2] at h
      cases h
  by_cases hk : t.kind.writesFiles = true
  · cases t with
    | uploadChunk t => exact upload_local t ht
    | abortUpload t => exact abort_local t
    | sweepSessions t => exact sweep_local t
    | collectBlobs t =>
        refine ((collect_files t).and (Task.next_keeps env choice s _)).mono
          (fun s' t' h => hquiet (Or.inr rfl) h.2.2 h.1 (fun id hp _ => ?_))
        exact pending_of_sessions (h.2.1.sessions rfl) hp
    | _ => cases hk
  · have hk' : t.kind.writesFiles = false := by simpa using hk
    refine ((rows_kept hk').and (t.next_keeps env choice s)).mono
      (fun s' t' h => hquiet (Or.inl hk') h.2.2 (fun id => ?_) h.1)
    rw [h.2.1.files hk']

/-- The request that reserved the last byte, and one whose write failed, are going to remove
the file they wrote into. -/
theorem write_last {session reserved : UploadSession} {offset : Int} {chunk : Bytes}
    (hid : reserved.id = session.id) :
    (Task.next env (.uploadChunk (.writeAt session reserved offset chunk))).Wp (exec env) choice s
      (fun _ t' => reserved.complete = true → cleans session.id t' = true) := by
  intro r s' e hc
  change cleans session.id (.uploadChunk (written session reserved r)) = true
  obtain ⟨_, _, hw⟩ | ⟨_, _, hw⟩ | ⟨_, hn, _⟩ := written_cases session reserved r
  · rw [hw]
    simp [cleans]
  · rw [hw]
    simp [cleans, beforeRemoval, hid]
  · rw [hc] at hn
    cases hn

theorem sane_of_kind {t : Task} (h : t.kind ≠ .uploadChunk) : Sane t := by
  cases t with
  | uploadChunk t => exact absurd rfl h
  | _ => trivial

theorem next_sane (hs : Reservation.SessionsOk s) {t : Task} (ht : Sane t) :
    (t.next env).Wp (exec env) choice s (fun _ t' => Sane t') := by
  by_cases hk : t.kind = .uploadChunk
  · cases t with
    | uploadChunk t =>
        rw [Task.next, Suspended.wp_map]
        cases t with
        | answered result => trivial
        | findSession actor sessionId offset chunk =>
            intro r s' _
            obtain ⟨_, ha⟩ | ⟨_, _, _, _, ha⟩ := admitted_cases env actor offset chunk r <;>
              rw [ha] <;> trivial
        | reserveBytes session offset chunk =>
            intro r s' e
            obtain hc | ⟨row, hr, _, _, _, _, hc⟩ :=
              s.reserveBytes_cases session.id offset chunk.length <;> cases hc.symm.trans e
            · trivial
            · have hid : row.id = session.id := Table.key_of_find? hr
              exact ⟨hid, hs.hashes row (Table.mem_of_find? hr)⟩
        | writeAt session reserved offset chunk =>
            intro r s' _
            obtain ⟨_, _, hw⟩ | ⟨_, _, hw⟩ | ⟨_, _, hw⟩ := written_cases session reserved r <;>
              rw [hw]
            · trivial
            · exact ht.2
            · trivial
        | abortUnwritten session error => exact fun _ _ _ => trivial
        | discardUnwritten session error => exact fun _ _ _ => trivial
        | completing session point =>
            cases point <;> intro r s' _ <;> first | exact ht | trivial | (cases r <;> exact ht)
    | _ => cases hk
  · refine (t.next_keeps env choice s).mono (fun s' t' h => sane_of_kind ?_)
    rw [h.2]
    exact hk

end Coroutines

/-! ## Runs -/

/-- Somebody is going to remove the staging file of `id`, or its row is pending and nobody is
closing it. -/
def Owned (w : Server) (id : Uuid) : Prop :=
  (∃ t ∈ w.tasks, cleans id t = true) ∨
    (Pending w.shared id ∧ ∀ t ∈ w.tasks, closing id t = false)

theorem cleaned_iff {w : Server} {id : Uuid} :
    cleaned w id = true ↔ ∃ t ∈ w.tasks, cleans id t = true := List.any_eq_true

theorem owned_of_keptOpen {w : Server} {id : Uuid} (h : keptOpen w id = true) :
    Pending w.shared id ∧ ∀ t ∈ w.tasks, closing id t = false := by
  rw [keptOpen, Bool.and_eq_true, List.all_eq_true] at h
  refine ⟨?_, fun t ht => by simpa using h.2 t ht⟩
  cases hr : w.shared.sessions.find? id with
  | none => simp [hr] at h
  | some row => exact ⟨row, hr, by simpa [hr] using h.1⟩

section Step

variable {w : Server} {i : Nat} {t t' : Task} {s' : State} {id : Uuid}

/-- Whoever was going to remove a file that is still there still is. -/
theorem cleaned_kept (hi : w.tasks[i]? = some t) (hl : Local w.shared t s' t')
    (hfile : s'.files (stagingPathFor id) ≠ none) (h : ∃ u ∈ w.tasks, cleans id u = true) :
    ∃ u ∈ w.tasks.set i t', cleans id u = true := by
  obtain ⟨u, hu, hcl⟩ := h
  obtain ⟨j, hj⟩ := List.mem_iff_getElem?.mp hu
  by_cases hji : j = i
  · subst hji
    have hut : u = t := Option.some.inj (hj.symm.trans hi)
    have hlt : j < w.tasks.length := (List.getElem?_eq_some_iff.mp hi).1
    exact ⟨t', List.mem_set hlt _, hl.owed id hfile (hut ▸ hcl)⟩
  · refine ⟨u, List.mem_of_getElem? (i := j) ?_, hcl⟩
    rw [List.getElem?_set_ne (Ne.symm hji)]
    exact hj

/-- A file that stays keeps its owner, when no deletion takes the row. -/
theorem owned_kept (hi : w.tasks[i]? = some t) (hl : Local w.shared t s' t')
    (hfile : s'.files (stagingPathFor id) ≠ none) (ho : Owned w id)
    (hd : Doomed w.shared id t → cleaned w id = true) :
    Owned ⟨s', w.tasks.set i t'⟩ id := by
  rcases ho with hcl | ⟨hp, hopen⟩
  · exact Or.inl (cleaned_kept hi hl hfile hcl)
  · by_cases hdoom : Doomed w.shared id t
    · exact Or.inl (cleaned_kept hi hl hfile (cleaned_iff.mp (hd hdoom)))
    · have hlt : i < w.tasks.length := (List.getElem?_eq_some_iff.mp hi).1
      have ht : closing id t = false := hopen t (List.mem_of_getElem? hi)
      rcases hl.row id hp ht hdoom with hp' | hcl
      · refine Or.inr ⟨hp', fun u hu => ?_⟩
        rcases List.mem_or_eq_of_mem_set hu with hu | rfl
        · exact hopen u hu
        · refine Bool.eq_false_iff.mpr (fun hcl => ?_)
          rw [hl.closes id hfile hcl] at ht
          cases ht
      · exact Or.inl ⟨t', List.mem_set hlt _, hcl⟩

/-- The condition, for a step that writes no staging file. -/
theorem doomed_cleaned {choice : Choice} (hi : w.tasks[i]? = some t)
    (hA : leavesNoStaging w (.resume i choice) = true)
    (hw : ∀ session reserved offset chunk,
      t ≠ .uploadChunk (.writeAt session reserved offset chunk))
    (hfile : w.shared.files (stagingPathFor id) ≠ none) (hd : Doomed w.shared id t) :
    cleaned w id = true := by
  obtain ⟨row, hr, hc⟩ := hd
  have hid : row.id = id := Table.key_of_find? hr
  simp only [leavesNoStaging, hi] at hA
  have hrow := List.all_eq_true.mp hA row (Table.mem_of_find? hr)
  have hs : hasStaging w.shared row = true := by
    unfold hasStaging
    rw [hid]
    exact Option.isSome_iff_ne_none.mpr hfile
  rw [hc, hs, hid] at hrow
  simpa using hrow

end Step

/-- The condition, for a write. -/
theorem owned_of_write {w : Server} {i : Nat} {choice : Choice} {session reserved : UploadSession}
    {offset : Int} {chunk : Bytes}
    (hi : w.tasks[i]? = some (.uploadChunk (.writeAt session reserved offset chunk)))
    (hA : leavesNoStaging w (.resume i choice) = true) :
    reserved.complete = true ∨ Owned w session.id := by
  simp only [leavesNoStaging, hi, Bool.or_eq_true] at hA
  rcases hA with (hc | hcl) | hk
  · exact Or.inl hc
  · exact Or.inr (Or.inl (cleaned_iff.mp hcl))
  · exact Or.inr (Or.inr (owned_of_keptOpen hk))

def AllOwned (w : Server) : Prop :=
  ∀ id, w.shared.files (stagingPathFor id) ≠ none → Owned w id

theorem owned_call {env : Env} {w : Server} {i : Nat} {choice : Choice} {t : Task}
    (hO : AllOwned w) (ht : Sane t) (hi : w.tasks[i]? = some t)
    (hA : leavesNoStaging w (.resume i choice) = true) :
    (t.next env).Wp (exec env) choice w.shared
      (fun s' t' => AllOwned ⟨s', w.tasks.set i t'⟩) := by
  by_cases hw : ∃ session reserved offset chunk,
      t = .uploadChunk (.writeAt session reserved offset chunk)
  · obtain ⟨session, reserved, offset, chunk, rfl⟩ := hw
    refine ((next_local ht).and (write_last ht.1)).mono (fun s' t' h id hfile => ?_)
    obtain ⟨hl, hlast⟩ := h
    -- nothing is deleted: a write has no row to take
    have hnd : Doomed w.shared id (.uploadChunk (.writeAt session reserved offset chunk)) →
        cleaned w id = true := by
      rintro ⟨_, _, hc⟩
      cases hc
    by_cases hid : id = session.id
    · subst hid
      rcases owned_of_write hi hA with hc | ho
      · have hlt : i < w.tasks.length := (List.getElem?_eq_some_iff.mp hi).1
        exact Or.inl ⟨t', List.mem_set hlt _, hlast hc⟩
      · exact owned_kept hi hl hfile ho hnd
    · have hold : w.shared.files (stagingPathFor id) ≠ none := by
        refine (hl.old id hfile).resolve_right (fun hwr => hid ?_)
        have he : session.id = id := by simpa [writes] using hwr
        exact he.symm
      exact owned_kept hi hl hfile (hO id hold) hnd
  · push Not at hw
    refine (next_local ht).mono (fun s' t' hl id hfile => ?_)
    have hold : w.shared.files (stagingPathFor id) ≠ none := by
      refine (hl.old id hfile).resolve_right (fun hwr => ?_)
      cases t with
      | uploadChunk t =>
          cases t with
          | writeAt session reserved offset chunk => exact hw session reserved offset chunk rfl
          | _ => cases hwr
      | _ => cases hwr
    exact owned_kept hi hl hfile (hO id hold) (doomed_cleaned hi hA hw hold)

theorem entry_sane (r : Request) : Sane (entry r) := by
  cases r with
  | uploadChunk actor sessionId offset chunk =>
      simp only [entry, uploadChunk]
      split <;> trivial
  | _ => trivial

theorem entry_not_closing (id : Uuid) (r : Request) : closing id (entry r) = false := by
  cases r with
  | uploadChunk actor sessionId offset chunk =>
      simp only [entry, uploadChunk]
      split <;> rfl
  | _ => rfl

theorem owned_run {env : Env} {w : Server} (hw : Initial w) (ls : List Move)
    (hok : (server env).Along (fun w l => leavesNoStaging w l = true) w ls) :
    AllOwned ((server env).run w ls) := by
  have hinit : Reservation.SessionsOk w.shared := Reservation.sessionsOk_run env hw []
  refine (System.run_invariant (S := server env)
    (I := fun w' : Server => Reservation.SessionsOk w'.shared ∧ (∀ t ∈ w'.tasks, Sane t) ∧
      AllOwned w') (fun w' l h hA => ?_) ls w ⟨hinit, ?_, ?_⟩ hok).2.2
  · obtain ⟨hs, ht, hO⟩ := h
    refine System.step_induction (P := fun w'' : Server => Reservation.SessionsOk w''.shared ∧
      (∀ t ∈ w''.tasks, Sane t) ∧ AllOwned w'') (fun r _ => ⟨hs, ?_, ?_⟩)
      (fun i choice t hl hi => ?_) ⟨hs, ht, hO⟩ (fun e _ => ⟨?_, ht, ?_⟩)
    · intro t hmem
      rcases List.mem_append.mp hmem with hmem | hmem
      · exact ht t hmem
      · rw [List.mem_singleton.mp hmem]
        exact entry_sane r
    · intro id hfile
      rcases hO id hfile with ⟨t, hmem, hcl⟩ | ⟨hp, hopen⟩
      · exact Or.inl ⟨t, List.mem_append_left _ hmem, hcl⟩
      · refine Or.inr ⟨hp, fun t hmem => ?_⟩
        rcases List.mem_append.mp hmem with hmem | hmem
        · exact hopen t hmem
        · rw [List.mem_singleton.mp hmem]
          exact entry_not_closing id r
    · have hti : Sane t := ht t (List.mem_of_getElem? hi)
      subst hl
      have hs' : (t.next env).Wp (exec env) choice w'.shared
          (fun s' _ => Reservation.SessionsOk s') :=
        Suspended.wp_of_exec (fun c => Reservation.sessionsOk_exec env choice c w'.shared hs) _
      refine (hs'.and ((next_sane hs hti).and (owned_call hO hti hi hA))).mono
        (fun s' t' h => ⟨h.1, fun u hu => ?_, h.2.2⟩)
      rcases List.mem_or_eq_of_mem_set hu with hu | rfl
      · exact ht u hu
      · exact h.2.1
    · cases e <;> exact Reservation.sessionsOk_of_sessions hs (fun _ hu => hu)
    · cases e <;> exact hO
  · rw [hw.tasks]
    exact fun _ h => absurd h List.not_mem_nil
  · intro id hfile
    exact absurd (hw.files _) hfile

/-- A task that is going to remove a file, or to close a session, has not finished. -/
theorem not_done_of_cleans {env : Env} {id : Uuid} {t : Task} (h : cleans id t = true) :
    (t.next env).isDone = false := by
  cases t with
  | uploadChunk t =>
      cases t with
      | completing session point => cases point <;> rfl
      | answered result => cases h
      | _ => rfl
  | abortUpload t =>
      cases t with
      | answered result => cases h
      | _ => rfl
  | sweepSessions t =>
      cases t with
      | finished reclaimed => cases h
      | _ => rfl
  | _ => cases h

/-- A pending row is listed by the sweep from the moment it expires. -/
theorem mem_findExpired {s : State} {row : UploadSessionRow} (hr : row ∈ s.sessions)
    (hp : row.status = .Pending) (he : row.expiresAt ≤ s.now) {limit : Nat}
    (hl : s.sessions.rows.length ≤ limit) : row.read s.now ∈ s.findExpired limit := by
  refine List.mem_map_of_mem ?_
  rw [List.take_of_length_le]
  · refine (List.perm_insertionSort _ _).mem_iff.mpr (List.mem_filter.mpr ⟨hr, ?_⟩)
    simp [hp, he]
  · rw [(List.perm_insertionSort _ _).length_eq]
    exact (List.length_filter_le _ _).trans hl

/-- **No stranded staging file.** In every run in which no deletion takes a session with a
staging file and no chunk is written late, whenever nothing is executing every staging file
belongs to a pending session, and the sweep will list that session once it has expired. -/
theorem no_stranded_staging (env : Env) (w : Server) (hw : Initial w) (ls : List Move)
    (hok : (server env).Along (fun w l => leavesNoStaging w l = true) w ls)
    (hq : Quiescent env ((server env).run w ls)) (id : Uuid)
    (hfile : ((server env).run w ls).shared.files (stagingPathFor id) ≠ none) :
    ∃ row, ((server env).run w ls).shared.sessions.find? id = some row ∧
      row.status = .Pending ∧
      ∀ duration limit,
        row.expiresAt ≤ ((server env).run w ls).shared.now + duration →
        ((server env).run w ls).shared.sessions.rows.length ≤ limit →
        row.read (((server env).run w ls).shared.now + duration)
          ∈ (outside (.tick duration) ((server env).run w ls).shared).findExpired limit := by
  rcases owned_run hw ls hok id hfile with ⟨t, ht, hcl⟩ | ⟨⟨row, hr, hp⟩, _⟩
  · have hd := hq t ht
    rw [not_done_of_cleans hcl] at hd
    cases hd
  · refine ⟨row, hr, hp, fun duration limit he hl => ?_⟩
    exact mem_findExpired (s := outside (.tick duration) ((server env).run w ls).shared)
      (Table.mem_of_find? hr) hp he hl

section Demo

open Launcher.Demo

/-- Half of a file is uploaded. -/
def halfUploaded : List Move :=
  buildCreated ++ sessionOpened 1 alice shaA 2 20 ++ chunkSent alice 20 0 contentA :: go 2 3

theorem no_stranded_staging_halfUploaded :
    Quiescent env ((server env).run start halfUploaded) ∧
    ((server env).run start halfUploaded).shared.files (stagingPathFor 20) ≠ none ∧
    ∃ row, ((server env).run start halfUploaded).shared.sessions.find? 20 = some row ∧
      row.status = .Pending ∧
      ∀ duration limit,
        row.expiresAt ≤ ((server env).run start halfUploaded).shared.now + duration →
        ((server env).run start halfUploaded).shared.sessions.rows.length ≤ limit →
        row.read (((server env).run start halfUploaded).shared.now + duration)
          ∈ (outside (.tick duration)
              ((server env).run start halfUploaded).shared).findExpired limit := by
  have hq : Quiescent env ((server env).run start halfUploaded) := by
    unfold Quiescent
    decide +kernel
  have hf : ((server env).run start halfUploaded).shared.files (stagingPathFor 20) ≠ none := by
    decide +kernel
  exact ⟨hq, hf, no_stranded_staging env start initial_start halfUploaded
    (by decide +kernel) hq 20 hf⟩

/-- Half of a file is uploaded, and the publisher deletes the build. -/
def deletedHalfway : List Move :=
  halfUploaded ++ .request (.deleteBuild alice (uuidText 10)) :: go 3 2

/-- The build's sessions go by cascade and the staging file stays, with no row left that leads
to it. -/
theorem deletedHalfway_stranded :
    Initial start ∧ Quiescent env ((server env).run start deletedHalfway) ∧
    ((server env).run start deletedHalfway).shared.files (stagingPathFor 20) ≠ none ∧
    ((server env).run start deletedHalfway).shared.sessions.find? 20 = none := by
  have hq : Quiescent env ((server env).run start deletedHalfway) := by
    unfold Quiescent
    decide +kernel
  exact ⟨initial_start, hq, by decide +kernel, by decide +kernel⟩

end Demo

end Launcher.Staging
