import Launcher.Invariants.Staging

set_option autoImplicit false

/-! # What an upload is told

A chunk that ends an upload is answered with the session as completed, or with the error that
`completeSession` ended with. The answer and the row of the session are written by different
steps, and `markCompleted` and `markAborted` do nothing to a session that somebody else has
closed meanwhile: a request that aborts it, a sweep that deletes it, or another request with
a chunk of length zero, which completes the same session a second time. Their replies are
ignored.

`answers_agree` says exactly when no answer disagrees with the record: when the last statement
of every completion finds the session as nobody else could have left it (`undisturbed`). Requests
that do not overlap on a session (`separate`) are such a case. -/

namespace Launcher.Answers

open Launcher.Lib

/-! ## Answers -/

/-- What a request tells its caller about an upload. -/
inductive Answer
  /-- The chunk was taken; this is the session then. -/
  | taken (session : UploadSession)
  /-- `completeSession` ended with an error. -/
  | failed (session : UploadSession)
  deriving DecidableEq, Repr

/-- The answer of a request that steps from `t` to `t'`. -/
def answerOf : UploadChunk → UploadChunk → List Answer
  | .answered _, _ => []
  | _, .answered (.ok session) => [.taken session]
  | .completing session _, .answered (.error _) => [.failed session]
  | _, _ => []

/-- The answer that a step gives. -/
def answers (env : Env) (w : Server) (l : Move) : List Answer :=
  match l with
  | .resume i _ =>
      match w.tasks[i]?, ((server env).step w l).tasks[i]? with
      | some (.uploadChunk t), some (.uploadChunk t') => answerOf t t'
      | _, _ => []
  | _ => []

def statusOf (s : State) (id : Uuid) : Option UploadSessionStatus :=
  (s.sessions.find? id).map (·.status)

/-- The answer agrees with the record: a session that is answered to be completed is stored as
completed and its content has a row, and one whose completion failed is not. -/
def Answer.Agrees (s : State) : Answer → Prop
  | .taken session => session.status = .Completed →
      (s.blobs.find? session.blobSha256).isSome = true ∧
        statusOf s session.id = some .Completed
  | .failed session => statusOf s session.id ≠ some .Completed

instance (s : State) (a : Answer) : Decidable (a.Agrees s) :=
  match a with
  | .taken session => inferInstanceAs (Decidable (session.status = .Completed →
      (s.blobs.find? session.blobSha256).isSome = true ∧
        statusOf s session.id = some .Completed))
  | .failed session => inferInstanceAs (Decidable (statusOf s session.id ≠ some .Completed))

/-- The record says the opposite of an answer that was given before. -/
def Answer.Contradicted (s : State) : Answer → Prop
  | .taken session => session.status = .Completed ∧ statusOf s session.id = some .Aborted
  | .failed session => statusOf s session.id = some .Completed

/-! ## The end of a completion -/

/-- The last statement of a completion finds its session open, or closed the way it is going to
close it itself; a failure may also find none. -/
def undisturbed (w : Server) : Move → Bool
  | .resume i _ =>
      match w.tasks[i]? with
      | some (.uploadChunk (.completing session point)) =>
          match point with
          | .markHeld | .markCompleted => statusOf w.shared session.id == some .Pending ||
              statusOf w.shared session.id == some .Completed
          | .abortRefused | .abortFailed _ => statusOf w.shared session.id != some .Completed
          | _ => true
      | _ => true
  | _ => true

/-- The step deletes a blob's row, if nothing references it any more. -/
def collecting (w : Server) : Move → Bool
  | .resume i _ =>
      match w.tasks[i]? with
      | some (.collectBlobs (.deleteIfUnreferenced _ _ _)) => true
      | _ => false
  | _ => false

theorem statusOf_close (s : State) (id : Uuid) (status : UploadSessionStatus) :
    statusOf (s.closeSession id status).2 id
      = if statusOf s id = some .Pending then some status else statusOf s id := by
  obtain e | ⟨row, hr, hp, e⟩ := s.closeSession_cases id status
  · rw [e]
    have hopen : statusOf s id ≠ some .Pending := by
      intro h
      unfold State.closeSession at e
      obtain ⟨row, hr, hp⟩ := Option.map_eq_some_iff.mp h
      rw [hr] at e
      simp [hp] at e
    rw [if_neg hopen]
  · have hopen : statusOf s id = some .Pending := by simp [statusOf, hr, hp]
    rw [e, if_pos hopen, statusOf]
    show ((s.sessions.modify id _).find? id).map _ = _
    rw [Table.find?_modify_self, hr]
    rfl

/-- The session is stored as closed in this way, or not at all. -/
def ClosedAs (s : State) (id : Uuid) (status : UploadSessionStatus) : Prop :=
  ∀ row, s.sessions.find? id = some row → row.status = status

theorem ClosedAs.statusOf_ne {s : State} {id : Uuid} {status status' : UploadSessionStatus}
    (h : ClosedAs s id status) (hne : status ≠ status') : statusOf s id ≠ some status' := by
  intro hs
  obtain ⟨row, hr, he⟩ := Option.map_eq_some_iff.mp hs
  exact hne ((h row hr).symm.trans he)

theorem closedAs_of_statusOf {s : State} {id : Uuid} {status : UploadSessionStatus}
    (h : ∀ status', statusOf s id = some status' → status' = status) : ClosedAs s id status :=
  fun row hr => h row.status (by rw [statusOf, hr]; rfl)

/-- A closed session stays as it was closed. -/
theorem ClosedAs.evolves {s s' : State} {id : Uuid} {status : UploadSessionStatus}
    (h : ClosedAs s id status) (hstatus : status ≠ .Pending) (hid : id ∈ s.issued)
    (hev : Reservation.Evolves s s') : ClosedAs s' id status := by
  intro row' hr'
  obtain ⟨row, hr, hlater⟩ := hev.sessions id hid row' hr'
  have hclosed := h row hr
  rw [hlater.closed (by rw [hclosed]; exact hstatus), hclosed]

/-! ## What a request knows -/

/-- The points of a completion at which the content is known to be stored. -/
def afterStored : CompletePoint → Bool
  | .discardHeld | .markHeld | .releaseLost | .markCompleted => true
  | _ => false

/-- What a request knows of its session: it was open when a range of it was reserved, and at the
points `afterStored` its content has a row. -/
def Knows (s : State) : Task → Prop
  | .uploadChunk (.writeAt _ reserved _ _) => reserved.status = .Pending ∧ reserved.id ∈ s.issued
  | .uploadChunk (.completing session point) => session.id ∈ s.issued ∧
      (afterStored point = true → (s.blobs.find? session.blobSha256).isSome = true)
  | _ => True

/-- Ids stay issued and blobs keep their rows. -/
structure Kept (s s' : State) : Prop where
  issued : ∀ id ∈ s.issued, id ∈ s'.issued
  blobs : ∀ sha256, (s.blobs.find? sha256).isSome = true → (s'.blobs.find? sha256).isSome = true

theorem Knows.kept {s s' : State} {t : Task} (h : Knows s t) (hk : Kept s s') : Knows s' t := by
  cases t with
  | uploadChunk t =>
      cases t with
      | writeAt session reserved offset chunk => exact ⟨h.1, hk.issued _ h.2⟩
      | completing session point => exact ⟨hk.issued _ h.1, fun hp => hk.blobs _ (h.2 hp)⟩
      | _ => trivial
  | _ => trivial

section Step

variable {env : Env} {choice : Choice} {s : State}

theorem recordBlob_isSome (sha256 : Bytes) (size : Nat) (key : Bytes) (userId : Option Uuid)
    {sha256' : Bytes} (h : (s.blobs.find? sha256').isSome = true ∨ sha256' = sha256) :
    ((s.recordBlob sha256 size key userId).2.blobs.find? sha256').isSome = true := by
  obtain ⟨b, hb, e⟩ | ⟨hnone, e⟩ := s.recordBlob_cases sha256 size key userId
  · rw [e]
    rcases h with h | rfl
    · exact h
    · exact Option.isSome_iff_exists.mpr ⟨b, hb⟩
  · rw [e]
    show ((s.blobs.insert _).find? sha256').isSome = true
    by_cases heq : sha256' = sha256
    · rw [heq, Table.find?_insert_self hnone]
      rfl
    · rw [Table.find?_insert_ne heq]
      exact h.resolve_right heq

/-- Only the collector takes rows of blobs away. -/
theorem kept_next {t : Task}
    (hd : ¬ ∃ blob rest report, t = .collectBlobs (.deleteIfUnreferenced blob rest report)) :
    (t.next env).Wp (exec env) choice s (fun s' _ => Kept s s') := by
  have hissued : (t.next env).Wp (exec env) choice s
      (fun s' _ => ∀ id ∈ s.issued, id ∈ s'.issued) :=
    Suspended.wp_of_exec (fun c => exec_issued env choice c s) _
  have hblobs : (t.next env).Wp (exec env) choice s (fun s' _ => ∀ sha256,
      (s.blobs.find? sha256).isSome = true → (s'.blobs.find? sha256).isSome = true) := by
    by_cases hr : ∃ session, t = .uploadChunk (.completing session .recordBlob)
    · obtain ⟨session, rfl⟩ := hr
      intro r s' e sha256 h
      have hs : s' = (s.recordBlob session.blobSha256 session.declaredSizeBytes
        (storageKeyFor session.blobSha256) (some session.userId)).2 := (congrArg Prod.snd e).symm
      rw [hs]
      exact recordBlob_isSome _ _ _ _ (Or.inl h)
    · refine (Task.next_blobs env hr hd).wp (fun c k hc r s' e sha256 h => ?_)
      rw [(Frame.of_exec e).blobs hc]
      exact h
  exact (hissued.and hblobs).mono (fun s' _ h => ⟨h.1, h.2⟩)

theorem knows_of_kind {t : Task} (h : t.kind ≠ .uploadChunk) : Knows s t := by
  cases t with
  | uploadChunk t => exact absurd rfl h
  | _ => trivial

/-- A request that goes on knows what its next point asks for. -/
theorem Knows.next (hint : Integrity s) {t : Task} (h : Knows s t) :
    (t.next env).Wp (exec env) choice s (fun s' t' => Knows s' t') := by
  by_cases hk : t.kind = .uploadChunk
  swap
  · exact (t.next_keeps env choice s).mono (fun s' t' h' => knows_of_kind (h'.2 ▸ hk))
  cases t with
  | uploadChunk t =>
      rw [Task.next, Suspended.wp_map]
      cases t with
      | findSession actor id offset chunk =>
          intro r s' e
          obtain ⟨_, ha⟩ | ⟨_, _, _, _, ha⟩ := admitted_cases env actor offset chunk r <;>
            rw [ha] <;> trivial
      | reserveBytes session offset chunk =>
          intro r s' e
          have hreply : s.reserveBytes session.id offset chunk.length = (r, s') := e
          obtain he | ⟨row, hr, hp, _, _, _, he⟩ :=
            s.reserveBytes_cases session.id offset chunk.length
          · rw [he] at hreply
            cases hreply
            trivial
          · rw [he] at hreply
            cases hreply
            refine ⟨hp, ?_⟩
            show row.id ∈ s.issued
            rw [show row.id = session.id from Table.key_of_find? hr]
            exact Reservation.issued_of_find? hint hr
      | writeAt session reserved offset chunk =>
          intro r s' e
          have hissued : s'.issued = s.issued := (Frame.of_exec e).issued rfl
          obtain ⟨_, _, hw⟩ | ⟨_, _, hw⟩ | ⟨_, _, hw⟩ := written_cases session reserved r
          · rw [hw]
            trivial
          · rw [hw]
            exact ⟨by rw [hissued]; exact h.2, fun hp => (by cases hp)⟩
          · rw [hw]
            trivial
      | completing session point =>
          obtain ⟨hid, hstored⟩ := h
          cases point with
          | findBySha256 =>
              intro r s' e
              cases e
              cases hb : s.blobs.find? session.blobSha256 with
              | none => exact ⟨hid, fun hp => (by cases hp)⟩
              | some b => exact ⟨hid, fun _ => by rw [hb]; rfl⟩
          | discardHeld =>
              intro r s' e
              cases e
              exact ⟨hid, fun _ => hstored rfl⟩
          | chargeUpload =>
              intro r s' e
              have hissued : s'.issued = s.issued := (Frame.of_exec e).issued rfl
              cases r <;> exact ⟨by rw [hissued]; exact hid, fun hp => (by cases hp)⟩
          | discardRefused =>
              intro r s' e
              cases e
              exact ⟨hid, fun hp => (by cases hp)⟩
          | commit =>
              intro r s' e
              have hissued : s'.issued = s.issued := (Frame.of_exec e).issued rfl
              cases r <;> exact ⟨by rw [hissued]; exact hid, fun hp => (by cases hp)⟩
          | releaseFailed error =>
              intro r s' e
              cases e
              exact ⟨hid, fun hp => (by cases hp)⟩
          | recordBlob =>
              intro r s' e
              have hs : s' = (s.recordBlob session.blobSha256 session.declaredSizeBytes
                  (storageKeyFor session.blobSha256) (some session.userId)).2 :=
                (congrArg Prod.snd e).symm
              have hissued : s'.issued = s.issued := (Frame.of_exec e).issued rfl
              have hrow : (s'.blobs.find? session.blobSha256).isSome = true := by
                rw [hs]
                exact recordBlob_isSome _ _ _ _ (Or.inr rfl)
              cases r <;> exact ⟨by rw [hissued]; exact hid, fun _ => hrow⟩
          | releaseLost =>
              intro r s' e
              cases e
              exact ⟨hid, fun _ => hstored rfl⟩
          | _ => intro r s' e; trivial
      | _ => first | trivial | (intro r s' e; trivial)
  | _ => cases hk

/-- The consequences of an answer for the record from then on. -/
def Answer.Recorded (s : State) : Answer → Prop
  | .taken session => session.status = .Completed →
      session.id ∈ s.issued ∧ ClosedAs s session.id .Completed
  | .failed session => session.id ∈ s.issued ∧ ClosedAs s session.id .Aborted

theorem Answer.Recorded.evolves {s' : State} {a : Answer} (h : a.Recorded s)
    (hev : Reservation.Evolves s s') : a.Recorded s' := by
  cases a with
  | taken session =>
      intro hc
      obtain ⟨hid, hclosed⟩ := h hc
      exact ⟨hev.issued _ hid, hclosed.evolves (by simp) hid hev⟩
  | failed session =>
      exact ⟨hev.issued _ h.1, h.2.evolves (by simp) h.1 hev⟩

theorem Answer.Recorded.not_contradicted {a : Answer} (h : a.Recorded s) : ¬a.Contradicted s := by
  cases a with
  | taken session => exact fun hc => (h hc.1).2.statusOf_ne (by simp) hc.2
  | failed session => exact fun hc => h.2.statusOf_ne (by simp) hc

/-- A completion that ends in the state finds its session as `undisturbed` says. -/
def Finds (s : State) (session : UploadSession) (point : CompletePoint) : Prop :=
  match point with
  | .markHeld | .markCompleted => statusOf s session.id = some .Pending ∨
      statusOf s session.id = some .Completed
  | .abortRefused | .abortFailed _ => statusOf s session.id ≠ some .Completed
  | _ => True

theorem undisturbed_iff {w : Server} {i : Nat} {session : UploadSession} {point : CompletePoint}
    (hi : w.tasks[i]? = some (.uploadChunk (.completing session point))) :
    undisturbed w (.resume i choice) = true ↔ Finds w.shared session point := by
  cases point <;> simp [undisturbed, hi, Finds]

/-- A session closed by the last statement of a successful completion. -/
theorem closed_completed {session : UploadSession}
    (h : statusOf s session.id = some .Pending ∨ statusOf s session.id = some .Completed) :
    statusOf (s.closeSession session.id .Completed).2 session.id = some .Completed := by
  rw [statusOf_close]
  rcases h with h | h <;> simp [h]

/-- A session after the last statement of a failed completion. -/
theorem closed_aborted {session : UploadSession}
    (h : statusOf s session.id ≠ some .Completed) :
    ClosedAs (s.closeSession session.id .Aborted).2 session.id .Aborted := by
  refine closedAs_of_statusOf (fun status' hs => ?_)
  rw [statusOf_close] at hs
  split_ifs at hs with hopen
  · exact (Option.some.inj hs).symm
  · cases status' with
    | Pending => exact absurd hs hopen
    | Completed => exact absurd hs h
    | Aborted => rfl

/-- **The answer of a step** agrees with the record and is not contradicted by it later. -/
theorem answer_next {t : UploadChunk} (h : Knows s (.uploadChunk t))
    (hfinds : ∀ session point, t = .completing session point → Finds s session point) :
    (t.next env).Wp (exec env) choice s
      (fun s' t' => ∀ a ∈ answerOf t t', a.Agrees s' ∧ a.Recorded s') := by
  cases t with
  | findSession actor id offset chunk =>
      intro r s' e a ha
      obtain ⟨_, hr⟩ | ⟨_, _, _, _, hr⟩ := admitted_cases env actor offset chunk r <;>
        rw [hr] at ha <;> cases ha
  | reserveBytes session offset chunk =>
      intro r s' e a ha
      cases r <;> cases ha
  | writeAt session reserved offset chunk =>
      intro r s' e a ha
      obtain ⟨_, _, hw⟩ | ⟨_, _, hw⟩ | ⟨_, _, hw⟩ := written_cases session reserved r <;>
        rw [hw] at ha
      · cases ha
      · cases ha
      · -- more is to come, and the session was open
        rw [List.mem_singleton.mp ha]
        have hopen : reserved.status ≠ .Completed := by rw [h.1]; simp
        exact ⟨fun hc => absurd hc hopen, fun hc => absurd hc hopen⟩
  | abortUnwritten session error =>
      intro r s' e a ha
      cases ha
  | discardUnwritten session error =>
      intro r s' e a ha
      cases ha
  | answered result => trivial
  | completing session point =>
      obtain ⟨hid, hstored⟩ := h
      have hfinds := hfinds session point rfl
      have hsucceeds : ∀ {s' : State}, s' = (s.closeSession session.id .Completed).2 →
          s'.blobs = s.blobs → s'.issued = s.issued → afterStored point = true →
          (statusOf s session.id = some .Pending ∨ statusOf s session.id = some .Completed) →
          ∀ a ∈ answerOf (.completing session point) (finished session),
            a.Agrees s' ∧ a.Recorded s' := by
        intro s' hs hb hi hp hf a ha
        rw [List.mem_singleton.mp ha]
        have hstatus : statusOf s' session.id = some .Completed := hs ▸ closed_completed hf
        refine ⟨fun _ => ⟨?_, hstatus⟩, fun _ => ⟨?_, ?_⟩⟩
        · rw [hb]
          exact hstored hp
        · rw [hi]
          exact hid
        · exact closedAs_of_statusOf
            (fun status' h' => (Option.some.inj (hstatus.symm.trans h')).symm)
      have hfails : ∀ {s' : State} {error : Error},
          s' = (s.closeSession session.id .Aborted).2 → s'.issued = s.issued →
          statusOf s session.id ≠ some .Completed →
          ∀ a ∈ answerOf (.completing session point) (.answered (.error error)),
            a.Agrees s' ∧ a.Recorded s' := by
        intro s' error hs hi hf a ha
        rw [List.mem_singleton.mp ha]
        have hclosed : ClosedAs s' session.id .Aborted := hs ▸ closed_aborted hf
        exact ⟨hclosed.statusOf_ne (by simp), by rw [hi]; exact hid, hclosed⟩
      cases point with
      | markHeld =>
          intro r s' e
          have hf := Frame.of_exec e
          exact hsucceeds (congrArg Prod.snd e).symm (hf.blobs rfl) (hf.issued rfl) rfl hfinds
      | markCompleted =>
          intro r s' e
          have hf := Frame.of_exec e
          exact hsucceeds (congrArg Prod.snd e).symm (hf.blobs rfl) (hf.issued rfl) rfl hfinds
      | abortRefused =>
          intro r s' e
          exact hfails (congrArg Prod.snd e).symm ((Frame.of_exec e).issued rfl) hfinds
      | abortFailed error =>
          intro r s' e
          exact hfails (congrArg Prod.snd e).symm ((Frame.of_exec e).issued rfl) hfinds
      | findBySha256 => intro r s' e a ha; cases r <;> cases ha
      | chargeUpload => intro r s' e a ha; cases r <;> cases ha
      | commit => intro r s' e a ha; cases r <;> cases ha
      | recordBlob => intro r s' e a ha; cases r <;> cases ha
      | _ => intro r s' e a ha; cases ha

/-- An answer that agrees was given by a completion that found its session undisturbed. -/
theorem finds_next (session : UploadSession) (point : CompletePoint) :
    (UploadChunk.next env (.completing session point)).Wp (exec env) choice s
      (fun s' t' => (∀ a ∈ answerOf (.completing session point) t', a.Agrees s') →
        Finds s session point) := by
  have hsucceeds : ∀ {s' : State}, s' = (s.closeSession session.id .Completed).2 →
      (∀ a ∈ answerOf (.completing session point) (finished session), a.Agrees s') →
      statusOf s session.id = some .Pending ∨ statusOf s session.id = some .Completed := by
    intro s' hs hagrees
    have hstatus := (hagrees _ (List.mem_singleton.mpr rfl) rfl).2
    rw [hs] at hstatus
    change statusOf (s.closeSession session.id .Completed).2 session.id = _ at hstatus
    rw [statusOf_close] at hstatus
    split_ifs at hstatus with hopen
    · exact Or.inl hopen
    · exact Or.inr hstatus
  have hfails : ∀ {s' : State} {error : Error}, s' = (s.closeSession session.id .Aborted).2 →
      (∀ a ∈ answerOf (.completing session point) (.answered (.error error)), a.Agrees s') →
      statusOf s session.id ≠ some .Completed := by
    intro s' error hs hagrees hcompleted
    refine hagrees _ (List.mem_singleton.mpr rfl) ?_
    rw [hs, statusOf_close, hcompleted]
    simp
  cases point with
  | markHeld => intro r s' e h; exact hsucceeds (congrArg Prod.snd e).symm h
  | markCompleted => intro r s' e h; exact hsucceeds (congrArg Prod.snd e).symm h
  | abortRefused => intro r s' e h; exact hfails (congrArg Prod.snd e).symm h
  | abortFailed error => intro r s' e h; exact hfails (congrArg Prod.snd e).symm h
  | _ => intro r s' e h; trivial

end Step

/-! ## Steps -/

theorem answerOf_self (t : UploadChunk) : answerOf t t = [] := by
  cases t <;> rfl

section World

variable {env : Env} {w : Server}

/-- The answer of the step of an upload. -/
theorem answers_resume {i : Nat} {choice : Choice} {t t' : UploadChunk}
    (hi : w.tasks[i]? = some (.uploadChunk t))
    (hi' : ((server env).step w (.resume i choice)).tasks[i]? = some (.uploadChunk t')) :
    answers env w (.resume i choice) = answerOf t t' := by
  simp only [answers, hi, hi']

/-- The task of an upload after its step. -/
theorem upload_resumed {i : Nat} {choice : Choice} {t : UploadChunk}
    {Q : State → UploadChunk → Prop} (hi : w.tasks[i]? = some (.uploadChunk t))
    (h : (t.next env).Wp (exec env) choice w.shared Q) :
    ∃ t', ((server env).step w (.resume i choice)).tasks[i]? = some (.uploadChunk t') ∧
      (t.next env = .done ∧ t' = t ∨ Q ((server env).step w (.resume i choice)).shared t') := by
  by_cases hd : t.next env = .done
  · have hdone : (server env).next (.uploadChunk t) = .done := by
      show (t.next env).map Task.uploadChunk = .done
      rw [hd]
      rfl
    rw [System.step_idle (server env) hi hdone]
    exact ⟨t, hi, Or.inl ⟨hd, rfl⟩⟩
  · have hcall : (server env).next (.uploadChunk t) ≠ .done := by
      intro hdone
      change (t.next env).map Task.uploadChunk = .done at hdone
      cases hn : t.next env with
      | done => exact hd hn
      | call c k =>
          rw [hn] at hdone
          cases hdone
    have hwp : ((server env).next (.uploadChunk t)).Wp (server env).exec choice w.shared
        (fun s' t' => ∃ u, t' = .uploadChunk u ∧ Q s' u) := by
      show ((t.next env).map Task.uploadChunk).Wp (exec env) choice w.shared _
      rw [Suspended.wp_map]
      exact h.mono (fun s' u hq => ⟨u, rfl, hq⟩)
    obtain ⟨t', ht', u, rfl, hq⟩ := System.step_resumed choice hi hcall hwp
    exact ⟨u, ht', Or.inr hq⟩

structure Inv (w : Server) : Prop where
  integrity : Integrity w.shared
  knows : ∀ (j : Nat) t, w.tasks[j]? = some t → Knows w.shared t

theorem collecting_eq_false {i : Nat} {choice : Choice} {t : Task} (hi : w.tasks[i]? = some t)
    (h : collecting w (.resume i choice) = false) :
    ¬ ∃ blob rest report, t = .collectBlobs (.deleteIfUnreferenced blob rest report) := by
  rintro ⟨blob, rest, report, rfl⟩
  simp [collecting, hi] at h

theorem Inv.step (h : Inv w) {l : Move} (hl : collecting w l = false) :
    Inv ((server env).step w l) := by
  have hrun := System.pool_invariant (S := server env) (G := Integrity) (L := Knows)
    (A := fun w l => collecting w l = false) (fun r s _ => ?_)
    (fun w' i choice t hint hknows hi hl' => ?_) (fun e s hs => ⟨hs.outside e, fun t ht => ?_⟩)
    [l] w h.integrity h.knows ⟨hl, trivial⟩
  · exact ⟨hrun.1, hrun.2⟩
  · -- a request begins by looking its session up
    cases r with
    | uploadChunk actor id offset chunk =>
        show Knows s (.uploadChunk (uploadChunk actor id offset chunk))
        unfold uploadChunk
        split_ifs <;> trivial
    | _ => trivial
  · have hint' : (t.next env).Wp (exec env) choice w'.shared (fun s' _ => Integrity s') :=
      Suspended.wp_of_exec (fun c => hint.exec env choice c) _
    have hkept : (t.next env).Wp (exec env) choice w'.shared (fun s' _ => Kept w'.shared s') :=
      kept_next (collecting_eq_false hi hl')
    refine (hint'.and (((hknows i t hi).next hint).and hkept)).mono (fun s' t' hs => ?_)
    obtain ⟨hs, hk, hkept⟩ := hs
    exact ⟨hs, hk, fun j t'' _ hj => (hknows j t'' hj).kept hkept⟩
  · refine ht.kept ⟨fun id hid => ?_, fun sha256 hb => ?_⟩ <;> cases e <;> assumption

/-- **The answers of a step** that finds its session undisturbed. -/
theorem answers_step (h : Inv w) {l : Move} (hl : undisturbed w l = true) :
    ∀ a ∈ answers env w l, a.Agrees ((server env).step w l).shared ∧
      a.Recorded ((server env).step w l).shared := by
  intro a ha
  cases l with
  | request r => cases ha
  | outside e => cases ha
  | resume i choice =>
      cases hi : w.tasks[i]? with
      | none => simp [answers, hi] at ha
      | some t =>
          cases t with
          | uploadChunk t =>
              have hfinds : ∀ session point, t = .completing session point →
                  Finds w.shared session point := by
                rintro session point rfl
                exact (undisturbed_iff hi).mp hl
              obtain ⟨t', hi', ⟨_, hsame⟩ | hanswers⟩ :=
                upload_resumed hi (answer_next (h.knows i _ hi) hfinds)
              · rw [answers_resume hi hi', hsame, answerOf_self] at ha
                cases ha
              · rw [answers_resume hi hi'] at ha
                exact hanswers a ha
          | _ => simp [answers, hi] at ha

/-- A step whose answers agree finds its session undisturbed. -/
theorem undisturbed_of_agrees {l : Move}
    (h : ∀ a ∈ answers env w l, a.Agrees ((server env).step w l).shared) :
    undisturbed w l = true := by
  cases l with
  | request r => rfl
  | outside e => rfl
  | resume i choice =>
      cases hi : w.tasks[i]? with
      | none => simp [undisturbed, hi]
      | some t =>
          cases t with
          | uploadChunk t =>
              cases t with
              | completing session point =>
                  refine (undisturbed_iff hi).mpr ?_
                  obtain ⟨t', hi', ⟨hdone, _⟩ | hfinds⟩ :=
                    upload_resumed hi (@finds_next env choice w.shared session point)
                  · cases point <;> cases hdone
                  · rw [answers_resume hi hi'] at h
                    exact hfinds h
              | _ => simp [undisturbed, hi]
          | _ => simp [undisturbed, hi]

end World

/-! ## Requests that do not overlap -/

/-- The task is completing the session. -/
def completes (id : Uuid) : Task → Bool
  | .uploadChunk (.completing session _) => session.id == id
  | _ => false

/-- The next statement of the completion closes the session. -/
def lastStatement : CompletePoint → Bool
  | .markHeld | .abortRefused | .abortFailed _ | .markCompleted => true
  | _ => false

/-- The next statement of the task closes the session or deletes it. -/
def closes (s : State) (u : UploadSessionRow) : Task → Bool
  | .uploadChunk (.abortUnwritten session _) => session.id == u.id
  | .uploadChunk (.completing session point) => session.id == u.id && lastStatement point
  | .abortUpload (.markAborted session) => session.id == u.id
  | .sweepSessions (.deleteSession session _ _) => session.id == u.id
  | t => Staging.cascades s u t

/-- No other task than task `i` is completing the session. -/
def nobodyElse (w : Server) (i : Nat) (id : Uuid) : Bool :=
  (w.tasks.eraseIdx i).all (fun t => !completes id t)

/-- Nobody closes a session that somebody else is completing, and a completion begins on an open
session that nobody is completing. -/
def separate (w : Server) : Move → Bool
  | .resume i _ =>
      match w.tasks[i]? with
      | none => true
      | some t =>
          w.shared.sessions.rows.all (fun u => !closes w.shared u t || nobodyElse w i u.id) &&
            match t with
            | .uploadChunk (.writeAt _ reserved _ _) => !reserved.complete ||
                (statusOf w.shared reserved.id == some .Pending && nobodyElse w i reserved.id)
            | _ => true
  | _ => true

theorem nobodyElse_iff {w : Server} {i : Nat} {id : Uuid} :
    nobodyElse w i id = true ↔
      ∀ (j : Nat) t, j ≠ i → w.tasks[j]? = some t → completes id t = false := by
  simp only [nobodyElse, List.all_eq_true, Bool.not_eq_true']
  constructor
  · intro h j t hne hj
    exact h t (List.mem_eraseIdx_iff_getElem?.mpr ⟨j, hne, hj⟩)
  · intro h t ht
    obtain ⟨j, hne, hj⟩ := List.mem_eraseIdx_iff_getElem?.mp ht
    exact h j t hne hj

theorem statusOf_eq_pending {s : State} {id : Uuid} :
    statusOf s id = some .Pending ↔ Staging.Pending s id := by
  rw [statusOf, Option.map_eq_some_iff]
  rfl

section Apart

variable {env : Env} {choice : Choice} {s : State}

/-- A call that writes no session leaves the open ones open. -/
theorem open_of_frame {α : Type} {c : Call α} {r : α} {s' : State} {id : Uuid}
    (e : exec env choice c s = (r, s')) (hw : c.writesSessions = false)
    (h : Staging.Pending s id) : Staging.Pending s' id :=
  Staging.pending_of_sessions ((Frame.of_exec e).sessions hw) h

/-- What a task has to close to end a session. -/
theorem open_next (t : Task) : (t.next env).Wp (exec env) choice s (fun s' _ => ∀ id,
    Staging.Pending s id → (∀ row, s.sessions.find? id = some row → closes s row t = false) →
      Staging.Pending s' id) := by
  have hclose : ∀ {k id : Uuid} {status : UploadSessionStatus} {s' : State},
      s' = (s.closeSession k status).2 → Staging.Pending s id →
      (∀ row, s.sessions.find? id = some row → (k == row.id) = false) → Staging.Pending s' id := by
    intro k id status s' hs hp hne
    obtain ⟨row, hr, hopen⟩ := hp
    have hid : row.id = id := Table.key_of_find? hr
    have hk : (k == id) = false := hid ▸ hne row hr
    rw [hs]
    exact Staging.pending_close ⟨row, hr, hopen⟩ (fun he => by simp [he] at hk)
  cases t with
  | uploadChunk t =>
      rw [Task.next, Suspended.wp_map]
      cases t with
      | answered result => trivial
      | reserveBytes session offset chunk =>
          intro r s' e id hp _
          have hs : s' = (s.reserveBytes session.id offset chunk.length).2 :=
            (congrArg Prod.snd e).symm
          rw [hs]
          exact Staging.pending_reserve hp
      | abortUnwritten session error =>
          intro r s' e id hp hne
          exact hclose (congrArg Prod.snd e).symm hp hne
      | completing session point =>
          cases point with
          | markHeld =>
              intro r s' e id hp hne
              exact hclose (congrArg Prod.snd e).symm hp
                (fun row hr => by simpa [closes, lastStatement] using hne row hr)
          | markCompleted =>
              intro r s' e id hp hne
              exact hclose (congrArg Prod.snd e).symm hp
                (fun row hr => by simpa [closes, lastStatement] using hne row hr)
          | abortRefused =>
              intro r s' e id hp hne
              exact hclose (congrArg Prod.snd e).symm hp
                (fun row hr => by simpa [closes, lastStatement] using hne row hr)
          | abortFailed error =>
              intro r s' e id hp hne
              exact hclose (congrArg Prod.snd e).symm hp
                (fun row hr => by simpa [closes, lastStatement] using hne row hr)
          | _ => intro r s' e id hp _; exact open_of_frame e rfl hp
      | _ => intro r s' e id hp _; exact open_of_frame e rfl hp
  | abortUpload t =>
      rw [Task.next, Suspended.wp_map]
      cases t with
      | answered result => trivial
      | markAborted session =>
          intro r s' e id hp hne
          exact hclose (congrArg Prod.snd e).symm hp hne
      | _ => intro r s' e id hp _; exact open_of_frame e rfl hp
  | sweepSessions t =>
      rw [Task.next, Suspended.wp_map]
      cases t with
      | finished reclaimed => trivial
      | deleteSession session rest reclaimed =>
          intro r s' e id hp hne
          refine Staging.pending_delete hp (congrArg (fun p => p.2.sessions) e).symm
            (fun row hr => ?_)
          have hkept : (session.id == row.id) = false := hne row hr
          rw [decide_eq_false_iff_not]
          exact fun he => by simp [he] at hkept
      | _ => intro r s' e id hp _; exact open_of_frame e rfl hp
  | collectBlobs t =>
      refine (Task.next_keeps env choice s _).mono (fun s' t' h id hp _ => ?_)
      exact Staging.pending_of_sessions (h.1.sessions rfl) hp
  | _ =>
      refine (Staging.rows_kept rfl).mono (fun s' _ h id hp hne => h id hp ?_)
      rintro ⟨row, hr, hdoomed⟩
      exact absurd (hdoomed.symm.trans (hne row hr)) (by simp)

/-- A task that is completing a session was completing it before, or has written its last
chunk. -/
theorem completing_next (t : Task) : (t.next env).Wp (exec env) choice s (fun _ t' =>
    ∀ session point, t' = .uploadChunk (.completing session point) →
      (∃ point', t = .uploadChunk (.completing session point') ∧ lastStatement point' = false) ∨
      ∃ session' offset chunk, t = .uploadChunk (.writeAt session' session offset chunk) ∧
        session.complete = true) := by
  by_cases hk : t.kind = .uploadChunk
  swap
  · refine (t.next_keeps env choice s).mono (fun s' t' h session point ht => ?_)
    rw [ht] at h
    exact absurd h.2.symm hk
  cases t with
  | uploadChunk t =>
      rw [Task.next, Suspended.wp_map]
      cases t with
      | answered result => trivial
      | findSession actor id offset chunk =>
          intro r s' _ session point ht
          obtain ⟨_, hr⟩ | ⟨_, _, _, _, hr⟩ := admitted_cases env actor offset chunk r <;>
            rw [hr] at ht <;> cases ht
      | reserveBytes session offset chunk =>
          intro r s' _ session point ht
          cases r <;> cases ht
      | writeAt session' reserved offset chunk =>
          intro r s' _ session point ht
          obtain ⟨_, _, hw⟩ | ⟨_, hc, hw⟩ | ⟨_, _, hw⟩ := written_cases session' reserved r <;>
            rw [hw] at ht <;> cases ht
          exact Or.inr ⟨session', offset, chunk, rfl, hc⟩
      | completing session' point' =>
          cases point' with
          | findBySha256 =>
              intro r s' _ session point ht
              cases r <;> cases ht <;> exact Or.inl ⟨_, rfl, rfl⟩
          | chargeUpload =>
              intro r s' _ session point ht
              cases r <;> cases ht <;> exact Or.inl ⟨_, rfl, rfl⟩
          | commit =>
              intro r s' _ session point ht
              cases r <;> cases ht <;> exact Or.inl ⟨_, rfl, rfl⟩
          | recordBlob =>
              intro r s' _ session point ht
              cases r <;> cases ht <;> exact Or.inl ⟨_, rfl, rfl⟩
          | discardHeld => intro r s' _ session point ht; cases ht; exact Or.inl ⟨_, rfl, rfl⟩
          | discardRefused => intro r s' _ session point ht; cases ht; exact Or.inl ⟨_, rfl, rfl⟩
          | releaseFailed e => intro r s' _ session point ht; cases ht; exact Or.inl ⟨_, rfl, rfl⟩
          | releaseLost => intro r s' _ session point ht; cases ht; exact Or.inl ⟨_, rfl, rfl⟩
          | _ => intro r s' _ session point ht; cases ht
      | _ => intro r s' _ session point ht; cases ht
  | _ => cases hk

/-- Whoever completes a session is the only one, and the session is open. -/
def Exclusive (w : Server) : Prop :=
  ∀ (i : Nat) session point, w.tasks[i]? = some (.uploadChunk (.completing session point)) →
    Staging.Pending w.shared session.id ∧
      ∀ (j : Nat) t, j ≠ i → w.tasks[j]? = some t → completes session.id t = false

theorem completes_iff {id : Uuid} {t : Task} : completes id t = true ↔
    ∃ session point, t = .uploadChunk (.completing session point) ∧ session.id = id := by
  constructor
  · intro h
    cases t with
    | uploadChunk t =>
        cases t with
        | completing session point => exact ⟨session, point, rfl, by simpa [completes] using h⟩
        | _ => cases h
    | _ => cases h
  · rintro ⟨session, point, rfl, rfl⟩
    simp [completes]

theorem Exclusive.step {w : Server} (h : Exclusive w) {l : Move} (hl : separate w l = true) :
    Exclusive ((server env).step w l) := by
  refine System.step_induction (P := Exclusive) (fun r _ => ?_) (fun i choice t hlab hi => ?_) h
    (fun e _ => ?_)
  · -- a new request is not completing anything
    have hnew : ∀ session point, (server env).entry r ≠ .uploadChunk (.completing session point) :=
      fun session point => entry_ne_completing r session point
    intro i session point hi
    rcases System.mem_append_cases hi with hi | ⟨_, hr⟩
    · refine ⟨(h i session point hi).1, fun j t hne hj => ?_⟩
      rcases System.mem_append_cases hj with hj | ⟨_, rfl⟩
      · exact (h i session point hi).2 j t hne hj
      · by_contra hc
        obtain ⟨session', point', he, _⟩ := completes_iff.mp (by simpa using hc)
        exact hnew session' point' he
    · exact absurd hr.symm (hnew session point)
  · subst hlab
    simp only [separate, hi, Bool.and_eq_true, List.all_eq_true, Bool.or_eq_true,
      Bool.not_eq_true', nobodyElse_iff] at hl
    obtain ⟨hcloses, hbegins⟩ := hl
    refine ((open_next t).and (completing_next t)).mono (fun s' t' hs => ?_)
    obtain ⟨hopen, hcompleting⟩ := hs
    -- a task that begins to complete a session does so alone
    have hbegin : ∀ session point, t' = .uploadChunk (.completing session point) →
        Staging.Pending w.shared session.id ∧
          ∀ (k : Nat) u, k ≠ i → w.tasks[k]? = some u → completes session.id u = false := by
      intro session point ht'
      rcases hcompleting session point ht' with ⟨p, rfl, _⟩ | ⟨session', offset, chunk, rfl, hc⟩
      · exact h i session p hi
      · simp only [hc, Bool.not_true, Bool.false_or, Bool.and_eq_true, beq_iff_eq,
          statusOf_eq_pending, nobodyElse_iff] at hbegins
        exact hbegins
    have hstays : ∀ (j : Nat) session point, j ≠ i →
        w.tasks[j]? = some (.uploadChunk (.completing session point)) →
        Staging.Pending s' session.id := by
      intro j session point hne hj
      refine hopen session.id (h j session point hj).1 (fun row hr => ?_)
      have hid : row.id = session.id := Table.key_of_find? hr
      refine (hcloses row (Table.mem_of_find? hr)).resolve_right (fun hnobody => ?_)
      have hno := hnobody j _ hne hj
      simp [completes, hid] at hno
    intro j session point hj
    rcases System.mem_set_cases hj with ⟨rfl, ht'⟩ | ⟨hne, hj'⟩
    · obtain ⟨hpending, hothers⟩ := hbegin session point ht'.symm
      refine ⟨hopen session.id hpending (fun row hr => ?_), fun k u hk hk' => ?_⟩
      · rcases hcompleting session point ht'.symm with ⟨p, rfl, hp⟩ | ⟨_, _, _, rfl, _⟩
        · simp [closes, hp]
        · rfl
      · rcases System.mem_set_cases hk' with ⟨hkj, _⟩ | ⟨_, hk''⟩
        · exact absurd hkj hk
        · exact hothers k u hk hk''
    · refine ⟨hstays j session point hne hj', fun k u hk hk' => ?_⟩
      rcases System.mem_set_cases hk' with ⟨rfl, rfl⟩ | ⟨_, hk''⟩
      · by_contra hc
        obtain ⟨session', point', ht', hid⟩ := completes_iff.mp (by simpa using hc)
        have hno := (hbegin session' point' ht').2 j _ hne hj'
        simp [completes, hid] at hno
      · exact (h j session point hj').2 k u hk hk''
  · intro i session point hi
    obtain ⟨hopen, hothers⟩ := h i session point hi
    refine ⟨?_, hothers⟩
    cases e <;> exact hopen

theorem Exclusive.undisturbed {w : Server} (h : Exclusive w) (l : Move) :
    Answers.undisturbed w l = true := by
  cases l with
  | request r => rfl
  | outside e => rfl
  | resume i choice =>
      cases hi : w.tasks[i]? with
      | none => simp [Answers.undisturbed, hi]
      | some t =>
          cases t with
          | uploadChunk t =>
              cases t with
              | completing session point =>
                  have hopen := statusOf_eq_pending.mpr (h i session point hi).1
                  cases point <;> simp [Answers.undisturbed, hi, hopen]
              | _ => simp [Answers.undisturbed, hi]
          | _ => simp [Answers.undisturbed, hi]

end Apart

/-! ## Every run -/

/-- The answers of a run agree with the record: each one when it is given, and none of them is
contradicted in a later state. -/
structure AlwaysAgree (env : Env) (w : Server) (ls : List Move) : Prop where
  given : ∀ pre l post, ls = pre ++ l :: post → ∀ a ∈ answers env ((server env).run w pre) l,
    a.Agrees ((server env).run w (pre ++ [l])).shared
  later : ∀ pre post, ls = pre ++ post → ∀ a ∈ (server env).collect (answers env) w pre,
    ¬a.Contradicted ((server env).run w pre).shared

section Runs

variable {env : Env} {w : Server}

theorem inv_run (h : Inv w) {ls : List Move}
    (hok : (server env).Along (fun w l => collecting w l = false) w ls) :
    Inv ((server env).run w ls) :=
  System.run_invariant (I := Inv) (fun _ _ h hl => h.step hl) ls w h hok

theorem recorded_run (h : Inv w) {ls : List Move}
    (hok : (server env).Along (fun w l => collecting w l = false ∧ undisturbed w l = true) w ls) :
    ∀ a ∈ (server env).collect (answers env) w ls, a.Recorded ((server env).run w ls).shared := by
  have hrun := System.history_invariant (S := server env) (f := answers env)
    (I := fun w h => Inv w ∧ ∀ a ∈ h, a.Recorded w.shared) (fun w' h l hw hl => ?_) ls w []
    ⟨h, fun a ha => by cases ha⟩ hok
  · exact hrun.2
  · obtain ⟨hinv, hrecorded⟩ := hw
    have hev : Reservation.Evolves w'.shared ((server env).step w' l).shared :=
      Reservation.evolves_run env w' [l]
    refine ⟨hinv.step hl.1, fun a ha => ?_⟩
    rcases List.mem_append.mp ha with ha | ha
    · exact (hrecorded a ha).evolves hev
    · exact (answers_step hinv hl.2 a ha).2

theorem undisturbed_of_given : ∀ (ls : List Move) (w : Server),
    (∀ pre l post, ls = pre ++ l :: post → ∀ a ∈ answers env ((server env).run w pre) l,
      a.Agrees ((server env).run w (pre ++ [l])).shared) →
    (server env).Along (fun w l => undisturbed w l = true) w ls
  | [], _, _ => trivial
  | l :: ls, w, h => by
      refine ⟨undisturbed_of_agrees (h [] l ls rfl), undisturbed_of_given ls _ ?_⟩
      intro pre l' post hls
      exact h (l :: pre) l' post (congrArg (List.cons l) hls)

theorem inv_initial (hw : Initial w) : Inv w := by
  refine ⟨.initial hw, fun j t hj => ?_⟩
  rw [hw.tasks] at hj
  cases hj

theorem exclusive_initial (hw : Initial w) : Exclusive w := by
  intro i session point hi
  rw [hw.tasks] at hi
  cases hi

end Runs

/-- **Answers and records.** In a run in which no blob is collected, the answers agree with the
record if and only if the last statement of every completion finds its session undisturbed; and
it does if requests do not overlap on a session. -/
theorem answers_agree (env : Env) (w : Server) (hw : Initial w) (ls : List Move)
    (hblobs : (server env).Along (fun w l => collecting w l = false) w ls) :
    (AlwaysAgree env w ls ↔ (server env).Along (fun w l => undisturbed w l = true) w ls) ∧
      ((server env).Along (fun w l => separate w l = true) w ls →
        (server env).Along (fun w l => undisturbed w l = true) w ls) := by
  refine ⟨⟨fun h => undisturbed_of_given ls w h.given, fun hok => ⟨?_, ?_⟩⟩, fun hsep => ?_⟩
  · intro pre l post hls a ha
    subst hls
    have hinv := inv_run (inv_initial hw) (System.along_append.mp hblobs).1
    rw [System.run_append]
    exact (answers_step hinv (System.along_append.mp hok).2.1 a ha).1
  · intro pre post hls a ha
    subst hls
    refine (recorded_run (inv_initial hw) ?_ a ha).not_contradicted
    exact (System.along_append.mp hblobs).1.and (System.along_append.mp hok).1
  · exact System.Along.of_invariant (I := Exclusive) (fun _ _ h hl => h.step hl)
      (fun _ l h _ => h.undisturbed l) (exclusive_initial hw) hsep

namespace Demo

open Launcher.Demo (alice shaA contentA buildCreated sessionOpened chunkSent go)

/-- Tasks 0 to 2: alice opens session 20 for `contentA` and sends it, and the server has stored it
and recorded its row. -/
def recorded : List Move :=
  buildCreated ++ sessionOpened 1 alice shaA 1 20 ++ chunkSent alice 20 0 contentA :: go 2 7

/-- Task 3: alice aborts the upload before task 2 marks the session. -/
def abortedMeanwhile : List Move :=
  recorded ++ .request (.abortUpload alice (uuidText 20)) :: go 3 3

/-- Tasks 2 and 3: the content and an empty chunk at its end, each of which completes the session;
task 2 has answered, and task 3 is about to. -/
def completedTwice : List Move :=
  buildCreated ++ sessionOpened 1 alice shaA 1 20 ++ chunkSent alice 20 0 contentA :: go 2 3 ++
    chunkSent alice 20 1 [] :: go 3 5 ++ go 2 5 ++ go 3 2

end Demo

/-- An upload that nobody disturbs, on the demo deployment. -/
theorem answers_agree_stored :
    AlwaysAgree Launcher.Demo.env Launcher.Demo.start Launcher.Demo.stored :=
  ((answers_agree Launcher.Demo.env Launcher.Demo.start Launcher.Demo.initial_start
    Launcher.Demo.stored (by decide +kernel)).1).mpr (by decide +kernel)

/-- An upload that is answered to be completed, and stored as aborted; and an upload that is
stored as completed, and whose completion answered with an error. -/
theorem answers_disagree :
    Initial Launcher.Demo.start ∧ ∀ ls ∈ [Demo.abortedMeanwhile ++ Launcher.Demo.go 2 1,
      Demo.completedTwice ++ Launcher.Demo.go 3 1],
      (server Launcher.Demo.env).Along (fun w l => collecting w l = false) Launcher.Demo.start ls ∧
        ¬AlwaysAgree Launcher.Demo.env Launcher.Demo.start ls := by
  have hfirst : ¬∀ a ∈ answers Launcher.Demo.env
      ((server Launcher.Demo.env).run Launcher.Demo.start Demo.abortedMeanwhile)
        (.resume 2 ⟨0, .none⟩),
      a.Agrees ((server Launcher.Demo.env).run Launcher.Demo.start
        (Demo.abortedMeanwhile ++ Launcher.Demo.go 2 1)).shared := by
    decide +kernel
  have hsecond : ¬∀ a ∈ answers Launcher.Demo.env
      ((server Launcher.Demo.env).run Launcher.Demo.start Demo.completedTwice)
        (.resume 3 ⟨0, .none⟩),
      a.Agrees ((server Launcher.Demo.env).run Launcher.Demo.start
        (Demo.completedTwice ++ Launcher.Demo.go 3 1)).shared := by
    decide +kernel
  refine ⟨Launcher.Demo.initial_start, fun ls hls => ⟨?_, fun h => ?_⟩⟩
  · revert ls
    decide +kernel
  · rcases List.mem_cons.mp hls with rfl | hls
    · exact hfirst (h.given Demo.abortedMeanwhile _ [] rfl)
    · rw [List.mem_singleton.mp hls] at h
      exact hsecond (h.given Demo.completedTwice _ [] rfl)

end Launcher.Answers
