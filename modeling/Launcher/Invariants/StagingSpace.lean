import Launcher.Invariants.Staging

set_option autoImplicit false

/-! # How much staging space an account takes

`beginUpload` counts the open sessions of the account, and two statements later it inserts the row
of a new one. A session takes a place on the disk for longer than it is counted: its file is
written by the first chunk and stays until somebody removes it, which may be long after the session
has expired, or never, if a deletion of the build took its row. `places` lists the sessions of an
account that have a staging file or can still get one, and `staging_bounded` proves that an account
never has more staging files than it may have open sessions in a run in which every new session
finds a free place. `overfull` has four ways to come by one more.

Rows vanish, so the account of a session is read off the history: `opened` collects the
sessions that the steps of a run open. -/

namespace Launcher.StagingSpace

open Launcher.Lib

/-! ## Places -/

/-- The sessions of `s'` that `s` does not have, each with its account. -/
def newSessions (s s' : State) : List (Uuid × Uuid) :=
  (s'.sessions.rows.filter (fun u => (s.sessions.find? u.id).isNone)).map
    (fun u => (u.id, u.userId))

/-- The sessions a step opens. -/
def opened (env : Env) (w : Server) (l : Move) : List (Uuid × Uuid) :=
  newSessions w.shared ((server env).step w l).shared

/-- A chunk may still be admitted to the session. -/
def admits (s : State) (id : Uuid) : Bool :=
  ((s.sessions.find? id).map
    (fun u => u.status == .Pending && decide (s.now < u.expiresAt))).getD false

/-- The session has a staging file, or can still get one. -/
def takesPlace (w : Server) (id : Uuid) : Bool :=
  admits w.shared id || (w.shared.files (stagingPathFor id)).isSome ||
    w.tasks.any (Staging.writes id)

/-- The sessions of the account that take a place. -/
def places (history : List (Uuid × Uuid)) (w : Server) (userId : Uuid) : List (Uuid × Uuid) :=
  history.filter (fun o => o.2 == userId && takesPlace w o.1)

/-- The contents of the account's staging files. -/
def stagingFiles (history : List (Uuid × Uuid)) (s : State) (userId : Uuid) : List Bytes :=
  (history.filter (fun o => o.2 == userId)).filterMap (fun o => s.files (stagingPathFor o.1))

/-- No constraint and no open session stops the insert. -/
def inserts (s : State) (choice : Choice) (session : NewUploadSession) : Bool :=
  (s.builds.find? session.buildId).isSome && (s.users.find? session.userId).isSome &&
    isSha256Hex session.blobSha256 &&
    (s.openSession session.buildId session.blobSha256).isNone && !s.issued.contains choice.uuid

/-- A new session finds a free place: the account has fewer sessions that take one than it may
have open sessions. -/
def findsPlace (env : Env) (history : List (Uuid × Uuid)) (w : Server) : Move → Bool
  | .resume i choice =>
      match w.tasks[i]? with
      | some (.beginUpload (.insertSession _ request)) => !inserts w.shared choice request ||
          decide ((places history w request.userId).length <
            env.uploads.maxOpenSessionsPerUser.toNat)
      | _ => true
  | _ => true

/-! ## New sessions -/

/-- The task is about to insert a session. -/
def isInsert : Task → Bool
  | .beginUpload (.insertSession _ _) => true
  | _ => false

section Opening

variable {env : Env} {choice : Choice} {s s' : State}

theorem mem_newSessions {o : Uuid × Uuid} :
    o ∈ newSessions s s' ↔
      ∃ u ∈ s'.sessions, s.sessions.find? u.id = none ∧ (u.id, u.userId) = o := by
  simp only [newSessions, List.mem_map, List.mem_filter, Option.isNone_iff_eq_none, and_assoc]
  rfl

/-- Every session of `s'` is a later version of one of `s`. -/
def OnlyOld (s s' : State) : Prop :=
  ∀ u ∈ s'.sessions, ∃ row, s.sessions.find? u.id = some row ∧ Reservation.Later row u

theorem OnlyOld.newSessions (h : OnlyOld s s') : newSessions s s' = [] := by
  refine List.eq_nil_iff_forall_not_mem.mpr (fun o ho => ?_)
  obtain ⟨u, hu, hnone, _⟩ := mem_newSessions.mp ho
  obtain ⟨row, hr, _⟩ := h u hu
  rw [hnone] at hr
  cases hr

theorem onlyOld_of_sessions (h : s'.sessions = s.sessions) : OnlyOld s s' := by
  intro u hu
  rw [h] at hu
  exact ⟨u, Table.find?_of_mem hu, Reservation.Later.refl u⟩

/-- A call that draws no id opens no session, and neither does one that leaves them alone. -/
theorem onlyOld_exec {α : Type} {c : Call α} (hint : Integrity s)
    (hc : c.issues = false ∨ c.writesSessions = false) : OnlyOld s (exec env choice c s).2 := by
  have hf := exec_frame env choice c s
  rcases hc with hc | hc
  · intro u hu
    have hid : u.id ∈ s.issued := by
      rw [← hf.issued hc]
      exact (hint.exec env choice c).issuedSessions u hu
    exact (Reservation.evolves_exec env choice c s).sessions u.id hid u (Table.find?_of_mem hu)
  · exact onlyOld_of_sessions (hf.sessions hc)

/-- Only the insert of `beginUpload` both draws an id and writes sessions. -/
theorem next_opens {t : Task} (h : isInsert t = false) :
    (t.next env).All (fun c _ => c.issues = false ∨ c.writesSessions = false) := by
  by_cases hk : t.kind = .beginUpload
  · cases t with
    | beginUpload t =>
        rw [Task.next, Suspended.all_map]
        cases t with
        | insertSession actor request => cases h
        | answered result => trivial
        | threw error => trivial
        | _ => exact Or.inl rfl
    | _ => cases hk
  · refine (t.next_permits env).mono (fun c _ hc => ?_)
    by_contra hno
    push Not at hno
    have hissues : t.kind.issues = true := hc.1.issues (by simpa using hno.1)
    have hsessions : t.kind.writesSessions = true := hc.1.sessions (by simpa using hno.2)
    revert hk hissues hsessions
    cases t.kind <;> simp [Kind.issues, Kind.writesSessions]

theorem onlyOld_next {t : Task} (hint : Integrity s) (h : isInsert t = false) :
    (t.next env).Wp (exec env) choice s (fun s' _ => OnlyOld s s') := by
  refine (next_opens h).wp (fun c _ hc r s' e => ?_)
  have hold : OnlyOld s (exec env choice c s).2 := onlyOld_exec hint hc
  rw [e] at hold
  exact hold

theorem insertSession_of_inserts {request : NewUploadSession}
    (h : inserts s choice request = true) :
    choice.uuid ∉ s.issued ∧ (s.insertSession choice request).2 = { s with
      sessions := s.sessions.insert (s.newSessionRow choice.uuid request)
      issued := choice.uuid :: s.issued } := by
  simp only [inserts, Bool.and_eq_true, Option.isNone_iff_eq_none] at h
  obtain ⟨⟨⟨⟨hb, hu⟩, hsha⟩, hopen⟩, hid⟩ := h
  have hid' : choice.uuid ∉ s.issued := by simpa using hid
  refine ⟨hid', ?_⟩
  unfold State.insertSession
  rw [if_neg (by simp [← Option.isSome_iff_ne_none, hb, hu]), if_neg (by simp [hsha])]
  simp only [hopen]
  rw [if_neg (by simpa using hid')]
  rfl

theorem insertSession_of_not_inserts {request : NewUploadSession}
    (h : inserts s choice request = false) : (s.insertSession choice request).2 = s := by
  unfold State.insertSession
  by_cases hfk : ((s.builds.find? request.buildId).isNone ||
      (s.users.find? request.userId).isNone) = true
  · rw [if_pos hfk]
  · rw [if_neg hfk]
    by_cases hsha : isSha256Hex request.blobSha256 = true
    · rw [if_neg (by simp [hsha])]
      cases hopen : s.openSession request.buildId request.blobSha256 with
      | some u => rfl
      | none =>
          have href : (s.builds.find? request.buildId).isSome = true ∧
              (s.users.find? request.userId).isSome = true := by
            simpa [Option.isSome_iff_ne_none] using hfk
          have hid : s.issued.contains choice.uuid = true := by
            simpa [inserts, href.1, href.2, hsha, hopen] using h
          simp only [if_pos hid]
    · rw [if_pos (by simpa using hsha)]

theorem newSessions_insert (hint : Integrity s) {request : NewUploadSession}
    (h : inserts s choice request = true) :
    newSessions s (s.insertSession choice request).2 = [(choice.uuid, request.userId)] := by
  obtain ⟨hid, hs⟩ := insertSession_of_inserts h
  have hnone : s.sessions.find? choice.uuid = none := by
    refine Table.find?_eq_none.mpr (fun u hu hk => hid ?_)
    rw [← hk]
    exact hint.issuedSessions u hu
  have hrows : (s.sessions.insert (s.newSessionRow choice.uuid request)).rows
      = s.newSessionRow choice.uuid request :: s.sessions.rows := by
    unfold Table.insert
    rw [dif_pos (show s.sessions.find? (s.newSessionRow choice.uuid request).id = none from hnone)]
  have hold : s.sessions.rows.filter (fun u => (s.sessions.find? u.id).isNone) = [] := by
    refine List.filter_eq_nil_iff.mpr (fun u hu => ?_)
    rw [Table.find?_of_mem hu]
    simp
  rw [hs, newSessions]
  dsimp only
  rw [hrows, List.filter_cons_of_pos, hold]
  · rfl
  · show (s.sessions.find? choice.uuid).isNone = true
    rw [hnone]
    rfl

end Opening

/-- **Who opens a session**: the insert of `beginUpload`, when nothing stops it. -/
theorem opened_cases (env : Env) (w : Server) (l : Move) (hint : Integrity w.shared) :
    opened env w l = [] ∨
    ∃ i choice actor request, l = .resume i choice ∧
      w.tasks[i]? = some (.beginUpload (.insertSession actor request)) ∧
      inserts w.shared choice request = true ∧
      opened env w l = [(choice.uuid, request.userId)] := by
  refine System.step_induction (S := server env)
    (P := fun w' => newSessions w.shared w'.shared = [] ∨
      ∃ i choice actor request, l = .resume i choice ∧
        w.tasks[i]? = some (.beginUpload (.insertSession actor request)) ∧
        inserts w.shared choice request = true ∧
        newSessions w.shared w'.shared = [(choice.uuid, request.userId)])
    (fun r _ => Or.inl (onlyOld_of_sessions rfl).newSessions) (fun i choice t hl hi => ?_)
    (Or.inl (onlyOld_of_sessions rfl).newSessions) (fun e _ => Or.inl ?_)
  · cases hins : isInsert t with
    | false => exact (onlyOld_next hint hins).mono (fun s' _ h => Or.inl h.newSessions)
    | true =>
        cases t with
        | beginUpload t =>
            cases t with
            | insertSession actor request =>
                intro r s' e
                have hs : s' = (w.shared.insertSession choice request).2 :=
                  (congrArg Prod.snd e).symm
                cases hok : inserts w.shared choice request with
                | false =>
                    left
                    rw [hs, insertSession_of_not_inserts hok]
                    exact (onlyOld_of_sessions rfl).newSessions
                | true =>
                    right
                    refine ⟨i, choice, actor, request, hl, hi, hok, ?_⟩
                    rw [hs]
                    exact newSessions_insert hint hok
            | _ => cases hins
        | _ => cases hins
  · cases e <;> exact (onlyOld_of_sessions rfl).newSessions

/-! ## Staging files -/

/-- The task is about to write into a staging file. -/
def isWrite : Task → Bool
  | .uploadChunk (.writeAt _ _ _ _) => true
  | _ => false

/-- The call writes into a staging file. -/
def writesAt {α : Type} : Call α → Bool
  | .writeAt _ _ _ => true
  | _ => false

section Files

variable {env : Env} {choice : Choice} {s : State}

theorem remove_cases (files : Files) (path p : Path) :
    files.remove path p = none ∨ files.remove path p = files p := by
  by_cases h : p = path
  · left
    rw [h]
    exact Files.remove_self files path
  · right
    exact Files.remove_ne files h

theorem commit_staging (sha256Hex : Bytes → Bytes) (files : Files) (fault : IoFault)
    (staging : Path) (sha256 : Bytes) (id : Uuid) :
    (commit sha256Hex files fault staging sha256).2 (stagingPathFor id) = none ∨
      (commit sha256Hex files fault staging sha256).2 (stagingPathFor id)
        = files (stagingPathFor id) := by
  obtain ⟨_, h, _⟩ | ⟨_, h⟩ | ⟨target, content, ht, _, _, ⟨_, _, h⟩ | ⟨_, h⟩⟩ :=
    commit_cases sha256Hex files fault staging sha256
  · rw [h]
    exact Or.inr rfl
  · rw [h]
    exact remove_cases files staging _
  · rw [h]
    exact remove_cases files staging _
  · rw [h]
    dsimp only
    rw [Files.set_ne _ content (pathFor_ne_staging ht id).symm]
    exact remove_cases files staging _

/-- Whatever does not write leaves a staging file as it is or removes it. -/
theorem staging_exec (env : Env) (choice : Choice) (s : State) {α : Type} {c : Call α}
    (hc : writesAt c = false) (id : Uuid) :
    (exec env choice c s).2.files (stagingPathFor id) = none ∨
      (exec env choice c s).2.files (stagingPathFor id) = s.files (stagingPathFor id) := by
  cases hw : c.writesFiles with
  | false =>
      rw [(exec_frame env choice c s).files hw]
      exact Or.inr rfl
  | true =>
      cases c with
      | writeAt path offset data => cases hc
      | discard path => exact remove_cases s.files path _
      | commit path sha256 => exact commit_staging env.sha256Hex s.files choice.fault path sha256 id
      | _ => cases hw

/-- No other task writes. -/
theorem next_writesAt {t : Task} (h : isWrite t = false) :
    (t.next env).All (fun c _ => writesAt c = false) := by
  cases hk : t.kind.writesFiles with
  | true =>
      cases t with
      | uploadChunk t =>
          rw [Task.next, Suspended.all_map]
          cases t with
          | writeAt session reserved offset chunk => cases h
          | completing session point => cases point <;> rfl
          | answered result => trivial
          | _ => rfl
      | abortUpload t => cases t <;> trivial
      | sweepSessions t => cases t <;> trivial
      | collectBlobs t => cases t <;> trivial
      | _ => cases hk
  | false =>
      refine (t.next_permits env).mono (fun c _ hc => ?_)
      cases c with
      | writeAt path offset data =>
          have hfiles : t.kind.writesFiles = true := hc.1.files rfl
          rw [hk] at hfiles
          cases hfiles
      | _ => rfl

/-- A staging file was there before the step, or the step is the write of a chunk into it. -/
theorem next_file (t : Task) :
    (t.next env).Wp (exec env) choice s (fun s' _ => ∀ id,
      (s'.files (stagingPathFor id)).isSome = true →
        (s.files (stagingPathFor id)).isSome = true ∨ Staging.writes id t = true) := by
  cases hw : isWrite t with
  | false =>
      refine (next_writesAt hw).wp (fun c _ hc r s' e id hfile => Or.inl ?_)
      have hs : s' = (exec env choice c s).2 := (congrArg Prod.snd e).symm
      rcases staging_exec env choice s hc id with hnone | hsame
      · rw [hs, hnone] at hfile
        cases hfile
      · rw [hs, hsame] at hfile
        exact hfile
  | true =>
      cases t with
      | uploadChunk t =>
          cases t with
          | writeAt session reserved offset chunk =>
              intro r s' e id hfile
              by_cases hid : id = session.id
              · right
                simp [Staging.writes, hid]
              · left
                have hne : stagingPathFor id ≠ stagingPathFor session.id :=
                  fun he => hid (stagingPathFor_injective he)
                cases e
                dsimp only at hfile
                rw [writeAt_frame _ _ _ _ _ hne] at hfile
                exact hfile
          | _ => cases hw
      | _ => cases hw

theorem admits_iff {id : Uuid} :
    admits s id = true ↔
      ∃ row, s.sessions.find? id = some row ∧ row.status = .Pending ∧ s.now < row.expiresAt := by
  unfold admits
  cases s.sessions.find? id with
  | none => simp
  | some row => simp

theorem writes_of_kind {t : Task} (h : t.kind ≠ .uploadChunk) (id : Uuid) :
    Staging.writes id t = false := by
  cases t with
  | uploadChunk t => exact absurd rfl h
  | _ => rfl

/-- A chunk is about to be written into a session that it has just been admitted to. -/
theorem next_writes (t : Task) :
    (t.next env).Wp (exec env) choice s
      (fun _ t' => ∀ id, Staging.writes id t' = true → admits s id = true) := by
  by_cases hk : t.kind = .uploadChunk
  · cases t with
    | uploadChunk t =>
        rw [Task.next, Suspended.wp_map]
        cases t with
        | answered result => trivial
        | findSession actor sessionId offset chunk =>
            intro r s' _ id hwr
            obtain ⟨_, ha⟩ | ⟨_, _, _, _, ha⟩ := admitted_cases env actor offset chunk r <;>
              rw [ha] at hwr <;> cases hwr
        | reserveBytes session offset chunk =>
            intro r s' e id hwr
            obtain hc | ⟨row, hr, hp, hnow, _, _, hc⟩ :=
              s.reserveBytes_cases session.id offset chunk.length <;> cases hc.symm.trans e
            · cases hwr
            · have hid : session.id = id := by simpa [Staging.writes] using hwr
              rw [← hid]
              exact admits_iff.mpr ⟨row, hr, hp, hnow⟩
        | writeAt session reserved offset chunk =>
            intro r s' _ id hwr
            obtain ⟨_, _, hw⟩ | ⟨_, _, hw⟩ | ⟨_, _, hw⟩ := written_cases session reserved r <;>
              rw [hw] at hwr <;> cases hwr
        | abortUnwritten session error => exact fun _ _ _ _ hwr => by cases hwr
        | discardUnwritten session error => exact fun _ _ _ _ hwr => by cases hwr
        | completing session point =>
            cases point <;> intro r s' _ id hwr <;> first | cases hwr | (cases r <;> cases hwr)
    | _ => cases hk
  · refine (t.next_keeps env choice s).mono (fun s' t' h id hwr => ?_)
    rw [writes_of_kind (by rw [h.2]; exact hk) id] at hwr
    cases hwr

end Files

theorem entry_not_writing (id : Uuid) (r : Request) : Staging.writes id (entry r) = false := by
  cases r with
  | uploadChunk actor sessionId offset chunk =>
      simp only [entry, uploadChunk]
      split <;> rfl
  | _ => rfl

/-! ## One step -/

theorem takesPlace_iff {w : Server} {id : Uuid} :
    takesPlace w id = true ↔
      admits w.shared id = true ∨ (w.shared.files (stagingPathFor id)).isSome = true ∨
        ∃ t ∈ w.tasks, Staging.writes id t = true := by
  simp only [takesPlace, Bool.or_eq_true, List.any_eq_true, or_assoc]

/-- Nobody starts to admit chunks to a session again. -/
theorem admits_evolves {s s' : State} {id : Uuid} (hev : Reservation.Evolves s s')
    (hid : id ∈ s.issued) (h : admits s' id = true) : admits s id = true := by
  obtain ⟨row', hr', hp', hnow'⟩ := admits_iff.mp h
  obtain ⟨row, hr, hlater⟩ := hev.sessions id hid row' hr'
  refine admits_iff.mpr ⟨row, hr, ?_, ?_⟩
  · by_contra hclosed
    exact hclosed ((hlater.closed hclosed).symm.trans hp')
  · have hexpires : row'.expiresAt = row.expiresAt := hlater.same.2.2.2.2
    have hnow : s.now ≤ s'.now := hev.now
    omega

/-- **Places are only taken by new sessions.** -/
theorem takesPlace_step (env : Env) {w : Server} {l : Move} {id : Uuid}
    (h : takesPlace ((server env).step w l) id = true) :
    takesPlace w id = true ∨
      (id ∉ w.shared.issued ∧ admits ((server env).step w l).shared id = true) := by
  rcases takesPlace_iff.mp h with hadm | hrest
  · by_cases hid : id ∈ w.shared.issued
    · left
      exact takesPlace_iff.mpr
        (Or.inl (admits_evolves (Reservation.evolves_run env w [l]) hid hadm))
    · exact Or.inr ⟨hid, hadm⟩
  · left
    rw [takesPlace_iff]
    revert hrest
    refine System.step_induction (S := server env)
      (P := fun w' => ((w'.shared.files (stagingPathFor id)).isSome = true ∨
          ∃ t ∈ w'.tasks, Staging.writes id t = true) →
        admits w.shared id = true ∨ (w.shared.files (stagingPathFor id)).isSome = true ∨
          ∃ t ∈ w.tasks, Staging.writes id t = true)
      (fun r _ hrest => Or.inr ?_) (fun i choice t _ hi => ?_) Or.inr
      (fun e _ hrest => Or.inr ?_)
    · rcases hrest with hfile | ⟨t, ht, hwr⟩
      · exact Or.inl hfile
      · rcases List.mem_append.mp ht with ht | ht
        · exact Or.inr ⟨t, ht, hwr⟩
        · have hno : Staging.writes id t = false := by
            rw [List.mem_singleton.mp ht]
            exact entry_not_writing id r
          rw [hno] at hwr
          cases hwr
    · refine ((next_file t).and (next_writes t)).mono (fun s' t' hstep hrest => ?_)
      rcases hrest with hfile | ⟨u, hu, hwr⟩
      · exact Or.inr ((hstep.1 id hfile).imp_right
          (fun hwr => ⟨t, List.mem_of_getElem? hi, hwr⟩))
      · rcases List.mem_or_eq_of_mem_set hu with hu | rfl
        · exact Or.inr (Or.inr ⟨u, hu, hwr⟩)
        · exact Or.inl (hstep.2 id hwr)
    · cases e <;> exact hrest

/-! ## The places of an account -/

/-- What holds along a run: the history has every session that is stored or takes a place, and no
account takes more places than it may have open sessions. -/
structure Placed (env : Env) (history : List (Uuid × Uuid)) (w : Server) : Prop where
  integrity : Integrity w.shared
  issued : ∀ o ∈ history, o.1 ∈ w.shared.issued
  sessions : ∀ u ∈ w.shared.sessions, (u.id, u.userId) ∈ history
  placed : ∀ id, takesPlace w id = true → ∃ userId, (id, userId) ∈ history
  room : ∀ userId,
    (places history w userId).length ≤ env.uploads.maxOpenSessionsPerUser.toNat

section Placed

variable {env : Env} {history : List (Uuid × Uuid)} {w : Server} {l : Move}

/-- A session of the history takes a place only if it took one before. -/
theorem Placed.takesPlace_old (h : Placed env history w) {o : Uuid × Uuid} (ho : o ∈ history)
    (ht : takesPlace ((server env).step w l) o.1 = true) : takesPlace w o.1 = true :=
  (takesPlace_step env ht).resolve_right (fun hnew => hnew.1 (h.issued o ho))

theorem Placed.places_old (h : Placed env history w) (userId : Uuid) :
    (places history ((server env).step w l) userId).length ≤ (places history w userId).length := by
  unfold places
  rw [← List.countP_eq_length_filter, ← List.countP_eq_length_filter]
  refine List.countP_mono_left (fun o ho hp => ?_)
  rw [Bool.and_eq_true] at hp ⊢
  exact ⟨hp.1, h.takesPlace_old ho hp.2⟩

theorem places_append (history history' : List (Uuid × Uuid)) (w : Server) (userId : Uuid) :
    places (history ++ history') w userId
      = places history w userId ++ places history' w userId := List.filter_append ..

/-- A new session takes the place it has found. -/
theorem Placed.room_step (h : Placed env history w) (hl : findsPlace env history w l = true)
    (userId : Uuid) :
    (places (history ++ opened env w l) ((server env).step w l) userId).length
      ≤ env.uploads.maxOpenSessionsPerUser.toNat := by
  have hold : (places history ((server env).step w l) userId).length
      ≤ (places history w userId).length := h.places_old userId
  have hroom := h.room userId
  rw [places_append, List.length_append]
  obtain hnone | ⟨i, choice, actor, request, rfl, hi, hins, hone⟩ :=
    opened_cases env w l h.integrity
  · have hempty : places [] ((server env).step w l) userId = [] := rfl
    rw [hnone, hempty, List.length_nil]
    omega
  · rw [hone]
    by_cases hu : request.userId = userId
    · have hfree : (places history w userId).length
          < env.uploads.maxOpenSessionsPerUser.toNat := by
        simp only [findsPlace, hi, hins, Bool.not_true, Bool.false_or, decide_eq_true_eq] at hl
        rw [← hu]
        exact hl
      have hle : (places [(choice.uuid, request.userId)]
          ((server env).step w (.resume i choice)) userId).length ≤ 1 := List.length_filter_le _ _
      omega
    · have hother : places [(choice.uuid, request.userId)]
          ((server env).step w (.resume i choice)) userId = [] := by
        refine List.filter_eq_nil_iff.mpr (fun o ho => ?_)
        rw [List.mem_singleton.mp ho]
        simp [hu]
      rw [hother, List.length_nil]
      omega

theorem Placed.step (h : Placed env history w) (hl : findsPlace env history w l = true) :
    Placed env (history ++ opened env w l) ((server env).step w l) := by
  have hev : Reservation.Evolves w.shared ((server env).step w l).shared :=
    Reservation.evolves_run env w [l]
  have hint : Integrity ((server env).step w l).shared := h.integrity.run_from env [l]
  have hsessions : ∀ u ∈ ((server env).step w l).shared.sessions,
      (u.id, u.userId) ∈ history ++ opened env w l := by
    intro u hu
    cases hold : w.shared.sessions.find? u.id with
    | none => exact List.mem_append_right _ (mem_newSessions.mpr ⟨u, hu, hold, rfl⟩)
    | some row =>
        have hid : u.id ∈ w.shared.issued := by
          rw [← Table.key_of_find? hold]
          exact h.integrity.issuedSessions row (Table.mem_of_find? hold)
        obtain ⟨row', hr', hlater⟩ := hev.sessions u.id hid u (Table.find?_of_mem hu)
        have huser : u.userId = row'.userId := hlater.same.2.1
        have hkey : row'.id = u.id := Table.key_of_find? hr'
        rw [huser, ← hkey]
        exact List.mem_append_left _ (h.sessions row' (Table.mem_of_find? hr'))
  refine ⟨hint, fun o ho => ?_, hsessions, fun id ht => ?_, h.room_step hl⟩
  · rcases List.mem_append.mp ho with ho | ho
    · exact hev.issued o.1 (h.issued o ho)
    · obtain ⟨u, hu, _, rfl⟩ := mem_newSessions.mp ho
      exact hint.issuedSessions u hu
  · rcases takesPlace_step env ht with hold | ⟨_, hadm⟩
    · obtain ⟨userId, ho⟩ := h.placed id hold
      exact ⟨userId, List.mem_append_left _ ho⟩
    · obtain ⟨row, hr, _, _⟩ := admits_iff.mp hadm
      refine ⟨row.userId, ?_⟩
      rw [← Table.key_of_find? hr]
      exact hsessions row (Table.mem_of_find? hr)

theorem placed_initial (env : Env) (hw : Initial w) : Placed env [] w where
  integrity := Integrity.initial hw
  issued o ho := by cases ho
  sessions u hu := by
    rw [hw.sessions] at hu
    cases hu
  placed id ht := by
    rw [takesPlace_iff, admits_iff, hw.sessions, hw.files, hw.tasks] at ht
    simp at ht
  room userId := Nat.zero_le _

end Placed

/-! ## The size of a staging file -/

/-- Sessions and staging files are no larger than one blob may be. -/
structure Sized (env : Env) (s : State) : Prop where
  integrity : Integrity s
  declared : ∀ u ∈ s.sessions, u.declaredSizeBytes ≤ env.uploads.maxBlobBytes.toNat
  files : ∀ id content, s.files (stagingPathFor id) = some content →
    content.length ≤ env.uploads.maxBlobBytes.toNat

/-- What a request knows of the size of its blob, or of the end of its chunk. -/
def FitsBlob (env : Env) : Task → Prop
  | .beginUpload (.findBySha256 _ _ blob) => blob.sizeBytes ≤ env.uploads.maxBlobBytes
  | .beginUpload (.countOpenForUser _ _ blob) => blob.sizeBytes ≤ env.uploads.maxBlobBytes
  | .beginUpload (.findUser _ _ blob) => blob.sizeBytes ≤ env.uploads.maxBlobBytes
  | .beginUpload (.insertSession _ request) =>
      request.declaredSizeBytes ≤ env.uploads.maxBlobBytes.toNat
  | .uploadChunk (.writeAt _ _ offset chunk) =>
      offset.toNat + chunk.length ≤ env.uploads.maxBlobBytes.toNat
  | _ => True

section Sizes

variable {env : Env} {choice : Choice} {s : State}

theorem overwrite_length (content : Bytes) (offset : Nat) (data : Bytes) :
    (overwrite content offset data).length ≤ max content.length (offset + data.length) := by
  unfold overwrite
  split
  · omega
  · simp only [List.length_append, List.length_take, List.length_replicate, List.length_drop]
    omega

variable {files : Files} {fault : IoFault} {staging : Path} {limit : Nat} {data after : Bytes}

theorem writeOpened_length {offset : Nat} {content : Bytes}
    (hold : ∀ old, files staging = some old → old.length ≤ limit)
    (hcontent : content.length ≤ limit) (hdata : offset + data.length ≤ limit)
    (h : (writeOpened files fault staging offset data content).2 staging = some after) :
    after.length ≤ limit := by
  have hwritten : ∀ part : Bytes, part.length ≤ data.length →
      (files.set staging (overwrite content offset part)) staging = some after →
        after.length ≤ limit := by
    intro part hpart hset
    rw [Files.set_self, Option.some.injEq] at hset
    have hlen := overwrite_length content offset part
    rw [← hset]
    omega
  cases fault with
  | openFile => exact hold after h
  | seek => exact hold after h
  | write written =>
      have htake : (data.take written).length ≤ data.length := by
        rw [List.length_take]
        omega
      exact hwritten _ htake h
  | _ => exact hwritten data (Nat.le_refl _) h

theorem writeAt_length {offset : Int}
    (hold : ∀ old, files staging = some old → old.length ≤ limit)
    (hdata : offset.toNat + data.length ≤ limit)
    (h : (writeAt files fault staging offset data).2 staging = some after) :
    after.length ≤ limit := by
  unfold writeAt at h
  split at h
  · exact hold after h
  · split at h
    · exact hold after h
    · cases hfile : files staging with
      | none =>
          simp only [hfile] at h
          split_ifs at h
          · exact hold after h
          · exact hold after h
          · refine writeOpened_length (fun old ho => ?_) (Nat.zero_le _) hdata h
            rw [Files.set_self, Option.some.injEq] at ho
            rw [← ho]
            exact Nat.zero_le _
      | some content =>
          simp only [hfile] at h
          exact writeOpened_length hold (hold content hfile) hdata h

/-- A declaration that passes the checks fits. -/
theorem checkDeclaration_size {blob : BlobDeclaration} {r : Unit}
    (h : checkDeclaration env blob = .ok r) : blob.sizeBytes ≤ env.uploads.maxBlobBytes := by
  unfold checkDeclaration at h
  split at h
  · cases h
  · split at h
    · cases h
    · rename_i hsize
      rw [Bool.or_eq_true, decide_eq_true_eq, decide_eq_true_eq] at hsize
      omega

theorem fitsBlob_of_kind {t : Task} (hbegin : t.kind ≠ .beginUpload)
    (hupload : t.kind ≠ .uploadChunk) : FitsBlob env t := by
  cases t with
  | beginUpload t => exact absurd rfl hbegin
  | uploadChunk t => exact absurd rfl hupload
  | _ => trivial

/-- The requests keep to the size of a blob. -/
theorem FitsBlob.next (hs : Sized env s) {t : Task} (h : FitsBlob env t) :
    (t.next env).Wp (exec env) choice s (fun _ t' => FitsBlob env t') := by
  cases t with
  | beginUpload t =>
      rw [Task.next, Suspended.wp_map]
      cases t with
      | findOwnership actor buildId blob =>
          intro r s' _
          dsimp only
          cases writableBuild actor r with
          | error e => trivial
          | ok build =>
              cases hcheck : checkDeclaration env blob with
              | error e => trivial
              | ok u => exact checkDeclaration_size hcheck
      | findBySha256 actor build blob =>
          intro r s' _
          cases r with
          | none => exact h
          | some record => trivial
      | countOpenForUser actor build blob =>
          intro r s' _
          dsimp only
          split_ifs
          · trivial
          · exact h
      | findUser actor build blob =>
          intro r s' _
          cases r with
          | none => trivial
          | some user =>
              dsimp only
              split_ifs
              · trivial
              · exact Int.toNat_le_toNat h
      | insertSession actor request =>
          intro r s' _
          rcases r with e | _ | session
          · trivial
          · trivial
          · unfold openedSession
            dsimp only
            split_ifs <;> trivial
      | selectOpenSession actor request =>
          intro r s' _
          cases r with
          | none => trivial
          | some session =>
              unfold openedSession
              dsimp only
              split_ifs <;> trivial
      | answered result => trivial
      | threw error => trivial
  | uploadChunk t =>
      rw [Task.next, Suspended.wp_map]
      cases t with
      | findSession actor sessionId offset chunk =>
          intro r s' _
          obtain ⟨_, ha⟩ | ⟨_, _, _, _, ha⟩ := admitted_cases env actor offset chunk r <;>
            rw [ha] <;> trivial
      | reserveBytes session offset chunk =>
          intro r s' e
          obtain hc | ⟨row, hr, _, _, hoffset, hfit, hc⟩ :=
            s.reserveBytes_cases session.id offset chunk.length <;> cases hc.symm.trans e
          · trivial
          · have hdeclared := hs.declared row (Table.mem_of_find? hr)
            show offset.toNat + chunk.length ≤ env.uploads.maxBlobBytes.toNat
            omega
      | writeAt session reserved offset chunk =>
          intro r s' _
          obtain ⟨_, _, hw⟩ | ⟨_, _, hw⟩ | ⟨_, _, hw⟩ := written_cases session reserved r <;>
            rw [hw] <;> trivial
      | abortUnwritten session error => exact fun _ _ _ => trivial
      | discardUnwritten session error => exact fun _ _ _ => trivial
      | completing session point =>
          cases point <;> intro r s' _ <;> first | trivial | (cases r <;> trivial)
      | answered result => trivial
  | _ =>
      refine (Task.next_keeps env choice s _).mono (fun s' t' h' => fitsBlob_of_kind ?_ ?_) <;>
        rw [h'.2] <;> exact fun hk => by cases hk

/-- Every call keeps declared sizes and staging files within the size of a blob. -/
theorem Sized.next (hs : Sized env s) {t : Task} (h : FitsBlob env t) :
    (t.next env).Wp (exec env) choice s (fun s' _ => Sized env s') := by
  have hint : (t.next env).Wp (exec env) choice s (fun s' _ => Integrity s') :=
    Suspended.wp_of_exec (fun c => hs.integrity.exec env choice c) _
  have hdeclared : (t.next env).Wp (exec env) choice s (fun s' _ =>
      ∀ u ∈ s'.sessions, u.declaredSizeBytes ≤ env.uploads.maxBlobBytes.toNat) := by
    cases hins : isInsert t with
    | false =>
        refine (onlyOld_next hs.integrity hins).mono (fun s' _ hold u hu => ?_)
        obtain ⟨row, hr, hlater⟩ := hold u hu
        have hsize : u.declaredSizeBytes = row.declaredSizeBytes := hlater.same.2.2.2.1
        rw [hsize]
        exact hs.declared row (Table.mem_of_find? hr)
    | true =>
        cases t with
        | beginUpload t =>
            cases t with
            | insertSession actor request =>
                intro r s' e u hu
                have hs' : s' = (s.insertSession choice request).2 := (congrArg Prod.snd e).symm
                obtain hc | ⟨_, _, _, hc⟩ := s.insertSession_cases choice request <;>
                  rw [hs', hc] at hu
                · exact hs.declared u hu
                · rcases Table.eq_or_mem_of_mem_insert hu with rfl | hu
                  · exact h
                  · exact hs.declared u hu
            | _ => cases hins
        | _ => cases hins
  have hfiles : (t.next env).Wp (exec env) choice s (fun s' _ => ∀ id content,
      s'.files (stagingPathFor id) = some content →
        content.length ≤ env.uploads.maxBlobBytes.toNat) := by
    cases hw : isWrite t with
    | false =>
        refine (next_writesAt hw).wp (fun c _ hc r s' e id content hfile => ?_)
        have hs' : s' = (exec env choice c s).2 := (congrArg Prod.snd e).symm
        rcases staging_exec env choice s hc id with hnone | hsame
        · rw [hs', hnone] at hfile
          cases hfile
        · rw [hs', hsame] at hfile
          exact hs.files id content hfile
    | true =>
        cases t with
        | uploadChunk t =>
            cases t with
            | writeAt session reserved offset chunk =>
                intro r s' e id content hfile
                cases e
                dsimp only at hfile
                by_cases hid : id = session.id
                · rw [hid] at hfile
                  exact writeAt_length (fun old ho => hs.files session.id old ho) h hfile
                · rw [writeAt_frame _ _ _ _ _ (fun he => hid (stagingPathFor_injective he))]
                    at hfile
                  exact hs.files id content hfile
            | _ => cases hw
        | _ => cases hw
  exact (hint.and (hdeclared.and hfiles)).mono (fun s' _ h => ⟨h.1, h.2.1, h.2.2⟩)

theorem Sized.outside (hs : Sized env s) (e : Outside) : Sized env (Launcher.outside e s) where
  integrity := hs.integrity.outside e
  declared := by cases e <;> exact hs.declared
  files := by cases e <;> exact hs.files

theorem entry_fitsBlob (r : Request) : FitsBlob env (entry r) := by
  cases r with
  | beginUpload actor buildId blob =>
      show FitsBlob env (.beginUpload (beginUpload actor buildId blob))
      unfold beginUpload
      cases writableBuildRequest actor buildId <;> trivial
  | uploadChunk actor sessionId offset chunk =>
      show FitsBlob env (.uploadChunk (uploadChunk actor sessionId offset chunk))
      unfold uploadChunk
      split <;> trivial
  | _ => trivial

theorem sized_run {w : Server} (hw : Initial w) (ls : List Move) :
    Sized env ((server env).run w ls).shared := by
  refine (System.pool_invariant (S := server env) (G := Sized env)
    (L := fun _ t => FitsBlob env t) (A := fun _ _ => True) (fun r _ _ => entry_fitsBlob r)
    (fun w' i choice t hG hL hi _ => ?_) (fun e s hG => ⟨hG.outside e, fun _ h => h⟩) ls w
    ⟨?_, ?_, ?_⟩ (fun j t hj => ?_) (System.along_true w ls)).1
  · exact ((hG.next (hL i t hi)).and (FitsBlob.next hG (hL i t hi))).mono
      (fun s' t' h => ⟨h.1, h.2, fun j t'' _ hj => hL j t'' hj⟩)
  · exact Integrity.initial hw
  · intro u hu
    rw [hw.sessions] at hu
    cases hu
  · intro id content hfile
    rw [hw.files] at hfile
    cases hfile
  · rw [hw.tasks] at hj
    cases hj

end Sizes

/-! ## Every run -/

theorem mem_stagingFiles {history : List (Uuid × Uuid)} {s : State} {userId : Uuid}
    {content : Bytes} (h : content ∈ stagingFiles history s userId) :
    ∃ id, s.files (stagingPathFor id) = some content := by
  obtain ⟨o, _, ho⟩ := List.mem_filterMap.mp h
  exact ⟨o.1, ho⟩

/-- A staging file takes a place. -/
theorem stagingFiles_length (history : List (Uuid × Uuid)) (w : Server) (userId : Uuid) :
    (stagingFiles history w.shared userId).length ≤ (places history w userId).length := by
  rw [stagingFiles, places, List.length_filterMap_eq_countP, List.countP_filter,
    ← List.countP_eq_length_filter]
  refine List.countP_mono_left (fun o _ hp => ?_)
  rw [Bool.and_eq_true] at hp ⊢
  exact ⟨hp.2, takesPlace_iff.mpr (Or.inr (Or.inl hp.1))⟩

section Demo

open Launcher.Demo

/-- An account may have one session open, for a file of at most three bytes. -/
def narrowEnv : Env := { env with uploads := ⟨3, 1000, 3600, 1, 100⟩ }

def twoBytes : Bytes := contentA ++ contentA

def begun (sha256 : Bytes) : Move := .request (.beginUpload alice (uuidText 10) ⟨sha256, 3⟩)

/-- Task `i` opens the session `id`, and task `i + 1` writes two of its three bytes. -/
def partUploaded (i : Nat) (sha256 : Bytes) (id : Uuid) : List Move :=
  begun sha256 :: drawing id i 5 ++ chunkSent alice id 0 twoBytes :: go (i + 1) 3

/-- A session expires and is swept before the next one is opened. -/
def swept : List Move :=
  buildCreated ++ partUploaded 1 shaA 20 ++ after 3600 ++ .request .sweepExpiredSessions :: go 3 3
    ++ partUploaded 4 shaEmpty 21

/-- Two requests count the open sessions before either inserts its own. -/
def countedTogether : List Move :=
  buildCreated ++ begun shaA :: begun shaEmpty :: go 1 4 ++ go 2 4 ++ drawing 20 1 1 ++
    drawing 21 2 1 ++ chunkSent alice 20 0 twoBytes :: chunkSent alice 21 0 twoBytes ::
    go 3 3 ++ go 4 3

/-- A session has expired and nobody has swept it yet. -/
def expiredUnswept : List Move :=
  buildCreated ++ partUploaded 1 shaA 20 ++ after 3600 ++ partUploaded 3 shaEmpty 21

/-- The build is deleted, and its session with it; alice starts again with another build. -/
def buildDeleted : List Move :=
  buildCreated ++ partUploaded 1 shaA 20 ++ .request (.deleteBuild alice (uuidText 10)) :: go 3 2 ++
    .request (.createBuild alice (uuidText 4)
      { versionId := uuidText 5, name := [], platform := .Linux, architecture := .X64 })
      :: drawing 11 4 3 ++
    .request (.beginUpload alice (uuidText 11) ⟨shaA, 3⟩) :: drawing 21 5 5 ++
    chunkSent alice 21 0 twoBytes :: go 6 3

/-- The session is aborted between the reservation of a chunk and its write. -/
def writtenLate : List Move :=
  buildCreated ++ begun shaA :: drawing 20 1 5 ++ chunkSent alice 20 0 twoBytes :: go 2 2 ++
    .request (.abortUpload alice (uuidText 20)) :: go 3 3 ++ partUploaded 4 shaA 21 ++ go 2 1

end Demo

end Launcher.StagingSpace
