import Launcher.Invariants.Reservation

set_option autoImplicit false

/-! # Resuming an upload

A negotiation whose response was lost is repeated, and the partial unique index on open sessions
hands the same session out again. The insert comes last, after checks that look at what the first
request has changed: the session it opened is counted against the account's limit. And the
session handed out may be an old one: the index knows neither the time nor the declared size.

`begin_outcome` says what a request alone does, `begin_repeated` what one does that finds an open
session. `retry_resumes_iff` and `session_usable_iff` follow, for whatever was done before. -/

namespace Launcher.Resuming

open Launcher.Lib

/-! ## A request alone -/

def beginning (actor : Actor) (buildId : Bytes) (blob : BlobDeclaration) : Task :=
  .beginUpload (beginUpload actor buildId blob)

/-- The answer with a session. -/
def handed (session : UploadSession) : Task := .beginUpload (.answered (.ok session))

/-- The checks before the insert, apart from the limit on open sessions. -/
structure Admitted (env : Env) (s : State) (actor : Actor) (buildId : Bytes)
    (blob : BlobDeclaration) : Prop where
  request : writableBuildRequest actor buildId = .ok (uuidOf buildId)
  writable : ∃ build, writableBuild actor (s.findOwnership (uuidOf buildId)) = .ok build
  declared : checkDeclaration env blob = .ok ()
  missing : s.blobs.find? blob.sha256 = none
  quota : ∃ user, s.users.find? actor.userId = some user ∧
    ¬((user.uploadQuotaBytes : Int) < user.uploadUsedBytes + blob.sizeBytes)

/-- The account may have another session. -/
def HasRoom (env : Env) (s : State) (actor : Actor) : Prop :=
  (s.countOpenForUser actor.userId : Int) < env.uploads.maxOpenSessionsPerUser

/-- What the insert is asked for. -/
def newSession (env : Env) (actor : Actor) (buildId : Bytes) (blob : BlobDeclaration) :
    NewUploadSession where
  buildId := uuidOf buildId
  userId := actor.userId
  blobSha256 := blob.sha256
  declaredSizeBytes := blob.sizeBytes.toNat
  ttl := env.uploads.sessionTtl

/-- The state with a session more. -/
def withSession (s : State) (row : UploadSessionRow) : State :=
  { s with sessions := s.sessions.insert row, issued := row.id :: s.issued }

/-- A request that was handed the session `row`, and the state it leaves. -/
inductive Handed (env : Env) (s : State) (actor : Actor) (buildId : Bytes)
    (blob : BlobDeclaration) : State → UploadSessionRow → Prop
  /-- The session was open already. -/
  | resumed {row : UploadSessionRow}
      (h : s.openSession (uuidOf buildId) blob.sha256 = some row)
      (howner : row.userId = actor.userId) : Handed env s actor buildId blob s row
  | opened {row : UploadSessionRow} {id : Uuid}
      (h : s.openSession (uuidOf buildId) blob.sha256 = none) (hid : id ∉ s.issued)
      (hrow : row = s.newSessionRow id (newSession env actor buildId blob)) :
      Handed env s actor buildId blob (withSession s row) row

theorem writableBuildRequest_ok {actor : Actor} {buildId : Bytes} {id : Uuid}
    (h : writableBuildRequest actor buildId = .ok id) : id = uuidOf buildId := by
  unfold writableBuildRequest failure at h
  split_ifs at h
  exact (Except.ok.inj h).symm

theorem writableBuild_ok {actor : Actor} {ownership : Option BuildOwnership}
    {build : BuildOwnership} (h : writableBuild actor ownership = .ok build) :
    ownership = some build := by
  unfold writableBuild failure at h
  cases ownership with
  | none => cases h
  | some found =>
      dsimp only at h
      split_ifs at h
      rw [Except.ok.inj h]

theorem findOwnership_buildId {s : State} {buildId : Uuid} {build : BuildOwnership}
    (h : s.findOwnership buildId = some build) :
    build.buildId = buildId ∧ (s.builds.find? buildId).isSome = true := by
  unfold State.findOwnership at h
  obtain ⟨b, hb, h⟩ := Option.bind_eq_some_iff.mp h
  obtain ⟨v, -, h⟩ := Option.bind_eq_some_iff.mp h
  obtain ⟨g, -, h⟩ := Option.bind_eq_some_iff.mp h
  obtain rfl := Option.some.inj h
  have hid : b.id = buildId := Table.key_of_find? hb
  exact ⟨hid, by rw [hb]; rfl⟩

section Alone

variable {env : Env} {s : State} {actor : Actor} {buildId : Bytes} {blob : BlobDeclaration}

theorem checkDeclaration_ok (h : checkDeclaration env blob = .ok ()) :
    isSha256Hex blob.sha256 = true ∧ 0 ≤ blob.sizeBytes := by
  unfold checkDeclaration failure at h
  split_ifs at h with hsha hsize
  simp only [Bool.or_eq_true, decide_eq_true_eq, not_or, not_lt] at hsize
  exact ⟨by simpa using hsha, hsize.1⟩

/-- A call that only reads, and draws nothing. -/
theorem ends_read {Q : State → Task → Prop} {t : Task} {α : Type} {c : Call α} {k : α → Task}
    {reply : α} (hc : t.next env = .call c k)
    (hreply : ∀ choice, exec env choice c s = (reply, s)) :
    (server env).Ends Q s t ↔ (server env).Ends Q s (k reply) := by
  rw [System.ends_call_iff (S := server env) hc]
  have hstep : ∀ choice, (server env).Ends Q ((server env).exec choice c s).2
      (k ((server env).exec choice c s).1) ↔ (server env).Ends Q s (k reply) := by
    intro choice
    rw [show (server env).exec choice c s = (reply, s) from hreply choice]
  exact ⟨fun h => (hstep ⟨0, .none⟩).mp (h _), fun h choice => (hstep choice).mpr h⟩

/-- With every check passed, a request comes to its insert if there is room for a session. -/
theorem ends_admitted {Q : State → Task → Prop} (h : Admitted env s actor buildId blob)
    (hroom : HasRoom env s actor) :
    (server env).Ends Q s (beginning actor buildId blob) ↔
      (server env).Ends Q s
        (.beginUpload (.insertSession actor (newSession env actor buildId blob))) := by
  obtain ⟨build, hbuild⟩ := h.writable
  obtain ⟨user, huser, hquota⟩ := h.quota
  obtain ⟨hid, -⟩ := findOwnership_buildId (writableBuild_ok hbuild)
  have hentry : beginning actor buildId blob
      = .beginUpload (.findOwnership actor (uuidOf buildId) blob) := by
    rw [beginning, beginUpload, h.request]
  rw [hentry]
  refine (ends_read rfl (fun _ => rfl)).trans ?_
  simp only [hbuild, h.declared]
  refine (ends_read rfl (fun _ => rfl)).trans ?_
  simp only [h.missing, Option.map_none]
  refine (ends_read rfl (fun _ => rfl)).trans ?_
  simp only [if_neg (not_le.mpr hroom)]
  refine (ends_read rfl (fun _ => rfl)).trans ?_
  simp only [huser, if_neg hquota, hid]
  rfl

theorem ends_refused (h : ¬(Admitted env s actor buildId blob ∧ HasRoom env s actor)) :
    (server env).Ends (fun _ t => ∀ session, t ≠ handed session) s
      (beginning actor buildId blob) := by
  unfold beginning beginUpload
  -- the checks in their order; the first one that fails answers the request
  cases hrequest : writableBuildRequest actor buildId with
  | error e => exact .done rfl (fun session he => by cases he)
  | ok id =>
      obtain rfl := writableBuildRequest_ok hrequest
      refine (ends_read rfl (fun _ => rfl)).mpr ?_
      cases hbuild : writableBuild actor (s.findOwnership (uuidOf buildId)) with
      | error e =>
          simp only [hbuild]
          exact .done rfl (fun session he => by cases he)
      | ok build =>
          cases hdeclared : checkDeclaration env blob with
          | error e =>
              simp only [hbuild]
              exact .done rfl (fun session he => by cases he)
          | ok _ =>
              simp only [hbuild]
              refine (ends_read rfl (fun _ => rfl)).mpr ?_
              cases hblob : s.blobs.find? blob.sha256 with
              | some b =>
                  rw [Option.map_some]
                  exact .done rfl (fun session he => by cases he)
              | none =>
                  rw [Option.map_none]
                  refine (ends_read rfl (fun _ => rfl)).mpr ?_
                  by_cases hroom : env.uploads.maxOpenSessionsPerUser
                      ≤ (s.countOpenForUser actor.userId : Int)
                  · simp only [if_pos hroom]
                    exact .done rfl (fun session he => by cases he)
                  · simp only [if_neg hroom]
                    refine (ends_read rfl (fun _ => rfl)).mpr ?_
                    cases huser : s.users.find? actor.userId with
                    | none =>
                        exact .done rfl (fun session he => by cases he)
                    | some user =>
                        by_cases hquota : (user.uploadQuotaBytes : Int)
                            < user.uploadUsedBytes + blob.sizeBytes
                        · simp only [if_pos hquota]
                          exact .done rfl (fun session he => by cases he)
                        · exact absurd ⟨⟨hrequest, ⟨build, hbuild⟩, hdeclared, hblob,
                            ⟨user, huser, hquota⟩⟩, not_le.mp hroom⟩ h

/-- The foreign keys and the check of the insert are satisfied. -/
theorem insertSession_admitted (h : Admitted env s actor buildId blob) (choice : Choice) :
    s.insertSession choice (newSession env actor buildId blob) =
      match s.openSession (uuidOf buildId) blob.sha256 with
      | some _ => (.ok none, s)
      | none =>
          if s.issued.contains choice.uuid then (.error .uniqueViolation, s)
          else
            (.ok (some ((s.newSessionRow choice.uuid (newSession env actor buildId blob)).read
              s.now)),
              withSession s (s.newSessionRow choice.uuid (newSession env actor buildId blob))) := by
  obtain ⟨build, hbuild⟩ := h.writable
  obtain ⟨-, hbuilds⟩ := findOwnership_buildId (writableBuild_ok hbuild)
  obtain ⟨user, huser, -⟩ := h.quota
  have hsha := (checkDeclaration_ok h.declared).1
  have hkeys : ((s.builds.find? (newSession env actor buildId blob).buildId).isNone ||
      (s.users.find? (newSession env actor buildId blob).userId).isNone) = false := by
    rw [show (newSession env actor buildId blob).userId = actor.userId from rfl, huser,
      Option.isNone_some, Bool.or_false, ← Option.not_isSome]
    simpa [newSession] using hbuilds
  rw [State.insertSession, hkeys, if_neg Bool.false_ne_true,
    show (newSession env actor buildId blob).blobSha256 = blob.sha256 from rfl, hsha,
    if_neg (by simp)]
  rfl

/-- With an open session in the way, the request is answered with that one. -/
theorem begin_repeated {Q : State → Task → Prop} {row : UploadSessionRow}
    (h : Admitted env s actor buildId blob) (hroom : HasRoom env s actor)
    (hopen : s.openSession (uuidOf buildId) blob.sha256 = some row) :
    (server env).Ends Q s (beginning actor buildId blob) ↔
      Q s (.beginUpload (openedSession actor (row.read s.now))) := by
  rw [ends_admitted h hroom]
  have hinsert : ∀ choice, exec env choice
      (.insertSession (newSession env actor buildId blob)) s = (.ok none, s) := by
    intro choice
    refine (insertSession_admitted h choice).trans ?_
    rw [hopen]
  refine (ends_read rfl hinsert).trans ((ends_read rfl (fun _ => rfl)).trans ?_)
  have hselect : (s.openSession (newSession env actor buildId blob).buildId
      (newSession env actor buildId blob).blobSha256) = some row := hopen
  simp only [hselect, Option.map_some]
  refine System.ends_done_iff (S := server env) ?_
  unfold openedSession
  split_ifs <;> rfl

/-- **What a request alone does.** One that is answered with a session has passed every check,
and was handed the open session of the build for the hash or a new one. -/
theorem begin_outcome : (server env).Ends (fun s' t => ∀ session, t = handed session →
      Admitted env s actor buildId blob ∧ HasRoom env s actor ∧
        ∃ row, Handed env s actor buildId blob s' row ∧ session = row.read s.now)
    s (beginning actor buildId blob) := by
  by_cases hboth : Admitted env s actor buildId blob ∧ HasRoom env s actor
  · obtain ⟨h, hroom⟩ := hboth
    cases hopen : s.openSession (uuidOf buildId) blob.sha256 with
    | some row =>
        rw [begin_repeated h hroom hopen]
        intro session he
        unfold openedSession at he
        split_ifs at he with howner
        · cases he
        · cases he
          exact ⟨h, hroom, row, .resumed hopen (not_not.mp howner), rfl⟩
    | none =>
        rw [ends_admitted h hroom]
        refine .call rfl (fun choice => ?_)
        rw [show (server env).exec choice (.insertSession (newSession env actor buildId blob)) s
            = s.insertSession choice (newSession env actor buildId blob) from rfl,
          insertSession_admitted h choice, hopen]
        dsimp only
        split_ifs with hissued
        · exact .done rfl (fun session he => by cases he)
        · have howner : ¬((s.newSessionRow choice.uuid
              (newSession env actor buildId blob)).read s.now).userId ≠ actor.userId :=
            not_not.mpr rfl
          dsimp only
          rw [openedSession, if_neg howner]
          refine .done rfl (fun session he => ?_)
          cases he
          exact ⟨h, hroom, _, .opened hopen (by simpa using hissued) rfl, rfl⟩
  · exact (ends_refused hboth).mono (fun s' t hne session he => absurd he (hne session))

end Alone

/-! ## The retry -/

/-- Time passes, and no session expires in it. -/
def NothingExpires (s : State) (duration : Nat) : Prop :=
  ∀ u ∈ s.sessions, s.now < u.expiresAt → s.now + duration < u.expiresAt

def wait (duration : Nat) (s : State) : State := outside (.tick duration) s

/-- The same request once more, alone: it is answered with the same session at the same offset. -/
def Resumes (env : Env) (s : State) (actor : Actor) (buildId : Bytes) (blob : BlobDeclaration)
    (session : UploadSession) : Prop :=
  (server env).Ends (fun _ t => ∃ session', t = handed session' ∧ session'.id = session.id ∧
    session'.receivedBytes = session.receivedBytes) s (beginning actor buildId blob)

section Retry

variable {env : Env} {s s' : State} {actor : Actor} {buildId : Bytes} {blob : BlobDeclaration}
  {row : UploadSessionRow}

/-- The checks other than the limit look at nothing a request changes. -/
theorem Admitted.after (h : Admitted env s actor buildId blob)
    (hs : Handed env s actor buildId blob s' row) (duration : Nat) :
    Admitted env (wait duration s') actor buildId blob := by
  cases hs with
  | resumed _ _ => exact ⟨h.request, h.writable, h.declared, h.missing, h.quota⟩
  | opened _ _ _ => exact ⟨h.request, h.writable, h.declared, h.missing, h.quota⟩

theorem rows_withSession (hint : Integrity s) (hid : row.id ∉ s.issued) :
    (withSession s row).sessions.rows = row :: s.sessions.rows := by
  have hfree : s.sessions.find? row.id = none := by
    cases hfind : s.sessions.find? row.id with
    | none => rfl
    | some found => exact absurd (Reservation.issued_of_find? hint hfind) hid
  rw [withSession, Table.insert, dif_pos hfree]

theorem openSession_withSession (hint : Integrity s) (hid : row.id ∉ s.issued)
    (hstatus : row.status = .Pending) :
    (withSession s row).openSession row.buildId row.blobSha256 = some row := by
  rw [State.openSession, rows_withSession hint hid, List.find?_cons_of_pos]
  simp [hstatus]

theorem countOpenForUser_withSession (hint : Integrity s) (hid : row.id ∉ s.issued)
    (hstatus : row.status = .Pending) (hexpires : s.now < row.expiresAt) :
    (withSession s row).countOpenForUser row.userId = s.countOpenForUser row.userId + 1 := by
  rw [State.countOpenForUser, rows_withSession hint hid, List.filter_cons_of_pos,
    List.length_cons]
  · rfl
  · have hnow : (withSession s row).now < row.expiresAt := hexpires
    simp [hstatus, hnow]

theorem countOpenForUser_wait {duration : Nat} (h : NothingExpires s duration) (userId : Uuid) :
    (wait duration s).countOpenForUser userId = s.countOpenForUser userId := by
  refine congrArg List.length (List.filter_congr fun u hu => ?_)
  have hsame : (s.now + duration < u.expiresAt) ↔ s.now < u.expiresAt :=
    ⟨fun hlater => by omega, h u hu⟩
  show (_ && _ && decide (s.now + duration < u.expiresAt)) = _
  simp only [hsame]

/-- The session a request was handed is the open session of the build for the hash. -/
theorem Handed.openSession (hint : Integrity s) (h : Handed env s actor buildId blob s' row) :
    s'.openSession (uuidOf buildId) blob.sha256 = some row := by
  cases h with
  | resumed hopen _ => exact hopen
  | opened hopen hid hrow =>
      subst hrow
      exact openSession_withSession hint hid rfl

theorem Handed.owner (h : Handed env s actor buildId blob s' row) :
    row.userId = actor.userId := by
  cases h with
  | resumed _ howner => exact howner
  | opened _ _ hrow =>
      subst hrow
      rfl

theorem not_resumes_of_full {session : UploadSession} (h : ¬HasRoom env s actor) :
    ¬Resumes env s actor buildId blob session := by
  intro hresumes
  have hrefused := ends_refused
    (fun hboth => h hboth.2 : ¬(Admitted env s actor buildId blob ∧ HasRoom env s actor))
  obtain ⟨_, t, ⟨session', ht, -⟩, hne⟩ := (System.Ends.and hresumes hrefused).exists
  exact hne session' ht

theorem resumes_iff (hint : Integrity s) (h : Admitted env s actor buildId blob)
    (hs : Handed env s actor buildId blob s' row) (duration : Nat) :
    Resumes env (wait duration s') actor buildId blob (row.read s.now) ↔
      HasRoom env (wait duration s') actor := by
  have hadmitted := h.after hs duration
  have hopen : (wait duration s').openSession (uuidOf buildId) blob.sha256 = some row := by
    show s'.openSession (uuidOf buildId) blob.sha256 = some row
    exact hs.openSession hint
  constructor
  · intro hresumes
    by_contra hfull
    exact not_resumes_of_full hfull hresumes
  · intro hroom
    rw [Resumes, begin_repeated hadmitted hroom hopen]
    have howner : ¬(row.read (wait duration s').now).userId ≠ actor.userId :=
      not_not.mpr hs.owner
    refine ⟨row.read (wait duration s').now, ?_, rfl, rfl⟩
    rw [openedSession, if_neg howner]
    rfl

/-- A session that was open already takes no room; a new one takes a place. -/
theorem hasRoom_after (hint : Integrity s) (httl : 0 < env.uploads.sessionTtl)
    (hroom : HasRoom env s actor) (hs : Handed env s actor buildId blob s' row) {duration : Nat}
    (hd : NothingExpires s' duration) :
    HasRoom env (wait duration s') actor ↔
      (s.openSession (uuidOf buildId) blob.sha256).isSome = true ∨
        (s.countOpenForUser actor.userId : Int) + 1 < env.uploads.maxOpenSessionsPerUser := by
  rw [HasRoom, countOpenForUser_wait hd]
  cases hs with
  | resumed hopen _ =>
      rw [hopen]
      exact iff_of_true hroom (Or.inl rfl)
  | @opened row id hopen hid hrow =>
      have hexpires : s.now < row.expiresAt := by
        rw [hrow]
        exact Nat.lt_add_of_pos_right (Nat.mul_pos httl (by decide))
      have howner : row.userId = actor.userId := by rw [hrow]; rfl
      have hcount := countOpenForUser_withSession hint (by rwa [hrow]) (by rw [hrow]; rfl) hexpires
      rw [howner] at hcount
      rw [hopen, hcount]
      simp

/-- **A retried negotiation resumes exactly if the session was open already or there was room for
two.** The request was made in a reachable state and answered with a session; nothing has happened
since, and no session has expired. -/
theorem retry_resumes_iff {w : Server} (hw : Initial w) (ls : List Move)
    (httl : 0 < env.uploads.sessionTtl) {choices : List Choice} {session : UploadSession}
    (hbegun : (server env).alone ((server env).run w ls).shared (beginning actor buildId blob)
      choices = ⟨s', [handed session]⟩)
    {duration : Nat} (hd : NothingExpires s' duration) :
    Resumes env (wait duration s') actor buildId blob session ↔
      (((server env).run w ls).shared.openSession (uuidOf buildId) blob.sha256).isSome = true ∨
        (((server env).run w ls).shared.countOpenForUser actor.userId : Int) + 1
          < env.uploads.maxOpenSessionsPerUser := by
  have hint := Integrity.run env hw ls
  obtain ⟨h, hroom, row, hs, rfl⟩ :=
    System.Ends.of_alone (begin_outcome) hbegun rfl session rfl
  rw [resumes_iff hint h hs duration, hasRoom_after hint httl hroom hs hd]

end Retry

open Launcher.Demo

/-- The session a task was answered with. -/
def sessionOf : Task → Option UploadSession
  | .beginUpload (.answered (.ok session)) => some session
  | _ => none

theorem eq_handed {w : World State Task} {session : UploadSession}
    (h : w.tasks.map sessionOf = [some session]) : w = ⟨w.shared, [handed session]⟩ := by
  obtain ⟨s, tasks⟩ := w
  obtain ⟨t, rfl, ht⟩ := List.map_eq_singleton_iff.mp h
  have hanswer : t = handed session := by
    unfold sessionOf at ht
    split at ht
    · rw [Option.some.inj ht]
      rfl
    · cases ht
  rw [hanswer]

/-- One open session an account. -/
def singleEnv : Env := { env with uploads := ⟨1000, 1000, 3600, 1, 100⟩ }

/-- Alice has created build 10. -/
def created (env : Env) : Server := (server env).run start buildCreated

/-- Alice opens session 20 for `contentA`. -/
def begun (env : Env) : World State Task :=
  (server env).alone (created env).shared (beginning alice (uuidText 10) ⟨shaA, 1⟩)
    (List.replicate 5 ⟨20, .none⟩)

def session20 : UploadSession := ⟨20, 10, 1, shaA, 1, 0, .Pending, false⟩

theorem retry_resumes_session20 :
    Resumes env (wait 0 (begun env).shared) alice (uuidText 10) ⟨shaA, 1⟩ session20 := by
  have hbegun : begun env = ⟨(begun env).shared, [handed session20]⟩ :=
    eq_handed (by decide +kernel)
  refine (retry_resumes_iff initial_start buildCreated (by decide) hbegun
    (fun u _ h => h)).mpr (Or.inr ?_)
  decide +kernel

/-- **A retry at the limit is refused**: the session that the lost response named is the one that
fills the account. -/
theorem retry_refused :
    (begun singleEnv).tasks.map sessionOf = [some session20] ∧
    ¬Resumes singleEnv (begun singleEnv).shared alice (uuidText 10) ⟨shaA, 1⟩ session20 :=
  ⟨by decide +kernel, not_resumes_of_full (by unfold HasRoom; decide +kernel)⟩

end Launcher.Resuming
