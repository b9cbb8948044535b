import Launcher.Database.Statements

set_option autoImplicit false

/-! # What the calls do

Two kinds of lemmas about `exec`, which the proofs about runs use in place of its definition.
A *frame* lemma says which tables a call leaves alone: `writesUsers`, `writesBlobs`, … name the
calls that may change a table, and every other call keeps it. A *cases* lemma lists everything
one statement can do, with the conditions under which it does it. -/

namespace Launcher

open Launcher.Lib

/-! ## Which call writes which table -/

namespace Call

variable {α : Type}

def writesUsers : Call α → Bool
  | .chargeUpload _ _ => true
  | .releaseUpload _ _ => true
  | _ => false

def writesBlobs : Call α → Bool
  | .recordBlob _ _ _ _ => true
  | .deleteIfUnreferenced _ _ => true
  | _ => false

def writesSessions : Call α → Bool
  | .insertSession _ => true
  | .reserveBytes _ _ _ => true
  | .markCompleted _ => true
  | .markAborted _ => true
  | .deleteSession _ => true
  | .removeBuild _ => true
  | .removeVersion _ => true
  | .removeGame _ => true
  | _ => false

/-- Changes `builds` or `build_files`. -/
def writesBuilds : Call α → Bool
  | .createBuild _ => true
  | .finalizeBuild _ _ => true
  | .markFailed _ => true
  | .removeBuild _ => true
  | .removeVersion _ => true
  | .removeGame _ => true
  | _ => false

def writesFiles : Call α → Bool
  | .writeAt _ _ _ => true
  | .commit _ _ => true
  | .discard _ => true
  | _ => false

/-- Asks for a byte range of an upload session. -/
def reserves : Call α → Bool
  | .reserveBytes _ _ _ => true
  | _ => false

/-- Deletes games. -/
def removesGame : Call α → Bool
  | .removeGame _ => true
  | _ => false

/-- Draws a fresh id. -/
def issues : Call α → Bool
  | .insertSession _ => true
  | .createBuild _ => true
  | _ => false

end Call

/-! ## Cases of the statements -/

namespace State

variable (s : State)

/-- A charge that fits the quota is added, any other changes nothing. -/
theorem chargeUpload_cases (userId : Uuid) (bytes : Nat) :
    s.chargeUpload userId bytes = (false, s) ∨
    ∃ user, s.users.find? userId = some user ∧
      user.uploadUsedBytes + bytes ≤ user.uploadQuotaBytes ∧
      s.chargeUpload userId bytes = (true, { s with
        users := s.users.modify userId
          ⟨fun u => { u with uploadUsedBytes := u.uploadUsedBytes + bytes }, fun _ => rfl⟩ }) := by
  unfold chargeUpload
  cases hu : s.users.find? userId with
  | none => exact Or.inl rfl
  | some user =>
      by_cases hq : user.uploadUsedBytes + bytes ≤ user.uploadQuotaBytes
      · exact Or.inr ⟨user, rfl, hq, by simp only [if_pos hq]⟩
      · exact Or.inl (by simp only [if_neg hq])

/-- The row is new and gets the current time, or there was one already and it stays. -/
theorem recordBlob_cases (sha256 : Bytes) (size : Nat) (key : Bytes) (userId : Option Uuid) :
    (∃ b, s.blobs.find? sha256 = some b ∧ s.recordBlob sha256 size key userId = (false, s)) ∨
    (s.blobs.find? sha256 = none ∧ s.recordBlob sha256 size key userId = (true, { s with
      blobs := s.blobs.insert ⟨sha256, size, key, s.now, userId⟩ })) := by
  unfold recordBlob
  cases hb : s.blobs.find? sha256 with
  | none => exact Or.inr ⟨rfl, rfl⟩
  | some b => exact Or.inl ⟨b, rfl, rfl⟩

theorem deleteIfUnreferenced_cases (sha256 : Bytes) (age : Nat) :
    s.deleteIfUnreferenced sha256 age = (none, s) ∨
    ∃ b, s.blobs.find? sha256 = some b ∧ s.isCollectable age b = true ∧
      s.deleteIfUnreferenced sha256 age = (some b, { s with
        blobs := s.blobs.delete (fun r => decide (r.sha256 = sha256)) }) := by
  unfold deleteIfUnreferenced
  cases hb : s.blobs.find? sha256 with
  | none => exact Or.inl rfl
  | some b =>
      by_cases hc : s.isCollectable age b = true
      · exact Or.inr ⟨b, rfl, hc, by simp only [if_pos hc]⟩
      · exact Or.inl (by simp only [if_neg hc])

/-- The three conditions, as propositions. -/
theorem isCollectable_iff (age : Nat) (b : BlobRow) :
    s.isCollectable age b = true ↔
      b.createdAt + age < s.now ∧ (∀ f ∈ s.buildFiles, f.blobSha256 ≠ b.sha256) ∧
      ∀ u ∈ s.sessions, u.blobSha256 = b.sha256 → u.status ≠ .Pending := by
  unfold isCollectable
  simp only [Bool.and_eq_true, decide_eq_true_eq, List.all_eq_true, bne_iff_ne, Bool.or_eq_true,
    Table.mem_def, and_assoc]
  refine and_congr_right (fun _ => and_congr_right (fun _ => forall₂_congr (fun u _ => ?_)))
  exact ⟨fun h e => h.resolve_left (fun hne => hne e), fun h => or_iff_not_imp_left.mpr
    (fun hne => h (not_not.mp hne))⟩

/-- The session row that `insertSession` writes. -/
def newSessionRow (id : Uuid) (session : NewUploadSession) : UploadSessionRow :=
  { id := id, buildId := session.buildId, userId := session.userId,
    blobSha256 := session.blobSha256, declaredSizeBytes := session.declaredSizeBytes,
    receivedBytes := 0, status := .Pending, expiresAt := s.now + session.ttl * second }

theorem insertSession_cases (choice : Choice) (session : NewUploadSession) :
    (s.insertSession choice session).2 = s ∨
    (s.openSession session.buildId session.blobSha256 = none ∧ choice.uuid ∉ s.issued ∧
      isSha256Hex session.blobSha256 = true ∧
      s.insertSession choice session =
        (.ok (some ((s.newSessionRow choice.uuid session).read s.now)), { s with
          sessions := s.sessions.insert (s.newSessionRow choice.uuid session)
          issued := choice.uuid :: s.issued })) := by
  unfold insertSession
  by_cases hfk : ((s.builds.find? session.buildId).isNone ||
      (s.users.find? session.userId).isNone) = true
  · exact Or.inl (by rw [if_pos hfk])
  · rw [if_neg hfk]
    by_cases hsha : isSha256Hex session.blobSha256 = true
    · rw [if_neg (by simp [hsha])]
      cases ho : s.openSession session.buildId session.blobSha256 with
      | some u => exact Or.inl rfl
      | none =>
          by_cases hid : s.issued.contains choice.uuid = true
          · exact Or.inl (by simp only [if_pos hid])
          · refine Or.inr ⟨rfl, by simpa using hid, hsha, ?_⟩
            simp only [if_neg hid]
            rfl
    · exact Or.inl (by rw [if_pos (by simpa using hsha)])

/-- A grant: the session is open, the offset is the one it is at, and the range fits. -/
theorem reserveBytes_cases (id : Uuid) (offset : Int) (count : Nat) :
    s.reserveBytes id offset count = (none, s) ∨
    ∃ row, s.sessions.find? id = some row ∧ row.status = .Pending ∧ s.now < row.expiresAt ∧
      (row.receivedBytes : Int) = offset ∧
      row.receivedBytes + count ≤ row.declaredSizeBytes ∧
      s.reserveBytes id offset count =
        (some (({ row with receivedBytes := row.receivedBytes + count }).read s.now), { s with
          sessions := s.sessions.modify id
            ⟨fun u => { u with receivedBytes := u.receivedBytes + count }, fun _ => rfl⟩ }) := by
  unfold reserveBytes
  cases hr : s.sessions.find? id with
  | none => exact Or.inl rfl
  | some row =>
      by_cases hc : row.status = .Pending ∧ s.now < row.expiresAt ∧
          (row.receivedBytes : Int) = offset ∧ row.receivedBytes + count ≤ row.declaredSizeBytes
      · exact Or.inr ⟨row, rfl, hc.1, hc.2.1, hc.2.2.1, hc.2.2.2, by simp only [if_pos hc]⟩
      · exact Or.inl (by simp only [if_neg hc])

theorem closeSession_cases (id : Uuid) (status : UploadSessionStatus) :
    s.closeSession id status = (false, s) ∨
    ∃ row, s.sessions.find? id = some row ∧ row.status = .Pending ∧
      s.closeSession id status = (true, { s with
        sessions := s.sessions.modify id
          ⟨fun u => { u with status := status }, fun _ => rfl⟩ }) := by
  unfold closeSession
  cases hr : s.sessions.find? id with
  | none => exact Or.inl rfl
  | some row =>
      by_cases hc : row.status = .Pending
      · exact Or.inr ⟨row, rfl, hc, by simp only [if_pos hc]⟩
      · exact Or.inl (by simp only [if_neg hc])

/-- The row of a build nothing has been uploaded to yet. -/
def newBuildRow (id : Uuid) (build : NewBuild) : Build :=
  { id := id, gameVersionId := build.gameVersionId, name := build.name,
    platform := build.platform, architecture := build.architecture, status := .Uploading,
    manifestSha256 := [], totalSizeBytes := 0, fileCount := 0,
    entrypointRelativePath := [], defaultLaunchArgs := [] }

theorem createBuild_cases (choice : Choice) (build : NewBuild) :
    (s.createBuild choice build).2 = s ∨
    (choice.uuid ∉ s.issued ∧ s.createBuild choice build =
      (.ok (some (newBuildRow choice.uuid build)), { s with
        builds := s.builds.insert (newBuildRow choice.uuid build)
        issued := choice.uuid :: s.issued })) := by
  unfold createBuild
  split
  · exact Or.inl rfl
  · split
    · exact Or.inl rfl
    · split
      · exact Or.inl rfl
      · rename_i hid
        exact Or.inr ⟨by simpa using hid, rfl⟩

/-- A build needs its version. -/
theorem createBuild_orphan (choice : Choice) {build : NewBuild}
    (h : (s.versions.find? build.gameVersionId).isNone = true) :
    (s.createBuild choice build).2 = s := by
  unfold createBuild
  rw [if_pos h]

/-- What a successful `finalize` makes of the build's row. -/
def readyBuild (manifest : FinalizedManifest) (b : Build) : Build :=
  { b with
    status := .Ready
    manifestSha256 := manifest.manifestSha256
    totalSizeBytes := manifest.totalSizeBytes
    fileCount := manifest.files.length
    entrypointRelativePath := manifest.entrypointRelativePath
    defaultLaunchArgs := manifest.defaultLaunchArgs }

/-- **Everything `finalize` can do.** It throws or finds no build to finalize, and changes
nothing; or the build was uploading, every hash has a blob, no path is taken, and the row and
the whole file list are written. -/
theorem finalizeBuild_cases (env : Env) (buildId : Uuid) (manifest : FinalizedManifest) :
    (∃ r, (s.finalizeBuild env buildId manifest) = (r, s) ∧ ∀ b, r ≠ .ok (some b)) ∨
    ∃ build buildFiles, s.builds.find? buildId = some build ∧ build.status = .Uploading ∧
      env.acceptsText manifest.entrypointRelativePath = true ∧
      env.acceptsText manifest.defaultLaunchArgs = true ∧
      (∀ f ∈ manifestRows env buildId manifest.files, relativePathSafe f.relativePath = true) ∧
      (∀ f ∈ manifestRows env buildId manifest.files, ∃ b, s.blobs.find? f.blobSha256 = some b) ∧
      s.buildFiles.insertAll (manifestRows env buildId manifest.files) = some buildFiles ∧
      s.finalizeBuild env buildId manifest = (.ok (some (readyBuild manifest build)), { s with
        builds := s.builds.modify buildId ⟨readyBuild manifest, fun _ => rfl⟩
        buildFiles := buildFiles }) := by
  unfold finalizeBuild
  by_cases ht : (!env.acceptsText manifest.entrypointRelativePath ||
      !env.acceptsText manifest.defaultLaunchArgs) = true
  · exact Or.inl ⟨_, by rw [if_pos ht], by simp⟩
  · rw [if_neg ht]
    have ht' : env.acceptsText manifest.entrypointRelativePath = true ∧
        env.acceptsText manifest.defaultLaunchArgs = true := by simpa using ht
    cases hb : s.builds.find? buildId with
    | none => exact Or.inl ⟨_, rfl, by simp⟩
    | some build =>
        by_cases hu : build.status = .Uploading
        · simp only [hu, ne_eq, not_true_eq_false, if_false]
          split
          · exact Or.inl ⟨_, rfl, by simp⟩
          · rename_i hsafe
            split
            · exact Or.inl ⟨_, rfl, by simp⟩
            · rename_i hfk
              cases hi : s.buildFiles.insertAll (manifestRows env buildId manifest.files) with
              | none => exact Or.inl ⟨_, rfl, by simp⟩
              | some buildFiles =>
                  refine Or.inr ⟨build, buildFiles, rfl, hu, ht'.1, ht'.2, ?_, ?_, rfl, rfl⟩
                  · intro f hf
                    simp only [List.any_eq_true, not_exists, not_and] at hsafe
                    simpa using hsafe f hf
                  · intro f hf
                    simp only [List.any_eq_true, not_exists, not_and] at hfk
                    simpa [Option.isNone_iff_eq_none, Option.ne_none_iff_exists'] using hfk f hf
        · refine Or.inl ⟨.ok none, ?_, by simp⟩
          simp only [ne_eq, hu, not_false_eq_true, if_true]

theorem markFailed_cases (buildId : Uuid) :
    s.markFailed buildId = (false, s) ∨
    ∃ build, s.builds.find? buildId = some build ∧ build.status ≠ .Ready ∧
      s.markFailed buildId = (true, { s with
        builds := s.builds.modify buildId ⟨fun b => { b with status := .Failed }, fun _ => rfl⟩ }) := by
  unfold markFailed
  cases hb : s.builds.find? buildId with
  | none => exact Or.inl rfl
  | some build =>
      by_cases hr : build.status ≠ .Ready
      · exact Or.inr ⟨build, rfl, hr, by simp only [if_pos hr]⟩
      · exact Or.inl (by simp only [if_neg hr])

variable {s} in
theorem findOwnership_eq_some {id : Uuid} {o : BuildOwnership} :
    s.findOwnership id = some o ↔ ∃ b v g, s.builds.find? id = some b ∧
      s.versions.find? b.gameVersionId = some v ∧ s.games.find? v.gameId = some g ∧
      o = { buildId := b.id, gameVersionId := b.gameVersionId, gameId := v.gameId,
            publisherUserId := g.publisherUserId, visibility := g.visibility, status := b.status,
            versionPublished := v.published } := by
  unfold findOwnership
  constructor
  · intro h
    obtain ⟨b, hb, h⟩ := Option.bind_eq_some_iff.mp h
    obtain ⟨v, hv, h⟩ := Option.bind_eq_some_iff.mp h
    obtain ⟨g, hg, h⟩ := Option.bind_eq_some_iff.mp h
    exact ⟨b, v, g, hb, hv, hg, (Option.some.inj h).symm⟩
  · rintro ⟨b, v, g, hb, hv, hg, rfl⟩
    simp [hb, hv, hg]

/-- A build that a deletion of versions leaves still has its version. -/
theorem cascadeVersions_references {doomed : GameVersion → Bool} {b : Build}
    (hb : b ∈ (s.cascadeVersions doomed).builds)
    (hv : (s.versions.find? b.gameVersionId).isSome = true) :
    ((s.cascadeVersions doomed).versions.find? b.gameVersionId).isSome = true := by
  obtain ⟨_, hkept⟩ := Table.mem_delete.mp hb
  obtain ⟨v, hfound⟩ := Option.isSome_iff_exists.mp hv
  rw [hfound] at hkept
  have hleft : (s.versions.delete doomed).find? b.gameVersionId = some v :=
    Table.find?_delete.mpr ⟨hfound, hkept⟩
  show ((s.versions.delete doomed).find? b.gameVersionId).isSome = true
  rw [hleft]
  rfl

end State

/-! ## Frames -/

/-- What the call `c` leaves alone between `s` and `s'`. Time only passes outside. -/
structure Frame {α : Type} (c : Call α) (s s' : State) : Prop where
  now : s'.now = s.now
  users : c.writesUsers = false → s'.users = s.users
  blobs : c.writesBlobs = false → s'.blobs = s.blobs
  sessions : c.writesSessions = false → s'.sessions = s.sessions
  builds : c.writesBuilds = false → s'.builds = s.builds
  buildFiles : c.writesBuilds = false → s'.buildFiles = s.buildFiles
  files : c.writesFiles = false → s'.files = s.files
  issued : c.issues = false → s'.issued = s.issued

theorem Frame.refl {α : Type} (c : Call α) (s : State) : Frame c s s := by
  constructor <;> intros <;> rfl

theorem exec_frame (env : Env) (choice : Choice) {α : Type} (c : Call α) (s : State) :
    Frame c s (exec env choice c s).2 := by
  cases c with
  | chargeUpload u n =>
      obtain e | ⟨_, _, _, e⟩ := s.chargeUpload_cases u n <;> rw [exec, e] <;>
        constructor <;> simp [Call.writesUsers]
  | recordBlob h n k u =>
      obtain ⟨_, _, e⟩ | ⟨_, e⟩ := s.recordBlob_cases h n k u <;> rw [exec, e] <;>
        constructor <;> simp [Call.writesBlobs]
  | deleteIfUnreferenced h a =>
      obtain e | ⟨_, _, _, e⟩ := s.deleteIfUnreferenced_cases h a <;> rw [exec, e] <;>
        constructor <;> simp [Call.writesBlobs]
  | insertSession u =>
      obtain e | ⟨_, _, _, e⟩ := s.insertSession_cases choice u <;> rw [exec, e] <;>
        constructor <;> simp [Call.writesSessions, Call.issues]
  | reserveBytes id o n =>
      obtain e | ⟨_, _, _, _, _, _, e⟩ := s.reserveBytes_cases id o n <;> rw [exec, e] <;>
        constructor <;> simp [Call.writesSessions]
  | markCompleted id =>
      obtain e | ⟨_, _, _, e⟩ := s.closeSession_cases id .Completed <;> rw [exec, e] <;>
        constructor <;> simp [Call.writesSessions]
  | markAborted id =>
      obtain e | ⟨_, _, _, e⟩ := s.closeSession_cases id .Aborted <;> rw [exec, e] <;>
        constructor <;> simp [Call.writesSessions]
  | createBuild b =>
      obtain e | ⟨_, e⟩ := s.createBuild_cases choice b <;> rw [exec, e] <;>
        constructor <;> simp [Call.writesBuilds, Call.issues]
  | finalizeBuild id m =>
      obtain ⟨_, e, _⟩ | ⟨_, _, _, _, _, _, _, _, _, e⟩ :=
          s.finalizeBuild_cases env id m <;> rw [exec, e] <;>
        constructor <;> simp [Call.writesBuilds]
  | markFailed id =>
      obtain e | ⟨_, _, _, e⟩ := s.markFailed_cases id <;> rw [exec, e] <;>
        constructor <;> simp [Call.writesBuilds]
  | releaseUpload u n => constructor <;> simp [exec, State.releaseUpload, Call.writesUsers]
  | deleteSession id => constructor <;> simp [exec, State.deleteSession, Call.writesSessions]
  | removeBuild id =>
      constructor <;>
        simp [exec, State.removeBuild, State.cascadeBuilds, Call.writesSessions, Call.writesBuilds]
  | removeVersion id =>
      constructor <;> simp [exec, State.removeVersion, State.cascadeVersions, State.cascadeBuilds,
        Call.writesSessions, Call.writesBuilds]
  | removeGame id =>
      constructor <;> simp [exec, State.removeGame, State.cascadeVersions, State.cascadeBuilds,
        Call.writesSessions, Call.writesBuilds]
  | writeAt p o d => constructor <;> simp [exec, Call.writesFiles]
  | commit p h => constructor <;> simp [exec, Call.writesFiles]
  | discard p => constructor <;> simp [exec, Call.writesFiles]
  | _ => exact Frame.refl _ _

theorem Frame.of_exec {env : Env} {choice : Choice} {α : Type} {c : Call α} {s s' : State} {r : α}
    (e : exec env choice c s = (r, s')) : Frame c s s' := by
  have hf := exec_frame env choice c s
  rw [e] at hf
  exact hf

/-- A call that leaves builds alone leaves games and versions alone. -/
theorem exec_quiet (env : Env) (choice : Choice) {α : Type} (c : Call α) (s : State)
    (hw : c.writesBuilds = false) :
    (exec env choice c s).2.games = s.games ∧ (exec env choice c s).2.versions = s.versions := by
  cases c with
  | chargeUpload u n =>
      obtain e | ⟨_, _, _, e⟩ := s.chargeUpload_cases u n <;> rw [exec, e] <;> exact ⟨rfl, rfl⟩
  | recordBlob h n k u =>
      obtain ⟨_, _, e⟩ | ⟨_, e⟩ := s.recordBlob_cases h n k u <;> rw [exec, e] <;> exact ⟨rfl, rfl⟩
  | deleteIfUnreferenced h a =>
      obtain e | ⟨_, _, _, e⟩ := s.deleteIfUnreferenced_cases h a <;> rw [exec, e] <;>
        exact ⟨rfl, rfl⟩
  | insertSession u =>
      obtain e | ⟨_, _, _, e⟩ := s.insertSession_cases choice u <;> rw [exec, e] <;>
        exact ⟨rfl, rfl⟩
  | reserveBytes id o n =>
      obtain e | ⟨_, _, _, _, _, _, e⟩ := s.reserveBytes_cases id o n <;> rw [exec, e] <;>
        exact ⟨rfl, rfl⟩
  | markCompleted id =>
      obtain e | ⟨_, _, _, e⟩ := s.closeSession_cases id .Completed <;> rw [exec, e] <;>
        exact ⟨rfl, rfl⟩
  | markAborted id =>
      obtain e | ⟨_, _, _, e⟩ := s.closeSession_cases id .Aborted <;> rw [exec, e] <;>
        exact ⟨rfl, rfl⟩
  | createBuild b => cases hw
  | finalizeBuild id m => cases hw
  | markFailed id => cases hw
  | removeBuild id => cases hw
  | removeVersion id => cases hw
  | removeGame id => cases hw
  | _ => exact ⟨rfl, rfl⟩

theorem exec_games (env : Env) (choice : Choice) {α : Type} (c : Call α) (s : State)
    (h : c.removesGame = false) : (exec env choice c s).2.games = s.games := by
  cases hw : c.writesBuilds with
  | false => exact (exec_quiet env choice c s hw).1
  | true =>
      cases c with
      | createBuild b => obtain e | ⟨_, e⟩ := s.createBuild_cases choice b <;> rw [exec, e]
      | finalizeBuild id m =>
          obtain ⟨_, e, _⟩ | ⟨_, _, _, _, _, _, _, _, _, e⟩ :=
            s.finalizeBuild_cases env id m <;> rw [exec, e]
      | markFailed id => obtain e | ⟨_, _, _, e⟩ := s.markFailed_cases id <;> rw [exec, e]
      | removeBuild id => rfl
      | removeVersion id => rfl
      | removeGame id => cases h
      | _ => cases hw

/-- Of games and versions, a call deletes some or leaves them alone. -/
theorem exec_removes (env : Env) (choice : Choice) {α : Type} (c : Call α) (s : State) :
    (∃ p, (exec env choice c s).2.games = s.games.delete p) ∧
      ∃ p, (exec env choice c s).2.versions = s.versions.delete p := by
  have hsame : ∀ {s' : State}, s'.games = s.games → s'.versions = s.versions →
      (∃ p, s'.games = s.games.delete p) ∧ ∃ p, s'.versions = s.versions.delete p := by
    intro s' hg hv
    rw [hg, hv]
    exact ⟨⟨fun _ => false, (Table.delete_eq_self (fun _ _ => rfl)).symm⟩,
      ⟨fun _ => false, (Table.delete_eq_self (fun _ _ => rfl)).symm⟩⟩
  cases hw : c.writesBuilds with
  | false =>
      obtain ⟨hg, hv⟩ := exec_quiet env choice c s hw
      exact hsame hg hv
  | true =>
      cases c with
      | createBuild b =>
          obtain e | ⟨_, e⟩ := s.createBuild_cases choice b <;> rw [exec, e] <;> exact hsame rfl rfl
      | finalizeBuild id m =>
          obtain ⟨_, e, _⟩ | ⟨_, _, _, _, _, _, _, _, _, e⟩ :=
              s.finalizeBuild_cases env id m <;> rw [exec, e] <;> exact hsame rfl rfl
      | markFailed id =>
          obtain e | ⟨_, _, _, e⟩ := s.markFailed_cases id <;> rw [exec, e] <;> exact hsame rfl rfl
      | removeBuild id => exact hsame rfl rfl
      | removeVersion id => exact ⟨(hsame rfl rfl).1, ⟨_, rfl⟩⟩
      | removeGame id => exact ⟨⟨_, rfl⟩, ⟨_, rfl⟩⟩
      | _ => cases hw

/-- No id is taken back. -/
theorem exec_issued (env : Env) (choice : Choice) {α : Type} (c : Call α) (s : State) (id : Uuid)
    (h : id ∈ s.issued) : id ∈ (exec env choice c s).2.issued := by
  cases hi : c.issues with
  | false => rw [(exec_frame env choice c s).issued hi]; exact h
  | true =>
      cases c with
      | insertSession u =>
          obtain e | ⟨_, _, _, e⟩ := s.insertSession_cases choice u <;> rw [exec, e]
          · exact h
          · exact List.mem_cons_of_mem _ h
      | createBuild b =>
          obtain e | ⟨_, e⟩ := s.createBuild_cases choice b <;> rw [exec, e]
          · exact h
          · exact List.mem_cons_of_mem _ h
      | _ => cases hi

theorem exec_commit {env : Env} {choice : Choice} {s s' : State} {staging : Path}
    {sha256 : Bytes} {r : VoidResult} (e : exec env choice (.commit staging sha256) s = (r, s')) :
    commit env.sha256Hex s.files choice.fault staging sha256 = (r, s'.files) := by
  cases e
  rfl

end Launcher
