import Launcher.Invariants.Resuming

set_option autoImplicit false

/-! # Sessions that are handed out

A negotiation is answered with the open session of the build for the hash if there is one, and
such a session may be of any age: it may have expired without having been swept, it may have been
opened for another size, and a range of it may be reserved that nobody has written yet.
`session_usable_iff` proves that these three are exactly the ways in which the answer is of no
use. `staleSession` is a session that has expired, `resizedSession` one of another size. -/

namespace Launcher.HandedOut

open Launcher.Lib Launcher.Resuming

/-- The chunk, sent at the offset of the session. -/
def sending (actor : Actor) (session : UploadSession) (chunk : Bytes) : Task :=
  .uploadChunk (uploadChunk actor (uuidText session.id) session.receivedBytes chunk)

/-- A call in which the file system refuses nothing. -/
def calm : Choice := ⟨0, .none⟩

/-- The first three calls of the request find the session, reserve the range and write the bytes;
what is left of it is the completion of the upload, if the chunk was the last one. -/
def Accepted (env : Env) (s : State) (actor : Actor) (session : UploadSession) (chunk : Bytes) :
    Prop :=
  ∃ s' reserved, (server env).alone s (sending actor session chunk) [calm, calm, calm]
      = ⟨s', [.uploadChunk (written session reserved (.ok ()))]⟩ ∧
    reserved.receivedBytes = session.receivedBytes + chunk.length

/-- The session takes the file it was asked for. -/
structure Usable (env : Env) (s : State) (actor : Actor) (blob : BlobDeclaration)
    (session : UploadSession) : Prop where
  pending : session.status = .Pending
  unexpired : session.expired = false
  owner : session.userId = actor.userId
  size : (session.declaredSizeBytes : Int) = blob.sizeBytes
  next : ∀ chunk : Bytes, chunk ≠ [] → (chunk.length : Int) ≤ env.uploads.maxChunkBytes →
    session.receivedBytes + chunk.length ≤ session.declaredSizeBytes →
    Accepted env s actor session chunk

section Chunk

variable {env : Env} {s : State} {actor : Actor} {row : UploadSessionRow} {chunk : Bytes}

/-- Only a file that is not there yet refuses an offset. -/
theorem writeAt_calm (files : Files) (staging : Path) (offset : Nat) (data : Bytes) :
    (writeAt files .none staging offset data).1 = .ok () ↔
      offset = 0 ∨ (files staging).isSome = true := by
  have hnonneg : ¬((offset : Int) < 0) := by omega
  cases hfile : files staging with
  | some content => simp [writeAt, hnonneg, hfile, writeOpened]
  | none =>
      by_cases hzero : offset = 0
      · simp [writeAt, hfile, hzero, writeOpened]
      · simp [writeAt, hnonneg, hfile, hzero, failure]

/-- The session after the range of the chunk is reserved. -/
def reserved (s : State) (row : UploadSessionRow) (chunk : Bytes) : UploadSession :=
  { row with receivedBytes := row.receivedBytes + chunk.length : UploadSessionRow }.read s.now

/-- The three calls of a chunk that passes every check. -/
theorem alone_sending (hfind : s.sessions.find? row.id = some row)
    (hpending : row.status = .Pending) (hexpires : s.now < row.expiresAt)
    (howner : row.userId = actor.userId)
    (hlength : (chunk.length : Int) ≤ env.uploads.maxChunkBytes)
    (hfits : row.receivedBytes + chunk.length ≤ row.declaredSizeBytes) :
    ∃ s', (server env).alone s (sending actor (row.read s.now) chunk) [calm, calm, calm]
      = ⟨s', [.uploadChunk (written (row.read s.now) (reserved s row chunk)
          (writeAt s.files .none (stagingPathFor row.id) row.receivedBytes chunk).1)]⟩ := by
  have hstart : sending actor (row.read s.now) chunk
      = .uploadChunk (.findSession actor row.id row.receivedBytes chunk) := by
    rw [sending, uploadChunk, isUuid_uuidText, uuidOf_uuidText]
    rfl
  have hfound : s.findSession row.id = some (row.read s.now) := by
    rw [State.findSession, hfind]
    rfl
  have hadmitted : admitted env actor row.receivedBytes chunk (some (row.read s.now))
      = .reserveBytes (row.read s.now) row.receivedBytes chunk := by
    have hstatus : sessionStatus actor (some (row.read s.now)) = .ok (row.read s.now) := by
      simp [sessionStatus, UploadSessionRow.read, howner]
    have hchecks : admitChunk env (row.read s.now) row.receivedBytes chunk = .ok () := by
      have hfits' : ¬((row.declaredSizeBytes : Int) < row.receivedBytes + chunk.length) := by omega
      simp [admitChunk, UploadSessionRow.read, hpending, hexpires, not_lt.mpr hlength, hfits']
    rw [admitted, hstatus]
    simp only [hchecks]
  -- the range is the sender's before a byte is written
  let after : State := { s with
    sessions := s.sessions.modify row.id
      ⟨fun u => { u with receivedBytes := u.receivedBytes + chunk.length }, fun _ => rfl⟩ }
  have hreserve : s.reserveBytes row.id row.receivedBytes chunk.length
      = (some (reserved s row chunk), after) := by
    rw [State.reserveBytes, hfind]
    dsimp only
    rw [if_pos ⟨hpending, hexpires, rfl, hfits⟩]
    rfl
  have hfirst : (server env).alone s (sending actor (row.read s.now) chunk) [calm, calm, calm]
      = (server env).alone s (.uploadChunk (.reserveBytes (row.read s.now) row.receivedBytes
          chunk)) [calm, calm] := by
    rw [hstart, System.alone_cons (S := server env) rfl]
    show (server env).alone s (.uploadChunk (admitted env actor row.receivedBytes chunk
      (s.findSession row.id))) [calm, calm] = _
    rw [hfound, hadmitted]
  have hsecond : (server env).alone s (.uploadChunk (.reserveBytes (row.read s.now)
        row.receivedBytes chunk)) [calm, calm]
      = (server env).alone after (.uploadChunk (.writeAt (row.read s.now) (reserved s row chunk)
          row.receivedBytes chunk)) [calm] := by
    rw [System.alone_cons (S := server env) rfl]
    rw [show (server env).exec calm (.reserveBytes (row.read s.now).id row.receivedBytes
      chunk.length) s = (some (reserved s row chunk), after) from hreserve]
  exact ⟨_, hfirst.trans hsecond⟩

/-- A chunk that passes every check is accepted unless it would leave the beginning of the file
unwritten. -/
theorem accepted_iff (hfind : s.sessions.find? row.id = some row)
    (hpending : row.status = .Pending) (hexpires : s.now < row.expiresAt)
    (howner : row.userId = actor.userId)
    (hlength : (chunk.length : Int) ≤ env.uploads.maxChunkBytes)
    (hfits : row.receivedBytes + chunk.length ≤ row.declaredSizeBytes) :
    Accepted env s actor (row.read s.now) chunk ↔
      row.receivedBytes = 0 ∨ (s.files (stagingPathFor row.id)).isSome = true := by
  obtain ⟨s', halone⟩ := alone_sending hfind hpending hexpires howner hlength hfits
  rw [← writeAt_calm s.files (stagingPathFor row.id) row.receivedBytes chunk]
  constructor
  · rintro ⟨s'', reserved', haccepted, -⟩
    have htask := congrArg World.tasks (halone.symm.trans haccepted)
    cases hwrite : (writeAt s.files .none (stagingPathFor row.id) row.receivedBytes chunk).1 with
    | ok _ => rfl
    | error e =>
        rw [hwrite] at htask
        unfold written at htask
        split_ifs at htask <;> cases htask
  · intro hwritten
    rw [hwritten] at halone
    exact ⟨s', reserved s row chunk, halone, rfl⟩

end Chunk

/-! ## Usable sessions -/

section Usable

variable {env : Env} {s s' : State} {actor : Actor} {buildId : Bytes} {blob : BlobDeclaration}
  {row : UploadSessionRow}

/-- The open session of the build for the hash, if there is one, is in time and of this size, and
its file is there if a part of it has been sent and a part is missing. -/
def Current (s : State) (buildId : Bytes) (blob : BlobDeclaration) : Prop :=
  ∀ row, s.openSession (uuidOf buildId) blob.sha256 = some row →
    s.now < row.expiresAt ∧ (row.declaredSizeBytes : Int) = blob.sizeBytes ∧
      (row.receivedBytes = 0 ∨ row.declaredSizeBytes ≤ row.receivedBytes ∨
        (s.files (stagingPathFor row.id)).isSome = true)

theorem openSession_spec {buildId : Uuid} {sha256 : Bytes}
    (h : s.openSession buildId sha256 = some row) :
    s.sessions.find? row.id = some row ∧ row.status = .Pending := by
  have hmatch := List.find?_some h
  simp only [Bool.and_eq_true, beq_iff_eq] at hmatch
  exact ⟨Table.find?_of_mem (List.mem_of_find?_eq_some h), hmatch.2⟩

/-- An open session of the actor takes the file exactly if it is in time and of its size, and its
file is there if it has to be. -/
theorem usable_iff (hchunk : 0 < env.uploads.maxChunkBytes)
    (hfind : s.sessions.find? row.id = some row) (hpending : row.status = .Pending)
    (howner : row.userId = actor.userId) :
    Usable env s actor blob (row.read s.now) ↔
      s.now < row.expiresAt ∧ (row.declaredSizeBytes : Int) = blob.sizeBytes ∧
        (row.receivedBytes = 0 ∨ row.declaredSizeBytes ≤ row.receivedBytes ∨
          (s.files (stagingPathFor row.id)).isSome = true) := by
  constructor
  · intro h
    have hexpires : s.now < row.expiresAt := by simpa [UploadSessionRow.read] using h.unexpired
    refine ⟨hexpires, h.size, ?_⟩
    by_cases hleft : row.receivedBytes < row.declaredSizeBytes
    · -- one byte more is a chunk that has to be accepted
      have hone : ((List.length [(0 : UInt8)] : Nat) : Int) ≤ env.uploads.maxChunkBytes := by
        rw [List.length_singleton]
        omega
      have haccepted := h.next [0] (by simp) hone hleft
      have hfile := (accepted_iff hfind hpending hexpires howner hone hleft).mp haccepted
      rcases hfile with hzero | hthere
      · exact Or.inl hzero
      · exact Or.inr (Or.inr hthere)
    · exact Or.inr (Or.inl (not_lt.mp hleft))
  · rintro ⟨hexpires, hsize, hfile⟩
    refine
      { pending := hpending
        unexpired := by simpa [UploadSessionRow.read] using hexpires
        owner := howner
        size := hsize
        next := fun chunk hne hlength hfits => ?_ }
    refine (accepted_iff hfind hpending hexpires howner hlength hfits).mpr ?_
    have hpos := List.length_pos_iff.mpr hne
    rcases hfile with hzero | hcomplete | hthere
    · exact Or.inl hzero
    · have hroom : row.receivedBytes + chunk.length ≤ row.declaredSizeBytes := hfits
      omega
    · exact Or.inr hthere

theorem usable_handed (hint : Integrity s) (httl : 0 < env.uploads.sessionTtl)
    (hchunk : 0 < env.uploads.maxChunkBytes) (h : Admitted env s actor buildId blob)
    (hs : Handed env s actor buildId blob s' row) :
    Usable env s' actor blob (row.read s.now) ↔ Current s buildId blob := by
  have howner := hs.owner
  obtain ⟨hfind, hpending⟩ := openSession_spec (hs.openSession hint)
  have hnow : s'.now = s.now := by cases hs <;> rfl
  rw [← hnow, usable_iff hchunk hfind hpending howner]
  cases hs with
  | resumed hopen _ =>
      constructor
      · intro hcurrent row' hopen'
        obtain rfl : row = row' := Option.some.inj (hopen.symm.trans hopen')
        exact hcurrent
      · exact fun hcurrent => hcurrent row hopen
  | @opened row id hopen hid hrow =>
      refine iff_of_true ⟨?_, ?_, Or.inl ?_⟩ (fun row' hopen' => by
        rw [hopen] at hopen'; cases hopen')
      · rw [hrow]
        exact Nat.lt_add_of_pos_right (Nat.mul_pos httl (by decide))
      · rw [hrow]
        exact Int.toNat_of_nonneg (checkDeclaration_ok h.declared).2
      · rw [hrow]
        rfl

/-- **A session that is handed out is usable exactly if it is a new one or a current one.** The
request was made in a reachable state and answered with the session. -/
theorem session_usable_iff {w : Server} (hw : Initial w) (ls : List Move)
    (httl : 0 < env.uploads.sessionTtl) (hchunk : 0 < env.uploads.maxChunkBytes)
    {choices : List Choice} {session : UploadSession}
    (hbegun : (server env).alone ((server env).run w ls).shared (beginning actor buildId blob)
      choices = ⟨s', [handed session]⟩) :
    Usable env s' actor blob session ↔
      Current ((server env).run w ls).shared buildId blob := by
  obtain ⟨h, -, row, hs, rfl⟩ :=
    System.Ends.of_alone (begin_outcome) hbegun rfl session rfl
  exact usable_handed (Integrity.run env hw ls) httl hchunk h hs

end Usable

section Demo

open Launcher.Demo

/-- Alice creates build 10 and opens session 20 of one byte for `contentA`. -/
def opened : List Move := buildCreated ++ sessionOpened 1 alice shaA 1 20

/-- The same, and the session expires. -/
def expired : List Move := opened ++ after 3600

/-- Alice asks for `contentA` again, as a file of `size` bytes. -/
def asked (ls : List Move) (size : Int) : World State Task :=
  (server env).alone ((server env).run start ls).shared (beginning alice (uuidText 10) ⟨shaA, size⟩)
    (List.replicate 6 ⟨21, .none⟩)

theorem session_usable_opened :
    Usable env (asked opened 1).shared alice ⟨shaA, 1⟩ session20 := by
  have hbegun : asked opened 1 = ⟨(asked opened 1).shared, [handed session20]⟩ :=
    eq_handed (by decide +kernel)
  refine (session_usable_iff initial_start opened (by decide) (by decide) hbegun).mpr ?_
  have hopen : ((server env).run start opened).shared.openSession (uuidOf (uuidText 10)) shaA
      = some ⟨20, 10, 1, shaA, 1, 0, .Pending, 3600 * second⟩ := by decide +kernel
  intro row hrow
  obtain rfl := Option.some.inj (hopen.symm.trans hrow)
  exact ⟨by decide +kernel, by decide, Or.inl rfl⟩

/-- **An expired session is handed out** until somebody sweeps it. -/
theorem staleSession :
    (asked expired 1).tasks.map sessionOf = [some { session20 with expired := true }] ∧
    ¬Usable env (asked expired 1).shared alice ⟨shaA, 1⟩ { session20 with expired := true } :=
  ⟨by decide +kernel, fun h => by cases h.unexpired⟩

/-- **A session of another size is handed out**: the hash is asked for as a file of two bytes, and
the session takes one. -/
theorem resizedSession :
    (asked opened 2).tasks.map sessionOf = [some session20] ∧
    ¬Usable env (asked opened 2).shared alice ⟨shaA, 2⟩ session20 :=
  ⟨by decide +kernel, fun h => absurd h.size (by decide)⟩

end Demo

end Launcher.HandedOut
