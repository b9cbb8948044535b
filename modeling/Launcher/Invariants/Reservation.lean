import Launcher.Lib.Ranges
import Launcher.Invariants.Integrity

set_option autoImplicit false

/-! # Reserving byte ranges

A request reads its session once and reserves later, so its snapshot may be arbitrarily old;
what decides is the conditional `UPDATE` of `reserveBytes`. `SessionStep` says what a step can
do to the session rows; `Evolves` is what follows for whole runs. The ranges granted for a
session are collected along the run (`granted`), and they tile the interval from 0 to its
`received_bytes`. -/

namespace Launcher.Reservation

open Launcher.Lib

/-! ## What a step does to a session -/

/-- The columns of a session that no statement changes. -/
def Same (row row' : UploadSessionRow) : Prop :=
  row'.buildId = row.buildId ∧ row'.userId = row.userId ∧ row'.blobSha256 = row.blobSha256 ∧
    row'.declaredSizeBytes = row.declaredSizeBytes ∧ row'.expiresAt = row.expiresAt

/-- A later version of a session: it may have received more, and once closed it stays as it
was closed. -/
structure Later (row row' : UploadSessionRow) : Prop where
  same : Same row row'
  received : row.receivedBytes ≤ row'.receivedBytes
  closed : row.status ≠ .Pending → row'.status = row.status

theorem Later.refl (row : UploadSessionRow) : Later row row :=
  ⟨⟨rfl, rfl, rfl, rfl, rfl⟩, Nat.le_refl _, fun _ => rfl⟩

theorem Later.trans {row row' row'' : UploadSessionRow} (h : Later row row')
    (h' : Later row' row'') : Later row row'' where
  same := by
    obtain ⟨h1, h2, h3, h4, h5⟩ := h.same
    obtain ⟨k1, k2, k3, k4, k5⟩ := h'.same
    exact ⟨k1.trans h1, k2.trans h2, k3.trans h3, k4.trans h4, k5.trans h5⟩
  received := h.received.trans h'.received
  closed hc := by
    have hs : row'.status = row.status := h.closed hc
    exact (h'.closed (hs ▸ hc)).trans hs

/-- Between `s` and `s'`: ids stay issued, time does not run backwards, and a session whose id
was issued is a later version of one that was there. -/
structure Evolves (s s' : State) : Prop where
  issued : ∀ id ∈ s.issued, id ∈ s'.issued
  now : s.now ≤ s'.now
  sessions : ∀ id ∈ s.issued, ∀ row', s'.sessions.find? id = some row' →
    ∃ row, s.sessions.find? id = some row ∧ Later row row'

theorem Evolves.refl (s : State) : Evolves s s :=
  ⟨fun _ h => h, Nat.le_refl _, fun _ _ row' h => ⟨row', h, Later.refl row'⟩⟩

theorem Evolves.trans {s s' s'' : State} (h : Evolves s s') (h' : Evolves s' s'') :
    Evolves s s'' where
  issued id hid := h'.issued id (h.issued id hid)
  now := h.now.trans h'.now
  sessions id hid row'' hr'' := by
    obtain ⟨row', hr', hl'⟩ := h'.sessions id (h.issued id hid) row'' hr''
    obtain ⟨row, hr, hl⟩ := h.sessions id hid row' hr'
    exact ⟨row, hr, hl.trans hl'⟩

/-- Statements that leave the sessions alone. -/
theorem evolves_of_sessions {s s' : State} (hi : ∀ id ∈ s.issued, id ∈ s'.issued)
    (hn : s.now ≤ s'.now) (hs : s'.sessions = s.sessions) : Evolves s s' := by
  refine ⟨hi, hn, fun id _ row' hr => ?_⟩
  rw [hs] at hr
  exact ⟨row', hr, Later.refl row'⟩

/-- Statements that update one session to a later version of it. -/
theorem evolves_of_modify {s : State} {id : Uuid} {row : UploadSessionRow}
    {f : Table.Update UploadSessionRow.id} (hr : s.sessions.find? id = some row)
    (hl : Later row (f.1 row)) : Evolves s { s with sessions := s.sessions.modify id f } := by
  refine ⟨fun _ h => h, Nat.le_refl _, fun id' _ row' hr' => ?_⟩
  rw [Table.find?_modify] at hr'
  by_cases he : id' = id
  · rw [if_pos he, hr, Option.map_some, Option.some.injEq] at hr'
    subst hr'
    exact ⟨row, he ▸ hr, hl⟩
  · rw [if_neg he] at hr'
    exact ⟨row', hr', Later.refl row'⟩

/-- Statements that delete sessions. -/
theorem evolves_of_delete {s s' : State} {p : UploadSessionRow → Bool}
    (hi : s'.issued = s.issued) (hn : s'.now = s.now)
    (hs : s'.sessions = s.sessions.delete p) : Evolves s s' := by
  refine ⟨fun id h => by rw [hi]; exact h, Nat.le_of_eq hn.symm, fun id _ row' hr => ?_⟩
  rw [hs] at hr
  exact ⟨row', (Table.find?_delete.mp hr).1, Later.refl row'⟩

/-- A new session has a new id. -/
theorem evolves_of_insert {s : State} (row : UploadSessionRow) (hid : row.id ∉ s.issued) :
    Evolves s { s with
      sessions := s.sessions.insert row
      issued := row.id :: s.issued } := by
  refine ⟨fun id h => List.mem_cons_of_mem _ h, Nat.le_refl _, fun id h row' hr => ?_⟩
  have hne : id ≠ row.id := fun e => hid (e ▸ h)
  have hr' : (s.sessions.insert row).find? id = some row' := hr
  rw [Table.find?_insert_ne hne] at hr'
  exact ⟨row', hr', Later.refl row'⟩

theorem evolves_exec (env : Env) {α : Type} (choice : Choice) (c : Call α) (s : State) :
    Evolves s (exec env choice c s).2 := by
  have hf := exec_frame env choice c s
  have hnow : s.now ≤ (exec env choice c s).2.now := Nat.le_of_eq hf.now.symm
  by_cases hw : c.writesSessions = true
  · cases c with
    | insertSession session =>
        obtain e | ⟨_, hid, _, e⟩ := s.insertSession_cases choice session <;>
          simp only [exec, e]
        · exact Evolves.refl s
        · exact evolves_of_insert (s.newSessionRow choice.uuid session) hid
    | reserveBytes id offset count =>
        obtain e | ⟨row, hr, _, _, _, _, e⟩ := s.reserveBytes_cases id offset count <;>
          simp only [exec, e]
        · exact Evolves.refl s
        · exact evolves_of_modify hr
            ⟨⟨rfl, rfl, rfl, rfl, rfl⟩, Nat.le_add_right _ _, fun _ => rfl⟩
    | markCompleted id =>
        obtain e | ⟨row, hr, hp, e⟩ := s.closeSession_cases id .Completed <;>
          simp only [exec, e]
        · exact Evolves.refl s
        · exact evolves_of_modify hr
            ⟨⟨rfl, rfl, rfl, rfl, rfl⟩, Nat.le_refl _, fun hn => absurd hp hn⟩
    | markAborted id =>
        obtain e | ⟨row, hr, hp, e⟩ := s.closeSession_cases id .Aborted <;>
          simp only [exec, e]
        · exact Evolves.refl s
        · exact evolves_of_modify hr
            ⟨⟨rfl, rfl, rfl, rfl, rfl⟩, Nat.le_refl _, fun hn => absurd hp hn⟩
    | deleteSession id => exact evolves_of_delete rfl rfl rfl
    | removeBuild id => exact evolves_of_delete rfl rfl rfl
    | removeVersion id => exact evolves_of_delete rfl rfl rfl
    | removeGame id => exact evolves_of_delete rfl rfl rfl
    | _ => cases hw
  · refine evolves_of_sessions ?_ hnow (hf.sessions (by simpa using hw))
    cases c with
    | insertSession session => simp [Call.writesSessions] at hw
    | createBuild build =>
        obtain e | ⟨_, e⟩ := s.createBuild_cases choice build <;> simp only [exec, e]
        · exact fun _ h => h
        · exact fun _ h => List.mem_cons_of_mem _ h
    | _ => exact fun id h => (hf.issued rfl) ▸ h

theorem evolves_outside (e : Outside) (s : State) : Evolves s (outside e s) := by
  cases e with
  | tick duration => exact evolves_of_sessions (fun _ h => h) (Nat.le_add_right _ _) rfl
  | _ => exact evolves_of_sessions (fun _ h => h) (Nat.le_refl _) rfl

/-- **A session only grows, and once closed it stays closed**, over any run. -/
theorem evolves_run (env : Env) (w : Server) (ls : List Move) :
    Evolves w.shared ((server env).run w ls).shared :=
  System.shared_relation (S := server env) (G := fun _ => True) Evolves.refl
    (fun _ _ _ h h' => h.trans h')
    (fun choice c s _ => ⟨trivial, evolves_exec env choice c s⟩)
    (fun e s _ => ⟨trivial, evolves_outside e s⟩) ls w trivial

/-! ## Bounds, hashes, and one open session for each file of a build -/

structure SessionsOk (s : State) : Prop where
  bounded : ∀ u ∈ s.sessions, u.receivedBytes ≤ u.declaredSizeBytes
  hashes : ∀ u ∈ s.sessions, isSha256Hex u.blobSha256 = true
  /-- `upload_sessions_open_unique`: the partial unique index on open sessions. -/
  single : ∀ u ∈ s.sessions, ∀ v ∈ s.sessions, u.status = .Pending → v.status = .Pending →
    u.buildId = v.buildId → u.blobSha256 = v.blobSha256 → u = v

theorem sessionsOk_of_sessions {s s' : State} (h : SessionsOk s)
    (hs : ∀ u ∈ s'.sessions, u ∈ s.sessions) : SessionsOk s' where
  bounded u hu := h.bounded u (hs u hu)
  hashes u hu := h.hashes u (hs u hu)
  single u hu v hv := h.single u (hs u hu) v (hs v hv)

/-- A row of the updated table has the build, hash and status of the row it was, except that
it may have left `Pending`. -/
theorem pending_of_modify {t : Table UploadSessionRow.id} {id : Uuid}
    {f : Table.Update UploadSessionRow.id}
    (hf : ∀ r, Same r (f.1 r) ∧ ((f.1 r).status = .Pending → r.status = .Pending))
    {u' : UploadSessionRow} (hu' : u' ∈ t.modify id f) :
    ∃ u ∈ t, u.id = u'.id ∧ u'.buildId = u.buildId ∧ u'.blobSha256 = u.blobSha256 ∧
      (u'.status = .Pending → u.status = .Pending) := by
  obtain ⟨u, hu, _, rfl⟩ | ⟨hu, _⟩ := Table.mem_modify.mp hu'
  · obtain ⟨⟨h1, _, h3, _, _⟩, hp⟩ := hf u
    exact ⟨u, hu, (f.2 u).symm, h1, h3, hp⟩
  · exact ⟨u', hu, rfl, rfl, rfl, fun h => h⟩

theorem sessionsOk_of_modify {s : State} {id : Uuid} {row : UploadSessionRow}
    {f : Table.Update UploadSessionRow.id} (h : SessionsOk s)
    (hr : s.sessions.find? id = some row)
    (hb : (f.1 row).receivedBytes ≤ (f.1 row).declaredSizeBytes)
    (hf : ∀ r, Same r (f.1 r) ∧ ((f.1 r).status = .Pending → r.status = .Pending)) :
    SessionsOk { s with sessions := s.sessions.modify id f } where
  bounded u hu := by
    obtain ⟨v, hv, hid, rfl⟩ | ⟨hu, _⟩ := Table.mem_modify.mp hu
    · have hvr : v = row := Table.eq_of_key_eq hv (Table.mem_of_find? hr)
        (hid.trans (Table.key_of_find? hr).symm)
      rw [hvr]
      exact hb
    · exact h.bounded u hu
  hashes u hu := by
    obtain ⟨u₀, hu₀, _, _, hsha, _⟩ := pending_of_modify hf hu
    rw [hsha]
    exact h.hashes u₀ hu₀
  single u hu v hv hpu hpv hbuild hsha := by
    obtain ⟨u₀, hu₀, hidu, hbu, hsu, hstu⟩ := pending_of_modify hf hu
    obtain ⟨v₀, hv₀, hidv, hbv, hsv, hstv⟩ := pending_of_modify hf hv
    have heq : u₀ = v₀ := h.single u₀ hu₀ v₀ hv₀ (hstu hpu) (hstv hpv)
      (hbu.symm.trans (hbuild.trans hbv)) (hsu.symm.trans (hsha.trans hsv))
    refine Table.eq_of_key_eq hu hv ?_
    rw [← hidu, ← hidv, heq]

theorem not_open {s : State} {buildId : Uuid} {sha256 : Bytes}
    (h : s.openSession buildId sha256 = none) {u : UploadSessionRow} (hu : u ∈ s.sessions)
    (hp : u.status = .Pending) (hb : u.buildId = buildId) : u.blobSha256 ≠ sha256 := by
  intro hs
  have hno := List.find?_eq_none.mp h u hu
  simp [hp, hb, hs] at hno

theorem sessionsOk_of_insert {s : State} {row : UploadSessionRow} {issued : List Uuid}
    (h : SessionsOk s) (hb : row.receivedBytes ≤ row.declaredSizeBytes)
    (hhex : isSha256Hex row.blobSha256 = true)
    (ho : s.openSession row.buildId row.blobSha256 = none) :
    SessionsOk { s with
      sessions := s.sessions.insert row
      issued := issued } where
  bounded u hu := by
    rcases Table.eq_or_mem_of_mem_insert hu with rfl | hu
    · exact hb
    · exact h.bounded u hu
  hashes u hu := by
    rcases Table.eq_or_mem_of_mem_insert hu with rfl | hu
    · exact hhex
    · exact h.hashes u hu
  single u hu v hv hpu hpv hbuild hsha := by
    rcases Table.eq_or_mem_of_mem_insert hu with hu' | hu' <;>
      rcases Table.eq_or_mem_of_mem_insert hv with hv' | hv'
    · rw [hu', hv']
    · subst hu'
      exact absurd hsha.symm (not_open ho hv' hpv hbuild.symm)
    · subst hv'
      exact absurd hsha (not_open ho hu' hpu hbuild)
    · exact h.single u hu' v hv' hpu hpv hbuild hsha

theorem sessionsOk_exec (env : Env) {α : Type} (choice : Choice) (c : Call α) (s : State)
    (h : SessionsOk s) : SessionsOk (exec env choice c s).2 := by
  by_cases hw : c.writesSessions = true
  · cases c with
    | insertSession session =>
        obtain e | ⟨ho, _, hhex, e⟩ := s.insertSession_cases choice session <;>
          simp only [exec, e]
        · exact h
        · exact sessionsOk_of_insert h (Nat.zero_le _) hhex ho
    | reserveBytes id offset count =>
        obtain e | ⟨row, hr, _, _, _, hfit, e⟩ := s.reserveBytes_cases id offset count <;>
          simp only [exec, e]
        · exact h
        · exact sessionsOk_of_modify h hr hfit
            (fun _ => ⟨⟨rfl, rfl, rfl, rfl, rfl⟩, fun hp => hp⟩)
    | markCompleted id =>
        obtain e | ⟨row, hr, _, e⟩ := s.closeSession_cases id .Completed <;> simp only [exec, e]
        · exact h
        · exact sessionsOk_of_modify h hr (h.bounded row (Table.mem_of_find? hr))
            (fun _ => ⟨⟨rfl, rfl, rfl, rfl, rfl⟩, fun hp => by cases hp⟩)
    | markAborted id =>
        obtain e | ⟨row, hr, _, e⟩ := s.closeSession_cases id .Aborted <;> simp only [exec, e]
        · exact h
        · exact sessionsOk_of_modify h hr (h.bounded row (Table.mem_of_find? hr))
            (fun _ => ⟨⟨rfl, rfl, rfl, rfl, rfl⟩, fun hp => by cases hp⟩)
    | deleteSession id => exact sessionsOk_of_sessions h (fun u hu => (Table.mem_delete.mp hu).1)
    | removeBuild id => exact sessionsOk_of_sessions h (fun u hu => (Table.mem_delete.mp hu).1)
    | removeVersion id => exact sessionsOk_of_sessions h (fun u hu => (Table.mem_delete.mp hu).1)
    | removeGame id => exact sessionsOk_of_sessions h (fun u hu => (Table.mem_delete.mp hu).1)
    | _ => cases hw
  · have hs := (exec_frame env choice c s).sessions (by simpa using hw)
    exact sessionsOk_of_sessions h (fun u hu => hs ▸ hu)

theorem sessionsOk_run (env : Env) {w : Server} (hw : Initial w) (ls : List Move) :
    SessionsOk ((server env).run w ls).shared := by
  refine System.shared_invariant (S := server env)
    (fun choice c s h => sessionsOk_exec env choice c s h) (fun e s h => ?_) ls w ⟨?_, ?_, ?_⟩
  · cases e <;> exact sessionsOk_of_sessions h (fun _ hu => hu)
  all_goals
    intro u hu
    rw [hw.sessions] at hu
    cases hu

/-! ## The history of grants -/

/-- The range the step grants for the session `id`, if it is a successful `reserveBytes`. -/
def granted (id : Uuid) (w : Server) : Move → List Range
  | .resume i _ =>
      match w.tasks[i]? with
      | some (.uploadChunk (.reserveBytes session offset chunk)) =>
          if session.id = id ∧ (w.shared.reserveBytes id offset chunk.length).1.isSome then
            [⟨offset.toNat, chunk.length⟩]
          else []
      | _ => []
  | _ => []

/-- The ranges granted so far tile the session from 0 to `received_bytes`. -/
structure Granted (id : Uuid) (s : State) (ranges : List Range) : Prop where
  fresh : id ∉ s.issued → ranges = []
  row : ∀ row, s.sessions.find? id = some row → Tiles 0 ranges row.receivedBytes
  tiles : ∃ b, Tiles 0 ranges b

/-- What is granted is granted from an open session, at the offset it is at. -/
theorem granted_cases {id : Uuid} {w : Server} {l : Move} (h : granted id w l ≠ []) :
    ∃ i choice session offset chunk row, l = .resume i choice ∧
      w.tasks[i]? = some (.uploadChunk (.reserveBytes session offset chunk)) ∧
      session.id = id ∧ w.shared.sessions.find? id = some row ∧ row.status = .Pending ∧
      w.shared.now < row.expiresAt ∧ granted id w l = [⟨row.receivedBytes, chunk.length⟩] ∧
      w.shared.reserveBytes id offset chunk.length =
        (some (({ row with receivedBytes := row.receivedBytes + chunk.length }).read
          w.shared.now), { w.shared with
          sessions := w.shared.sessions.modify id
            ⟨fun u => { u with receivedBytes := u.receivedBytes + chunk.length },
              fun _ => rfl⟩ }) := by
  unfold granted at h
  split at h
  · rename_i i choice
    split at h
    · rename_i session offset chunk hi
      split at h
      · rename_i hc
        obtain e | ⟨row, hr, hp, hexp, hoff, _, e⟩ :=
          w.shared.reserveBytes_cases id offset chunk.length
        · rw [e] at hc
          simp at hc
        · refine ⟨i, choice, session, offset, chunk, row, rfl, hi, hc.1, hr, hp, hexp, ?_, e⟩
          simp only [granted, hi, if_pos hc]
          rw [← hoff, Int.toNat_natCast]
      · exact absurd rfl h
    · exact absurd rfl h
  · exact absurd rfl h

/-- A step that grants nothing for `id`: the session has received what it had, or it is new
and has received nothing. -/
def Unreserved (id : Uuid) (s s' : State) : Prop :=
  ∀ row', s'.sessions.find? id = some row' →
    (∃ row, s.sessions.find? id = some row ∧ row.receivedBytes = row'.receivedBytes) ∨
    (id ∉ s.issued ∧ row'.receivedBytes = 0)

theorem unreserved_of_sessions {id : Uuid} {s s' : State} (h : s'.sessions = s.sessions) :
    Unreserved id s s' :=
  fun row' hr => Or.inl ⟨row', h ▸ hr, rfl⟩

theorem unreserved_of_modify {s : State} {id id' : Uuid}
    {f : Table.Update UploadSessionRow.id}
    (hf : id' = id → ∀ r, (f.1 r).receivedBytes = r.receivedBytes) :
    Unreserved id s { s with sessions := s.sessions.modify id' f } := by
  intro row' hr
  rw [Table.find?_modify] at hr
  by_cases he : id = id'
  · subst he
    rw [if_pos rfl] at hr
    obtain ⟨row, hrow, rfl⟩ := Option.map_eq_some_iff.mp hr
    exact Or.inl ⟨row, hrow, (hf rfl row).symm⟩
  · rw [if_neg he] at hr
    exact Or.inl ⟨row', hr, rfl⟩

theorem unreserved_of_delete {id : Uuid} {s s' : State} {p : UploadSessionRow → Bool}
    (h : s'.sessions = s.sessions.delete p) : Unreserved id s s' := by
  intro row' hr
  rw [h] at hr
  exact Or.inl ⟨row', (Table.find?_delete.mp hr).1, rfl⟩

theorem unreserved_of_insert {id : Uuid} {s s' : State} (row : UploadSessionRow)
    (hid : row.id ∉ s.issued) (hzero : row.receivedBytes = 0)
    (h : s'.sessions = s.sessions.insert row) : Unreserved id s s' := by
  intro row' hr
  rw [h] at hr
  have hkey : row'.id = id := Table.key_of_find? hr
  rcases Table.eq_or_mem_of_mem_insert (Table.mem_of_find? hr) with rfl | hm
  · exact Or.inr ⟨hkey ▸ hid, hzero⟩
  · exact Or.inl ⟨row', Table.find?_eq_some.mpr ⟨hm, hkey⟩, rfl⟩

/-- Every statement but `reserveBytes`. -/
theorem unreserved_exec (env : Env) {α : Type} (choice : Choice) {c : Call α} (s : State)
    (id : Uuid) (hc : c.reserves = false) : Unreserved id s (exec env choice c s).2 := by
  by_cases hw : c.writesSessions = true
  · cases c with
    | insertSession session =>
        obtain e | ⟨_, hid, _, e⟩ := s.insertSession_cases choice session <;> simp only [exec, e]
        · exact unreserved_of_sessions rfl
        · exact unreserved_of_insert (s.newSessionRow choice.uuid session) hid rfl rfl
    | reserveBytes id' offset count => cases hc
    | markCompleted id' =>
        obtain e | ⟨row, hr, _, e⟩ := s.closeSession_cases id' .Completed <;> simp only [exec, e]
        · exact unreserved_of_sessions rfl
        · exact unreserved_of_modify (fun _ _ => rfl)
    | markAborted id' =>
        obtain e | ⟨row, hr, _, e⟩ := s.closeSession_cases id' .Aborted <;> simp only [exec, e]
        · exact unreserved_of_sessions rfl
        · exact unreserved_of_modify (fun _ _ => rfl)
    | deleteSession id' => exact unreserved_of_delete rfl
    | removeBuild id' => exact unreserved_of_delete rfl
    | removeVersion id' => exact unreserved_of_delete rfl
    | removeGame id' => exact unreserved_of_delete rfl
    | _ => cases hw
  · exact unreserved_of_sessions ((exec_frame env choice c s).sessions (by simpa using hw))

/-- A request that reserves grants for its own session or not at all. -/
theorem unreserved_reserve {s : State} {id id' : Uuid} {offset : Int} {count : Nat}
    (h : ¬ (id' = id ∧ (s.reserveBytes id offset count).1.isSome = true)) :
    Unreserved id s (s.reserveBytes id' offset count).2 := by
  obtain e | ⟨row, _, _, _, _, _, e⟩ := s.reserveBytes_cases id' offset count
  · rw [e]
    exact unreserved_of_sessions rfl
  · have hne : id' ≠ id := by
      intro he
      subst he
      rw [e] at h
      exact h ⟨rfl, rfl⟩
    rw [e]
    exact unreserved_of_modify (fun he => absurd he hne)

theorem unreserved_step (env : Env) {w : Server} {l : Move} {id : Uuid}
    (h : granted id w l = []) : Unreserved id w.shared ((server env).step w l).shared := by
  have hrefl : Unreserved id w.shared w.shared := unreserved_of_sessions rfl
  refine System.step_induction (P := fun w' => Unreserved id w.shared w'.shared)
    (fun _ _ => hrefl) (fun i choice t hlab hi => ?_) hrefl (fun e _ => ?_)
  · subst hlab
    by_cases hr : ∃ session offset chunk, t = .uploadChunk (.reserveBytes session offset chunk)
    · obtain ⟨session, offset, chunk, rfl⟩ := hr
      intro r s' e
      have hs' : (w.shared.reserveBytes session.id offset chunk.length).2 = s' :=
        congrArg Prod.snd e
      rw [← hs']
      refine unreserved_reserve (fun hc => ?_)
      simp only [granted, hi, if_pos hc] at h
      cases h
    · have hall : (t.next env).All (fun c _ => c.reserves = false) := by
        by_cases hk : t.kind = .uploadChunk
        · cases t with
          | uploadChunk t =>
              rw [Task.next, Suspended.all_map]
              cases t with
              | reserveBytes session offset chunk =>
                  exact absurd ⟨session, offset, chunk, rfl⟩ hr
              | completing session point => cases point <;> exact rfl
              | _ => trivial
          | _ => cases hk
        · refine (t.next_permits env).mono (fun c _ hp => ?_)
          by_contra hc
          have := hp.1.reserves (by simpa using hc)
          exact hk (by simpa [Kind.reserves] using this)
      refine hall.wp (fun c k hc r s' e => ?_)
      have hs' : (exec env choice c w.shared).2 = s' := congrArg Prod.snd e
      rw [← hs']
      exact unreserved_exec env choice w.shared id hc
  · cases e <;> exact unreserved_of_sessions rfl

theorem issued_of_find? {s : State} (h : Integrity s) {id : Uuid} {row : UploadSessionRow}
    (hr : s.sessions.find? id = some row) : id ∈ s.issued := by
  have hid : row.id = id := Table.key_of_find? hr
  exact hid ▸ h.issuedSessions row (Table.mem_of_find? hr)

/-- **One step of the history.** A grant starts where the ranges so far end. -/
theorem granted_step {env : Env} {w : Server} {l : Move} {id : Uuid} {ranges : List Range}
    (hint : Integrity w.shared) (h : Granted id w.shared ranges) :
    Granted id ((server env).step w l).shared (ranges ++ granted id w l) := by
  have hev : Evolves w.shared ((server env).step w l).shared := evolves_run env w [l]
  by_cases hg : granted id w l = []
  · rw [hg, List.append_nil]
    refine ⟨fun hid => h.fresh (fun hin => hid (hev.issued id hin)), fun row' hr' => ?_, h.tiles⟩
    rcases unreserved_step env hg row' hr' with ⟨row, hr, he⟩ | ⟨hid, hzero⟩
    · rw [← he]
      exact h.row row hr
    · rw [h.fresh hid, hzero]
      exact rfl
  · obtain ⟨i, choice, session, offset, chunk, row, rfl, hi, hid, hr, _, _, hrange, e⟩ :=
      granted_cases hg
    have hshared : ((server env).step w (.resume i choice)).shared
        = (w.shared.reserveBytes session.id offset chunk.length).2 :=
      congrArg World.shared (System.step_resume (server env) hi rfl)
    have hnew := (h.row row hr).snoc chunk.length
    rw [hrange, hshared, hid, e]
    refine ⟨fun hnot => absurd (issued_of_find? hint hr) hnot, fun row' hr' => ?_, _, hnew⟩
    have hfind : (w.shared.sessions.modify id
        ⟨fun u => { u with receivedBytes := u.receivedBytes + chunk.length }, fun _ => rfl⟩).find? id
        = some row' := hr'
    rw [Table.find?_modify_self, hr, Option.map_some, Option.some.injEq] at hfind
    rw [← hfind]
    exact hnew

theorem granted_run (env : Env) {w : Server} (hw : Initial w) (id : Uuid) (ls : List Move) :
    Granted id ((server env).run w ls).shared ((server env).collect (granted id) w ls) := by
  refine (System.history_invariant (S := server env) (f := granted id)
    (I := fun w h => Integrity w.shared ∧ Granted id w.shared h) (A := fun _ _ => True)
    (fun w h l hI _ => ⟨?_, granted_step hI.1 hI.2⟩) ls w []
    ⟨Integrity.initial hw, fun _ => rfl, fun row hr => ?_, 0, rfl⟩ (System.along_true w ls)).2
  · exact System.shared_invariant (fun choice c _ h => h.exec env choice c)
      (fun e _ h => h.outside e) [l] w hI.1
  · rw [hw.sessions] at hr
    cases hr

/-! ## The theorem -/

/-- A session that is closed or past its time. -/
def Over (id : Uuid) (s : State) : Prop :=
  ∀ row, s.sessions.find? id = some row → row.status ≠ .Pending ∨ row.expiresAt ≤ s.now

theorem over_of_evolves {id : Uuid} {s s' : State} (h : Over id s) (hid : id ∈ s.issued)
    (he : Evolves s s') : Over id s' := by
  intro row' hr'
  obtain ⟨row, hr, hl⟩ := he.sessions id hid row' hr'
  obtain ⟨_, _, _, _, hexp⟩ := hl.same
  rcases h row hr with hc | hx
  · left
    rw [hl.closed hc]
    exact hc
  · right
    rw [hexp]
    exact hx.trans he.now

theorem nothing_granted_after (env : Env) {id : Uuid} : ∀ (ls : List Move) (w : Server),
    id ∈ w.shared.issued → Over id w.shared → (server env).collect (granted id) w ls = []
  | [], _, _, _ => rfl
  | l :: ls, w, hid, hover => by
      have hev : Evolves w.shared ((server env).step w l).shared := evolves_run env w [l]
      have hnow : granted id w l = [] := by
        by_contra hg
        obtain ⟨_, _, _, _, _, row, _, _, _, hr, hp, hexp, _, _⟩ := granted_cases hg
        rcases hover row hr with hc | hx
        · exact hc hp
        · omega
      rw [System.collect, hnow, List.nil_append]
      exact nothing_granted_after env ls _ (hev.issued id hid) (over_of_evolves hover hid hev)

/-- **Range reservation.** For every session `id` and every run:

* the non-empty ranges granted for it are pairwise disjoint and follow one another from 0 on;
* while the session exists, their union is exactly `[0, received_bytes)`, and
  `received_bytes ≤ declared_size_bytes`; in every continuation the session only grows, keeps
  its declared size, and keeps the status it was closed with; no other open session is for
  the same file of the same build;
* once it is closed, expired or gone, nothing more is granted for it, and once it is gone it
  does not come back. -/
theorem range_reservation (env : Env) (w : Server) (hw : Initial w) (ls : List Move)
    (id : Uuid) :
    (((server env).collect (granted id) w ls).filter (fun r => decide (0 < r.length))).Pairwise
      (fun r r' => Disjoint r.toSet r'.toSet) ∧
    (∃ b, Tiles 0
      (((server env).collect (granted id) w ls).filter (fun r => decide (0 < r.length))) b) ∧
    (∀ row, ((server env).run w ls).shared.sessions.find? id = some row →
      Tiles 0 (((server env).collect (granted id) w ls).filter (fun r => decide (0 < r.length)))
        row.receivedBytes ∧
      ⋃ r ∈ ((server env).collect (granted id) w ls).filter (fun r => decide (0 < r.length)),
        r.toSet = Set.Ico 0 row.receivedBytes ∧
      row.receivedBytes ≤ row.declaredSizeBytes ∧
      (∀ ls' row', ((server env).run w (ls ++ ls')).shared.sessions.find? id = some row' →
        row.receivedBytes ≤ row'.receivedBytes ∧
        row'.declaredSizeBytes = row.declaredSizeBytes ∧
        (row.status ≠ .Pending → row'.status = row.status)) ∧
      ∀ other ∈ ((server env).run w ls).shared.sessions, row.status = .Pending →
        other.status = .Pending → other.buildId = row.buildId →
        other.blobSha256 = row.blobSha256 → other = row) ∧
    (id ∈ ((server env).run w ls).shared.issued → Over id ((server env).run w ls).shared →
      ∀ ls', (server env).collect (granted id) w (ls ++ ls')
        = (server env).collect (granted id) w ls) ∧
    (id ∈ ((server env).run w ls).shared.issued →
      ((server env).run w ls).shared.sessions.find? id = none →
      ∀ ls', ((server env).run w (ls ++ ls')).shared.sessions.find? id = none) := by
  have hg := granted_run env hw id ls
  have hok := sessionsOk_run env hw ls
  obtain ⟨b, hb⟩ := hg.tiles
  refine ⟨hb.filter_nonempty.disjoint, ⟨b, hb.filter_nonempty⟩, fun row hr => ?_,
    fun hid hover ls' => ?_, fun hid hnone ls' => ?_⟩
  · have hmem := Table.mem_of_find? hr
    have hid : id ∈ ((server env).run w ls).shared.issued :=
      issued_of_find? (Integrity.run env hw ls) hr
    have htiles := (hg.row row hr).filter_nonempty
    refine ⟨htiles, htiles.iUnion, hok.bounded row hmem, fun ls' row' hr' => ?_,
      fun other ho hp hp' hbuild hsha => hok.single other ho row hmem hp' hp hbuild hsha⟩
    rw [System.run_append] at hr'
    obtain ⟨row₀, hr₀, hl⟩ := (evolves_run env _ ls').sessions id hid row' hr'
    have he : row₀ = row := Option.some.inj (hr₀.symm.trans hr)
    subst he
    obtain ⟨_, _, _, hdecl, _⟩ := hl.same
    exact ⟨hl.received, hdecl, hl.closed⟩
  · rw [System.collect_append, nothing_granted_after env ls' _ hid hover, List.append_nil]
  · rw [System.run_append]
    cases hr' : ((server env).run ((server env).run w ls) ls').shared.sessions.find? id with
    | none => rfl
    | some row' =>
        obtain ⟨row, hr, _⟩ := (evolves_run env _ ls').sessions id hid row' hr'
        rw [hnone] at hr
        cases hr

section Demo

open Launcher.Demo

/-- Two bytes in two chunks: the second request is sent twice at the same offset, and one of
the two is refused. -/
def resumed : List Move :=
  buildCreated ++ sessionOpened 1 alice shaEmpty 2 20
    ++ chunkSent alice 20 0 contentA :: go 2 3
    ++ chunkSent alice 20 1 contentA :: chunkSent alice 20 1 contentA :: go 3 1 ++ go 4 2 ++ go 3 1

theorem range_reservation_resumed :
    (server env).collect (granted 20) start resumed = [⟨0, 1⟩, ⟨1, 1⟩] ∧
    (((server env).collect (granted 20) start resumed).filter
      (fun r => decide (0 < r.length))).Pairwise (fun r r' => Disjoint r.toSet r'.toSet) :=
  ⟨by decide +kernel, (range_reservation env start initial_start resumed 20).1⟩

end Demo

end Launcher.Reservation
