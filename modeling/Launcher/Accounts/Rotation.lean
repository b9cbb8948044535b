import Launcher.Accounts.Sessions

set_option autoImplicit false

/-! # Rotation of refresh tokens

A refresh presents a token, checks that its row is not revoked, reads the account and its
permissions, and only then makes the statement that inserts the successor and revokes the
presented row. Whether that row is still unrevoked then is not asked again: the insert happens
either way. `rotation_linear` proves that rotation is linear in every run in which the row
always is, and `racingRefreshes_fork` that it is not when two refreshes of one token meet
between the check and the statement. -/

namespace Launcher.Accounts

open Launcher.Lib

/-! ## Exchanges -/

/-- The exchange a step makes: the task and the id of the token it exchanged. -/
def exchanges (env : Env) (w : Server) : Move → List (Nat × Uuid)
  | .resume i choice =>
      match (w.tasks[i]?).bind Task.rotation with
      | none => []
      | some (stored, user, client) =>
          match (w.shared.rotate env choice stored.id user.id stored.familyId client).1 with
          | .error _ => []
          | .ok _ => [(i, stored.id)]
  | _ => []

/-- If the step is a rotation, the row of the presented token is there and not revoked. -/
def rotatesLive (w : Server) : Move → Bool
  | .resume i _ =>
      match (w.tasks[i]?).bind Task.rotation with
      | none => true
      | some (stored, _, _) =>
          w.shared.refreshTokens.rows.any (fun row => row.id == stored.id && row.live)
  | _ => true

/-- Of every family at most one token is live. -/
def OneLive (s : State) : Prop :=
  ∀ row ∈ s.refreshTokens, ∀ row' ∈ s.refreshTokens, row.live = true → row'.live = true →
    row.familyId = row'.familyId → row = row'

/-- Rotation is linear up to the end of the run: a family has at most one live token, a token
is exchanged at most once (so that of two parties holding it at most one gets a successor), and
whoever presents an exchanged token afterwards burns its family, whatever happens in between. -/
structure Linear (env : Env) (w : Server) (ls : List Move) : Prop where
  oneLive : OneLive ((server env).run w ls).shared
  exchangedOnce : (((server env).collect (exchanges env) w ls).map Prod.snd).Nodup
  oneSuccessor : ∀ i j id, (i, id) ∈ (server env).collect (exchanges env) w ls →
    (j, id) ∈ (server env).collect (exchanges env) w ls → i = j
  burnt : ∀ i refreshToken client, ∀ row ∈ ((server env).run w ls).shared.refreshTokens,
    ((server env).run w ls).tasks[i]? = some (.refresh (.findByHash refreshToken client)) →
    row.tokenHash = env.sha256Hex refreshToken →
    row.id ∈ ((server env).collect (exchanges env) w ls).map Prod.snd →
    ∀ choice choice' mid, (∀ c, .resume i c ∉ mid) →
      let w' := (server env).run w (ls ++ .resume i choice :: (mid ++ [.resume i choice']))
      (∀ row' ∈ w'.shared.refreshTokens, row'.familyId = row.familyId → row'.live = false) ∧
        w'.tasks[i]? =
          some (.refresh (.answered (failure .Unauthenticated INVALID_REFRESH_TOKEN)))

/-! ## One step -/

theorem IssueSession.rotation_eq {t : IssueSession} {stored : RefreshTokenRecord}
    {user : Account} {client : ClientContext} (h : t.rotation = some (stored, user, client)) :
    ∃ permissions, t = .store user permissions (some stored) client := by
  cases t with
  | store user' permissions origin client' =>
      cases origin with
      | none => cases h
      | some stored' => cases h; exact ⟨permissions, rfl⟩
  | _ => cases h

/-- A coroutine with a rotation is in front of the rotating statement. -/
theorem next_rotation (env : Env) {t : Task} {stored : RefreshTokenRecord} {user : Account}
    {client : ClientContext} (h : t.rotation = some (stored, user, client)) :
    t.check = some (user.id, some stored) ∧
      ∃ k, t.next env = .call (.rotate stored.id user.id stored.familyId client) k := by
  unfold Task.rotation at h
  split at h
  · obtain ⟨p, rfl⟩ := IssueSession.rotation_eq h; exact ⟨rfl, _, rfl⟩
  · obtain ⟨p, rfl⟩ := IssueSession.rotation_eq h; exact ⟨rfl, _, rfl⟩
  · obtain ⟨p, rfl⟩ := IssueSession.rotation_eq h; exact ⟨rfl, _, rfl⟩
  · cases h

/-- What rotation has kept so far: the world is sound, families have one live token, and the
tokens exchanged are all different and none of them is live. -/
structure LinearSoFar (w : Server) (h : List (Nat × Uuid)) : Prop where
  sound : Sound w
  oneLive : OneLive w.shared
  nodup : (h.map Prod.snd).Nodup
  spent : ∀ e ∈ h, e.2 ∈ w.shared.issued ∧
    ∀ row ∈ w.shared.refreshTokens, row.id = e.2 → row.live = false

section Step

variable {env : Env} {w : Server} {i : Nat} {t t' : Task} {s' : State}

/-- A token that is not live does not become live. -/
theorem spent_step (hstep : SessionStep w.shared t s' t') {id : Uuid}
    (h : id ∈ w.shared.issued ∧ ∀ row ∈ w.shared.refreshTokens, row.id = id → row.live = false) :
    id ∈ s'.issued ∧ ∀ row ∈ s'.refreshTokens, row.id = id → row.live = false := by
  refine ⟨hstep.issued id h.1, fun row' hrow hid => ?_⟩
  rcases hstep.rows row' hrow with ⟨row, hr, hlater⟩ | hnew
  · have hdead := h.2 row hr (hlater.id ▸ hid)
    by_contra hl
    have heq := hlater.unchanged (by simpa using hl)
    rw [← heq] at hdead
    exact hl hdead
  · exact (hnew.fresh (hid ▸ h.1)).elim

/-- A new row is the only live one of its family, if a rotated token is live before. -/
theorem New.only_live {row row' : RefreshToken} (hs : Sound w) (ho : OneLive w.shared)
    (hi : w.tasks[i]? = some t)
    (hlive : ∀ stored user client, t.rotation = some (stored, user, client) →
      ∃ r ∈ w.shared.refreshTokens, r.id = stored.id ∧ r.live = true)
    (hnew : New t w.shared s' row) (hr' : row' ∈ w.shared.refreshTokens)
    (hrow' : row' ∈ s'.refreshTokens) (hl' : row'.live = true) :
    row.familyId ≠ row'.familyId := by
  intro hf
  rcases hnew.origin with ⟨_, hfresh, _⟩ | ⟨stored, user, client, hrot, hc, hfam, hdead⟩
  · exact hfresh (hf ▸ hs.families _ _ (.row row' hr' rfl rfl))
  · -- before the step the presented token was the live one of the family
    obtain ⟨hid, hknown⟩ := hs.known i t _ stored hi hc
    obtain ⟨r, hr, hrid, hrl⟩ := hlive stored user client hrot
    have hfr : r.familyId = row'.familyId := (hknown r hr hrid).trans (hfam.trans hf)
    have heq : r = row' := ho r hr row' hr' hrl hl' hfr
    have := hdead hid row' hrow' (heq ▸ hrid)
    rw [hl'] at this
    cases this

theorem OneLive.call (hs : Sound w) (ho : OneLive w.shared) (hi : w.tasks[i]? = some t)
    (hlive : ∀ stored user client, t.rotation = some (stored, user, client) →
      ∃ r ∈ w.shared.refreshTokens, r.id = stored.id ∧ r.live = true)
    (hstep : SessionStep w.shared t s' t') : OneLive s' := by
  have hold : ∀ row' ∈ s'.refreshTokens, row'.live = true →
      row' ∈ w.shared.refreshTokens ∨ New t w.shared s' row' := by
    intro row' hrow hl
    refine (hstep.rows row' hrow).imp_left (fun ⟨row, hr, hlater⟩ => ?_)
    rw [hlater.unchanged hl]
    exact hr
  intro row hrow row' hrow' hl hl' hf
  rcases hold row hrow hl with hr | hn
  · rcases hold row' hrow' hl' with hr' | hn'
    · exact ho row hr row' hr' hl hl' hf
    · exact (hn'.only_live hs ho hi hlive hr hrow hl hf.symm).elim
  · rcases hold row' hrow' hl' with hr' | hn'
    · exact (hn.only_live hs ho hi hlive hr' hrow' hl' hf).elim
    · exact Table.eq_of_key_eq hrow hrow' (Option.some.inj (hn.drawn.symm.trans hn'.drawn))

/-- A step that exchanges nothing. -/
theorem LinearSoFar.call {h : List (Nat × Uuid)} (hw : LinearSoFar w h)
    (hi : w.tasks[i]? = some t)
    (hlive : ∀ stored user client, t.rotation = some (stored, user, client) →
      ∃ r ∈ w.shared.refreshTokens, r.id = stored.id ∧ r.live = true)
    (hstep : SessionStep w.shared t s' t') : LinearSoFar ⟨s', w.tasks.set i t'⟩ h where
  sound := hw.sound.call hi hstep
  oneLive := hw.oneLive.call hw.sound hi hlive hstep
  nodup := hw.nodup
  spent e he := spent_step hstep (hw.spent e he)

/-- After the rotating statement has inserted a successor, the presented token is spent. -/
theorem rotated_spent (hs : Sound w) (hi : w.tasks[i]? = some t) {choice : Choice}
    {stored : RefreshTokenRecord} {user : Account} {client : ClientContext}
    (hrot : t.rotation = some (stored, user, client)) {reply : Uuid × Bytes}
    (hok : (w.shared.rotate env choice stored.id user.id stored.familyId client).1 = .ok reply) :
    let w' := (server env).step w (.resume i choice)
    stored.id ∈ w'.shared.issued ∧
      ∀ row ∈ w'.shared.refreshTokens, row.id = stored.id → row.live = false := by
  obtain ⟨hc, k, hk⟩ := next_rotation env hrot
  have hid := (hs.known i t _ stored hi hc).1
  rw [System.step_resume (server env) hi hk]
  show stored.id ∈ (w.shared.rotate env choice stored.id user.id stored.familyId client).2.issued ∧
    ∀ row ∈ (w.shared.rotate env choice stored.id user.id stored.familyId client).2.refreshTokens,
      row.id = stored.id → row.live = false
  rcases rotate_cases (s := w.shared) env choice stored.id user.id stored.familyId client with
    ⟨e, he⟩ | ⟨row, hrid, hu, hfm, hrl, hnew, hhash, he⟩
  · rw [he] at hok
    cases hok
  · rw [he]
    exact ⟨List.mem_cons_of_mem _ hid, fun r hr => not_live_rotated hid (hrid ▸ hnew) hr⟩

/-- A step that exchanges a token nobody has exchanged before. -/
theorem LinearSoFar.exchange {h : List (Nat × Uuid)} (hw : LinearSoFar w h) (i : Nat) {id : Uuid}
    (hnew : id ∉ h.map Prod.snd) (hid : id ∈ w.shared.issued)
    (hdead : ∀ row ∈ w.shared.refreshTokens, row.id = id → row.live = false) :
    LinearSoFar w (h ++ [(i, id)]) where
  sound := hw.sound
  oneLive := hw.oneLive
  nodup := by
    rw [List.map_append, List.nodup_append]
    refine ⟨hw.nodup, List.nodup_singleton _, ?_⟩
    rintro a ha b hb rfl
    have hb : a = id := by simpa using hb
    exact hnew (hb ▸ ha)
  spent e he := by
    rcases List.mem_append.mp he with he | he
    · exact hw.spent e he
    · rw [List.mem_singleton] at he
      subst he
      exact ⟨hid, hdead⟩

end Step

theorem rotatesLive_iff {w : Server} {i : Nat} {choice : Choice} {t : Task}
    (hi : w.tasks[i]? = some t) (h : rotatesLive w (.resume i choice) = true) :
    ∀ stored user client, t.rotation = some (stored, user, client) →
      ∃ r ∈ w.shared.refreshTokens, r.id = stored.id ∧ r.live = true := by
  intro stored user client hrot
  simp only [rotatesLive, hi, Option.bind_some, hrot, List.any_eq_true, Bool.and_eq_true,
    beq_iff_eq] at h
  exact h

theorem LinearSoFar.step {env : Env} {w : Server} {h : List (Nat × Uuid)} (hw : LinearSoFar w h)
    (l : Move) (hl : rotatesLive w l = true) :
    LinearSoFar ((server env).step w l) (h ++ exchanges env w l) := by
  have hsound := hw.sound.step env l
  cases l with
  | request r =>
      show LinearSoFar _ (h ++ [])
      rw [List.append_nil]
      exact ⟨hsound, hw.oneLive, hw.nodup, hw.spent⟩
  | outside e =>
      show LinearSoFar _ (h ++ [])
      rw [List.append_nil]
      cases e
      exact ⟨hsound, hw.oneLive, hw.nodup, hw.spent⟩
  | resume i choice =>
      cases hi : w.tasks[i]? with
      | none =>
          simp only [exchanges, hi, Option.bind_none, List.append_nil, System.step]
          exact hw
      | some t =>
          have hlive := rotatesLive_iff hi hl
          have hcall : ∀ h', LinearSoFar w h' →
              LinearSoFar ((server env).step w (.resume i choice)) h' := by
            intro h' hw'
            refine System.step_induction (P := fun w' => LinearSoFar w' h') (fun r hr => by cases hr)
              (fun j c u hj hu => ?_) hw' (fun e he => by cases he)
            cases hj
            rw [hi] at hu
            cases hu
            exact (task_step env choice w.shared t).mono
              (fun s' t' hstep => hw'.call hi hlive hstep)
          cases hrot : t.rotation with
          | none =>
              simp only [exchanges, hi, Option.bind_some, hrot, List.append_nil]
              exact hcall h hw
          | some r =>
              obtain ⟨stored, user, client⟩ := r
              simp only [exchanges, hi, Option.bind_some, hrot]
              cases hok : (w.shared.rotate env choice stored.id user.id stored.familyId client).1 with
              | error e =>
                  rw [List.append_nil]
                  exact hcall h hw
              | ok reply =>
                  obtain ⟨hid, hdead⟩ := rotated_spent hw.sound hi hrot hok
                  refine (hcall h hw).exchange i (fun hm => ?_) hid hdead
                  -- the presented token was live, so nobody has exchanged it before
                  obtain ⟨r, hr, hrid, hrlive⟩ := hlive stored user client hrot
                  obtain ⟨e, hmem, heq⟩ := List.mem_map.mp hm
                  have := (hw.spent e hmem).2 r hr (hrid.trans heq.symm)
                  rw [hrlive] at this
                  cases this

/-! ## Presenting a spent token -/

/-- A refresh that finds its token revoked goes on to revoke the family. -/
theorem step_presents_spent {env : Env} {w : Server} (hs : Sound w) {i : Nat} (choice : Choice)
    {refreshToken : Bytes} {client : ClientContext} {row : RefreshToken}
    (hi : w.tasks[i]? = some (.refresh (.findByHash refreshToken client)))
    (hrow : row ∈ w.shared.refreshTokens) (hhash : row.tokenHash = env.sha256Hex refreshToken)
    (hdead : row.live = false) :
    ((server env).step w (.resume i choice)).tasks[i]?
      = some (.refresh (.revokeReused (row.read w.shared.now))) := by
  have hfind : w.shared.findByHash (env.sha256Hex refreshToken) = some (row.read w.shared.now) := by
    unfold State.findByHash
    cases hf : w.shared.refreshTokens.rows.find?
        (fun t => t.tokenHash == env.sha256Hex refreshToken) with
    | none =>
        have := List.find?_eq_none.mp hf row hrow
        simp [hhash] at this
    | some row' =>
        have hmem := List.mem_of_find?_eq_some hf
        have hh : row'.tokenHash = env.sha256Hex refreshToken := by simpa using List.find?_some hf
        have hid := hs.hashes row' hmem row hrow (hh.trans hhash.symm)
        rw [Table.eq_of_key_eq hmem hrow hid]
        rfl
  have hlt : i < w.tasks.length := (List.getElem?_eq_some_iff.mp hi).1
  rw [System.step_resume (server env) hi rfl]
  show (w.tasks.set i (.refresh (admitRefresh client
    (w.shared.findByHash (env.sha256Hex refreshToken)))))[i]? = _
  rw [List.getElem?_set_self hlt, hfind]
  simp only [admitRefresh, RefreshToken.read, hdead, Bool.not_false, if_true]

/-- Revoking the family leaves no live token in it, and the refresh is refused. -/
theorem step_burns (env : Env) {w : Server} {i : Nat} (choice : Choice)
    {stored : RefreshTokenRecord}
    (hi : w.tasks[i]? = some (.refresh (.revokeReused stored))) :
    let w' := (server env).step w (.resume i choice)
    (∀ row' ∈ w'.shared.refreshTokens, row'.familyId = stored.familyId → row'.live = false) ∧
      w'.tasks[i]? =
        some (.refresh (.answered (failure .Unauthenticated INVALID_REFRESH_TOKEN))) := by
  have hlt : i < w.tasks.length := (List.getElem?_eq_some_iff.mp hi).1
  rw [System.step_resume (server env) hi rfl]
  refine ⟨fun row' hrow hf => ?_, List.getElem?_set_self hlt⟩
  exact not_live_revokeWhere (p := fun t => t.familyId == stored.familyId) hrow (by simpa using hf)

/-! ## Every run -/

theorem linearSoFar_run (env : Env) {w : Server} (hw : Initial w) (ls : List Move)
    (hlive : (server env).Along (fun w l => rotatesLive w l = true) w ls) :
    LinearSoFar ((server env).run w ls) ((server env).collect (exchanges env) w ls) := by
  have hstart : LinearSoFar w [] := by
    refine ⟨hw.sound, fun row hr => ?_, List.nodup_nil, fun e he => by cases he⟩
    rw [hw.refreshTokens] at hr
    cases hr
  have h := System.history_invariant (S := server env) (f := exchanges env) (I := LinearSoFar)
    (A := fun w l => rotatesLive w l = true) (fun w h l hw hl => hw.step l hl) ls w [] hstart hlive
  rwa [List.nil_append] at h

/-- **Rotation is linear** in every run in which the rotating statement always finds the
presented token unrevoked. -/
theorem rotation_linear (env : Env) (w : Server) (hw : Initial w) (ls : List Move)
    (hlive : (server env).Along (fun w l => rotatesLive w l = true) w ls) : Linear env w ls := by
  have h := linearSoFar_run env hw ls hlive
  refine ⟨h.oneLive, h.nodup, fun i j id hi hj => ?_, ?_⟩
  · have := List.inj_on_of_nodup_map h.nodup hi hj rfl
    exact congrArg Prod.fst this
  · intro i refreshToken client row hrow hi hhash hspent choice choice' mid hmid
    obtain ⟨e, he, heq⟩ := List.mem_map.mp hspent
    have hdead := (h.spent e he).2 row hrow heq.symm
    have h1 := step_presents_spent h.sound choice hi hrow hhash hdead
    have h2 := System.run_other (S := server env) mid _ hmid h1
    have h3 := step_burns env choice' h2
    rw [System.run_append, System.run_cons, System.run_append]
    exact h3

namespace Demo

/-- Grace signs in, exchanges `t1` for `t2`, and somebody presents `t1` again. -/
def exchangedOnce : List Move :=
  signedIn ++ presented 1 ++ [drawing 12 0 "t2" 1] ++
    [.request (.refresh (ascii "t1") client)] ++ go 2 2

/-- Two requests present `t1`; both have checked it before either makes its statement. -/
def racingRefreshes : List Move :=
  signedIn ++ presented 1 ++ presented 2 ++ [drawing 12 0 "t2" 1, drawing 13 0 "t3" 2]

end Demo

/-- The exchange and the replay of `t1` on the demo deployment. -/
theorem rotation_linear_exchangedOnce : Linear Demo.env Demo.start Demo.exchangedOnce :=
  rotation_linear Demo.env Demo.start Demo.initial_start Demo.exchangedOnce (by decide +kernel)

/-- Two refreshes of one token leave its family with two live tokens. -/
theorem racingRefreshes_fork :
    Initial Demo.start ∧ ¬ Linear Demo.env Demo.start Demo.racingRefreshes := by
  refine ⟨Demo.initial_start, fun h => ?_⟩
  have hfork : ¬ ∀ row ∈ ((server Demo.env).run Demo.start Demo.racingRefreshes).shared.refreshTokens.rows,
      ∀ row' ∈ ((server Demo.env).run Demo.start Demo.racingRefreshes).shared.refreshTokens.rows,
        row.live = true → row'.live = true → row.familyId = row'.familyId → row = row' := by
    decide +kernel
  exact hfork h.oneLive

end Launcher.Accounts
