import Launcher.Lib.Overtaking
import Launcher.Accounts.Sessions

set_option autoImplicit false

/-! # Revoked sessions

Reuse detection revokes a family; a reset or change of the password, a deactivation, a temporary
password and an erasure revoke all tokens of an account. Each of them is one statement over the
rows that exist when it runs. A request that checked a password or a token before that statement
may still insert a row after it: nothing asks again. `revocation_final` proves that revocation
is final in every run in which no request does, and `deactivatedMidRefresh_live` shows one that
does. -/

namespace Launcher.Accounts

open Launcher.Lib

/-- What a revocation is about. -/
inductive Revoked
  | family (familyId : Uuid)
  | account (userId : Uuid)
  deriving DecidableEq, Repr

/-- The tokens it revokes. -/
def Revoked.includes : Revoked → RefreshToken → Bool
  | .family familyId, row => row.familyId == familyId
  | .account userId, row => row.userId == userId

/-- The checks made on the strength of what it revokes. -/
def Revoked.covers : Revoked → Check → Bool
  | .family familyId, (_, some stored) => stored.familyId == familyId
  | .family _, (_, none) => false
  | .account userId, (userId', _) => userId' == userId

/-- The revocation a coroutine is about to make: reuse detection, or one of the five operations
that end all sessions of an account. -/
def Task.revokes (env : Env) (s : State) : Task → Option Revoked
  | .refresh (.revokeReused stored) => some (.family stored.familyId)
  | .resetPassword (.revokeAllForUser userId) => some (.account userId)
  | .changePassword (.revokeAllForUser user _) => some (.account user.id)
  | .setActive (.setActive userId false _) =>
      if (s.users.find? userId).isSome then some (.account userId) else none
  | .setTemporaryPassword (.setTemporaryPassword userId _ _ _) =>
      if (s.users.find? userId).isSome then some (.account userId) else none
  | .erase (.erase user reason) =>
      match (s.erase env user.id (erasedIdentity user reason) (erasureEntry user)).1 with
      | .ok true => some (.account user.id)
      | _ => none
  | _ => none

/-- The revocation a step makes, and the task that makes it. -/
def revocation (env : Env) (w : Server) : Move → Option (Nat × Revoked)
  | .resume i _ =>
      (w.tasks[i]?).bind (fun t => (t.revokes env w.shared).map (fun k => (i, k)))
  | _ => none

/-- The token whose row a step inserts, and the task that inserts it. -/
def issues (env : Env) (w : Server) (l : Move) : Option (Nat × Uuid) :=
  match l with
  | .resume i _ =>
      (((server env).step w l).shared.refreshTokens.rows.find?
        (fun row => (w.shared.refreshTokens.find? row.id).isNone)).map (fun row => (i, row.id))
  | _ => none

/-- The coroutine is in front of a statement that stores a token. -/
def Task.stores (env : Env) (t : Task) : Bool :=
  match t.next env with
  | .done => false
  | .call c _ => c.opens.isSome || c.rotates.isSome

/-- The task that makes a statement that stores a token. -/
def stores (env : Env) (w : Server) : Move → Option Nat
  | .resume i _ => (w.tasks[i]?).bind (fun t => if t.stores env then some i else none)
  | _ => none

/-- A revocation outdates the checks made on the strength of what it revokes; storing a token
acts on a check. -/
def sessionChecks (env : Env) : Checks State Task Request Choice Outside Revoked where
  event := revocation env
  holds t k := (t.check.map k.covers).getD false
  acts := stores env

/-- Revocation is final up to the end of the run: after a step in which task `i` revokes a
family or all tokens of an account, no live token is of a family that existed then, and none was
issued by another request that had made its check by then. -/
def RevocationFinal (env : Env) (w : Server) (ls : List Move) : Prop :=
  ∀ pre l post i k, ls = pre ++ l :: post →
    revocation env ((server env).run w pre) l = some (i, k) →
    ∀ row ∈ ((server env).run w ls).shared.refreshTokens, row.live = true →
      (∀ old ∈ ((server env).run w pre).shared.refreshTokens, k.includes old = true →
        row.familyId ≠ old.familyId) ∧
      ∀ j t, (j, row.id) ∈ (server env).collect (fun w l => (issues env w l).toList)
          ((server env).step ((server env).run w pre) l) post →
        j ≠ i → ((server env).run w pre).tasks[j]? = some t →
        (sessionChecks env).holds t k = false

/-! ## The revoking step -/

theorem not_live_erased {env : Env} {s s' : State} {userId : Uuid} {identity : ErasedIdentity}
    {audit : AuditEntry} (h : s.erase env userId identity audit = (.ok true, s'))
    {row : RefreshToken} (hrow : row ∈ s'.refreshTokens) : row.userId ≠ userId := by
  unfold State.erase at h
  cases hu : s.users.find? userId with
  | none => rw [hu] at h; cases h
  | some user =>
      rw [hu] at h
      dsimp only at h
      split_ifs at h
      · cases h
      · cases h
      · have hs := congrArg Prod.snd h
        dsimp only at hs
        rw [← hs] at hrow
        simpa using (Table.mem_delete.mp hrow).2

/-- After a revoking step none of the tokens it is about is live, and its task holds no check of
a token. -/
theorem revokes_step (env : Env) (choice : Choice) {s : State} {t : Task} {k : Revoked}
    (h : t.revokes env s = some k) :
    (t.next env).Wp (exec env) choice s (fun s' t' =>
      (∀ row ∈ s'.refreshTokens, k.includes row = true → row.live = false) ∧
        ∀ userId stored, t'.check ≠ some (userId, some stored)) := by
  unfold Task.revokes at h
  split at h
  · cases h
    intro r s' e
    cases e
    exact ⟨fun row hr hk => not_live_revokeWhere hr hk, fun _ _ hc => by cases hc⟩
  · cases h
    intro r s' e
    cases e
    exact ⟨fun row hr hk => not_live_revokeWhere hr hk, fun _ _ hc => by cases hc⟩
  · cases h
    intro r s' e
    cases e
    exact ⟨fun row hr hk => not_live_revokeWhere hr hk, fun _ _ hc => by cases hc⟩
  · rename_i userId audit
    split_ifs at h with hu
    cases h
    intro r s' e
    obtain ⟨user, hf⟩ := Option.isSome_iff_exists.mp hu
    have hs : s' = (s.setActive userId false audit).2 := congrArg Prod.snd e.symm
    simp only [State.setActive, hf] at hs
    subst hs
    exact ⟨fun row hr hk => not_live_revokeWhere hr hk, fun _ _ hc => by cases hc⟩
  · rename_i userId password hash audit
    split_ifs at h with hu
    cases h
    intro r s' e
    obtain ⟨user, hf⟩ := Option.isSome_iff_exists.mp hu
    have hs : s' = (s.setTemporaryPassword userId hash audit).2 := congrArg Prod.snd e.symm
    simp only [State.setTemporaryPassword, hf] at hs
    subst hs
    refine ⟨fun row hr hk => not_live_revokeWhere hr hk, fun _ _ hc => ?_⟩
    cases r <;> cases hc
  · rename_i user reason
    cases he : (s.erase env user.id (erasedIdentity user reason) (erasureEntry user)) with
    | mk reply s'' =>
        rw [he] at h
        dsimp only at h
        split at h
        · cases h
          intro r s' e
          have hs : s' = s'' := by
            have := congrArg Prod.snd (he.symm.trans e)
            exact this.symm
          refine ⟨fun row hr hk => ?_, fun _ _ hc => ?_⟩
          · rw [hs] at hr
            exact absurd (by simpa [Revoked.includes] using hk) (not_live_erased he hr)
          · revert hc
            cases r with
            | error e => exact fun hc => by cases hc
            | ok b => cases b <;> exact fun hc => by cases hc
        · cases h
  · cases h

/-! ## After the revocation -/

/-- A new row was stored by a coroutine in front of such a statement. -/
theorem stores_of_new (env : Env) (choice : Choice) (s : State) (t : Task) :
    (t.next env).Wp (exec env) choice s (fun s' _ => ∀ row' ∈ s'.refreshTokens,
      (∃ row ∈ s.refreshTokens, Later row row') ∨ t.stores env = true) := by
  unfold Task.stores
  cases t.next env with
  | done => trivial
  | call c k =>
      intro r s' e row' hrow
      have hafter := exec_tokens env choice c s
      rw [e] at hafter
      refine (hafter.rows row' hrow).imp_right (fun hi => ?_)
      rcases hi.origin with ⟨ho, _⟩ | ⟨previousId, hr, _⟩
      · simp [ho]
      · simp [hr]

/-- The families `fams` are closed: none of their tokens is live, and a task that holds a check
of one of their tokens is among those that are too late to act on it. -/
structure Closed (fams : Uuid → Prop) (late : Nat → Prop) (w : Server) : Prop where
  dead : ∀ row ∈ w.shared.refreshTokens, fams row.familyId → row.live = false
  known : ∀ familyId, fams familyId → familyId ∈ w.shared.issued
  held : ∀ (j : Nat) t userId stored, w.tasks[j]? = some t →
    t.check = some (userId, some stored) → fams stored.familyId → late j

section Closed

variable {env : Env} {w : Server} {fams : Uuid → Prop} {late : Nat → Prop}

theorem Closed.call {i : Nat} {t t' : Task} {s' : State} (h : Closed fams late w)
    (hi : w.tasks[i]? = some t) (hstep : SessionStep w.shared t s' t')
    (hstores : ∀ row' ∈ s'.refreshTokens,
      (∃ row ∈ w.shared.refreshTokens, Later row row') ∨ t.stores env = true)
    (hlate : late i → t.stores env = false) : Closed fams late ⟨s', w.tasks.set i t'⟩ where
  dead row' hrow hf := by
    have hold : ∀ row ∈ w.shared.refreshTokens, Later row row' → row'.live = false := by
      intro row hr hlater
      have hdead := h.dead row hr (hlater.familyId ▸ hf)
      by_contra hl
      have heq := hlater.unchanged (by simpa using hl)
      rw [← heq] at hdead
      exact hl hdead
    rcases hstep.rows row' hrow with ⟨row, hr, hlater⟩ | hnew
    · exact hold row hr hlater
    · rcases hnew.origin with ⟨_, hfresh, _⟩ | ⟨stored, _, _, _, hc, hfam, _⟩
      · exact (hfresh (h.known _ hf)).elim
      · -- the task that continues a closed family is late, so it stores nothing
        have hl := hlate (h.held i t _ stored hi hc (hfam ▸ hf))
        rcases hstores row' hrow with ⟨row, hr, hlater⟩ | hs
        · exact hold row hr hlater
        · rw [hl] at hs
          cases hs
  known familyId hf := hstep.issued _ (h.known familyId hf)
  held j u userId stored hj hc hf := by
    rcases System.mem_set_cases hj with ⟨rfl, rfl⟩ | ⟨_, hj⟩
    · rcases hstep.check _ hc with hold | ⟨⟨row, hr, hlive, _, rfl⟩, _⟩
      · exact h.held j t userId stored hi hold hf
      · -- a check that has just been made was made of a live token
        rw [h.dead row hr hf] at hlive
        cases hlive
    · exact h.held j u userId stored hj hc hf

theorem Closed.step (h : Closed fams late w) (l : Move)
    (hlate : ∀ j, late j → stores env w l ≠ some j) :
    Closed fams late ((server env).step w l) := by
  refine System.step_induction (P := Closed fams late) (fun r _ => ?_)
    (fun i choice t hl hi => ?_) h (fun e _ => ?_)
  · refine ⟨h.dead, h.known, fun j t userId stored hj hc hf => ?_⟩
    rcases System.mem_append_cases hj with hj | ⟨_, rfl⟩
    · exact h.held j t userId stored hj hc hf
    · rw [show ((server env).entry r).check = none from entry_check r] at hc
      cases hc
  · have hnot : late i → t.stores env = false := by
      intro hi'
      have := hlate i hi'
      rw [hl] at this
      simpa [stores, hi] using this
    exact ((task_step env choice w.shared t).and (stores_of_new env choice w.shared t)).mono
      (fun s' t' hs => h.call hi hs.1 hs.2 hnot)
  · cases e
    exact ⟨h.dead, h.known, h.held⟩

end Closed

/-- The families of the tokens a revocation is about. -/
def closedFamilies (k : Revoked) (s : State) (familyId : Uuid) : Prop :=
  ∃ old ∈ s.refreshTokens, k.includes old = true ∧ old.familyId = familyId

/-- A token of such a family is one the revocation is about, for a family is of one account. -/
theorem includes_of_claims {w : Server} (hs : Sound w) {k : Revoked} {row : RefreshToken}
    (hf : closedFamilies k w.shared row.familyId) (hc : Claims w row.familyId row.userId) :
    k.includes row = true := by
  obtain ⟨old, ho, hk, hfam⟩ := hf
  cases k with
  | family familyId =>
      have : old.familyId = familyId := by simpa [Revoked.includes] using hk
      simp [Revoked.includes, ← hfam, this]
  | account userId =>
      have hu : old.userId = userId := by simpa [Revoked.includes] using hk
      have := hs.owner _ _ _ (.row old ho hfam hu) hc
      simp [Revoked.includes, this]

theorem covers_of_claims {w : Server} (hs : Sound w) {k : Revoked} {userId : Uuid}
    {stored : RefreshTokenRecord} (hf : closedFamilies k w.shared stored.familyId)
    (hc : Claims w stored.familyId userId) : k.covers (userId, some stored) = true := by
  obtain ⟨old, ho, hk, hfam⟩ := hf
  cases k with
  | family familyId =>
      have : old.familyId = familyId := by simpa [Revoked.includes] using hk
      simp [Revoked.covers, ← hfam, this]
  | account userId' =>
      have hu : old.userId = userId' := by simpa [Revoked.includes] using hk
      have := hs.owner _ _ _ (.row old ho hfam hu) hc
      simp [Revoked.covers, this]

theorem next_revokes {env : Env} {s : State} {t : Task} {k : Revoked}
    (h : t.revokes env s = some k) : t.next env ≠ .done := by
  unfold Task.revokes at h
  split at h
  all_goals first
    | exact (fun hn => by cases hn)
    | cases h

theorem revocation_eq_some {env : Env} {w : Server} {l : Move} {i : Nat} {k : Revoked}
    (h : revocation env w l = some (i, k)) :
    ∃ choice t, l = .resume i choice ∧ w.tasks[i]? = some t ∧
      t.revokes env w.shared = some k := by
  cases l with
  | request r => cases h
  | outside e => cases h
  | resume j choice =>
      cases hj : w.tasks[j]? with
      | none => simp [revocation, hj] at h
      | some t =>
          simp only [revocation, hj, Option.bind_some, Option.map_eq_some_iff] at h
          obtain ⟨k', hk, heq⟩ := h
          cases heq
          exact ⟨choice, t, rfl, hj, hk⟩

/-- The revoking step closes the families of the tokens it is about. -/
theorem closed_revocation {env : Env} {w : Server} (hs : Sound w) {l : Move} {i : Nat}
    {k : Revoked} (h : revocation env w l = some (i, k)) :
    Closed (closedFamilies k w.shared)
      (fun j => j ≠ i ∧ ∃ t, w.tasks[j]? = some t ∧ (sessionChecks env).holds t k = true)
      ((server env).step w l) := by
  obtain ⟨choice, t, rfl, hi, hk⟩ := revocation_eq_some h
  refine System.step_of_wp (S := server env) (P := Closed _ _) choice hi (next_revokes hk) ?_
  have hwp := (task_step env choice w.shared t).and (revokes_step env choice hk)
  refine hwp.mono (fun s' t' ⟨hstep, hdead, hown⟩ => ⟨fun row' hrow hf => ?_, ?_, ?_⟩)
  · rcases claims_step hi hstep (.row row' hrow rfl rfl) with hc | ⟨hfresh, _, _⟩
    · exact hdead row' hrow (includes_of_claims hs hf hc)
    · obtain ⟨old, ho, _, hfam⟩ := hf
      exact (hfresh (hfam ▸ hs.families _ _ (.row old ho rfl rfl))).elim
  · rintro familyId ⟨old, ho, _, rfl⟩
    exact hstep.issued _ (hs.families _ _ (.row old ho rfl rfl))
  · intro j u userId stored hj hc hf
    rcases System.mem_set_cases hj with ⟨_, rfl⟩ | ⟨hne, hj⟩
    · exact (hown userId stored hc).elim
    · have hcov := covers_of_claims hs hf (.task j u stored hj hc rfl)
      refine ⟨hne, u, hj, ?_⟩
      show (u.check.map k.covers).getD false = true
      rw [hc]
      exact hcov

/-! ## Every run -/

/-- Whoever issues a token makes a statement that stores one. -/
theorem stores_of_issues {env : Env} {w : Server} {l : Move} {j : Nat} {id : Uuid}
    (h : (j, id) ∈ (issues env w l).toList) : stores env w l = some j := by
  cases l with
  | request r => cases h
  | outside e => cases h
  | resume i choice =>
      simp only [issues, Option.mem_toList, Option.map_eq_some_iff, Prod.mk.injEq] at h
      obtain ⟨row, hfind, rfl, rfl⟩ := h
      have hnone := List.find?_some hfind
      have hmem := List.mem_of_find?_eq_some hfind
      cases hi : w.tasks[i]? with
      | none =>
          simp only [System.step, hi] at hmem
          rw [Table.find?_of_mem hmem] at hnone
          cases hnone
      | some t =>
          have hw : ∀ row' ∈ ((server env).step w (.resume i choice)).shared.refreshTokens,
              (∃ row ∈ w.shared.refreshTokens, Later row row') ∨ t.stores env = true := by
            refine System.step_induction (S := server env) (P := fun w' =>
              ∀ row' ∈ w'.shared.refreshTokens,
                (∃ row ∈ w.shared.refreshTokens, Later row row') ∨ t.stores env = true)
              (fun r hr => by cases hr) (fun j c u hl hj => ?_)
              (fun row' hr => Or.inl ⟨row', hr, .refl row'⟩) (fun e he => by cases he)
            cases hl
            rw [hi] at hj
            cases hj
            exact stores_of_new env choice w.shared t
          rcases hw row hmem with ⟨row₀, hr, hlater⟩ | hst
          · rw [hlater.id, Table.find?_of_mem hr] at hnone
            cases hnone
          · simp [stores, hi, hst]

/-- **Revocation is final** in every run in which no request stores a token after another
request has revoked what it had checked. -/
theorem revocation_final (env : Env) (w : Server) (hw : Initial w) (ls : List Move)
    (hp : (server env).Punctual (sessionChecks env) [] w ls) : RevocationFinal env w ls := by
  rintro pre l post i k rfl hrev row hrow hlive
  have hafter := System.Punctual.after hp (K := sessionChecks env) hrev
  have hsound := sound_run env hw pre
  refine ⟨fun old ho hk hf => ?_, fun j t hissued hne hj => ?_⟩
  · have hclosed := System.run_invariant (S := server env)
      (I := Closed (closedFamilies k ((server env).run w pre).shared) (fun j => j ≠ i ∧
        ∃ t, ((server env).run w pre).tasks[j]? = some t ∧ (sessionChecks env).holds t k = true))
      (fun w' l' hc ha => hc.step l' (fun j ⟨hne, t, hj, hh⟩ => ha j t hj hne hh)) post _
      (closed_revocation hsound hrev) hafter
    rw [System.run_append, System.run_cons] at hrow
    have hdead := hclosed.dead row hrow ⟨old, ho, hk, hf.symm⟩
    rw [hlive] at hdead
    cases hdead
  · obtain ⟨w', l', hacts, hmem⟩ := System.exists_of_mem_collect hafter hissued
    by_contra hh
    exact hacts j t hj hne (by simpa using hh) (stores_of_issues hmem)

namespace Demo

/-- Task `i`: ada is about to deactivate grace's account. -/
def deactivating (i : Nat) : List Move :=
  .request (.setActive asAda (ascii "00000000-0000-0000-0000-000000000002") false) :: go i 1

/-- Grace's refresh has presented `t1` and ada deactivates the account; the refresh goes on. -/
def deactivatedMidRefresh : List Move :=
  signedIn ++ presented 1 ++ deactivating 2 ++ go 2 1 ++ [drawing 12 0 "t2" 1]

/-- Ada deactivates the account; after that grace presents `t1`. -/
def deactivatedBeforeRefresh : List Move :=
  signedIn ++ deactivating 1 ++ go 1 1 ++ presented 2 ++ [drawing 12 0 "t2" 2]

end Demo

/-- A deactivation followed by a refresh on the demo deployment. -/
theorem revocation_final_deactivatedBeforeRefresh :
    RevocationFinal Demo.env Demo.start Demo.deactivatedBeforeRefresh :=
  revocation_final Demo.env Demo.start Demo.initial_start Demo.deactivatedBeforeRefresh
    (by decide +kernel)

/-- A refresh that checked its token before the deactivation leaves a live token behind it. -/
theorem deactivatedMidRefresh_live :
    Initial Demo.start ∧ ¬ RevocationFinal Demo.env Demo.start Demo.deactivatedMidRefresh := by
  refine ⟨Demo.initial_start, fun h => ?_⟩
  have hlive : ∃ row ∈ ((server Demo.env).run Demo.start Demo.deactivatedMidRefresh).shared.refreshTokens.rows,
      row.live = true ∧
      ∃ old ∈ ((server Demo.env).run Demo.start
          (Demo.signedIn ++ Demo.presented 1 ++ Demo.deactivating 2)).shared.refreshTokens.rows,
        (Revoked.account 2).includes old = true ∧ row.familyId = old.familyId := by
    decide +kernel
  obtain ⟨row, hrow, hl, old, ho, hk, hf⟩ := hlive
  exact (h (Demo.signedIn ++ Demo.presented 1 ++ Demo.deactivating 2) (Demo.drawing 0 0 "" 2)
    [Demo.drawing 12 0 "t2" 1] 2 (.account 2) (by rfl) (by decide +kernel) row hrow hl).1 old ho
    hk hf

end Launcher.Accounts
