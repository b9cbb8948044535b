import Launcher.Server.System

set_option autoImplicit false

/-! # Upload quota is conserved

What an account has used is what its blobs take, plus what it is owed by coroutines that are
on their way: a completion that has charged and has neither recorded its blob nor released the
charge, and a collector pass that has deleted one of the account's blobs and not refunded it.

Every program point has its own ghost term (`owed`), and one step moves an amount between the
three terms (`step_balance`). The sum over all tasks then gives the balance in every run.

A collector refunds the account and the size it *listed*, which are those of the row it
deletes only as long as no other pass has collected the blob in the meantime and it was
uploaded anew. `refundsListed` is the condition that this does not happen at the delete. -/

namespace Launcher.Quota

open Launcher.Lib

/-! ## The three terms -/

/-- `upload_used_bytes`; an account that does not exist has used nothing. -/
def used (s : State) (u : Uuid) : Nat := ((s.users.find? u).map (·.uploadUsedBytes)).getD 0

/-- What a blob row takes from the quota of `u`. -/
def paidBy (u : Uuid) (b : BlobRow) : Nat :=
  if b.uploadedByUserId = some u then b.sizeBytes else 0

def storedFor (s : State) (u : Uuid) : Nat := s.blobs.sum (paidBy u)

/-- A completion has charged at this point, and has neither recorded its blob nor released
the charge. -/
def charged : CompletePoint → Bool
  | .commit => true
  | .releaseFailed _ => true
  | .recordBlob => true
  | .releaseLost => true
  | _ => false

/-- What a coroutine on its way still owes to `u`. -/
def owed (u : Uuid) : Task → Nat
  | .uploadChunk (.completing session point) =>
      if charged point = true ∧ session.userId = u then session.declaredSizeBytes else 0
  | .collectBlobs (.discard deleted _ _ _) => paidBy u deleted
  | .collectBlobs (.releaseUpload deleted _ _ _ _) => paidBy u deleted
  | _ => 0

def totalOwed (w : Server) (u : Uuid) : Nat := (w.tasks.map (owed u)).sum

/-- A collector that deletes a row deletes the one it listed: same uploader, same size. -/
def refundsListed (env : Env) (w : Server) : Move → Bool
  | .resume i _ =>
      match w.tasks[i]? with
      | some (.collectBlobs (.deleteIfUnreferenced blob _ _)) =>
          w.shared.blobs.rows.all (fun b =>
            b.sha256 != blob.sha256 || !w.shared.isCollectable env.blobGrace b ||
              (b.uploadedByUserId == blob.uploadedByUserId && b.sizeBytes == blob.sizeBytes))
      | _ => true
  | _ => true

/-! ## How the statements move the terms -/

theorem used_modify (s : State) (id : Uuid) (g : Nat → Nat) (u : Uuid) (hg : g 0 = 0 ∨
    ∃ user, s.users.find? id = some user) :
    used { s with
      users := s.users.modify id
        ⟨fun x => { x with uploadUsedBytes := g x.uploadUsedBytes }, fun _ => rfl⟩ } u
      = if u = id then g (used s id) else used s u := by
  unfold used
  rw [Table.find?_modify]
  by_cases h : u = id
  · subst h
    rw [if_pos rfl, if_pos rfl]
    cases hu : s.users.find? u with
    | some user => rfl
    | none =>
        rcases hg with h0 | ⟨user, hu'⟩
        · simp [h0]
        · rw [hu] at hu'; cases hu'
  · rw [if_neg h, if_neg h]

theorem used_charge {s : State} {id : Uuid} {user : User} (bytes : Nat) (u : Uuid)
    (h : s.users.find? id = some user) :
    used { s with
      users := s.users.modify id
        ⟨fun x => { x with uploadUsedBytes := x.uploadUsedBytes + bytes }, fun _ => rfl⟩ } u
      = used s u + if id = u then bytes else 0 := by
  rw [used_modify s id (· + bytes) u (Or.inr ⟨user, h⟩)]
  by_cases hu : u = id
  · subst hu; simp
  · rw [if_neg hu, if_neg (Ne.symm hu), Nat.add_zero]

/-- The clamp at zero does not show as long as the release is covered. -/
theorem used_release {s : State} {id : Uuid} {bytes : Nat} (u : Uuid) (h : bytes ≤ used s id) :
    used (s.releaseUpload id bytes) u + (if id = u then bytes else 0) = used s u := by
  unfold State.releaseUpload
  rw [used_modify s id (· - bytes) u (Or.inl (Nat.zero_sub bytes))]
  by_cases hu : u = id
  · subst hu
    rw [if_pos rfl, if_pos rfl, Nat.sub_add_cancel h]
  · rw [if_neg hu, if_neg (Ne.symm hu), Nat.add_zero]

theorem storedFor_insert {s : State} {b : BlobRow} (u : Uuid)
    (h : s.blobs.find? b.sha256 = none) :
    storedFor { s with blobs := s.blobs.insert b } u = paidBy u b + storedFor s u :=
  Table.sum_insert h (paidBy u)

theorem storedFor_delete {s : State} {b : BlobRow} {sha256 : Bytes} (u : Uuid)
    (h : s.blobs.find? sha256 = some b) :
    storedFor { s with blobs := s.blobs.delete (fun r => decide (r.sha256 = sha256)) } u
      + paidBy u b = storedFor s u := by
  have hkey : b.sha256 = sha256 := Table.key_of_find? h
  refine Table.sum_delete (Table.mem_of_find? h) (fun x _ => ?_) (paidBy u)
  rw [decide_eq_true_eq, hkey]

/-! ## One step -/

/-- At the collector's refund, the listed entry and the deleted row agree. -/
def Paired : Task → Prop
  | .collectBlobs (.discard deleted blob _ _) =>
      deleted.uploadedByUserId = blob.uploadedByUserId ∧ deleted.sizeBytes = blob.sizeBytes
  | .collectBlobs (.releaseUpload deleted blob userId _ _) =>
      deleted.uploadedByUserId = some userId ∧ deleted.sizeBytes = blob.sizeBytes
  | _ => True

/-- A step takes from one of the three terms what it gives to another. -/
def Balanced (s s' : State) (t t' : Task) : Prop :=
  ∀ u, used s' u + storedFor s u + owed u t = used s u + storedFor s' u + owed u t'

theorem owed_of_kind {t : Task} (h : t.kind.writesUsers = false) (u : Uuid) : owed u t = 0 := by
  cases t with
  | uploadChunk t => cases h
  | collectBlobs t => cases h
  | _ => rfl

theorem paired_of_kind {t : Task} (h : t.kind.writesUsers = false) : Paired t := by
  cases t with
  | collectBlobs t => cases h
  | _ => trivial

section Step

variable {env : Env} {choice : Choice} {s s' : State}

/-- A call that writes neither table moves nothing between points that owe the same. -/
theorem balanced_of_frame {α : Type} {c : Call α} {r : α} {t t' : Task}
    (e : exec env choice c s = (r, s')) (hu : c.writesUsers = false)
    (hb : c.writesBlobs = false) (h : ∀ u, owed u t' = owed u t) : Balanced s s' t t' := by
  intro u
  have hf := Frame.of_exec e
  unfold used storedFor
  rw [hf.users hu, hf.blobs hb, h u]

/-- A release gives back what the point owes to the one account it owes to. -/
theorem balanced_of_release {id : Uuid} {bytes : Nat} {t t' : Task}
    (hle : bytes ≤ used s id) (h : ∀ u, owed u t = if id = u then bytes else 0)
    (h' : ∀ u, owed u t' = 0) : Balanced s (s.releaseUpload id bytes) t t' := by
  intro u
  have hr := used_release u hle
  have hs : storedFor (s.releaseUpload id bytes) u = storedFor s u := rfl
  rw [h u, h' u, hs]
  omega

theorem upload_balance (t : UploadChunk) (hle : ∀ u, owed u (.uploadChunk t) ≤ used s u) :
    (t.next env).Wp (exec env) choice s (fun s' t' =>
      Balanced s s' (.uploadChunk t) (.uploadChunk t')) := by
  cases t with
  | findSession actor id offset chunk =>
      intro r s' e
      refine balanced_of_frame e rfl rfl (fun u => ?_)
      obtain ⟨_, hk⟩ | ⟨_, _, _, _, hk⟩ := admitted_cases env actor offset chunk r <;>
        rw [hk] <;> rfl
  | reserveBytes session offset chunk =>
      intro r s' e
      refine balanced_of_frame e rfl rfl (fun u => ?_)
      cases r <;> rfl
  | writeAt session reserved offset chunk =>
      intro r s' e
      refine balanced_of_frame e rfl rfl (fun u => ?_)
      obtain ⟨_, _, hk⟩ | ⟨_, _, hk⟩ | ⟨_, _, hk⟩ := written_cases session reserved r <;>
        rw [hk] <;> rfl
  | abortUnwritten session e => exact fun _ _ h => balanced_of_frame h rfl rfl (fun _ => rfl)
  | discardUnwritten session e => exact fun _ _ h => balanced_of_frame h rfl rfl (fun _ => rfl)
  | answered r => trivial
  | completing session point =>
      cases point with
      | findBySha256 =>
          intro r s' e
          refine balanced_of_frame e rfl rfl (fun u => ?_)
          cases r <;> rfl
      | discardHeld => exact fun _ _ h => balanced_of_frame h rfl rfl (fun _ => rfl)
      | markHeld => exact fun _ _ h => balanced_of_frame h rfl rfl (fun _ => rfl)
      | chargeUpload =>
          intro r s' e u
          obtain hc | ⟨user, hu, _, hc⟩ := s.chargeUpload_cases session.userId
            session.declaredSizeBytes
          · cases hc.symm.trans e
            rfl
          · cases hc.symm.trans e
            rw [used_charge session.declaredSizeBytes u hu]
            simp only [owed, charged, storedFor, if_true, true_and, Bool.false_eq_true, false_and,
              if_false]
            omega
      | discardRefused => exact fun _ _ h => balanced_of_frame h rfl rfl (fun _ => rfl)
      | abortRefused => exact fun _ _ h => balanced_of_frame h rfl rfl (fun _ => rfl)
      | commit =>
          intro r s' e
          refine balanced_of_frame e rfl rfl (fun u => ?_)
          cases r <;> rfl
      | releaseFailed error =>
          intro r s' e
          cases e
          refine balanced_of_release ?_ (fun u => by simp [owed, charged]) (fun _ => rfl)
          simpa [owed, charged] using hle session.userId
      | abortFailed error => exact fun _ _ h => balanced_of_frame h rfl rfl (fun _ => rfl)
      | recordBlob =>
          intro r s' e u
          obtain ⟨_, _, hr⟩ | ⟨hnone, hr⟩ := s.recordBlob_cases session.blobSha256
            session.declaredSizeBytes (storageKeyFor session.blobSha256) (some session.userId)
          · -- the content was recorded meanwhile: the charge is still owed, and released next
            cases hr.symm.trans e
            rfl
          · cases hr.symm.trans e
            rw [storedFor_insert u hnone]
            simp only [owed, charged, paidBy, used, if_true, true_and, Bool.false_eq_true,
              false_and, if_false, Option.some.injEq]
            omega
      | releaseLost =>
          intro r s' e
          cases e
          refine balanced_of_release ?_ (fun u => by simp [owed, charged]) (fun _ => rfl)
          simpa [owed, charged] using hle session.userId
      | markCompleted => exact fun _ _ h => balanced_of_frame h rfl rfl (fun _ => rfl)

theorem owed_loop (rest : List CollectableBlob) (report : SweepReport) (u : Uuid) :
    owed u (.collectBlobs (.loop rest report)) = 0 := by
  cases rest <;> rfl

theorem paired_loop (rest : List CollectableBlob) (report : SweepReport) :
    Paired (.collectBlobs (.loop rest report)) := by
  cases rest <;> trivial

/-- The listed entry agrees with the row its delete would remove. -/
def ListsCurrent (env : Env) (s : State) : CollectBlobs → Prop
  | .deleteIfUnreferenced blob _ _ =>
      ∀ b, s.blobs.find? blob.sha256 = some b → s.isCollectable env.blobGrace b = true →
        b.uploadedByUserId = blob.uploadedByUserId ∧ b.sizeBytes = blob.sizeBytes
  | _ => True

theorem collect_balance (t : CollectBlobs) (hp : Paired (.collectBlobs t))
    (hle : ∀ u, owed u (.collectBlobs t) ≤ used s u) (hl : ListsCurrent env s t) :
    (t.next env).Wp (exec env) choice s (fun s' t' =>
      Balanced s s' (.collectBlobs t) (.collectBlobs t') ∧ Paired (.collectBlobs t')) := by
  cases t with
  | findUnreferenced =>
      intro r s' e
      refine ⟨balanced_of_frame e rfl rfl (fun u => ?_), paired_loop _ _⟩
      rw [owed_loop]
      rfl
  | deleteIfUnreferenced blob rest report =>
      intro r s' e
      obtain hd | ⟨b, hb, hc, hd⟩ := s.deleteIfUnreferenced_cases blob.sha256 env.blobGrace
      · cases hd.symm.trans e
        refine ⟨fun u => ?_, paired_loop _ _⟩
        rw [owed_loop]
        rfl
      · cases hd.symm.trans e
        refine ⟨fun u => ?_, hl b hb hc⟩
        have hs := storedFor_delete (s := s) u hb
        simp only [owed, used]
        omega
  | discard deleted blob rest report =>
      intro r s' e
      simp only [Paired] at hp
      cases hu : blob.uploadedByUserId with
      | none =>
          refine ⟨balanced_of_frame e rfl rfl (fun u => ?_), ?_⟩
          · simp only [CollectBlobs.collected, owed_loop]
            simp [owed, paidBy, hp.1, hu]
          · exact paired_loop _ _
      | some userId =>
          exact ⟨balanced_of_frame e rfl rfl (fun _ => rfl), hp.1.trans hu, hp.2⟩
  | releaseUpload deleted blob userId rest report =>
      intro r s' e
      cases e
      simp only [Paired] at hp
      refine ⟨balanced_of_release ?_ (fun u => ?_) (fun u => owed_loop _ _ u), paired_loop _ _⟩
      · simpa [owed, paidBy, hp.1, hp.2] using hle userId
      · simp [owed, paidBy, hp.1, hp.2]
  | finished report => trivial

/-- **One step of any task.** Between the three terms nothing is lost and nothing created. -/
theorem step_balance (t : Task) (hp : Paired t) (hle : ∀ u, owed u t ≤ used s u)
    (hl : ∀ c, t = .collectBlobs c → ListsCurrent env s c) :
    (t.next env).Wp (exec env) choice s (fun s' t' => Balanced s s' t t' ∧ Paired t') := by
  cases t with
  | uploadChunk t =>
      exact (Suspended.wp_map _ _ _).mpr ((upload_balance t hle).mono fun _ _ h => ⟨h, trivial⟩)
  | collectBlobs t => exact (Suspended.wp_map _ _ _).mpr (collect_balance t hp hle (hl t rfl))
  | _ =>
      refine (Task.next_keeps env choice s _).mono (fun s' t' h => ⟨fun u => ?_, ?_⟩)
      · obtain ⟨hk, hkind⟩ := h
        have hw : t'.kind.writesUsers = false := by rw [hkind]; rfl
        unfold used storedFor
        rw [hk.users rfl, hk.blobs rfl, owed_of_kind hw]
        rfl
      · exact paired_of_kind (by rw [h.2]; rfl)

end Step

/-! ## Every run -/

/-- The balance of every account, with what the collectors on their way refund. -/
structure Conserved (w : Server) : Prop where
  balance : ∀ u, used w.shared u = storedFor w.shared u + totalOwed w u
  paired : ∀ t ∈ w.tasks, Paired t

theorem owed_le_used {w : Server} (h : Conserved w) {i : Nat} {t : Task}
    (hi : w.tasks[i]? = some t) (u : Uuid) : owed u t ≤ used w.shared u := by
  have hsum : owed u t ≤ totalOwed w u := le_sum_map (owed u) hi
  have := h.balance u
  omega

theorem owed_entry (r : Request) (u : Uuid) : owed u (entry r) = 0 := by
  cases r with
  | uploadChunk actor id offset chunk =>
      simp only [entry, uploadChunk]
      split <;> rfl
  | _ => rfl

theorem paired_entry (r : Request) : Paired (entry r) := by
  cases r <;> trivial

theorem used_registerUser (s : State) (id : Uuid) (quota : Nat) (u : Uuid) :
    used { s with users := s.users.insert ⟨id, quota, 0⟩ } u = used s u := by
  show ((((s.users.insert ⟨id, quota, 0⟩).find? u).map (·.uploadUsedBytes)).getD 0) = used s u
  by_cases hu : u = id
  · subst hu
    unfold used
    cases hf : s.users.find? u with
    | some user => rw [Table.insert_of_some hf, hf]
    | none => rw [Table.find?_insert_self hf]; rfl
  · rw [Table.find?_insert_ne hu]
    rfl

theorem used_outside (e : Outside) (s : State) (u : Uuid) : used (outside e s) u = used s u := by
  cases e with
  | registerUser id quota => exact used_registerUser s id quota u
  | _ => rfl

theorem storedFor_outside (e : Outside) (s : State) (u : Uuid) :
    storedFor (outside e s) u = storedFor s u := by
  cases e <;> rfl

theorem listsCurrent_of_refundsListed {env : Env} {w : Server} {i : Nat} {choice : Choice}
    {t : CollectBlobs} (hi : w.tasks[i]? = some (.collectBlobs t))
    (h : refundsListed env w (.resume i choice) = true) : ListsCurrent env w.shared t := by
  cases t with
  | deleteIfUnreferenced blob rest report =>
      intro b hb hc
      simp only [refundsListed, hi, List.all_eq_true] at h
      have hkey : b.sha256 = blob.sha256 := Table.key_of_find? hb
      simpa [hkey, hc] using h b (Table.mem_of_find? hb)
  | _ => trivial

theorem conserved_step {env : Env} {w : Server} {l : Move} (h : Conserved w)
    (hl : refundsListed env w l = true) : Conserved ((server env).step w l) := by
  refine System.step_induction (fun r _ => ?_) (fun i choice t hlab hi => ?_) h (fun e _ => ?_)
  · refine ⟨fun u => ?_, fun t ht => ?_⟩
    · have hb := h.balance u
      have he : owed u ((server env).entry r) = 0 := owed_entry r u
      simp only [totalOwed, List.map_append, List.sum_append, List.map_cons, List.sum_cons,
        List.map_nil, List.sum_nil, he] at hb ⊢
      exact hb
    · rcases List.mem_append.mp ht with ht | ht
      · exact h.paired t ht
      · rw [List.mem_singleton] at ht
        subst ht
        exact paired_entry r
  · subst hlab
    have hpt : Paired t := h.paired t (List.mem_of_getElem? hi)
    refine (step_balance t hpt (owed_le_used h hi)
      (fun c hc => listsCurrent_of_refundsListed (hc ▸ hi) hl)).mono (fun s' t' hs => ?_)
    refine ⟨fun u => ?_, fun x hx => ?_⟩
    · have hbal : used s' u + storedFor w.shared u + owed u t
          = used w.shared u + storedFor s' u + owed u t' := hs.1 u
      have hsum : ((w.tasks.set i t').map (owed u)).sum + owed u t
          = totalOwed w u + owed u t' := sum_map_set (owed u) hi
      have hb := h.balance u
      show used s' u = storedFor s' u + ((w.tasks.set i t').map (owed u)).sum
      omega
    · rcases List.mem_or_eq_of_mem_set hx with hx | rfl
      · exact h.paired x hx
      · exact hs.2
  · refine ⟨fun u => ?_, h.paired⟩
    have hb := h.balance u
    show used (outside e w.shared) u = storedFor (outside e w.shared) u + totalOwed w u
    rw [used_outside, storedFor_outside]
    exact hb

theorem conserved_initial {w : Server} (h : Initial w) : Conserved w := by
  refine ⟨fun u => ?_, fun t ht => ?_⟩
  · have hused : used w.shared u = 0 := by
      unfold used
      cases hf : w.shared.users.find? u with
      | none => rfl
      | some user => exact h.used user (Table.mem_of_find? hf)
    rw [hused, storedFor, totalOwed, h.tasks, h.blobs]
    rfl
  · rw [h.tasks] at ht
    cases ht

theorem conserved_run {env : Env} {w : Server} (ls : List Move) (hw : Initial w)
    (hok : (server env).Along (fun w l => refundsListed env w l = true) w ls) :
    Conserved ((server env).run w ls) :=
  System.run_invariant (fun _ _ h hl => conserved_step h hl) ls w (conserved_initial hw) hok

/-! ## No account gets past its quota -/

def WithinQuota (s : State) : Prop := ∀ u ∈ s.users, u.uploadUsedBytes ≤ u.uploadQuotaBytes

theorem withinQuota_exec (env : Env) {α : Type} (choice : Choice) (c : Call α) (s : State)
    (h : WithinQuota s) : WithinQuota (exec env choice c s).2 := by
  by_cases hc : c.writesUsers = true
  · cases c with
    | chargeUpload id bytes =>
        obtain e | ⟨user, hu, hq, e⟩ := s.chargeUpload_cases id bytes <;> simp only [exec, e]
        · exact h
        · intro u' hu'
          obtain ⟨u, hm, hid, rfl⟩ | ⟨hm, _⟩ := Table.mem_modify.mp hu'
          · have : u = user := Table.eq_of_key_eq hm (Table.mem_of_find? hu)
              (hid.trans (Table.key_of_find? hu).symm)
            subst this
            exact hq
          · exact h u' hm
    | releaseUpload id bytes =>
        intro u' hu'
        obtain ⟨u, hm, _, rfl⟩ | ⟨hm, _⟩ := Table.mem_modify.mp hu'
        · exact (Nat.sub_le _ _).trans (h u hm)
        · exact h u' hm
    | _ => cases hc
  · have hf := (exec_frame env choice c s).users (by simpa using hc)
    unfold WithinQuota
    rw [hf]
    exact h

theorem withinQuota_outside (e : Outside) (s : State) (h : WithinQuota s) :
    WithinQuota (outside e s) := by
  cases e with
  | registerUser id quota =>
      intro u hu
      rcases Table.eq_or_mem_of_mem_insert hu with rfl | hu
      · exact Nat.zero_le quota
      · exact h u hu
  | _ => exact h

theorem withinQuota_run {env : Env} {w : Server} (ls : List Move) (hw : Initial w) :
    WithinQuota ((server env).run w ls).shared := by
  refine System.shared_invariant (S := server env)
    (fun choice c s h => withinQuota_exec env choice c s h)
    (fun e s h => withinQuota_outside e s h) ls w (fun u hu => ?_)
  rw [hw.used u hu]
  exact Nat.zero_le _

/-! ## The theorem -/

/-- A release takes no more than there is, so the clamp at zero does not show. -/
def Covered (s : State) {α : Type} : Call α → Prop
  | .releaseUpload id bytes =>
      ∀ user, s.users.find? id = some user → bytes ≤ user.uploadUsedBytes
  | _ => True

theorem used_of_find? {s : State} {u : Uuid} {user : User} (h : s.users.find? u = some user) :
    used s u = user.uploadUsedBytes := by
  rw [used, h]
  rfl

theorem covered_release {s : State} {id : Uuid} {bytes : Nat} (h : bytes ≤ used s id) :
    ∀ user, s.users.find? id = some user → bytes ≤ user.uploadUsedBytes := by
  intro user hu
  rwa [used_of_find? hu] at h

theorem next_covered {env : Env} {s : State} {t : Task} (hp : Paired t)
    (hle : ∀ u, owed u t ≤ used s u) : (t.next env).All (fun c _ => Covered s c) := by
  by_cases hk : t.kind.writesUsers = true
  · cases t with
    | uploadChunk t =>
        rw [Task.next, Suspended.all_map]
        cases t with
        | completing session point =>
            cases point with
            | releaseFailed e =>
                exact covered_release (by simpa [owed, charged] using hle session.userId)
            | releaseLost =>
                exact covered_release (by simpa [owed, charged] using hle session.userId)
            | _ => trivial
        | _ => trivial
    | collectBlobs t =>
        rw [Task.next, Suspended.all_map]
        cases t with
        | releaseUpload deleted blob userId rest report =>
            simp only [Paired] at hp
            exact covered_release (by simpa [owed, paidBy, hp.1, hp.2] using hle userId)
        | _ => trivial
    | _ => cases hk
  · refine (t.next_permits env).mono (fun c _ h => ?_)
    cases c with
    | releaseUpload id bytes => exact absurd (h.1.users rfl) hk
    | _ => trivial

/-- **Quota conservation.** In every run in which no collector deletes a row other than the
one it listed, every account has used exactly what its blobs take and what is owed to it, no
release is ever clamped, and no account is past its quota. -/
theorem quota_conserved (env : Env) (w : Server) (ls : List Move) (hw : Initial w)
    (hok : (server env).Along (fun w l => refundsListed env w l = true) w ls) :
    (∀ user ∈ ((server env).run w ls).shared.users,
      user.uploadUsedBytes = storedFor ((server env).run w ls).shared user.id
        + totalOwed ((server env).run w ls) user.id ∧
      user.uploadUsedBytes ≤ user.uploadQuotaBytes) ∧
    ∀ t ∈ ((server env).run w ls).tasks,
      (t.next env).All (fun c _ => Covered ((server env).run w ls).shared c) := by
  have h := conserved_run ls hw hok
  refine ⟨fun user hu => ⟨?_, withinQuota_run ls hw user hu⟩, fun t ht => ?_⟩
  · rw [← h.balance user.id, used_of_find? (Table.find?_of_mem hu)]
  · obtain ⟨i, hi⟩ := List.mem_iff_getElem?.mp ht
    exact next_covered (h.paired t ht) (owed_le_used h hi)

/-! ## Two passes at once -/

section Demo

open Launcher.Demo

/-- One pass, from upload to refund. -/
def onePass : List Move :=
  stored ++ after 11 ++ .request .collectUnreferencedBlobs :: go 3 4

theorem quota_conserved_onePass :
    (∀ user ∈ ((server env).run start onePass).shared.users,
      user.uploadUsedBytes = storedFor ((server env).run start onePass).shared user.id
        + totalOwed ((server env).run start onePass) user.id ∧
      user.uploadUsedBytes ≤ user.uploadQuotaBytes) ∧
    ∀ t ∈ ((server env).run start onePass).tasks,
      (t.next env).All (fun c _ => Covered ((server env).run start onePass).shared c) :=
  quota_conserved env start onePass initial_start (by decide +kernel)

/-- The first pass (task 3) lists the blob alice uploaded and stops there; the second collects
it; bob uploads the same content; the first pass goes on, deletes bob's blob and refunds
alice. -/
def overtaken : List Move :=
  stored ++ after 11
    ++ .request .collectUnreferencedBlobs :: go 3 1
    ++ .request .collectUnreferencedBlobs :: go 4 4
    ++ uploadedA 5 bob 21 ++ after 11 ++ go 3 3

/-- Every request of the run is answered, no blob is left, and bob still pays for one. -/
theorem overtaken_unbalanced :
    Initial start ∧ ∃ user ∈ ((server env).run start overtaken).shared.users,
      user.id = bob.userId ∧
      user.uploadUsedBytes ≠ storedFor ((server env).run start overtaken).shared user.id
        + totalOwed ((server env).run start overtaken) user.id := by
  refine ⟨initial_start, ⟨2, 100, 1⟩, ?_, rfl, ?_⟩
  · show (⟨2, 100, 1⟩ : User) ∈ ((server env).run start overtaken).shared.users.rows
    decide +kernel
  · decide +kernel

end Demo

end Launcher.Quota
