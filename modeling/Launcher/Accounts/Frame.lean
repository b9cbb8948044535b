import Launcher.Accounts.Statements

set_option autoImplicit false

/-! # What the account calls leave alone -/

namespace Launcher.Accounts

open Launcher.Lib

/-- The parts of the account state. -/
inductive Part
  | now
  | users
  | roles
  | userRoles
  | refreshTokens
  | userTokens
  | audit
  | deletionRequests
  deriving DecidableEq

/-- A part is as it was. -/
def Same (s s' : State) : Part → Prop
  | .now => s'.now = s.now
  | .users => s'.users = s.users
  | .roles => s'.roles = s.roles
  | .userRoles => s'.userRoles = s.userRoles
  | .refreshTokens => s'.refreshTokens = s.refreshTokens
  | .userTokens => s'.userTokens = s.userTokens
  | .audit => s'.audit = s.audit
  | .deletionRequests => s'.deletionRequests = s.deletionRequests

/-- The call may write to the part. -/
def Call.writes {α : Type} (part : Part) : Call α → Bool
  | .createUser _ => part == .users
  | .markEmailVerified _ => part == .users
  | .updatePasswordHash _ _ => part == .users
  | .rehashPassword _ _ => part == .users
  | .recordSuccessfulLogin _ => part == .users
  | .assignRole _ _ => part == .userRoles
  | .issueToken _ _ => part == .refreshTokens
  | .rotate _ _ _ _ => part == .refreshTokens
  | .revokeById _ => part == .refreshTokens
  | .revokeFamily _ => part == .refreshTokens
  | .revokeAllForUser _ => part == .refreshTokens
  | .issueUserToken _ _ _ => part == .userTokens
  | .consume _ _ => part == .userTokens
  | .invalidateAll _ _ => part == .userTokens
  | .erase _ _ _ =>
      part == .users || part == .refreshTokens || part == .userTokens || part == .audit ||
        part == .deletionRequests
  | .setUploadQuota _ _ _ => part == .users || part == .audit
  | .setActive _ _ _ => part == .users || part == .refreshTokens || part == .audit
  | .setTemporaryPassword _ _ _ =>
      part == .users || part == .refreshTokens || part == .userTokens || part == .audit
  | .grantRole _ _ _ => part == .userRoles || part == .audit
  | .revokeRole _ _ _ => part == .userRoles || part == .audit
  | _ => false

/-- What a call leaves alone, and that no id becomes free again. -/
structure Frame {α : Type} (c : Call α) (s s' : State) : Prop where
  same : ∀ part, c.writes part = false → Same s s' part
  issued : ∀ id ∈ s.issued, id ∈ s'.issued

section Frames

variable {α : Type} {c : Call α} {s s' : State}

theorem Frame.refl (c : Call α) (s : State) : Frame c s s where
  same := fun part _ => by cases part <;> rfl
  issued := fun _ h => h

theorem Frame.of_parts (h : ∀ part, c.writes part = true ∨ Same s s' part)
    (hissued : ∀ id ∈ s.issued, id ∈ s'.issued) : Frame c s s' where
  same := fun part hw => (h part).resolve_left (by rw [hw]; exact Bool.false_ne_true)
  issued := hissued

/-- A token that is inserted, or refused. -/
theorem insertToken_outcome (env : Env) (choice : Choice) (t : State) (userId familyId : Uuid)
    (client : ClientContext) :
    (∃ e, t.insertToken env choice userId familyId client = (.error e, t)) ∨
    ∃ reply tokens, t.insertToken env choice userId familyId client =
      (.ok reply, { t with refreshTokens := tokens, issued := choice.uuid :: t.issued }) := by
  unfold State.insertToken
  split_ifs
  · exact Or.inl ⟨_, rfl⟩
  · exact Or.inl ⟨_, rfl⟩
  · exact Or.inr ⟨_, _, rfl⟩

/-- **A call leaves alone what it does not write to.** -/
theorem Frame.of_exec (env : Env) (choice : Choice) (c : Call α) (s : State) :
    Frame c s (exec env choice c s).2 := by
  cases c with
  | createUser user =>
      simp only [exec, State.createUser]
      split_ifs
      · exact .refl _ s
      · exact .refl _ s
      · exact .refl _ s
      · refine .of_parts (fun part => ?_) (fun _ h => List.mem_cons_of_mem _ h)
        cases part <;> first | exact Or.inl rfl | exact Or.inr rfl
  | assignRole userId roleKey =>
      simp only [exec, State.insertRole]
      split_ifs
      · refine .of_parts (fun part => ?_) (fun _ h => h)
        cases part <;> first | exact Or.inl rfl | exact Or.inr rfl
      · exact .refl _ s
  | issueToken userId client =>
      simp only [exec, State.issueToken]
      split_ifs
      · exact .refl _ s
      · rcases insertToken_outcome env choice { s with issued := choice.family :: s.issued } userId
          choice.family client with ⟨e, he⟩ | ⟨reply, tokens, he⟩
        · rw [he]
          exact .refl _ s
        · rw [he]
          refine .of_parts (fun part => ?_)
            (fun _ h => List.mem_cons_of_mem _ (List.mem_cons_of_mem _ h))
          cases part <;> first | exact Or.inl rfl | exact Or.inr rfl
  | rotate previousId userId familyId client =>
      simp only [exec, State.rotate]
      rcases insertToken_outcome env choice (s.replaceToken previousId choice.uuid) userId familyId
        client with ⟨e, he⟩ | ⟨reply, tokens, he⟩
      · rw [he]
        exact .refl _ s
      · rw [he]
        refine .of_parts (fun part => ?_) (fun _ h => List.mem_cons_of_mem _ h)
        cases part <;> first | exact Or.inl rfl | exact Or.inr rfl
  | issueUserToken userId purpose ttl =>
      simp only [exec, State.issueUserToken]
      split_ifs
      · exact .refl _ s
      · exact .refl _ s
      · refine .of_parts (fun part => ?_) (fun _ h => List.mem_cons_of_mem _ h)
        cases part <;> first | exact Or.inl rfl | exact Or.inr rfl
  | consume tokenHash purpose =>
      simp only [exec, State.consume]
      split
      · exact .refl _ s
      · refine .of_parts (fun part => ?_) (fun _ h => h)
        cases part <;> first | exact Or.inl rfl | exact Or.inr rfl
  | erase userId identity audit =>
      simp only [exec, State.erase]
      split
      · exact .refl _ s
      · split_ifs
        · exact .refl _ s
        · exact .refl _ s
        · refine .of_parts (fun part => ?_) (fun _ h => h)
          cases part <;> first | exact Or.inl rfl | exact Or.inr rfl
  | setUploadQuota userId quotaBytes audit =>
      simp only [exec, State.setUploadQuota]
      split
      · exact .refl _ s
      · refine .of_parts (fun part => ?_) (fun _ h => h)
        cases part <;> first | exact Or.inl rfl | exact Or.inr rfl
  | setActive userId active audit =>
      simp only [exec, State.setActive]
      split
      · exact .refl _ s
      · cases active <;> refine .of_parts (fun part => ?_) (fun _ h => h) <;> cases part <;>
          first | exact Or.inl rfl | exact Or.inr rfl
  | setTemporaryPassword userId hash audit =>
      simp only [exec, State.setTemporaryPassword]
      split
      · exact .refl _ s
      · refine .of_parts (fun part => ?_) (fun _ h => h)
        cases part <;> first | exact Or.inl rfl | exact Or.inr rfl
  | grantRole userId roleKey audit =>
      simp only [exec, State.grantRole, State.insertRole]
      split_ifs
      · refine .of_parts (fun part => ?_) (fun _ h => h)
        cases part <;> first | exact Or.inl rfl | exact Or.inr rfl
      · refine .of_parts (fun part => ?_) (fun _ h => h)
        cases part <;> first | exact Or.inl rfl | exact Or.inr rfl
      · exact .refl _ s
  | revokeRole userId roleKey audit =>
      simp only [exec, State.revokeRole]
      split_ifs
      · refine .of_parts (fun part => ?_) (fun _ h => h)
        cases part <;> first | exact Or.inl rfl | exact Or.inr rfl
      · exact .refl _ s
  | _ =>
      refine .of_parts (fun part => ?_) (fun _ h => h)
      cases part <;> first | exact Or.inl rfl | exact Or.inr rfl

end Frames

end Launcher.Accounts
