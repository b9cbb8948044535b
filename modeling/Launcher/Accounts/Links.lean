import Launcher.Accounts.Tokens

set_option autoImplicit false

/-! # What the statements do to the links

A link is inserted unspent; afterwards its id, its account, its purpose, its hash and its
expiry never change, and a spent link stays spent. `exec_links` says once what a call can do
to `user_tokens`. -/

namespace Launcher.Accounts

open Launcher.Lib

/-- The account and the purpose of the link a call issues. -/
def Call.issuesLink {α : Type} : Call α → Option (Uuid × UserTokenPurpose)
  | .issueUserToken userId purpose _ => some (userId, purpose)
  | _ => none

/-- `later` is `link`, possibly spent since. -/
structure LaterLink (link later : UserToken) : Prop where
  id : later.id = link.id
  userId : later.userId = link.userId
  purpose : later.purpose = link.purpose
  expiresAt : later.expiresAt = link.expiresAt
  unchanged : later.consumedAt = none → later = link

theorem LaterLink.refl (link : UserToken) : LaterLink link link :=
  ⟨rfl, rfl, rfl, rfl, fun _ => rfl⟩

/-- What is known of a link the call inserts. -/
structure InsertedLink {α : Type} (c : Call α) (s : State) (link : UserToken) : Prop where
  fresh : link.id ∉ s.issued
  unspent : link.consumedAt = none
  origin : c.issuesLink = some (link.userId, link.purpose)

/-- What a call can do to the links. -/
structure LinksAfter {α : Type} (c : Call α) (s s' : State) : Prop where
  rows : ∀ link' ∈ s'.userTokens,
    (∃ link ∈ s.userTokens, LaterLink link link') ∨ InsertedLink c s link'

section Statements

variable {α : Type} {c : Call α} {s s' : State}

theorem LinksAfter.of_eq (h : s'.userTokens = s.userTokens) : LinksAfter c s s' where
  rows := fun link' hlink => Or.inl ⟨link', h ▸ hlink, LaterLink.refl link'⟩

theorem laterLink_consumeWhere {p : UserToken → Bool} {link' : UserToken}
    (h : link' ∈ (s.consumeWhere p).userTokens) : ∃ link ∈ s.userTokens, LaterLink link link' := by
  obtain ⟨link, hlink, heq⟩ := Table.mem_updateWhere.mp h
  refine ⟨link, hlink, ?_⟩
  rw [heq]
  split_ifs
  · exact ⟨rfl, rfl, rfl, rfl, fun hnone => by cases hnone⟩
  · exact LaterLink.refl link

/-- A call that spends the links with `p` and does nothing else to the table. -/
theorem LinksAfter.of_consumed (p : UserToken → Bool)
    (h : s'.userTokens = (s.consumeWhere p).userTokens) : LinksAfter c s s' where
  rows := fun _ hlink => Or.inl (laterLink_consumeWhere (h ▸ hlink))

/-- After the links with `p` have been spent none of them is unspent. -/
theorem spent_consumeWhere {p : UserToken → Bool} (hp : ∀ link later, LaterLink link later →
      p later = p link) {link' : UserToken} (h : link' ∈ (s.consumeWhere p).userTokens)
    (hlink : p link' = true) : link'.consumedAt ≠ none := by
  obtain ⟨link, hmem, hlater⟩ := laterLink_consumeWhere h
  intro hnone
  have hold : p link = true := by rw [← hp link link' hlater, hlink]
  have hsame := hlater.unchanged hnone
  obtain ⟨old, hold', heq⟩ := Table.mem_updateWhere.mp h
  have hid : old = link := by
    refine Table.eq_of_key_eq hold' hmem ?_
    have := hlater.id
    rw [heq] at this
    split_ifs at this <;> exact this
  rw [hid] at heq
  have hunspent : link.consumedAt = none := by rw [← hsame, hnone]
  rw [if_pos (by simp [hold, hunspent])] at heq
  rw [heq] at hnone
  cases hnone

theorem issueUserToken_cases (env : Env) (choice : Choice) (userId : Uuid)
    (purpose : UserTokenPurpose) (ttl : Nat) :
    (∃ e, s.issueUserToken env choice userId purpose ttl = (.error e, s)) ∨
    ∃ link : UserToken, link.id = choice.uuid ∧ link.userId = userId ∧ link.purpose = purpose ∧
      link.consumedAt = none ∧ choice.uuid ∉ s.issued ∧
      s.issueUserToken env choice userId purpose ttl = (.ok choice.token,
        { s with userTokens := s.userTokens.insert link, issued := choice.uuid :: s.issued }) := by
  unfold State.issueUserToken
  split_ifs with hu hd
  · exact Or.inl ⟨_, rfl⟩
  · exact Or.inl ⟨_, rfl⟩
  · simp only [Bool.or_eq_true, not_or, List.contains_eq_mem, decide_eq_true_eq] at hd
    exact Or.inr ⟨_, rfl, rfl, rfl, rfl, hd.1, rfl⟩

end Statements

/-- **What a call can do to the links.** -/
theorem exec_links (env : Env) (choice : Choice) {α : Type} (c : Call α) (s : State) :
    LinksAfter c s (exec env choice c s).2 := by
  have hframe : Frame c s (exec env choice c s).2 := .of_exec env choice c s
  cases c with
  | issueUserToken userId purpose ttl =>
      simp only [exec]
      rcases issueUserToken_cases (s := s) env choice userId purpose ttl with
        ⟨e, he⟩ | ⟨link, hid, hu, hp, hn, hnew, he⟩
      · rw [he]
        exact .of_eq rfl
      · rw [he]
        refine ⟨fun link' hlink => ?_⟩
        rcases Table.eq_or_mem_of_mem_insert hlink with rfl | hlink
        · exact Or.inr ⟨hid ▸ hnew, hn, by rw [hu, hp]; rfl⟩
        · exact Or.inl ⟨link', hlink, LaterLink.refl link'⟩
  | consume tokenHash purpose =>
      simp only [exec, State.consume]
      split
      · exact .of_eq rfl
      · exact .of_consumed _ rfl
  | invalidateAll userId purpose => exact .of_consumed _ rfl
  | setTemporaryPassword userId hash audit =>
      simp only [exec, State.setTemporaryPassword]
      split
      · exact .of_eq rfl
      · exact .of_consumed (fun t => t.userId == userId && t.purpose == .PasswordReset) rfl
  | erase userId identity audit =>
      simp only [exec, State.erase]
      split
      · exact .of_eq rfl
      · split_ifs
        · exact .of_eq rfl
        · exact .of_eq rfl
        · refine ⟨fun link' hlink => Or.inl ⟨link', ?_, LaterLink.refl link'⟩⟩
          exact (Table.mem_delete.mp hlink).1
  | _ => exact .of_eq (hframe.same .userTokens rfl)

end Launcher.Accounts
