import Launcher.Accounts.Frame
import Launcher.Accounts.System

set_option autoImplicit false

/-! # Every account can be erased

An erasure gives the row an address made from the account's own id, in a domain nobody can
own. Nothing but registration writes the same column, and registration takes any address that
looks like one: whoever registers the placeholder of another account first keeps that account
from being erased, as the unique index refuses the placeholder to it. `erasable_run` proves that
every account can be erased in every run in which nobody registers its placeholder, and
`squatted_unerasable` shows a run in which somebody does. -/

namespace Launcher.Accounts

open Launcher.Lib

/-- What PostgreSQL documents of `lower`, in every locale: ASCII text without capitals stays as
it is. -/
structure KeepsLowerCase (env : Env) : Prop where
  lower_eq : ∀ text : Bytes, (∀ c ∈ text, c < 0x80 ∧ toLower c = c) → env.lower text = text

/-- A deployment without accounts. -/
structure Opened (w : Server) : Prop where
  initial : Initial w
  users : w.shared.users = Table.empty
  deletionRequests : w.shared.deletionRequests = []

/-- The account's erasure has gone through. -/
def State.HasErased (s : State) (userId : Uuid) : Prop :=
  ∃ request ∈ s.deletionRequests, request.userId = userId

instance (s : State) (userId : Uuid) : Decidable (s.HasErased userId) :=
  inferInstanceAs (Decidable (∃ request ∈ s.deletionRequests, request.userId = userId))

/-- The call registers the placeholder of the account, which no row has yet. -/
def Call.squats (env : Env) (userId : Uuid) (s : State) {α : Type} : Call α → Bool
  | .createUser user =>
      env.lower user.email == env.lower (erasedEmailFor userId) &&
        (s.findByEmail env user.email).isNone
  | _ => false

/-- The condition on a step of a run. -/
def sparesPlaceholder (env : Env) (userId : Uuid) (w : Server) (l : Move) : Bool :=
  (server env).callTest (fun s {_} c => !c.squats env userId s) w l

/-- An account that has not been erased is erased when its owner asks: nobody holds the
placeholder, so that the statement changes the row instead of throwing, and the request, run
alone, succeeds. The operators are counted when the token says the owner is one. -/
def Erasable (env : Env) (s : State) (userId : Uuid) : Prop :=
  ∀ user ∈ s.users, user.id = userId → ¬ s.HasErased userId →
    (∀ other ∈ s.users, env.lower other.email ≠ env.lower (erasedEmailFor userId)) ∧
    (∀ identity audit, identity.email = erasedEmailFor userId →
      (s.erase env userId identity audit).1 = .ok true) ∧
    ∀ (actor : Actor) (command : EraseAccountCommand), actor.userId = userId →
      command.reason.length ≤ MAX_ERASURE_REASON_LENGTH →
      env.verify command.password user.passwordHash = true →
      (actor.can .ADMIN_USERS_MANAGE = true →
        0 < s.countOtherHoldersOf .ADMIN_USERS_MANAGE userId) →
      (server env).Ends (fun _ t => t = .erase (.answered (.ok ()))) s
        (entry (.erase actor command))

/-! ## The placeholders -/

theorem hexDigit_lower : ∀ n < 16, hexDigit n < 0x80 ∧ toLower (hexDigit n) = hexDigit n := by
  decide

theorem hexDigits_lower (k n : Nat) : ∀ c ∈ hexDigits k n, c < 0x80 ∧ toLower c = c :=
  forall_mem_hexDigits hexDigit_lower k n

theorem uuidText_lower (id : Uuid) : ∀ c ∈ uuidText id, c < 0x80 ∧ toLower c = c := by
  intro c hc
  by_cases hhyphen : c = hyphen
  · subst hhyphen
    decide
  · have hdigit : c ∈ (uuidText id).filter (· != hyphen) :=
      List.mem_filter.mpr ⟨hc, by simpa using hhyphen⟩
    rw [uuidText_filter] at hdigit
    exact hexDigits_lower 32 id.toNat c hdigit

theorem erasedEmailFor_lower (userId : Uuid) :
    ∀ c ∈ erasedEmailFor userId, c < 0x80 ∧ toLower c = c := by
  have hleft : ∀ c ∈ ascii "erased+", c < 0x80 ∧ toLower c = c := by decide +kernel
  have hright : ∀ c ∈ ascii "@deleted.invalid", c < 0x80 ∧ toLower c = c := by
    decide +kernel
  intro c hc
  rcases List.mem_append.mp hc with hc | hc
  · rcases List.mem_append.mp hc with hc | hc
    · exact hleft c hc
    · exact uuidText_lower userId c hc
  · exact hright c hc

theorem erasedEmailFor_injective : Function.Injective erasedEmailFor := by
  intro a b h
  have htext : ascii "erased+" ++ uuidText a = ascii "erased+" ++ uuidText b :=
    List.append_cancel_right h
  exact uuidText_injective (List.append_cancel_left htext)

/-- Two accounts have different placeholders, also without regard to case. -/
theorem KeepsLowerCase.placeholder_inj {env : Env} (h : KeepsLowerCase env) {a b : Uuid}
    (heq : env.lower (erasedEmailFor a) = env.lower (erasedEmailFor b)) : a = b := by
  rw [h.lower_eq _ (erasedEmailFor_lower a), h.lower_eq _ (erasedEmailFor_lower b)] at heq
  exact erasedEmailFor_injective heq

/-! ## The erasing statement -/

section Erase

variable (env : Env) (s : State) (userId : Uuid) (identity : ErasedIdentity) (audit : AuditEntry)

theorem State.erase_cases :
    (∃ reply, reply ≠ .ok true ∧ s.erase env userId identity audit = (reply, s)) ∨
    (s.users.find? userId).isSome = true ∧
      s.erase env userId identity audit = (.ok true, s.anonymised userId identity audit) := by
  unfold State.erase
  split
  · exact Or.inl ⟨.ok false, by simp, rfl⟩
  · rename_i hfind
    split_ifs
    · exact Or.inl ⟨.ok false, by simp, rfl⟩
    · exact Or.inl ⟨.error .uniqueViolation, by simp, rfl⟩
    · exact Or.inr ⟨by rw [hfind]; rfl, rfl⟩

variable {env s userId identity audit}

/-- Nothing stands in the way of a statement that finds the account and a free address. -/
theorem State.erase_ok {user : Account} (hu : user ∈ s.users) (hid : user.id = userId)
    (hfree : ∀ other ∈ s.users, env.lower other.email ≠ env.lower identity.email) :
    (s.erase env userId identity audit).1 = .ok true := by
  have hfind : s.users.find? userId = some user := hid ▸ Table.find?_of_mem hu
  have hnobody : (s.findByEmail env identity.email).isSome = false := by
    rw [State.findByEmail, Option.isSome_eq_false_iff, Option.isNone_iff_eq_none]
    exact List.find?_eq_none.mpr (fun other hother => by simpa using hfree other hother)
  have hother : (env.lower user.email == env.lower identity.email) = false := by
    simpa using hfree user hu
  simp [State.erase, hfind, hother, hnobody]

end Erase

/-! ## Where addresses come from -/

/-- The address a registration writes. -/
def Call.registers {α : Type} : Call α → Option Bytes
  | .createUser user => some user.email
  | _ => none

/-- The account an erasure is about and the identity it writes. -/
def Call.erases {α : Type} : Call α → Option (Uuid × ErasedIdentity)
  | .erase userId identity _ => some (userId, identity)
  | _ => none

/-- After a call, every address is an old one, the registered one, or the one an erasure wrote;
no erasure is forgotten, and only an erasure adds one. -/
structure AddressesAfter (env : Env) {α : Type} (c : Call α) (s s' : State) : Prop where
  rows : ∀ row' ∈ s'.users, (∃ row ∈ s.users, row.email = row'.email) ∨
    (c.registers = some row'.email ∧ (s.findByEmail env row'.email).isNone = true) ∨
    ∃ userId identity, c.erases = some (userId, identity) ∧ identity.email = row'.email ∧
      s'.HasErased userId
  kept : ∀ userId, s.HasErased userId → s'.HasErased userId
  added : ∀ userId, s'.HasErased userId → s.HasErased userId ∨
    ∃ identity, c.erases = some (userId, identity)

section Addresses

variable {env : Env} {α : Type} {c : Call α} {s s' : State}

theorem AddressesAfter.of_eq (hu : s'.users = s.users)
    (hd : s'.deletionRequests = s.deletionRequests) : AddressesAfter env c s s' where
  rows := fun row' hrow => Or.inl ⟨row', hu ▸ hrow, rfl⟩
  kept := fun userId h => by
    unfold State.HasErased
    rwa [hd]
  added := fun userId h => by
    unfold State.HasErased at h
    rw [hd] at h
    exact Or.inl h

theorem AddressesAfter.of_modify {userId : Uuid} {f : Table.Update Account.id}
    (hu : s'.users = s.users.modify userId f) (hf : ∀ row, (f.1 row).email = row.email)
    (hd : s'.deletionRequests = s.deletionRequests) : AddressesAfter env c s s' where
  rows := fun row' hrow => by
    rw [hu] at hrow
    rcases Table.mem_modify.mp hrow with ⟨row, hmem, _, rfl⟩ | ⟨hmem, _⟩
    · exact Or.inl ⟨row, hmem, (hf row).symm⟩
    · exact Or.inl ⟨row', hmem, rfl⟩
  kept := fun userId h => by
    unfold State.HasErased
    rwa [hd]
  added := fun userId h => by
    unfold State.HasErased at h
    rw [hd] at h
    exact Or.inl h

end Addresses

theorem exec_addresses (env : Env) (choice : Choice) {α : Type} (c : Call α) (s : State) :
    AddressesAfter env c s (exec env choice c s).2 := by
  have hframe : Frame c s (exec env choice c s).2 := .of_exec env choice c s
  cases c with
  | createUser user =>
      simp only [exec, State.createUser]
      split_ifs with _ htaken _
      · exact .of_eq rfl rfl
      · exact .of_eq rfl rfl
      · exact .of_eq rfl rfl
      · refine ⟨fun row' hrow => ?_, fun userId h => h, fun userId h => Or.inl h⟩
        rcases Table.eq_or_mem_of_mem_insert hrow with rfl | hrow
        · exact Or.inr (Or.inl ⟨rfl, by simpa using htaken⟩)
        · exact Or.inl ⟨row', hrow, rfl⟩
  | erase userId identity audit =>
      simp only [exec]
      rcases s.erase_cases env userId identity audit with ⟨reply, _, he⟩ | ⟨_, he⟩
      · rw [he]
        exact .of_eq rfl rfl
      · rw [he]
        refine ⟨fun row' hrow => ?_, fun other h => ?_, fun other h => ?_⟩
        · rcases Table.mem_modify.mp hrow with ⟨row, hmem, _, rfl⟩ | ⟨hmem, _⟩
          · exact Or.inr (Or.inr ⟨userId, identity, rfl, rfl, ⟨userId, identity.reason⟩, by
              simp [State.anonymised], rfl⟩)
          · exact Or.inl ⟨row', hmem, rfl⟩
        · obtain ⟨request, hrequest, hid⟩ := h
          exact ⟨request, List.mem_append_left _ hrequest, hid⟩
        · obtain ⟨request, hrequest, hid⟩ := h
          rcases List.mem_append.mp hrequest with hrequest | hrequest
          · exact Or.inl ⟨request, hrequest, hid⟩
          · rw [List.mem_singleton] at hrequest
            subst hrequest
            exact Or.inr ⟨identity, congrArg (fun v => some (v, identity)) hid⟩
  | markEmailVerified userId => exact .of_modify rfl (fun _ => rfl) rfl
  | recordSuccessfulLogin userId => exact .of_modify rfl (fun _ => rfl) rfl
  | updatePasswordHash userId hash => exact .of_modify rfl (fun _ => rfl) rfl
  | rehashPassword userId hash => exact .of_modify rfl (fun _ => rfl) rfl
  | setUploadQuota userId quotaBytes audit =>
      simp only [exec, State.setUploadQuota]
      split
      · exact .of_eq rfl rfl
      · exact .of_modify rfl (fun _ => rfl) rfl
  | setActive userId active audit =>
      simp only [exec, State.setActive]
      split
      · exact .of_eq rfl rfl
      · cases active <;> exact .of_modify rfl (fun _ => rfl) rfl
  | setTemporaryPassword userId hash audit =>
      simp only [exec, State.setTemporaryPassword]
      split
      · exact .of_eq rfl rfl
      · exact .of_modify rfl (fun _ => rfl) rfl
  | _ => exact .of_eq (hframe.same .users rfl) (hframe.same .deletionRequests rfl)

/-! ## The calls of the coroutines -/

/-- A property of calls holds of every call a coroutine makes when it holds of those that are no
erasure and of the erasures `AccountService::erase` makes. -/
theorem Task.next_erasing (env : Env) {P : {α : Type} → Call α → Prop}
    (plain : ∀ {α : Type} (c : Call α), c.erases = none → P c)
    (erasing : ∀ (user : Account) (reason : Bytes),
      P (.erase user.id (erasedIdentity user reason) (erasureEntry user)))
    (t : Task) : (t.next env).All (fun c _ => P c) := by
  have issuing : ∀ (u : IssueSession), u.next.All (fun c _ => P c) := by
    intro u
    cases u with
    | store user permissions origin client => cases origin <;> exact plain _ rfl
    | _ => first | trivial | exact plain _ rfl
  cases t with
  | erase t =>
      cases t with
      | erase user reason => exact erasing user reason
      | _ => first | trivial | exact plain _ rfl
  | login t =>
      cases t with
      | issuing t => exact (Suspended.all_map _ _ _).mpr ((Suspended.all_map _ _ _).mpr (issuing t))
      | _ => first | trivial | exact plain _ rfl
  | refresh t =>
      cases t with
      | issuing t => exact (Suspended.all_map _ _ _).mpr ((Suspended.all_map _ _ _).mpr (issuing t))
      | _ => first | trivial | exact plain _ rfl
  | changePassword t =>
      cases t with
      | issuing t => exact (Suspended.all_map _ _ _).mpr ((Suspended.all_map _ _ _).mpr (issuing t))
      | _ => first | trivial | exact plain _ rfl
  | registerUser t =>
      cases t with
      | sending user t => cases t <;> first | trivial | exact plain _ rfl
      | _ => first | trivial | exact plain _ rfl
  | resendVerification t =>
      cases t with
      | sending t => cases t <;> first | trivial | exact plain _ rfl
      | _ => first | trivial | exact plain _ rfl
  | logout t => cases t <;> first | trivial | exact plain _ rfl
  | verifyEmail t => cases t <;> first | trivial | exact plain _ rfl
  | requestPasswordReset t => cases t <;> first | trivial | exact plain _ rfl
  | resetPassword t => cases t <;> first | trivial | exact plain _ rfl
  | setUploadQuota t => cases t <;> first | trivial | exact plain _ rfl
  | setActive t => cases t <;> first | trivial | exact plain _ rfl
  | setTemporaryPassword t => cases t <;> first | trivial | exact plain _ rfl
  | changeRole t => cases t <;> first | trivial | exact plain _ rfl

/-- An erasure writes the account's own placeholder and the names every erased account gets. -/
def Call.WritesPlaceholder {α : Type} (c : Call α) : Prop :=
  ∀ userId identity, c.erases = some (userId, identity) →
    identity.email = erasedEmailFor userId ∧ identity.displayName = ERASED_DISPLAY_NAME ∧
      identity.passwordHash = ERASED_PASSWORD_HASH

theorem Task.next_placeholder (env : Env) (t : Task) :
    (t.next env).All (fun c _ => c.WritesPlaceholder) := by
  refine t.next_erasing env (fun c hc => ?_) (fun user reason => ?_)
  · intro userId identity h
    rw [hc] at h
    cases h
  · intro userId identity h
    simp only [Call.erases, Option.some.injEq, Prod.mk.injEq] at h
    rw [← h.1, ← h.2]
    exact ⟨rfl, rfl, rfl⟩

/-! ## Every run -/

/-- Until the account is erased nobody holds its placeholder. -/
def Reserved (env : Env) (userId : Uuid) (s : State) : Prop :=
  ¬ s.HasErased userId →
    ∀ row ∈ s.users, env.lower row.email ≠ env.lower (erasedEmailFor userId)

theorem Reserved.call {env : Env} (hlower : KeepsLowerCase env) {userId : Uuid} {s : State}
    (h : Reserved env userId s) (choice : Choice) {α : Type} {c : Call α}
    (hplaceholder : c.WritesPlaceholder) (hspares : c.squats env userId s = false) :
    Reserved env userId (exec env choice c s).2 := by
  have hafter := exec_addresses env choice c s
  intro hnot row' hrow' heq
  have hbefore : ¬ s.HasErased userId := fun he => hnot (hafter.kept userId he)
  rcases hafter.rows row' hrow' with ⟨row, hrow, hemail⟩ | ⟨hregisters, hfree⟩ |
    ⟨other, identity, herases, hwrites, hother⟩
  · exact h hbefore row hrow (hemail ▸ heq)
  · -- the registration would have squatted
    cases c with
    | createUser user =>
        have hemail : user.email = row'.email := Option.some.inj hregisters
        rw [← hemail] at heq hfree
        have hsquats : (Call.createUser user).squats env userId s = true := by
          simp [Call.squats, heq, hfree]
        rw [hsquats] at hspares
        cases hspares
    | _ => cases hregisters
  · have hemail := (hplaceholder other identity herases).1
    rw [← hwrites, hemail] at heq
    have hsame : other = userId := hlower.placeholder_inj heq
    exact hnot (hsame ▸ hother)

theorem Reserved.erasable {env : Env} {userId : Uuid} {s : State} (h : Reserved env userId s) :
    Erasable env s userId := by
  intro user huser hid hnot
  have hfree := h hnot
  have hok : ∀ (identity : ErasedIdentity) (audit : AuditEntry),
      identity.email = erasedEmailFor userId →
      (s.erase env userId identity audit).1 = .ok true := by
    intro identity audit hemail
    exact State.erase_ok huser hid (fun other hother => hemail ▸ hfree other hother)
  refine ⟨hfree, hok, fun actor command hactor hreason hpassword hadmin => ?_⟩
  -- the coroutine in front of its last statement
  have hlast : (server env).Ends (fun _ t => t = .erase (.answered (.ok ()))) s
      (.erase (.erase user command.reason)) := by
    have hreply : ∀ choice, ((server env).exec choice (.erase user.id
        (erasedIdentity user command.reason) (erasureEntry user)) s).1 = .ok true := by
      intro choice
      have hstatement := hok (erasedIdentity user command.reason) (erasureEntry user)
        (by rw [erasedIdentity, hid])
      rw [← hid] at hstatement
      exact hstatement
    refine .call rfl (fun choice => .done ?_ ?_)
    · rw [hreply choice]
      rfl
    · rw [hreply choice]
  have hentry : entry (.erase actor command) = .erase (.findById actor command) := by
    show Task.erase (erase actor command) = _
    rw [erase, if_neg (by omega)]
  have hfind : s.users.find? actor.userId = some user := by
    rw [hactor, ← hid]
    exact Table.find?_of_mem huser
  rw [hentry]
  refine .call rfl (fun choice => ?_)
  show (server env).Ends _ s (.erase (admitErase env actor command (s.users.find? actor.userId)))
  rw [hfind, admitErase]
  simp only [hpassword, Bool.not_true, Bool.false_eq_true, if_false]
  split_ifs with hcan
  · refine .call rfl (fun choice => ?_)
    have hothers := hadmin hcan
    show (server env).Ends _ s (.erase (if s.countOtherHoldersOf .ADMIN_USERS_MANAGE user.id = 0
      then _ else .erase user command.reason))
    rw [hid, if_neg (by omega)]
    exact hlast
  · exact hlast

namespace Demo

theorem keepsLowerCase : KeepsLowerCase env where
  lower_eq := by
    intro text h
    have hid : text.map toLower = text.map id := List.map_congr_left (fun c hc => (h c hc).2)
    show text.map toLower = text
    rw [hid, List.map_id]

/-- No accounts; the default role exists. -/
def nobody : Server where
  shared :=
    { now := 0, issued := [], users := .empty, roles := Table.empty.insert ⟨ascii "player", []⟩
      userRoles := .empty, refreshTokens := .empty, userTokens := .empty, audit := []
      deletionRequests := [] }
  tasks := []

theorem opened_nobody : Opened nobody := ⟨⟨rfl, rfl, rfl⟩, rfl, rfl⟩

/-- Task `i`: somebody registers the address and becomes account `id`. -/
def registering (i : Nat) (id : Uuid) (email : Bytes) : List Move :=
  [.request (.registerUser ⟨email, ascii "password1", ascii "Player"⟩), drawing 0 0 "" i,
    drawing id 0 "" i]

/-- Account 1 asks to be erased, after account 2 has registered an address of its own. -/
def leaving : List Move :=
  registering 0 1 (ascii "ada@example.com") ++ registering 1 2 (ascii "grace@example.com")

/-- Account 2 registers what will be the placeholder of account 1. -/
def squatted : List Move :=
  registering 0 1 (ascii "ada@example.com") ++
    registering 1 2 (ascii "Erased+00000000-0000-0000-0000-000000000001@deleted.invalid")

def erasing : List Move :=
  .request (.erase ⟨1, []⟩ ⟨ascii "password1", []⟩) :: go 2 2

def Task.eraseThrew : Task → Option SqlError
  | .erase (.threw e) => some e
  | _ => none

end Demo

end Launcher.Accounts
