import Launcher.Accounts.Links
import Launcher.Deployment.System

set_option autoImplicit false

/-! # An erasure is permanent, as long as nobody writes for the account afterwards

The erasing statement is atomic, but no other statement asks whether the account it writes for
has been erased: a login or a refresh that read the row before it goes on and stores a session,
an access token outlives the account and fills its library, and a reset link is issued to
whoever asks for the placeholder address. `erasure_permanent` proves that an erased account
stays empty in every run in which no such statement runs for it, and `erased_then_written`
shows two runs in which one does. -/

namespace Launcher.Accounts

open Launcher.Lib

/-! ## The account side -/

/-- The account a statement writes for: its identity, its sessions or its links. -/
def Call.writesFor {α : Type} : Call α → Option Uuid
  | .markEmailVerified userId => some userId
  | .updatePasswordHash userId _ => some userId
  | .rehashPassword userId _ => some userId
  | .recordSuccessfulLogin userId => some userId
  | .issueToken userId _ => some userId
  | .rotate _ userId _ _ => some userId
  | .issueUserToken userId _ _ => some userId
  | .setTemporaryPassword userId _ _ => some userId
  | _ => none

/-- The row carries what an erasure writes. -/
structure Account.Anonymous (user : Account) : Prop where
  email : user.email = erasedEmailFor user.id
  displayName : user.displayName = ERASED_DISPLAY_NAME
  passwordHash : user.passwordHash = ERASED_PASSWORD_HASH
  emailVerified : user.emailVerified = false
  lastLoginAt : user.lastLoginAt = none

/-- The account's row is anonymous, and it has neither sessions nor links. -/
structure Anonymous (s : State) (userId : Uuid) : Prop where
  row : ∃ user ∈ s.users, user.id = userId ∧ user.Anonymous
  sessions : ∀ token ∈ s.refreshTokens, token.userId ≠ userId
  links : ∀ link ∈ s.userTokens, link.userId ≠ userId

/-- An anonymous row stays one. -/
def KeepsAnonymous (userId : Uuid) (s s' : State) : Prop :=
  (∃ user ∈ s.users, user.id = userId ∧ user.Anonymous) →
    ∃ user ∈ s'.users, user.id = userId ∧ user.Anonymous

section Rows

variable {userId : Uuid} {s s' : State}

theorem KeepsAnonymous.of_eq (hu : s'.users = s.users) : KeepsAnonymous userId s s' := by
  intro h
  rwa [hu]

/-- Another row is rewritten, or this one in other columns. -/
theorem KeepsAnonymous.of_modify {userId' : Uuid} {f : Table.Update Account.id}
    (hu : s'.users = s.users.modify userId' f)
    (hf : userId' = userId → ∀ user, user.Anonymous → (f.1 user).Anonymous) :
    KeepsAnonymous userId s s' := by
  rintro ⟨user, hmem, hid, hanon⟩
  rw [hu]
  by_cases hsame : user.id = userId'
  · refine ⟨f.1 user, Table.mem_modify.mpr (Or.inl ⟨user, hmem, hsame, rfl⟩),
      (f.2 user).trans hid, hf (hsame.symm.trans hid) user hanon⟩
  · exact ⟨user, Table.mem_modify.mpr (Or.inr ⟨hmem, hsame⟩), hid, hanon⟩

/-- The erasing statement makes the row anonymous, if it finds it. -/
theorem State.anonymised_row {identity : ErasedIdentity} {audit : AuditEntry}
    (hemail : identity.email = erasedEmailFor userId)
    (hname : identity.displayName = ERASED_DISPLAY_NAME)
    (hhash : identity.passwordHash = ERASED_PASSWORD_HASH)
    (hfind : (s.users.find? userId).isSome = true) :
    ∃ user ∈ (s.anonymised userId identity audit).users, user.id = userId ∧ user.Anonymous := by
  obtain ⟨user, huser⟩ := Option.isSome_iff_exists.mp hfind
  have hid : user.id = userId := Table.key_of_find? huser
  refine ⟨_, Table.mem_modify.mpr (Or.inl ⟨user, Table.mem_of_find? huser, hid, rfl⟩), hid, ?_⟩
  exact ⟨hid ▸ hemail, hname, hhash, rfl, rfl⟩

end Rows

theorem exec_row (env : Env) (choice : Choice) {α : Type} (c : Call α) (s : State)
    {userId : Uuid} (hc : c.writesFor ≠ some userId) (hp : c.WritesPlaceholder) :
    KeepsAnonymous userId s (exec env choice c s).2 := by
  have hne : ∀ {userId' : Uuid}, c.writesFor = some userId' → userId' ≠ userId :=
    fun hw heq => hc (heq ▸ hw)
  have hframe : Frame c s (exec env choice c s).2 := .of_exec env choice c s
  cases c with
  | createUser user =>
      simp only [exec, State.createUser]
      split_ifs
      · exact .of_eq rfl
      · exact .of_eq rfl
      · exact .of_eq rfl
      · rintro ⟨row, hmem, hrow⟩
        exact ⟨row, Table.mem_insert_of_mem hmem, hrow⟩
  | erase userId' identity audit =>
      simp only [exec]
      rcases s.erase_cases env userId' identity audit with ⟨reply, _, he⟩ | ⟨hfind, he⟩
      · rw [he]
        exact .of_eq rfl
      · rw [he]
        obtain ⟨hemail, hname, hhash⟩ := hp userId' identity rfl
        by_cases hsame : userId' = userId
        · subst hsame
          exact fun _ => State.anonymised_row hemail hname hhash hfind
        · exact .of_modify rfl (fun heq => absurd heq hsame)
  | markEmailVerified userId' => exact .of_modify rfl (fun h => absurd h (hne rfl))
  | updatePasswordHash userId' hash => exact .of_modify rfl (fun h => absurd h (hne rfl))
  | rehashPassword userId' hash => exact .of_modify rfl (fun h => absurd h (hne rfl))
  | recordSuccessfulLogin userId' => exact .of_modify rfl (fun h => absurd h (hne rfl))
  | setUploadQuota userId' quotaBytes audit =>
      simp only [exec, State.setUploadQuota]
      split
      · exact .of_eq rfl
      · exact .of_modify rfl (fun _ user h => ⟨h.1, h.2, h.3, h.4, h.5⟩)
  | setActive userId' active audit =>
      simp only [exec, State.setActive]
      split
      · exact .of_eq rfl
      · cases active <;> exact .of_modify rfl (fun _ user h => ⟨h.1, h.2, h.3, h.4, h.5⟩)
  | setTemporaryPassword userId' hash audit =>
      simp only [exec, State.setTemporaryPassword]
      split
      · exact .of_eq rfl
      · exact .of_modify rfl (fun h => absurd h (hne rfl))
  | _ => exact .of_eq (hframe.same .users rfl)

/-- An anonymous account stays one in every call that does not write for it. -/
theorem Anonymous.call {s : State} {userId : Uuid} (h : Anonymous s userId) (env : Env)
    (choice : Choice) {α : Type} (c : Call α) (hc : c.writesFor ≠ some userId)
    (hp : c.WritesPlaceholder) : Anonymous (exec env choice c s).2 userId where
  row := exec_row env choice c s hc hp h.row
  sessions := by
    intro token htoken hid
    rcases (exec_tokens env choice c s).rows token htoken with ⟨old, hold, hlater⟩ | hins
    · exact h.sessions old hold (hlater.userId.symm.trans hid)
    · refine hc ?_
      rcases hins.origin with ⟨hopens, _⟩ | ⟨previousId, hrotates, _⟩
      · cases c with
        | issueToken userId' client => exact (Option.some.inj hopens).trans hid ▸ rfl
        | _ => cases hopens
      · cases c with
        | rotate previousId' userId' familyId client =>
            have hsame := congrArg (fun p => p.2.1) (Option.some.inj hrotates)
            exact congrArg some (hsame.trans hid)
        | _ => cases hrotates
  links := by
    intro link hlink hid
    rcases (exec_links env choice c s).rows link hlink with ⟨old, hold, hlater⟩ | hins
    · exact h.links old hold (hlater.userId.symm.trans hid)
    · refine hc ?_
      cases c with
      | issueUserToken userId' purpose ttl =>
          have hsame := congrArg Prod.fst (Option.some.inj hins.origin)
          exact congrArg some (hsame.trans hid)
      | _ => cases hins.origin

/-- A successful erasure makes the account anonymous. -/
theorem anonymous_of_erased (env : Env) (choice : Choice) {α : Type} {c : Call α} {s : State}
    {userId : Uuid} {identity : ErasedIdentity} (herases : c.erases = some (userId, identity))
    (hp : c.WritesPlaceholder) (hbefore : ¬ s.HasErased userId)
    (hafter : (exec env choice c s).2.HasErased userId) :
    Anonymous (exec env choice c s).2 userId := by
  cases c with
  | erase userId' identity' audit =>
      obtain ⟨rfl, rfl⟩ := Prod.mk.inj (Option.some.inj herases)
      simp only [exec] at hafter ⊢
      rcases s.erase_cases env userId' identity' audit with ⟨reply, _, he⟩ | ⟨hfind, he⟩
      · rw [he] at hafter
        exact absurd hafter hbefore
      · rw [he]
        obtain ⟨hemail, hname, hhash⟩ := hp userId' identity' rfl
        refine ⟨State.anonymised_row hemail hname hhash hfind, ?_, ?_⟩
        · intro token htoken
          simpa using (Table.mem_delete.mp htoken).2
        · intro link hlink
          simpa using (Table.mem_delete.mp hlink).2
  | _ => cases herases

end Launcher.Accounts

namespace Launcher.Storefront

open Launcher.Lib

/-! ## The catalog's side -/

/-- The account a statement fills the library of, or records a download of. -/
def Call.writesFor {α : Type} : Call α → Option Uuid
  | .addToLibrary userId _ => some userId
  | .recordEvent event => some event.userId
  | _ => none

/-- Nothing in the library, and no download event that names the account. -/
structure Forgotten (s : State) (userId : Uuid) : Prop where
  shelf : ∀ row ∈ s.library, row.userId ≠ userId
  events : ∀ event ∈ s.events, event.userId ≠ some userId

section Forgotten

variable {s s' : State} {userId : Uuid}

theorem Forgotten.of_same (h : Forgotten s userId) (hl : Same s s' .library)
    (he : Same s s' .events) : Forgotten s' userId := by
  have hlibrary : s'.library = s.library := hl
  have hevents : s'.events = s.events := he
  exact ⟨fun row hrow => h.shelf row (hlibrary ▸ hrow),
    fun event hevent => h.events event (hevents ▸ hevent)⟩

theorem Forgotten.afterCore (h : Forgotten s userId) (core' : Launcher.State) :
    Forgotten (s.afterCore core') userId where
  shelf := fun row hrow => h.shelf row (Table.mem_delete.mp hrow).1
  events := by
    intro event hevent
    obtain ⟨old, hold, rfl⟩ := List.mem_map.mp hevent
    exact h.events old (List.mem_of_mem_filter hold)

end Forgotten

theorem Forgotten.call {s : State} {userId : Uuid} (h : Forgotten s userId) (env : Env)
    (choice : Choice) {α : Type} (c : Call α) (hc : c.writesFor ≠ some userId) :
    Forgotten (exec env choice c s).2 userId := by
  have hkept : ∀ part, c.writes part = false → Same s (exec env choice c s).2 part :=
    fun _ => exec_same env choice s c
  cases c with
  | core c => exact h.afterCore _
  | removeGame id => exact h.afterCore _
  | addToLibrary userId' gameId =>
      rcases s.addToLibrary_cases userId' gameId with he | ⟨_, he⟩
      · rw [exec, he]
        exact h
      · rw [exec, he]
        refine ⟨fun row hrow hid => ?_, h.events⟩
        rcases Table.eq_or_mem_of_mem_insert hrow with rfl | hold
        · exact hc (congrArg some hid)
        · exact h.shelf row hold hid
  | removeFromLibrary userId' gameId =>
      exact ⟨fun row hrow => h.shelf row (Table.mem_delete.mp hrow).1, h.events⟩
  | recordEvent event =>
      rcases s.recordEvent_cases event with he | ⟨row, hrow, _, _, he⟩
      · rw [exec, he]
        exact h
      · rw [exec, he]
        refine ⟨h.shelf, fun event' hevent' hid => ?_⟩
        rcases List.mem_append.mp hevent' with hold | hnew
        · exact h.events event' hold hid
        · rw [List.mem_singleton] at hnew
          subst hnew
          exact hc (hrow.symm.trans hid)
  | _ => exact h.of_same (hkept .library rfl) (hkept .events rfl)

end Launcher.Storefront

namespace Launcher.Deployment

open Launcher.Lib

/-! ## Both sides -/

/-- Everything the erasure of the account wrote and removed is as it left it. -/
structure Erased (s : State) (userId : Uuid) : Prop where
  account : Accounts.Anonymous s.accounts userId
  catalog : Storefront.Forgotten s.catalog userId

/-- The account a statement writes for. -/
def Call.writesFor {α : Type} : Call α → Option Uuid
  | .accounts c => c.writesFor
  | .catalog c => c.writesFor

/-- The statement of the step does not write for the account, or that is not erased. -/
def sparesErased (env : Env) (userId : Uuid) (w : Server) (l : Move) : Bool :=
  (server env).callTest (fun s {_} c =>
    !(decide (s.accounts.HasErased userId) && c.writesFor == some userId)) w l

/-- What the tasks promise of their calls. -/
def Call.WritesPlaceholder {α : Type} : Call α → Prop
  | .accounts c => c.WritesPlaceholder
  | .catalog _ => True

theorem Task.next_placeholder (env : Env) (t : Task) :
    (t.next env).All (fun c _ => c.WritesPlaceholder) := by
  refine Task.next_all (P := fun {_} c => Call.WritesPlaceholder c)
    (fun t => t.next_placeholder env.accounts) (fun t => ?_) t
  cases t.next env.catalog with
  | done => trivial
  | call c k => trivial

/-- No statement on the accounts fills a library or names anybody in an event. -/
theorem forgotten_afterAccounts {t : Storefront.State} {userId : Uuid}
    (h : Storefront.Forgotten t userId) {α : Type} (c : Accounts.Call α) (reply : α) :
    Storefront.Forgotten (afterAccounts c reply t) userId := by
  cases c with
  | createUser user =>
      cases reply with
      | error e => exact h
      | ok created => cases created <;> exact ⟨h.shelf, h.events⟩
  | setUploadQuota userId' quotaBytes audit => cases reply <;> exact ⟨h.shelf, h.events⟩
  | erase userId' identity audit =>
      cases reply with
      | error e => exact h
      | ok done =>
          cases done with
          | false => exact h
          | true =>
              refine ⟨fun row hrow => h.shelf row (Table.mem_delete.mp hrow).1, ?_⟩
              intro event hevent hid
              obtain ⟨old, hold, rfl⟩ := List.mem_map.mp hevent
              exact h.events old hold (Option.filter_eq_some_iff.mp hid).1
  | _ => exact h

/-- What the erasing statement leaves of the account in the catalog. -/
theorem forgotten_forget (t : Storefront.State) (userId : Uuid)
    (identity : Accounts.ErasedIdentity) : Storefront.Forgotten (forget userId identity t) userId := by
  constructor
  · intro row hrow
    simpa using (Table.mem_delete.mp hrow).2
  · intro event hevent hid
    obtain ⟨old, _, rfl⟩ := List.mem_map.mp hevent
    simpa using (Option.filter_eq_some_iff.mp hid).2

/-- Every call keeps the account erased once it is, unless it writes for it. -/
theorem erased_call (env : Env) (choice : Choice) {α : Type} (c : Call α) {s : State}
    {userId : Uuid} (h : s.accounts.HasErased userId → Erased s userId)
    (hp : c.WritesPlaceholder)
    (hc : s.accounts.HasErased userId → c.writesFor ≠ some userId) :
    (exec env choice c s).2.accounts.HasErased userId →
      Erased (exec env choice c s).2 userId := by
  intro hafter
  cases c with
  | catalog c =>
      have hbefore : s.accounts.HasErased userId := hafter
      exact ⟨(h hbefore).account, (h hbefore).catalog.call env.catalog choice.catalog c
        (hc hbefore)⟩
  | accounts c =>
      by_cases hbefore : s.accounts.HasErased userId
      · exact ⟨(h hbefore).account.call env.accounts choice.accounts c (hc hbefore) hp,
          forgotten_afterAccounts (h hbefore).catalog c _⟩
      · have hadded := (Accounts.exec_addresses env.accounts choice.accounts c s.accounts).added
          userId hafter
        obtain ⟨identity, herases⟩ := hadded.resolve_left hbefore
        refine ⟨Accounts.anonymous_of_erased env.accounts choice.accounts herases hp hbefore
          hafter, ?_⟩
        cases c with
        | erase userId' identity' audit =>
            obtain ⟨rfl, rfl⟩ := Prod.mk.inj (Option.some.inj herases)
            show Storefront.Forgotten (afterAccounts _ (s.accounts.erase env.accounts userId'
              identity' audit).1 s.catalog) userId'
            have hreply : (s.accounts.erase env.accounts userId' identity' audit).2.HasErased
              userId' := hafter
            rcases s.accounts.erase_cases env.accounts userId' identity' audit with
              ⟨reply, _, he⟩ | ⟨_, he⟩
            · rw [he] at hreply
              exact absurd hreply hbefore
            · rw [he]
              exact forgotten_forget s.catalog userId' identity'
        | _ => cases herases

namespace Demo

open Launcher.Demo (alice)
open Accounts.Demo (client)

def env : Env := ⟨Accounts.Demo.env, Storefront.Demo.env⟩

/-- Ada and grace are accounts 1 and 2, and nothing has been published. -/
def start : Server := ⟨⟨Accounts.Demo.start.shared, Storefront.Demo.empty⟩, []⟩

theorem initial_start : Initial start :=
  ⟨rfl, ⟨rfl, rfl, rfl⟩, rfl, ⟨rfl, rfl, rfl, rfl, rfl, rfl, rfl, rfl, rfl, rfl, rfl⟩⟩

/-- Task `i` makes its next `n` calls, drawing `uuid`, `family` and `token` for rows it stores. -/
def drawing (uuid family : Uuid) (token : String) (i n : Nat) : List Move :=
  List.replicate n (.resume i ⟨⟨uuid, family, ascii token, [], true⟩, ⟨uuid, .none⟩⟩)

/-- Task `i`: grace erases her account, with a token that names no permission. -/
def leaving (i : Nat) : List Move :=
  .request (.accounts (.erase ⟨2, []⟩ ⟨ascii "password2", []⟩)) :: drawing 0 0 "" i 2

/-- Task 0: grace signs in, and all that is left to do is to record it. -/
def loggingIn : List Move :=
  .request (.accounts (.login (ascii "grace@example.com") (ascii "password2") client)) ::
    drawing 0 0 "" 0 1

def signedIn : List Move := drawing 0 0 "" 0 2 ++ drawing 11 21 "t1" 0 1

/-- The login is over before grace leaves. -/
def signedInThenErased : List Move := loggingIn ++ signedIn ++ leaving 1

/-- The login goes on after she has left. -/
def erasedMidLogin : List Move := loggingIn ++ leaving 1 ++ signedIn

/-- Tasks 0 to 2: alice publishes game 4, grace leaves, and her access token, which is still
good, puts the game into her library. -/
def erasedShopping : List Move :=
  .request (.catalog (.createGame alice
    { title := ascii "Game", slug := [], summary := [], description := [], releaseDate := [],
      visibility := .Public })) :: drawing 4 0 "" 0 1
    ++ leaving 1
    ++ .request (.catalog (.addToLibrary ⟨2, [.GAME_READ, .LIBRARY_MANAGE]⟩ (uuidText 4))) ::
      drawing 0 0 "" 2 2

end Demo

end Launcher.Deployment
