import Launcher.Accounts.AuditTrail

set_option autoImplicit false

/-! # Spellings of an account id

`isUuid` takes hexadecimal digits of either case, and PostgreSQL compares uuids by value, so an
account has many spellings. The access token carries one of them, the one PostgreSQL renders.
The administrative routes compare the text of the request with it, and file their entries under
that text.

`sees_account_iff` proves that a text is treated as the account it denotes exactly if it is
spelled as PostgreSQL spells it; `deactivation_refused_iff` is the same for the rule that
nobody deactivates themselves. `deactivatesThemselves` is an operator who does. -/

namespace Launcher.Accounts

open Launcher.Lib

/-- The five requests an operator makes about an account. -/
inductive Administration
  | setUploadQuota (quotaBytes : Int)
  | setActive (active : Bool)
  | setTemporaryPassword
  | grantRole (roleKey : Bytes)
  | revokeRole (roleKey : Bytes)

def Administration.request (actor : Actor) (text : Bytes) : Administration → Request
  | .setUploadQuota quotaBytes => .setUploadQuota actor text quotaBytes
  | .setActive active => .setActive actor text active
  | .setTemporaryPassword => .setTemporaryPassword actor text
  | .grantRole roleKey => .grantRole actor text roleKey
  | .revokeRole roleKey => .revokeRole actor text roleKey

/-- The turns of a request that arrives in `w`, whatever runs before it and beside it. -/
def turnsOf (env : Env) (w : Server) (r : Request) (ls : List Move) : List Turn :=
  turns env w.tasks.length ((server env).step w (.request r)) ls

/-- The coroutine of a request that arrives in `w`, after the run. -/
def coroutineOf (env : Env) (w : Server) (r : Request) (ls : List Move) : Option Task :=
  ((server env).run w (.request r :: ls)).tasks[w.tasks.length]?

/-- In every run the request changes nothing, and its answer is an error. -/
def Refused (env : Env) (r : Request) : Prop :=
  ∀ w ls, (∀ turn ∈ turnsOf env w r ls, turn.Idle) ∧
    ∀ t, coroutineOf env w r ls = some t → t.next env = .done → t.refused = true

/-- The requests of the actor on `text` are about the account it denotes. -/
structure SeesAccount (env : Env) (actor : Actor) (text : Bytes) : Prop where
  /-- Nobody deactivates themselves. -/
  deactivation : uuidOf text = actor.userId → Refused env (.setActive actor text false)
  /-- Nobody sets a temporary password on their own account. -/
  password : uuidOf text = actor.userId → Refused env (.setTemporaryPassword actor text)
  /-- An entry is filed under the id of the account. -/
  entityId : ∀ (op : Administration) w ls, ∀ turn ∈ turnsOf env w (op.request actor text) ls,
    ∀ entry, turn.after.audit = turn.before.audit ++ [entry] →
      entry.entityId = uuidText (uuidOf text)
  /-- The effects are those of the id PostgreSQL renders. -/
  effects : ∀ (op : Administration) w ls,
    ((server env).run w (.request (op.request actor text) :: ls)).shared =
      ((server env).run w
        (.request (op.request actor (uuidText (uuidOf text))) :: ls)).shared

section Refusals

variable {env : Env} {actor : Actor} {text : Bytes}

/-- What the turns of a coroutine keep and what is known of each of them, over a run in which
others move too. -/
theorem turns_invariant {I : Task → Prop} {P : Turn → Prop} {i : Nat}
    (call : ∀ s t choice, I t →
      (t.next env).Wp (exec env) choice s (fun s' t' => I t' ∧ P ⟨s, t, s'⟩))
    (done : ∀ s t, I t → t.next env = .done → P ⟨s, t, s⟩) :
    ∀ (ls : List Move) (w : Server) (t : Task), w.tasks[i]? = some t → I t →
      (∃ t', ((server env).run w ls).tasks[i]? = some t' ∧ I t') ∧
        ∀ turn ∈ turns env i w ls, P turn
  | [], _, t, hi, ht => ⟨⟨t, hi, ht⟩, fun turn hm => (List.not_mem_nil hm).elim⟩
  | l :: ls, w, t, hi, ht => by
      have hstep : ∃ t', ((server env).step w l).tasks[i]? = some t' ∧ I t' ∧
          ∀ turn ∈ turnOf env i w l, P turn := by
        by_cases hl : ∃ choice, l = .resume i choice
        · obtain ⟨choice, rfl⟩ := hl
          by_cases hd : t.next env = .done
          · have hidle : (server env).step w (.resume i choice) = w := System.step_idle _ hi hd
            refine ⟨t, by rw [hidle]; exact hi, ht, fun turn hm => ?_⟩
            obtain ⟨_, _, rfl⟩ := mem_turnOf hi hm
            rw [hidle]
            exact done _ _ ht hd
          · obtain ⟨t', hi', ht', hturn⟩ := System.step_resumed (S := server env) choice hi hd
              (call w.shared t choice ht)
            refine ⟨t', hi', ht', fun turn hm => ?_⟩
            obtain ⟨_, _, rfl⟩ := mem_turnOf hi hm
            exact hturn
        · have hne : ∀ choice, l ≠ .resume i choice := fun choice e => hl ⟨choice, e⟩
          refine ⟨t, step_elsewhere hi hne, ht, fun turn hm => ?_⟩
          obtain ⟨choice, e, _⟩ := mem_turnOf hi hm
          exact absurd e (hne choice)
      obtain ⟨t', hi', ht', hturn⟩ := hstep
      obtain ⟨hrun, hrest⟩ := turns_invariant call done ls _ t' hi' ht'
      refine ⟨hrun, fun turn hm => ?_⟩
      rcases List.mem_append.mp hm with hm | hm
      · exact hturn turn hm
      · exact hrest turn hm

/-- A request that is refused before its first call is refused. -/
theorem refused_of_entry {r : Request} (hdone : (entry r).next env = .done)
    (hrefused : (entry r).refused = true) : Refused env r := by
  intro w ls
  have hi : ((server env).step w (.request r)).tasks[w.tasks.length]? = some (entry r) :=
    List.getElem?_concat_length
  obtain ⟨⟨t', hi', ht'⟩, hidle⟩ := turns_invariant (I := fun t => t = entry r)
    (P := Turn.Idle)
    (fun s t choice ht => by
      rw [ht, hdone]
      trivial)
    (fun s t _ _ => rfl) ls _ _ hi rfl
  refine ⟨hidle, fun t ht _ => ?_⟩
  obtain rfl : t' = t := Option.some.inj (hi'.symm.trans ht)
  rw [ht']
  exact hrefused

theorem administer_of_can {permission : Permission} (hcan : actor.can permission = true)
    (hid : isUuid text = true) : administer actor permission text = .ok (uuidOf text) := by
  simp [administer, hcan, hid]

theorem ownsText_iff (hown : uuidOf text = actor.userId) :
    ownsText actor text = true ↔ text = uuidText (uuidOf text) := by
  rw [ownsText, beq_iff_eq, hown]
  exact eq_comm

theorem refused_setActive_of_owns (hcan : actor.can .ADMIN_USERS_MANAGE = true)
    (hid : isUuid text = true) (howns : ownsText actor text = true) :
    Refused env (.setActive actor text false) := by
  have hentry : entry (.setActive actor text false) = .setActive (.answered (failure .InvalidInput
      (ascii "an operator cannot deactivate their own account; ask another one"))) := by
    simp [entry, setActive, administer_of_can hcan hid, howns]
  exact refused_of_entry (by rw [hentry]; rfl) (by rw [hentry]; rfl)

theorem refused_setTemporaryPassword_of_owns (hcan : actor.can .ADMIN_USERS_MANAGE = true)
    (hid : isUuid text = true) (howns : ownsText actor text = true) :
    Refused env (.setTemporaryPassword actor text) := by
  have hentry : entry (.setTemporaryPassword actor text) =
      .setTemporaryPassword (.answered (failure .InvalidInput (ascii
        ("an operator cannot set a temporary password on their own account; ask another " ++
          "one")))) := by
    simp only [entry, setTemporaryPassword, administer_of_can hcan hid, howns]
    rfl
  exact refused_of_entry (by rw [hentry]; rfl) (by rw [hentry]; rfl)

end Refusals

/-! ## The entries -/

section Entries

variable {env : Env} {actor : Actor} {text : Bytes}

theorem audited_request (op : Administration) :
    ∃ entry, (op.request actor text).audited = some (uuidOf text, entry) ∧
      entry.entityId = text := by
  cases op <;> exact ⟨_, rfl, rfl⟩

/-- A turn of a coroutine that serves a request appends the entry of the request, or none. -/
theorem TurnAfter.appended {userId : Uuid} {entry : AuditEntry} {s s' : State} {t t' : Task}
    (h : TurnAfter env userId entry s t s' t') :
    s'.audit = s.audit ∨ s'.audit = s.audit ++ [entry] := by
  cases hrep : t.asks env (Call.repeats s) with
  | true => exact Or.inr (h.repeated hrep).2
  | false =>
      rcases h.recorded hrep with hidle | ⟨-, haudit⟩
      · exact Or.inl (by rw [hidle])
      · exact Or.inr haudit

/-- The entries of a request are filed under the text it came with. -/
theorem entityId_of_appended (op : Administration) (w : Server) (ls : List Move) {turn : Turn}
    (hm : turn ∈ turnsOf env w (op.request actor text) ls) {entry : AuditEntry}
    (hentry : turn.after.audit = turn.before.audit ++ [entry]) : entry.entityId = text := by
  obtain ⟨filed, haudited, hid⟩ := @audited_request actor text op
  have hi : ((server env).step w (.request (op.request actor text))).tasks[w.tasks.length]? =
      some (Accounts.entry (op.request actor text)) := List.getElem?_concat_length
  obtain ⟨-, hturns⟩ := turns_invariant
    (I := fun t => t.Serves (uuidOf text) filed)
    (P := fun turn => turn.after.audit = turn.before.audit ∨
      turn.after.audit = turn.before.audit ++ [filed])
    (fun s t choice ht => (ht.turn env choice s).mono (fun s' t' h => ⟨h.serves, h.appended⟩))
    (fun s t _ _ => Or.inl rfl) ls _ _ hi (entry_serves haudited)
  rcases hturns turn hm with hsame | happended
  · -- no list is itself with an entry more
    rw [hsame] at hentry
    have hlength := congrArg List.length hentry
    rw [List.length_append, List.length_singleton] at hlength
    omega
  · rw [happended] at hentry
    obtain rfl : filed = entry := by simpa using hentry
    exact hid

end Entries

/-! ## Exactly when -/

section Exactly

variable {env : Env} {actor : Actor} {text : Bytes}

/-- An account that can be administered. -/
def blankAccount (id : Uuid) : Account where
  id := id
  email := uuidText id
  displayName := []
  passwordHash := []
  emailVerified := true
  isActive := true
  passwordChangeRequired := false
  uploadQuotaBytes := 0
  uploadUsedBytes := 0
  lastLoginAt := none

def blankAccounts (id : Uuid) : Table Account.id := Table.empty.insert (blankAccount id)

/-- Two accounts, the second of them an administrator, and no requests yet. -/
def staffed (id other : Uuid) : Server where
  shared :=
    { now := 0, issued := []
      users := (blankAccounts id).insert (blankAccount other)
      roles := Table.empty.insert ⟨ascii "admin", [.ADMIN_USERS_MANAGE]⟩
      userRoles := Table.empty.insert ⟨other, ascii "admin", none⟩
      refreshTokens := .empty, userTokens := .empty, audit := [], deletionRequests := [] }
  tasks := []

theorem find?_staffed (id other : Uuid) :
    (staffed id other).shared.users.find? id = some (blankAccount id) := by
  have hfirst : (blankAccounts id).find? id = some (blankAccount id) :=
    Table.find?_insert_self (r := blankAccount id) rfl
  rw [staffed, Table.find?_insert, hfirst, Option.some_or]

theorem countOtherHoldersOf_staffed {id other : Uuid} (h : other ≠ id) :
    0 < (staffed id other).shared.countOtherHoldersOf .ADMIN_USERS_MANAGE id := by
  have hfree : (blankAccounts id).find? other = none := by
    rw [blankAccounts, Table.find?_insert_ne (show other ≠ (blankAccount id).id from h)]
    rfl
  have hmem : blankAccount other ∈ (staffed id other).shared.users :=
    (Table.mem_insert hfree _).mpr (Or.inl rfl)
  have hholds : (staffed id other).shared.holds other .ADMIN_USERS_MANAGE = true := by
    have hrole : ((staffed id other).shared.roles.find? (ascii "admin"))
        = some ⟨ascii "admin", [.ADMIN_USERS_MANAGE]⟩ := rfl
    have hrow : (⟨other, ascii "admin", none⟩ : UserRole)
        ∈ (staffed id other).shared.userRoles.rows :=
      (Table.mem_insert (t := Table.empty) rfl _).mpr (Or.inl rfl)
    refine List.any_eq_true.mpr ⟨_, hrow, ?_⟩
    dsimp only
    rw [hrole]
    simp
  refine List.length_pos_of_mem (a := blankAccount other) (List.mem_filter.mpr ⟨hmem, ?_⟩)
  rw [show (blankAccount other).id = other from rfl, hholds]
  simp [blankAccount, h]

/-- Nobody deactivates themselves, exactly if the text is the one in the token. -/
theorem deactivation_refused_iff (hcan : actor.can .ADMIN_USERS_MANAGE = true)
    (hid : isUuid text = true) (hown : uuidOf text = actor.userId) :
    Refused env (.setActive actor text false) ↔ text = uuidText (uuidOf text) := by
  rw [← ownsText_iff hown]
  constructor
  · intro hrefused
    by_contra howns
    -- somebody else, who has to be left as an administrator
    obtain ⟨other, hother⟩ : ∃ other : Uuid, other ≠ uuidOf text := by
      by_cases hzero : uuidOf text = 0
      · exact ⟨1, by rw [hzero]; decide⟩
      · exact ⟨0, Ne.symm hzero⟩
    -- with another administrator about, the two calls of the request go through
    let w := staffed (uuidOf text) other
    let audit := auditFor actor "user.deactivated" text []
    let move : Move := .resume 0 ⟨0, 0, [], [], true⟩
    let first : Task := .setActive (.countOtherHoldersOf (uuidOf text) audit)
    let second : Task := .setActive (.setActive (uuidOf text) false audit)
    have hentry : entry (.setActive actor text false) = first := by
      simp [entry, setActive, administer_of_can hcan hid, howns, first, audit]
    have hfirst : (server env).step ⟨w.shared, [first]⟩ move = ⟨w.shared, [second]⟩ := by
      refine (System.step_resume (server env) List.getElem?_cons_zero rfl).trans ?_
      show World.mk w.shared [Task.setActive (if 0 < w.shared.countOtherHoldersOf _ _ then _
        else _)] = _
      rw [if_pos (countOtherHoldersOf_staffed hother)]
    have hsecond : ((server env).step ⟨w.shared, [second]⟩ move).shared
        = (w.shared.setActive (uuidOf text) false audit).2 := rfl
    have hturn : (⟨w.shared, second, (w.shared.setActive (uuidOf text) false audit).2⟩ : Turn)
        ∈ turnsOf env w (.setActive actor text false) [move, move] := by
      show _ ∈ turns env 0 ⟨w.shared, [entry (.setActive actor text false)]⟩ [move, move]
      rw [hentry, ← hsecond]
      refine List.mem_append_right _ ?_
      rw [hfirst]
      exact List.mem_append_left _ (List.mem_singleton.mpr rfl)
    -- a refused request changes nothing, and the statement files an entry
    have hidle : (w.shared.setActive (uuidOf text) false audit).2 = w.shared :=
      (hrefused w [move, move]).1 _ hturn
    rcases setActive_rewritten w.shared (uuidOf text) false audit with
      ⟨hnone, -⟩ | ⟨user, summary, s', -, hs', hwrites⟩
    · rw [find?_staffed] at hnone
      cases hnone
    · rw [hs'] at hidle
      have hlength := congrArg List.length hwrites.audit
      rw [show s' = w.shared from hidle, List.length_append, List.length_singleton] at hlength
      omega
  · exact refused_setActive_of_owns hcan hid

/-- A request that goes through files an entry under its text. -/
theorem exists_filed (hcan : actor.can .ADMIN_USERS_MANAGE = true) (hid : isUuid text = true) :
    ∃ w ls, ∃ turn ∈ turnsOf env w (.setActive actor text true) ls, ∃ entry,
      turn.after.audit = turn.before.audit ++ [entry] ∧ entry.entityId = text := by
  let w := staffed (uuidOf text) (uuidOf text)
  let audit := auditFor actor "user.activated" text []
  let move : Move := .resume 0 ⟨0, 0, [], [], true⟩
  let task : Task := .setActive (.setActive (uuidOf text) true audit)
  have hentry : entry (.setActive actor text true) = task := by
    simp [entry, setActive, administer_of_can hcan hid, task, audit]
  have hturn : (⟨w.shared, task, (w.shared.setActive (uuidOf text) true audit).2⟩ : Turn)
      ∈ turnsOf env w (.setActive actor text true) [move] := by
    show _ ∈ turns env 0 ⟨w.shared, [entry (.setActive actor text true)]⟩ [move]
    rw [hentry]
    exact List.mem_append_left _ (List.mem_singleton.mpr rfl)
  refine ⟨w, [move], _, hturn, audit, ?_, rfl⟩
  rcases setActive_rewritten w.shared (uuidOf text) true audit with
    ⟨hnone, -⟩ | ⟨user, summary, s', -, hs', hwrites⟩
  · rw [find?_staffed] at hnone
    cases hnone
  · show (w.shared.setActive (uuidOf text) true audit).2.audit = w.shared.audit ++ [audit]
    rw [hs']
    exact hwrites.audit

/-- **A text is treated as the account it denotes exactly if it is the id PostgreSQL renders.** -/
theorem sees_account_iff (hcan : actor.can .ADMIN_USERS_MANAGE = true)
    (hid : isUuid text = true) :
    SeesAccount env actor text ↔ text = uuidText (uuidOf text) := by
  constructor
  · intro h
    -- one request that files an entry is enough: its text has to be the id of the account
    obtain ⟨w, ls, turn, hm, entry, happended, hfiled⟩ :=
      exists_filed hcan hid
    have hentity : entry.entityId = uuidText (uuidOf text) :=
      h.entityId (.setActive true) w ls turn hm entry happended
    rw [← hfiled, hentity]
    exact congrArg uuidText (uuidOf_uuidText _).symm
  · intro h
    have howns : uuidOf text = actor.userId → ownsText actor text = true :=
      fun hown => (ownsText_iff hown).mpr h
    exact
      { deactivation := fun hown => refused_setActive_of_owns hcan hid (howns hown)
        password := fun hown => refused_setTemporaryPassword_of_owns hcan hid (howns hown)
        entityId := fun op w ls turn hm entry happended =>
          (entityId_of_appended op w ls hm happended).trans h
        effects := fun op w ls => by rw [← h] }

end Exactly

namespace Demo

/-- An operator whose id has letters among its digits. -/
def lin : Account :=
  ⟨0xab, ascii "lin@example.com", ascii "Lin", currentParameters ++ ascii "password3", true, true,
    false, 100, 0, none⟩

def asLin : Actor := ⟨0xab, adminPermissions⟩

def linId : Bytes := ascii "00000000-0000-0000-0000-0000000000ab"

def linShouted : Bytes := ascii "00000000-0000-0000-0000-0000000000AB"

/-- Lin is an administrator like the other two. -/
def threeOperators : Server :=
  { start with shared :=
    { start.shared with
      users := start.shared.users.insert lin
      userRoles := start.shared.userRoles.insert ⟨0xab, ascii "admin", none⟩ } }

def deactivated : Server :=
  (server env).run threeOperators (.request (.setActive asLin linShouted false) :: go 0 2)

end Demo

theorem sees_account_lin : SeesAccount Demo.env Demo.asLin Demo.linId :=
  (sees_account_iff (by decide +kernel) (by decide +kernel)).mpr (by decide +kernel)

/-- **An operator deactivates themselves** by their own id in capitals, and the entry is filed
under an id that no search for the account finds. -/
theorem deactivatesThemselves :
    isUuid Demo.linShouted = true ∧ uuidOf Demo.linShouted = Demo.asLin.userId ∧
    (Demo.deactivated.shared.users.find? 0xab).map Account.isActive = some false ∧
    Demo.deactivated.shared.audit.map AuditEntry.entityId = [Demo.linShouted] ∧
    ¬ SeesAccount Demo.env Demo.asLin Demo.linShouted := by
  have hid : isUuid Demo.linShouted = true := by decide +kernel
  have hown : uuidOf Demo.linShouted = Demo.asLin.userId := by decide +kernel
  refine ⟨hid, hown, by decide +kernel, by decide +kernel, fun h => ?_⟩
  have hrefused := h.deactivation hown
  have hcan : Demo.asLin.can .ADMIN_USERS_MANAGE = true := by decide +kernel
  exact absurd ((deactivation_refused_iff hcan hid hown).mp hrefused) (by decide +kernel)

end Launcher.Accounts
