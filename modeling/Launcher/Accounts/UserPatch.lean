import Launcher.Common.JsonBody
import Launcher.Accounts.AuditTrail

set_option autoImplicit false

/-! # The administrative PATCH of a user

`AdminUserController::update` makes up to two changes, each one call of the service with its own
statement and its own audit entry. The second one can still fail when the first is committed.

`update_outcome` proves what is left of a request in any case: an error leaves everything as it
was, or the accepted quota and its entry alone. `quotaBeforeRefusal` is a request whose refusal
comes after its quota. -/

namespace Launcher.Accounts

open Launcher.Lib

namespace AdminUserController

/-! ## The controller -/

/-- Suspended in one of its calls of the service; an exception of jsoncpp ends it. -/
inductive Update
  | setUploadQuota (t : SetUploadQuota) (actor : Actor) (userId : Bytes) (body : Json)
  | setActive (t : SetActive)
  | findSummary (userId : Uuid)
  | answered (result : Result AdminUserSummary)
  | threw (error : LogicError)

/-- `AdminUserService::find`. -/
def find (actor : Actor) (userId : Bytes) : Update :=
  match administer actor .ADMIN_USERS_MANAGE userId with
  | .error e => .answered (.error e)
  | .ok id => .findSummary id

def afterActive : SetActive → Update
  | .answered result => .answered result
  | t => .setActive t

/-- From the flag on; `current` is the account after the first change, if there was one. -/
def updateActive (jsoncpp : JsonCpp) (actor : Actor) (userId : Bytes) (body : Json)
    (current : Option AdminUserSummary) : Update :=
  match JsonValue.isMember body (ascii "active") with
  | .error thrown => .threw thrown
  | .ok true =>
      match JsonValue.asBool jsoncpp (JsonValue.member body (ascii "active")) with
      | .error thrown => .threw thrown
      | .ok active => afterActive (setActive actor userId active)
  | .ok false =>
      match current with
      | some summary => .answered (.ok summary)
      -- an empty PATCH records nothing
      | none => find actor userId

def afterQuota (jsoncpp : JsonCpp) (actor : Actor) (userId : Bytes) (body : Json) :
    SetUploadQuota → Update
  | .answered (.error e) => .answered (.error e)
  | .answered (.ok summary) => updateActive jsoncpp actor userId body (some summary)
  | t => .setUploadQuota t actor userId body

def update (jsoncpp : JsonCpp) (actor : Actor) (userId : Bytes) (request : Option Json) : Update :=
  match requireJsonObject request with
  | .error e => .answered (.error e)
  | .ok body =>
      match JsonValue.isMember body (ascii "uploadQuotaBytes") with
      | .error thrown => .threw thrown
      | .ok false => updateActive jsoncpp actor userId body none
      | .ok true =>
          match requireInt64 body (ascii "uploadQuotaBytes") with
          | .error thrown => .threw thrown
          | .ok (.error e) => .answered (.error e)
          | .ok (.ok quotaBytes) =>
              afterQuota jsoncpp actor userId body (setUploadQuota actor userId quotaBytes)

def Update.next (jsoncpp : JsonCpp) : Update → Suspended Call Update
  | .setUploadQuota t actor userId body => t.next.map (afterQuota jsoncpp actor userId body)
  | .setActive t => t.next.map afterActive
  | .findSummary userId => .call (.findSummary userId) fun found =>
      .answered (summaryResult found)
  | .answered _ => .done
  | .threw _ => .done

/-- The request of an operator: the actor, the id and the body as jsoncpp has read it. -/
structure Patch where
  actor : Actor
  userId : Bytes
  body : Option Json

/-- The console's PATCH route over the account tables. -/
def console (env : Env) (jsoncpp : JsonCpp) : System State Update Patch Choice Outside Call where
  entry := fun r => update jsoncpp r.actor r.userId r.body
  next := Update.next jsoncpp
  exec := exec env
  outside := outside

/-- The response is an error. -/
def Update.failed : Update → Bool
  | .answered (.error _) => true
  | .threw _ => true
  | _ => false

/-! ## What a request leaves -/

def HasField (body : Option Json) (key : Bytes) : Prop :=
  ∃ root, body = some root ∧ JsonValue.isMember root key = .ok true

/-- The body has a field for the quota, which reads as this number. -/
def NamesQuota (body : Option Json) (quotaBytes : Int) : Prop :=
  ∃ root, body = some root ∧ JsonValue.isMember root (ascii "uploadQuotaBytes") = .ok true ∧
    requireInt64 root (ascii "uploadQuotaBytes") = .ok (.ok quotaBytes)

/-- The body has a field for the flag, which jsoncpp reads as this value. -/
def NamesActive (jsoncpp : JsonCpp) (body : Option Json) (active : Bool) : Prop :=
  ∃ root, body = some root ∧ JsonValue.isMember root (ascii "active") = .ok true ∧
    JsonValue.asBool jsoncpp (JsonValue.member root (ascii "active")) = .ok active

/-- The state and the response at the end of a request. -/
structure Outcome (jsoncpp : JsonCpp) (r : Patch) (s s' : State) (t : Update) : Prop where
  /-- An error leaves everything as it was, or a quota and its entry if the body has the flag
  too: that one was refused when the quota was accepted. -/
  refused : t.failed = true → s' = s ∨
    HasField r.body (ascii "active") ∧ ∃ quotaBytes, NamesQuota r.body quotaBytes ∧
      s' = (s.setUploadQuota (uuidOf r.userId) quotaBytes.toNat
        (auditFor r.actor "user.quota.changed" r.userId
          [(ascii "quotaBytes", decimal quotaBytes)])).2
  /-- After a success the fields of the body have their values. -/
  answered : t.failed = false → ∃ user, s'.users.find? (uuidOf r.userId) = some user ∧
    (HasField r.body (ascii "uploadQuotaBytes") → NamesQuota r.body user.uploadQuotaBytes) ∧
    (HasField r.body (ascii "active") → NamesActive jsoncpp r.body user.isActive)

section Calls

variable {s : State} {userId : Uuid}

theorem find?_setActive {user : Account} (h : s.users.find? userId = some user) (active : Bool)
    (audit : AuditEntry) :
    ∃ summary, (s.setActive userId active audit).1 = some summary ∧
      (s.setActive userId active audit).2.users.find? userId
        = some { user with isActive := active } := by
  have husers : (s.setActive userId active audit).2.users.find? userId
      = some { user with isActive := active } := by
    rw [State.setActive, h]
    cases active <;>
      simp [State.updateAudited, State.revokeAllForUser, State.revokeWhere,
        Table.find?_modify_self, h]
  have hsummary : (s.setActive userId active audit).1
      = (s.setActive userId active audit).2.findSummary userId := by
    rw [State.setActive, h]
  rw [hsummary, State.findSummary, husers]
  exact ⟨_, rfl, rfl⟩

theorem setActive_missing (h : s.users.find? userId = none) (active : Bool) (audit : AuditEntry) :
    s.setActive userId active audit = (none, s) := by
  rw [State.setActive, h]

theorem find?_setUploadQuota {user : Account} (h : s.users.find? userId = some user)
    (quotaBytes : Nat) (audit : AuditEntry) :
    ∃ summary, (s.setUploadQuota userId quotaBytes audit).1 = some summary ∧
      (s.setUploadQuota userId quotaBytes audit).2.users.find? userId
        = some { user with uploadQuotaBytes := quotaBytes } := by
  have husers : (s.setUploadQuota userId quotaBytes audit).2.users.find? userId
      = some { user with uploadQuotaBytes := quotaBytes } := by
    rw [State.setUploadQuota, h]
    simp [State.updateAudited, Table.find?_modify_self, h]
  have hsummary : (s.setUploadQuota userId quotaBytes audit).1
      = (s.setUploadQuota userId quotaBytes audit).2.findSummary userId := by
    rw [State.setUploadQuota, h]
  rw [hsummary, State.findSummary, husers]
  exact ⟨_, rfl, rfl⟩

theorem setUploadQuota_missing (h : s.users.find? userId = none) (quotaBytes : Nat)
    (audit : AuditEntry) : s.setUploadQuota userId quotaBytes audit = (none, s) := by
  rw [State.setUploadQuota, h]

end Calls

/-! ## The second change -/

/-- The end of the second change of a request, from a state in which it found the account as
`before`. -/
structure Flagged (jsoncpp : JsonCpp) (userId : Uuid) (body : Json)
    (current : Option AdminUserSummary) (s s' : State) (t : Update) : Prop where
  refused : t.failed = true → s' = s ∧ (current.isSome = true →
    JsonValue.isMember body (ascii "active") = .ok true)
  answered : t.failed = false → ∃ before user, s.users.find? userId = some before ∧
    s'.users.find? userId = some user ∧ user.uploadQuotaBytes = before.uploadQuotaBytes ∧
    (JsonValue.isMember body (ascii "active") = .ok true →
      JsonValue.asBool jsoncpp (JsonValue.member body (ascii "active")) = .ok user.isActive)

section Update

variable {env : Env} {jsoncpp : JsonCpp} {actor : Actor} {userId : Bytes} {body : Json}
  {s : State} {current : Option AdminUserSummary}

/-- An error that comes before any statement. -/
theorem Flagged.of_failed {t : Update} (hfailed : t.failed = true)
    (hactive : current.isSome = true → JsonValue.isMember body (ascii "active") = .ok true) :
    Flagged jsoncpp (uuidOf userId) body current s s t where
  refused := fun _ => ⟨rfl, hactive⟩
  answered := fun h => by rw [hfailed] at h; cases h

/-- The statement that sets the flag. -/
theorem flagged_setActive {active : Bool} {audit : AuditEntry}
    (hactive : JsonValue.isMember body (ascii "active") = .ok true)
    (hvalue : JsonValue.asBool jsoncpp (JsonValue.member body (ascii "active")) = .ok active) :
    (console env jsoncpp).Ends (Flagged jsoncpp (uuidOf userId) body current s) s
      (.setActive (.setActive (uuidOf userId) active audit)) := by
  refine .call rfl (fun choice => .done rfl ?_)
  show Flagged jsoncpp (uuidOf userId) body current s
    (s.setActive (uuidOf userId) active audit).2
    (.answered (summaryResult (s.setActive (uuidOf userId) active audit).1))
  cases hfind : s.users.find? (uuidOf userId) with
  | none =>
      rw [setActive_missing hfind]
      exact .of_failed rfl (fun _ => hactive)
  | some before =>
      obtain ⟨summary, hsummary, huser⟩ := find?_setActive hfind active audit
      rw [hsummary]
      exact
        { refused := fun h => by cases h
          answered := fun _ => ⟨before, _, hfind, huser, rfl, fun _ => hvalue⟩ }

theorem flagged_setActive_start {active : Bool}
    (hactive : JsonValue.isMember body (ascii "active") = .ok true)
    (hvalue : JsonValue.asBool jsoncpp (JsonValue.member body (ascii "active")) = .ok active) :
    (console env jsoncpp).Ends (Flagged jsoncpp (uuidOf userId) body current s) s
      (afterActive (setActive actor userId active)) := by
  unfold setActive
  cases hid : administer actor .ADMIN_USERS_MANAGE userId with
  | error e => exact .done rfl (.of_failed rfl (fun _ => hactive))
  | ok id =>
      obtain rfl := administer_ok hid
      cases active with
      | true => exact flagged_setActive hactive hvalue
      | false =>
          cases ownsText actor userId with
          | true => exact .done rfl (.of_failed rfl (fun _ => hactive))
          | false =>
              refine .call rfl (fun choice => ?_)
              show (console env jsoncpp).Ends _ s (afterActive (if 0 < s.countOtherHoldersOf _ _
                then _ else _))
              split_ifs
              · exact flagged_setActive hactive hvalue
              · exact .done rfl (.of_failed rfl (fun _ => hactive))

theorem isMember_of_isObject (h : JsonValue.isObject body = true) (key : Bytes) :
    ∃ present, JsonValue.isMember body key = .ok present := by
  cases body <;> first | exact ⟨_, rfl⟩ | cases h

/-- The second change keeps the quota, and a refusal changes nothing more. -/
theorem flagged_updateActive (hbody : JsonValue.isObject body = true)
    (hcurrent : current.isSome = true → (s.users.find? (uuidOf userId)).isSome = true) :
    (console env jsoncpp).Ends (Flagged jsoncpp (uuidOf userId) body current s) s
      (updateActive jsoncpp actor userId body current) := by
  unfold updateActive
  obtain ⟨present, hactive⟩ := isMember_of_isObject hbody (ascii "active")
  cases present with
  | true =>
      simp only [hactive]
      cases hvalue : JsonValue.asBool jsoncpp (JsonValue.member body (ascii "active")) with
      | error thrown => exact .done rfl (.of_failed rfl (fun _ => hactive))
      | ok active => exact flagged_setActive_start hactive hvalue
  | false =>
      simp only [hactive]
      have hkept : ∀ user summary, s.users.find? (uuidOf userId) = some user →
          Flagged jsoncpp (uuidOf userId) body current s s (.answered (.ok summary)) := by
        intro user summary hfind
        exact
          { refused := fun h => by cases h
            answered := fun _ => ⟨user, user, hfind, hfind, rfl, fun h => by
              rw [hactive] at h; cases h⟩ }
      cases current with
      | some summary =>
          obtain ⟨user, hfind⟩ := Option.isSome_iff_exists.mp (hcurrent rfl)
          exact .done rfl (hkept user summary hfind)
      | none =>
          -- an empty body: there has been no first change
          unfold find
          cases hid : administer actor .ADMIN_USERS_MANAGE userId with
          | error e => exact .done rfl (.of_failed rfl (fun h => by cases h))
          | ok id =>
              obtain rfl := administer_ok hid
              refine .call rfl (fun choice => .done rfl ?_)
              show Flagged jsoncpp _ body none s s
                (.answered (summaryResult (s.findSummary (uuidOf userId))))
              cases hfind : s.users.find? (uuidOf userId) with
              | none =>
                  rw [State.findSummary, hfind]
                  exact .of_failed rfl (fun h => by cases h)
              | some user =>
                  rw [State.findSummary, hfind]
                  exact hkept user _ hfind

end Update

/-! ## The whole request -/

section Request

variable {env : Env} {jsoncpp : JsonCpp} {r : Patch} {body : Json} {s : State}

theorem Outcome.of_failed {t : Update} (h : t.failed = true) : Outcome jsoncpp r s s t where
  refused := fun _ => Or.inl rfl
  answered := fun h' => by rw [h] at h'; cases h'

theorem namesActive_of_hasField (hbody : r.body = some body) {active : Bool}
    (hvalue : JsonValue.isMember body (ascii "active") = .ok true →
      JsonValue.asBool jsoncpp (JsonValue.member body (ascii "active")) = .ok active) :
    HasField r.body (ascii "active") → NamesActive jsoncpp r.body active := by
  rintro ⟨root, hroot, hmember⟩
  obtain rfl : body = root := Option.some.inj (hbody.symm.trans hroot)
  exact ⟨body, hbody, hmember, hvalue hmember⟩

/-- A request without a quota. -/
theorem Outcome.of_flagged {s' : State} {t : Update} (hbody : r.body = some body)
    (hquota : JsonValue.isMember body (ascii "uploadQuotaBytes") = .ok false)
    (h : Flagged jsoncpp (uuidOf r.userId) body none s s' t) : Outcome jsoncpp r s s' t where
  refused := fun hfailed => Or.inl (h.refused hfailed).1
  answered := fun hok => by
    obtain ⟨before, user, -, huser, -, hvalue⟩ := h.answered hok
    refine ⟨user, huser, ?_, namesActive_of_hasField hbody hvalue⟩
    rintro ⟨root, hroot, hmember⟩
    obtain rfl : body = root := Option.some.inj (hbody.symm.trans hroot)
    rw [hquota] at hmember
    cases hmember

/-- A request whose quota has been set. -/
theorem Outcome.of_quota {s' : State} {t : Update} {user : Account} {quotaBytes : Int}
    {summary : AdminUserSummary} (hbody : r.body = some body)
    (hquota : NamesQuota r.body quotaBytes) (hnonneg : 0 ≤ quotaBytes)
    (hfind : s.users.find? (uuidOf r.userId) = some user)
    (h : Flagged jsoncpp (uuidOf r.userId) body (some summary)
      (s.setUploadQuota (uuidOf r.userId) quotaBytes.toNat
        (auditFor r.actor "user.quota.changed" r.userId
          [(ascii "quotaBytes", decimal quotaBytes)])).2 s' t) :
    Outcome jsoncpp r s s' t where
  refused := fun hfailed => by
    obtain ⟨hstate, hactive⟩ := h.refused hfailed
    exact Or.inr ⟨⟨body, hbody, hactive rfl⟩, quotaBytes, hquota, hstate⟩
  answered := fun hok => by
    obtain ⟨before, user', hbefore, huser', hsame, hvalue⟩ := h.answered hok
    refine ⟨user', huser', fun _ => ?_, namesActive_of_hasField hbody hvalue⟩
    obtain ⟨-, -, hset⟩ := find?_setUploadQuota hfind quotaBytes.toNat
      (auditFor r.actor "user.quota.changed" r.userId
        [(ascii "quotaBytes", decimal quotaBytes)])
    rw [hset] at hbefore
    obtain rfl := Option.some.inj hbefore
    rw [hsame]
    show NamesQuota r.body (quotaBytes.toNat : Int)
    rwa [Int.toNat_of_nonneg hnonneg]

theorem outcome_afterQuota {quotaBytes : Int} (hbody : r.body = some body)
    (hobject : JsonValue.isObject body = true) (hquota : NamesQuota r.body quotaBytes) :
    (console env jsoncpp).Ends (Outcome jsoncpp r s) s
      (afterQuota jsoncpp r.actor r.userId body (setUploadQuota r.actor r.userId quotaBytes)) := by
  unfold setUploadQuota
  cases hid : administer r.actor .ADMIN_USERS_MANAGE r.userId with
  | error e => exact .done rfl (.of_failed rfl)
  | ok id =>
      obtain rfl := administer_ok hid
      dsimp only
      split_ifs with hnegative
      · exact .done rfl (.of_failed rfl)
      · -- the quota is committed here, whatever becomes of the flag
        refine .call rfl (fun choice => ?_)
        show (console env jsoncpp).Ends _
          (s.setUploadQuota (uuidOf r.userId) quotaBytes.toNat _).2
          (afterQuota jsoncpp r.actor r.userId body (.answered (summaryResult
            (s.setUploadQuota (uuidOf r.userId) quotaBytes.toNat _).1)))
        cases hfind : s.users.find? (uuidOf r.userId) with
        | none =>
            rw [setUploadQuota_missing hfind]
            exact .done rfl (.of_failed rfl)
        | some user =>
            obtain ⟨summary, hsummary, hset⟩ := find?_setUploadQuota hfind quotaBytes.toNat
              (auditFor r.actor "user.quota.changed" r.userId
                [(ascii "quotaBytes", decimal quotaBytes)])
            rw [hsummary]
            refine System.Ends.mono (flagged_updateActive hobject (fun _ => ?_))
              (fun s' t h => .of_quota hbody hquota (not_lt.mp hnegative) hfind h)
            rw [hset]
            rfl

/-- **What a PATCH leaves.** An error leaves everything as it was, or the accepted quota and its
entry if the body has the flag too; after a success every field of the body has its value. -/
theorem update_outcome (env : Env) (jsoncpp : JsonCpp) (r : Patch) (s : State) :
    (console env jsoncpp).Ends (Outcome jsoncpp r s) s ((console env jsoncpp).entry r) := by
  show (console env jsoncpp).Ends _ s (update jsoncpp r.actor r.userId r.body)
  unfold update
  cases hrequired : requireJsonObject r.body with
  | error e => exact .done rfl (.of_failed rfl)
  | ok body =>
      obtain ⟨hbody, hobject⟩ := requireJsonObject_ok hrequired
      obtain ⟨present, hmember⟩ := isMember_of_isObject hobject (ascii "uploadQuotaBytes")
      cases present with
      | false =>
          simp only [hmember]
          exact System.Ends.mono (flagged_updateActive hobject (fun h => by cases h))
            (fun s' t h => .of_flagged hbody hmember h)
      | true =>
          simp only [hmember]
          cases hread : requireInt64 body (ascii "uploadQuotaBytes") with
          | error thrown => exact .done rfl (.of_failed rfl)
          | ok result =>
              cases result with
              | error e => exact .done rfl (.of_failed rfl)
              | ok quotaBytes =>
                  exact outcome_afterQuota hbody hobject ⟨body, hbody, hmember, hread⟩

end Request

namespace Demo

open Accounts.Demo

/-- Ada gives herself a quota of five bytes and deactivates herself. -/
def quotaAndFlag : Patch where
  actor := asAda
  userId := adaId
  body := some (.object
    [(ascii "uploadQuotaBytes", .number 5), (ascii "active", .bool false)])

/-- The request alone, from the small deployment. -/
def answered : World State Update :=
  (console env referenceJson).alone start.shared
    ((console env referenceJson).entry quotaAndFlag) [⟨0, 0, [], [], true⟩]

end Demo

/-- **The refusal comes after the quota**: the response is an error, and the quota is changed and
has its entry. -/
theorem quotaBeforeRefusal :
    Demo.answered.tasks.map Update.failed = [true] ∧
    (Accounts.Demo.start.shared.users.find? 1).map Account.uploadQuotaBytes = some 100 ∧
    (Demo.answered.shared.users.find? 1).map Account.uploadQuotaBytes = some 5 ∧
    Accounts.Demo.start.shared.audit = [] ∧
    Demo.answered.shared.audit.map AuditEntry.action = [ascii "user.quota.changed"] := by
  refine ⟨by decide +kernel, by decide +kernel, by decide +kernel, rfl, by decide +kernel⟩

end AdminUserController

end Launcher.Accounts
