import Launcher.Accounts.Erasable
import Launcher.Storefront.System

set_option autoImplicit false

/-! # The account services beside the catalog

Both run in one process over one database. Of the table `users` the accounts keep the identity
of each row and the catalog its name and its quota; a statement on one side that the other
side sees is carried over by `afterAccounts`: a registration, a change of quota, and the one
statement of an erasure, which also empties the library and detaches the download events. -/

namespace Launcher.Deployment

open Launcher.Lib

structure State where
  accounts : Accounts.State
  catalog : Storefront.State

structure Env where
  accounts : Accounts.Env
  catalog : Storefront.Env

structure Choice where
  accounts : Accounts.Choice
  catalog : Launcher.Choice
  deriving DecidableEq, Repr

inductive Call : Type → Type 1
  | accounts {α : Type} (c : Accounts.Call α) : Call α
  | catalog {α : Type} (c : Storefront.Call α) : Call α

/-- The parts of the erasing statement that the catalog sees. -/
def forget (userId : Uuid) (identity : Accounts.ErasedIdentity) (t : Storefront.State) :
    Storefront.State :=
  { Storefront.outside (.renameUser userId identity.displayName) t with
    library := t.library.delete (fun row => row.userId == userId)
    events := t.events.map (fun e => { e with userId := e.userId.filter (· != userId) }) }

/-- What the catalog sees of a statement on the accounts, given its reply. -/
def afterAccounts : {α : Type} → Accounts.Call α → α → Storefront.State → Storefront.State
  | _, .createUser _, .ok (some user), t =>
      Storefront.outside (.registerUser user.id user.uploadQuotaBytes user.displayName) t
  | _, .setUploadQuota userId quotaBytes _, some _, t => { t with
      core := { t.core with
        users := t.core.users.modify userId
          ⟨fun u => { u with uploadQuotaBytes := quotaBytes }, fun _ => rfl⟩ } }
  | _, .erase userId identity _, .ok true, t => forget userId identity t
  | _, _, _, t => t

/-- Run one call. -/
def exec (env : Env) (choice : Choice) : {α : Type} → Call α → State → α × State
  | _, .accounts c, s =>
      let r := Accounts.exec env.accounts choice.accounts c s.accounts
      (r.1, { accounts := r.2, catalog := afterAccounts c r.1 s.catalog })
  | _, .catalog c, s =>
      let r := Storefront.exec env.catalog choice.catalog c s.catalog
      (r.1, { s with catalog := r.2 })

inductive Task : Type 1
  | accounts (t : Accounts.Task)
  | catalog (t : Storefront.Task)

inductive Request
  | accounts (r : Accounts.Request)
  | catalog (r : Storefront.Request)

def entry (env : Env) : Request → Task
  | .accounts r => .accounts (Accounts.entry r)
  | .catalog r => .catalog (Storefront.entry env.catalog r)

def Task.next (env : Env) : Task → Suspended Call Task
  | .accounts t => ((t.next env.accounts).lift Call.accounts).map .accounts
  | .catalog t => ((t.next env.catalog).lift Call.catalog).map .catalog

inductive Outside
  | tick (duration : Nat)

def outside : Outside → State → State
  | .tick duration, s =>
      { accounts := Accounts.outside (.tick duration) s.accounts
        catalog := Storefront.outside (.tick duration) s.catalog }

/-- All services as one system of interleaved coroutines. -/
def server (env : Env) : System State Task Request Choice Outside Call where
  entry := entry env
  next := Task.next env
  exec := exec env
  outside := outside

abbrev Server := World State Task

/-- A step of the deployment: who moves. -/
abbrev Move := Label Request Choice Outside

/-- Before the first session and before anything is published. -/
structure Initial (w : Server) : Prop where
  tasks : w.tasks = []
  accounts : Accounts.Initial ⟨w.shared.accounts, []⟩
  deletionRequests : w.shared.accounts.deletionRequests = []
  catalog : Storefront.Initial ⟨w.shared.catalog, []⟩

/-- What the two sides give for the calls of their coroutines holds of those of the whole. -/
theorem Task.next_all {env : Env} {P : {α : Type} → Call α → Prop}
    (accounts : ∀ t : Accounts.Task,
      (t.next env.accounts).All (fun c _ => P (Call.accounts c)))
    (catalog : ∀ t : Storefront.Task,
      (t.next env.catalog).All (fun c _ => P (Call.catalog c)))
    (t : Task) : (t.next env).All (fun c _ => P c) := by
  cases t with
  | accounts t =>
      have h := accounts t
      show (((t.next env.accounts).lift Call.accounts).map Task.accounts).All _
      cases hn : t.next env.accounts with
      | done => trivial
      | call c k => rwa [hn] at h
  | catalog t =>
      have h := catalog t
      show (((t.next env.catalog).lift Call.catalog).map Task.catalog).All _
      cases hn : t.next env.catalog with
      | done => trivial
      | call c k => rwa [hn] at h

end Launcher.Deployment
