import Launcher.Database.Schema
import Launcher.Domain.CrashReport
import Launcher.Lib.Listings
import Launcher.Lib.Tallies
import Launcher.Lib.Utf8

set_option autoImplicit false

/-! # The table of crash reports

`CrashReportService` and the statements of `PgCrashReportRepository`. A report is added by an
anonymous caller and dropped by the sweep; an operator reads the groups, one for each fingerprint,
and the reports of one of them.

The clock of the database is part of the state and may be set to anything between two steps, so any
number of reports can have arrived at one instant, and in any order. -/

namespace Launcher.CrashReports

open Lib

/-- A row of `crash_reports`. -/
structure CrashRow where
  id : Uuid
  kind : Bytes
  occurredAt : Int
  launcherVersion : Bytes
  platform : Bytes
  exceptionType : Bytes
  message : Bytes
  stackTrace : Bytes
  fingerprint : Bytes
  receivedAt : Nat
  deriving DecidableEq, Repr

/-- The clock and the table, with what its two `CHECK`s say. -/
structure State where
  now : Nat
  reports : Table CrashRow.id
  kind_not_empty : ∀ row ∈ reports, row.kind ≠ []
  fingerprint_format : ∀ row ∈ reports, isSha256Hex row.fingerprint = true

/-- The retention, SHA-256, and what the database makes of instants and texts: `$2::timestamptz`,
`to_char` in UTC, and its order of texts. -/
structure Env where
  retentionSeconds : Nat
  sha256Hex : Bytes → Bytes
  timestamptz : Bytes → Option Int
  toChar : Int → Bytes
  collation : Bytes → Bytes → Bool

structure CrashReport where
  id : Bytes
  kind : Bytes
  occurredAt : Bytes
  launcherVersion : Bytes
  platform : Bytes
  exceptionType : Bytes
  message : Bytes
  stackTrace : Bytes
  fingerprint : Bytes
  receivedAt : Bytes
  deriving DecidableEq, Repr

structure CrashGroup where
  fingerprint : Bytes
  exceptionType : Bytes
  message : Bytes
  occurrences : Int
  firstSeenAt : Bytes
  lastSeenAt : Bytes
  latestReportId : Bytes
  deriving DecidableEq, Repr

structure CrashPage where
  items : List CrashReport
  total : Int
  deriving DecidableEq, Repr

structure CrashGroupPage where
  items : List CrashGroup
  total : Int
  deriving DecidableEq, Repr

def DEFAULT_CRASH_PAGE_SIZE : Int := 25
def MAX_CRASH_PAGE_SIZE : Int := 100

structure CrashQuery where
  fingerprint : Bytes := []
  limit : Int := DEFAULT_CRASH_PAGE_SIZE
  offset : Int := 0
  deriving DecidableEq, Repr

/-- A text the database takes. -/
def acceptsText (text : Bytes) : Bool := Utf8.valid text && !text.contains 0

/-! ## The statements -/

section Statements

variable (env : Env)

/-- `mapReport`. -/
def mapReport (row : CrashRow) : CrashReport where
  id := uuidText row.id
  kind := row.kind
  occurredAt := env.toChar row.occurredAt
  launcherVersion := row.launcherVersion
  platform := row.platform
  exceptionType := row.exceptionType
  message := row.message
  stackTrace := row.stackTrace
  fingerprint := row.fingerprint
  receivedAt := env.toChar row.receivedAt

namespace State

variable (s : State)

/-- The row of an `INSERT` that does not throw. -/
structure Insertable (row : CrashRow) : Prop where
  texts : ∀ text ∈ [row.kind, row.launcherVersion, row.platform, row.exceptionType, row.message,
    row.stackTrace, row.fingerprint], acceptsText text = true
  kind_not_empty : row.kind ≠ []
  fingerprint_format : isSha256Hex row.fingerprint = true
  fresh : s.reports.find? row.id = none

instance (row : CrashRow) : Decidable (s.Insertable row) :=
  decidable_of_iff ((∀ text ∈ [row.kind, row.launcherVersion, row.platform, row.exceptionType,
      row.message, row.stackTrace, row.fingerprint], acceptsText text = true) ∧ row.kind ≠ [] ∧
      isSha256Hex row.fingerprint = true ∧ s.reports.find? row.id = none)
    ⟨fun ⟨h, h', h'', h'''⟩ => ⟨h, h', h'', h'''⟩, fun h => ⟨h.1, h.2, h.3, h.4⟩⟩

def insert (row : CrashRow) (h : s.Insertable row) : State where
  now := s.now
  reports := s.reports.insert row
  kind_not_empty := fun row' hrow' => (Table.eq_or_mem_of_mem_insert hrow').elim
    (fun heq => heq ▸ h.kind_not_empty) (s.kind_not_empty row')
  fingerprint_format := fun row' hrow' => (Table.eq_or_mem_of_mem_insert hrow').elim
    (fun heq => heq ▸ h.fingerprint_format) (s.fingerprint_format row')

/-- `add`, with the id that `gen_random_uuid()` came up with; `none` where it throws. -/
def add (id : Uuid) (report : NewCrashReport) (fingerprint : Bytes) :
    Option (CrashReport × State) := do
  let occurredAt ← if acceptsText report.occurredAt then env.timestamptz report.occurredAt else none
  let row : CrashRow := {
    id := id, kind := report.kind, occurredAt := occurredAt
    launcherVersion := report.launcherVersion, platform := report.platform
    exceptionType := report.exceptionType, message := report.message
    stackTrace := report.stackTrace, fingerprint := fingerprint, receivedAt := s.now }
  if h : s.Insertable row then some (mapReport env row, s.insert row h) else none

/-- `received_at < now() - $1::interval`. -/
def pastRetention (seconds : Nat) (row : CrashRow) : Bool :=
  decide (row.receivedAt + seconds * second < s.now)

/-- How many rows went, and what is left. -/
def deleteOlderThan (seconds : Nat) : Nat × State :=
  ((s.reports.rows.filter (s.pastRetention seconds)).length,
    { now := s.now
      reports := s.reports.delete (s.pastRetention seconds)
      kind_not_empty := fun row hrow => s.kind_not_empty row (Table.mem_delete.mp hrow).1
      fingerprint_format := fun row hrow => s.fingerprint_format row (Table.mem_delete.mp hrow).1 })

/-! ### Reading reports -/

/-- `received_at DESC, id`. -/
def newestFirst : CrashRow → CrashRow → Bool :=
  thenBy (descending (·.receivedAt)) (ascending (·.id.toNat))

/-- `$1 = '' OR fingerprint = $1`. -/
def matching (fingerprint : Bytes) : List CrashRow :=
  s.reports.rows.filter (fun row => fingerprint.isEmpty || row.fingerprint == fingerprint)

/-- `search`; `none` where it throws. -/
def search (query : CrashQuery) : Option CrashPage :=
  if acceptsText query.fingerprint then
    some {
      items := (window query.limit.toNat query.offset.toNat
        ((s.matching query.fingerprint).insertionSort (fun a b => newestFirst a b = true))).map
          (mapReport env)
      total := (s.matching query.fingerprint).length }
  else none

def findById (id : Bytes) : Option CrashReport :=
  (s.reports.find? (uuidOf id)).map (mapReport env)

/-! ### Reading groups -/

/-- `fingerprint, received_at DESC, id`. -/
def latestFirst : CrashRow → CrashRow → Bool :=
  thenBy (fun a b => env.collation a.fingerprint b.fingerprint) newestFirst

/-- `WITH latest`, from the rows in order. -/
def latest (ordered : List CrashRow) : List CrashRow := distinctOn (·.fingerprint) ordered

/-- A row of `counted`. -/
structure Counted where
  fingerprint : Bytes
  occurrences : Int
  firstSeen : Nat
  lastSeen : Nat
  deriving DecidableEq, Repr

/-- What `GROUP BY` makes of a group. A group has a row, so no 0 is read as an instant. -/
def count (fingerprint : Bytes) : Counted :=
  let received := (s.reports.rows.filter (fun row => decide (row.fingerprint = fingerprint))).map
    (·.receivedAt)
  { fingerprint := fingerprint
    occurrences := received.length
    firstSeen := received.min?.getD 0
    lastSeen := received.max?.getD 0 }

/-- `SELECT DISTINCT fingerprint`. -/
def fingerprints : List Bytes := (s.reports.rows.map (·.fingerprint)).dedup

/-- `WITH counted`. -/
def counted : List Counted := s.fingerprints.map s.count

/-- `FROM latest l JOIN counted c ON c.fingerprint = l.fingerprint`. -/
def joined (ordered : List CrashRow) : List (CrashRow × Counted) :=
  join (fun l c => decide (c.fingerprint = l.fingerprint)) (latest ordered) s.counted

/-- `c.last_seen DESC, l.fingerprint`. -/
def lastSeenFirst : CrashRow × Counted → CrashRow × Counted → Bool :=
  thenBy (descending (·.2.lastSeen)) (fun a b => env.collation a.1.fingerprint b.1.fingerprint)

def mapGroup (row : CrashRow × Counted) : CrashGroup where
  fingerprint := row.1.fingerprint
  latestReportId := uuidText row.1.id
  exceptionType := row.1.exceptionType
  message := row.1.message
  occurrences := row.2.occurrences
  firstSeenAt := env.toChar row.2.firstSeen
  lastSeenAt := env.toChar row.2.lastSeen

/-- The rows behind the groups, with one answer for each of the two `ORDER BY`s. -/
def groupRows : List (CrashRow × Counted) :=
  (s.joined (s.reports.rows.insertionSort (fun a b => latestFirst env a b = true))).insertionSort
    (fun a b => lastSeenFirst env a b = true)

def groups (limit offset : Int) : CrashGroupPage where
  items := (window limit.toNat offset.toNat (s.groupRows env)).map (mapGroup env)
  total := s.fingerprints.length

end State

end Statements

/-! ## The service -/

section Service

variable (env : Env) (s : State)

def requireReader (actor : Actor) : VoidResult :=
  if !actor.can .ADMIN_CRASHES_READ then
    failure .Forbidden (ascii "you cannot read crash reports")
  else .ok ()

/-- The answer and the state behind it; `none` where the database throws, which leaves the table as
it is. -/
def submit (id : Uuid) (report : NewCrashReport) : Result (Option (CrashReport × State)) := do
  let (candidate, fingerprint) ← Launcher.CrashReport.submit env.sha256Hex report
  .ok (s.add env id candidate fingerprint)

/-- The page size that is asked for, within the bounds. -/
def clampLimit (limit : Int) : Int := max 1 (min limit MAX_CRASH_PAGE_SIZE)

def listGroups (actor : Actor) (limit offset : Int) : Result CrashGroupPage := do
  requireReader actor
  .ok (s.groups env (clampLimit limit) (max offset 0))

def list (actor : Actor) (query : CrashQuery) : Result (Option CrashPage) := do
  requireReader actor
  .ok (s.search env { query with limit := clampLimit query.limit, offset := max query.offset 0 })

def find (actor : Actor) (id : Bytes) : Result CrashReport := do
  requireReader actor
  if !isUuid id then failure .NotFound (ascii "no such crash report")
  else
    match s.findById env id with
    | some found => .ok found
    | none => failure .NotFound (ascii "no such crash report")

def sweepExpired : Nat × State := s.deleteOlderThan env.retentionSeconds

end Service

/-! ## Runs -/

inductive Event
  | tick (now : Nat)
  | submit (id : Uuid) (report : NewCrashReport)
  | sweepExpired
  deriving DecidableEq, Repr

/-- The empty table. -/
def State.initial (now : Nat) : State where
  now := now
  reports := Table.empty
  kind_not_empty := fun _ hrow => by cases hrow
  fingerprint_format := fun _ hrow => by cases hrow

def step (env : Env) (s : State) : Event → State
  | .tick now => { s with now := now }
  | .submit id report =>
      match submit env s id report with
      | .ok (some (_, s')) => s'
      | _ => s
  | .sweepExpired => (sweepExpired env s).2

def run (env : Env) (s : State) (events : List Event) : State := events.foldl (step env) s

end Launcher.CrashReports
