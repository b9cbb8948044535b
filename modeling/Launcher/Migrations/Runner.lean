import Launcher.Migrations.Prefix

set_option autoImplicit false

/-! # Running migrations

`MigrationRunner::run` reads the directory and the table `schema_migrations`, plans, and
applies what is pending, each migration in a transaction of its own together with its history
row. The file system and the server decide what fails: a `Call` is one call of `run` with the
directory it finds and libpq's answers. A `Deployment` is the database over a sequence of
calls, with the scripts whose effects it holds. -/

namespace Launcher.Migrations

/-- A row of `schema_migrations`. -/
structure HistoryRow where
  version : Bytes
  name : Bytes
  checksum : Bytes
  deriving DecidableEq, Repr

def HistoryRow.applied (row : HistoryRow) : AppliedMigration :=
  { version := row.version, checksum := row.checksum }

/-- A migration that was committed, and the migrations of the directory it was run from. -/
structure Execution where
  migration : MigrationFile
  directory : List MigrationFile
  deriving DecidableEq, Repr

structure Deployment where
  history : List HistoryRow
  /-- The committed scripts, in the order of their transactions. -/
  executed : List Execution
  /-- The migrations of the last directory on which `run` got past the plan: it succeeded there,
  or a transaction failed. -/
  directory : Option (List MigrationFile)
  deriving DecidableEq, Repr

def Deployment.empty : Deployment := { history := [], executed := [], directory := none }

/-- One call of `run`. Of each step, `none` when it succeeds and libpq's message when it does
not; `order` is the order in which the unsorted `SELECT` returns the rows. -/
structure Call where
  directory : Directory
  connection : Option Bytes
  createTable : Option Bytes
  select : Option Bytes
  order : List AppliedMigration → List AppliedMigration
  order_perm : ∀ rows, (order rows).Perm rows
  begun : MigrationFile → Option Bytes
  script : MigrationFile → Option Bytes
  insert : MigrationFile → Option Bytes
  commit : MigrationFile → Option Bytes

structure Summary where
  applied : Nat
  alreadyApplied : Nat
  deriving DecidableEq, Repr

/-- Without trailing line ends. -/
def trimmed (message : Bytes) : Bytes :=
  (message.reverse.dropWhile (fun c => c == 0x0a || c == 0x0d)).reverse

/-- `exec` and `execParams`, on what libpq answers. -/
def exec (outcome : Option Bytes) : VoidResult :=
  match outcome with
  | none => .ok ()
  | some message => failure .DependencyFailure (trimmed message)

def loadApplied (call : Call) (history : List HistoryRow) : Result (List AppliedMigration) :=
  match call.select with
  | none => .ok (call.order (history.map (·.applied)))
  | some message =>
      failure .DependencyFailure (ascii "cannot read schema_migrations: " ++ trimmed message)

/-- The `INSERT` of the history row; `version` is the table's primary key. -/
def insertHistory (call : Call) (migration : MigrationFile) (history : List HistoryRow) :
    VoidResult :=
  if history.any (·.version == migration.version) then
    exec (some (ascii "ERROR:  duplicate key value violates unique constraint " ++
      ascii "\"schema_migrations_pkey\"\nDETAIL:  Key (version)=(" ++ migration.version ++
      ascii ") already exists.\n"))
  else exec (call.insert migration)

/-- What a committed transaction leaves. -/
def Deployment.committed (deployment : Deployment) (discovered : List MigrationFile)
    (migration : MigrationFile) : Deployment :=
  { deployment with
    history := deployment.history ++ [{ version := migration.version, name := migration.name
                                        checksum := migration.checksum }]
    executed := deployment.executed ++ [{ migration, directory := discovered }] }

/-- The body of the loop of `run`. A failure anywhere leaves the database as it was. -/
def transaction (call : Call) (discovered : List MigrationFile) (migration : MigrationFile)
    (deployment : Deployment) : VoidResult × Deployment :=
  match exec (call.begun migration) with
  | .error err => (.error err, deployment)
  | .ok () =>
      let applyResult := do
        exec (call.script migration)
        insertHistory call migration deployment.history
      match applyResult with
      | .error err =>
          (failure .DependencyFailure (ascii "migration " ++ migration.version ++ ascii "_" ++
            migration.name ++ ascii " failed and was rolled back: " ++ err.detail), deployment)
      | .ok () =>
          match exec (call.commit migration) with
          | .error err => (.error err, deployment)
          | .ok () => (.ok (), deployment.committed discovered migration)

/-- The loop over the pending migrations. -/
def applyPending (call : Call) (discovered : List MigrationFile) :
    List MigrationFile → Summary → Deployment → Result Summary × Deployment
  | [], summary, deployment => (.ok summary, deployment)
  | migration :: rest, summary, deployment =>
      match transaction call discovered migration deployment with
      | (.error err, deployment) => (.error err, deployment)
      | (.ok (), deployment) =>
          applyPending call discovered rest { summary with applied := summary.applied + 1 }
            deployment

/-- `MigrationRunner::run`. -/
def run (sha256Hex : Bytes → Bytes) (call : Call) (deployment : Deployment) :
    Result Summary × Deployment :=
  match call.connection with
  | some message =>
      (failure .DependencyFailure (ascii "cannot connect to the database: " ++ trimmed message),
        deployment)
  | none =>
      match exec call.createTable with
      | .error err =>
          (failure .DependencyFailure (ascii "cannot create schema_migrations: " ++ err.detail),
            deployment)
      | .ok () =>
          match discoverMigrations sha256Hex call.directory with
          | .error err => (.error err, deployment)
          | .ok discovered =>
              match loadApplied call deployment.history with
              | .error err => (.error err, deployment)
              | .ok applied =>
                  match planMigrations discovered applied with
                  | .error err => (.error err, deployment)
                  | .ok plan =>
                      applyPending call discovered plan.pending
                        { applied := 0, alreadyApplied := plan.alreadyApplied }
                        { deployment with directory := some discovered }

/-- A sequence of calls, one after the other. -/
def runs (sha256Hex : Bytes → Bytes) (calls : List Call) (deployment : Deployment) :
    Deployment :=
  calls.foldl (fun deployment call => (run sha256Hex call deployment).2) deployment

/-! ## What the database holds -/

/-- Every migration ran after all those its directory has below it. -/
def InOrder (executed : List Execution) : Prop :=
  ∀ before execution, before ++ [execution] <+: executed →
    ∀ migration ∈ execution.directory, migration.version < execution.migration.version →
      migration.applied ∈ before.map (·.migration.applied)

structure Consistent (deployment : Deployment) : Prop where
  recorded : deployment.history.map (·.applied)
    = deployment.executed.map (·.migration.applied)
  distinct : (deployment.executed.map (·.migration.version)).Nodup
  segment : ∀ discovered, deployment.directory = some discovered →
    ∃ k, InitialSegment discovered (deployment.history.map (·.applied)) k
  inOrder : InOrder deployment.executed

theorem Consistent.empty : Consistent Deployment.empty where
  recorded := rfl
  distinct := List.nodup_nil
  segment := fun discovered h => by cases h
  inOrder := by
    intro before execution h
    have hnil := List.prefix_nil.mp h
    simp at hnil

theorem Consistent.versions_nodup {deployment : Deployment} (h : Consistent deployment) :
    ((deployment.history.map (·.applied)).map (·.version)).Nodup := by
  rw [h.recorded, List.map_map]
  exact h.distinct

/-- A transaction either leaves everything as it was or commits the migration. -/
theorem transaction_cases (call : Call) (discovered : List MigrationFile)
    (migration : MigrationFile) (deployment : Deployment) :
    (∃ err, transaction call discovered migration deployment = (.error err, deployment)) ∨
    transaction call discovered migration deployment
      = (.ok (), deployment.committed discovered migration) := by
  unfold transaction
  split
  · exact Or.inl ⟨_, rfl⟩
  · simp only
    split
    · exact Or.inl ⟨_, rfl⟩
    · split
      · exact Or.inl ⟨_, rfl⟩
      · exact Or.inr rfl

/-- The migration after an initial segment may be committed. -/
theorem Consistent.committed {deployment : Deployment} (h : Consistent deployment)
    {discovered : List MigrationFile} (hdir : deployment.directory = some discovered)
    (hinc : StrictlyIncreasing discovered) {k : Nat} {migration : MigrationFile}
    (hseg : InitialSegment discovered (deployment.history.map (·.applied)) k)
    (hnext : discovered[k]? = some migration) :
    Consistent (deployment.committed discovered migration) ∧
    InitialSegment discovered
      ((deployment.committed discovered migration).history.map (·.applied)) (k + 1) := by
  obtain ⟨hk, hmig⟩ := List.getElem?_eq_some_iff.mp hnext
  have htake : discovered.take (k + 1) = discovered.take k ++ [migration] := by
    rw [List.take_add_one, hnext]
    rfl
  have hhistory : (deployment.committed discovered migration).history.map (·.applied)
      = deployment.history.map (·.applied) ++ [migration.applied] := by
    simp [Deployment.committed, HistoryRow.applied, MigrationFile.applied]
  have hseg' : InitialSegment discovered
      ((deployment.committed discovered migration).history.map (·.applied)) (k + 1) := by
    refine ⟨hk, ?_⟩
    rw [hhistory, htake, List.map_append]
    exact hseg.2.append_right _
  have hexec : (deployment.committed discovered migration).executed
      = deployment.executed ++ [{ migration, directory := discovered }] := rfl
  -- versions below the migration are those of the segment
  have hbelow : ∀ m ∈ discovered, m.version < migration.version → m ∈ discovered.take k := by
    intro m hm hlt
    have hsplit : (discovered.take k ++ discovered.drop k).Pairwise
        (fun lhs rhs => lhs.version < rhs.version) := by
      rw [List.take_append_drop]
      exact hinc
    rw [← List.take_append_drop k discovered] at hm
    rcases List.mem_append.mp hm with hm | hm
    · exact hm
    · have hdrop : discovered.drop k = migration :: discovered.drop (k + 1) := by
        rw [List.drop_eq_getElem_cons hk, hmig]
      rw [hdrop] at hm hsplit
      rcases List.mem_cons.mp hm with rfl | hm
      · exact absurd hlt (lt_irrefl _)
      · have habove := List.rel_of_pairwise_cons (List.pairwise_append.mp hsplit).2.1 hm
        exact absurd hlt (lt_asymm habove)
  have hrow : ∀ m, m ∈ discovered.take k →
      m.applied ∈ deployment.executed.map (·.migration.applied) := by
    intro m hm
    rw [← h.recorded]
    exact hseg.2.mem_iff.mpr (List.mem_map_of_mem hm)
  refine ⟨⟨?_, ?_, ?_, ?_⟩, hseg'⟩
  · rw [hhistory, hexec, h.recorded, List.map_append]
    rfl
  · have hnd : (((deployment.committed discovered migration).history.map (·.applied)).map
        (·.version)).Nodup := by
      refine (hseg'.2.map _).nodup_iff.mpr ?_
      rw [List.map_map]
      exact hinc.nodup.sublist ((List.take_sublist _ _).map _)
    rw [hhistory, h.recorded] at hnd
    rw [hexec, List.map_append]
    simpa [List.map_map, Function.comp_def, MigrationFile.applied] using hnd
  · intro other hother
    have hsame : other = discovered := by
      have : some other = some discovered := hother.symm.trans hdir
      exact Option.some.inj this
    rw [hsame]
    exact ⟨k + 1, hseg'⟩
  · intro before execution hprefix
    rw [hexec] at hprefix
    rcases List.prefix_concat_iff.mp hprefix with hlast | hold
    · obtain ⟨rfl, hexecution⟩ := List.append_inj' hlast rfl
      obtain rfl := List.cons.inj hexecution |>.1
      exact fun m hm hlt => hrow m (hbelow m hm hlt)
    · exact h.inOrder before execution hold

/-- The loop, from any point of the directory, keeps the history an initial segment. -/
theorem Consistent.applyPending {call : Call} {discovered : List MigrationFile}
    (hinc : StrictlyIncreasing discovered) (pending : List MigrationFile) (summary : Summary)
    (deployment : Deployment) (h : Consistent deployment)
    (hdir : deployment.directory = some discovered) {k : Nat}
    (hseg : InitialSegment discovered (deployment.history.map (·.applied)) k)
    (hpending : pending = discovered.drop k) :
    Consistent (applyPending call discovered pending summary deployment).2 := by
  induction pending generalizing summary deployment k with
  | nil => exact h
  | cons migration rest ih =>
      rw [Migrations.applyPending]
      rcases transaction_cases call discovered migration deployment with ⟨err, htx⟩ | htx
      · rw [htx]
        exact h
      · rw [htx]
        have hnext : discovered[k]? = some migration := by
          have hhead := congrArg List.head? hpending
          rw [List.head?_drop] at hhead
          exact hhead.symm
        have hrest : rest = discovered.drop (k + 1) := by
          have htail := congrArg List.tail hpending
          rwa [List.tail_drop] at htail
        obtain ⟨hcommitted, hseg'⟩ := h.committed hdir hinc hseg hnext
        exact ih _ _ hcommitted hdir hseg' hrest

theorem Consistent.run {sha256Hex : Bytes → Bytes} (call : Call) {deployment : Deployment}
    (h : Consistent deployment) : Consistent (run sha256Hex call deployment).2 := by
  unfold Migrations.run
  split
  · exact h
  · split
    · exact h
    · split
      · exact h
      · rename_i discovered hdiscovered
        have hinc := discoverMigrations_increasing hdiscovered
        split
        · exact h
        · rename_i applied hload
          split
          · exact h
          · rename_i plan hplan
            have happlied : applied.Perm (deployment.history.map (·.applied)) := by
              unfold loadApplied at hload
              split at hload
              · cases hload
                exact call.order_perm _
              · cases hload
            have hnd : (applied.map (·.version)).Nodup :=
              (happlied.map _).nodup_iff.mpr h.versions_nodup
            obtain ⟨k, hseg, rfl⟩ := (planMigrations_ok_iff hinc hnd plan).mp hplan
            have hseg' : InitialSegment discovered (deployment.history.map (·.applied)) k :=
              ⟨hseg.1, happlied.symm.trans hseg.2⟩
            have hstart : Consistent { deployment with directory := some discovered } :=
              { recorded := h.recorded
                distinct := h.distinct
                segment := by
                  intro other hother
                  cases hother
                  exact ⟨k, hseg'⟩
                inOrder := h.inOrder }
            exact Consistent.applyPending hinc _ _ _ hstart rfl hseg' rfl

theorem Consistent.runs {sha256Hex : Bytes → Bytes} (calls : List Call)
    {deployment : Deployment} (h : Consistent deployment) :
    Consistent (runs sha256Hex calls deployment) := by
  induction calls generalizing deployment with
  | nil => exact h
  | cons call rest ih => exact ih (h.run call)

theorem applyPending_directory (call : Call) (discovered : List MigrationFile)
    (pending : List MigrationFile) (summary : Summary) (deployment : Deployment) :
    (applyPending call discovered pending summary deployment).2.directory
      = deployment.directory := by
  induction pending generalizing summary deployment with
  | nil => rfl
  | cons migration rest ih =>
      rw [Migrations.applyPending]
      rcases transaction_cases call discovered migration deployment with ⟨err, htx⟩ | htx
      · rw [htx]
      · rw [htx]
        exact ih _ _

/-- A run is refused and changes nothing, or gets past the plan of its directory. -/
theorem run_refused_or_planned (sha256Hex : Bytes → Bytes) (call : Call)
    (deployment : Deployment) :
    (∃ err, run sha256Hex call deployment = (.error err, deployment)) ∨
    ∃ discovered, discoverMigrations sha256Hex call.directory = .ok discovered ∧
      (run sha256Hex call deployment).2.directory = some discovered := by
  unfold Migrations.run
  split
  · exact Or.inl ⟨_, rfl⟩
  · split
    · exact Or.inl ⟨_, rfl⟩
    · split
      · exact Or.inl ⟨_, rfl⟩
      · rename_i discovered hdiscovered
        split
        · exact Or.inl ⟨_, rfl⟩
        · split
          · exact Or.inl ⟨_, rfl⟩
          · exact Or.inr ⟨discovered, hdiscovered, applyPending_directory _ _ _ _ _⟩

/-- **The history is always a prefix.** The plan accepts exactly the initial segments of the
directory and returns the rest of it. A run that does not get past the plan changes nothing;
after any sequence of runs the history is an initial segment of the last directory on which
one did, it records exactly the scripts that were committed, none of them twice and none
before a smaller version of its directory. -/
theorem history_is_prefix (sha256Hex : Bytes → Bytes) :
    (∀ (discovered : List MigrationFile) (applied : List AppliedMigration),
      StrictlyIncreasing discovered → (applied.map (·.version)).Nodup →
      ∀ plan, planMigrations discovered applied = .ok plan ↔
        ∃ k, InitialSegment discovered applied k ∧
          plan = { pending := discovered.drop k, alreadyApplied := k }) ∧
    (∀ (call : Call) (deployment : Deployment),
      (∃ err, run sha256Hex call deployment = (.error err, deployment)) ∨
      ∃ discovered, discoverMigrations sha256Hex call.directory = .ok discovered ∧
        (run sha256Hex call deployment).2.directory = some discovered) ∧
    ∀ calls : List Call, Consistent (runs sha256Hex calls Deployment.empty) :=
  ⟨fun _ _ hinc hnd plan => planMigrations_ok_iff hinc hnd plan,
    run_refused_or_planned sha256Hex, fun calls => Consistent.runs calls Consistent.empty⟩

/-! ### Two runs: the first stops at its second script, the second has a third file -/

def fileOf (fileName : String) (content : String) : DirectoryEntry :=
  { path := ascii "migrations/" ++ ascii fileName, fileName := ascii fileName
    isRegularFile := true, content := some (ascii content) }

/-- A call whose scripts fail from the version `failing` on. -/
def callOn (entries : List DirectoryEntry) (failing : Bytes) : Call where
  directory := { path := ascii "migrations", entries := some entries }
  connection := none
  createTable := none
  select := none
  order := fun rows => rows.reverse
  order_perm := fun rows => rows.reverse_perm
  begun := fun _ => none
  script := fun migration =>
    if failing ≤ migration.version then some (ascii "ERROR:  syntax error\n") else none
  insert := fun _ => none
  commit := fun _ => none

def twoCalls : List Call :=
  [callOn [fileOf "2_index.sql" "b", fileOf "1_users.sql" "a"] (ascii "2"),
   callOn [fileOf "3_games.sql" "c", fileOf "2_index.sql" "b", fileOf "1_users.sql" "a"]
     (ascii "9")]

def usersTable : MigrationFile :=
  { version := ascii "1", name := ascii "users", path := [], sql := ascii "a"
    checksum := ascii "a" }

def usersIndex : MigrationFile :=
  { version := ascii "2", name := ascii "index", path := [], sql := ascii "b"
    checksum := ascii "b" }

theorem history_is_prefix_two_runs :
    planMigrations [usersTable, usersIndex] [usersTable.applied]
      = .ok { pending := [usersIndex], alreadyApplied := 1 } ∧
    ((runs id twoCalls Deployment.empty).history.map (·.version)
      = [ascii "1", ascii "2", ascii "3"]) ∧
    Consistent (runs id twoCalls Deployment.empty) := by
  have hinc : StrictlyIncreasing [usersTable, usersIndex] := by
    unfold StrictlyIncreasing
    decide
  have hseg : InitialSegment [usersTable, usersIndex] [usersTable.applied] 1 :=
    ⟨by decide, List.Perm.refl _⟩
  have hall := history_is_prefix id
  have hplan := (hall.1 _ [usersTable.applied] hinc (by decide)
    { pending := [usersIndex], alreadyApplied := 1 }).mpr ⟨1, hseg, rfl⟩
  exact ⟨hplan, by decide, hall.2.2 twoCalls⟩

end Launcher.Migrations
