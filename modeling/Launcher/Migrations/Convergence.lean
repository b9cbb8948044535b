import Launcher.Migrations.Runner

set_option autoImplicit false

/-! # Interrupted migrations

A deployment grows its directory by new versions at the end, and a run of the migrations may stop
anywhere: without a connection, in the middle of the directory, at a commit. `Reached` is what
any number of such runs leave. The first run in which nothing fails then brings the database to the
whole directory, each script committed once and in order, and from there on a run changes
nothing (`interrupted_converges`). -/

namespace Launcher.Migrations

/-- Nothing fails in the call, with any of the migrations. -/
structure Call.Works (call : Call) (migrations : List MigrationFile) : Prop where
  connection : call.connection = none
  createTable : call.createTable = none
  select : call.select = none
  begun : ∀ migration ∈ migrations, call.begun migration = none
  script : ∀ migration ∈ migrations, call.script migration = none
  insert : ∀ migration ∈ migrations, call.insert migration = none
  commit : ∀ migration ∈ migrations, call.commit migration = none

/-- The first `k` migrations of the directory have been committed, in order, and recorded. -/
structure Reached (discovered : List MigrationFile) (k : Nat) (deployment : Deployment) : Prop where
  le_length : k ≤ discovered.length
  executed : deployment.executed.map (·.migration) = discovered.take k
  recorded : deployment.history.map (·.applied) = (discovered.take k).map (·.applied)

section Reached

variable {sha256Hex : Bytes → Bytes} {call : Call} {discovered earlier : List MigrationFile}
  {deployment : Deployment} {k : Nat}

theorem Reached.segment (h : Reached discovered k deployment) :
    InitialSegment discovered (deployment.history.map (·.applied)) k :=
  ⟨h.le_length, h.recorded ▸ List.Perm.refl _⟩

/-- A directory that has grown since has the same first versions. -/
theorem Reached.of_prefix (hearlier : earlier <+: discovered) (h : Reached earlier k deployment) :
    Reached discovered k deployment := by
  obtain ⟨more, rfl⟩ := hearlier
  have htake : (earlier ++ more).take k = earlier.take k :=
    List.take_append_of_le_length h.le_length
  refine ⟨?_, ?_, ?_⟩
  · rw [List.length_append]
    exact h.le_length.trans (Nat.le_add_right _ _)
  · rw [htake]
    exact h.executed
  · rw [htake]
    exact h.recorded

/-- The next migration of the directory, committed. -/
theorem Reached.committed (earlier : List MigrationFile) {migration : MigrationFile}
    (h : Reached discovered k deployment) (hnext : discovered[k]? = some migration) :
    Reached discovered (k + 1) (deployment.committed earlier migration) := by
  obtain ⟨hk, -⟩ := List.getElem?_eq_some_iff.mp hnext
  have htake : discovered.take (k + 1) = discovered.take k ++ [migration] := by
    rw [List.take_add_one, hnext]
    rfl
  refine ⟨hk, ?_, ?_⟩
  · rw [htake, ← h.executed]
    simp [Deployment.committed]
  · rw [htake, List.map_append, ← h.recorded]
    simp [Deployment.committed, HistoryRow.applied, MigrationFile.applied]

/-- However far the loop comes, what it has done is an initial part of the directory. -/
theorem Reached.pending {pending : List MigrationFile} {summary : Summary}
    (h : Reached discovered k deployment) (hpending : pending <+: discovered.drop k) :
    ∃ k', k ≤ k' ∧ Reached discovered k'
      (applyPending call earlier pending summary deployment).2 := by
  induction pending generalizing summary deployment k with
  | nil => exact ⟨k, le_refl _, h⟩
  | cons migration rest ih =>
      rw [applyPending]
      rcases transaction_cases call earlier migration deployment with ⟨err, htx⟩ | htx
      · rw [htx]
        exact ⟨k, le_refl _, h⟩
      · rw [htx]
        obtain ⟨more, hmore⟩ := hpending
        have hnext : discovered[k]? = some migration := by
          rw [← List.head?_drop, ← hmore]
          rfl
        have hrest : rest <+: discovered.drop (k + 1) := by
          refine ⟨more, ?_⟩
          rw [← List.tail_drop, ← hmore]
          rfl
        obtain ⟨k', hle, hk'⟩ := ih (h.committed earlier hnext) hrest
        exact ⟨k', by omega, hk'⟩

/-- Where nothing fails and the version is new, the transaction is committed. -/
theorem transaction_works (hworks : call.Works discovered) {migration : MigrationFile}
    (hmem : migration ∈ discovered)
    (hnew : migration.version ∉ deployment.history.map (·.version)) :
    transaction call earlier migration deployment =
      (.ok (), deployment.committed earlier migration) := by
  have hany : deployment.history.any (fun row => row.version == migration.version) = false := by
    rw [List.any_eq_false]
    intro row hrow
    simp only [beq_iff_eq]
    exact fun heq => hnew (heq ▸ List.mem_map_of_mem hrow)
  unfold transaction insertHistory
  rw [hworks.begun _ hmem, hworks.script _ hmem, hworks.insert _ hmem, hworks.commit _ hmem, hany]
  rfl

/-- Where nothing fails, the loop comes to the end of the directory. -/
theorem applyPending_works (earlier : List MigrationFile) (summary : Summary)
    (hworks : call.Works discovered) (hinc : StrictlyIncreasing discovered)
    {pending : List MigrationFile}
    (h : Reached discovered k deployment)
    (hpending : pending = discovered.drop k) :
    (applyPending call earlier pending summary deployment).1 =
        .ok { summary with applied := summary.applied + pending.length } ∧
      Reached discovered discovered.length
        (applyPending call earlier pending summary deployment).2 := by
  induction pending generalizing summary deployment k with
  | nil =>
      have hend : discovered.length ≤ k := List.drop_eq_nil_iff.mp hpending.symm
      exact ⟨rfl, le_antisymm hend h.le_length ▸ h⟩
  | cons migration rest ih =>
      have hnext : discovered[k]? = some migration := by
        rw [← List.head?_drop, ← hpending]
        rfl
      have hrest : rest = discovered.drop (k + 1) := by
        rw [← List.tail_drop, ← hpending]
        rfl
      have hnew : migration.version ∉ deployment.history.map (·.version) := by
        have hversions : deployment.history.map (·.version) =
            (discovered.take k).map (·.version) := by
          have hmap := congrArg (List.map AppliedMigration.version) h.recorded
          rwa [List.map_map, List.map_map] at hmap
        rw [hversions]
        intro hmem
        -- the versions of the directory are different
        have hsplit : ((discovered.take k ++ discovered.drop k).map (·.version)).Nodup := by
          rw [List.take_append_drop]
          exact hinc.nodup
        rw [List.map_append] at hsplit
        refine (List.nodup_append.mp hsplit).2.2 _ hmem migration.version ?_ rfl
        rw [← hpending]
        exact List.mem_map_of_mem List.mem_cons_self
      rw [applyPending, transaction_works hworks (List.mem_of_getElem? hnext) hnew]
      obtain ⟨hresult, hreached⟩ := ih { summary with applied := summary.applied + 1 }
        (h.committed earlier hnext) hrest
      refine ⟨?_, hreached⟩
      rw [show (applyPending call earlier rest { summary with applied := summary.applied + 1 }
        (deployment.committed earlier migration)).1 = _ from hresult]
      rw [List.length_cons, Nat.add_assoc, Nat.add_comm 1]

/-- What the plan of a directory makes of a database that has come to its `k`th version. -/
theorem planMigrations_reached (hdiscovered : discoverMigrations sha256Hex call.directory =
      .ok discovered) (h : Reached discovered k deployment) :
    planMigrations discovered (call.order (deployment.history.map (·.applied))) =
      .ok { pending := discovered.drop k, alreadyApplied := k } := by
  have hinc := discoverMigrations_increasing hdiscovered
  have hperm := call.order_perm (deployment.history.map (·.applied))
  refine (planMigrations_ok_iff hinc ?_ _).mpr ⟨k, ⟨h.le_length, hperm.trans h.segment.2⟩, rfl⟩
  rw [(hperm.map _).nodup_iff, h.recorded, List.map_map]
  exact hinc.nodup.sublist ((List.take_sublist _ _).map _)

end Reached

section Run

variable {sha256Hex : Bytes → Bytes} {discovered : List MigrationFile}

/-- A run over an earlier state of the directory, whatever fails in it. -/
theorem Reached.after {call : Call} {deployment : Deployment} {k : Nat}
    (hincreasing : StrictlyIncreasing discovered)
    (hgrown : ∀ earlier, discoverMigrations sha256Hex call.directory = .ok earlier →
      earlier <+: discovered) (h : Reached discovered k deployment) :
    ∃ k', k ≤ k' ∧ Reached discovered k' (run sha256Hex call deployment).2 := by
  unfold run
  split
  · exact ⟨k, le_refl _, h⟩
  · split
    · exact ⟨k, le_refl _, h⟩
    · split
      · exact ⟨k, le_refl _, h⟩
      · rename_i earlier hdiscovered
        split
        · exact ⟨k, le_refl _, h⟩
        · rename_i applied hload
          split
          · exact ⟨k, le_refl _, h⟩
          · rename_i plan hplan
            have hinc := discoverMigrations_increasing hdiscovered
            have happlied : applied.Perm (deployment.history.map (·.applied)) := by
              unfold loadApplied at hload
              split at hload
              · cases hload
                exact call.order_perm _
              · cases hload
            have hversions : (applied.map (·.version)).Nodup := by
              rw [(happlied.map _).nodup_iff, h.recorded, List.map_map]
              refine List.Nodup.sublist ((List.take_sublist _ _).map _) ?_
              exact hincreasing.nodup
            obtain ⟨j, hsegment, rfl⟩ := (planMigrations_ok_iff hinc hversions plan).mp hplan
            -- the plan found as many rows as have been committed
            have hj : j = k := by
              have hrows := (happlied.symm.trans hsegment.2).length_eq
              rw [h.recorded, List.length_map, List.length_map, List.length_take,
                List.length_take] at hrows
              have hle := h.le_length
              have hle' := hsegment.1
              omega
            subst hj
            have hstart : Reached discovered j { deployment with directory := some earlier } :=
              ⟨h.le_length, h.executed, h.recorded⟩
            exact hstart.pending ((hgrown earlier hdiscovered).drop j)

/-- A run in which nothing fails. -/
theorem Reached.works {call : Call} {deployment : Deployment} {k : Nat}
    (hdiscovered : discoverMigrations sha256Hex call.directory = .ok discovered)
    (hworks : call.Works discovered) (h : Reached discovered k deployment) :
    (run sha256Hex call deployment).1 =
        .ok { applied := discovered.length - k, alreadyApplied := k } ∧
      Reached discovered discovered.length (run sha256Hex call deployment).2 := by
  have hload : loadApplied call deployment.history =
      .ok (call.order (deployment.history.map (·.applied))) := by
    unfold loadApplied
    rw [hworks.select]
  have hrun : run sha256Hex call deployment = applyPending call discovered (discovered.drop k)
      { applied := 0, alreadyApplied := k } { deployment with directory := some discovered } := by
    unfold run
    rw [hworks.connection, hworks.createTable]
    simp only [exec, hdiscovered, hload, planMigrations_reached hdiscovered h]
  have hstart : Reached discovered k { deployment with directory := some discovered } :=
    ⟨h.le_length, h.executed, h.recorded⟩
  obtain ⟨hresult, hreached⟩ := applyPending_works discovered
    { applied := 0, alreadyApplied := k } hworks (discoverMigrations_increasing hdiscovered)
    hstart rfl
  rw [hrun]
  refine ⟨?_, hreached⟩
  rw [hresult, List.length_drop, Nat.zero_add]

/-- **Interrupted migrations converge.** After any runs over a directory that has only grown at its
end since, with any of their steps failing, one run in which nothing fails leaves exactly the
scripts of the directory committed, each once and in order; what had been applied before is
counted and not applied again. Another such run finds nothing to do. -/
theorem interrupted_converges (sha256Hex : Bytes → Bytes) (calls : List Call)
    {last : Call} {discovered : List MigrationFile}
    (hdiscovered : discoverMigrations sha256Hex last.directory = .ok discovered)
    (hgrown : ∀ call ∈ calls, ∀ earlier, discoverMigrations sha256Hex call.directory =
      .ok earlier → earlier <+: discovered)
    (hworks : last.Works discovered) :
    ∃ k ≤ discovered.length, ∃ after,
      run sha256Hex last (runs sha256Hex calls Deployment.empty) =
        (.ok { applied := discovered.length - k, alreadyApplied := k }, after) ∧
      (runs sha256Hex calls Deployment.empty).executed.map (·.migration) = discovered.take k ∧
      after.executed.map (·.migration) = discovered ∧
      after.history.map (·.applied) = discovered.map (·.applied) ∧
      ∀ again : Call, again.Works discovered →
        discoverMigrations sha256Hex again.directory = .ok discovered →
        ∃ same, run sha256Hex again after =
            (.ok { applied := 0, alreadyApplied := discovered.length }, same) ∧
          same.executed.map (·.migration) = discovered ∧
          same.history.map (·.applied) = discovered.map (·.applied) := by
  have hincreasing := discoverMigrations_increasing hdiscovered
  have hreached : ∃ k, Reached discovered k (runs sha256Hex calls Deployment.empty) := by
    have hall : ∀ (calls : List Call) (deployment : Deployment) (k : Nat),
        (∀ call ∈ calls, ∀ earlier, discoverMigrations sha256Hex call.directory = .ok earlier →
          earlier <+: discovered) → Reached discovered k deployment →
        ∃ k', Reached discovered k' (runs sha256Hex calls deployment) := by
      intro calls
      induction calls with
      | nil => exact fun deployment k _ h => ⟨k, h⟩
      | cons call rest ih =>
          intro deployment k hgrown h
          obtain ⟨k', -, hk'⟩ := h.after hincreasing (hgrown call List.mem_cons_self)
          exact ih _ k' (fun c hc => hgrown c (List.mem_cons_of_mem _ hc)) hk'
    exact hall calls Deployment.empty 0 hgrown ⟨Nat.zero_le _, rfl, rfl⟩
  obtain ⟨k, hk⟩ := hreached
  obtain ⟨hresult, hlast⟩ := hk.works hdiscovered hworks
  have hexecuted := hlast.executed
  have hrecorded := hlast.recorded
  rw [List.take_length] at hexecuted hrecorded
  refine ⟨k, hk.le_length, _, Prod.ext hresult rfl, hk.executed, hexecuted, hrecorded,
    fun again hagain hsame => ?_⟩
  obtain ⟨hagainResult, hagainReached⟩ := hlast.works hsame hagain
  have hexecuted' := hagainReached.executed
  have hrecorded' := hagainReached.recorded
  rw [List.take_length] at hexecuted' hrecorded'
  refine ⟨_, Prod.ext ?_ rfl, hexecuted', hrecorded'⟩
  rw [hagainResult, Nat.sub_self]

end Run

/-! ### Two runs: the first stops at its second script, the second has a third file -/

def earlierEntries : List DirectoryEntry := [fileOf "2_index.sql" "b", fileOf "1_users.sql" "a"]

def laterEntries : List DirectoryEntry := fileOf "3_games.sql" "c" :: earlierEntries

def migrationOf (version name content : String) : MigrationFile where
  version := ascii version
  name := ascii name
  path := ascii "migrations/" ++ ascii version ++ ascii "_" ++ ascii name ++ ascii ".sql"
  sql := ascii content
  checksum := ascii content

def laterMigrations : List MigrationFile :=
  [migrationOf "1" "users" "a", migrationOf "2" "index" "b", migrationOf "3" "games" "c"]

theorem interrupted_converges_two_runs : ∃ k ≤ 3, ∃ after,
    run id (callOn laterEntries (ascii "9"))
        (runs id [callOn earlierEntries (ascii "2")] Deployment.empty) =
      (.ok { applied := 3 - k, alreadyApplied := k }, after) ∧
    after.executed.map (·.migration) = laterMigrations := by
  have hearlier : discoverMigrations id (callOn earlierEntries (ascii "2")).directory =
      .ok (laterMigrations.take 2) := by decide
  obtain ⟨k, hk, after, hrun, -, hexecuted, -⟩ :=
    interrupted_converges id [callOn earlierEntries (ascii "2")]
      (show discoverMigrations id (callOn laterEntries (ascii "9")).directory =
        .ok laterMigrations by decide)
      (fun call hcall earlier hdiscovered => by
        obtain rfl := List.mem_singleton.mp hcall
        obtain rfl := Except.ok.inj (hdiscovered.symm.trans hearlier)
        exact List.take_prefix 2 _)
      ⟨rfl, rfl, rfl, fun _ _ => rfl, by decide, fun _ _ => rfl, fun _ _ => rfl⟩
  exact ⟨k, hk, after, hrun, hexecuted⟩

end Launcher.Migrations
