import Launcher.Migrations.Plan

set_option autoImplicit false

/-! # The plan accepts exactly the prefixes

`planMigrations` refuses in three places: an applied migration whose file was edited, one whose
file is gone, and a new one behind the last applied. Together they say that the history is an
initial segment of the directory, and the plan is what remains of it. -/

namespace Launcher.Migrations

/-- The history, in any order, is the first `k` discovered migrations. -/
def InitialSegment (discovered : List MigrationFile) (applied : List AppliedMigration)
    (k : Nat) : Prop :=
  k ≤ discovered.length ∧ applied.Perm ((discovered.take k).map (·.applied))

/-! ## The history as a map -/

theorem appliedByVersion_eq_some {applied : List AppliedMigration}
    (hnd : (applied.map (·.version)).Nodup) {version checksum : Bytes} :
    appliedByVersion applied version = some checksum ↔
      { version := version, checksum := checksum } ∈ applied := by
  unfold appliedByVersion
  constructor
  · intro h
    obtain ⟨row, hrow, hchecksum⟩ := Option.map_eq_some_iff.mp h
    have hmem := List.mem_of_find?_eq_some hrow
    have hversion : row.version = version := by simpa using List.find?_some hrow
    cases row
    simp only at hversion hchecksum
    rwa [hversion, hchecksum] at hmem
  · intro h
    cases hfind : applied.find? (·.version == version) with
    | none =>
        have hno := List.find?_eq_none.mp hfind _ h
        simp at hno
    | some row =>
        have hmem := List.mem_of_find?_eq_some hfind
        have hversion : row.version = version := by simpa using List.find?_some hfind
        have heq := List.inj_on_of_nodup_map hnd hmem h hversion
        rw [heq]
        rfl

theorem appliedByVersion_eq_none {applied : List AppliedMigration} {version : Bytes} :
    appliedByVersion applied version = none ↔ ∀ row ∈ applied, row.version ≠ version := by
  simp [appliedByVersion, List.find?_eq_none]

theorem le_foldl_max (applied : List AppliedMigration) (highest : Bytes) :
    highest ≤ applied.foldl (fun highest row => max highest row.version) highest ∧
    ∀ row ∈ applied,
      row.version ≤ applied.foldl (fun highest row => max highest row.version) highest := by
  induction applied generalizing highest with
  | nil => exact ⟨le_rfl, fun row hrow => absurd hrow List.not_mem_nil⟩
  | cons first rest ih =>
      obtain ⟨hacc, hrest⟩ := ih (max highest first.version)
      refine ⟨(le_max_left _ _).trans hacc, fun row hrow => ?_⟩
      rcases List.mem_cons.mp hrow with rfl | hrow
      · exact (le_max_right _ _).trans hacc
      · exact hrest row hrow

theorem foldl_max_cases (applied : List AppliedMigration) (highest : Bytes) :
    applied.foldl (fun highest row => max highest row.version) highest = highest ∨
    ∃ row ∈ applied,
      row.version = applied.foldl (fun highest row => max highest row.version) highest := by
  induction applied generalizing highest with
  | nil => exact Or.inl rfl
  | cons first rest ih =>
      rw [List.foldl_cons]
      rcases ih (max highest first.version) with hacc | ⟨row, hrow, heq⟩
      · rw [hacc]
        rcases max_choice highest first.version with hmax | hmax
        · exact Or.inl hmax
        · exact Or.inr ⟨first, List.mem_cons_self, hmax.symm⟩
      · exact Or.inr ⟨row, List.mem_cons_of_mem _ hrow, heq⟩

theorem le_highestApplied {applied : List AppliedMigration} {row : AppliedMigration}
    (h : row ∈ applied) : row.version ≤ highestApplied applied :=
  (le_foldl_max applied []).2 row h

/-- No version is below the empty one, so the guard on an empty history changes nothing. -/
theorem behind_iff {applied : List AppliedMigration} {version : Bytes} :
    (!(highestApplied applied).isEmpty && decide (version < highestApplied applied)) = true ↔
      ∃ row ∈ applied, version < row.version := by
  constructor
  · intro h
    simp only [Bool.and_eq_true, decide_eq_true_eq] at h
    rcases foldl_max_cases applied [] with hempty | ⟨row, hrow, heq⟩
    · have hnil : highestApplied applied = [] := hempty
      rw [hnil] at h
      exact absurd h.2 (by simp)
    · exact ⟨row, hrow, heq ▸ h.2⟩
  · rintro ⟨row, hrow, hlt⟩
    have hbehind : version < highestApplied applied := hlt.trans_le (le_highestApplied hrow)
    have hne : highestApplied applied ≠ [] := by
      intro hnil
      rw [hnil] at hbehind
      exact absurd hbehind (by simp)
    simp [hne, hbehind]

/-! ## The loop -/

/-- What the loop asks of one discovered migration. -/
def Planned (applied : List AppliedMigration) (migration : MigrationFile) : Prop :=
  match appliedByVersion applied migration.version with
  | none => ∀ row ∈ applied, ¬ migration.version < row.version
  | some checksum => checksum = migration.checksum

theorem planLoop_ok_iff {applied : List AppliedMigration} (discovered : List MigrationFile)
    (pending pending' : List MigrationFile) (matched matched' : Nat) :
    planLoop applied discovered pending matched = .ok (pending', matched') ↔
      (∀ migration ∈ discovered, Planned applied migration) ∧
      pending' = pending ++ discovered.filter
        (fun migration => (appliedByVersion applied migration.version).isNone) ∧
      matched' = matched + discovered.countP
        (fun migration => (appliedByVersion applied migration.version).isSome) := by
  induction discovered generalizing pending matched with
  | nil =>
      simp only [planLoop, Except.ok.injEq, Prod.mk.injEq, List.filter_nil, List.countP_nil,
        List.append_nil, Nat.add_zero]
      constructor
      · rintro ⟨hpending, hmatched⟩
        exact ⟨fun m hm => absurd hm List.not_mem_nil, hpending.symm, hmatched.symm⟩
      · rintro ⟨-, hpending, hmatched⟩
        exact ⟨hpending.symm, hmatched.symm⟩
  | cons migration rest ih =>
      rw [List.forall_mem_cons]
      unfold planLoop
      cases hfind : appliedByVersion applied migration.version with
      | none =>
          -- the migration is pending unless it lies behind the head
          have hplanned : Planned applied migration ↔
              ∀ row ∈ applied, ¬ migration.version < row.version := by
            rw [Planned, hfind]
          simp only [hplanned, List.filter_cons, List.countP_cons, hfind, Option.isNone_none,
            Option.isSome_none, if_true, Bool.false_eq_true, if_false, Nat.add_zero]
          split
          · rename_i hbehind
            obtain ⟨row, hrow, hlt⟩ := behind_iff.mp hbehind
            constructor
            · intro h
              cases h
            · rintro ⟨⟨hno, -⟩, -⟩
              exact absurd hlt (hno row hrow)
          · rename_i hbehind
            have hno : ∀ row ∈ applied, ¬ migration.version < row.version :=
              fun row hrow hlt => hbehind (behind_iff.mpr ⟨row, hrow, hlt⟩)
            rw [ih]
            simp only [List.append_assoc, List.singleton_append]
            exact ⟨fun h => ⟨⟨hno, h.1⟩, h.2⟩, fun h => ⟨h.1.2, h.2⟩⟩
      | some checksum =>
          have hplanned : Planned applied migration ↔ checksum = migration.checksum := by
            rw [Planned, hfind]
          simp only [hplanned, List.filter_cons, List.countP_cons, hfind, Option.isNone_some,
            Option.isSome_some, if_true, Bool.false_eq_true, if_false]
          split
          · rename_i hne
            constructor
            · intro h
              cases h
            · rintro ⟨⟨heq, -⟩, -⟩
              simp [heq] at hne
          · rename_i heq
            have heq' : checksum = migration.checksum := by simpa using heq
            rw [ih]
            have hcount : ∀ n : Nat, matched + 1 + n = matched + (n + 1) := by omega
            simp only [hcount]
            exact ⟨fun h => ⟨⟨heq', h.1⟩, h.2⟩, fun h => ⟨h.1.2, h.2⟩⟩

/-! ## The prefix -/

/-- Where a property only gets lost along an order, the list splits where it is lost. -/
theorem filter_append_filter_not {α : Type} {r : α → α → Prop} {p : α → Bool} {l : List α}
    (hl : l.Pairwise r) (hdown : ∀ a b, a ∈ l → b ∈ l → r a b → p b = true → p a = true) :
    l.filter p ++ l.filter (fun a => !p a) = l := by
  induction l with
  | nil => rfl
  | cons a l ih =>
      have htail := ih hl.tail (fun b c hb hc => hdown b c (List.mem_cons_of_mem _ hb)
        (List.mem_cons_of_mem _ hc))
      cases hp : p a with
      | true => simp only [List.filter_cons, hp, if_true, Bool.not_true, Bool.false_eq_true,
          if_false, List.cons_append, htail]
      | false =>
          -- once lost, the property does not come back
          have hlost : ∀ b ∈ l, p b = false := by
            intro b hb
            by_contra hb'
            have hpb : p b = true := by simpa using hb'
            have hpa := hdown a b List.mem_cons_self (List.mem_cons_of_mem _ hb)
              (List.rel_of_pairwise_cons hl hb) hpb
            rw [hp] at hpa
            cases hpa
          have hnone : l.filter p = [] :=
            List.filter_eq_nil_iff.mpr (fun b hb => by simp [hlost b hb])
          have hall : l.filter (fun b => !p b) = l :=
            List.filter_eq_self.mpr (fun b hb => by simp [hlost b hb])
          simp [hp, hnone, hall]

section Plan

variable {discovered : List MigrationFile} {applied : List AppliedMigration}

/-- A planned list splits into what the history holds and, behind it, what is pending. -/
theorem planned_split (hinc : StrictlyIncreasing discovered)
    (hnd : (applied.map (·.version)).Nodup)
    (hplanned : ∀ migration ∈ discovered, Planned applied migration) :
    discovered.filter (fun m => (appliedByVersion applied m.version).isSome) ++
      discovered.filter (fun m => (appliedByVersion applied m.version).isNone) = discovered := by
  have hnot : ∀ m : MigrationFile, (appliedByVersion applied m.version).isNone
      = !(appliedByVersion applied m.version).isSome := by
    intro m
    cases appliedByVersion applied m.version <;> rfl
  simp only [hnot]
  refine filter_append_filter_not hinc (fun a b ha _ hlt hb => ?_)
  obtain ⟨checksum, hfound⟩ := Option.isSome_iff_exists.mp hb
  have hrow := (appliedByVersion_eq_some hnd).mp hfound
  by_contra hmissing
  have hnone : appliedByVersion applied a.version = none := by simpa using hmissing
  have hbehind := hplanned a ha
  rw [Planned, hnone] at hbehind
  exact hbehind _ hrow hlt

/-- The rows of the matched migrations are rows of the history. -/
theorem applied_of_matched (hnd : (applied.map (·.version)).Nodup)
    (hplanned : ∀ migration ∈ discovered, Planned applied migration) :
    (discovered.filter (fun m => (appliedByVersion applied m.version).isSome)).map (·.applied)
      ⊆ applied := by
  intro row hrow
  obtain ⟨migration, hmem, rfl⟩ := List.mem_map.mp hrow
  obtain ⟨hmem, hsome⟩ := List.mem_filter.mp hmem
  obtain ⟨checksum, hfound⟩ := Option.isSome_iff_exists.mp hsome
  have hchecksum := hplanned migration hmem
  rw [Planned, hfound] at hchecksum
  have hin := (appliedByVersion_eq_some hnd).mp hfound
  rwa [hchecksum] at hin

theorem nodup_applied (hinc : StrictlyIncreasing discovered) :
    (discovered.map (·.applied)).Nodup := by
  have h := hinc.nodup
  refine List.Nodup.of_map AppliedMigration.version ?_
  rwa [List.map_map]

/-- In an initial segment the history knows exactly the versions of the segment. -/
theorem InitialSegment.isSome_iff (hinc : StrictlyIncreasing discovered) {k : Nat}
    (h : InitialSegment discovered applied k) (hnd : (applied.map (·.version)).Nodup) :
    (∀ m ∈ discovered.take k, appliedByVersion applied m.version = some m.checksum) ∧
    (∀ m ∈ discovered.drop k, appliedByVersion applied m.version = none ∧
      ∀ row ∈ applied, ¬ m.version < row.version) := by
  have hmem : ∀ row, row ∈ applied ↔ ∃ m ∈ discovered.take k, m.applied = row := by
    intro row
    rw [h.2.mem_iff, List.mem_map]
  constructor
  · intro m hm
    exact (appliedByVersion_eq_some hnd).mpr ((hmem m.applied).mpr ⟨m, hm, rfl⟩)
  · intro m hm
    have habove : ∀ row ∈ applied, row.version < m.version := by
      intro row hrow
      obtain ⟨first, hfirst, rfl⟩ := (hmem row).mp hrow
      have hsplit : (discovered.take k ++ discovered.drop k).Pairwise
          (fun lhs rhs => lhs.version < rhs.version) := by
        rw [List.take_append_drop]
        exact hinc
      exact (List.pairwise_append.mp hsplit).2.2 first hfirst m hm
    constructor
    · exact appliedByVersion_eq_none.mpr (fun row hrow => ne_of_lt (habove row hrow))
    · exact fun row hrow => not_lt.mpr (le_of_lt (habove row hrow))

theorem planMigrations_eq_ok {plan : MigrationPlan} :
    planMigrations discovered applied = .ok plan ↔
      planLoop applied discovered [] 0 = .ok (plan.pending, plan.alreadyApplied) ∧
      plan.alreadyApplied = applied.length := by
  unfold planMigrations
  cases hloop : planLoop applied discovered [] 0 with
  | error err =>
      constructor
      · intro h
        cases h
      · rintro ⟨h, -⟩
        cases h
  | ok result =>
      obtain ⟨pending, matched⟩ := result
      simp only [Except.bind, bind, Except.ok.injEq, Prod.mk.injEq]
      split
      · rename_i hne
        constructor
        · intro h
          cases h
        · rintro ⟨⟨-, rfl⟩, hlen⟩
          simp [hlen] at hne
      · rename_i hlen
        have hlen' : matched = applied.length := by simpa using hlen
        constructor
        · intro h
          cases h
          exact ⟨⟨rfl, rfl⟩, hlen'⟩
        · rintro ⟨⟨rfl, rfl⟩, -⟩
          rfl

/-- **The plan accepts exactly the prefixes**, and what it reports is the prefix's length and
the rest of the directory. -/
theorem planMigrations_ok_iff (hinc : StrictlyIncreasing discovered)
    (hnd : (applied.map (·.version)).Nodup) (plan : MigrationPlan) :
    planMigrations discovered applied = .ok plan ↔
      ∃ k, InitialSegment discovered applied k ∧
        plan = { pending := discovered.drop k, alreadyApplied := k } := by
  rw [planMigrations_eq_ok, planLoop_ok_iff]
  simp only [List.nil_append, Nat.zero_add]
  constructor
  · rintro ⟨⟨hplanned, hpending, hmatched⟩, hlen⟩
    set known := discovered.filter (fun m => (appliedByVersion applied m.version).isSome)
      with hknown
    have hsplit := planned_split hinc hnd hplanned
    rw [← hknown, ← hpending] at hsplit
    have hk : plan.alreadyApplied = known.length := by
      rw [hmatched, List.countP_eq_length_filter]
    have htake : discovered.take known.length = known := by
      rw [← hsplit, List.take_left]
    have hdrop : discovered.drop known.length = plan.pending := by
      rw [← hsplit, List.drop_left]
    -- as many distinct rows as the history has, all of them rows of the history
    have hsub : known.map (·.applied) ⊆ applied := applied_of_matched hnd hplanned
    have hdistinct : (known.map (·.applied)).Nodup :=
      (nodup_applied hinc).sublist (List.filter_sublist.map _)
    have hlength : applied.length ≤ (known.map (·.applied)).length := by
      rw [List.length_map, ← hk, hlen]
    have hperm : (known.map (·.applied)).Perm applied :=
      (List.subperm_of_subset hdistinct hsub).perm_of_length_le hlength
    refine ⟨known.length, ⟨?_, ?_⟩, ?_⟩
    · rw [← hsplit, List.length_append]
      omega
    · rw [htake]
      exact hperm.symm
    · rw [hdrop, ← hk]
  · rintro ⟨k, hseg, rfl⟩
    obtain ⟨hfirst, hrest⟩ := hseg.isSome_iff hinc hnd
    have hsplit := List.take_append_drop k discovered
    have htakeNone : (discovered.take k).filter
        (fun m => (appliedByVersion applied m.version).isNone) = [] :=
      List.filter_eq_nil_iff.mpr (fun m hm => by simp [hfirst m hm])
    have hdropNone : (discovered.drop k).filter
        (fun m => (appliedByVersion applied m.version).isNone) = discovered.drop k :=
      List.filter_eq_self.mpr (fun m hm => by simp [(hrest m hm).1])
    have htakeSome : (discovered.take k).countP
        (fun m => (appliedByVersion applied m.version).isSome) = (discovered.take k).length :=
      List.countP_eq_length.mpr (fun m hm => by simp [hfirst m hm])
    have hdropSome : (discovered.drop k).countP
        (fun m => (appliedByVersion applied m.version).isSome) = 0 :=
      List.countP_eq_zero.mpr (fun m hm => by simp [(hrest m hm).1])
    refine ⟨⟨fun m hm => ?_, ?_, ?_⟩, ?_⟩
    · rw [← hsplit] at hm
      rcases List.mem_append.mp hm with hm | hm
      · rw [Planned, hfirst m hm]
      · rw [Planned, (hrest m hm).1]
        exact (hrest m hm).2
    · rw [← hsplit, List.filter_append, htakeNone, hdropNone, hsplit]
      rfl
    · rw [← hsplit, List.countP_append, htakeSome, hdropSome, hsplit, List.length_take,
        Nat.min_eq_left hseg.1]
      rfl
    · show k = applied.length
      rw [hseg.2.length_eq, List.length_map, List.length_take, Nat.min_eq_left hseg.1]

end Plan

end Launcher.Migrations
