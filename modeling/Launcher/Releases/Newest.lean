import Launcher.Releases.Records

set_option autoImplicit false

/-! # The newest release

The index of migration 0005 is on the text of a version, `findLatest` orders by the three
numbers, and `isNewerRelease` compares what `mapRelease` made of them. The three agree because
every row was published in the canonical spelling (`Recorded.version`): no two rows of a triple
have the same numbers, so the order has one greatest live row, and without a retirement it
never goes back. -/

namespace Launcher.Releases

open Lib

/-! ## The order -/

theorem isNewerRelease_lex (candidate installed : Semver) :
    isNewerRelease candidate installed = true ↔
      (toLex (installed.major, toLex (installed.minor, installed.patch)) : ℕ ×ₗ ℕ ×ₗ ℕ) <
        toLex (candidate.major, toLex (candidate.minor, candidate.patch)) := by
  simp only [isNewerRelease, Prod.Lex.toLex_lt_toLex, Bool.or_eq_true, Bool.and_eq_true,
    decide_eq_true_eq, beq_iff_eq]

theorem isNewerRelease_iff {row row' : LauncherReleaseRow} {query query' : ReleaseQuery} :
    isNewerRelease (mapRelease row' query').parsed.version (mapRelease row query).parsed.version =
      true ↔ State.numbers row < State.numbers row' :=
  isNewerRelease_lex _ _

theorem isNewerRelease_eq_false {row row' : LauncherReleaseRow} {query query' : ReleaseQuery} :
    isNewerRelease (mapRelease row' query').parsed.version (mapRelease row query).parsed.version =
      false ↔ State.numbers row' ≤ State.numbers row := by
  rw [← Bool.not_eq_true, isNewerRelease_iff, not_lt]

/-! ## One row for each version -/

/-- The text of the version is the canonical spelling of its numbers. -/
theorem Recorded.version {env : Env} {A : Set Bytes} {row : LauncherReleaseRow}
    {json signature artifact : Bytes} {document : ReleaseDocument}
    (h : Recorded env A row json signature artifact document) :
    row.version = canonicalVersion
      ⟨row.versionMajor, row.versionMinor, row.versionPatch, row.version⟩ := by
  have hvalid := validateReleaseDocument_ok.mp (parseReleaseDocument_ok h.checked.accepts).1.valid
  have hcolumns := NewRelease.columns h.row
  rw [hcolumns.versionMajor, hcolumns.versionMinor, hcolumns.versionPatch, hcolumns.version]
  exact (cString_version hvalid.version).trans hvalid.version

theorem name_injective {query query' : ReleaseQuery} {row : LauncherReleaseRow}
    (h : row.of query = true) (h' : row.of query' = true) : query = query' := by
  simp only [LauncherReleaseRow.of, Bool.and_eq_true, beq_iff_eq] at h h'
  have hchannel := congrArg parseReleaseChannel (h.1.1.symm.trans h'.1.1)
  have hplatform := congrArg parseReleasePlatform (h.1.2.symm.trans h'.1.2)
  have harch := congrArg parseReleaseArch (h.2.symm.trans h'.2)
  rw [parseReleaseChannel_name, parseReleaseChannel_name] at hchannel
  rw [parseReleasePlatform_name, parseReleasePlatform_name] at hplatform
  rw [parseReleaseArch_name, parseReleaseArch_name] at harch
  cases query
  cases query'
  simp_all

/-- The index: rows of one identity are one row. -/
def Distinct (s : State) : Prop :=
  ∀ row ∈ s.releases, ∀ row' ∈ s.releases, row.channel = row'.channel →
    row.platform = row'.platform → row.arch = row'.arch → row.version = row'.version →
    row.id = row'.id

theorem Distinct.publish {s : State} (h : Distinct s) (choice : Choice) (release : NewRelease) :
    Distinct (s.publish choice release).2 := by
  rcases publish_cases s choice release with hsame | ⟨releasedAt, -, -, hfree, heq⟩
  · rwa [hsame]
  · have hnew : ∀ row ∈ s.releases, row.channel = release.channel →
        row.platform = release.platform → row.arch = release.arch →
        row.version ≠ release.version := by
      intro row hrow hc hp ha hv
      have hnot := hfree row hrow
      simp [LauncherReleaseRow.sameIdentity, hc, hp, ha, hv] at hnot
    rw [heq]
    intro row hrow row' hrow' hc hp ha hv
    rcases Table.eq_or_mem_of_mem_insert hrow with rfl | hrow
    · rcases Table.eq_or_mem_of_mem_insert hrow' with rfl | hrow'
      · rfl
      · exact absurd hv.symm (hnew row' hrow' hc.symm hp.symm ha.symm)
    · rcases Table.eq_or_mem_of_mem_insert hrow' with rfl | hrow'
      · exact absurd hv (hnew row hrow hc hp ha)
      · exact h row hrow row' hrow' hc hp ha hv

theorem Distinct.retire {s : State} (h : Distinct s) (choice : Choice) (query : ReleaseQuery)
    (version : Bytes) : Distinct (s.retire choice query version).2 := by
  intro row hrow row' hrow' hc hp ha hv
  obtain ⟨row₀, hrow₀, t, rfl⟩ := mem_retire hrow
  obtain ⟨row₀', hrow₀', t', rfl⟩ := mem_retire hrow'
  exact h row₀ hrow₀ row₀' hrow₀' hc hp ha hv

theorem Distinct.of_releases {s s' : State} (h : Distinct s) (heq : s'.releases = s.releases) :
    Distinct s' := by
  unfold Distinct
  rw [heq]
  exact h

theorem distinct_run (env : Env) (events : List Event) : Distinct (run env events).shared := by
  induction events using List.reverseRecOn with
  | nil => exact fun row hrow => by cases hrow
  | append_singleton events e ih =>
      rw [run_snoc]
      rcases step_cases env events e with hsame | ⟨request, -, -, hstep⟩
      · rwa [hsame]
      · cases hstep with
        | same h => exact ih.of_releases h
        | publish choice publicKey json signature artifact document _ _ h =>
            exact (ih.publish choice _).of_releases h
        | retire choice query version _ h =>
            exact (ih.retire choice query (cString version)).of_releases h

/-- No two rows of a triple have the same numbers. -/
theorem eq_of_numbers_eq {env : Env} {events : List Event} {query : ReleaseQuery}
    {row row' : LauncherReleaseRow} (hrow : row ∈ (run env events).shared.releases)
    (hrow' : row' ∈ (run env events).shared.releases) (hof : row.of query = true)
    (hof' : row'.of query = true) (h : State.numbers row = State.numbers row') : row = row' := by
  have hrecords := (records_run env events subset_rfl).shared
  obtain ⟨json, signature, artifact, document, hr, -⟩ := hrecords.recorded row hrow
  obtain ⟨json', signature', artifact', document', hr', -⟩ := hrecords.recorded row' hrow'
  simp only [State.numbers, EmbeddingLike.apply_eq_iff_eq, Prod.mk.injEq] at h
  have hversion : row.version = row'.version := by
    rw [hr.version, hr'.version, canonicalVersion, canonicalVersion, h.1, h.2.1, h.2.2]
  simp only [LauncherReleaseRow.of, Bool.and_eq_true, beq_iff_eq] at hof hof'
  exact Table.eq_of_key_eq hrow hrow' (distinct_run env events row hrow row' hrow'
    (hof.1.1.trans hof'.1.1.symm) (hof.1.2.trans hof'.1.2.symm) (hof.2.trans hof'.2.symm) hversion)

/-! ## The row that is selected -/

/-- A live row of the triple that no other is newer than. -/
structure Newest (s : State) (query : ReleaseQuery) (row : LauncherReleaseRow) : Prop where
  mem : row ∈ s.releases
  of : row.of query = true
  live : row.live = true
  newest : ∀ row' ∈ s.releases, row'.of query = true → row'.live = true →
    isNewerRelease (mapRelease row' query).parsed.version (mapRelease row query).parsed.version =
      false

section Select

variable {s : State} {query : ReleaseQuery}

theorem mem_candidates {row : LauncherReleaseRow} :
    row ∈ s.releases.rows.filter (fun row => row.of query && row.live) ↔
      row ∈ s.releases ∧ row.of query = true ∧ row.live = true := by
  rw [List.mem_filter, Bool.and_eq_true]
  exact Iff.rfl

theorem newest_of_selectLatest {row : LauncherReleaseRow}
    (h : s.selectLatest query = some row) : Newest s query row := by
  obtain ⟨hmem, hof, hlive⟩ := mem_candidates.mp (List.argmax_mem h)
  refine ⟨hmem, hof, hlive, fun row' hmem' hof' hlive' => ?_⟩
  exact isNewerRelease_eq_false.mpr
    (List.le_of_mem_argmax (mem_candidates.mpr ⟨hmem', hof', hlive'⟩) h)

theorem selectLatest_isSome {row : LauncherReleaseRow} (hmem : row ∈ s.releases)
    (hof : row.of query = true) (hlive : row.live = true) :
    ∃ latest, s.selectLatest query = some latest := by
  cases h : s.selectLatest query with
  | some latest => exact ⟨latest, rfl⟩
  | none =>
      have hrow := mem_candidates.mpr ⟨hmem, hof, hlive⟩
      rw [List.argmax_eq_none.mp h] at hrow
      cases hrow

end Select

theorem newest_unique {env : Env} {events : List Event} {query : ReleaseQuery}
    {row row' : LauncherReleaseRow} (h : Newest (run env events).shared query row)
    (h' : Newest (run env events).shared query row') : row = row' := by
  have hle := isNewerRelease_eq_false.mp (h.newest row' h'.mem h'.of h'.live)
  have hge := isNewerRelease_eq_false.mp (h'.newest row h.mem h.of h.live)
  exact eq_of_numbers_eq h.mem h'.mem h.of h'.of (le_antisymm hge hle)

theorem selectLatest_iff {env : Env} {events : List Event} {query : ReleaseQuery}
    {row : LauncherReleaseRow} : (run env events).shared.selectLatest query = some row ↔
      Newest (run env events).shared query row := by
  refine ⟨newest_of_selectLatest, fun h => ?_⟩
  obtain ⟨latest, hlatest⟩ := selectLatest_isSome h.mem h.of h.live
  rw [hlatest, newest_unique (newest_of_selectLatest hlatest) h]

/-! ## Without a retirement -/

/-- No retirement of the triple is under way. -/
def Quiet (query : ReleaseQuery) (p : Serial.Point Call Refusal State Request) : Prop :=
  ∀ version, p.request = some (.retire query version) → ∃ outcome, p.program = .done outcome

/-- None is under way at the start, and none is started. -/
def Spares (query : ReleaseQuery) (p : Serial.Point Call Refusal State Request)
    (events : List Event) : Prop :=
  Quiet query p ∧ ∀ version, .start (.retire query version) ∉ events

theorem Quiet.step {env : Env} {query : ReleaseQuery}
    {p : Serial.Point Call Refusal State Request} (h : Quiet query p) {e : Event}
    (he : ∀ version, e ≠ .start (.retire query version)) :
    Quiet query ((serial env).step p e) := by
  intro version hrequest
  cases e with
  | start request =>
      obtain rfl := Option.some.inj hrequest
      exact absurd rfl (he version)
  | call choice =>
      cases hp : p.program with
      | done outcome =>
          rw [Serial.step, hp]
          exact ⟨outcome, hp⟩
      | call c k =>
          rw [Serial.step, hp] at hrequest
          obtain ⟨outcome, hdone⟩ := h version hrequest
          rw [hp] at hdone
          cases hdone

/-- A live row of the triple stays as it is. -/
theorem live_step {env : Env} {events : List Event} {query : ReleaseQuery} {e : Event}
    (hquiet : Quiet query (run env events)) {row : LauncherReleaseRow}
    (hmem : row ∈ (run env events).shared.releases) (hof : row.of query = true) :
    row ∈ (run env (events ++ [e])).shared.releases := by
  rw [run_snoc]
  cases e with
  | start request => exact hmem
  | call choice =>
      rcases step_cases env events (.call choice) with hsame | ⟨request, hrequest, -, hstep⟩
      · rwa [hsame]
      · cases hstep with
        | same h => rwa [h]
        | publish choice' publicKey json signature artifact document _ _ h =>
            rw [h]
            exact publish_keeps hmem choice' _
        | retire choice' query' version hasked h =>
            by_cases hquery : query' = query
            · -- it has been carried out already
              subst hquery
              subst hasked
              obtain ⟨outcome, hdone⟩ := hquiet version hrequest
              rw [Serial.step, hdone]
              exact hmem
            · rw [h]
              refine Table.mem_updateWhere.mpr ⟨row, hmem, ?_⟩
              have hother : State.retires query' (cString version) row = false := by
                have hnot : row.of query' = false := by
                  rw [← Bool.not_eq_true]
                  exact fun hof' => hquery (name_injective hof' hof)
                rw [State.retires, hnot, Bool.false_and, Bool.false_and]
              rw [hother]
              rfl

theorem live_run {env : Env} {query : ReleaseQuery} {row : LauncherReleaseRow}
    (hof : row.of query = true) {events' : List Event} : ∀ {events : List Event},
    Spares query (run env events) events' → row ∈ (run env events).shared.releases →
      row ∈ (run env (events ++ events')).shared.releases := by
  induction events' with
  | nil =>
      intro events _ hmem
      rwa [List.append_nil]
  | cons e events' ih =>
      intro events hspares hmem
      have hstep := live_step (e := e) hspares.1 hmem hof
      have hquiet : Quiet query (run env (events ++ [e])) := by
        rw [run_snoc]
        exact hspares.1.step (fun version heq => hspares.2 version (heq ▸ List.mem_cons_self))
      have hrest := ih ⟨hquiet, fun version hmem' =>
        hspares.2 version (List.mem_cons_of_mem e hmem')⟩ hstep
      rwa [List.append_assoc, List.singleton_append] at hrest

/-- **The newest release is well defined and never goes backwards by itself.** -/
theorem newest_release (env : Env) (events : List Event) (query : ReleaseQuery) :
    (∀ row ∈ (run env events).shared.releases, ∀ row' ∈ (run env events).shared.releases,
      row.of query = true → row'.of query = true → row.versionMajor = row'.versionMajor →
      row.versionMinor = row'.versionMinor → row.versionPatch = row'.versionPatch → row = row') ∧
    (((run env events).shared.findLatest query).isSome = true ↔
      ∃ row ∈ (run env events).shared.releases, row.of query = true ∧ row.live = true) ∧
    (∀ release, (run env events).shared.findLatest query = some release ↔
      ∃ row, Newest (run env events).shared query row ∧ mapRelease row query = release) ∧
    (∀ row row', Newest (run env events).shared query row →
      Newest (run env events).shared query row' → row = row') ∧
    (∀ events', Spares query (run env events) events' →
      ∀ release, (run env events).shared.findLatest query = some release →
        ∃ release', (run env (events ++ events')).shared.findLatest query = some release' ∧
          isNewerRelease release.parsed.version release'.parsed.version = false) := by
  have hfind : ∀ {events release}, (run env events).shared.findLatest query = some release ↔
      ∃ row, Newest (run env events).shared query row ∧ mapRelease row query = release := by
    intro events release
    rw [State.findLatest, Option.map_eq_some_iff]
    exact exists_congr (fun row => and_congr_left (fun _ => selectLatest_iff))
  refine ⟨fun row hrow row' hrow' hof hof' hmajor hminor hpatch => ?_, ⟨fun h => ?_, ?_⟩,
    fun release => hfind, fun row row' => newest_unique, fun events' hspares release h => ?_⟩
  · refine eq_of_numbers_eq hrow hrow' hof hof' ?_
    rw [State.numbers, State.numbers, hmajor, hminor, hpatch]
  · obtain ⟨release, hrelease⟩ := Option.isSome_iff_exists.mp h
    obtain ⟨row, hnewest, -⟩ := hfind.mp hrelease
    exact ⟨row, hnewest.mem, hnewest.of, hnewest.live⟩
  · rintro ⟨row, hmem, hof, hlive⟩
    obtain ⟨latest, hlatest⟩ := selectLatest_isSome hmem hof hlive
    rw [State.findLatest, hlatest]
    rfl
  · obtain ⟨row, hnewest, rfl⟩ := hfind.mp h
    have hstays := live_run hnewest.of hspares hnewest.mem
    obtain ⟨latest, hlatest⟩ := selectLatest_isSome hstays hnewest.of hnewest.live
    have hlast := newest_of_selectLatest hlatest
    refine ⟨mapRelease latest query, hfind.mpr ⟨latest, hlast, rfl⟩, ?_⟩
    exact hlast.newest row hstays hnewest.of hnewest.live

end Launcher.Releases
