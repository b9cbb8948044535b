import Launcher.Services.CrashReports

set_option autoImplicit false

/-! # Crash groups

The groups and the reports of a group come from queries that are written differently: `DISTINCT ON`
under one order, an aggregate joined to it, and a filtered listing under another order. They agree,
because each `ORDER BY` ends in something that tells its rows apart: the newest report of a group is
the first of its listing, whatever arrived at one instant. -/

namespace Launcher.CrashReports

open Lib

/-- The database's order of texts: any two compare, and only a text itself is level with it. -/
structure Collates (le : Bytes → Bytes → Bool) : Prop where
  orders : Orders le
  level : ∀ x y, le x y = true → le y x = true → x = y

/-- The pages of groups are this list, cut into pages of any size that is asked for: each has its
length as the total, and enough of them, one behind the other, are the list. -/
def PagedGroups (env : Env) (s : State) (actor : Actor) (groups : List CrashGroup) : Prop :=
  ∀ limit : Int, ∃ pages : Nat → List CrashGroup,
    (∀ k : Nat, listGroups env s actor limit (k * clampLimit limit) =
      .ok { items := pages k, total := groups.length }) ∧
    ∀ n : Nat, (groups.length : Int) ≤ n * clampLimit limit → (List.range n).flatMap pages = groups

/-- The pages of the reports with a fingerprint are this list. -/
def PagedReports (env : Env) (s : State) (actor : Actor) (fingerprint : Bytes)
    (reports : List CrashReport) : Prop :=
  ∀ limit : Int, ∃ pages : Nat → List CrashReport,
    (∀ k : Nat, list env s actor
        { fingerprint := fingerprint, limit := limit, offset := k * clampLimit limit } =
      .ok (some { items := pages k, total := reports.length })) ∧
    ∀ n : Nat, (reports.length : Int) ≤ n * clampLimit limit →
      (List.range n).flatMap pages = reports

/-- The instants at which reports with a fingerprint arrived. -/
def State.sightings (s : State) (fingerprint : Bytes) : Set Nat :=
  { t | ∃ row ∈ s.reports, row.fingerprint = fingerprint ∧ row.receivedAt = t }

/-- A group says of these rows how many they are, and what the first and the last of them say; they
are all the reports with its fingerprint, from the last sighting to the first, and no other list of
them keeps to the `ORDER BY`. -/
structure GroupOf (env : Env) (s : State) (group : CrashGroup) (rows : List CrashRow) : Prop where
  nodup : rows.Nodup
  mem : ∀ row, row ∈ rows ↔ row ∈ s.reports ∧ row.fingerprint = group.fingerprint
  occurrences : group.occurrences = rows.length
  newest : ∃ newest, rows.head? = some newest ∧ group.latestReportId = uuidText newest.id ∧
    IsGreatest (s.sightings group.fingerprint) newest.receivedAt ∧
    group.lastSeenAt = env.toChar newest.receivedAt ∧
    group.exceptionType = newest.exceptionType ∧ group.message = newest.message
  oldest : ∃ oldest, rows.getLast? = some oldest ∧
    IsLeast (s.sightings group.fingerprint) oldest.receivedAt ∧
    group.firstSeenAt = env.toChar oldest.receivedAt
  only : ∀ answer, OrderedBy (fun a b => State.newestFirst a b = true)
    (s.matching group.fingerprint) answer → answer = rows

/-- The groups, and what they say of the table: they are paged in order of the last sighting,
every fingerprint that occurs has one, and they account for every report. No other answer to the two
`ORDER BY`s makes another list. -/
structure Accounted (env : Env) (s : State) (actor : Actor) (groups : List CrashGroup) : Prop where
  paged : PagedGroups env s actor groups
  nodup : (groups.map (·.fingerprint)).Nodup
  occurs : ∀ fingerprint, fingerprint ∈ groups.map (·.fingerprint) ↔
    ∃ row ∈ s.reports, row.fingerprint = fingerprint
  ordered : groups.Pairwise (fun a b => ∀ t t', IsGreatest (s.sightings a.fingerprint) t →
    IsGreatest (s.sightings b.fingerprint) t' → t' ≤ t)
  occurrences : (groups.map (·.occurrences)).sum = s.reports.rows.length
  reports : ∀ group ∈ groups, ∃ rows : List CrashRow,
    PagedReports env s actor group.fingerprint (rows.map (mapReport env)) ∧ GroupOf env s group rows
  only : ∀ ordered rows,
    OrderedBy (fun a b => State.latestFirst env a b = true) s.reports.rows ordered →
    OrderedBy (fun a b => State.lastSeenFirst env a b = true) (s.joined ordered) rows →
    rows.map (State.mapGroup env) = groups

/-! ## The orders -/

section Orders

variable {env : Env} {s : State}

theorem newestFirst_orders : Orders State.newestFirst :=
  (orders_descending _).thenBy (orders_ascending _)

/-- The id tells reports apart that arrived at one instant. -/
theorem newestFirst_level {a b : CrashRow} (ha : a ∈ s.reports) (hb : b ∈ s.reports)
    (hab : State.newestFirst a b = true) (hba : State.newestFirst b a = true) : a = b := by
  obtain ⟨-, hid, hid'⟩ := thenBy_level hab hba
  rw [ascending, decide_eq_true_eq] at hid hid'
  exact Table.eq_of_key_eq ha hb (BitVec.eq_of_toNat_eq (Nat.le_antisymm hid hid'))

theorem receivedAt_le {a b : CrashRow} (h : State.newestFirst a b = true) :
    b.receivedAt ≤ a.receivedAt := of_decide_eq_true (thenBy_iff.mp h).1

theorem fingerprint_orders (h : Collates env.collation) :
    Orders (fun a b : CrashRow => env.collation a.fingerprint b.fingerprint) :=
  h.orders.on CrashRow.fingerprint

theorem latestFirst_orders (h : Collates env.collation) : Orders (State.latestFirst env) :=
  (fingerprint_orders h).thenBy newestFirst_orders

/-- Reports with one fingerprint are next to each other. -/
theorem collation_of_latestFirst (a b : CrashRow) (h : State.latestFirst env a b = true) :
    env.collation a.fingerprint b.fingerprint = true := (thenBy_iff.mp h).1

/-- Within a fingerprint it is the order of the listing. -/
theorem newestFirst_of_latestFirst (h : Collates env.collation) {a b : CrashRow}
    (hsame : a.fingerprint = b.fingerprint) (hab : State.latestFirst env a b = true) :
    State.newestFirst a b = true := by
  refine (thenBy_iff.mp hab).2 ?_
  rw [hsame]
  exact h.orders.refl _

theorem latestFirst_level {a b : CrashRow} (ha : a ∈ s.reports) (hb : b ∈ s.reports)
    (hab : State.latestFirst env a b = true) (hba : State.latestFirst env b a = true) : a = b := by
  obtain ⟨-, hnewest, hnewest'⟩ := thenBy_level hab hba
  exact newestFirst_level ha hb hnewest hnewest'

theorem lastSeenFirst_orders (h : Collates env.collation) : Orders (State.lastSeenFirst env) :=
  (orders_descending _).thenBy ((fingerprint_orders h).on Prod.fst)

end Orders

/-! ## Pages -/

theorem clampLimit_pos (limit : Int) : 0 < clampLimit limit := by
  unfold clampLimit
  omega

theorem requireReader_ok {actor : Actor} (h : actor.can .ADMIN_CRASHES_READ = true) :
    requireReader actor = .ok () := by
  unfold requireReader
  rw [h]
  rfl

/-- The page size and the offset are within the bounds, so the service asks for the rows of the
page. -/
theorem listGroups_page {env : Env} {s : State} {actor : Actor}
    (h : actor.can .ADMIN_CRASHES_READ = true) (limit : Int) (k : Nat) :
    listGroups env s actor limit (k * clampLimit limit) = .ok {
      items := window (clampLimit limit).toNat (k * (clampLimit limit).toNat)
        ((s.groupRows env).map (State.mapGroup env))
      total := s.fingerprints.length } := by
  rw [← window_map, ← offset_toNat (clampLimit_pos limit), listGroups, requireReader_ok h]
  rfl

/-- The rows of a listing. -/
def State.listing (s : State) (fingerprint : Bytes) : List CrashRow :=
  (s.matching fingerprint).insertionSort (fun a b => State.newestFirst a b = true)

theorem list_page {env : Env} {s : State} {actor : Actor} {fingerprint : Bytes}
    (h : actor.can .ADMIN_CRASHES_READ = true) (haccepts : acceptsText fingerprint = true)
    (limit : Int) (k : Nat) :
    list env s actor
        { fingerprint := fingerprint, limit := limit, offset := k * clampLimit limit } =
      .ok (some {
        items := window (clampLimit limit).toNat (k * (clampLimit limit).toNat)
          ((s.listing fingerprint).map (mapReport env))
        total := (s.listing fingerprint).length }) := by
  have hlength : (s.listing fingerprint).length = (s.matching fingerprint).length :=
    (List.perm_insertionSort _ _).length_eq
  rw [← window_map, ← offset_toNat (clampLimit_pos limit), hlength, list, requireReader_ok h]
  show Except.ok (State.search env s _) = _
  rw [State.search, if_pos haccepts]
  rfl

/-! ## The reports of a group -/

section Reports

variable {env : Env} {s : State} {fingerprint : Bytes}

/-- The database takes a digest as a text. -/
theorem acceptsText_sha256 (h : isSha256Hex fingerprint = true) :
    acceptsText fingerprint = true := by
  rw [isSha256Hex, Bool.and_eq_true, List.all_eq_true] at h
  have hdigit : ∀ c ∈ fingerprint, c < 0x80 ∧ c ≠ 0 := by
    intro c hc
    have hc := h.2 c hc
    simp only [isLowercaseHexDigit, Bool.or_eq_true, Bool.and_eq_true, decide_eq_true_eq] at hc
    rw [UInt8.lt_iff_toNat_lt, ne_eq, ← UInt8.toNat_inj]
    simp only [UInt8.le_iff_toNat_le, UInt8.reduceToNat] at hc ⊢
    omega
  rw [acceptsText, Utf8.valid_iff.mpr (Utf8.scan_ascii (fun c hc => (hdigit c hc).1))]
  simpa using fun hzero => (hdigit 0 hzero).2 rfl

theorem sha256_ne_nil (h : isSha256Hex fingerprint = true) : fingerprint ≠ [] := by
  rintro rfl
  cases h

theorem mem_matching (hne : fingerprint ≠ []) {row : CrashRow} :
    row ∈ s.matching fingerprint ↔ row ∈ s.reports ∧ row.fingerprint = fingerprint := by
  rw [State.matching, List.mem_filter, List.isEmpty_eq_false_iff.mpr hne, Bool.false_or, beq_iff_eq]
  rfl

theorem listing_orderedBy (s : State) (fingerprint : Bytes) :
    OrderedBy (fun a b => State.newestFirst a b = true)
    (s.matching fingerprint) (s.listing fingerprint) :=
  (orderedBy_iff newestFirst_orders (fun _ ha _ hb => newestFirst_level
    (List.mem_of_mem_filter ha) (List.mem_of_mem_filter hb))).mpr rfl

theorem mem_listing (hne : fingerprint ≠ []) {row : CrashRow} :
    row ∈ s.listing fingerprint ↔ row ∈ s.reports ∧ row.fingerprint = fingerprint := by
  rw [(listing_orderedBy s _).perm.mem_iff, mem_matching hne]

theorem listing_nodup : (s.listing fingerprint).Nodup :=
  (listing_orderedBy s _).perm.nodup_iff.mpr ((List.Nodup.of_map _ s.reports.nodup).filter _)

/-- A report that comes before all of its fingerprint is the first of the listing. -/
theorem listing_head (hne : fingerprint ≠ []) {newest : CrashRow} (hmem : newest ∈ s.reports)
    (hfingerprint : newest.fingerprint = fingerprint)
    (hfirst : ∀ row ∈ s.reports, row.fingerprint = fingerprint →
      State.newestFirst newest row = true) : (s.listing fingerprint).head? = some newest := by
  have hnewest : newest ∈ s.listing fingerprint := (mem_listing hne).mpr ⟨hmem, hfingerprint⟩
  have hordered := listing_orderedBy s fingerprint
  -- it and the first of the listing come before each other, so they are one
  cases hlisting : s.listing fingerprint with
  | nil =>
      rw [hlisting] at hnewest
      cases hnewest
  | cons first rest =>
      rw [hlisting] at hordered
      have hmem' := (mem_listing (s := s) hne).mp (hlisting ▸ List.mem_cons_self)
      have hbefore := hordered.head (newestFirst_orders.refl first) newest
        ((mem_matching hne).mpr ⟨hmem, hfingerprint⟩)
      rw [newestFirst_level hmem'.1 hmem hbefore (hfirst first hmem'.1 hmem'.2)]
      rfl

theorem greatest_of_first (hne : fingerprint ≠ []) {newest : CrashRow}
    (h : (s.listing fingerprint).head? = some newest) :
    IsGreatest (s.sightings fingerprint) newest.receivedAt := by
  obtain ⟨rest, hlisting⟩ := List.head?_eq_some_iff.mp h
  have hmem := (mem_listing (s := s) hne).mp (hlisting ▸ List.mem_cons_self)
  refine ⟨⟨newest, hmem.1, hmem.2, rfl⟩, ?_⟩
  rintro _ ⟨row, hrow, hfingerprint, rfl⟩
  have hordered := listing_orderedBy s fingerprint
  rw [hlisting] at hordered
  exact receivedAt_le (hordered.head (newestFirst_orders.refl newest) row
    ((mem_matching hne).mpr ⟨hrow, hfingerprint⟩))

theorem least_of_last (hne : fingerprint ≠ []) {oldest : CrashRow}
    (h : (s.listing fingerprint).getLast? = some oldest) :
    IsLeast (s.sightings fingerprint) oldest.receivedAt := by
  obtain ⟨rest, hlisting⟩ := List.getLast?_eq_some_iff.mp h
  have hmem := (mem_listing (s := s) hne).mp
    (hlisting ▸ List.mem_append_right rest (List.mem_singleton_self oldest))
  refine ⟨⟨oldest, hmem.1, hmem.2, rfl⟩, ?_⟩
  rintro _ ⟨row, hrow, hfingerprint, rfl⟩
  have hordered := listing_orderedBy s fingerprint
  rw [hlisting] at hordered
  exact receivedAt_le (hordered.getLast (newestFirst_orders.refl oldest) row
    ((mem_matching hne).mpr ⟨hrow, hfingerprint⟩))

end Reports

/-! ## The groups -/

section Groups

variable {env : Env} {s : State} {ordered : List CrashRow}

/-- The statement's inner `ORDER BY`. -/
abbrev LatestOrdered (env : Env) (s : State) (ordered : List CrashRow) : Prop :=
  OrderedBy (fun a b => State.latestFirst env a b = true) s.reports.rows ordered

theorem mem_latest (hordered : LatestOrdered env s ordered) {row : CrashRow}
    (h : row ∈ State.latest ordered) : row ∈ s.reports :=
  hordered.perm.mem_iff.mp ((distinctOn_sublist _).subset h)

/-- `DISTINCT ON` keeps the report that the listing begins with. -/
theorem latest_first (h : Collates env.collation) (hordered : LatestOrdered env s ordered)
    {newest row : CrashRow} (hnewest : newest ∈ State.latest ordered) (hrow : row ∈ s.reports)
    (hsame : row.fingerprint = newest.fingerprint) : State.newestFirst newest row = true := by
  have horders := latestFirst_orders h
  refine newestFirst_of_latestFirst h hsame.symm ?_
  exact distinctOn_first collation_of_latestFirst h.level horders.refl hordered.sorted hnewest
    (hordered.perm.mem_iff.mpr hrow) hsame

theorem latest_fingerprints (h : Collates env.collation) (hordered : LatestOrdered env s ordered) :
    ((State.latest ordered).map (·.fingerprint)).Nodup :=
  List.pairwise_map.mpr (distinctOn_keys collation_of_latestFirst h.level hordered.sorted)

theorem mem_latest_fingerprints (hordered : LatestOrdered env s ordered) {fingerprint : Bytes} :
    fingerprint ∈ (State.latest ordered).map (·.fingerprint) ↔ fingerprint ∈ s.fingerprints := by
  rw [State.fingerprints, List.mem_dedup, List.mem_map, List.mem_map]
  constructor
  · rintro ⟨row, hrow, rfl⟩
    exact ⟨row, mem_latest hordered hrow, rfl⟩
  · rintro ⟨row, hrow, rfl⟩
    exact exists_mem_distinctOn (hordered.perm.mem_iff.mpr hrow)

/-- Every newest report meets the count of its fingerprint, and no other. -/
theorem joined_eq (hordered : LatestOrdered env s ordered) :
    s.joined ordered = (State.latest ordered).map (fun l => (l, s.count l.fingerprint)) := by
  refine join_key (List.nodup_dedup _) (fun l fingerprint => rfl) (fun l hl => ?_)
  exact (mem_latest_fingerprints hordered).mp (List.mem_map_of_mem hl)

/-- Groups that are level are one: the fingerprint tells them apart. -/
theorem lastSeenFirst_level (h : Collates env.collation) (hordered : LatestOrdered env s ordered)
    {a b : CrashRow × State.Counted} (ha : a ∈ s.joined ordered) (hb : b ∈ s.joined ordered)
    (hab : State.lastSeenFirst env a b = true) (hba : State.lastSeenFirst env b a = true) :
    a = b := by
  obtain ⟨-, hle, hle'⟩ := thenBy_level hab hba
  rw [joined_eq hordered] at ha hb
  obtain ⟨l, hl, rfl⟩ := List.mem_map.mp ha
  obtain ⟨l', hl', rfl⟩ := List.mem_map.mp hb
  rw [List.inj_on_of_nodup_map (latest_fingerprints h hordered) hl hl' (h.level _ _ hle hle')]

/-- The order that the database makes of the rows to find the newest reports. -/
theorem insertionSort_latest (h : Collates env.collation) :
    LatestOrdered env s
      (s.reports.rows.insertionSort (fun a b => State.latestFirst env a b = true)) :=
  (orderedBy_iff (latestFirst_orders h) (fun _ ha _ hb => latestFirst_level ha hb)).mpr rfl

/-- No other answer keeps to the two `ORDER BY`s. -/
theorem groupRows_unique (h : Collates env.collation) (hordered : LatestOrdered env s ordered)
    {rows : List (CrashRow × State.Counted)}
    (hrows : OrderedBy (fun a b => State.lastSeenFirst env a b = true) (s.joined ordered) rows) :
    rows = s.groupRows env := by
  -- first the rows that `DISTINCT ON` reads, then the groups
  obtain rfl := hordered.unique (fun _ ha _ hb => latestFirst_level ha hb) (insertionSort_latest h)
  exact (orderedBy_iff (lastSeenFirst_orders h) (fun _ ha _ hb =>
    lastSeenFirst_level h hordered ha hb)).mp hrows

theorem groupRows_orderedBy (h : Collates env.collation) :
    OrderedBy (fun a b => State.lastSeenFirst env a b = true)
      (s.joined (s.reports.rows.insertionSort (fun a b => State.latestFirst env a b = true)))
      (s.groupRows env) :=
  (orderedBy_iff (lastSeenFirst_orders h) (fun _ ha _ hb =>
    lastSeenFirst_level h (insertionSort_latest h) ha hb)).mpr rfl

/-- The rows behind the groups. -/
theorem mem_groupRows (h : Collates env.collation) {row : CrashRow × State.Counted}
    (hrow : row ∈ s.groupRows env) : row.1 ∈ s.reports ∧ row.2 = s.count row.1.fingerprint ∧
      ∀ other ∈ s.reports, other.fingerprint = row.1.fingerprint →
        State.newestFirst row.1 other = true := by
  have hordered := insertionSort_latest h (s := s)
  have hjoined := (groupRows_orderedBy h).perm.mem_iff.mp hrow
  rw [joined_eq hordered] at hjoined
  obtain ⟨l, hl, rfl⟩ := List.mem_map.mp hjoined
  exact ⟨mem_latest hordered hl, rfl, fun other => latest_first h hordered hl⟩

/-- Each fingerprint has one row, so the groups are as many as the count of them says. -/
theorem groupRows_fingerprints (h : Collates env.collation) :
    ((s.groupRows env).map (·.1.fingerprint)).Perm s.fingerprints := by
  have hordered := insertionSort_latest h (s := s)
  have hjoined := (groupRows_orderedBy h (s := s)).perm.map (·.1.fingerprint)
  rw [joined_eq hordered, List.map_map] at hjoined
  refine hjoined.trans ((List.perm_ext_iff_of_nodup (latest_fingerprints h hordered)
    (List.nodup_dedup _)).mpr (fun fingerprint => ?_))
  exact mem_latest_fingerprints hordered

/-- The counts of the groups add up to the rows of the table. -/
theorem sum_occurrences (h : Collates env.collation) :
    ((s.groupRows env).map (·.2.occurrences)).sum = s.reports.rows.length := by
  -- a group counts the rows with its fingerprint
  have hcounts : (s.groupRows env).map (·.2.occurrences) =
      ((s.groupRows env).map (·.1.fingerprint)).map (fun fingerprint =>
        tally (fun _ => 1) (fun row : CrashRow => true && decide (row.fingerprint = fingerprint))
          s.reports.rows) := by
    rw [List.map_map]
    refine List.map_congr_left (fun row hrow => ?_)
    rw [(mem_groupRows h hrow).2.1]
    simp [State.count, tally_count]
  have hnodup := (groupRows_fingerprints h (s := s)).nodup_iff.mpr (List.nodup_dedup _)
  rw [hcounts, tally_all_groups (fun _ => 1) (fun _ => true) CrashRow.fingerprint hnodup,
    tally_count, List.filter_true]
  intro row hrow _
  exact (groupRows_fingerprints h).mem_iff.mpr (List.mem_dedup.mpr (List.mem_map_of_mem hrow))

/-- The instants that `min` and `max` are taken of. -/
theorem mem_received {fingerprint : Bytes} {t : Nat} :
    t ∈ (s.reports.rows.filter (fun row => decide (row.fingerprint = fingerprint))).map
      (·.receivedAt) ↔ t ∈ s.sightings fingerprint := by
  rw [List.mem_map]
  constructor
  · rintro ⟨row, hrow, rfl⟩
    obtain ⟨hrow, hfingerprint⟩ := List.mem_filter.mp hrow
    exact ⟨row, hrow, of_decide_eq_true hfingerprint, rfl⟩
  · rintro ⟨row, hrow, hfingerprint, rfl⟩
    exact ⟨row, List.mem_filter.mpr ⟨hrow, decide_eq_true hfingerprint⟩, rfl⟩

theorem count_lastSeen {fingerprint : Bytes} {t : Nat}
    (h : IsGreatest (s.sightings fingerprint) t) : (s.count fingerprint).lastSeen = t := by
  have hmax := List.max?_eq_some_iff.mpr
    ⟨mem_received.mpr h.1, fun t' ht' => h.2 (mem_received.mp ht')⟩
  exact congrArg (fun t => Option.getD t 0) hmax

theorem count_firstSeen {fingerprint : Bytes} {t : Nat}
    (h : IsLeast (s.sightings fingerprint) t) : (s.count fingerprint).firstSeen = t := by
  have hmin := List.min?_eq_some_iff.mpr
    ⟨mem_received.mpr h.1, fun t' ht' => h.2 (mem_received.mp ht')⟩
  exact congrArg (fun t => Option.getD t 0) hmin

end Groups

/-! ## Both together -/

section Accounts

variable {env : Env} {s : State} {actor : Actor}

theorem matching_eq {fingerprint : Bytes} (hne : fingerprint ≠ []) : s.matching fingerprint =
    s.reports.rows.filter (fun row => decide (row.fingerprint = fingerprint)) := by
  refine List.filter_congr (fun row _ => ?_)
  rw [List.isEmpty_eq_false_iff.mpr hne, Bool.false_or]
  exact beq_eq_decide _ _

/-- A group and its listing. -/
theorem groupOf_listing (h : Collates env.collation) {row : CrashRow × State.Counted}
    (hrow : row ∈ s.groupRows env) :
    GroupOf env s (State.mapGroup env row) (s.listing row.1.fingerprint) := by
  obtain ⟨hmem, hcount, hfirst⟩ := mem_groupRows h hrow
  have hne := sha256_ne_nil (s.fingerprint_format row.1 hmem)
  have hhead := listing_head hne hmem rfl hfirst
  have hgreatest := greatest_of_first hne hhead
  refine ⟨listing_nodup, fun other => mem_listing hne, ?_, ?_, ?_, fun answer hanswer => ?_⟩
  · show row.2.occurrences = _
    rw [hcount, (listing_orderedBy s _).perm.length_eq, matching_eq hne, State.count]
    simp only [List.length_map]
  · refine ⟨row.1, hhead, rfl, hgreatest, ?_, rfl, rfl⟩
    show env.toChar row.2.lastSeen = _
    rw [hcount, count_lastSeen hgreatest]
  · cases hlast : (s.listing row.1.fingerprint).getLast? with
    | none =>
        rw [List.getLast?_eq_none_iff.mp hlast] at hhead
        cases hhead
    | some oldest =>
        have hleast := least_of_last hne hlast
        refine ⟨oldest, rfl, hleast, ?_⟩
        show env.toChar row.2.firstSeen = _
        rw [hcount, count_firstSeen hleast]
  · exact hanswer.unique (fun _ ha _ hb => newestFirst_level ((mem_matching hne).mp ha).1
      ((mem_matching hne).mp hb).1) (listing_orderedBy s _)

theorem accounted (h : Collates env.collation) (hread : actor.can .ADMIN_CRASHES_READ = true) :
    Accounted env s actor ((s.groupRows env).map (State.mapGroup env)) := by
  have hfingerprints := groupRows_fingerprints h (s := s)
  have hkeys : ((s.groupRows env).map (State.mapGroup env)).map (·.fingerprint) =
      (s.groupRows env).map (·.1.fingerprint) := List.map_map
  have hlength : s.fingerprints.length = ((s.groupRows env).map (State.mapGroup env)).length := by
    rw [← hfingerprints.length_eq, List.length_map, List.length_map]
  refine ⟨fun limit => ⟨_, fun k => ?_, fun n hn => pages_all_signed (clampLimit_pos limit) hn⟩,
    ?_, fun fingerprint => ?_, ?_, ?_, ?_, fun ordered rows hordered hrows => ?_⟩
  · rw [listGroups_page hread, hlength]
  · rw [hkeys]
    exact hfingerprints.nodup_iff.mpr (List.nodup_dedup _)
  · rw [hkeys, hfingerprints.mem_iff, State.fingerprints, List.mem_dedup, List.mem_map]
    rfl
  · -- the counts are ordered, and each is the last sighting
    refine List.pairwise_map.mpr ((groupRows_orderedBy h).sorted.imp_of_mem ?_)
    intro a b ha hb hab t t' ht ht'
    have hle : b.2.lastSeen ≤ a.2.lastSeen := of_decide_eq_true (thenBy_iff.mp hab).1
    have hlast : a.2.lastSeen = t :=
      (congrArg State.Counted.lastSeen (mem_groupRows h ha).2.1).trans (count_lastSeen ht)
    have hlast' : b.2.lastSeen = t' :=
      (congrArg State.Counted.lastSeen (mem_groupRows h hb).2.1).trans (count_lastSeen ht')
    rwa [hlast, hlast'] at hle
  · rw [List.map_map]
    exact sum_occurrences h
  · intro group hgroup
    -- the filter is a digest, which the database takes
    obtain ⟨row, hrow, rfl⟩ := List.mem_map.mp hgroup
    have hformat := s.fingerprint_format row.1 (mem_groupRows h hrow).1
    refine ⟨s.listing row.1.fingerprint, fun limit => ⟨_, fun k => ?_, fun n hn =>
      pages_all_signed (clampLimit_pos limit) hn⟩, groupOf_listing h hrow⟩
    rw [List.length_map]
    exact list_page hread (acceptsText_sha256 hformat) limit k
  · rw [groupRows_unique h hordered hrows]

/-- **Crash groups account for every report.** After any history of the table, the groups that an
operator pages through are one for each fingerprint, the last seen first, and the reports of a
group are as many as it says, from its newest to its oldest. -/
theorem crash_groups_account (h : Collates env.collation)
    (hread : actor.can .ADMIN_CRASHES_READ = true) (now : Nat) (events : List Event) :
    ∃ groups, Accounted env (run env (.initial now) events) actor groups :=
  ⟨_, accounted h hread⟩

/-- The console can open the report that a group names. -/
theorem find_latestReport (h : Collates env.collation)
    (hread : actor.can .ADMIN_CRASHES_READ = true) {row : CrashRow × State.Counted}
    (hrow : row ∈ s.groupRows env) :
    find env s actor (State.mapGroup env row).latestReportId = .ok (mapReport env row.1) := by
  have hfound : s.reports.find? (uuidOf (uuidText row.1.id)) = some row.1 := by
    rw [uuidOf_uuidText]
    exact Table.find?_of_mem (mem_groupRows h hrow).1
  show find env s actor (uuidText row.1.id) = _
  unfold find State.findById
  rw [requireReader_ok hread, isUuid_uuidText, hfound]
  rfl

end Accounts

namespace Demo

/-- The first seconds of the epoch. -/
def toChar (instant : Int) : Bytes :=
  ascii "1970-01-01T00:00:0" ++ decimal (instant / (second : Int)).toNat ++ ascii "Z"

/-- SHA-256 of a type and the shape of a stack, of the two crashes below. -/
def sha256Hex (text : Bytes) : Bytes :=
  if text = ascii "IOException\nat store.read" then
    ascii "739acb0428451d463fdb0f0f516bd72533131bc4815c934577b328188ca4dbe1"
  else ascii "f6ee98d0d257fa334cdb0ab5038fafe86f214f60462715dbcc4d1ab1ce4611ef"

def env : Env where
  retentionSeconds := 4
  sha256Hex := sha256Hex
  timestamptz := fun text => if text = toChar second then some (second : Int) else none
  toChar := toChar
  collation := fun a b => decide (a ≤ b)

theorem collates_bytes : Collates (fun a b : Bytes => decide (a ≤ b)) := by
  refine ⟨⟨fun a b => ?_, fun a b c => ?_⟩, fun x y => ?_⟩ <;> simp only [decide_eq_true_eq]
  · exact le_total a b
  · exact le_trans
  · exact le_antisymm

def operator : Actor := ⟨3, [.ADMIN_CRASHES_READ]⟩

def crash (exceptionType stackTrace : String) : NewCrashReport where
  kind := ascii "unhandled"
  occurredAt := ascii "1970-01-01T00:00:01Z"
  launcherVersion := ascii "1.0.0"
  platform := ascii "linux"
  exceptionType := ascii exceptionType
  message := []
  stackTrace := ascii stackTrace

/-- Two crashes twice each, three of the reports at one instant, and one that is swept. -/
def history : List Event :=
  [.submit 9 (crash "IOException" "at Store.Read()"), .tick (5 * second),
    .submit 2 (crash "NullReferenceException" "at Launcher.Main() line 42"),
    .submit 1 (crash "NullReferenceException" "at Launcher.Main() line 57"),
    .submit 4 (crash "IOException" "at Store.Read()"), .sweepExpired]

/-- Both groups were last seen at one instant; the newest report is the one with the smaller id. -/
theorem crash_groups_history :
    (listGroups env (run env (.initial 0) history) operator 1 1).toOption.map
      (fun page => (page.items.map (fun group => (group.occurrences, group.latestReportId)),
        page.total)) = some ([(2, uuidText 1)], 2) ∧
    ∃ groups, Accounted env (run env (.initial 0) history) operator groups :=
  ⟨by decide +kernel, crash_groups_account collates_bytes (by decide) 0 history⟩

end Demo

end Launcher.CrashReports
