import Launcher.Database.Timestamptz
import Launcher.Lib.Listings
import Launcher.Lib.Tallies
import Launcher.Storefront.Frame
import Launcher.Storefront.System

set_option autoImplicit false

/-! # The download report

Three statements read `download_events` for one report. The totals and the games count from an
instant on, `days` days before now; the chart has whole UTC days, from the day of that instant to
today. What separates them is the part of the first day before the instant, which only the chart
has, and what comes after today, which the chart does not have: the parts agree if and only if these
two tally alike (`downloadReport_agrees_iff`). -/

namespace Launcher.Storefront

open Lib

/-! ## The report -/

def MAX_ANALYTICS_DAYS : Int := 365
def MAX_ANALYTICS_TOP_GAMES : Int := 50

structure DownloadTotals where
  downloads : Int
  distinctUsers : Int
  bytesPlanned : Int
  fullDownloads : Int
  deltaDownloads : Int
  deriving DecidableEq, Repr

structure DownloadDay where
  day : Bytes
  downloads : Int
  bytesPlanned : Int
  deriving DecidableEq, Repr

structure GameDownloads where
  gameId : Bytes
  slug : Bytes
  title : Bytes
  downloads : Int
  bytesPlanned : Int
  distinctUsers : Int
  deriving DecidableEq, Repr

structure DownloadReport where
  days : Nat
  totals : DownloadTotals
  daily : List DownloadDay
  topGames : List GameDownloads
  deriving DecidableEq, Repr

/-- A day of the clock. -/
def dayLength : Nat := 86400 * second

/-- `(t AT TIME ZONE 'UTC')::date`, in days since the epoch. -/
def utcDate (t : Nat) : Int := (t / dayLength : Nat)

/-- `as<int64_t>` of a sum, which is a `numeric`: out of range it throws. -/
def asInt64 (n : Int) : Option Int := if -2 ^ 63 ≤ n ∧ n < 2 ^ 63 then some n else none

/-- `created_at >= now() - $1::interval`, in a session whose time zone is UTC. -/
def inWindow (now days : Nat) (e : DownloadEventRow) : Bool :=
  decide ((now : Int) - days * dayLength ≤ e.createdAt)

/-- `generate_series`: every day from `days` days ago to today. -/
def daySeries (now days : Nat) : List Int :=
  (List.range (days + 1)).map (fun k : Nat => utcDate now - days + k)

namespace State

variable (env : Env) (s : State) (toChar : Int → Bytes) (now days : Nat)

/-- `count(*)`. -/
def countEvents (p : DownloadEventRow → Bool) : Int := tally (fun _ => 1) p s.events

/-- `COALESCE(sum(bytes_planned), 0)`. -/
def sumBytes (p : DownloadEventRow → Bool) : Int := tally (·.bytesPlanned) p s.events

/-- `count(DISTINCT user_id)`, which leaves out the erased accounts. -/
def distinctUsers (p : DownloadEventRow → Bool) : Int :=
  ((s.events.filter p).filterMap (·.userId)).dedup.length

def downloadTotals : Option DownloadTotals := do
  let bytesPlanned ← asInt64 (s.sumBytes (inWindow now days))
  some {
    downloads := s.countEvents (inWindow now days)
    distinctUsers := s.distinctUsers (inWindow now days)
    bytesPlanned := bytesPlanned
    fullDownloads := s.countEvents (fun e => inWindow now days e && e.kind == .Full)
    deltaDownloads := s.countEvents (fun e => inWindow now days e && e.kind == .Delta) }

/-- One day of the chart. -/
def downloadDay (day : Int) : Option DownloadDay := do
  let bytesPlanned ← asInt64 (s.sumBytes (fun e => decide (utcDate e.createdAt = day)))
  some {
    day := toChar day
    downloads := s.countEvents (fun e => decide (utcDate e.createdAt = day))
    bytesPlanned := bytesPlanned }

/-- The group of a game. -/
def gameDownloads (game : Game) : GameDownloads :=
  let ofGame := fun e : DownloadEventRow => inWindow now days e && decide (e.gameId = game.id)
  { gameId := uuidText game.id, slug := game.slug, title := (s.gameColumns game.id).title
    downloads := s.countEvents ofGame
    bytesPlanned := s.sumBytes ofGame
    distinctUsers := s.distinctUsers ofGame }

/-- The groups: the games that have an event in the window. -/
def gameGroups : List GameDownloads :=
  (s.core.games.rows.filter (fun game => s.events.any (fun e =>
    inWindow now days e && decide (e.gameId = game.id)))).map (s.gameDownloads now days)

/-- `downloads DESC, g.title`; of games that are level in both SQL does not say which is first. -/
def downloadsLe (a b : GameDownloads) : Bool :=
  if a.downloads = b.downloads then env.core.collation a.title b.title
  else decide (b.downloads < a.downloads)

def topGames (limit : Nat) : Option (List GameDownloads) :=
  (window limit 0
    ((s.gameGroups now days).insertionSort (fun a b => downloadsLe env a b = true))).mapM
      (fun row => (asInt64 row.bytesPlanned).map (fun bytesPlanned =>
        { row with bytesPlanned := bytesPlanned }))

/-- `PgAnalyticsRepository::downloadReport`, with `to_char` of a day; `none` where it throws. -/
def downloadReport (limit : Nat) : Option DownloadReport := do
  let totals ← s.downloadTotals now days
  let daily ← (daySeries now days).mapM (s.downloadDay toChar)
  let games ← s.topGames env now days limit
  some { days := days, totals := totals, daily := daily, topGames := games }

end State

namespace AnalyticsService

/-- `AnalyticsService::downloadReport`. -/
def downloadReport (env : Env) (s : State) (toChar : Int → Bytes) (now : Nat) (actor : Actor)
    (days topGames : Int) : Result (Option DownloadReport) :=
  if !actor.can .ADMIN_SETTINGS_MANAGE then
    failure .Forbidden (ascii "you do not have permission to do that")
  else
    let days := max 1 (min days MAX_ANALYTICS_DAYS)
    let topGames := max 1 (min topGames MAX_ANALYTICS_TOP_GAMES)
    .ok (s.downloadReport env toChar now days.toNat topGames.toNat)

end AnalyticsService

/-- The service asks for a year at most, and for fifty games. -/
theorem AnalyticsService.downloadReport_ok {env : Env} {s : State} {toChar : Int → Bytes}
    {now : Nat} {actor : Actor} {days topGames : Int} {answer : Option DownloadReport}
    (h : AnalyticsService.downloadReport env s toChar now actor days topGames = .ok answer) :
    actor.can .ADMIN_SETTINGS_MANAGE = true ∧ ∃ days' limit : Nat, 1 ≤ days' ∧ days' ≤ 365 ∧
      1 ≤ limit ∧ limit ≤ 50 ∧ answer = s.downloadReport env toChar now days' limit := by
  unfold AnalyticsService.downloadReport MAX_ANALYTICS_DAYS MAX_ANALYTICS_TOP_GAMES at h
  cases hcan : actor.can .ADMIN_SETTINGS_MANAGE with
  | false =>
      rw [hcan] at h
      cases h
  | true =>
      rw [hcan] at h
      exact ⟨rfl, _, _, by omega, by omega, by omega, by omega, (Except.ok.inj h).symm⟩

/-! ## What each part counts -/

theorem asInt64_eq {n m : Int} (h : asInt64 n = some m) : m = n := by
  unfold asInt64 at h
  split_ifs at h
  exact (Option.some.inj h).symm

section Parts

variable {s : State} {toChar : Int → Bytes} {now days : Nat}

theorem downloadTotals_eq {totals : DownloadTotals} (h : s.downloadTotals now days = some totals) :
    totals.downloads = s.countEvents (inWindow now days) ∧
    totals.bytesPlanned = s.sumBytes (inWindow now days) ∧
    totals.fullDownloads + totals.deltaDownloads = s.countEvents (inWindow now days) := by
  obtain ⟨bytes, hbytes, h⟩ := Option.bind_eq_some_iff.mp h
  obtain rfl := Option.some.inj h
  refine ⟨rfl, asInt64_eq hbytes, ?_⟩
  -- an event is of one kind
  have hkinds := @tally_balance DownloadEventRow (fun _ => 1)
    (fun e => inWindow now days e && e.kind == .Full) (inWindow now days) s.events
    (fun e => inWindow now days e && e.kind == .Delta) (fun _ => false)
    (fun e _ => by cases inWindow now days e <;> cases e.kind <;> rfl)
  have hnone : tally (fun _ => 1) (fun _ : DownloadEventRow => false) s.events = 0 := by
    simp [tally]
  rw [hnone, add_zero] at hkinds
  exact hkinds

theorem daySeries_nodup : (daySeries now days).Nodup :=
  List.nodup_range.map (fun _ _ h => by simpa using h)

theorem mem_daySeries {day : Int} :
    day ∈ daySeries now days ↔ utcDate now - days ≤ day ∧ day ≤ utcDate now := by
  simp only [daySeries, List.mem_map, List.mem_range]
  constructor
  · rintro ⟨k, hk, rfl⟩
    omega
  · rintro ⟨hlow, hhigh⟩
    exact ⟨(day - (utcDate now - days)).toNat, by omega, by omega⟩

/-- The event is on one of the days of the chart. -/
def inSeries (now days : Nat) (e : DownloadEventRow) : Bool :=
  decide (utcDate e.createdAt ∈ daySeries now days)

theorem sum_series (f : DownloadEventRow → Int) :
    ((daySeries now days).map (fun day =>
      tally f (fun e => decide (utcDate e.createdAt = day)) s.events)).sum =
        tally f (inSeries now days) s.events := by
  show _ = tally f (fun e => decide (utcDate e.createdAt ∈ daySeries now days)) s.events
  simpa using tally_groups f (fun _ => true)
    (fun e : DownloadEventRow => utcDate e.createdAt) daySeries_nodup s.events

theorem daily_eq {daily : List DownloadDay}
    (h : (daySeries now days).mapM (s.downloadDay toChar) = some daily) :
    (daily.map (·.downloads)).sum = s.countEvents (inSeries now days) ∧
    (daily.map (·.bytesPlanned)).sum = s.sumBytes (inSeries now days) := by
  have hday : ∀ day (entry : DownloadDay), s.downloadDay toChar day = some entry →
      entry.downloads = s.countEvents (fun e => decide (utcDate e.createdAt = day)) ∧
      entry.bytesPlanned = s.sumBytes (fun e => decide (utcDate e.createdAt = day)) := by
    intro day entry hentry
    obtain ⟨bytes, hbytes, hentry⟩ := Option.bind_eq_some_iff.mp hentry
    obtain rfl := Option.some.inj hentry
    exact ⟨rfl, asInt64_eq hbytes⟩
  rw [map_of_mapM (fun day entry hentry => (hday day entry hentry).1) h,
    map_of_mapM (fun day entry hentry => (hday day entry hentry).2) h]
  exact ⟨sum_series _, sum_series _⟩

/-- The games with an event. -/
def State.gamesWithEvents (s : State) : List Uuid := (s.events.map (·.gameId)).dedup

/-- The foreign key of `download_events`. -/
def Referenced (s : State) : Prop :=
  ∀ e ∈ s.events, (s.core.games.find? e.gameId).isSome = true

/-- The ids of the groups. -/
def groupIds (s : State) (now days : Nat) : List Uuid :=
  (s.core.games.rows.filter (fun game => s.events.any (fun e =>
    inWindow now days e && decide (e.gameId = game.id)))).map (·.id)

theorem groupIds_nodup : (groupIds s now days).Nodup :=
  s.core.games.nodup.sublist (List.filter_sublist.map _)

theorem mem_groupIds_of_event (hs : Referenced s) {e : DownloadEventRow} (he : e ∈ s.events)
    (hwindow : inWindow now days e = true) : e.gameId ∈ groupIds s now days := by
  obtain ⟨game, hgame⟩ := Option.isSome_iff_exists.mp (hs e he)
  have hid : game.id = e.gameId := Table.key_of_find? hgame
  refine List.mem_map.mpr ⟨game, List.mem_filter.mpr ⟨Table.mem_of_find? hgame, ?_⟩, hid⟩
  refine List.any_eq_true.mpr ⟨e, he, ?_⟩
  rw [hwindow, hid, Bool.true_and, decide_eq_true rfl]

/-- There are no more groups than games with events. -/
theorem groupIds_length : (groupIds s now days).length ≤ s.gamesWithEvents.length := by
  refine (List.Nodup.subperm groupIds_nodup (fun id hid => ?_)).length_le
  obtain ⟨game, hgame, rfl⟩ := List.mem_map.mp hid
  obtain ⟨e, he, hof⟩ := List.any_eq_true.mp (List.mem_filter.mp hgame).2
  rw [Bool.and_eq_true, decide_eq_true_eq] at hof
  exact List.mem_dedup.mpr (List.mem_map.mpr ⟨e, he, hof.2⟩)

theorem sum_groups (hs : Referenced s) (f : DownloadEventRow → Int) :
    ((groupIds s now days).map (fun id =>
      tally f (fun e => inWindow now days e && decide (e.gameId = id)) s.events)).sum =
        tally f (inWindow now days) s.events :=
  tally_all_groups f (inWindow now days) (·.gameId) groupIds_nodup
    (fun _ he hwindow => mem_groupIds_of_event hs he hwindow)

theorem topGames_eq (env : Env) (hs : Referenced s) {limit : Nat} {games : List GameDownloads}
    (h : s.topGames env now days limit = some games)
    (hlimit : s.gamesWithEvents.length ≤ limit) :
    (games.map (·.downloads)).sum = s.countEvents (inWindow now days) ∧
    (games.map (·.bytesPlanned)).sum = s.sumBytes (inWindow now days) := by
  have hsorted : ((s.gameGroups now days).insertionSort
      (fun a b => State.downloadsLe env a b = true)).Perm (s.gameGroups now days) :=
    List.perm_insertionSort _ _
  have hlength : (s.gameGroups now days).length ≤ limit := by
    have hgroups : (groupIds s now days).length ≤ limit := groupIds_length.trans hlimit
    rwa [groupIds, List.length_map, ← List.length_map (f := s.gameDownloads now days)] at hgroups
  -- the limit leaves every group in
  unfold State.topGames at h
  rw [window, List.drop_zero, List.take_of_length_le (hsorted.length_eq.le.trans hlength)] at h
  -- reading the rows keeps what is summed
  have hrow : ∀ row row' : GameDownloads, (asInt64 row.bytesPlanned).map (fun bytesPlanned =>
      { row with bytesPlanned := bytesPlanned }) = some row' →
        row'.downloads = row.downloads ∧ row'.bytesPlanned = row.bytesPlanned := by
    intro row row' hread
    obtain ⟨bytes, hbytes, rfl⟩ := Option.map_eq_some_iff.mp hread
    exact ⟨rfl, asInt64_eq hbytes⟩
  rw [map_of_mapM (fun row row' hread => (hrow row row' hread).1) h,
    map_of_mapM (fun row row' hread => (hrow row row' hread).2) h,
    (hsorted.map _).sum_eq, (hsorted.map _).sum_eq, State.gameGroups, List.map_map, List.map_map]
  have hdownloads := @sum_groups s now days hs (fun _ => 1)
  have hbytes := @sum_groups s now days hs (·.bytesPlanned)
  rw [groupIds, List.map_map] at hdownloads hbytes
  exact ⟨hdownloads, hbytes⟩

end Parts

/-! ## Where the parts meet -/

section Window

variable {s : State} {now days : Nat}

/-- On the first day of the chart, before the window. -/
def early (now days : Nat) (e : DownloadEventRow) : Bool :=
  decide (utcDate now - days ≤ utcDate e.createdAt) && !inWindow now days e

/-- After today. -/
def late (now : Nat) (e : DownloadEventRow) : Bool := decide (utcDate now < utcDate e.createdAt)

/-- What only the chart has and what it does not have tally alike. -/
structure Balanced (s : State) (now days : Nat) : Prop where
  downloads : s.countEvents (early now days) = s.countEvents (late now)
  bytesPlanned : s.sumBytes (early now days) = s.sumBytes (late now)

theorem inWindow_iff {e : DownloadEventRow} :
    inWindow now days e = true ↔ (now : Int) - days * dayLength ≤ e.createdAt := decide_eq_true_iff

theorem early_iff {e : DownloadEventRow} :
    early now days e = true ↔ utcDate e.createdAt = utcDate now - days ∧
      (e.createdAt : Int) < now - days * dayLength := by
  rw [early, Bool.and_eq_true, Bool.not_eq_true', ← Bool.not_eq_true, inWindow_iff,
    decide_eq_true_eq, utcDate, utcDate, dayLength, second]
  omega

theorem inSeries_not_inWindow (e : DownloadEventRow) :
    (inSeries now days e && !inWindow now days e) = early now days e := by
  rw [Bool.eq_iff_iff, early_iff, Bool.and_eq_true, Bool.not_eq_true', ← Bool.not_eq_true,
    inWindow_iff, inSeries, decide_eq_true_eq, mem_daySeries, utcDate, utcDate, dayLength, second]
  omega

theorem inWindow_not_inSeries (e : DownloadEventRow) :
    (inWindow now days e && !inSeries now days e) = late now e := by
  rw [Bool.eq_iff_iff, Bool.and_eq_true, Bool.not_eq_true', ← Bool.not_eq_true, inWindow_iff,
    inSeries, late, decide_eq_true_eq, decide_eq_true_eq, mem_daySeries, utcDate, utcDate,
    dayLength, second]
  omega

/-- The chart and the totals tally alike if and only if their differences do. -/
theorem series_eq_window_iff (f : DownloadEventRow → Int) :
    tally f (inSeries now days) s.events = tally f (inWindow now days) s.events ↔
      tally f (early now days) s.events = tally f (late now) s.events := by
  rw [tally_eq_iff, tally_congr (fun e _ => inSeries_not_inWindow e),
    tally_congr (fun e _ => inWindow_not_inSeries e)]

end Window

/-- What the report says of itself. -/
structure DownloadReport.Agrees (report : DownloadReport) (s : State) (limit : Nat) : Prop where
  dailyDownloads : (report.daily.map (·.downloads)).sum = report.totals.downloads
  dailyBytes : (report.daily.map (·.bytesPlanned)).sum = report.totals.bytesPlanned
  kinds : report.totals.fullDownloads + report.totals.deltaDownloads = report.totals.downloads
  games : s.gamesWithEvents.length ≤ limit →
    (report.topGames.map (·.downloads)).sum = report.totals.downloads ∧
    (report.topGames.map (·.bytesPlanned)).sum = report.totals.bytesPlanned

/-- **When the parts of a report are about the same events.** -/
theorem downloadReport_agrees_iff (env : Env) (s : State) (hs : Referenced s)
    (toChar : Int → Bytes) (now days limit : Nat) (report : DownloadReport)
    (h : s.downloadReport env toChar now days limit = some report) :
    report.Agrees s limit ↔ Balanced s now days := by
  obtain ⟨totals, htotals, h⟩ := Option.bind_eq_some_iff.mp h
  obtain ⟨daily, hdaily, h⟩ := Option.bind_eq_some_iff.mp h
  obtain ⟨games, hgames, h⟩ := Option.bind_eq_some_iff.mp h
  obtain rfl := Option.some.inj h
  obtain ⟨hdownloads, hbytes, hkinds⟩ := downloadTotals_eq htotals
  obtain ⟨hdays, hdayBytes⟩ := daily_eq hdaily
  constructor
  · intro hagrees
    refine ⟨(series_eq_window_iff _).mp ?_, (series_eq_window_iff _).mp ?_⟩
    · exact hdays.symm.trans (hagrees.dailyDownloads.trans hdownloads)
    · exact hdayBytes.symm.trans (hagrees.dailyBytes.trans hbytes)
  · intro hbalanced
    refine ⟨?_, ?_, hkinds.trans hdownloads.symm, fun hlimit => ?_⟩
    · have hseries := (series_eq_window_iff _).mpr hbalanced.downloads
      exact hdays.trans (hseries.trans hdownloads.symm)
    · have hseries := (series_eq_window_iff _).mpr hbalanced.bytesPlanned
      exact hdayBytes.trans (hseries.trans hbytes.symm)
    · obtain ⟨hgroups, hgroupBytes⟩ := topGames_eq env hs hgames hlimit
      exact ⟨hgroups.trans hdownloads.symm, hgroupBytes.trans hbytes.symm⟩

/-- Without events in the future, the first day has to have none before the instant. -/
theorem balanced_of_past {s : State} {now days : Nat} (h : ∀ e ∈ s.events, e.createdAt ≤ now) :
    Balanced s now days ↔ ∀ e ∈ s.events, early now days e = false := by
  have hlate : ∀ e ∈ s.events, late now e = false := by
    intro e he
    have hpast := h e he
    rw [late, decide_eq_false_iff_not, utcDate, utcDate]
    have hdate : e.createdAt / dayLength ≤ now / dayLength := Nat.div_le_div_right hpast
    omega
  have hnone : ∀ (f : DownloadEventRow → Int) (p : DownloadEventRow → Bool),
      (∀ e ∈ s.events, p e = false) → tally f p s.events = 0 := by
    intro f p hp
    rw [tally_congr (q := fun _ => false) hp]
    simp [tally]
  constructor
  · intro hbalanced e he
    have hcount := hbalanced.downloads
    rw [State.countEvents, State.countEvents, hnone _ _ hlate, tally_count] at hcount
    have hempty := List.eq_nil_of_length_eq_zero (Int.natCast_eq_zero.mp hcount)
    simpa using List.filter_eq_nil_iff.mp hempty e he
  · intro hearly
    exact ⟨(hnone _ _ hearly).trans (hnone _ _ hlate).symm,
      (hnone _ _ hearly).trans (hnone _ _ hlate).symm⟩

/-! ## Events belong to games

The foreign key, in every state of a run: with a game its events go too. -/

section Reference

variable {env : Env} {s s' : State}

theorem Referenced.of_same (h : Referenced s) (he : Same s s' .events) (hg : Same s s' .games) :
    Referenced s' := by
  intro e hmem
  rw [show s'.events = s.events from he] at hmem
  rw [hg.1]
  exact h e hmem

/-- What a statement of the upload side leaves. -/
theorem Referenced.afterCore (h : Referenced s) (core' : Launcher.State) :
    Referenced (s.afterCore core') := by
  intro e hmem
  obtain ⟨old, hold, rfl⟩ := List.mem_map.mp hmem
  obtain ⟨hold, hkept⟩ := List.mem_filter.mp hold
  have hgame := h old hold
  simp only [hgame, Bool.true_and, Bool.not_eq_true', Option.isNone_eq_false_iff] at hkept
  exact hkept

theorem Referenced.exec (h : Referenced s) (choice : Choice) {α : Type} (c : Call α) :
    Referenced (exec env choice c s).2 := by
  cases c with
  | core c => exact h.afterCore _
  | removeGame id => exact h.afterCore _
  | createGame game =>
      obtain e | ⟨_, _, _, _, e⟩ := s.createGame_cases env choice game <;> rw [Storefront.exec, e]
      · exact h
      · intro event hevent
        have hgame := h event hevent
        dsimp only
        rw [Table.find?_insert, Option.isSome_or, hgame, Bool.true_or]
  | updateGame id changes =>
      obtain e | ⟨_, _, _, e⟩ := s.updateGame_cases env id changes <;> rw [Storefront.exec, e]
      · exact h
      · intro event hevent
        have hgame := h event hevent
        dsimp only
        rw [Table.find?_modify]
        split_ifs with hid
        · rw [Option.isSome_map, ← hid]
          exact hgame
        · exact hgame
  | recordEvent event =>
      show Referenced (s.recordEvent event).2
      unfold State.recordEvent
      split_ifs with hkeys
      · exact h
      · exact h
      · intro e he
        rcases List.mem_append.mp he with he | he
        · exact h e he
        · rw [List.mem_singleton.mp he]
          simp only [Bool.or_eq_true, not_or, Option.isNone_iff_eq_none, ← ne_eq,
            Option.ne_none_iff_isSome] at hkeys
          exact hkeys.1.1.1
  | _ => exact h.of_same (exec_same env choice s _ rfl) (exec_same env choice s _ rfl)

/-- **Every event of a run is one of a game that is there.** -/
theorem referenced_run (env : Env) (w : Server) (hw : Initial w) (ls : List Move) :
    Referenced ((storefront env).run w ls).shared := by
  refine System.shared_invariant (fun choice c s h => h.exec choice c) (fun e s h => ?_) ls w ?_
  · cases e <;> exact h
  · intro e he
    rw [hw.events] at he
    cases he

end Reference

section Demo

/-- The days of April 1970, the ninetieth day of the epoch being the first. -/
def april (day : Int) : Bytes := ascii "1970-04-" ++ Timestamptz.padded 2 (day - 89).toNat

/-- One game, and these downloads of it. -/
def logged (events : List DownloadEventRow) : State :=
  { Storefront.Demo.empty with
    core := { Storefront.Demo.empty.core with
      games := Table.empty.insert ⟨4, ascii "game", 1, .Public⟩ }
    events := events }

/-- A first install, planned at an hour of a day. -/
def install (day hour : Nat) : DownloadEventRow :=
  ⟨4, some 6, some 3, none, .Full, 1000, day * dayLength + hour * (3600 * second)⟩

theorem referenced_logged {events : List DownloadEventRow} (h : ∀ e ∈ events, e.gameId = 4) :
    Referenced (logged events) := by
  intro e he
  rw [h e he]
  rfl

/-- Noon of 11 April. -/
def noon : Nat := 100 * dayLength + 12 * (3600 * second)

/-- The report of a week, with a download in the evening of its first day and one today. -/
theorem report_agrees_evening : ∃ report,
    (logged [install 93 20, install 100 8]).downloadReport Storefront.Demo.env april noon 7 10 =
      some report ∧ report.Agrees (logged [install 93 20, install 100 8]) 10 := by
  obtain ⟨report, hreport⟩ := Option.isSome_iff_exists.mp (show
    ((logged [install 93 20, install 100 8]).downloadReport Storefront.Demo.env april noon 7
      10).isSome = true by decide +kernel)
  refine ⟨report, hreport, (downloadReport_agrees_iff Storefront.Demo.env _
    (referenced_logged (by decide)) april noon 7 10 report hreport).mpr ?_⟩
  exact ⟨by decide +kernel, by decide +kernel⟩

/-- A download in the morning of the first day is in the chart and not in the totals. -/
theorem report_disagrees_morning : Referenced (logged [install 93 8]) ∧ ∃ report,
    (logged [install 93 8]).downloadReport Storefront.Demo.env april noon 7 10 = some report ∧
    ¬report.Agrees (logged [install 93 8]) 10 := by
  have hreferenced : Referenced (logged [install 93 8]) := referenced_logged (by decide)
  have hsums : ((logged [install 93 8]).downloadReport Storefront.Demo.env april noon 7 10).map
      (fun report => ((report.daily.map (·.downloads)).sum, report.totals.downloads)) =
        some (1, 0) := by decide +kernel
  obtain ⟨report, hreport, hsums⟩ := Option.map_eq_some_iff.mp hsums
  refine ⟨hreferenced, report, hreport, fun hagrees => ?_⟩
  obtain ⟨hdaily, htotals⟩ := Prod.mk.inj hsums
  exact absurd (hdaily.symm.trans (hagrees.dailyDownloads.trans htotals)) (by decide)

end Demo

end Launcher.Storefront
