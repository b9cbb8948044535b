import Launcher.Domain.DeltaPlans

set_option autoImplicit false

/-! # A directory over many updates

A client updates a game from version to version. An update is either applied as a delta from start
to end, or it is broken off, any number of times and after any steps, and then repaired by a full
download of the same version. In the end the directory holds the files of the last version, no file
of a version before it, and what no version has ever listed is as it was (`updates_installed`). -/

namespace Launcher.DeltaPlans

open Launcher.Lib

abbrev Paths := Bytes → Option Bytes

def paths (entries : List ManifestEntry) : List Bytes := entries.map (·.relativePath)

/-- One update: the steps executed before it was broken off for the last time, and the steps of
the attempt that came to its end. -/
structure Update where
  target : List ManifestEntry
  interrupted : List (Plans.Step Bytes (Option Bytes))
  order : List (Plans.Step Bytes (Option Bytes))

/-- The steps are those of the plans from the installed version to the target, in any order. -/
structure Update.From (installed : List ManifestEntry) (update : Update) : Prop where
  nodup : (paths update.target).Nodup
  interrupted : ∀ step ∈ update.interrupted,
    step ∈ steps (computeDelta installed update.target) ∨
      step ∈ steps (fullDownload installed update.target)
  completed : update.order.Perm (steps (fullDownload installed update.target)) ∨
    update.interrupted = [] ∧ update.order.Perm (steps (computeDelta installed update.target))

def Update.run (directory : Paths) (update : Update) : Paths :=
  Plans.run (Plans.run directory update.interrupted) update.order

/-- Each update starts from the version the one before it has installed. -/
def Chain : List ManifestEntry → List Update → Prop
  | _, [] => True
  | installed, update :: rest => update.From installed ∧ Chain update.target rest

/-- The version that is installed after the updates. -/
def lastTarget : List ManifestEntry → List Update → List ManifestEntry
  | installed, [] => installed
  | _, update :: rest => lastTarget update.target rest

/-- The directory has the files of the installed version, nothing at the other paths of the
versions before it, and elsewhere what `base` has. -/
structure Holds (base : Paths) (past : List Bytes) (installed : List ManifestEntry)
    (directory : Paths) : Prop where
  present : ∀ path ∈ paths installed, directory path = contents installed path
  removed : ∀ path ∉ paths installed, path ∈ past → directory path = none
  other : ∀ path ∉ paths installed, path ∉ past → directory path = base path

section Step

variable {base directory : Paths} {past : List Bytes} {installed : List ManifestEntry}
  {update : Update}

theorem steps_paths {target : List ManifestEntry} {delta : BuildDelta}
    (h : Correct installed target delta) {step : Plans.Step Bytes (Option Bytes)}
    (hstep : step ∈ steps delta) :
    step.target ∈ paths installed ∨ step.target ∈ paths target := by
  have htarget : step.target ∈ (steps delta).map Plans.Step.target := List.mem_map_of_mem hstep
  rw [steps_targets, List.mem_append] at htarget
  rcases htarget with hfetch | hremove
  · obtain ⟨file, hfile, hpath⟩ := List.mem_map.mp hfetch
    right
    rw [← hpath]
    exact List.mem_map_of_mem (h.partition.mem_iff.mp
      (List.mem_append_left _ (List.mem_map_of_mem hfile)))
  · exact Or.inl ((h.removed _).mp hremove).1

/-- What was done before an update was broken off is within the paths of its two versions. -/
theorem interrupted_elsewhere (hi : (paths installed).Nodup) (hu : update.From installed)
    {path : Bytes} (hinstalled : path ∉ paths installed) (htarget : path ∉ paths update.target) :
    Plans.run directory update.interrupted path = directory path := by
  refine Plans.run_other directory (fun hmem => ?_)
  obtain ⟨step, hstep, rfl⟩ := List.mem_map.mp hmem
  have hpath : step.target ∈ paths installed ∨ step.target ∈ paths update.target := by
    rcases hu.interrupted step hstep with hdelta | hfull
    · exact steps_paths (correct_computeDelta hi hu.nodup) hdelta
    · exact steps_paths (correct_fullDownload hi hu.nodup) hfull
  rcases hpath with h | h
  · exact hinstalled h
  · exact htarget h

/-- A completed update makes of the directory what its plan says. -/
theorem Update.run_replaced (hi : (paths installed).Nodup) (hu : update.From installed)
    (hd : Holds base past installed directory) : update.run directory =
      replaced installed update.target (Plans.run directory update.interrupted) := by
  rcases hu.completed with hfull | ⟨hnone, hdelta⟩
  · refine (correct_fullDownload hi hu.nodup).run hu.nodup (fun u hmem => ?_) hfull
    -- a full download relies on nothing that is there
    rw [fullDownload_eq] at hmem
    exact absurd hmem List.not_mem_nil
  · refine (correct_computeDelta hi hu.nodup).run hu.nodup (fun u hmem => ?_) hdelta
    rw [hnone]
    have hkept : contents installed u.relativePath = some u.blobSha256 := by
      rw [computeDelta_eq] at hmem
      have hfilter := (sortByPath_perm _).mem_iff.mp hmem
      exact decide_eq_true_iff.mp (List.mem_filter.mp hfilter).2
    have hpath : u.relativePath ∈ paths installed := by
      by_contra hnot
      rw [contents_eq_none.mpr hnot] at hkept
      cases hkept
    show directory u.relativePath = _
    rw [hd.present _ hpath, hkept]

section Replaced

variable {target : List ManifestEntry} {path : Bytes}

theorem replaced_target (h : path ∈ paths target) :
    replaced installed target directory path = contents target path := if_pos h

theorem replaced_installed (h : path ∉ paths target) (h' : path ∈ paths installed) :
    replaced installed target directory path = none := (if_neg h).trans (if_pos h')

theorem replaced_other (h : path ∉ paths target) (h' : path ∉ paths installed) :
    replaced installed target directory path = directory path := (if_neg h).trans (if_neg h')

end Replaced

/-- **One update**, whatever it was interrupted by. -/
theorem Holds.step (hi : (paths installed).Nodup) (hu : update.From installed)
    (hd : Holds base past installed directory) :
    Holds base (paths installed ++ past) update.target (update.run directory) := by
  have hother : ∀ path, path ∉ paths update.target → path ∉ paths installed →
      update.run directory path = directory path := by
    intro path htarget hinstalled
    rw [Update.run_replaced hi hu hd, replaced_other htarget hinstalled,
      interrupted_elsewhere hi hu hinstalled htarget]
  refine ⟨fun path htarget => ?_, fun path htarget hpast => ?_, fun path htarget hpast => ?_⟩
  · rw [Update.run_replaced hi hu hd]
    exact replaced_target htarget
  · by_cases hinstalled : path ∈ paths installed
    · rw [Update.run_replaced hi hu hd]
      exact replaced_installed htarget hinstalled
    · rw [hother path htarget hinstalled]
      exact hd.removed path hinstalled ((List.mem_append.mp hpast).resolve_left hinstalled)
  · obtain ⟨hinstalled, hbefore⟩ := not_or.mp (fun h => hpast (List.mem_append.mpr h))
    rw [hother path htarget hinstalled]
    exact hd.other path hinstalled hbefore

end Step

theorem Holds.updates {base : Paths} : ∀ {updates : List Update} {past : List Bytes}
    {installed : List ManifestEntry} {directory : Paths}, (paths installed).Nodup →
    Chain installed updates → Holds base past installed directory →
    ∃ before, (∀ path, path ∈ before ↔ path ∈ past ∨ path ∈ paths installed ∨
        ∃ update ∈ updates, path ∈ paths update.target) ∧
      Holds base before (lastTarget installed updates) (updates.foldl Update.run directory)
  | [], past, installed, directory, _, _, hd => by
      refine ⟨past ++ paths installed, fun path => by simp, hd.present,
        fun path h hpast => ?_, fun path h hpast => ?_⟩
      · exact hd.removed path h ((List.mem_append.mp hpast).resolve_right h)
      · exact hd.other path h (fun hmem => hpast (List.mem_append_left _ hmem))
  | update :: rest, past, installed, directory, hi, hchain, hd => by
      obtain ⟨before, hbefore, hlast⟩ :=
        Holds.updates hchain.1.nodup hchain.2 (hd.step hi hchain.1)
      refine ⟨before, fun path => ?_, hlast⟩
      rw [hbefore]
      simp only [List.mem_append, List.mem_cons, exists_eq_or_imp]
      tauto

/-- **However many updates, interrupted or not.** A client that starts without the game and
updates it from version to version ends with the files of the last version; nothing is left of
the others, and what none of them lists is untouched. -/
theorem updates_installed (base : Paths) {updates : List Update} (h : Chain [] updates)
    (path : Bytes) : updates.foldl Update.run base path =
      if path ∈ paths (lastTarget [] updates) then contents (lastTarget [] updates) path
      else if ∃ update ∈ updates, path ∈ paths update.target then none else base path := by
  have hstart : Holds base [] [] base := ⟨fun _ h => absurd h List.not_mem_nil,
    fun _ _ h => absurd h List.not_mem_nil, fun _ _ _ => rfl⟩
  obtain ⟨before, hbefore, hlast⟩ :=
    Holds.updates (show (paths []).Nodup from List.nodup_nil) h hstart
  have hiff : path ∈ before ↔ ∃ update ∈ updates, path ∈ paths update.target := by
    rw [hbefore]
    simp [paths]
  split_ifs with hmem hpast
  · exact hlast.present path hmem
  · exact hlast.removed path hmem (hiff.mpr hpast)
  · exact hlast.other path hmem (fun h => hpast (hiff.mp h))

/-- The game is installed; its update is broken off after two steps and repaired. -/
def twoUpdates : List Update :=
  [⟨before, [], steps (computeDelta [] before)⟩,
    ⟨afterwards, (steps (computeDelta before afterwards)).take 2,
      steps (fullDownload before afterwards)⟩]

theorem updates_installed_twoUpdates :
    twoUpdates.foldl Update.run (fun _ => none) (ascii "a") = some (ascii "y") ∧
    twoUpdates.foldl Update.run (fun _ => none) (ascii "e") = none := by
  have hchain : Chain [] twoUpdates := by
    refine ⟨⟨by decide, fun _ h => absurd h List.not_mem_nil, Or.inr ⟨rfl, List.Perm.refl _⟩⟩,
      ⟨by decide, fun step h => Or.inl (List.mem_of_mem_take h), Or.inl (List.Perm.refl _)⟩,
      trivial⟩
  rw [updates_installed _ hchain, updates_installed _ hchain]
  decide

end Launcher.DeltaPlans
