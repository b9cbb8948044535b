import Launcher.Domain.Updates
import Launcher.Invariants.ContentAddress

set_option autoImplicit false

/-! # The bytes of an installed game

The plans of an update are about hashes; a client writes bytes. For each blob it fetches what is at
the blob's address in the store at some moment, while uploads go on and the collector removes what
nobody refers to. An attempt that is broken off may leave anything at the paths of its two versions,
half a file as well. `bytes_installed`: after any number of updates, over any run of the server,
the files of the last version have the contents that its manifest lists. -/

namespace Launcher.Installs

open Launcher.Lib DeltaPlans

/-- At some moment of the run, `content` is what the store has at the address of `sha256`. -/
def Served (env : Env) (w : Server) (ls : List Move) (sha256 content : Bytes) : Prop :=
  ∃ k p, pathFor sha256 = some p ∧
    ((server env).run w (ls.take k)).shared.files p = some content

/-- What the client writes for a step of its plan: a file that it is served, nothing, or what is at
another path of the directory. -/
inductive Writes (env : Env) (w : Server) (ls : List Move) :
    Plans.Source Bytes (Option Bytes) → Plans.Source Bytes (Option Bytes) → Prop
  | fetch {sha256 content : Bytes} (h : Served env w ls sha256 content) :
      Writes env w ls (.value (some sha256)) (.value (some content))
  | delete : Writes env w ls (.value none) (.value none)
  | copy (path : Bytes) : Writes env w ls (.read path) (.read path)

/-- A step of the plan, and the same step as the client has executed it. -/
structure Executes (env : Env) (w : Server) (ls : List Move)
    (step done : Plans.Step Bytes (Option Bytes)) : Prop where
  target : done.target = step.target
  source : Writes env w ls step.source done.source

/-- One update: the directory as the attempts that were broken off have left it, and the attempt
that came to its end. -/
structure Install where
  target : List ManifestEntry
  start : Paths
  order : List (Plans.Step Bytes (Option Bytes))
  executed : List (Plans.Step Bytes (Option Bytes))

def Install.run (install : Install) : Paths := Plans.run install.start install.executed

/-- A full download repairs whatever was left at the paths of the two versions; a delta needs the
directory as it was. -/
structure Install.From (env : Env) (w : Server) (ls : List Move) (installed : List ManifestEntry)
    (directory : Paths) (install : Install) : Prop where
  nodup : (paths install.target).Nodup
  planned : (install.order.Perm (steps (fullDownload installed install.target)) ∧
      ∀ path, path ∉ paths installed → path ∉ paths install.target →
        install.start path = directory path) ∨
    (install.order.Perm (steps (computeDelta installed install.target)) ∧
      install.start = directory)
  executed : List.Forall₂ (Executes env w ls) install.order install.executed

/-- Each update starts from the version and the directory that the one before it has left. -/
def Chained (env : Env) (w : Server) (ls : List Move) :
    List ManifestEntry → Paths → List Install → Prop
  | _, _, [] => True
  | installed, directory, install :: rest => install.From env w ls installed directory ∧
      Chained env w ls install.target install.run rest

def lastVersion (installed : List ManifestEntry) (installs : List Install) : List ManifestEntry :=
  installs.foldl (fun _ install => install.target) installed

def lastDirectory (directory : Paths) (installs : List Install) : Paths :=
  installs.foldl (fun _ install => install.run) directory

/-- The directory has the contents that the installed version lists, nothing at the other paths of
the versions before it, and elsewhere what `base` has. -/
structure Verified (env : Env) (base : Paths) (past : List Bytes)
    (installed : List ManifestEntry) (directory : Paths) : Prop where
  present : ∀ path ∈ paths installed,
    (directory path).map env.sha256Hex = contents installed path
  removed : ∀ path ∉ paths installed, path ∈ past → directory path = none
  other : ∀ path ∉ paths installed, path ∉ past → directory path = base path

section Step

variable {env : Env} {w : Server} {ls : List Move} {base directory : Paths} {past : List Bytes}
  {installed : List ManifestEntry} {install : Install}

/-- Every file that is ever served has the hash it is asked for. -/
theorem Served.hash (hw : Initial w) {sha256 content : Bytes} (h : Served env w ls sha256 content) :
    env.sha256Hex content = sha256 := by
  obtain ⟨k, p, hp, hc⟩ := h
  exact addressed_run env hw (ls.take k) sha256 p content hp hc

theorem Executes.hash (hw : Initial w) {step done : Plans.Step Bytes (Option Bytes)}
    (h : Executes env w ls step done) : done.map (Option.map env.sha256Hex) = step := by
  obtain ⟨target, source⟩ := step
  obtain ⟨target', source'⟩ := done
  obtain ⟨htarget, hsource⟩ := h
  obtain rfl : target' = target := htarget
  cases hsource with
  | fetch hserved =>
      have hhash := hserved.hash hw
      subst hhash
      rfl
  | delete => rfl
  | copy path => rfl

/-- The hashes of what has been executed are the plan. -/
theorem hashes_executed (hw : Initial w) {order executed : List (Plans.Step Bytes (Option Bytes))}
    (h : List.Forall₂ (Executes env w ls) order executed) :
    executed.map (Plans.Step.map (Option.map env.sha256Hex)) = order := by
  induction h with
  | nil => rfl
  | cons hstep _ ih =>
      rw [List.map_cons, ih, hstep.hash hw]

theorem targets_executed {order executed : List (Plans.Step Bytes (Option Bytes))}
    (h : List.Forall₂ (Executes env w ls) order executed) :
    executed.map Plans.Step.target = order.map Plans.Step.target := by
  induction h with
  | nil => rfl
  | cons hstep _ ih => rw [List.map_cons, List.map_cons, ih, hstep.target]

/-- What is at a path that neither version lists stays there. -/
theorem Install.run_elsewhere (hi : (paths installed).Nodup)
    (h : install.From env w ls installed directory) {path : Bytes}
    (hinstalled : path ∉ paths installed) (htarget : path ∉ paths install.target) :
    install.run path = directory path := by
  have hstart : install.start path = directory path := by
    rcases h.planned with ⟨_, hleft⟩ | ⟨_, hsame⟩
    · exact hleft path hinstalled htarget
    · rw [hsame]
  have hpaths : ∀ step ∈ install.order,
      step.target ∈ paths installed ∨ step.target ∈ paths install.target := by
    intro step hstep
    rcases h.planned with ⟨hfull, _⟩ | ⟨hdelta, _⟩
    · exact steps_paths (correct_fullDownload hi h.nodup) (hfull.mem_iff.mp hstep)
    · exact steps_paths (correct_computeDelta hi h.nodup) (hdelta.mem_iff.mp hstep)
  rw [← hstart]
  refine Plans.run_other install.start (fun hmem => ?_)
  rw [targets_executed h.executed] at hmem
  obtain ⟨step, hstep, rfl⟩ := List.mem_map.mp hmem
  rcases hpaths step hstep with hin | hin
  · exact hinstalled hin
  · exact htarget hin

/-- To the hashes of the files the attempt does what its plan says. -/
theorem Install.run_hashes (hw : Initial w) (hi : (paths installed).Nodup)
    (h : install.From env w ls installed directory)
    (hd : Verified env base past installed directory) :
    Option.map env.sha256Hex ∘ install.run =
      replaced installed install.target (Option.map env.sha256Hex ∘ install.start) := by
  have hrun : Option.map env.sha256Hex ∘ install.run =
      Plans.run (Option.map env.sha256Hex ∘ install.start) install.order := by
    rw [← hashes_executed hw h.executed, Plans.run_map]
    rfl
  rw [hrun]
  rcases h.planned with ⟨hfull, _⟩ | ⟨hdelta, hsame⟩
  · refine (correct_fullDownload hi h.nodup).run h.nodup (fun u hu => ?_) hfull
    -- a full download relies on nothing that is there
    rw [fullDownload_eq] at hu
    exact absurd hu List.not_mem_nil
  · refine (correct_computeDelta hi h.nodup).run h.nodup (fun u hu => ?_) hdelta
    have hkept := (correct_computeDelta hi h.nodup).kept h.nodup hu
    have hpath : u.relativePath ∈ paths installed := by
      by_contra hnot
      rw [contents_eq_none.mpr hnot] at hkept
      cases hkept
    rw [hsame, ← hkept]
    exact hd.present _ hpath

/-- **One update**, over any run of the server and whatever was left to begin with. -/
theorem Verified.step (hw : Initial w) (hi : (paths installed).Nodup)
    (h : install.From env w ls installed directory)
    (hd : Verified env base past installed directory) :
    Verified env base (paths installed ++ past) install.target install.run := by
  have hhash : ∀ path, (install.run path).map env.sha256Hex = replaced installed install.target
      (Option.map env.sha256Hex ∘ install.start) path :=
    congrFun (Install.run_hashes hw hi h hd)
  refine ⟨fun path htarget => ?_, fun path htarget hpast => ?_, fun path htarget hpast => ?_⟩
  · rw [hhash]
    exact replaced_target htarget
  · by_cases hinstalled : path ∈ paths installed
    · have hnone := hhash path
      rw [replaced_installed htarget hinstalled] at hnone
      exact Option.map_eq_none_iff.mp hnone
    · rw [Install.run_elsewhere hi h hinstalled htarget]
      exact hd.removed path hinstalled ((List.mem_append.mp hpast).resolve_left hinstalled)
  · obtain ⟨hinstalled, hbefore⟩ := not_or.mp (fun hmem => hpast (List.mem_append.mpr hmem))
    rw [Install.run_elsewhere hi h hinstalled htarget]
    exact hd.other path hinstalled hbefore

end Step

theorem Verified.installs {env : Env} {w : Server} (hw : Initial w) {ls : List Move}
    {base : Paths} : ∀ {installs : List Install} {past : List Bytes}
    {installed : List ManifestEntry} {directory : Paths}, (paths installed).Nodup →
    Chained env w ls installed directory installs →
    Verified env base past installed directory →
    ∃ before, (∀ path, path ∈ before ↔ path ∈ past ∨ path ∈ paths installed ∨
        ∃ install ∈ installs, path ∈ paths install.target) ∧
      Verified env base before (lastVersion installed installs) (lastDirectory directory installs)
  | [], past, installed, directory, _, _, hd => by
      refine ⟨past ++ paths installed, fun path => by simp, hd.present,
        fun path h hpast => ?_, fun path h hpast => ?_⟩
      · exact hd.removed path h ((List.mem_append.mp hpast).resolve_right h)
      · exact hd.other path h (fun hmem => hpast (List.mem_append_left _ hmem))
  | install :: rest, past, installed, directory, hi, hchain, hd => by
      obtain ⟨before, hbefore, hlast⟩ :=
        Verified.installs hw hchain.1.nodup hchain.2 (hd.step hw hi hchain.1)
      refine ⟨before, fun path => ?_, hlast⟩
      rw [hbefore]
      simp only [List.mem_append, List.mem_cons, exists_eq_or_imp]
      tauto

/-- **The right bytes, whatever happens in between.** A client that starts without the game and
updates it from version to version ends with files of exactly the contents that the last version
lists; nothing is left of the others, and what none of them lists is untouched. -/
theorem bytes_installed (env : Env) {w : Server} (hw : Initial w) (ls : List Move) (base : Paths)
    {installs : List Install} (h : Chained env w ls [] base installs) (path : Bytes) :
    if path ∈ paths (lastVersion [] installs) then
      ∃ content, lastDirectory base installs path = some content ∧
        contents (lastVersion [] installs) path = some (env.sha256Hex content)
    else lastDirectory base installs path =
      if ∃ install ∈ installs, path ∈ paths install.target then none else base path := by
  have hstart : Verified env base [] [] base := ⟨fun _ hmem => absurd hmem List.not_mem_nil,
    fun _ _ hmem => absurd hmem List.not_mem_nil, fun _ _ _ => rfl⟩
  obtain ⟨before, hbefore, hlast⟩ :=
    Verified.installs hw (show (paths []).Nodup from List.nodup_nil) h hstart
  have hiff : path ∈ before ↔ ∃ install ∈ installs, path ∈ paths install.target := by
    rw [hbefore]
    simp [paths]
  split_ifs with hmem hpast
  · have hfile := hlast.present path hmem
    cases hcontent : lastDirectory base installs path with
    | none =>
        rw [hcontent] at hfile
        exact absurd hmem (contents_eq_none.mp hfile.symm)
    | some content =>
        rw [hcontent] at hfile
        exact ⟨content, rfl, hfile.symm⟩
  · exact hlast.removed path hmem (hiff.mpr hpast)
  · exact hlast.other path hmem (fun hbefore => hpast (hiff.mp hbefore))

section Demo

open Launcher.Demo

/-- The game is one file, which its update renames; of the new file, half is written when the first
attempt is broken off. -/
def renamed : List Install :=
  [⟨[file (ascii "a") shaA 1], fun _ => none, steps (computeDelta [] [file (ascii "a") shaA 1]),
      [⟨ascii "a", .value (some contentA)⟩]⟩,
    ⟨[file (ascii "b") shaA 1],
      Function.update (fun path => if path = ascii "a" then some contentA else none) (ascii "b")
        (some []),
      steps (fullDownload [file (ascii "a") shaA 1] [file (ascii "b") shaA 1]),
      [⟨ascii "b", .value (some contentA)⟩, ⟨ascii "a", .value none⟩]⟩]

theorem served_stored : Served env Demo.start stored shaA contentA :=
  ⟨stored.length, (pathFor shaA).getD [], by decide +kernel, by decide +kernel⟩

theorem chained_renamed : Chained env Demo.start stored [] (fun _ => none) renamed := by
  have hfetch : ∀ path, Executes env Demo.start stored ⟨path, .value (some shaA)⟩
      ⟨path, .value (some contentA)⟩ := fun path => ⟨rfl, .fetch served_stored⟩
  refine ⟨⟨by decide, Or.inr ⟨List.Perm.refl _, rfl⟩, .cons (hfetch _) .nil⟩,
    ⟨by decide, Or.inl ⟨List.Perm.refl _, fun path ha hb => ?_⟩,
      .cons (hfetch _) (.cons ⟨rfl, .delete⟩ .nil)⟩, trivial⟩
  -- neither file is meant, and nothing else was touched
  have hna : path ≠ ascii "a" := fun h => ha (by rw [h]; decide)
  have hnb : path ≠ ascii "b" := fun h => hb (by rw [h]; decide)
  have hbefore : Plans.run (fun _ => none) [⟨ascii "a", .value (some contentA)⟩] path = none :=
    Plans.run_other _ (by simpa using hna)
  have hleft : Function.update (fun path => if path = ascii "a" then some contentA else none)
      (ascii "b") (some []) path = none := by
    rw [Function.update_of_ne hnb, if_neg hna]
  exact hleft.trans hbefore.symm

/-- The renamed file is whole, and the old name is gone. -/
theorem bytes_installed_renamed :
    (∃ content, lastDirectory (fun _ => none) renamed (ascii "b") = some content ∧
      some shaA = some (env.sha256Hex content)) ∧
    lastDirectory (fun _ => none) renamed (ascii "a") = none := by
  have hb := bytes_installed env initial_start stored (fun _ => none) chained_renamed (ascii "b")
  have ha := bytes_installed env initial_start stored (fun _ => none) chained_renamed (ascii "a")
  rw [if_pos (by decide)] at hb
  rw [if_neg (by decide), if_pos (by decide)] at ha
  exact ⟨hb, ha⟩

end Demo

end Launcher.Installs
