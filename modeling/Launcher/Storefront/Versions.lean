import Launcher.Domain.Versions
import Launcher.Storefront.Artwork
import Launcher.Storefront.Rows

set_option autoImplicit false

/-! # One version, one row

The table keeps the texts of a game's versions apart, the list orders them by their numbers.
A text is at most one spelling of its numbers for each number of components, so the two agree
exactly as long as no version is written again with another number of components. -/

namespace Launcher.Storefront

open Launcher.Lib

/-- Of two versions the first has the higher numbers. -/
def Newer (a b : VersionRecord) : Prop :=
  b.semver.major < a.semver.major ∨ (b.semver.major = a.semver.major ∧
    (b.semver.minor < a.semver.minor ∨ (b.semver.minor = a.semver.minor ∧
      b.semver.patch < a.semver.patch)))

/-- `(version_major, version_minor, version_patch)`. -/
def numbers (version : Semver) : Nat × Nat × Nat := (version.major, version.minor, version.patch)

/-- `f` tells the versions of a game apart. -/
def Apart {β : Type} (f : Semver → β) (s : State) : Prop :=
  ∀ v ∈ s.core.versions, ∀ v' ∈ s.core.versions, v.gameId = v'.gameId →
    f (s.versionColumns v.id).semver = f (s.versionColumns v'.id).semver → v = v'

/-- A game has one row for each version, and lists them in strict order. -/
structure OneRowEach (s : State) : Prop where
  rows : Apart numbers s
  listed : ∀ gameId includeUnpublished,
    (s.listVersions gameId includeUnpublished).Pairwise Newer

/-! ## The order of the list -/

theorem versionLe_iff {a b : VersionRecord} : State.versionLe a b = true ↔
    Newer a b ∨ (b.semver.major = a.semver.major ∧ b.semver.minor = a.semver.minor ∧
      b.semver.patch = a.semver.patch ∧ b.createdAt ≤ a.createdAt) := by
  simp only [State.versionLe, Newer]
  split_ifs <;> simp only [decide_eq_true_eq] <;> omega

theorem listVersions_sorted (s : State) (gameId : Uuid) (includeUnpublished : Bool) :
    (s.listVersions gameId includeUnpublished).Pairwise (fun a b => State.versionLe a b = true) := by
  have htotal : Std.Total (fun a b : VersionRecord => State.versionLe a b = true) := ⟨by
    intro a b
    rw [versionLe_iff, versionLe_iff]
    simp only [Newer]
    omega⟩
  have htrans : IsTrans VersionRecord (fun a b => State.versionLe a b = true) := ⟨by
    intro a b c hab hbc
    rw [versionLe_iff] at hab hbc ⊢
    simp only [Newer] at hab hbc ⊢
    omega⟩
  exact List.pairwise_insertionSort _ _

/-- Rows with numbers of their own are listed in strict order. -/
theorem listVersions_strict {s : State} {gameId : Uuid} {includeUnpublished : Bool}
    (hrows : Apart numbers s) :
    (s.listVersions gameId includeUnpublished).Pairwise Newer := by
  have hapart : (s.listVersions gameId includeUnpublished).Pairwise
      (fun a b => numbers a.semver ≠ numbers b.semver) := by
    rw [State.listVersions, (List.perm_insertionSort _ _).pairwise_iff (fun h => h.symm),
      List.pairwise_map]
    refine List.Pairwise.imp_of_mem (R := fun v v' => v.id ≠ v'.id) ?_ ?_
    · intro v v' hv hv' hne hsame
      obtain ⟨hmem, hgame⟩ := List.mem_filter.mp hv
      obtain ⟨hmem', hgame'⟩ := List.mem_filter.mp hv'
      simp only [Bool.and_eq_true, beq_iff_eq] at hgame hgame'
      have heq := hrows v hmem v' hmem' (hgame.1.trans hgame'.1.symm) hsame
      exact hne (congrArg GameVersion.id heq)
    · exact (List.pairwise_map.mp s.core.versions.nodup).filter _
  refine (List.Pairwise.and (listVersions_sorted s gameId includeUnpublished) hapart).imp ?_
  rintro a b ⟨hle, hne⟩
  rcases versionLe_iff.mp hle with hnewer | ⟨hmajor, hminor, hpatch, -⟩
  · exact hnewer
  · exact absurd (by rw [numbers, numbers, hmajor, hminor, hpatch]) hne

/-! ## What a call does to the versions -/

/-- The version was read by `parseSemver`. -/
def Parsed (version : Semver) : Prop := ∃ input, parseSemver input = .ok version

/-- The rows hold parsed versions, and a game has no text twice. -/
structure Spelled (s : State) : Prop where
  parsed : ∀ v ∈ s.core.versions, Parsed (s.versionColumns v.id).semver
  texts : Apart (·.text) s

/-- No constraint stops the insert of the version. -/
def State.insertsVersion (env : Env) (choice : Choice) (s : State) (version : NewGameVersion) :
    Bool :=
  State.acceptsAll env [version.releaseNotes] &&
    !s.core.versions.rows.any (fun v => v.gameId == version.gameId &&
      (s.versionColumns v.id).semver.text == version.version.text) &&
    !s.core.issued.contains choice.uuid && (s.core.games.find? version.gameId).isSome

/-- Wherever the game has the version's numbers, it has them with as many components. -/
def State.spelledAlike (s : State) (version : NewGameVersion) : Bool :=
  s.core.versions.rows.all (fun v => !(v.gameId == version.gameId &&
      numbers (s.versionColumns v.id).semver == numbers version.version) ||
    (components (s.versionColumns v.id).semver.text).length ==
      (components version.version.text).length)

/-- What a call can do to the rows and texts of versions: it keeps some of them, or inserts one
that no constraint stops. -/
inductive VersionsAfter (env : Env) (choice : Choice) (s : State) {α : Type} (c : Call α)
    (s' : State) : Prop
  | kept (h : ∀ v' ∈ s'.core.versions, ∃ v ∈ s.core.versions, v.id = v'.id ∧ v.gameId = v'.gameId ∧
      (s'.versionColumns v'.id).semver = (s.versionColumns v.id).semver)
  | inserted (version : NewGameVersion) (row : GameVersion) (columns : VersionColumns)
      (hc : c.newVersion = some version) (hin : s.insertsVersion env choice version = true)
      (hgame : row.gameId = version.gameId) (hfresh : row.id ∉ s.core.issued)
      (hsemver : columns.semver = version.version)
      (hrows : s'.core.versions = s.core.versions.insert row)
      (hcolumns : s'.versionColumns = Function.update s.versionColumns row.id columns)

theorem createVersion_after (env : Env) (choice : Choice) (s : State) (version : NewGameVersion) :
    (s.insertsVersion env choice version = false ∧ (s.createVersion env choice version).2 = s) ∨
    (s.insertsVersion env choice version = true ∧ ∃ row columns, row.gameId = version.gameId ∧
      row.id ∉ s.core.issued ∧ columns.semver = version.version ∧
      (s.createVersion env choice version).2 = { s with
        core := { s.core with
          versions := s.core.versions.insert row
          issued := row.id :: s.core.issued }
        versionColumns := Function.update s.versionColumns row.id columns }) := by
  simp only [State.createVersion, State.insertsVersion]
  split
  case isTrue h => exact Or.inl ⟨by simp_all, rfl⟩
  case isFalse htext =>
    split
    case isTrue h => exact Or.inl ⟨by simp [h], rfl⟩
    case isFalse hsame =>
      split
      case isTrue h =>
        refine Or.inl ⟨?_, rfl⟩
        rw [h]
        simp
      case isFalse hfresh =>
        split
        case isTrue h => exact Or.inl ⟨by simp [Option.isNone_iff_eq_none.mp h], rfl⟩
        case isFalse hgame =>
          refine Or.inr ⟨?_, ⟨choice.uuid, version.gameId, version.publish⟩, _, rfl,
            by simpa using hfresh, ?_, rfl⟩
          · rw [Option.isNone_iff_eq_none, ← ne_eq, ← Option.isSome_iff_ne_none] at hgame
            simp_all
          · rfl

/-- An update changes neither the game nor the text of a version. -/
theorem updateVersion_after (env : Env) (choice : Choice) (s : State) (id : Uuid)
    (changes : GameVersionUpdate) :
    VersionsAfter env choice s (.updateVersion id changes)
      (exec env choice (.updateVersion id changes) s).2 := by
  have hnone : VersionsAfter env choice s (.updateVersion id changes) s :=
    .kept (fun v hv => ⟨v, hv, rfl, rfl, rfl⟩)
  simp only [exec, State.updateVersion]
  split
  case isTrue => exact hnone
  case isFalse =>
    split
    case h_1 => exact hnone
    case h_2 version hfound =>
      refine .kept (fun v' hv' => ?_)
      have hcolumns : ∀ other : Uuid, (Function.update s.versionColumns id
          ((s.versionColumns id).apply version.published changes s.core.now) other).semver =
            (s.versionColumns other).semver := by
        intro other
        by_cases hother : other = id
        · rw [hother, Function.update_self]
          rfl
        · rw [Function.update_of_ne hother]
      rcases Table.mem_modify.mp hv' with ⟨v, hv, _, rfl⟩ | ⟨hv, _⟩
      · exact ⟨v, hv, rfl, rfl, hcolumns v.id⟩
      · exact ⟨v', hv, rfl, rfl, hcolumns v'.id⟩

theorem exec_versions (env : Env) (choice : Choice) {α : Type} (c : Call α) (s : State) :
    VersionsAfter env choice s c (exec env choice c s).2 := by
  have hsame : ∀ {s' : State}, s'.core.versions = s.core.versions →
      s'.versionColumns = s.versionColumns → VersionsAfter env choice s c s' := by
    intro s' hrows hcolumns
    refine .kept (fun v hv => ⟨v, hrows ▸ hv, rfl, rfl, ?_⟩)
    rw [hcolumns]
  have hcore : ∀ {β : Type} (c' : Launcher.Call β), VersionsAfter env choice s c
      (s.afterCore (Launcher.exec env.core choice c' s.core).2) := by
    intro β c'
    obtain ⟨p, hdelete⟩ := (exec_removes env.core choice c' s.core).2
    refine .kept (fun v hv => ?_)
    have hv' : v ∈ (Launcher.exec env.core choice c' s.core).2.versions := hv
    rw [hdelete] at hv'
    exact ⟨v, (Table.mem_delete.mp hv').1, rfl, rfl, rfl⟩
  have hkept : c.writes .versions = false → Same s (exec env choice c s).2 .versions :=
    exec_same env choice s c
  cases c with
  | core c => exact hcore c
  | removeGame id => exact hcore (.removeGame id)
  | createVersion version =>
      obtain ⟨-, e⟩ | ⟨hin, row, columns, hgame, hfresh, hsemver, e⟩ :=
        createVersion_after env choice s version
      · rw [exec, e]
        exact hsame rfl rfl
      · rw [exec, e]
        exact .inserted version row columns rfl hin hgame hfresh hsemver rfl rfl
  | updateVersion id changes => exact updateVersion_after env choice s id changes
  | _ => exact hsame (hkept rfl).1 (hkept rfl).2

section Step

variable {env : Env} {choice : Choice} {s : State} {α : Type} {c : Call α}

/-- A statement that inserts only what `f` tells from the game's versions keeps them apart. -/
theorem Apart.exec {β : Type} {f : Semver → β} (h : Apart f s) (hsound : Sound s)
    (hnew : ∀ version, c.newVersion = some version → s.insertsVersion env choice version = true →
      ∀ v ∈ s.core.versions, v.gameId = version.gameId →
        f (s.versionColumns v.id).semver ≠ f version.version) :
    Apart f (Storefront.exec env choice c s).2 := by
  have hafter := exec_versions env choice c s
  generalize (Storefront.exec env choice c s).2 = s' at hafter
  intro v hv v' hv' hgame hsame
  cases hafter with
  | kept hkept =>
      obtain ⟨old, hold, hid, hgameId, hsemver⟩ := hkept v hv
      obtain ⟨old', hold', hid', hgameId', hsemver'⟩ := hkept v' hv'
      have heq := h old hold old' hold' (hgameId.trans (hgame.trans hgameId'.symm))
        (by rw [← hsemver, ← hsemver', hsame])
      exact Table.eq_of_key_eq hv hv' (by rw [← hid, ← hid', heq])
  | inserted version row columns hc hin hrow hfresh hsemver hrows hcolumns =>
      have hold : ∀ u ∈ s.core.versions, s'.versionColumns u.id = s.versionColumns u.id := by
        intro u hu
        rw [hcolumns, Function.update_of_ne]
        rintro hid
        exact hfresh (hid ▸ hsound.versions u hu)
      have hnewColumns : (s'.versionColumns row.id).semver = version.version := by
        rw [hcolumns, Function.update_self, hsemver]
      rw [hrows] at hv hv'
      rcases Table.eq_or_mem_of_mem_insert hv with hnewest | hmem
      · rcases Table.eq_or_mem_of_mem_insert hv' with hnewest' | hmem'
        · rw [hnewest, hnewest']
        · rw [hnewest, hnewColumns, hold v' hmem'] at hsame
          rw [hnewest, hrow] at hgame
          exact absurd hsame.symm (hnew version hc hin v' hmem' hgame.symm)
      · rcases Table.eq_or_mem_of_mem_insert hv' with hnewest' | hmem'
        · rw [hnewest', hnewColumns, hold v hmem] at hsame
          rw [hnewest', hrow] at hgame
          exact absurd hsame (hnew version hc hin v hmem hgame)
        · rw [hold v hmem, hold v' hmem'] at hsame
          exact h v hmem v' hmem' hgame hsame

theorem texts_new {version : NewGameVersion} (hin : s.insertsVersion env choice version = true) :
    ∀ v ∈ s.core.versions, v.gameId = version.gameId →
      (s.versionColumns v.id).semver.text ≠ version.version.text := by
  intro v hv hgame htext
  simp only [State.insertsVersion, Bool.and_eq_true, Bool.not_eq_true', List.any_eq_false] at hin
  have hno := hin.1.1.2 v hv
  simp [hgame, htext] at hno

theorem Spelled.exec (h : Spelled s) (hsound : Sound s)
    (hparsed : ∀ version, c.newVersion = some version → Parsed version.version) :
    Spelled (Storefront.exec env choice c s).2 := by
  refine ⟨?_, h.texts.exec hsound (fun version _ hin => texts_new hin)⟩
  have hafter := exec_versions env choice c s
  generalize (Storefront.exec env choice c s).2 = s' at hafter
  intro v hv
  cases hafter with
  | kept hkept =>
      obtain ⟨old, hold, -, -, hsemver⟩ := hkept v hv
      rw [hsemver]
      exact h.parsed old hold
  | inserted version row columns hc hin hrow hfresh hsemver hrows hcolumns =>
      rw [hrows] at hv
      by_cases hid : v.id = row.id
      · rw [hid, hcolumns, Function.update_self, hsemver]
        exact hparsed version hc
      · rw [hcolumns, Function.update_of_ne hid]
        rcases Table.eq_or_mem_of_mem_insert hv with rfl | hv
        · exact absurd rfl hid
        · exact h.parsed v hv

/-- Among parsed versions, as many components and another text mean other numbers. -/
theorem numbers_new (h : Spelled s) {version : NewGameVersion} (hparsed : Parsed version.version)
    (hin : s.insertsVersion env choice version = true)
    (halike : s.spelledAlike version = true) :
    ∀ v ∈ s.core.versions, v.gameId = version.gameId →
      numbers (s.versionColumns v.id).semver ≠ numbers version.version := by
  intro v hv hgame hnumbers
  obtain ⟨input, hinput⟩ := h.parsed v hv
  obtain ⟨input', hinput'⟩ := hparsed
  have hcount : (components (s.versionColumns v.id).semver.text).length =
      (components version.version.text).length := by
    have hv' := List.all_eq_true.mp halike v hv
    simpa [hgame, hnumbers] using hv'
  simp only [numbers, Prod.mk.injEq] at hnumbers
  exact texts_new hin v hv hgame
    (text_eq_of_numbers hinput hinput' hnumbers.1 hnumbers.2.1 hnumbers.2.2 hcount)

/-- An insert that spells the game's numbers another way makes a second row of them. -/
theorem spelledAlike_of_apart {version : NewGameVersion} (hsound : Sound s)
    (hc : c.newVersion = some version) (hin : s.insertsVersion env choice version = true)
    (h : Apart numbers (Storefront.exec env choice c s).2) : s.spelledAlike version = true := by
  have hexec : (Storefront.exec env choice c s).2 = (s.createVersion env choice version).2 := by
    cases c with
    | createVersion version' =>
        cases hc
        rfl
    | _ => cases hc
  obtain ⟨hnot, -⟩ | ⟨-, row, columns, hgame, hfresh, hsemver, e⟩ :=
    createVersion_after env choice s version
  · rw [hnot] at hin
    cases hin
  · rw [State.spelledAlike, List.all_eq_true]
    intro v hv
    by_cases hsame : v.gameId = version.gameId ∧
        numbers (s.versionColumns v.id).semver = numbers version.version
    · have hne : v.id ≠ row.id := by
        rintro hid
        exact hfresh (hid ▸ hsound.versions v hv)
      have hnone : s.core.versions.find? row.id = none := by
        rw [Table.find?_eq_none]
        rintro u hu hid
        exact hfresh (hid ▸ hsound.versions u hu)
      rw [hexec, e] at h
      have heq := h v (Table.mem_insert_of_mem hv) row ((Table.mem_insert hnone row).mpr (Or.inl rfl))
        (hsame.1.trans hgame.symm) (by
          show numbers (Function.update s.versionColumns row.id columns v.id).semver =
            numbers (Function.update s.versionColumns row.id columns row.id).semver
          rw [Function.update_of_ne hne, Function.update_self, hsemver, hsame.2])
      exact absurd (congrArg GameVersion.id heq) hne
    · have hother : (v.gameId == version.gameId &&
          numbers (s.versionColumns v.id).semver == numbers version.version) = false := by
        simpa using hsame
      rw [hother]
      rfl

end Step

/-! ## The programs that insert versions -/

/-- Every version the program inserts has been read by `parseSemver`. -/
abbrev InsertsParsed {α : Type} (p : Coroutine α) : Prop :=
  p.Only (fun c => ∀ version, c.newVersion = some version → Parsed version.version)

theorem Plain.insertsParsed {α : Type} {p : Coroutine α} (h : Plain p) : InsertsParsed p :=
  h.mono (fun c hc version hnew => by
    rw [Call.plain, Bool.and_eq_true, hnew] at hc
    exact absurd hc.2 (by simp))

theorem insertsParsed_createVersion (actor : Actor) (gameId : Bytes)
    (command : CreateVersionCommand) :
    InsertsParsed (createVersion actor gameId command) := by
  refine (plain_demand actor _ _).insertsParsed.bind (fun _ =>
    (plain_editableGame actor gameId).insertsParsed.bind (fun game => ?_))
  cases hversion : parseSemver command.semver with
  | error e => trivial
  | ok version =>
      show InsertsParsed (require (checkReleaseNotes command.releaseNotes) >>= _)
      refine (plain_require _).insertsParsed.bind (fun _ => ⟨?_, fun reply => ?_⟩)
      · intro version' hnew
        cases hnew
        exact ⟨command.semver, hversion⟩
      · cases reply with
        | error e => trivial
        | ok created => cases created <;> trivial

theorem insertsParsed_upload (env : Env) (actor : Actor) (gameId : Bytes)
    (command : Media.UploadMediaCommand) :
    InsertsParsed (Media.upload env actor gameId command) := by
  refine (plain_editableGame actor gameId).insertsParsed.bind (fun game =>
    (plain_require _).insertsParsed.bind (fun format =>
      (plain_checkGallery game.id command.kind).insertsParsed.bind (fun _ =>
        ⟨fun version hnew => (by cases hnew), fun reply => ?_⟩)))
  cases reply with
  | error e => trivial
  | ok key =>
      refine ⟨fun version hnew => (by cases hnew), fun created => ?_⟩
      cases created with
      | error e => trivial
      | ok created =>
          exact (plain_reclaim created.replacedStorageKey).insertsParsed.bind (fun _ => trivial)

theorem insertsParsed_entry (env : Env) (r : Request) {p : Coroutine Reply}
    (hp : (entry env r).body = .program p) : InsertsParsed p := by
  cases hv : r.createsVersion with
  | true =>
      cases r with
      | createVersion actor gameId command =>
          cases hp
          exact (insertsParsed_createVersion actor gameId command).bind (fun _ => trivial)
      | _ => cases hv
  | false =>
      cases h : r.touchesArtwork with
      | false => exact (plain_entry env h hv hp).insertsParsed
      | true =>
          cases r with
          | core r =>
              cases r with
              | deleteGame actor idOrSlug =>
                  cases hp
                  refine Program.Only.bind ?_ (fun _ => trivial)
                  refine (plain_editableGame actor idOrSlug).insertsParsed.bind (fun game =>
                    ⟨fun version hnew => (by cases hnew), fun removed => ?_⟩)
                  cases removed with
                  | none => trivial
                  | some keys => exact (plain_reclaimAll keys).insertsParsed
              | _ => cases h
          | uploadMedia actor gameId command =>
              cases hp
              exact (insertsParsed_upload env actor gameId command).bind (fun _ => trivial)
          | removeMedia actor mediaId =>
              cases hp
              refine Program.Only.bind ?_ (fun _ => trivial)
              refine (plain_editableMedia actor mediaId).insertsParsed.bind (fun _ =>
                ⟨fun version hnew => (by cases hnew), fun removed => ?_⟩)
              cases removed with
              | none => trivial
              | some removed => exact (plain_reclaim removed.storageKey).insertsParsed
          | _ => cases h

/-! ## Every run -/

/-- The version the coroutine is about to insert. -/
def Task.newVersion (env : Env) (t : Task) : Option NewGameVersion :=
  match t.next env with
  | .done => none
  | .call c _ => c.newVersion

/-- If the step inserts a version, then the game has its numbers nowhere with another number of
components. -/
def spelledAlike (env : Env) (w : Server) : Move → Bool
  | .resume i choice =>
      match (w.tasks[i]?).bind (Task.newVersion env) with
      | none => true
      | some version => !w.shared.insertsVersion env choice version || w.shared.spelledAlike version
  | _ => true

section Run

variable {env : Env} {w : Server}

theorem spelledAlike_call {i : Nat} {choice : Choice} {t : Task} {α : Type} {c : Call α}
    {k : α → Task} (hi : w.tasks[i]? = some t) (hn : t.next env = .call c k) :
    spelledAlike env w (.resume i choice) = true ↔
      ∀ version, c.newVersion = some version → w.shared.insertsVersion env choice version = true →
        w.shared.spelledAlike version = true := by
  simp only [spelledAlike, hi, Option.bind_some, Task.newVersion, hn]
  cases hc : c.newVersion with
  | none => simp
  | some version => cases hin : w.shared.insertsVersion env choice version <;> simp [hin]

/-- A step after which the numbers tell versions apart has spelled alike. -/
theorem spelledAlike_of_step {l : Move} (hsound : Sound w.shared)
    (h : Apart numbers ((storefront env).step w l).shared) : spelledAlike env w l = true := by
  cases l with
  | request r => rfl
  | outside e => rfl
  | resume i choice =>
      cases hi : w.tasks[i]? with
      | none => simp only [spelledAlike, hi, Option.bind_none]
      | some t =>
          cases hn : t.next env with
          | done => simp only [spelledAlike, hi, Option.bind_some, Task.newVersion, hn]
          | call c k =>
              rw [System.step_resume (storefront env) hi hn] at h
              exact (spelledAlike_call hi hn).mpr (fun version hc hin =>
                spelledAlike_of_apart hsound hc hin h)

/-- What the tasks of a run insert has been parsed. -/
def TaskParsed (t : Task) : Prop := ∀ p, t.body = .program p → InsertsParsed p

theorem TaskParsed.call {t : Task} (h : TaskParsed t) : (t.next env).All (fun c k =>
    (∀ version, c.newVersion = some version → Parsed version.version) ∧ ∀ r, TaskParsed (k r)) := by
  obtain ⟨actor, body⟩ := t
  cases body with
  | core u =>
      rw [next_core]
      cases u.next env.core with
      | done => trivial
      | call c k => exact ⟨fun version hc => (by cases hc), fun r p hp => (by cases hp)⟩
  | program p =>
      have hp := h p rfl
      cases p with
      | done r => trivial
      | call c k =>
          refine ⟨hp.1, fun r p' hp' => ?_⟩
          cases hp'
          exact hp.2 r

theorem Spelled.step {t : Task} {choice : Choice} {s : State} (h : Spelled s) (hsound : Sound s)
    (ht : TaskParsed t) :
    (t.next env).Wp (Storefront.exec env) choice s (fun s' t' => Spelled s' ∧ TaskParsed t') := by
  refine Suspended.All.wp ht.call (fun c k hck r s' he => ?_)
  have hspelled : Spelled (Storefront.exec env choice c s).2 := h.exec hsound hck.1
  rw [he] at hspelled
  exact ⟨hspelled, hck.2 r⟩

end Run

/-- **One version, one row.** In a run every game has one row for each version at every point,
and lists its versions in strict order, if and only if no version is inserted whose numbers the
game has with another number of components. -/
theorem one_version_one_row (env : Env) (w : Server) (hw : Initial w) (ls : List Move) :
    (∀ pre post, ls = pre ++ post → OneRowEach ((storefront env).run w pre).shared) ↔
      (storefront env).Along (fun w l => spelledAlike env w l = true) w ls := by
  constructor
  · intro hrows
    refine System.along_of_points (I := fun w => Sound w.shared ∧ OneRowEach w.shared)
      (fun w' l hbefore hafter => spelledAlike_of_step hbefore.1 hafter.2.rows) ls w ?_
    exact fun pre post hls => ⟨sound_run hw pre, hrows pre post hls⟩
  · intro halike pre post hls
    subst hls
    have halong := (System.along_append.mp halike).1
    have hnone : ∀ v, v ∉ w.shared.core.versions := by
      intro v hv
      rw [hw.versions] at hv
      cases hv
    have hinv := System.pool_invariant (S := storefront env)
      (G := fun s => (Sound s ∧ Spelled s) ∧ Apart numbers s) (L := fun _ t => TaskParsed t)
      (fun r s _ p hp => insertsParsed_entry env r hp) ?call ?outside pre w
      ⟨⟨hw.sound, fun v hv => absurd hv (hnone v), fun v hv => absurd hv (hnone v)⟩,
        fun v hv => absurd hv (hnone v)⟩ ?start halong
    · exact ⟨hinv.1.2, fun gameId shown => listVersions_strict hinv.1.2⟩
    case call =>
      intro w' i choice t hs htasks hi hl
      have hkept : (t.next env).Wp (Storefront.exec env) choice w'.shared
          (fun s' t' => Spelled s' ∧ TaskParsed t') := hs.1.2.step hs.1.1 (htasks i t hi)
      cases hn : t.next env with
      | done => rw [show (storefront env).next t = .done from hn]; trivial
      | call c k =>
          rw [show (storefront env).next t = .call c k from hn]
          rw [hn] at hkept
          intro r s' he
          obtain ⟨hspelled, htask⟩ := hkept r s' he
          have hs' : s' = (exec env choice c w'.shared).2 := (congrArg Prod.snd he).symm
          have hparsed := htasks i t hi
          have hcall : (t.next env).All _ := hparsed.call
          rw [hn] at hcall
          have hapart : Apart numbers (exec env choice c w'.shared).2 :=
            hs.2.exec hs.1.1 (fun version hc hin => numbers_new hs.1.2 (hcall.1 version hc) hin
              ((spelledAlike_call hi hn).mp hl version hc hin))
          refine ⟨⟨⟨?_, hspelled⟩, hs' ▸ hapart⟩, htask, fun j t' _ hj => htasks j t' hj⟩
          rw [hs']
          exact (hs.1.1.exec env choice c).1
    case outside =>
      intro e s hs
      refine ⟨⟨⟨(hs.1.1.outside e).1, ?_⟩, ?_⟩, fun t ht => ht⟩
      · cases e <;> exact ⟨hs.1.2.parsed, hs.1.2.texts⟩
      · cases e <;> exact hs.2
    case start =>
      intro j t hj
      rw [hw.tasks] at hj
      cases hj

namespace Demo

open Launcher.Demo (alice)

/-- Alice creates a version of game 4. -/
def versioned (semver : String) : Move :=
  .request (.createVersion alice (uuidText 4)
    { semver := ascii semver, stage := .Release, releaseNotes := [], publish := true })

/-- Tasks 1 and 2: two versions of the game, as ids 5 and 6. -/
def twoVersions (first second : String) : List Move :=
  published ++ versioned first :: drawing 5 1 2 ++ versioned second :: drawing 6 2 2

end Demo

/-- Two versions with as many components on the demo deployment. -/
theorem one_version_one_row_twoVersions :
    OneRowEach ((storefront Demo.env).run Demo.opened (Demo.twoVersions "1.0" "1.1")).shared :=
  (one_version_one_row Demo.env Demo.opened Demo.initial_opened (Demo.twoVersions "1.0" "1.1")).mpr
    (by decide +kernel) _ [] (List.append_nil _).symm

/-- The numbers of version 1.0 a second time, as version 1. -/
theorem respelled_version :
    Initial Demo.opened ∧
      ¬ OneRowEach
        ((storefront Demo.env).run Demo.opened (Demo.twoVersions "1.0" "1")).shared := by
  refine ⟨Demo.initial_opened, fun h => ?_⟩
  have htwice : let s := ((storefront Demo.env).run Demo.opened
        (Demo.twoVersions "1.0" "1")).shared
      ∃ v ∈ s.core.versions.rows, ∃ v' ∈ s.core.versions.rows, v.gameId = v'.gameId ∧
        numbers (s.versionColumns v.id).semver = numbers (s.versionColumns v'.id).semver ∧
        v ≠ v' := by
    decide +kernel
  obtain ⟨v, hv, v', hv', hgame, hnumbers, hne⟩ := htwice
  exact hne (h.rows v hv v' hv' hgame hnumbers)

end Launcher.Storefront
