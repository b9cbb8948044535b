import Launcher.Storefront.Artwork
import Launcher.Storefront.Lookups
import Launcher.Storefront.Ownership

set_option autoImplicit false

/-! # Slugs and ids

A request names a game by its slug or by its id, and every operation looks the game up first.
From then on the two requests are the same program, except `updateGame`: it hands the text of
the request on to a statement that casts it to a uuid. -/

namespace Launcher.Storefront

open Launcher.Lib

/-! ## The operations -/

/-- The operations on a game that is named by slug or id, with their other arguments. -/
inductive Operation
  | gameDetail
  | updateGame (changes : GameUpdate)
  | deleteGame
  | createVersion (command : CreateVersionCommand)
  | updateVersion (versionId : Bytes) (changes : GameVersionUpdate)
  | deleteVersion (versionId : Bytes)
  | createBuild (command : CreateBuildCommand)
  | addToLibrary
  | listMedia
  | uploadMedia (command : Media.UploadMediaCommand)
  | listNotes (limit offset : Int)
  | createNote (command : Notes.CreatePatchNoteCommand)

/-- The request for an operation on the game that `idOrSlug` names. -/
def Operation.request (actor : Actor) (idOrSlug : Bytes) : Operation → Request
  | .gameDetail => .gameDetail actor idOrSlug
  | .updateGame changes => .updateGame actor idOrSlug changes
  | .deleteGame => .core (.deleteGame actor idOrSlug)
  | .createVersion command => .createVersion actor idOrSlug command
  | .updateVersion versionId changes => .updateVersion actor idOrSlug versionId changes
  | .deleteVersion versionId => .core (.deleteVersion actor idOrSlug versionId)
  | .createBuild command => .core (.createBuild actor idOrSlug command)
  | .addToLibrary => .addToLibrary actor idOrSlug
  | .listMedia => .listMedia actor idOrSlug
  | .uploadMedia command => .uploadMedia actor idOrSlug command
  | .listNotes limit offset => .listNotes actor idOrSlug limit offset
  | .createNote command => .createNote actor idOrSlug command

/-- What a task has answered, if it has ended. -/
def Task.result (env : Env) (t : Task) : Option Body :=
  if (t.next env).isDone then some t.body else none

/-- Run alone from `s` with the same choices, the two requests answer the same and leave the
same states. -/
def Interchangeable (env : Env) (s : State) (r r' : Request) : Prop :=
  (storefront env).Agree (Task.result env) s (entry env r) (entry env r')

/-! ## Slugs tell games apart -/

/-- Slugs are unique, and texts that a statement takes. -/
structure Slugs (env : Env) (s : State) : Prop where
  unique : ∀ g ∈ s.core.games, ∀ g' ∈ s.core.games, g.slug = g'.slug → g = g'
  accepted : ∀ g ∈ s.core.games, env.core.acceptsText g.slug = true

section Slugs

variable {env : Env} {s : State}

/-- Games that were games with the same slug before. -/
theorem Slugs.kept {s' : State} (h : Slugs env s)
    (hkept : ∀ g' ∈ s'.core.games, ∃ g ∈ s.core.games, g.id = g'.id ∧ g.slug = g'.slug) :
    Slugs env s' where
  unique := by
    intro g₁ h₁ g₂ h₂ hslug
    obtain ⟨old₁, hold₁, hid₁, hslug₁⟩ := hkept g₁ h₁
    obtain ⟨old₂, hold₂, hid₂, hslug₂⟩ := hkept g₂ h₂
    have hold := h.unique old₁ hold₁ old₂ hold₂ (by rw [hslug₁, hslug₂, hslug])
    exact Table.eq_of_key_eq h₁ h₂ (by rw [← hid₁, ← hid₂, hold])
  accepted := by
    intro g hg
    obtain ⟨old, hold, -, hslug⟩ := hkept g hg
    rw [← hslug]
    exact h.accepted old hold

theorem Slugs.createGame (h : Slugs env s) (choice : Choice) (game : NewGame) :
    Slugs env (s.createGame env choice game).2 := by
  simp only [State.createGame]
  split
  case isTrue => exact h
  case isFalse htexts =>
    split
    case h_1 => exact h
    case h_2 hnone =>
      split
      case isTrue => exact h
      case isFalse =>
        split
        case isTrue => exact h
        case isFalse =>
          have hnew : ∀ g ∈ s.core.games, g.slug ≠ game.slug := by
            intro g hg hslug
            have hno := List.find?_eq_none.mp hnone g hg
            simp [hslug] at hno
          have htext : env.core.acceptsText game.slug = true := by
            simp only [State.acceptsAll, List.all_cons, Bool.not_eq_true', Bool.not_eq_false,
              Bool.and_eq_true] at htexts
            exact htexts.1
          refine ⟨fun g hg g' hg' hslug => ?_, fun g hg => ?_⟩
          · rcases Table.eq_or_mem_of_mem_insert hg with rfl | hold
            · rcases Table.eq_or_mem_of_mem_insert hg' with rfl | hold'
              · rfl
              · exact absurd hslug.symm (hnew g' hold')
            · rcases Table.eq_or_mem_of_mem_insert hg' with rfl | hold'
              · exact absurd hslug (hnew g hold)
              · exact h.unique g hold g' hold' hslug
          · rcases Table.eq_or_mem_of_mem_insert hg with rfl | hold
            · exact htext
            · exact h.accepted g hold

/-- The game a call inserts. -/
def Call.newGame {α : Type} : Call α → Option NewGame
  | .createGame game => some game
  | _ => none

/-- Every other call leaves games that were games with the same slug before. -/
theorem games_kept (choice : Choice) {α : Type} {c : Call α} (hc : c.newGame = none) :
    ∀ g' ∈ (Storefront.exec env choice c s).2.core.games, ∃ g ∈ s.core.games,
      g.id = g'.id ∧ g.slug = g'.slug := by
  have hcore : ∀ {β : Type} (c' : Launcher.Call β),
      ∀ g ∈ (s.afterCore (Launcher.exec env.core choice c' s.core).2).core.games,
        ∃ old ∈ s.core.games, old.id = g.id ∧ old.slug = g.slug := by
    intro β c' g hg
    obtain ⟨p, hdelete⟩ := (exec_removes env.core choice c' s.core).1
    have hg' : g ∈ (Launcher.exec env.core choice c' s.core).2.games := hg
    rw [hdelete] at hg'
    exact ⟨g, (Table.mem_delete.mp hg').1, rfl, rfl⟩
  have hkept : c.writes .games = false → Same s (Storefront.exec env choice c s).2 .games :=
    exec_same env choice s c
  cases c with
  | core c => exact hcore c
  | removeGame id => exact hcore (.removeGame id)
  | createGame game => cases hc
  | updateGame id changes =>
      intro g hg
      obtain e | ⟨gameId, _, _, e⟩ := s.updateGame_cases env id changes
      · rw [Storefront.exec, e] at hg
        exact ⟨g, hg, rfl, rfl⟩
      · rw [Storefront.exec, e] at hg
        rcases Table.mem_modify.mp hg with ⟨old, hold, _, rfl⟩ | ⟨hold, _⟩
        · exact ⟨old, hold, rfl, rfl⟩
        · exact ⟨g, hold, rfl, rfl⟩
  | _ =>
      intro g hg
      rw [(hkept rfl).1] at hg
      exact ⟨g, hg, rfl, rfl⟩

theorem Slugs.exec (h : Slugs env s) (choice : Choice) {α : Type} (c : Call α) :
    Slugs env (Storefront.exec env choice c s).2 := by
  cases c with
  | createGame game => exact h.createGame choice game
  | _ => exact h.kept (games_kept choice rfl)

theorem slugs_run {w : Server} (hw : Initial w) (ls : List Move) :
    Slugs env ((storefront env).run w ls).shared := by
  refine System.shared_invariant (S := storefront env) (G := Slugs env)
    (fun choice c s hs => hs.exec choice c) (fun e s hs => ?_) ls w ?_
  · refine hs.kept (fun g hg => ?_)
    cases e <;> exact ⟨g, hg, rfl, rfl⟩
  · have hnone : ∀ g, g ∉ w.shared.core.games := by
      intro g hg
      rw [hw.games] at hg
      cases hg
    exact ⟨fun g hg => absurd hg (hnone g), fun g hg => absurd hg (hnone g)⟩

end Slugs

/-! ## The lookup -/

section Lookup

variable {env : Env} {s : State} {game : Game} {text : Bytes} {actor : Actor}

/-- The text is a spelling of the game's id, and the slug cannot be taken for one. -/
structure Names (s : State) (game : Game) (text : Bytes) : Prop where
  mem : game ∈ s.core.games
  slug : isUuid game.slug = false
  shape : isUuid text = true
  uuid : uuidOf text = game.id

theorem findBySlug_eq (h : Slugs env s) (hgame : game ∈ s.core.games) :
    s.core.findBySlug game.slug = some game := by
  cases hfound : s.core.findBySlug game.slug with
  | none =>
      have hno := List.find?_eq_none.mp hfound game hgame
      simp at hno
  | some other =>
      have hmem : other ∈ s.core.games := List.mem_of_find?_eq_some hfound
      have hslug : other.slug = game.slug := by simpa using List.find?_some hfound
      rw [h.unique other hmem game hgame hslug]

/-- Looked up by slug or by id, the game is found in one call. -/
theorem findGame_meet (h : Slugs env s) (hn : Names s game text) :
    (findGame game.slug).Meet (exec env) s (findGame text) := by
  have hfound : s.core.games.find? (uuidOf text) = some game := by
    rw [hn.uuid]
    exact Table.find?_of_mem hn.mem
  rw [findGame, findGame, if_neg (by simp [hn.slug]), if_pos hn.shape]
  intro choice
  refine ⟨rfl, ?_⟩
  simp only [exec, findBySlug_eq h hn.mem, h.accepted game hn.mem, hfound]
  rfl

/-- From the lookup on, the two tasks go on with the same game. -/
theorem agree_findGame (h : Slugs env s) (hn : Names s game text)
    (f f' : Option GameRecord → Coroutine Reply) :
    (storefront env).Agree (Task.result env) s ⟨some actor, .program (findGame game.slug >>= f)⟩
        ⟨some actor, .program (findGame text >>= f')⟩ ↔
      (storefront env).Agree (Task.result env) s
        ⟨some actor, .program (f (some (s.readGame game)))⟩
        ⟨some actor, .program (f' (some (s.readGame game)))⟩ := by
  have hfound : s.core.games.find? (uuidOf text) = some game := by
    rw [hn.uuid]
    exact Table.find?_of_mem hn.mem
  have hslug : ∀ choice, exec env choice (.findGameBySlug game.slug) s =
      (.ok (some (s.readGame game)), s) := by
    intro choice
    simp only [exec, findBySlug_eq h hn.mem, h.accepted game hn.mem]
    rfl
  have hid : ∀ choice, exec env choice (.findGameById (uuidOf text)) s =
      (some (s.readGame game), s) := by
    intro choice
    simp only [exec, hfound]
    rfl
  rw [findGame, findGame, if_neg (by simp [hn.slug]), if_pos hn.shape]
  rw [System.agree_call (S := storefront env)
    (k := fun r => ⟨some actor, .program ((.done r : Coroutine _) >>= f)⟩)
    (l := fun r => ⟨some actor, .program (f' r)⟩) rfl rfl]
  have hexec : (storefront env).exec = exec env := rfl
  simp only [hexec, hslug, hid]
  exact ⟨fun hagree => (hagree.2 ⟨0, .none⟩).2, fun hagree => ⟨rfl, fun _ => ⟨trivial, hagree⟩⟩⟩

theorem visibleGame_meet (h : Slugs env s) (hn : Names s game text) :
    (visibleGame actor game.slug).Meet (exec env) s (visibleGame actor text) :=
  (findGame_meet h hn).bind

theorem editableGame_meet (h : Slugs env s) (hn : Names s game text) :
    (editableGame actor game.slug).Meet (exec env) s (editableGame actor text) :=
  (visibleGame_meet h hn).bind

theorem demand_meet {α : Type} {permission : Permission} {detail : Bytes}
    {p p' : Coroutine α} (h : p.Meet (exec env) s p') :
    (demand actor permission detail >>= fun _ => p).Meet (exec env) s
      (demand actor permission detail >>= fun _ => p') := by
  unfold demand
  split
  · exact h
  · rfl

/-- Programs that meet answer the same. -/
theorem agree_of_meet {α : Type} {p p' : Coroutine α} (h : p.Meet (exec env) s p')
    (reply : α → Reply) :
    (storefront env).Agree (Task.result env) s (start actor p reply) (start actor p' reply) := by
  have hmeet : (p >>= fun a => pure (reply a)).Meet (exec env) s (p' >>= fun a => pure (reply a)) :=
    h.bind
  unfold start
  revert hmeet
  generalize (p >>= fun a => pure (reply a)) = q
  generalize (p' >>= fun a => pure (reply a)) = q'
  intro hmeet
  cases q with
  | done r =>
      cases q' with
      | done r' =>
          rw [show r = r' from hmeet]
          exact System.Agree.refl
      | call c' k' => exact hmeet.elim
  | call c k =>
      cases q' with
      | done r' => exact hmeet.elim
      | call c' k' =>
          refine (System.agree_call (S := storefront env)
            (k := fun r => ⟨some actor, .program (k r)⟩)
            (l := fun r => ⟨some actor, .program (k' r)⟩) rfl rfl).mpr ⟨rfl, fun choice => ?_⟩
          obtain ⟨hstate, hprogram⟩ := hmeet choice
          refine ⟨hstate, ?_⟩
          rw [show (storefront env).exec = exec env from rfl, hprogram]
          exact System.Agree.refl

theorem gameNamed_eq (h : Slugs env s) (hn : Names s game text) :
    gameNamed s.core game.slug = some game ∧ gameNamed s.core text = some game := by
  constructor
  · rw [gameNamed, if_neg (by simp [hn.slug])]
    exact findBySlug_eq h hn.mem
  · rw [gameNamed, if_pos hn.shape, hn.uuid]
    exact Table.find?_of_mem hn.mem

/-- Coroutines of the upload side that look the game up and go on alike. -/
theorem agree_of_core (h : Slugs env s) (hn : Names s game text) {t t' : Launcher.Task}
    {k : Option Game → Launcher.Task}
    (ht : t.next env.core = .call (Catalog.findGame game.slug) k)
    (ht' : t'.next env.core = .call (Catalog.findGame text) k) :
    (storefront env).Agree (Task.result env) s ⟨some actor, .core t⟩ ⟨some actor, .core t'⟩ := by
  have hnext : ∀ {u : Launcher.Task} {idOrSlug : Bytes},
      u.next env.core = .call (Catalog.findGame idOrSlug) k →
      (storefront env).next ⟨some actor, .core u⟩ = .call (.core (Catalog.findGame idOrSlug))
        (fun found => ⟨some actor, .core (k found)⟩) := by
    intro u idOrSlug hu
    show Task.next env ⟨some actor, .core u⟩ = _
    rw [next_core, hu]
    rfl
  have hresult : ∀ {u : Launcher.Task} {idOrSlug : Bytes},
      u.next env.core = .call (Catalog.findGame idOrSlug) k →
      Task.result env ⟨some actor, .core u⟩ = none := by
    intro u idOrSlug hu
    rw [Task.result, show Task.next env _ = _ from hnext hu]
    rfl
  obtain ⟨hslug, hid⟩ := gameNamed_eq h hn
  refine (System.agree_call (S := storefront env) (hnext ht) (hnext ht')).mpr
    ⟨by rw [hresult ht, hresult ht'], fun choice => ?_⟩
  rw [show (storefront env).exec = exec env from rfl, exec_findGame, exec_findGame, hslug, hid]
  exact ⟨rfl, System.Agree.refl⟩

end Lookup

/-! ## `updateGame` -/

/-- The changes with which `updateGame` comes to its statement. -/
def reachedUpdate (game : Game) (actor : Actor) (changes : GameUpdate) : Option GameUpdate :=
  if mayViewGame game actor && mayEditGame game actor && !changes.empty then
    changes.checked.toOption
  else none

/-- The statement does with the slug what it does with the id: it reads it as the id of the game,
or as some id while it refuses the texts of the changes. -/
def castsToSelf (env : Env) (game : Game) (changes : GameUpdate) : Bool :=
  (env.castUuid game.slug).any (fun id => id == game.id ||
    !State.acceptsAll env (changes.title.toList ++ changes.summary.toList ++
      changes.description.toList))

/-- The operation does not hand the slug on, or hands it on to no harm. -/
def Operation.agrees (env : Env) (game : Game) (actor : Actor) : Operation → Bool
  | .updateGame changes => (reachedUpdate game actor changes).all (castsToSelf env game)
  | _ => true

section Update

variable {env : Env} {s : State} {game : Game} {text : Bytes} {actor : Actor}

/-- The checks of `editableGame` on the game it has found. -/
def checkEditable (actor : Actor) (found : Option GameRecord) : Except Failure GameRecord :=
  match found with
  | none => .error (.refused { code := .NotFound, detail := Catalog.NO_SUCH_GAME })
  | some game =>
      if mayViewGame game.toGame actor then
        if mayEditGame game.toGame actor then .ok game
        else .error (.refused { code := .Forbidden, detail := Catalog.NOT_YOURS })
      else .error (.refused { code := .NotFound, detail := Catalog.NO_SUCH_GAME })

/-- The statement of `updateGame`, and what it makes of the reply. -/
def updateStatement (gameId : Bytes) (changes : GameUpdate) : Coroutine GameRecord := do
  match ← statement (.updateGame gameId changes) with
  | none => refuse .NotFound Catalog.NO_SUCH_GAME
  | some updated => pure updated

/-- What `updateGame` does once it has looked the game up. -/
def updateFound (actor : Actor) (gameId : Bytes) (changes : GameUpdate)
    (found : Option GameRecord) : Coroutine GameRecord := do
  let existing ← .done (checkEditable actor found)
  if changes.empty then pure existing
  else
    let changes ← require changes.checked
    updateStatement gameId changes

theorem editableGame_eq (idOrSlug : Bytes) :
    editableGame actor idOrSlug = (findGame idOrSlug >>= fun found =>
      .done (checkEditable actor found)) := by
  unfold editableGame visibleGame
  rw [Program.bind_bind]
  congr 1
  funext found
  cases found with
  | none => rfl
  | some game =>
      simp only [checkEditable]
      by_cases hview : mayViewGame game.toGame actor = true
      · rw [if_pos hview, if_pos hview, Program.pure_eq, Program.done_ok_bind]
        split <;> rfl
      · rw [if_neg hview, if_neg hview]
        rfl

theorem updateGame_eq (gameId : Bytes) (changes : GameUpdate) :
    updateGame actor gameId changes =
      (findGame gameId >>= updateFound actor gameId changes) := by
  unfold updateGame
  rw [editableGame_eq, Program.bind_bind]
  rfl

theorem updateFound_reached {changes changes' : GameUpdate} {record : GameRecord} (gameId : Bytes)
    (h : reachedUpdate record.toGame actor changes = some changes') :
    updateFound actor gameId changes (some record) = updateStatement gameId changes' := by
  simp only [reachedUpdate] at h
  split at h
  case isFalse => cases h
  case isTrue hreach =>
    simp only [Bool.and_eq_true, Bool.not_eq_true'] at hreach
    obtain ⟨⟨hview, hedit⟩, hchanges⟩ := hreach
    cases hchecked : changes.checked with
    | error e =>
        rw [hchecked] at h
        cases h
    | ok checked =>
        rw [hchecked] at h
        cases h
        simp only [updateFound, checkEditable, if_pos hview, if_pos hedit, Program.done_ok_bind,
          hchanges, hchecked]
        rfl

/-- Without the statement the text of the request plays no part. -/
theorem updateFound_unreached {changes : GameUpdate} {record : GameRecord} (gameId gameId' : Bytes)
    (h : reachedUpdate record.toGame actor changes = none) :
    updateFound actor gameId changes (some record) =
      updateFound actor gameId' changes (some record) := by
  simp only [updateFound]
  cases hcheck : checkEditable actor (some record) with
  | error e => rfl
  | ok existing =>
      rw [Program.done_ok_bind, Program.done_ok_bind]
      cases hchanges : changes.empty with
      | true => rfl
      | false =>
          cases hchecked : changes.checked with
          | error e => rfl
          | ok checked =>
              simp only [checkEditable] at hcheck
              split at hcheck
              case isFalse => cases hcheck
              case isTrue hview =>
                split at hcheck
                case isFalse => cases hcheck
                case isTrue hedit =>
                  simp [reachedUpdate, hview, hedit, hchanges, hchecked, Except.toOption] at h

/-- The answer to `updateGame`, from the reply of its statement. -/
def updateAnswer : Except Failure (Option GameRecord) → Except Failure Reply
  | .error e => .error e
  | .ok none => .error (.refused { code := .NotFound, detail := Catalog.NO_SUCH_GAME })
  | .ok (some updated) => .ok (.game updated)

theorem updateStatement_next (gameId : Bytes) (changes : GameUpdate) :
    (updateStatement gameId changes >>= fun a => pure (Reply.game a)) =
      .call (.updateGame gameId changes) (fun reply => .done (updateAnswer reply)) := by
  show Program.call _ _ = Program.call _ _
  congr 1
  funext reply
  cases reply with
  | error e => rfl
  | ok found => cases found <;> rfl

/-- Two statements of `updateGame` agree if they leave the same state and the same answer. -/
theorem agree_updateStatement (gameId gameId' : Bytes) (changes : GameUpdate) :
    (storefront env).Agree (Task.result env) s
        (start actor (updateStatement gameId changes) Reply.game)
        (start actor (updateStatement gameId' changes) Reply.game) ↔
      (s.updateGame env gameId changes).2 = (s.updateGame env gameId' changes).2 ∧
        updateAnswer (s.updateGame env gameId changes).1 =
          updateAnswer (s.updateGame env gameId' changes).1 := by
  have hnext : ∀ id, (storefront env).next (start actor (updateStatement id changes) Reply.game) =
      .call (.updateGame id changes)
        (fun reply => ⟨some actor, .program (.done (updateAnswer reply))⟩) := by
    intro id
    rw [start, updateStatement_next]
    rfl
  have hresult : ∀ id, Task.result env (start actor (updateStatement id changes) Reply.game) =
      none := by
    intro id
    rw [start, updateStatement_next]
    rfl
  rw [System.agree_call (hnext gameId) (hnext gameId')]
  have hdone : ∀ (s' : State) (r r' : Except Failure Reply),
      (storefront env).Agree (Task.result env) s' ⟨some actor, .program (.done r)⟩
        ⟨some actor, .program (.done r')⟩ ↔ r = r' := by
    intro s' r r'
    rw [System.agree_done rfl rfl]
    constructor
    · intro h
      simpa [Task.result, Task.next, Body.next, Program.next, Suspended.map, Suspended.isDone]
        using h
    · rintro rfl
      rfl
  constructor
  · rintro ⟨-, hstep⟩
    obtain ⟨hstate, hagree⟩ := hstep ⟨0, .none⟩
    exact ⟨hstate, (hdone _ _ _).mp hagree⟩
  · rintro ⟨hstate, hanswer⟩
    exact ⟨by rw [hresult, hresult], fun choice => ⟨hstate, (hdone _ _ _).mpr hanswer⟩⟩

/-- The statement agrees on the two texts exactly if the slug casts to the id, or to some id
while the texts are refused. -/
theorem updateGame_agree_iff (hcast : env.castUuid text = some game.id)
    (hgame : game ∈ s.core.games) (changes : GameUpdate) :
    ((s.updateGame env game.slug changes).2 = (s.updateGame env text changes).2 ∧
      updateAnswer (s.updateGame env game.slug changes).1 =
        updateAnswer (s.updateGame env text changes).1) ↔ castsToSelf env game changes = true := by
  have hfound := Table.find?_of_mem hgame
  cases hslug : env.castUuid game.slug with
  | none =>
      simp only [castsToSelf, hslug, Option.any_none, Bool.false_eq_true, iff_false, not_and]
      intro _ hanswer
      simp only [State.updateGame, hslug, hcast] at hanswer
      split at hanswer
      · cases hanswer
      · rw [hfound] at hanswer
        cases hanswer
  | some id =>
      simp only [castsToSelf, hslug, Option.any_some, Bool.or_eq_true, beq_iff_eq]
      cases htexts : State.acceptsAll env (changes.title.toList ++ changes.summary.toList ++
          changes.description.toList) with
      | false =>
          simp only [State.updateGame, hslug, hcast, htexts, Bool.not_false, if_true, or_true,
            and_self]
      | true =>
          simp only [State.updateGame, hslug, hcast, htexts, Bool.not_true, Bool.false_eq_true,
            if_false, or_false]
          constructor
          · rintro ⟨-, hanswer⟩
            rw [hfound] at hanswer
            cases hother : s.core.games.find? id with
            | none =>
                rw [hother] at hanswer
                cases hanswer
            | some other =>
                rw [hother] at hanswer
                have hid : other.id = game.id := by
                  simp only [updateAnswer, Except.ok.injEq, Reply.game.injEq] at hanswer
                  exact congrArg (fun r : GameRecord => r.id) hanswer
                rw [← hid]
                exact (Table.key_of_find? hother).symm
          · rintro rfl
            exact ⟨rfl, rfl⟩

theorem agree_updateGame (h : Slugs env s) (hn : Names s game text)
    (hcast : env.castUuid text = some game.id) (changes : GameUpdate) :
    (storefront env).Agree (Task.result env) s
        (start actor (updateGame actor game.slug changes) Reply.game)
        (start actor (updateGame actor text changes) Reply.game) ↔
      (reachedUpdate game actor changes).all (castsToSelf env game) = true := by
  -- both find the game in one call
  have hfind : (storefront env).Agree (Task.result env) s
        (start actor (updateGame actor game.slug changes) Reply.game)
        (start actor (updateGame actor text changes) Reply.game) ↔
      (storefront env).Agree (Task.result env) s
        (start actor (updateFound actor game.slug changes (some (s.readGame game))) Reply.game)
        (start actor (updateFound actor text changes (some (s.readGame game))) Reply.game) := by
    simp only [start, updateGame_eq, Program.bind_bind]
    exact agree_findGame h hn _ _
  rw [hfind]
  cases hreach : reachedUpdate game actor changes with
  | none =>
      have hsame : updateFound actor game.slug changes (some (s.readGame game)) =
          updateFound actor text changes (some (s.readGame game)) :=
        updateFound_unreached game.slug text hreach
      rw [hsame]
      simp [System.Agree.refl]
  | some changes' =>
      have hreached : ∀ gameId, updateFound actor gameId changes (some (s.readGame game)) =
          updateStatement gameId changes' := fun gameId => updateFound_reached gameId hreach
      rw [hreached game.slug, hreached text, agree_updateStatement,
        updateGame_agree_iff hcast hn.mem, Option.all_some]

end Update

/-! ## Every run -/

/-- In a state whose slugs tell games apart. -/
theorem interchangeable_iff {env : Env} {s : State} {game : Game} {text : Bytes} {actor : Actor}
    (h : Slugs env s) (hn : Names s game text) (hcast : env.castUuid text = some game.id)
    (op : Operation) :
    Interchangeable env s (op.request actor game.slug) (op.request actor text) ↔
      op.agrees env game actor = true := by
  cases op with
  | updateGame changes => exact agree_updateGame h hn hcast changes
  | gameDetail =>
      exact iff_of_true (agree_of_meet (demand_meet (visibleGame_meet h hn).bind) _) rfl
  | deleteGame => exact iff_of_true (agree_of_meet (editableGame_meet h hn).bind _) rfl
  | createVersion command =>
      exact iff_of_true (agree_of_meet (demand_meet (editableGame_meet h hn).bind) _) rfl
  | updateVersion versionId changes =>
      exact iff_of_true (agree_of_meet (demand_meet (editableGame_meet h hn).bind) _) rfl
  | deleteVersion versionId => exact iff_of_true (agree_of_core h hn rfl rfl) rfl
  | createBuild command =>
      refine iff_of_true ?_ rfl
      cases hcan : actor.can .BUILD_UPLOAD with
      | false =>
          have hsame : ∀ idOrSlug, createBuild actor idOrSlug command =
              .answered (failure .Forbidden (ascii "you cannot upload builds")) := by
            intro idOrSlug
            simp [createBuild, hcan]
          simp only [Interchangeable, Operation.request, entry, Launcher.entry, hsame]
          exact System.Agree.refl
      | true =>
          have hfind : ∀ idOrSlug, createBuild actor idOrSlug command =
              .findGame actor idOrSlug command := by
            intro idOrSlug
            simp [createBuild, hcan]
          simp only [Interchangeable, Operation.request, entry, Launcher.entry, hfind]
          exact agree_of_core h hn rfl rfl
  | addToLibrary =>
      exact iff_of_true (agree_of_meet (demand_meet (visibleGame_meet h hn).bind) _) rfl
  | listMedia =>
      exact iff_of_true (agree_of_meet (demand_meet (visibleGame_meet h hn).bind) _) rfl
  | uploadMedia command => exact iff_of_true (agree_of_meet (editableGame_meet h hn).bind _) rfl
  | listNotes limit offset =>
      exact iff_of_true (agree_of_meet (demand_meet (visibleGame_meet h hn).bind) _) rfl
  | createNote command => exact iff_of_true (agree_of_meet (editableGame_meet h hn).bind _) rfl

/-- **A slug and an id are interchangeable** in every operation but `updateGame`, which hands the
text of the request to a cast: there they are if and only if the actor's request does not get as
far as the statement, or the cast makes no difference. -/
theorem slug_or_id (env : Env)
    (hcast : ∀ text, isUuid text = true → env.castUuid text = some (uuidOf text)) (w : Server)
    (hw : Initial w) (ls : List Move) (game : Game)
    (hgame : game ∈ ((storefront env).run w ls).shared.core.games)
    (hslug : isUuid game.slug = false) (text : Bytes) (htext : isUuid text = true)
    (hid : uuidOf text = game.id) (actor : Actor) (op : Operation) :
    Interchangeable env ((storefront env).run w ls).shared (op.request actor game.slug)
        (op.request actor text) ↔ op.agrees env game actor = true :=
  interchangeable_iff (slugs_run hw ls) ⟨hgame, hslug, htext, hid⟩
    (by rw [hcast text htext, hid]) op

namespace Demo

/-- The game alice publishes, under the slug made of its title. -/
def shelvedGame : Game := ⟨4, ascii "game", 1, .Public⟩

/-- Another summary for it. -/
def resummarized : GameUpdate := { summary := some (ascii "Now with sound") }

end Demo

theorem shelvedGame_mem :
    Demo.shelvedGame ∈ ((storefront Demo.env).run Demo.opened Demo.published).shared.core.games := by
  have hrow : Demo.shelvedGame ∈
      ((storefront Demo.env).run Demo.opened Demo.published).shared.core.games.rows := by
    decide +kernel
  exact hrow

/-- The page of a game, by slug and by id. -/
theorem slug_or_id_detail :
    Interchangeable Demo.env ((storefront Demo.env).run Demo.opened Demo.published).shared
      (Operation.gameDetail.request Demo.carol Demo.shelvedGame.slug)
      (Operation.gameDetail.request Demo.carol (uuidText 4)) :=
  (slug_or_id Demo.env demo_castUuid Demo.opened Demo.initial_opened Demo.published
    Demo.shelvedGame shelvedGame_mem (by decide +kernel) (uuidText 4) (by decide +kernel)
    (by decide +kernel) Demo.carol .gameDetail).mpr rfl

/-- The publisher's update of the game goes through under its id and not under its slug. -/
theorem updated_by_slug :
    Initial Demo.opened ∧ ¬ Interchangeable Demo.env
      ((storefront Demo.env).run Demo.opened Demo.published).shared
      ((Operation.updateGame Demo.resummarized).request Launcher.Demo.alice Demo.shelvedGame.slug)
      ((Operation.updateGame Demo.resummarized).request Launcher.Demo.alice (uuidText 4)) := by
  refine ⟨Demo.initial_opened, fun h => ?_⟩
  have hnames : Names ((storefront Demo.env).run Demo.opened Demo.published).shared
      Demo.shelvedGame (uuidText 4) :=
    ⟨shelvedGame_mem, by decide +kernel, by decide +kernel, by decide +kernel⟩
  have hagrees := (interchangeable_iff (slugs_run Demo.initial_opened Demo.published) hnames
    (by decide +kernel) (.updateGame Demo.resummarized)).mp h
  have hrefused : (Operation.updateGame Demo.resummarized).agrees Demo.env Demo.shelvedGame
      Launcher.Demo.alice = false := by decide +kernel
  rw [hrefused] at hagrees
  cases hagrees

end Launcher.Storefront
