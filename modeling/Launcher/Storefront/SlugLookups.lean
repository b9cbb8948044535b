import Launcher.Domain.Slugs
import Launcher.Storefront.Identifiers

set_option autoImplicit false

/-! # A slug that looks like an id

A lookup takes a text of uuid shape for an id and any other text for a slug. Hexadecimal digits
and hyphens are characters of a slug as well, so the two shapes overlap in the uuids without
upper-case letters (`slug_isUuid_iff`), and a game with such a slug is not found under it, or
another one is. `addressed_by_slug_iff` proves that in a run every game is found under its slug
at every point exactly if no step inserts one whose slug spells another id than its own. -/

namespace Launcher

open Lib

/-! ## The two shapes -/

section Shapes

variable {value : Bytes}

theorem isUuid_length (h : isUuid value = true) : value.length = 36 := by
  rw [isUuid, Bool.and_eq_true, beq_iff_eq] at h
  exact h.1

/-- The places of the hyphens. -/
def hyphenAt (i : Nat) : Prop := i = 8 ∨ i = 13 ∨ i = 18 ∨ i = 23

theorem isUuid_getElem (h : isUuid value = true) {i : Nat} (hi : i < value.length) :
    (hyphenAt i → value[i] = hyphen) ∧ (¬ hyphenAt i → isHexDigit value[i] = true) := by
  rw [isUuid, Bool.and_eq_true, List.all_eq_true] at h
  have hplace := h.2 (value[i], i) (by
    rw [List.mem_zipIdx_iff_getElem?]
    exact List.getElem?_eq_getElem hi)
  dsimp only at hplace
  unfold hyphenAt
  split at hplace
  case isTrue hmark =>
    simp only [Bool.or_eq_true, beq_iff_eq] at hmark hplace
    exact ⟨fun _ => hplace, fun hnot => absurd hmark (by tauto)⟩
  case isFalse hmark =>
    simp only [Bool.or_eq_true, beq_iff_eq] at hmark
    exact ⟨fun hyes => absurd hyes (by tauto), fun _ => hplace⟩

theorem isUuid_mark (h : isUuid value = true) {i : Nat} (hi : hyphenAt i) :
    value[i]? = some hyphen := by
  have hlength := isUuid_length h
  have hlt : i < value.length := by
    unfold hyphenAt at hi
    omega
  rw [List.getElem?_eq_getElem hlt, (isUuid_getElem h hlt).1 hi]

/-- The digits between two hyphens. -/
theorem isUuid_field (h : isUuid value = true) {offset width : Nat}
    (hplaces : ∀ i < width, ¬ hyphenAt (offset + i)) :
    ∀ c ∈ (value.drop offset).take width, isHexDigit c = true := by
  intro c hc
  obtain ⟨i, hi, rfl⟩ := List.mem_iff_getElem.mp hc
  rw [List.length_take, List.length_drop] at hi
  rw [List.getElem_take, List.getElem_drop]
  exact (isUuid_getElem h (by omega)).2 (hplaces i (by omega))

theorem isSlugCharacter_of_isHexDigit {c : UInt8} (h : isHexDigit c = true)
    (hlower : toLower c = c) : isSlugCharacter c = true := by
  simp only [isHexDigit, isSlugCharacter, isDigit, toLower, Bool.or_eq_true, Bool.and_eq_true,
    decide_eq_true_eq, UInt8.le_iff_toNat_le] at h hlower ⊢
  split_ifs at hlower with hupper
  · rw [← UInt8.toNat_inj, UInt8.toNat_add] at hlower
    simp only [UInt8.reduceToNat] at hupper hlower
    omega
  · simp only [UInt8.reduceToNat] at h hupper ⊢
    omega

/-- Without upper-case letters a uuid is five words with hyphens between them. -/
theorem validateSlug_of_isUuid (h : isUuid value = true) (hlower : ∀ c ∈ value, toLower c = c) :
    validateSlug value = .ok () := by
  have hlength := isUuid_length h
  have hword : ∀ offset width : Nat, 0 < width → offset + width ≤ 36 →
      (∀ i < width, ¬ hyphenAt (offset + i)) → (value.drop offset).take width ≠ [] ∧
        ∀ c ∈ (value.drop offset).take width, isSlugCharacter c = true := by
    intro offset width hpos hfits hplaces
    refine ⟨List.ne_nil_of_length_pos ?_, fun c hc => ?_⟩
    · rw [List.length_take, List.length_drop]
      omega
    · exact isSlugCharacter_of_isHexDigit (isUuid_field h hplaces c hc)
        (hlower c (List.mem_of_mem_drop (List.mem_of_mem_take hc)))
  have hend : value.drop 36 = [] := List.drop_of_length_le (by omega)
  -- the five words stand between the four places of the hyphens
  have hjoined : value = [hyphen].intercalate [(value.drop 0).take 8, (value.drop 9).take 4,
      (value.drop 14).take 4, (value.drop 19).take 4, (value.drop 24).take 12] := by
    simp only [List.intercalate_cons_cons, List.intercalate_singleton, List.append_assoc,
      List.singleton_append]
    conv_lhs =>
      rw [show value = value.drop 0 from rfl, drop_eq_field value 0 8,
        drop_eq_mark (isUuid_mark h (.inl rfl)), drop_eq_field value 9 4,
        drop_eq_mark (isUuid_mark h (.inr (.inl rfl))), drop_eq_field value 14 4,
        drop_eq_mark (isUuid_mark h (.inr (.inr (.inl rfl)))), drop_eq_field value 19 4,
        drop_eq_mark (isUuid_mark h (.inr (.inr (.inr rfl)))), drop_eq_field value 24 12, hend,
        List.append_nil]
  refine validateSlug_ok.mpr ⟨?_, by rw [hlength, MAX_SLUG_LENGTH]; omega⟩
  rw [hjoined]
  refine scanSlug_intercalate (by simp) (fun part hpart => ?_) true
  simp only [List.mem_cons, List.not_mem_nil, or_false] at hpart
  rcases hpart with rfl | rfl | rfl | rfl | rfl
  · exact hword 0 8 (by omega) (by omega) (fun i hi => by unfold hyphenAt; omega)
  · exact hword 9 4 (by omega) (by omega) (fun i hi => by unfold hyphenAt; omega)
  · exact hword 14 4 (by omega) (by omega) (fun i hi => by unfold hyphenAt; omega)
  · exact hword 19 4 (by omega) (by omega) (fun i hi => by unfold hyphenAt; omega)
  · exact hword 24 12 (by omega) (by omega) (fun i hi => by unfold hyphenAt; omega)

theorem toLower_of_validateSlug (h : validateSlug value = .ok ()) :
    ∀ c ∈ value, toLower c = c := by
  obtain ⟨hscan, -⟩ := validateSlug_ok.mp h
  obtain ⟨parts, -, hparts, rfl⟩ := mem_slugFormat.mp (scanSlug_iff.mp hscan)
  intro c hc
  rcases mem_intercalate hc with rfl | ⟨part, hpart, hmem⟩
  · rfl
  · exact (isAlnum_of_isSlugCharacter c ((hparts part hpart).2 c hmem)).2

/-- What is accepted or generated is never taken for an id, unless it is a uuid in lower case. -/
theorem slug_isUuid_iff (slug : Bytes) :
    ((validateSlug slug = .ok () ∨ ∃ title, slugify title = slug) → isUuid slug = false) ↔
      ¬ (isUuid slug = true ∧ ∀ c ∈ slug, toLower c = c) := by
  constructor
  · rintro h ⟨hshape, hlower⟩
    have hno := h (.inl (validateSlug_of_isUuid hshape hlower))
    rw [hshape] at hno
    cases hno
  · intro h hslug
    by_contra hshape
    rw [Bool.not_eq_false] at hshape
    have hok : validateSlug slug = .ok () := by
      rcases hslug with hok | ⟨title, rfl⟩
      · exact hok
      · rcases slugify_nil_or_ok title with hnil | hok
        · rw [hnil] at hshape
          cases hshape
        · exact hok
    exact h ⟨hshape, toLower_of_validateSlug hok⟩

end Shapes

end Launcher

namespace Launcher.Storefront

open Launcher.Lib

/-! ## One state -/

/-- The game's slug is not taken for an id, or only for the game's own. -/
def addressable (g : Game) : Bool := !isUuid g.slug || uuidOf g.slug == g.id

/-- Whoever may view a game finds it under its slug. -/
def AddressedBySlug (env : Env) (s : State) : Prop :=
  ∀ g ∈ s.core.games, ∀ actor, mayViewGame g actor = true →
    (visibleGame actor g.slug).Wp (exec env) (fun r s' => r = .ok (s.readGame g) ∧ s' = s) s

section State

variable {env : Env} {s : State} {g : Game}

theorem visibleGame_wp_iff {actor : Actor} :
    (visibleGame actor g.slug).Wp (exec env) (fun r s' => r = .ok (s.readGame g) ∧ s' = s) s ↔
      s.visible env actor g.slug = .ok (s.readGame g) := by
  rw [Program.wp_iff_of_answer (visibleGame_wp ⟨rfl, rfl⟩)]
  exact and_iff_left rfl

theorem visible_of_addressable (h : Slugs env s) (hg : g ∈ s.core.games)
    (haddressable : addressable g = true) {actor : Actor} (hview : mayViewGame g actor = true) :
    s.visible env actor g.slug = .ok (s.readGame g) := by
  have hlookup : s.lookup env g.slug = .ok (some (s.readGame g)) := by
    unfold State.lookup
    cases hshape : isUuid g.slug with
    | false =>
        rw [if_neg (by simp), h.accepted g hg, if_neg (by simp), findBySlug_eq h hg]
        rfl
    | true =>
        -- the lookup by id finds the game whose slug spells its id
        rw [addressable, hshape, Bool.not_true, Bool.false_or, beq_iff_eq] at haddressable
        rw [if_pos rfl, haddressable, Table.find?_of_mem hg]
        rfl
  unfold State.visible
  rw [hlookup]
  exact if_pos hview

/-- The publisher may view the game, and finds it only where the slug leads to it. -/
theorem addressable_of_visible
    (h : ∀ actor, mayViewGame g actor = true →
      s.visible env actor g.slug = .ok (s.readGame g)) : addressable g = true := by
  have hview : mayViewGame g ⟨g.publisherUserId, []⟩ = true := by
    simp [mayViewGame, mayEditGame, Actor.owns]
  have hfound := h _ hview
  cases hshape : isUuid g.slug with
  | false => rw [addressable, hshape]; rfl
  | true =>
      have hlookup : s.lookup env g.slug
          = .ok ((s.core.games.find? (uuidOf g.slug)).map s.readGame) := by
        rw [State.lookup, if_pos hshape]
      rw [State.visible, hlookup] at hfound
      cases hrow : s.core.games.find? (uuidOf g.slug) with
      | none =>
          rw [hrow] at hfound
          cases hfound
      | some other =>
          rw [hrow] at hfound
          dsimp only [Option.map_some] at hfound
          split_ifs at hfound
          -- a game is found under the id, and the record says which
          have hsame : s.readGame other = s.readGame g := Except.ok.inj hfound
          have hid : other.id = g.id := congrArg (fun r : GameRecord => r.id) hsame
          have hkey : other.id = uuidOf g.slug := Table.key_of_find? hrow
          rw [addressable, ← hkey, hid]
          simp

theorem addressedBySlug_iff_addressable (h : Slugs env s) :
    AddressedBySlug env s ↔ ∀ g ∈ s.core.games, addressable g = true := by
  constructor
  · intro haddressed g hg
    exact addressable_of_visible (fun actor hview =>
      visibleGame_wp_iff.mp (haddressed g hg actor hview))
  · intro haddressable g hg actor hview
    exact visibleGame_wp_iff.mpr (visible_of_addressable h hg (haddressable g hg) hview)

end State

/-! ## Every run -/

/-- No constraint stops the insert of the game. -/
def State.insertsGame (env : Env) (s : State) (choice : Choice) (game : NewGame) : Bool :=
  State.acceptsAll env [game.slug, game.title, game.summary, game.description] &&
    (s.core.findBySlug game.slug).isNone && !s.core.issued.contains choice.uuid &&
    (s.core.users.find? game.publisherUserId).isSome

/-- The game the coroutine is about to insert. -/
def Task.newGame (env : Env) (t : Task) : Option NewGame :=
  match t.next env with
  | .done => none
  | .call c _ => c.newGame

/-- If the step inserts a game, then its slug is not of uuid shape, or spells the id that is
drawn for it. -/
def insertsAddressable (env : Env) (w : Server) : Move → Bool
  | .resume i choice =>
      match (w.tasks[i]?).bind (Task.newGame env) with
      | none => true
      | some game => !w.shared.insertsGame env choice game ||
          (!isUuid game.slug || uuidOf game.slug == choice.uuid)
  | _ => true

section Run

variable {env : Env} {s : State} {w : Server}

/-- A game is inserted as it was asked for, under the drawn id, or nothing happens. -/
theorem createGame_games (choice : Choice) (game : NewGame) :
    (s.createGame env choice game).2.core.games = if s.insertsGame env choice game then
      s.core.games.insert ⟨choice.uuid, game.slug, game.publisherUserId, game.visibility⟩
    else s.core.games := by
  unfold State.insertsGame State.createGame
  cases State.acceptsAll env [game.slug, game.title, game.summary, game.description] with
  | false => rfl
  | true =>
      cases s.core.findBySlug game.slug with
      | some other => rfl
      | none =>
          cases s.core.issued.contains choice.uuid with
          | true => rfl
          | false =>
              cases s.core.users.find? game.publisherUserId with
              | none => rfl
              | some user => rfl

theorem insertsAddressable_call {i : Nat} {choice : Choice} {t : Task} {α : Type} {c : Call α}
    {k : α → Task} (hi : w.tasks[i]? = some t) (hn : t.next env = .call c k) :
    insertsAddressable env w (.resume i choice) = true ↔
      ∀ game, c.newGame = some game → w.shared.insertsGame env choice game = true →
        addressable ⟨choice.uuid, game.slug, game.publisherUserId, game.visibility⟩ = true := by
  simp only [insertsAddressable, hi, Option.bind_some, Task.newGame, hn]
  cases hc : c.newGame with
  | none => simp
  | some game => cases hin : w.shared.insertsGame env choice game <;> simp [hin, addressable]

theorem addressable_exec (h : ∀ g ∈ s.core.games, addressable g = true) (choice : Choice)
    {α : Type} {c : Call α} (hc : ∀ game, c.newGame = some game →
      s.insertsGame env choice game = true →
      addressable ⟨choice.uuid, game.slug, game.publisherUserId, game.visibility⟩ = true) :
    ∀ g ∈ (exec env choice c s).2.core.games, addressable g = true := by
  have hother : c.newGame = none →
      ∀ g ∈ (exec env choice c s).2.core.games, addressable g = true := by
    intro hnone g hg
    obtain ⟨old, hold, hid, hslug⟩ := games_kept choice hnone g hg
    have haddressable := h old hold
    rwa [addressable, hid, hslug] at haddressable
  cases c with
  | createGame game =>
      intro g hg
      rw [exec, createGame_games] at hg
      split_ifs at hg with hinserts
      · rcases Table.eq_or_mem_of_mem_insert hg with rfl | hold
        · exact hc game rfl hinserts
        · exact h g hold
      · exact h g hg
  | _ => exact hother rfl

/-- A game that has been inserted is there after the step. -/
theorem addressable_of_step {l : Move} (hsound : Sound w.shared)
    (h : ∀ g ∈ ((storefront env).step w l).shared.core.games, addressable g = true) :
    insertsAddressable env w l = true := by
  cases l with
  | request r => rfl
  | outside e => rfl
  | resume i choice =>
      cases hi : w.tasks[i]? with
      | none => simp only [insertsAddressable, hi, Option.bind_none]
      | some t =>
          cases hn : t.next env with
          | done => simp only [insertsAddressable, hi, Option.bind_some, Task.newGame, hn]
          | call c k =>
              rw [System.step_resume (storefront env) hi hn] at h
              refine (insertsAddressable_call hi hn).mpr (fun game hc hinserts => ?_)
              -- the drawn id is new, so the inserted row is the one under it
              have hfresh : w.shared.core.games.find? choice.uuid = none := by
                rw [Table.find?_eq_none]
                intro g hg hid
                have hissued := hsound.games g hg
                simp only [State.insertsGame, Bool.and_eq_true, Bool.not_eq_true',
                  List.contains_eq_mem, decide_eq_false_iff_not] at hinserts
                exact hinserts.1.2 (hid ▸ hissued)
              cases c with
              | createGame game' =>
                  obtain rfl : game' = game := Option.some.inj hc
                  refine h _ ?_
                  show _ ∈ (w.shared.createGame env choice game').2.core.games
                  rw [createGame_games, if_pos hinserts, Table.mem_insert hfresh]
                  exact .inl rfl
              | _ => cases hc

end Run

/-- **Games are found under their slugs**, at every point of a run, if and only if no game is
inserted whose slug is a uuid other than the game's. The slugs that are accepted or generated
include uuids, those in lower case. -/
theorem addressed_by_slug_iff (env : Env) (w : Server) (hw : Initial w) (ls : List Move) :
    (∀ slug : Bytes, ((validateSlug slug = .ok () ∨ ∃ title, slugify title = slug) →
        isUuid slug = false) ↔ ¬ (isUuid slug = true ∧ ∀ c ∈ slug, toLower c = c)) ∧
    ((∀ pre post, ls = pre ++ post → AddressedBySlug env ((storefront env).run w pre).shared) ↔
      (storefront env).Along (fun w l => insertsAddressable env w l = true) w ls) := by
  refine ⟨slug_isUuid_iff, ?_⟩
  have haddressed : ∀ pre, AddressedBySlug env ((storefront env).run w pre).shared ↔
      ∀ g ∈ ((storefront env).run w pre).shared.core.games, addressable g = true :=
    fun pre => addressedBySlug_iff_addressable (slugs_run hw pre)
  constructor
  · intro hpoints
    -- between two good points no bad row can have been inserted
    refine System.along_of_points (I := fun w => Sound w.shared ∧
        ∀ g ∈ w.shared.core.games, addressable g = true)
      (fun w' l hbefore hafter => addressable_of_step hbefore.1 hafter.2) ls w ?_
    exact fun pre post hls => ⟨sound_run hw pre, (haddressed pre).mp (hpoints pre post hls)⟩
  · rintro halong pre post rfl
    rw [haddressed]
    refine (System.pool_invariant (S := storefront env)
      (G := fun s => ∀ g ∈ s.core.games, addressable g = true) (L := fun _ _ => True)
      (fun _ _ _ => trivial) ?call ?outside pre w ?start (fun _ _ _ => trivial)
      (System.along_append.mp halong).1).1
    case call =>
      intro w' i choice t hg _ hi hl
      cases hn : t.next env with
      | done =>
          rw [show (storefront env).next t = .done from hn]
          trivial
      | call c k =>
          rw [show (storefront env).next t = .call c k from hn]
          intro r s' he
          have hkept := addressable_exec hg choice ((insertsAddressable_call hi hn).mp hl)
          rw [show s' = (exec env choice c w'.shared).2 from (congrArg Prod.snd he).symm]
          exact ⟨hkept, trivial, fun _ _ _ _ => trivial⟩
    case outside =>
      intro e s hg
      refine ⟨?_, fun _ _ => trivial⟩
      cases e <;> exact hg
    case start =>
      intro g hg
      rw [hw.games] at hg
      cases hg

namespace Demo

open Launcher.Demo (alice)

def uuidSlug : Bytes := ascii "01234567-89ab-cdef-0123-456789abcdef"

/-- A game is published under a slug that looks like an id; it gets the id 4. -/
def publishedAsUuid : List Move :=
  .request (.createGame alice ⟨ascii "Game", uuidSlug, [], [], [], .Public⟩) :: drawing 4 0 1

def uuidGame : Game := ⟨4, uuidSlug, 1, .Public⟩

end Demo

theorem addressed_by_slug_iff_published :
    (∀ slug : Bytes, ((validateSlug slug = .ok () ∨ ∃ title, slugify title = slug) →
        isUuid slug = false) ↔ ¬ (isUuid slug = true ∧ ∀ c ∈ slug, toLower c = c)) ∧
    ((∀ pre post, Demo.published = pre ++ post →
        AddressedBySlug Demo.env ((storefront Demo.env).run Demo.opened pre).shared) ↔
      (storefront Demo.env).Along (fun w l => insertsAddressable Demo.env w l = true) Demo.opened
        Demo.published) :=
  addressed_by_slug_iff Demo.env Demo.opened Demo.initial_opened Demo.published

/-- The slug is accepted, taken for an id, and leads nowhere. -/
theorem uuid_as_slug :
    validateSlug Demo.uuidSlug = .ok () ∧ isUuid Demo.uuidSlug = true ∧
    ¬ AddressedBySlug Demo.env
      ((storefront Demo.env).run Demo.opened Demo.publishedAsUuid).shared := by
  refine ⟨by decide +kernel, by decide +kernel, fun h => ?_⟩
  have hrow : Demo.uuidGame ∈
      ((storefront Demo.env).run Demo.opened Demo.publishedAsUuid).shared.core.games.rows := by
    decide +kernel
  have haddressable := (addressedBySlug_iff_addressable (slugs_run Demo.initial_opened
    Demo.publishedAsUuid)).mp h Demo.uuidGame hrow
  exact absurd haddressable (by decide +kernel)

end Launcher.Storefront
