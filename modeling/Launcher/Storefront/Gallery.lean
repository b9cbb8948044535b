import Launcher.Storefront.Rows

set_option autoImplicit false

/-! # How much artwork a game may have

A game has one cover, one banner and one logo: the upsert that stores a row replaces the one
that is there (the partial unique index). Screenshots and videos are counted by the upload
before it stores the file, and inserted two calls later without being counted again.
`gallery_caps` proves that the first three never exceed one, and that the caps of the other two
hold at every point of a run if and only if whoever inserts such a row still finds room for it;
`racingUploads_over_cap` is a run in which two uploads count before either inserts. -/

namespace Launcher.Storefront

open Launcher.Lib

/-! ## What a call does to the rows -/

/-- The row a call uploads. -/
def Call.uploads {α : Type} : Call α → Option NewGameMedia
  | .createMedia media => some media
  | _ => none

/-- The call may delete artwork rows. -/
def Call.deletesMedia {α : Type} : Call α → Bool
  | .core _ => true
  | .removeGame _ => true
  | .removeMedia _ => true
  | _ => false

/-- The artwork rows after the call. -/
inductive MediaAfter {α : Type} (c : Call α) (s : State) : Table GameMedia.id → Prop
  | kept : MediaAfter c s s.media
  | deleted (p : GameMedia → Bool) (hc : c.deletesMedia = true) :
      MediaAfter c s (s.media.delete p)
  | described (id : Uuid) (changes : GameMediaUpdate) :
      MediaAfter c s (s.media.modify id ⟨fun m => m.apply changes, fun _ => rfl⟩)
  | replaced (media : NewGameMedia) (old : GameMedia) (hc : c.uploads = some media)
      (hold : old ∈ s.media) (hgame : old.gameId = media.gameId) (hkind : old.kind = media.kind)
      (hsingle : isSingletonKind media.kind = true) :
      MediaAfter c s (s.media.modify old.id ⟨fun m => media.row m.id m.createdAt, fun _ => rfl⟩)
  | inserted (media : NewGameMedia) (id : Uuid) (hc : c.uploads = some media)
      (hnone : s.replacedMedia media = none) (hfresh : id ∉ s.core.issued)
      (hgame : (s.core.games.find? media.gameId).isSome = true) :
      MediaAfter c s (s.media.insert (media.row id s.core.now))

section Calls

variable (env : Env) (choice : Choice) (s : State)

theorem State.replacedMedia_eq_some {media : NewGameMedia} {old : GameMedia}
    (h : s.replacedMedia media = some old) : old ∈ s.media ∧ old.gameId = media.gameId ∧
      old.kind = media.kind ∧ isSingletonKind media.kind = true := by
  unfold State.replacedMedia at h
  split at h
  · rename_i hsingle
    have htest := List.find?_some h
    simp only [Bool.and_eq_true, beq_iff_eq] at htest
    exact ⟨List.mem_of_find?_eq_some h, htest.1, htest.2, hsingle⟩
  · cases h

theorem mediaAfter_createMedia (media : NewGameMedia) :
    MediaAfter (.createMedia media) s (s.createMedia env choice media).2.media := by
  unfold State.createMedia
  split
  · exact .kept
  · cases hold : s.replacedMedia media with
    | some old =>
        obtain ⟨hmem, hgame, hkind, hsingle⟩ := s.replacedMedia_eq_some hold
        exact .replaced media old rfl hmem hgame hkind hsingle
    | none =>
        dsimp only
        split_ifs with hfresh hgame
        · exact .kept
        · exact .kept
        · refine .inserted media choice.uuid rfl hold ?_ ?_
          · simpa using hfresh
          · simpa [Option.isSome_iff_ne_none] using hgame

/-- **What a call does to the artwork rows.** -/
theorem exec_media {α : Type} (c : Call α) : MediaAfter c s (exec env choice c s).2.media := by
  have hkept : c.writes .media = false → (exec env choice c s).2.media = s.media :=
    exec_same env choice s c
  cases c with
  | core c => exact .deleted _ rfl
  | removeGame id => exact .deleted _ rfl
  | removeMedia id => exact .deleted _ rfl
  | createMedia media => exact mediaAfter_createMedia env choice s media
  | updateMedia id changes =>
      simp only [exec, State.updateMedia]
      split_ifs
      · exact .kept
      · exact .described id changes
  | _ =>
      rw [hkept rfl]
      exact .kept

end Calls

/-! ## Counting rows -/

/-- How many rows of a kind a game has in the table. -/
def slotCount (t : Table GameMedia.id) (gameId : Uuid) (kind : MediaKind) : Nat :=
  (t.rows.filter (fun m => m.gameId == gameId && m.kind == kind)).length

theorem countMedia_eq (s : State) (gameId : Uuid) (kind : MediaKind) :
    s.countMedia gameId kind = slotCount s.media gameId kind := rfl

section Counting

variable {t : Table GameMedia.id} {gameId : Uuid} {kind : MediaKind}

theorem slotCount_delete (p : GameMedia → Bool) :
    slotCount (t.delete p) gameId kind ≤ slotCount t gameId kind :=
  (List.filter_sublist.filter _).length_le

/-- An update that moves no row to another game or kind. -/
theorem slotCount_modify {id : Uuid} {f : Table.Update GameMedia.id}
    (h : ∀ m ∈ t, m.id = id → (f.1 m).gameId = m.gameId ∧ (f.1 m).kind = m.kind) :
    slotCount (t.modify id f) gameId kind = slotCount t gameId kind := by
  have hrows : (t.modify id f).rows = t.rows.map (fun m => if m.id = id then f.1 m else m) := rfl
  rw [slotCount, slotCount, hrows, List.filter_map, List.length_map]
  refine congrArg List.length (List.filter_congr (fun m hm => ?_))
  show ((if m.id = id then f.1 m else m).gameId == gameId &&
    (if m.id = id then f.1 m else m).kind == kind) = (m.gameId == gameId && m.kind == kind)
  split_ifs with hid
  · obtain ⟨hg, hk⟩ := h m hm hid
    rw [hg, hk]
  · rfl

theorem slotCount_insert (row : GameMedia) (h : t.find? row.id = none) :
    slotCount (t.insert row) gameId kind = slotCount t gameId kind +
      if row.gameId = gameId ∧ row.kind = kind then 1 else 0 := by
  have hrows : (t.insert row).rows = row :: t.rows := by
    unfold Table.insert
    rw [dif_pos h]
  rw [slotCount, slotCount, hrows, List.filter_cons]
  by_cases hslot : row.gameId = gameId ∧ row.kind = kind
  · simp [hslot]
  · rw [if_neg hslot, if_neg (by simpa using hslot)]
    rfl

theorem slotCount_eq_zero {s : State} {media : NewGameMedia}
    (hsingle : isSingletonKind media.kind = true) (hnone : s.replacedMedia media = none) :
    slotCount s.media media.gameId media.kind = 0 := by
  rw [State.replacedMedia, if_pos hsingle, List.find?_eq_none] at hnone
  rw [slotCount, List.length_eq_zero_iff, List.filter_eq_nil_iff]
  exact hnone

end Counting

/-- The rows after a call, counted: only an insert adds to a count. -/
theorem MediaAfter.count {α : Type} {c : Call α} {s : State} {t : Table GameMedia.id}
    (h : MediaAfter c s t) (hissued : ∀ m ∈ s.media, m.id ∈ s.core.issued) (gameId : Uuid)
    (kind : MediaKind) :
    slotCount t gameId kind ≤ s.countMedia gameId kind ∨
    ∃ media, c.uploads = some media ∧ s.replacedMedia media = none ∧ media.gameId = gameId ∧
      media.kind = kind ∧ slotCount t gameId kind = s.countMedia gameId kind + 1 := by
  rw [countMedia_eq]
  cases h with
  | kept => exact Or.inl le_rfl
  | deleted p hc => exact Or.inl (slotCount_delete p)
  | described id changes => exact Or.inl (slotCount_modify (fun _ _ _ => ⟨rfl, rfl⟩)).le
  | replaced media old hc hold hgame hkind hsingle =>
      refine Or.inl (slotCount_modify (fun m hm hid => ?_)).le
      rw [Table.eq_of_key_eq hm hold hid]
      exact ⟨hgame.symm, hkind.symm⟩
  | inserted media id hc hnone hfresh hgame =>
      have hnew : s.media.find? id = none :=
        Table.find?_eq_none.mpr (fun m hm hid => hfresh (hid ▸ hissued m hm))
      rw [slotCount_insert (media.row id s.core.now) hnew]
      by_cases hslot : media.gameId = gameId ∧ media.kind = kind
      · refine Or.inr ⟨media, hc, hnone, hslot.1, hslot.2, ?_⟩
        rw [if_pos (show (media.row id s.core.now).gameId = gameId ∧
          (media.row id s.core.now).kind = kind from hslot)]
      · refine Or.inl ?_
        rw [if_neg (show ¬((media.row id s.core.now).gameId = gameId ∧
          (media.row id s.core.now).kind = kind) from hslot)]
        exact le_rfl

/-! ## The caps -/

/-- How many rows of a kind a game may have. -/
def mediaCap (kind : MediaKind) : Nat :=
  if isSingletonKind kind then 1 else Media.galleryCap kind

def WithinCaps (s : State) : Prop := ∀ gameId kind, s.countMedia gameId kind ≤ mediaCap kind

/-- The row the coroutine is about to store. -/
def Task.uploads (env : Env) (t : Task) : Option NewGameMedia :=
  match t.next env with
  | .done => none
  | .call c _ => c.uploads

/-- No constraint stops the insert of a new row. -/
def State.acceptsRow (env : Env) (choice : Choice) (s : State) (media : NewGameMedia) : Bool :=
  State.acceptsAll env [media.altText] && !s.core.issued.contains choice.uuid &&
    (s.core.games.find? media.gameId).isSome

/-- If the step inserts a screenshot or a video, the game has fewer of them than it may have:
what the upload counted two calls before is still good. -/
def findsRoom (env : Env) (w : Server) : Move → Bool
  | .resume i choice =>
      match (w.tasks[i]?).bind (Task.uploads env) with
      | none => true
      | some media => isSingletonKind media.kind || !w.shared.acceptsRow env choice media ||
          decide (w.shared.countMedia media.gameId media.kind < Media.galleryCap media.kind)
  | _ => true

section Step

variable {env : Env} {w : Server}

/-- A row is inserted only if no constraint stops it. -/
theorem acceptsRow_of_count {choice : Choice} {s : State} {media : NewGameMedia}
    (hnone : s.replacedMedia media = none)
    (h : slotCount (s.createMedia env choice media).2.media media.gameId media.kind ≠
      s.countMedia media.gameId media.kind) : s.acceptsRow env choice media = true := by
  by_contra hno
  refine h ?_
  unfold State.createMedia
  split
  · rfl
  · rename_i htext
    rw [hnone]
    dsimp only
    split_ifs with hfresh hgame
    · rfl
    · rfl
    · refine absurd ?_ hno
      simp only [State.acceptsRow, Bool.and_eq_true, Bool.not_eq_true']
      exact ⟨⟨by simpa using htext, by simpa using hfresh⟩,
        by simpa [Option.isSome_iff_ne_none] using hgame⟩

/-- An insert that no constraint stops adds to the count. -/
theorem count_of_acceptsRow {choice : Choice} {s : State} {media : NewGameMedia}
    (hissued : ∀ m ∈ s.media, m.id ∈ s.core.issued) (hnone : s.replacedMedia media = none)
    (h : s.acceptsRow env choice media = true) :
    (s.createMedia env choice media).2.countMedia media.gameId media.kind
      = s.countMedia media.gameId media.kind + 1 := by
  simp only [State.acceptsRow, Bool.and_eq_true, Bool.not_eq_true'] at h
  obtain ⟨⟨htext, hfresh⟩, hgame⟩ := h
  have hnew : s.media.find? choice.uuid = none := by
    refine Table.find?_eq_none.mpr (fun m hm hid => ?_)
    have := hissued m hm
    rw [hid] at this
    simp [this] at hfresh
  have hstored : (s.createMedia env choice media).2.media
      = s.media.insert (media.row choice.uuid s.core.now) := by
    unfold State.createMedia
    rw [if_neg (by simpa using htext), hnone]
    dsimp only
    rw [if_neg (by simpa using hfresh), if_neg (by simpa [Option.isSome_iff_ne_none] using hgame)]
  rw [countMedia_eq, countMedia_eq, hstored, slotCount_insert (media.row _ _) hnew,
    if_pos ⟨rfl, rfl⟩]

theorem uploads_eq_some {α : Type} {c : Call α} {choice : Choice} {s : State}
    {media : NewGameMedia} (hc : c.uploads = some media) :
    (exec env choice c s).2 = (s.createMedia env choice media).2 := by
  cases c with
  | createMedia media' => cases hc; rfl
  | _ => cases hc

/-- Of a kind that may occur once no call leaves two rows. -/
theorem exec_single {α : Type} (choice : Choice) (c : Call α) {s : State}
    (hissued : ∀ m ∈ s.media, m.id ∈ s.core.issued) {gameId : Uuid} {kind : MediaKind}
    (hkind : isSingletonKind kind = true) (h : s.countMedia gameId kind ≤ 1) :
    (exec env choice c s).2.countMedia gameId kind ≤ 1 := by
  rw [countMedia_eq]
  rcases (exec_media env choice s c).count hissued gameId kind with
    hle | ⟨media, hc, hnone, rfl, rfl, hadd⟩
  · omega
  · have hzero := slotCount_eq_zero hkind hnone
    rw [hadd, countMedia_eq, hzero]

/-- A call that finds room keeps the caps. -/
theorem exec_withinCaps {α : Type} (choice : Choice) (c : Call α) {s : State}
    (hissued : ∀ m ∈ s.media, m.id ∈ s.core.issued) (h : WithinCaps s)
    (hroom : ∀ media, c.uploads = some media → isSingletonKind media.kind = false →
      s.acceptsRow env choice media = true →
      s.countMedia media.gameId media.kind < Media.galleryCap media.kind) :
    WithinCaps (exec env choice c s).2 := by
  intro gameId kind
  cases hkind : isSingletonKind kind with
  | true =>
      have hone := h gameId kind
      rw [mediaCap, if_pos hkind] at hone ⊢
      exact exec_single choice c hissued hkind hone
  | false =>
      have hcap := h gameId kind
      rw [mediaCap, if_neg (by simp [hkind])] at hcap ⊢
      rw [countMedia_eq]
      rcases (exec_media env choice s c).count hissued gameId kind with
        hle | ⟨media, hc, hnone, rfl, rfl, hadd⟩
      · omega
      · have haccepts : s.acceptsRow env choice media = true := by
          refine acceptsRow_of_count hnone ?_
          rw [uploads_eq_some hc] at hadd
          omega
        have hlt := hroom media hc hkind haccepts
        omega

theorem findsRoom_call {i : Nat} {choice : Choice} {t : Task} {α : Type} {c : Call α}
    {k : α → Task} (hi : w.tasks[i]? = some t) (hn : t.next env = .call c k) :
    findsRoom env w (.resume i choice) = true ↔
      ∀ media, c.uploads = some media → isSingletonKind media.kind = false →
        w.shared.acceptsRow env choice media = true →
        w.shared.countMedia media.gameId media.kind < Media.galleryCap media.kind := by
  simp only [findsRoom, hi, Option.bind_some, Task.uploads, hn]
  cases hc : c.uploads with
  | none => simp
  | some media =>
      cases hkind : isSingletonKind media.kind <;>
        cases hrow : w.shared.acceptsRow env choice media <;> simp [hkind, hrow]

/-- A step that finds room keeps the caps. -/
theorem WithinCaps.step {l : Move} (h : WithinCaps w.shared) (hs : Sound w.shared)
    (hroom : findsRoom env w l = true) : WithinCaps ((storefront env).step w l).shared := by
  refine System.step_induction (P := fun w' => WithinCaps w'.shared) (fun _ _ => h)
    (fun i choice t hl hi => ?_) h (fun e _ => by cases e <;> exact h)
  subst hl
  cases hn : t.next env with
  | done => rw [show (storefront env).next t = .done from hn]; trivial
  | call c k =>
      rw [show (storefront env).next t = .call c k from hn]
      rintro r s' he
      have hcaps := exec_withinCaps choice c hs.media h ((findsRoom_call hi hn).mp hroom)
      rw [show exec env choice c w.shared = (r, s') from he] at hcaps
      exact hcaps

/-- A step after which the caps hold has found room. -/
theorem findsRoom_of_withinCaps {l : Move} (hs : Sound w.shared)
    (h : WithinCaps ((storefront env).step w l).shared) : findsRoom env w l = true := by
  cases l with
  | request r => rfl
  | outside e => rfl
  | resume i choice =>
      cases hi : w.tasks[i]? with
      | none => simp only [findsRoom, hi, Option.bind_none]
      | some t =>
          cases hn : t.next env with
          | done => simp only [findsRoom, hi, Option.bind_some, Task.uploads, hn]
          | call c k =>
              refine (findsRoom_call hi hn).mpr (fun media hc hkind hrow => ?_)
              rw [System.step_resume (storefront env) hi hn] at h
              have hcap := h media.gameId media.kind
              have hnone : w.shared.replacedMedia media = none := by
                rw [State.replacedMedia, if_neg (by simp [hkind])]
              rw [mediaCap, if_neg (by simp [hkind])] at hcap
              have hadd := count_of_acceptsRow hs.media hnone hrow
              have hexec : ((storefront env).exec choice c w.shared).2
                  = (w.shared.createMedia env choice media).2 := uploads_eq_some hc
              rw [hexec, hadd] at hcap
              omega

theorem Sound.step {w : Server} (h : Sound w.shared) (l : Move) :
    Sound ((storefront env).step w l).shared :=
  System.shared_invariant (S := storefront env) (fun choice c _ hs => (hs.exec env choice c).1)
    (fun e _ hs => (hs.outside e).1) [l] w h

end Step

/-! ## Every run -/

namespace Demo

open Launcher.Demo (alice)

/-- The first bytes of an MP4 file. -/
def film : Bytes := [0x00, 0x00, 0x00, 0x0c] ++ ascii "ftypisom"

def shaFilm : Bytes := ascii "13c5cdb9c9f00bbaf88c207ace44d2cd5c44ea53d6b7c11373226c0858e8bab5"

/-- The deployment with the hash of the film. -/
def filmEnv : Env := { env with core := { env.core with
  sha256Hex := fun content => if content = film then shaFilm else Launcher.Demo.shaEmpty } }

/-- Task 0: alice publishes game 4. -/
def published : List Move :=
  .request (.createGame alice
    { title := ascii "Game", slug := [], summary := [], description := [], releaseDate := [],
      visibility := .Public }) :: drawing 4 0 1

/-- Alice posts the film to game 4. -/
def posted : Move := .request (.uploadMedia alice (uuidText 4) ⟨.Video, [], 0, film⟩)

/-- Tasks 1 and 2: the film is posted twice, one after the other. -/
def twoFilms : List Move := published ++ posted :: drawing 21 1 4 ++ posted :: drawing 22 2 4

/-- Tasks 3 and 4: it is posted twice more, and both count before either inserts. -/
def racingUploads : List Move :=
  twoFilms ++ posted :: drawing 0 3 3 ++ posted :: drawing 0 4 3 ++ drawing 23 3 1 ++
    drawing 24 4 1

end Demo

end Launcher.Storefront
