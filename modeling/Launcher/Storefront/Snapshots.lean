import Launcher.Storefront.Artwork

set_option autoImplicit false

/-! # Statements that report what they displace

Two statements report storage keys for the service to reclaim. `PgMediaRepository::create` reads
the key of the row it replaces and `PgGameRepository::remove` those of the artwork of the game it
deletes, each in a `SELECT` of its own that sees the tables as they were when the statement began:
another statement may commit between the `SELECT` and the write, and if both write the same row
the second one waits for the first. Here the two are two steps (`Statement`), and `statements` is
the catalog with its coroutines interleaved at that grain; `run_refines` says that it has all the
runs of `storefront`.

A file that no row names is never found again, since nothing sweeps the media store.
`artwork_is_named` proves that none is left behind in a run in which every upload's insert
succeeds, or its file is named anyway, and no key is displaced behind the back of the statement
that displaces it; `files_left_behind` has runs in which one of these fails. -/

namespace Launcher.Storefront

open Launcher.Lib

/-! ## Statements in two steps -/

/-- The upsert stores its row. -/
def State.storesMedia (env : Env) (choice : Choice) (s : State) (media : NewGameMedia) : Bool :=
  State.acceptsAll env [media.altText] &&
    ((s.replacedMedia media).isSome || s.acceptsRow env choice media)

/-- What the upsert can do: nothing, replace a row, or insert one. -/
theorem State.createMedia_outcome (env : Env) (choice : Choice) (s : State)
    (media : NewGameMedia) :
    (s.storesMedia env choice media = false ∧
      ∃ e, s.createMedia env choice media = (.error e, s)) ∨
    (∃ old, s.replacedMedia media = some old ∧ s.storesMedia env choice media = true ∧
      s.createMedia env choice media =
        (.ok ⟨media.row old.id old.createdAt,
          if old.storageKey = media.storageKey then [] else old.storageKey⟩, { s with
            media := s.media.modify old.id
              ⟨fun m => media.row m.id m.createdAt, fun _ => rfl⟩ })) ∨
    (s.replacedMedia media = none ∧ s.storesMedia env choice media = true ∧
      s.createMedia env choice media = (.ok ⟨media.row choice.uuid s.core.now, []⟩, { s with
        core := { s.core with issued := choice.uuid :: s.core.issued }
        media := s.media.insert (media.row choice.uuid s.core.now) })) := by
  unfold State.createMedia State.storesMedia
  split
  · rename_i htexts
    have htexts' : State.acceptsAll env [media.altText] = false := by simpa using htexts
    exact Or.inl ⟨by rw [htexts']; rfl, _, rfl⟩
  · rename_i htexts
    have htexts' : State.acceptsAll env [media.altText] = true := by simpa using htexts
    cases hold : s.replacedMedia media with
    | some old => exact Or.inr (Or.inl ⟨old, rfl, by rw [htexts']; rfl, rfl⟩)
    | none =>
        dsimp only
        split_ifs with hfresh hgame
        · refine Or.inl ⟨?_, _, rfl⟩
          simp [State.acceptsRow, htexts', List.contains_iff_mem.mp hfresh]
        · refine Or.inl ⟨?_, _, rfl⟩
          simp only [Option.isNone_iff_eq_none] at hgame
          simp [State.acceptsRow, hgame]
        · refine Or.inr (Or.inr ⟨rfl, ?_, rfl⟩)
          have hsome : (s.core.games.find? media.gameId).isSome = true := by
            simpa [Option.isSome_iff_ne_none] using hgame
          have hnew : s.core.issued.contains choice.uuid = false := by simpa using hfresh
          simp only [State.acceptsRow, htexts', hnew, hsome]
          rfl

/-- The statement reads storage keys before it writes. -/
def Call.readsFirst {α : Type} : Call α → Bool
  | .createMedia _ => true
  | .removeGame _ => true
  | _ => false

/-- The storage keys its `SELECT` reads: `previous` of an upsert, `doomed` of a deletion. -/
def State.snapshot (s : State) {α : Type} : Call α → List Bytes
  | .createMedia media => ((s.replacedMedia media).map (·.storageKey)).toList
  | .removeGame id => (s.media.rows.filter (fun m => m.gameId == id)).map (·.storageKey)
  | _ => []

/-- What the statement replies after its `SELECT` has read `keys`. -/
def Call.report : {α : Type} → Call α → List Bytes → α → α
  | _, .createMedia _, keys, .ok stored =>
      let previous := keys.headD []
      .ok ⟨stored.media, if previous = stored.media.storageKey then [] else previous⟩
  | _, .removeGame _, keys, some _ => some keys
  | _, _, _, reply => reply

inductive Statement : Type → Type 1
  | snapshot {α : Type} (c : Call α) : Statement (List Bytes)
  | write {α : Type} (c : Call α) (keys : List Bytes) : Statement α

def execStatement (env : Env) (choice : Choice) : {α : Type} → Statement α → State → α × State
  | _, .snapshot c, s => (s.snapshot c, s)
  | _, .write c keys, s =>
      let r := exec env choice c s
      (c.report keys r.1, r.2)

/-- A coroutine, with what the `SELECT` of its statement has read if it is between the two. -/
structure Pending : Type 1 where
  task : Task
  keys : Option (List Bytes)

def Pending.next (env : Env) (t : Pending) : Suspended Statement Pending :=
  match t.task.next env with
  | .done => .done
  | .call c k =>
      if c.readsFirst && t.keys.isNone then .call (.snapshot c) (fun keys => ⟨t.task, some keys⟩)
      else .call (.write c (t.keys.getD [])) (fun reply => ⟨k reply, none⟩)

/-- The catalog, with its statements in two steps. -/
def statements (env : Env) : System State Pending Request Choice Outside Statement where
  entry r := ⟨entry env r, none⟩
  next := Pending.next env
  exec := execStatement env
  outside := outside

abbrev Backends := World State Pending

/-! ## The catalog's runs are among its runs -/

/-- The same world, with no coroutine inside a statement. -/
def atRest (w : Server) : Backends := ⟨w.shared, w.tasks.map (fun t => ⟨t, none⟩)⟩

section Refines

variable (env : Env)

/-- A statement that nothing comes into reports what it displaces. -/
theorem write_snapshot (choice : Choice) (s : State) {α : Type} (c : Call α) :
    execStatement env choice (.write c (s.snapshot c)) s = exec env choice c s := by
  cases c with
  | createMedia media =>
      simp only [execStatement, exec, State.snapshot]
      obtain ⟨_, e, he⟩ | ⟨old, hold, _, he⟩ | ⟨hnone, _, he⟩ :=
        s.createMedia_outcome env choice media
      · rw [he]
        rfl
      · rw [he, hold]
        rfl
      · rw [he, hnone]
        simp [Call.report]
  | removeGame id =>
      simp only [execStatement, exec, State.snapshot, State.removeGame]
      split_ifs <;> rfl
  | _ => rfl

/-- Other statements report nothing else than they reply. -/
theorem write_whole (choice : Choice) (s : State) {α : Type} {c : Call α} (keys : List Bytes)
    (h : c.readsFirst = false) :
    execStatement env choice (.write c keys) s = exec env choice c s := by
  cases c with
  | createMedia media => cases h
  | removeGame id => cases h
  | _ => rfl

/-- A step of the catalog in one or two steps of its statements. -/
theorem step_refines (w : Server) (l : Move) :
    ∃ ls, (statements env).run (atRest w) ls = atRest ((storefront env).step w l) := by
  cases l with
  | request r => exact ⟨[.request r], by simp [atRest, System.step, statements, storefront]⟩
  | outside e => exact ⟨[.outside e], rfl⟩
  | resume i choice =>
      cases hi : w.tasks[i]? with
      | none =>
          have hidle : (storefront env).step w (.resume i choice) = w := by
            simp only [System.step, hi]
          exact ⟨[], by rw [hidle]; rfl⟩
      | some t =>
          have hi' : (atRest w).tasks[i]? = some ⟨t, none⟩ := by simp [atRest, hi]
          cases hn : t.next env with
          | done => exact ⟨[], by rw [System.step_idle (storefront env) hi hn]; rfl⟩
          | call c k =>
              rw [System.step_resume (storefront env) hi hn]
              cases hc : c.readsFirst with
              | false =>
                  have hnext : (statements env).next ⟨t, none⟩
                      = .call (.write c []) (fun reply => ⟨k reply, none⟩) := by
                    simp [statements, Pending.next, hn, hc]
                  refine ⟨[.resume i choice], ?_⟩
                  rw [System.run_cons, System.step_resume (statements env) hi' hnext]
                  show World.mk (execStatement env choice (.write c []) w.shared).2
                    ((w.tasks.map (fun u => Pending.mk u none)).set i
                      ⟨k (execStatement env choice (.write c []) w.shared).1, none⟩) = _
                  rw [write_whole env choice w.shared [] hc, ← List.map_set]
                  rfl
              | true =>
                  -- the snapshot is still good when the statement writes
                  have hread : (statements env).next ⟨t, none⟩
                      = .call (.snapshot c) (fun keys => ⟨t, some keys⟩) := by
                    simp [statements, Pending.next, hn, hc]
                  have hwrite : (statements env).next ⟨t, some (w.shared.snapshot c)⟩
                      = .call (.write c (w.shared.snapshot c))
                        (fun reply => ⟨k reply, none⟩) := by
                    simp [statements, Pending.next, hn]
                  have hi'' : ((atRest w).tasks.set i ⟨t, some (w.shared.snapshot c)⟩)[i]?
                      = some ⟨t, some (w.shared.snapshot c)⟩ := by
                    have hlt := (List.getElem?_eq_some_iff.mp hi').1
                    rw [List.getElem?_set_self hlt]
                  refine ⟨[.resume i choice, .resume i choice], ?_⟩
                  rw [System.run_cons, System.step_resume (statements env) hi' hread,
                    System.run_cons, System.run_nil]
                  show (statements env).step
                    ⟨w.shared, (atRest w).tasks.set i ⟨t, some (w.shared.snapshot c)⟩⟩ _ = _
                  rw [System.step_resume (statements env) hi'' hwrite]
                  show World.mk (execStatement env choice (.write c _) w.shared).2
                    (((w.tasks.map (fun u => Pending.mk u none)).set i _).set i
                      ⟨k (execStatement env choice (.write c _) w.shared).1, none⟩) = _
                  rw [write_snapshot env choice w.shared c, List.set_set, ← List.map_set]
                  rfl

/-- Every run of the catalog, at the grain of its statements. -/
theorem run_refines : ∀ (ls : List Move) (w : Server),
    ∃ ls', (statements env).run (atRest w) ls' = atRest ((storefront env).run w ls)
  | [], w => ⟨[], rfl⟩
  | l :: ls, w => by
      obtain ⟨first, hfirst⟩ := step_refines env w l
      obtain ⟨rest, hrest⟩ := run_refines ls ((storefront env).step w l)
      refine ⟨first ++ rest, ?_⟩
      rw [System.run_append, hfirst, hrest, System.run_cons]

end Refines

/-! ## Who has to remove a file -/

/-- The deletion of the upload side, which leaves no keys to anyone. The catalog has its own. -/
def Call.removesGames {α : Type} : Call α → Bool
  | .core c => c.removesGame
  | _ => false

/-- The keys a call leaves to its caller: that of the file it has stored, and those of the rows
it reports gone. -/
def Call.leaves : {α : Type} → Call α → α → List Bytes
  | _, .storeMedia _ _, .ok key => [key]
  | _, .createMedia _, .ok stored => [stored.replacedStorageKey]
  | _, .removeMedia _, some media => [media.storageKey]
  | _, .removeGame _, some keys => keys
  | _, _, _ => []

/-- The call ends what its caller owes of a file: it finds a row that names it, removes it, or
inserts a row that names it. -/
def Call.settles (key : Bytes) : {α : Type} → Call α → α → Bool
  | _, .isStorageKeyReferenced key', stillUsed => key' == key && stillUsed
  | _, .removeArtwork key', _ => key' == key
  | _, .createMedia media, _ => media.storageKey == key
  | _, _, _ => false

/-- Whatever its calls reply, the program comes to a call that settles the file. -/
def Owes {α : Type} (key : Bytes) : Coroutine α → Prop
  | .done _ => False
  | .call c k => ∀ r, c.settles key r = true ∨ Owes key (k r)

/-- Of every file that one of its calls leaves to it, the program owes something. -/
def Tends {α : Type} : Coroutine α → Prop
  | .done _ => True
  | .call c k => c.removesGames = false ∧
      ∀ r, (∀ key ∈ c.leaves r, key ≠ [] → Owes key (k r)) ∧ Tends (k r)

/-- The program ends with an answer and never with an exception. -/
def Answers {α : Type} : Coroutine α → Prop
  | .done (.ok _) => True
  | .done (.error _) => False
  | .call _ k => ∀ r, Answers (k r)

section Tends

variable {α β : Type} {key : Bytes} {f : α → Coroutine β}

theorem Owes.bind : ∀ {p : Coroutine α}, Owes key p → Owes key (p >>= f)
  | .done _, h => h.elim
  | .call _ _, h => fun r => (h r).imp_right Owes.bind

/-- What the second part owes is owed from the start if the first part answers. -/
theorem Answers.owes (hf : ∀ a, Owes key (f a)) :
    ∀ {p : Coroutine α}, Answers p → Owes key (p >>= f)
  | .done (.ok a), _ => hf a
  | .done (.error _), h => h.elim
  | .call _ _, h => fun r => Or.inr (Answers.owes hf (h r))

theorem Tends.bind : ∀ {p : Coroutine α}, Tends p → (∀ a, Tends (f a)) → Tends (p >>= f)
  | .done (.ok a), _, hf => hf a
  | .done (.error _), _, _ => trivial
  | .call _ _, h, hf =>
      ⟨h.1, fun r => ⟨fun key hkey hne => ((h.2 r).1 key hkey hne).bind, (h.2 r).2.bind hf⟩⟩

theorem leaves_of_quiet {γ : Type} {c : Call γ} (h : c.quiet = true) (r : γ) : c.leaves r = [] := by
  cases c with
  | storeMedia bytes format => cases h
  | createMedia media => cases h
  | removeMedia id => cases h
  | removeGame id => cases h
  | _ => rfl

theorem removesGames_of_quiet {γ : Type} {c : Call γ} (h : c.quiet = true) :
    c.removesGames = false := by
  cases c with
  | core c =>
      cases c with
      | removeGame id => cases h
      | _ => rfl
  | _ => rfl

theorem Tends.of_quiet : ∀ {p : Coroutine α}, Quiet p → Tends p
  | .done _, _ => trivial
  | .call _ _, h => by
      refine ⟨removesGames_of_quiet h.1, fun r => ⟨fun key hkey => ?_, Tends.of_quiet (h.2 r)⟩⟩
      rw [leaves_of_quiet h.1] at hkey
      cases hkey

theorem owes_reclaim (hkey : key ≠ []) : Owes key (reclaim key) := by
  unfold reclaim
  rw [if_neg (by simpa using hkey)]
  intro stillUsed
  cases stillUsed with
  | true => exact Or.inl (by simp [Call.settles])
  | false => exact Or.inr (fun _ => Or.inl (by simp [Call.settles]))

theorem answers_reclaim (storageKey : Bytes) : Answers (reclaim storageKey) := by
  unfold reclaim
  split_ifs
  · trivial
  · intro stillUsed
    cases stillUsed with
    | true => trivial
    | false => exact fun _ => trivial

theorem owes_reclaimAll (hkey : key ≠ []) :
    ∀ {keys : List Bytes}, key ∈ keys → Owes key (reclaimAll keys)
  | first :: rest, hmem => by
      rcases List.mem_cons.mp hmem with rfl | hrest
      · exact (owes_reclaim hkey).bind
      · exact (answers_reclaim first).owes (fun _ => owes_reclaimAll hkey hrest)

end Tends

theorem tends_upload (env : Env) (actor : Actor) (gameId : Bytes)
    (command : Media.UploadMediaCommand) : Tends (Media.upload env actor gameId command) := by
  refine (Tends.of_quiet (plain_editableGame actor gameId).quiet).bind (fun game =>
    (Tends.of_quiet (plain_require _).quiet).bind (fun format =>
      (Tends.of_quiet (plain_checkGallery game.id command.kind).quiet).bind (fun _ => ⟨rfl, ?_⟩)))
  intro stored
  cases stored with
  | error e => exact ⟨fun key hkey => (by cases hkey), trivial⟩
  | ok storageKey =>
      -- the insert is the next call, whatever comes of it
      refine ⟨fun key hkey _ created => Or.inl ?_, rfl, fun created => ?_⟩
      · rw [List.mem_singleton.mp hkey]
        exact beq_self_eq_true storageKey
      · cases created with
        | error e => exact ⟨fun key hkey => (by cases hkey), trivial⟩
        | ok created =>
            show (∀ key ∈ [created.replacedStorageKey], key ≠ [] →
              Owes key (reclaim created.replacedStorageKey >>= fun _ => pure created.media)) ∧
              Tends (reclaim created.replacedStorageKey >>= fun _ => pure created.media)
            refine ⟨fun key hkey hne => ?_, ?_⟩
            · rw [List.mem_singleton.mp hkey] at hne ⊢
              exact (owes_reclaim hne).bind
            · exact (Tends.of_quiet (plain_reclaim _).quiet).bind (fun _ => trivial)

theorem tends_removeMedia (actor : Actor) (mediaId : Bytes) :
    Tends (Media.remove actor mediaId) := by
  refine (Tends.of_quiet (plain_editableMedia actor mediaId).quiet).bind (fun _ => ⟨rfl, ?_⟩)
  intro removed
  cases removed with
  | none => exact ⟨fun key hkey => (by cases hkey), trivial⟩
  | some removed =>
      refine ⟨fun key hkey hne => ?_, Tends.of_quiet (plain_reclaim removed.storageKey).quiet⟩
      rw [List.mem_singleton.mp hkey] at hne ⊢
      exact owes_reclaim hne

theorem tends_deleteGame (actor : Actor) (idOrSlug : Bytes) :
    Tends (deleteGame actor idOrSlug) := by
  refine (Tends.of_quiet (plain_editableGame actor idOrSlug).quiet).bind (fun game => ⟨rfl, ?_⟩)
  intro removed
  cases removed with
  | none => exact ⟨fun key hkey => (by cases hkey), trivial⟩
  | some keys =>
      exact ⟨fun key hkey hne => owes_reclaimAll hne hkey, Tends.of_quiet (plain_reclaimAll keys).quiet⟩

theorem tends_entry (env : Env) (r : Request) {p : Coroutine Reply}
    (hp : (entry env r).body = .program p) : Tends p := by
  cases htouches : r.touchesArtwork with
  | false => exact .of_quiet (quiet_entry env htouches hp)
  | true =>
      have hanswer : ∀ {α : Type} {q : Coroutine α} {reply : α → Reply}, Tends q →
          Tends (q >>= fun a => pure (reply a)) := fun h => h.bind (fun _ => trivial)
      cases r with
      | core r =>
          cases r with
          | deleteGame actor idOrSlug => cases hp; exact hanswer (tends_deleteGame actor idOrSlug)
          | _ => cases htouches
      | uploadMedia actor gameId command =>
          cases hp; exact hanswer (tends_upload env actor gameId command)
      | removeMedia actor mediaId => cases hp; exact hanswer (tends_removeMedia actor mediaId)
      | _ => cases htouches

/-! ## What a statement knows of the rows it takes away -/

/-- A row that is not one of those with `p` names the file. -/
def State.namedApartFrom (s : State) (p : GameMedia → Bool) (key : Bytes) : Bool :=
  s.media.rows.any (fun m => m.storageKey == key && !p m)

/-- An upsert stores its row, unless a row names the file already or the file is not there; and
a key that the statement takes from a row is one that its `SELECT` has read, or that another row
has too. -/
def Call.accounted (env : Env) (choice : Choice) (s : State) (keys : List Bytes) {α : Type} :
    Call α → Bool
  | .createMedia media =>
      if s.storesMedia env choice media then
        match s.replacedMedia media with
        | none => true
        | some old => old.storageKey == media.storageKey || old.storageKey == keys.headD [] ||
            s.namedApartFrom (fun m => m.id == old.id) old.storageKey
      else s.isStorageKeyReferenced media.storageKey || (s.artwork media.storageKey).isNone
  | .removeGame id => s.media.rows.all (fun m => m.gameId != id || keys.contains m.storageKey ||
      s.namedApartFrom (fun m => m.gameId == id) m.storageKey)
  | _ => true

section Writes

variable (env : Env) (choice : Choice) {s : State} {key : Bytes} {keys : List Bytes}

theorem named_iff : s.isStorageKeyReferenced key = true ↔ ∃ m ∈ s.media, m.storageKey = key := by
  simp only [State.isStorageKeyReferenced, List.any_eq_true, beq_iff_eq]
  rfl

theorem namedApartFrom_iff {p : GameMedia → Bool} :
    s.namedApartFrom p key = true ↔ ∃ m ∈ s.media, m.storageKey = key ∧ p m = false := by
  simp only [State.namedApartFrom, List.any_eq_true, Bool.and_eq_true, beq_iff_eq,
    Bool.not_eq_true']
  rfl

/-- A file that is new was stored by the call, and the call leaves it to its caller. -/
theorem new_is_left (keys : List Bytes) {α : Type} {c : Call α}
    (h : ((exec env choice c s).2.artwork key).isSome = true) :
    (s.artwork key).isSome = true ∨
      key ∈ c.leaves (execStatement env choice (.write c keys) s).1 ∧ key ≠ [] := by
  cases c with
  | storeMedia bytes format =>
      rw [write_whole env choice s keys rfl]
      simp only [exec, State.storeMedia] at h ⊢
      split_ifs at h ⊢ with hempty hthere
      · exact Or.inl h
      · exact Or.inl h
      · by_cases hkey : key = State.mediaKeyFor (env.core.sha256Hex bytes) format
        · subst hkey
          cases hf : choice.fault <;> rw [hf] at h <;> first
            | exact Or.inl h
            | exact Or.inr ⟨List.mem_singleton.mpr rfl, by simpa using hempty⟩
        · cases hf : choice.fault <;> rw [hf] at h <;> first
            | exact Or.inl h
            | exact Or.inl (by simpa [Function.update_of_ne hkey] using h)
  | removeArtwork key' =>
      refine Or.inl ?_
      by_cases hkey : key = key'
      · rw [hkey] at h
        simp [exec, State.removeArtwork] at h
      · simpa [exec, State.removeArtwork, Function.update_of_ne hkey] using h
  | _ =>
      rw [exec_artwork_eq env choice s _ rfl] at h
      exact Or.inl h

/-- Most statements leave every key named. -/
theorem named_kept {α : Type} {c : Call α} (hdeletes : c.deletesMedia = false)
    (huploads : c.uploads = none) (h : s.isStorageKeyReferenced key = true) :
    (exec env choice c s).2.isStorageKeyReferenced key = true := by
  obtain ⟨m, hm, hkey⟩ := named_iff.mp h
  refine named_iff.mpr ?_
  have hafter := exec_media env choice s c
  generalize (exec env choice c s).2.media = t at hafter ⊢
  cases hafter with
  | kept => exact ⟨m, hm, hkey⟩
  | deleted p hc => exact absurd (hc.symm.trans hdeletes) (by simp)
  | described id changes =>
      by_cases hid : m.id = id
      · exact ⟨m.apply changes, Table.mem_modify.mpr (Or.inl ⟨m, hm, hid, rfl⟩), hkey⟩
      · exact ⟨m, Table.mem_modify.mpr (Or.inr ⟨hm, hid⟩), hkey⟩
  | replaced media old hc => exact absurd (hc.symm.trans huploads) (by simp)
  | inserted media id hc => exact absurd (hc.symm.trans huploads) (by simp)

theorem removeGame_named {id : Uuid} {m : GameMedia} (hm : m ∈ s.media) (hgame : m.gameId ≠ id) :
    m ∈ (s.removeGame id).2.media := by
  have hsame : (s.core.removeGame id).2.games.find? m.gameId = s.core.games.find? m.gameId := by
    show (s.core.games.delete _).find? m.gameId = _
    rw [Table.find?_delete_eq]
    cases hfound : s.core.games.find? m.gameId with
    | none => rfl
    | some g =>
        have hid := Table.key_of_find? hfound
        simp [hid, hgame]
  refine Table.mem_delete.mpr ⟨hm, ?_⟩
  show ((s.core.games.find? m.gameId).isSome &&
    ((s.core.removeGame id).2.games.find? m.gameId).isNone) = false
  rw [hsame]
  cases s.core.games.find? m.gameId <;> rfl

/-- A deletion of a game that is not there changes no artwork. -/
theorem removeGame_missing {id : Uuid} (h : (s.removeGame id).1 = none) :
    (s.removeGame id).2.media = s.media := by
  have hnone : s.core.games.find? id = none := by
    cases hfound : s.core.games.find? id with
    | none => rfl
    | some g => simp [State.removeGame, Launcher.State.removeGame, hfound] at h
  refine Table.delete_eq_self (fun m hm => ?_)
  show ((s.core.games.find? m.gameId).isSome &&
    ((s.core.games.delete _).find? m.gameId).isNone) = false
  cases hfound : s.core.games.find? m.gameId with
  | none => rfl
  | some g =>
      have hid : g.id = m.gameId := Table.key_of_find? hfound
      have hne : m.gameId ≠ id := fun heq => by rw [heq, hnone] at hfound; cases hfound
      rw [Table.find?_delete_eq, hfound]
      simp [hid, hne]

theorem removeGame_accounted {id : Uuid}
    (hok : Call.accounted env choice s keys (.removeGame id) = true)
    (h : s.isStorageKeyReferenced key = true) :
    (s.removeGame id).2.isStorageKeyReferenced key = true ∨
      key ∈ Call.leaves (.removeGame id)
        (Call.report (.removeGame id) keys (s.removeGame id).1) := by
  obtain ⟨m, hm, rfl⟩ := named_iff.mp h
  cases hreply : (s.removeGame id).1 with
  | none => exact Or.inl (named_iff.mpr ⟨m, by rw [removeGame_missing hreply]; exact hm, rfl⟩)
  | some all =>
      have hrow := List.all_eq_true.mp hok m hm
      simp only [Bool.or_eq_true, bne_iff_ne, ne_eq] at hrow
      rcases hrow with (hgame | hread) | helse
      · exact Or.inl (named_iff.mpr ⟨m, removeGame_named hm hgame, rfl⟩)
      · exact Or.inr (List.contains_iff_mem.mp hread)
      · obtain ⟨m', hm', hkey, hgame⟩ := namedApartFrom_iff.mp helse
        exact Or.inl (named_iff.mpr ⟨m', removeGame_named hm' (by simpa using hgame), hkey⟩)

theorem removeMedia_accounted {id : Uuid} (h : s.isStorageKeyReferenced key = true) :
    (s.removeMedia id).2.isStorageKeyReferenced key = true ∨
      key ∈ Call.leaves (.removeMedia id) (s.removeMedia id).1 := by
  obtain ⟨m, hm, rfl⟩ := named_iff.mp h
  by_cases hid : m.id = id
  · refine Or.inr ?_
    have hfound : s.media.find? id = some m := by rw [← hid]; exact Table.find?_of_mem hm
    show m.storageKey ∈ Call.leaves (.removeMedia id) (s.media.find? id)
    rw [hfound]
    exact List.mem_singleton.mpr rfl
  · exact Or.inl (named_iff.mpr ⟨m, Table.mem_delete.mpr ⟨hm, by simpa using hid⟩, rfl⟩)

theorem createMedia_accounted {media : NewGameMedia}
    (hok : Call.accounted env choice s keys (.createMedia media) = true)
    (h : s.isStorageKeyReferenced key = true) :
    (s.createMedia env choice media).2.isStorageKeyReferenced key = true ∨
      key ∈ Call.leaves (.createMedia media)
        (Call.report (.createMedia media) keys (s.createMedia env choice media).1) := by
  obtain ⟨m, hm, rfl⟩ := named_iff.mp h
  obtain ⟨_, e, he⟩ | ⟨old, hold, hstores, he⟩ | ⟨hnone, hstores, he⟩ :=
    s.createMedia_outcome env choice media
  · rw [he]
    exact Or.inl h
  · have hmem := (s.replacedMedia_eq_some hold).1
    have hother : ∀ m' ∈ s.media, m'.id ≠ old.id →
        m' ∈ (s.createMedia env choice media).2.media := by
      intro m' hm' hid
      rw [he]
      exact Table.mem_modify.mpr (Or.inr ⟨hm', hid⟩)
    have hnew : media.row old.id old.createdAt ∈ (s.createMedia env choice media).2.media := by
      rw [he]
      exact Table.mem_modify.mpr (Or.inl ⟨old, hmem, rfl, rfl⟩)
    by_cases hid : m.id = old.id
    · have hsame : m = old := Table.eq_of_key_eq hm hmem hid
      subst hsame
      simp only [Call.accounted, if_pos hstores, hold, Bool.or_eq_true, beq_iff_eq] at hok
      rcases hok with (hkey | hread) | helse
      · exact Or.inl (named_iff.mpr ⟨_, hnew, hkey.symm⟩)
      · -- what the `SELECT` has read is what the row held
        by_cases hkey : m.storageKey = media.storageKey
        · exact Or.inl (named_iff.mpr ⟨_, hnew, hkey.symm⟩)
        · refine Or.inr ?_
          rw [he]
          refine List.mem_singleton.mpr ?_
          show m.storageKey = if keys.headD [] = media.storageKey then [] else keys.headD []
          rw [← hread, if_neg hkey]
      · obtain ⟨m', hm', hkey, hne⟩ := namedApartFrom_iff.mp helse
        exact Or.inl (named_iff.mpr ⟨m', hother m' hm' (by simpa using hne), hkey⟩)
    · exact Or.inl (named_iff.mpr ⟨m, hother m hm hid, rfl⟩)
  · refine Or.inl (named_iff.mpr ⟨m, ?_, rfl⟩)
    rw [he]
    exact Table.mem_insert_of_mem hm

/-- A key that an accounted statement takes from the rows it leaves to its caller. -/
theorem named_or_left {α : Type} {c : Call α} (hcore : c.removesGames = false)
    (hok : c.accounted env choice s keys = true) (h : s.isStorageKeyReferenced key = true) :
    (execStatement env choice (.write c keys) s).2.isStorageKeyReferenced key = true ∨
      key ∈ c.leaves (execStatement env choice (.write c keys) s).1 := by
  cases c with
  | core c =>
      refine Or.inl ?_
      show List.any (s.afterCore (Launcher.exec env.core choice c s.core).2).media.rows _ = true
      rw [State.afterCore_media s (Launcher.exec_games env.core choice c s.core hcore)]
      exact h
  | removeGame id => exact removeGame_accounted env choice hok h
  | removeMedia id => exact removeMedia_accounted h
  | createMedia media => exact createMedia_accounted env choice hok h
  | _ => exact Or.inl (named_kept env choice rfl rfl h)

/-- A call that settles a file leaves no such file, or a row that names it. -/
theorem settled (hs : Sound s) {α : Type} {c : Call α} (hok : c.accounted env choice s keys = true)
    (h : c.settles key (execStatement env choice (.write c keys) s).1 = true) :
    (exec env choice c s).2.artwork key = none ∨
      (exec env choice c s).2.isStorageKeyReferenced key = true := by
  cases c with
  | isStorageKeyReferenced key' =>
      have h' : (key' == key && s.isStorageKeyReferenced key') = true := h
      simp only [Bool.and_eq_true, beq_iff_eq] at h'
      exact Or.inr (h'.1 ▸ h'.2)
  | removeArtwork key' =>
      have h' : (key' == key) = true := h
      rw [beq_iff_eq] at h'
      exact Or.inl (by simp [exec, State.removeArtwork, h'])
  | createMedia media =>
      have h' : (media.storageKey == key) = true := h
      rw [beq_iff_eq] at h'
      subst h'
      show (s.createMedia env choice media).2.artwork _ = none ∨
        (s.createMedia env choice media).2.isStorageKeyReferenced _ = true
      obtain ⟨hstores, e, he⟩ | ⟨old, hold, _, he⟩ | ⟨hnone, hstores, he⟩ :=
        s.createMedia_outcome env choice media
      · rw [he]
        simp only [Call.accounted, hstores, Bool.false_eq_true, if_false, Bool.or_eq_true,
          Option.isNone_iff_eq_none] at hok
        exact hok.symm
      · rw [he]
        exact Or.inr (named_iff.mpr ⟨_, Table.mem_modify.mpr
          (Or.inl ⟨old, (s.replacedMedia_eq_some hold).1, rfl, rfl⟩), rfl⟩)
      · rw [he]
        -- the row's id is a fresh one
        have hfresh : choice.uuid ∉ s.core.issued := by
          simp only [State.storesMedia, hnone, State.acceptsRow, Bool.and_eq_true,
            Bool.not_eq_true', Option.isSome_none, Bool.false_or] at hstores
          simpa using hstores.2.1.2
        have hnew : s.media.find? choice.uuid = none :=
          Table.find?_eq_none.mpr (fun m hm hid => hfresh (hid ▸ hs.media m hm))
        exact Or.inr (named_iff.mpr ⟨media.row choice.uuid s.core.now,
          (Table.mem_insert hnew _).mpr (Or.inl rfl), rfl⟩)
  | _ => cases h

end Writes

/-! ## Every run -/

/-- Every file of the media store is named by a row. -/
def FilesNamed (s : State) : Prop :=
  ∀ key, (s.artwork key).isSome = true → s.isStorageKeyReferenced key = true

/-- No coroutine is in front of a call. -/
def Resting (env : Env) (w : Backends) : Prop := ∀ t ∈ w.tasks, (t.next env).isDone = true

def Statement.accounted (env : Env) (choice : Choice) (s : State) {α : Type} :
    Statement α → Bool
  | .snapshot _ => true
  | .write c keys => c.accounted env choice s keys

/-- If the step is the write of a statement, then the statement is accounted for. -/
def accountedStep (env : Env) (w : Backends) : Move → Bool
  | .resume i choice =>
      match w.tasks[i]? with
      | none => true
      | some t =>
          match t.next env with
          | .done => true
          | .call c _ => c.accounted env choice w.shared
  | _ => true

/-- The coroutine owes something of the file. -/
def Task.Owes (key : Bytes) (t : Task) : Prop :=
  ∃ p, t.body = .program p ∧ Storefront.Owes key p

/-- The coroutine tends to the files it is left, and is no deletion of the upload side. -/
structure Task.Tends (t : Task) : Prop where
  program : ∀ p, t.body = .program p → Storefront.Tends p
  core : ∀ u, t.body = .core u → u.deletesGame = false

/-- What a coroutine's next call does to what it owes. -/
theorem Task.Tends.next {env : Env} {t : Task} (h : t.Tends) :
    (t.next env).All (fun c k => c.removesGames = false ∧ ∀ r, (k r).Tends ∧
      (∀ key ∈ c.leaves r, key ≠ [] → (k r).Owes key) ∧
      ∀ key, t.Owes key → c.settles key r = true ∨ (k r).Owes key) := by
  obtain ⟨actor, body⟩ := t
  cases body with
  | core u =>
      rw [next_core, Suspended.all_map]
      have hnext := u.next_removesGame env.core (h.core u rfl)
      cases hu : u.next env.core with
      | done => trivial
      | call c k =>
          rw [hu] at hnext
          refine ⟨hnext.1, fun r => ⟨⟨fun p hp => (by cases hp), fun u' hu' => ?_⟩,
            fun key hkey => (by cases hkey), fun key howes => ?_⟩⟩
          · cases hu'
            exact hnext.2 r
          · obtain ⟨p, hp, _⟩ := howes
            cases hp
  | program p =>
      have htends := h.program p rfl
      cases p with
      | done r => trivial
      | call c k =>
          refine ⟨htends.1, fun r => ⟨⟨fun p hp => ?_, fun u hu => (by cases hu)⟩,
            fun key hkey hne => ⟨k r, rfl, (htends.2 r).1 key hkey hne⟩, fun key howes => ?_⟩⟩
          · cases hp
            exact (htends.2 r).2
          · obtain ⟨p, hp, howes⟩ := howes
            cases hp
            exact (howes r).imp_right (fun hrest => ⟨k r, rfl, hrest⟩)

/-- Of every file that no row names, some coroutine owes something. -/
structure Tended (w : Backends) : Prop where
  sound : Sound w.shared
  noKey : w.shared.artwork [] = none
  files : ∀ key, (w.shared.artwork key).isSome = true →
    w.shared.isStorageKeyReferenced key = true ∨ ∃ t ∈ w.tasks, t.task.Owes key
  tasks : ∀ t ∈ w.tasks, t.task.Tends

theorem tends_start (env : Env) (r : Request) : (entry env r).Tends := by
  refine ⟨fun p hp => tends_entry env r hp, fun u hu => ?_⟩
  cases r with
  | core r =>
      cases r with
      | deleteGame actor idOrSlug => cases hu
      | _ => cases hu; rfl
  | _ => cases hu

/-- A task of the world is still there after another has moved on. -/
theorem mem_set_or {τ : Type 1} {l : List τ} {i : Nat} {t t' u : τ} (hi : l[i]? = some t)
    (hu : u ∈ l) : u ∈ l.set i t' ∨ u = t := by
  obtain ⟨j, hj⟩ := List.mem_iff_getElem?.mp hu
  by_cases hij : i = j
  · subst hij
    exact Or.inr (Option.some.inj (hj.symm.trans hi))
  · refine Or.inl (List.mem_iff_getElem?.mpr ⟨j, ?_⟩)
    rw [List.getElem?_set_ne hij]
    exact hj

section Step

variable {env : Env} {w : Backends}

/-- The world after a statement's write. -/
theorem Tended.write (h : Tended w) {i : Nat} {choice : Choice} {t : Pending} {α : Type}
    {c : Call α} {k : α → Task} {keys : List Bytes} (hi : w.tasks[i]? = some t)
    (hn : t.task.next env = .call c k) (hok : c.accounted env choice w.shared keys = true) :
    Tended ⟨(exec env choice c w.shared).2,
      w.tasks.set i ⟨k (execStatement env choice (.write c keys) w.shared).1, none⟩⟩ := by
  have hnext := @Task.Tends.next env _ (h.tasks t (List.mem_of_getElem? hi))
  rw [hn] at hnext
  obtain ⟨hcore, hrest⟩ := hnext
  obtain ⟨htends, hleft, howed⟩ := hrest (execStatement env choice (.write c keys) w.shared).1
  have hself : (⟨k (execStatement env choice (.write c keys) w.shared).1, none⟩ : Pending) ∈
      w.tasks.set i ⟨k (execStatement env choice (.write c keys) w.shared).1, none⟩ :=
    List.mem_set (List.getElem?_eq_some_iff.mp hi).1 _
  have hkeyed : ∀ key, (w.shared.artwork key).isSome = true → key ≠ [] := by
    intro key hkey hempty
    rw [hempty, h.noKey] at hkey
    cases hkey
  refine ⟨(h.sound.exec env choice c).1, ?_, fun key hkey => ?_, fun u hu => ?_⟩
  · show (exec env choice c w.shared).2.artwork [] = none
    cases hfile : (exec env choice c w.shared).2.artwork [] with
    | none => rfl
    | some bytes =>
        rcases new_is_left env choice keys (by rw [hfile]; rfl) with hold | ⟨_, hne⟩
        · exact absurd rfl (hkeyed [] hold)
        · exact absurd rfl hne
  · rcases new_is_left env choice keys hkey with hold | ⟨hnew, hne⟩
    · rcases h.files key hold with hnamed | ⟨u, hu, howes⟩
      · -- a row named the file, and the row may be gone
        rcases named_or_left env choice hcore hok hnamed with hnamed | hgone
        · exact Or.inl hnamed
        · exact Or.inr ⟨_, hself, hleft key hgone (hkeyed key hold)⟩
      · rcases mem_set_or hi hu with hstays | rfl
        · exact Or.inr ⟨u, hstays, howes⟩
        · -- the coroutine itself owed it
          rcases howed key howes with hsettles | hstill
          · rcases settled env choice h.sound hok hsettles with hnone | hnamed
            · rw [show (exec env choice c w.shared).2.artwork key = none from hnone] at hkey
              cases hkey
            · exact Or.inl hnamed
          · exact Or.inr ⟨_, hself, hstill⟩
    · exact Or.inr ⟨_, hself, hleft key hnew hne⟩
  · rcases List.mem_or_eq_of_mem_set hu with hu | rfl
    · exact h.tasks u hu
    · exact htends

theorem Tended.step (h : Tended w) {l : Move} (hok : accountedStep env w l = true) :
    Tended ((statements env).step w l) := by
  refine System.step_induction (P := Tended) (fun r _ => ?_) (fun i choice t hl hi => ?_) h
    (fun e _ => ?_)
  · refine ⟨h.sound, h.noKey, fun key hkey => ?_, fun t ht => ?_⟩
    · refine (h.files key hkey).imp_right (fun howes => ?_)
      obtain ⟨t, ht, howes⟩ := howes
      exact ⟨t, List.mem_append_left _ ht, howes⟩
    · rcases List.mem_append.mp ht with ht | ht
      · exact h.tasks t ht
      · rw [List.mem_singleton.mp ht]
        exact tends_start env r
  · subst hl
    simp only [accountedStep, hi] at hok
    show (t.next env).Wp _ _ _ _
    unfold Pending.next at hok ⊢
    cases hn : t.task.next env with
    | done => trivial
    | call c k =>
        rw [hn] at hok
        dsimp only at hok ⊢
        split_ifs at hok ⊢ with hreads
        · -- the `SELECT`
          intro keys s' he
          cases he
          refine ⟨h.sound, h.noKey, fun key hkey => ?_, fun u hu => ?_⟩
          · refine (h.files key hkey).imp_right (fun howes => ?_)
            obtain ⟨u, hu, howes⟩ := howes
            rcases mem_set_or hi hu with hstays | rfl
            · exact ⟨u, hstays, howes⟩
            · exact ⟨_, List.mem_set (List.getElem?_eq_some_iff.mp hi).1 _, howes⟩
          · rcases List.mem_or_eq_of_mem_set hu with hu | rfl
            · exact h.tasks u hu
            · exact h.tasks t (List.mem_of_getElem? hi)
        · intro reply s' he
          cases he
          exact h.write hi hn hok
  · refine ⟨(h.sound.outside e).1, ?_, ?_, h.tasks⟩ <;> cases e
    all_goals first
      | exact h.noKey
      | exact h.files

end Step

/-- A coroutine that owes something is in front of a call. -/
theorem Task.Owes.not_done {env : Env} {key : Bytes} {t : Task} (h : t.Owes key) :
    t.next env ≠ .done := by
  obtain ⟨actor, body⟩ := t
  obtain ⟨p, hp, howes⟩ := h
  cases hp
  cases p with
  | done r => exact howes.elim
  | call c k => exact fun hdone => by cases hdone

/-- **No file is left behind** in a run whose statements are accounted for: when no request is
executing, every file of the media store is named by a row. -/
theorem artwork_is_named (env : Env) (w : Server) (hw : Initial w)
    (hempty : ∀ key, w.shared.artwork key = none) (ls : List Move)
    (hok : (statements env).Along (fun w l => accountedStep env w l = true) (atRest w) ls)
    (hrest : Resting env ((statements env).run (atRest w) ls)) :
    FilesNamed ((statements env).run (atRest w) ls).shared := by
  have hstart : Tended (atRest w) := by
    refine ⟨hw.sound, hempty [], fun key hkey => ?_, fun t ht => ?_⟩
    · rw [show (atRest w).shared.artwork key = none from hempty key] at hkey
      cases hkey
    · simp only [atRest, hw.tasks, List.map_nil] at ht
      cases ht
  have htended := System.run_invariant (I := Tended) (fun w' l h hl => h.step hl) ls (atRest w)
    hstart hok
  intro key hkey
  refine (htended.files key hkey).resolve_right (fun howes => ?_)
  obtain ⟨t, ht, howes⟩ := howes
  have hdone := hrest t ht
  cases hn : t.task.next env with
  | done => exact howes.not_done hn
  | call c k =>
      unfold Pending.next at hdone
      rw [hn] at hdone
      dsimp only at hdone
      split_ifs at hdone <;> cases hdone

namespace Demo

open Launcher.Demo (alice)

/-- The first bytes of a PNG, a JPEG and a WebP picture. -/
def png : Bytes := [0x89, 0x50, 0x4e, 0x47, 0x0d, 0x0a, 0x1a, 0x0a]

def jpeg : Bytes := [0xff, 0xd8, 0xff]

def webp : Bytes := ascii "RIFF" ++ [0, 0, 0, 0] ++ ascii "WEBP"

def shaPicture (content : Bytes) : Bytes :=
  if content = png then ascii "4c4b6a3be1314ab86138bef4314dde022e600960d8689a2c8f8631802d20dab6"
  else if content = jpeg then
    ascii "6e568e1f67fba258184c78181539e5e8fdee447e49bb706fc0ea34fbf12336a5"
  else if content = webp then
    ascii "44e65465e5e82733c8e5499cdd2fb106b8b703ea3f28da3b7da7f3a661267d6e"
  else filmEnv.core.sha256Hex content

def pictureEnv : Env := { env with core := { env.core with sha256Hex := shaPicture } }

/-- Alice puts the picture on the cover of game 4. -/
def covered (content : Bytes) : Move :=
  .request (.uploadMedia alice (uuidText 4) ⟨.Cover, [], 0, content⟩)

def deleted : Move := .request (.core (.deleteGame alice (uuidText 4)))

/-- Tasks 1 to 3: the game gets a cover and another one, and is deleted. -/
def coveredAndDeleted : List Move :=
  published ++ covered png :: drawing 21 1 4 ++ covered jpeg :: drawing 22 2 6 ++
    deleted :: drawing 0 3 5

/-- Task 1 stores the file of a cover, task 2 deletes the game, and task 1 cannot insert its
row. -/
def lostUpload : List Move :=
  published ++ covered png :: drawing 21 1 2 ++ deleted :: drawing 0 2 3 ++ drawing 21 1 2

/-- Task 1 makes a cover, and tasks 2 and 3 both read it as the one they replace. -/
def racingCovers : List Move :=
  published ++ covered png :: drawing 21 1 4 ++ covered jpeg :: drawing 22 2 3 ++
    covered webp :: drawing 23 3 3 ++ drawing 22 2 3 ++ drawing 23 3 3

/-- Task 1 inserts a cover after task 2 has read what the deletion of the game takes along. -/
def coveredWhileDeleted : List Move :=
  published ++ covered png :: drawing 21 1 2 ++ deleted :: drawing 0 2 2 ++ drawing 21 1 2 ++
    drawing 0 2 1

end Demo

/-- A game with two covers, one after the other, and its deletion, on the demo deployment. -/
theorem artwork_is_named_coveredAndDeleted :
    FilesNamed
      ((statements Demo.pictureEnv).run (atRest Demo.opened) Demo.coveredAndDeleted).shared :=
  artwork_is_named Demo.pictureEnv Demo.opened Demo.initial_opened (fun _ => rfl)
    Demo.coveredAndDeleted (by decide +kernel)
    (by unfold Resting; decide +kernel)

/-- Three runs that leave a file behind: an upload whose game has been deleted meanwhile, two
uploads that replace the same cover, and a cover inserted in the middle of a deletion. -/
theorem files_left_behind :
    Initial Demo.opened ∧ (∀ key, Demo.opened.shared.artwork key = none) ∧
      ∀ ls ∈ [Demo.lostUpload, Demo.racingCovers, Demo.coveredWhileDeleted],
        Resting Demo.pictureEnv ((statements Demo.pictureEnv).run (atRest Demo.opened) ls) ∧
          ¬ FilesNamed ((statements Demo.pictureEnv).run (atRest Demo.opened) ls).shared := by
  refine ⟨Demo.initial_opened, fun _ => rfl, fun ls hls => ⟨?_, fun hnamed => ?_⟩⟩
  · unfold Resting
    revert ls
    decide +kernel
  · have hfile : ∃ content ∈ [Demo.png, Demo.jpeg], ∃ format ∈ [PNG, JPEG],
        let s := ((statements Demo.pictureEnv).run (atRest Demo.opened) ls).shared
        let key := State.mediaKeyFor (Demo.shaPicture content) format
        (s.artwork key).isSome = true ∧ s.isStorageKeyReferenced key = false := by
      clear hnamed
      revert ls
      decide +kernel
    obtain ⟨content, _, format, _, hthere, hunnamed⟩ := hfile
    rw [hnamed _ hthere] at hunnamed
    cases hunnamed

end Launcher.Storefront
