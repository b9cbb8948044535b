import Launcher.Server.System

set_option autoImplicit false

/-! # Files at content addresses

The only call that creates a file at a content address is `commit`, and it does so from bytes
of that hash; the only call that removes one is the collector's `discard`. Every other file
step stays below `staging/`, which no content address meets. So a file at the address of `h`
hashes to `h`, nothing writes into it while it exists, and a blob row is recorded only by a
completion that has seen such a file. -/

namespace Launcher

open Launcher.Lib

/-! ## Steps below `staging/` -/

/-- The path a call works on is a staging file, and the call does not commit it. -/
def StagingOnly {α : Type} : Call α → Prop
  | .writeAt path _ _ => ∃ id, path = stagingPathFor id
  | .discard path => ∃ id, path = stagingPathFor id
  | .commit _ _ => False
  | _ => True

/-- The only file steps outside `staging/` are the commit of a completion and the collector's
`discard`. -/
theorem Task.next_stagingOnly (env : Env) {t : Task}
    (hc : ∀ session, t ≠ .uploadChunk (.completing session .commit))
    (hd : ∀ deleted blob rest report, t ≠ .collectBlobs (.discard deleted blob rest report)) :
    (t.next env).All (fun c _ => StagingOnly c) := by
  by_cases hk : t.kind.writesFiles = true
  · cases t with
    | uploadChunk t =>
        rw [Task.next, Suspended.all_map]
        cases t with
        | completing session point =>
            cases point with
            | commit => exact absurd rfl (hc session)
            | discardHeld => exact ⟨session.id, rfl⟩
            | discardRefused => exact ⟨session.id, rfl⟩
            | _ => trivial
        | writeAt session reserved offset chunk => exact ⟨session.id, rfl⟩
        | discardUnwritten session e => exact ⟨session.id, rfl⟩
        | _ => trivial
    | abortUpload t =>
        rw [Task.next, Suspended.all_map]
        cases t with
        | discard session => exact ⟨session.id, rfl⟩
        | _ => trivial
    | sweepSessions t =>
        rw [Task.next, Suspended.all_map]
        cases t with
        | discard session rest reclaimed => exact ⟨session.id, rfl⟩
        | _ => trivial
    | collectBlobs t =>
        rw [Task.next, Suspended.all_map]
        cases t with
        | discard deleted blob rest report => exact absurd rfl (hd deleted blob rest report)
        | _ => trivial
    | _ => cases hk
  · refine (t.next_permits env).mono (fun c _ h => ?_)
    cases c with
    | writeAt path offset data => exact absurd (h.1.files rfl) hk
    | commit path sha256 => exact absurd (h.1.files rfl) hk
    | discard path => exact absurd (h.1.files rfl) hk
    | _ => trivial

/-- Removing a staging file removes no other. -/
theorem remove_staging {sha256 : Bytes} {p : Path} (hp : pathFor sha256 = some p) (files : Files)
    (id : Uuid) : files.remove (stagingPathFor id) p = files p :=
  Files.remove_ne _ (pathFor_ne_staging hp id)

theorem exec_stagingOnly {env : Env} {choice : Choice} {α : Type} {c : Call α} {s s' : State}
    {r : α} (hc : StagingOnly c) (e : exec env choice c s = (r, s')) {sha256 : Bytes} {p : Path}
    (hp : pathFor sha256 = some p) : s'.files p = s.files p := by
  by_cases hw : c.writesFiles = true
  · cases c with
    | writeAt path offset data =>
        obtain ⟨id, rfl⟩ := hc
        cases e
        exact writeAt_frame _ _ _ _ _ (pathFor_ne_staging hp id)
    | commit path sha256 => exact hc.elim
    | discard path =>
        obtain ⟨id, rfl⟩ := hc
        cases e
        exact remove_staging hp s.files id
    | _ => cases hw
  · have hf := Frame.of_exec e
    rw [hf.files (by simpa using hw)]

/-! ## The file at a content address -/

/-- Task `t` is about to commit `content`, which hashes to the address `sha256`. -/
def Commits (env : Env) (s : State) (t : Task) (sha256 content : Bytes) : Prop :=
  ∃ session, t = .uploadChunk (.completing session .commit) ∧ session.blobSha256 = sha256 ∧
    s.files (stagingPathFor session.id) = some content ∧ env.sha256Hex content = sha256

/-- What a step of `t` can do to the file at an address without removing it: nothing, or
create it from the content `t` commits. -/
def OnlyCreates (env : Env) (s : State) (t : Task) (s' : State) : Prop :=
  ∀ sha256 p, pathFor sha256 = some p → s'.files p = s.files p ∨
    (s.files p = none ∧ ∃ content, Commits env s t sha256 content ∧ s'.files p = some content)

theorem commit_onlyCreates (env : Env) (choice : Choice) (s : State) (session : UploadSession) :
    (Task.next env (.uploadChunk (.completing session .commit))).Wp (exec env) choice s
      (fun s' _ => OnlyCreates env s (.uploadChunk (.completing session .commit)) s') := by
  rw [Task.next, Suspended.wp_map]
  intro r s' e sha256 p hp
  have hc := exec_commit e
  obtain ⟨_, h, _⟩ | ⟨_, h⟩ | ⟨target, content, ht, hst, hsha, ⟨_, _, h⟩ | ⟨hnone, h⟩⟩ :=
    commit_cases env.sha256Hex s.files choice.fault (stagingPathFor session.id) session.blobSha256
  · exact Or.inl (congrFun (congrArg Prod.snd (hc.symm.trans h)) p)
  · exact Or.inl ((congrFun (congrArg Prod.snd (hc.symm.trans h)) p).trans
      (remove_staging hp s.files session.id))
  · exact Or.inl ((congrFun (congrArg Prod.snd (hc.symm.trans h)) p).trans
      (remove_staging hp s.files session.id))
  · have hs' : s'.files = (s.files.remove (stagingPathFor session.id)).set target content :=
      congrArg Prod.snd (hc.symm.trans h)
    rw [hs']
    by_cases hpt : p = target
    · subst hpt
      have he : session.blobSha256 = sha256 := pathFor_injective ht hp
      exact Or.inr ⟨hnone, content, ⟨session, rfl, he, hst, hsha.trans he⟩, Files.set_self _ _ _⟩
    · exact Or.inl ((Files.set_ne _ _ hpt).trans (remove_staging hp s.files session.id))

theorem Task.next_onlyCreates {env : Env} {choice : Choice} {s : State} {t : Task}
    (hd : ∀ deleted blob rest report, t ≠ .collectBlobs (.discard deleted blob rest report)) :
    (t.next env).Wp (exec env) choice s (fun s' _ => OnlyCreates env s t s') := by
  by_cases hc : ∃ session, t = .uploadChunk (.completing session .commit)
  · obtain ⟨session, rfl⟩ := hc
    exact commit_onlyCreates env choice s session
  · push Not at hc
    exact (t.next_stagingOnly env hc hd).wp
      (fun c _ h r s' e sha256 p hp => Or.inl (exec_stagingOnly h e hp))

/-! ## A committed file -/

/-- There is a file at the address of `sha256`, and it hashes to it. -/
def HoldsContent (env : Env) (files : Files) (sha256 : Bytes) : Prop :=
  ∃ p content, pathFor sha256 = some p ∧ files p = some content ∧
    env.sha256Hex content = sha256

/-- Every file at a content address hashes to it. -/
def Addressed (env : Env) (s : State) : Prop :=
  ∀ sha256 p content, pathFor sha256 = some p → s.files p = some content →
    env.sha256Hex content = sha256

/-- After a successful commit the content is in place. -/
theorem commit_holdsContent {env : Env} {files files' : Files} {fault : IoFault} {staging : Path}
    {sha256 : Bytes} (ha : ∀ p content, pathFor sha256 = some p → files p = some content →
      env.sha256Hex content = sha256) (hne : ∀ p, pathFor sha256 = some p → p ≠ staging)
    (e : commit env.sha256Hex files fault staging sha256 = (.ok (), files')) :
    HoldsContent env files' sha256 := by
  obtain ⟨_, h, _⟩ | ⟨_, h⟩ | ⟨target, content, ht, _, hsha, ⟨old, hold, h⟩ | ⟨_, h⟩⟩ :=
    commit_cases env.sha256Hex files fault staging sha256
  · cases h.symm.trans e
  · cases h.symm.trans e
  · cases h.symm.trans e
    refine ⟨target, old, ht, ?_, ha target old ht hold⟩
    rw [Files.remove_ne _ (hne target ht)]
    exact hold
  · cases h.symm.trans e
    exact ⟨target, content, ht, Files.set_self _ _ _, hsha⟩

/-! ## Steps of tasks -/

/-- What any step can do to the file at an address: nothing, remove it, or create it. -/
def AddressStep (env : Env) (s s' : State) : Prop :=
  ∀ sha256 p, pathFor sha256 = some p → s'.files p = s.files p ∨ s'.files p = none ∨
    (s.files p = none ∧ ∃ content, env.sha256Hex content = sha256 ∧ s'.files p = some content)

theorem OnlyCreates.addressStep {env : Env} {s s' : State} {t : Task}
    (h : OnlyCreates env s t s') : AddressStep env s s' := by
  intro sha256 p hp
  rcases h sha256 p hp with he | ⟨hnone, content, ⟨_, _, _, _, hsha⟩, he⟩
  · exact Or.inl he
  · exact Or.inr (Or.inr ⟨hnone, content, hsha, he⟩)

/-- The collector's `discard` removes one file. -/
theorem discard_files (env : Env) (choice : Choice) (s : State) (deleted : BlobRow)
    (blob : CollectableBlob) (rest : List CollectableBlob) (report : SweepReport) :
    (Task.next env (.collectBlobs (.discard deleted blob rest report))).Wp (exec env) choice s
      (fun s' _ => ∀ p, s'.files p = s.files p ∨ s'.files p = none) := by
  intro r s' e p
  cases e
  by_cases hpe : p = (pathFor blob.sha256).getD []
  · right
    rw [hpe]
    exact Files.remove_self _ _
  · left
    exact Files.remove_ne _ hpe

theorem Task.next_addressStep (env : Env) (choice : Choice) (s : State) (t : Task) :
    (t.next env).Wp (exec env) choice s (fun s' _ => AddressStep env s s') := by
  by_cases h : ∃ deleted blob rest report, t = .collectBlobs (.discard deleted blob rest report)
  · obtain ⟨deleted, blob, rest, report, rfl⟩ := h
    exact (discard_files env choice s deleted blob rest report).mono
      (fun _ _ hs _ p _ => (hs p).imp_right Or.inl)
  · push Not at h
    exact (Task.next_onlyCreates h).mono (fun _ _ hs => hs.addressStep)

theorem addressStep_step (env : Env) (w : Server) (l : Move) :
    AddressStep env w.shared ((server env).step w l).shared := by
  have hrefl : ∀ s' : State, s'.files = w.shared.files → AddressStep env w.shared s' :=
    fun s' h _ p _ => Or.inl (by rw [h])
  refine System.step_induction (P := fun w' => AddressStep env w.shared w'.shared)
    (fun _ _ => hrefl _ rfl) (fun i choice t _ _ => t.next_addressStep env choice w.shared)
    (hrefl _ rfl) (fun e _ => hrefl _ ?_)
  show (outside e w.shared).files = w.shared.files
  cases e <;> rfl

theorem AddressStep.addressed {env : Env} {s s' : State} (h : AddressStep env s s')
    (ha : Addressed env s) : Addressed env s' := by
  intro sha256 p content hp hc
  rcases h sha256 p hp with he | he | ⟨_, content', hsha, he⟩
  · exact ha sha256 p content hp (he.symm.trans hc)
  · rw [he] at hc; cases hc
  · rw [he] at hc
    cases hc
    exact hsha

theorem addressed_run (env : Env) {w : Server} (hw : Initial w) (ls : List Move) :
    Addressed env ((server env).run w ls).shared := by
  refine System.run_invariant (S := server env) (I := fun w => Addressed env w.shared)
    (A := fun _ _ => True) (fun w l h _ => (addressStep_step env w l).addressed h) ls w
    (fun sha256 p content _ hc => ?_) (System.along_true w ls)
  rw [hw.files p] at hc
  cases hc

/-- As long as the file is there after every step, its contents stay. -/
theorem contents_stay (env : Env) {sha256 : Bytes} {p : Path} (hp : pathFor sha256 = some p)
    {content : Bytes} : ∀ (ls : List Move) (w : Server), w.shared.files p = some content →
      (∀ k ≤ ls.length, ((server env).run w (ls.take k)).shared.files p ≠ none) →
      ((server env).run w ls).shared.files p = some content
  | [], _, hc, _ => hc
  | l :: ls, w, hc, hex => by
      have hc' : ((server env).step w l).shared.files p = some content := by
        rcases addressStep_step env w l sha256 p hp with he | he | ⟨hnone, _⟩
        · exact he.trans hc
        · exact absurd he (hex 1 (by simp))
        · rw [hc] at hnone; cases hnone
      refine contents_stay env hp ls _ hc' (fun k hk => ?_)
      exact hex (k + 1) (by simpa using hk)

/-! ## Where the rows come from -/

/-- Rows of `blobs` are written at two points only. -/
theorem Task.next_blobs (env : Env) {t : Task}
    (hr : ¬ ∃ session, t = .uploadChunk (.completing session .recordBlob))
    (hd : ¬ ∃ blob rest report, t = .collectBlobs (.deleteIfUnreferenced blob rest report)) :
    (t.next env).All (fun c _ => c.writesBlobs = false) := by
  by_cases hk : t.kind.writesBlobs = true
  · cases t with
    | uploadChunk t =>
        rw [Task.next, Suspended.all_map]
        cases t with
        | completing session point =>
            cases point with
            | recordBlob => exact absurd ⟨session, rfl⟩ hr
            | _ => exact rfl
        | _ => trivial
    | collectBlobs t =>
        rw [Task.next, Suspended.all_map]
        cases t with
        | deleteIfUnreferenced blob rest report => exact absurd ⟨blob, rest, report, rfl⟩ hd
        | _ => trivial
    | _ => cases hk
  · refine (t.next_permits env).mono (fun c _ h => ?_)
    by_contra hc
    exact hk (h.1.blobs (by simpa using hc))

/-- The only way to the point before `record` is a successful commit. -/
theorem Task.next_recordBlob {env : Env} {choice : Choice} {s : State} (ha : Addressed env s)
    (t : Task) : (t.next env).Wp (exec env) choice s (fun s' t' =>
      ∀ session, t' = .uploadChunk (.completing session .recordBlob) →
        t = .uploadChunk (.completing session .commit) ∧
        HoldsContent env s'.files session.blobSha256) := by
  by_cases hk : t.kind = .uploadChunk
  · cases t with
    | uploadChunk t =>
        rw [Task.next, Suspended.wp_map]
        cases t with
        | findSession actor id offset chunk =>
            intro r s' _ session h
            obtain ⟨_, hr⟩ | ⟨_, _, _, _, hr⟩ := admitted_cases env actor offset chunk r <;>
              rw [hr] at h <;> cases h
        | reserveBytes session offset chunk =>
            intro r s' _ _ h
            cases r <;> cases h
        | writeAt session reserved offset chunk =>
            intro r s' _ _ h
            obtain ⟨_, _, hr⟩ | ⟨_, _, hr⟩ | ⟨_, _, hr⟩ := written_cases session reserved r <;>
              rw [hr] at h <;> cases h
        | completing session point =>
            cases point with
            | commit =>
                intro r s' e session' h
                cases r with
                | error error => cases h
                | ok u =>
                    cases h
                    exact ⟨rfl, commit_holdsContent (fun p content hp hc => ha _ p content hp hc)
                      (fun p hp => pathFor_ne_staging hp session.id) (exec_commit e)⟩
            | findBySha256 => intro r s' _ _ h; cases r <;> cases h
            | chargeUpload => intro r s' _ _ h; cases r <;> cases h
            | recordBlob => intro r s' _ _ h; cases r <;> cases h
            | _ => intro r s' _ _ h; cases h
        | _ => first | trivial | (intro r s' _ _ h; cases h)
    | _ => cases hk
  · refine (t.next_keeps env choice s).mono (fun s' t' h session he => ?_)
    rw [he] at h
    exact absurd h.2.symm hk

/-- A row that a step adds is the one a completion records. -/
theorem Task.next_rows (env : Env) (choice : Choice) (s : State) (t : Task) :
    (t.next env).Wp (exec env) choice s (fun s' _ => ∀ b ∈ s'.blobs, b ∈ s.blobs ∨
      ∃ session, t = .uploadChunk (.completing session .recordBlob) ∧
        s.blobs.find? b.sha256 = none ∧ b =
          { sha256 := session.blobSha256, sizeBytes := session.declaredSizeBytes,
            storageKey := storageKeyFor session.blobSha256, createdAt := s.now,
            uploadedByUserId := some session.userId }) := by
  by_cases hr : ∃ session, t = .uploadChunk (.completing session .recordBlob)
  · obtain ⟨session, rfl⟩ := hr
    intro r s' e b hb
    obtain ⟨_, _, h⟩ | ⟨hnone, h⟩ := s.recordBlob_cases session.blobSha256
      session.declaredSizeBytes (storageKeyFor session.blobSha256) (some session.userId)
    · cases h.symm.trans e
      exact Or.inl hb
    · cases h.symm.trans e
      rcases Table.eq_or_mem_of_mem_insert hb with rfl | hb
      · exact Or.inr ⟨session, rfl, hnone, rfl⟩
      · exact Or.inl hb
  · by_cases hd : ∃ blob rest report, t = .collectBlobs (.deleteIfUnreferenced blob rest report)
    · obtain ⟨blob, rest, report, rfl⟩ := hd
      intro r s' e b hb
      obtain h | ⟨_, _, _, h⟩ := s.deleteIfUnreferenced_cases blob.sha256 env.blobGrace
      · cases h.symm.trans e
        exact Or.inl hb
      · cases h.symm.trans e
        exact Or.inl (Table.mem_delete.mp hb).1
    · refine (t.next_blobs env hr hd).wp (fun c k hc r s' e b hb => Or.inl ?_)
      have hf := Frame.of_exec e
      rw [← hf.blobs hc]
      exact hb

/-! ## The history of a row -/

section History

variable (env : Env) (w : Server)

/-- In the steps `ls`, task `i` committed the content of `session`: the step was taken at its
commit, and after it the content was in place. -/
def CommittedBy (ls : List Move) (i : Nat) (session : UploadSession) : Prop :=
  ∃ before choice between, ls = before ++ .resume i choice :: between ∧
    ((server env).run w before).tasks[i]? = some (.uploadChunk (.completing session .commit)) ∧
    HoldsContent env ((server env).run w (before ++ [.resume i choice])).shared.files
      session.blobSha256

/-- In the steps `ls`, the row `b` was inserted by a completion that had committed before. -/
def InsertedBy (ls : List Move) (b : BlobRow) : Prop :=
  ∃ steps i choice session after, ls = steps ++ .resume i choice :: after ∧
    CommittedBy env w steps i session ∧ session.blobSha256 = b.sha256 ∧
    ((server env).run w steps).tasks[i]?
      = some (.uploadChunk (.completing session .recordBlob)) ∧
    ((server env).run w steps).shared.blobs.find? b.sha256 = none ∧
    b ∈ ((server env).run w (steps ++ [.resume i choice])).shared.blobs

variable {env w}

theorem CommittedBy.snoc {ls : List Move} {i : Nat} {session : UploadSession}
    (h : CommittedBy env w ls i session) (l : Move) : CommittedBy env w (ls ++ [l]) i session := by
  obtain ⟨before, choice, between, rfl, ht, hc⟩ := h
  exact ⟨before, choice, between ++ [l], by simp, ht, hc⟩

theorem InsertedBy.snoc {ls : List Move} {b : BlobRow} (h : InsertedBy env w ls b) (l : Move) :
    InsertedBy env w (ls ++ [l]) b := by
  obtain ⟨steps, i, choice, session, after, rfl, h⟩ := h
  exact ⟨steps, i, choice, session, after ++ [l], by simp, h⟩

/-- What is known of the steps taken: every task in front of `record` has committed, and every
row was inserted by a task that had. -/
structure Recorded (env : Env) (w : Server) (ls : List Move) (w' : Server) : Prop where
  tasks : ∀ (i : Nat) session, w'.tasks[i]? = some (.uploadChunk (.completing session .recordBlob)) →
    CommittedBy env w ls i session
  rows : ∀ b ∈ w'.shared.blobs, InsertedBy env w ls b

theorem entry_ne_completing (r : Request) (session : UploadSession) (point : CompletePoint) :
    entry r ≠ .uploadChunk (.completing session point) := by
  cases r with
  | uploadChunk actor id offset chunk =>
      simp only [entry, uploadChunk]
      split <;> simp
  | _ => simp [entry]

theorem recorded_step (hw : Initial w) {ls : List Move} {l : Move}
    (h : Recorded env w ls ((server env).run w ls)) :
    Recorded env w (ls ++ [l]) ((server env).step ((server env).run w ls) l) := by
  have hrun : (server env).run w (ls ++ [l]) = (server env).step ((server env).run w ls) l :=
    System.run_append _ w ls [l]
  have ha : Addressed env ((server env).run w ls).shared := addressed_run env hw ls
  set w₀ := (server env).run w ls with hw₀
  have hold : ∀ (j : Nat) session,
      w₀.tasks[j]? = some (.uploadChunk (.completing session .recordBlob)) →
      CommittedBy env w (ls ++ [l]) j session := fun j session hj => (h.tasks j session hj).snoc l
  -- the two new cases speak of the state after the step, so the equation is kept
  refine System.step_induction (S := server env) (w := w₀) (l := l)
    (P := fun w' => (server env).step w₀ l = w' → Recorded env w (ls ++ [l]) w')
    (fun r _ _ => ⟨fun j session hj => ?_, fun b hb => (h.rows b hb).snoc l⟩)
    (fun i choice t hlab hi => ?_)
    (fun _ => ⟨hold, fun b hb => (h.rows b hb).snoc l⟩)
    (fun e _ _ => ⟨hold, fun b hb => (h.rows b ?_).snoc l⟩) rfl
  · rw [List.getElem?_append] at hj
    split at hj
    · exact hold j session hj
    · have := List.mem_of_getElem? hj
      rw [List.mem_singleton] at this
      exact absurd this.symm (entry_ne_completing r session .recordBlob)
  · subst hlab
    refine ((Task.next_recordBlob ha t).and (t.next_rows env choice w₀.shared)).mono
      (fun s' t' hs hstep => ⟨fun j session hj => ?_, fun b hb => ?_⟩)
    · rcases System.mem_set_cases hj with ⟨rfl, ht'⟩ | ⟨_, hj'⟩
      · obtain ⟨ht, hc⟩ := hs.1 session ht'.symm
        refine ⟨ls, choice, [], rfl, hi.trans (congrArg some ht), ?_⟩
        rw [hrun, hstep]
        exact hc
      · exact hold j session hj'
    · rcases hs.2 b hb with hb' | ⟨session, ht, hnone, hbe⟩
      · exact (h.rows b hb').snoc _
      · have hi' := hi.trans (congrArg some ht)
        refine ⟨ls, i, choice, session, [], rfl, h.tasks i session hi', by rw [hbe], hi', hnone, ?_⟩
        rw [hrun, hstep]
        exact hb
  · cases e <;> exact hb

theorem recorded_run (hw : Initial w) (ls : List Move) :
    Recorded env w ls ((server env).run w ls) := by
  refine System.prefix_induction ⟨fun i session hi => ?_, fun b hb => ?_⟩
    (fun ls l h => recorded_step hw h) ls
  · rw [hw.tasks] at hi
    cases hi
  · rw [hw.blobs] at hb
    cases hb

end History

/-- **Content addressing.** In every state of every run, whatever SHA-256 is: a file at the
address of a hash has that hash; its contents are the same at every later time up to which it
has been there; and every blob row was inserted by a completion whose commit left such a file
at its address. -/
theorem content_addressed (env : Env) (w : Server) (hw : Initial w) (ls : List Move) :
    (∀ sha256 p content, pathFor sha256 = some p →
      ((server env).run w ls).shared.files p = some content →
      env.sha256Hex content = sha256 ∧
      ∀ ls' : List Move,
        (∀ k ≤ ls'.length,
          ((server env).run w (ls ++ ls'.take k)).shared.files p ≠ none) →
        ((server env).run w (ls ++ ls')).shared.files p = some content) ∧
    ∀ b ∈ ((server env).run w ls).shared.blobs, InsertedBy env w ls b := by
  refine ⟨fun sha256 p content hp hc => ⟨addressed_run env hw ls sha256 p content hp hc,
    fun ls' hex => ?_⟩, (recorded_run hw ls).rows⟩
  rw [System.run_append]
  refine contents_stay env hp ls' _ hc (fun k hk => ?_)
  rw [← System.run_append]
  exact hex k hk

section Demo

open Launcher.Demo

/-- After one upload there is a row to account for. -/
theorem content_addressed_stored :
    ((server env).run start stored).shared.blobs.rows ≠ [] ∧
    (∀ sha256 p content, pathFor sha256 = some p →
      ((server env).run start stored).shared.files p = some content →
      env.sha256Hex content = sha256 ∧
      ∀ ls' : List Move,
        (∀ k ≤ ls'.length,
          ((server env).run start (stored ++ ls'.take k)).shared.files p ≠ none) →
        ((server env).run start (stored ++ ls')).shared.files p = some content) ∧
    ∀ b ∈ ((server env).run start stored).shared.blobs, InsertedBy env start stored b :=
  ⟨by decide +kernel, content_addressed env start initial_start stored⟩

end Demo

end Launcher
