import Launcher.Invariants.ContentAddress
import Launcher.Invariants.Reservation
import Launcher.Invariants.Finalizing

set_option autoImplicit false

/-! # The grace period

`blobGraceSeconds` is how long a blob must have *existed* before it can be collected: the
collector compares it with the row's `created_at`. A request that tells a publisher that
content is held rests on a row its deciding statement has seen or inserted, and that row is
kept until its creation time plus the grace period, whenever the answer was given. So a
manifest of such blobs, submitted by then, is not refused for a missing blob. An answer about
a blob that is already older than the grace period promises nothing. -/

namespace Launcher.Grace

open Launcher.Lib

/-! ## Answers -/

/-- The hashes that the answer given in this step says the server holds: those `missingBlobs`
omits, the one for which `beginUpload` refuses to open a session, and the one of a session
`uploadChunk` returns as completed. -/
def told (w : Server) : Move → List Bytes
  | .resume i _ =>
      match w.tasks[i]? with
      | some (.missingBlobs (.findMissing candidates)) =>
          candidates.filter (fun sha256 => !(w.shared.findMissing candidates).contains sha256)
      | some (.beginUpload (.findBySha256 _ _ blob)) =>
          if (w.shared.blobs.find? blob.sha256).isSome then [blob.sha256] else []
      | some (.uploadChunk (.completing session .markHeld)) => [session.blobSha256]
      | some (.uploadChunk (.completing session .markCompleted)) => [session.blobSha256]
      | _ => []
  | _ => []

/-- The statement the request is suspended at decides whether the server holds `sha256`. -/
def decides (sha256 : Bytes) : Task → Bool
  | .missingBlobs (.findMissing candidates) => candidates.contains sha256
  | .beginUpload (.findBySha256 _ _ blob) => blob.sha256 == sha256
  | .uploadChunk (.completing session .findBySha256) => session.blobSha256 == sha256
  | .uploadChunk (.completing session .recordBlob) => session.blobSha256 == sha256
  | _ => false

/-- In the steps `ls`, request `i` made the statement that decides about `b.sha256`, and the
row `b` was there after it. -/
def SeenBy (env : Env) (w : Server) (ls : List Move) (i : Nat) (b : BlobRow) : Prop :=
  ∃ steps choice rest t, ls = steps ++ .resume i choice :: rest ∧
    ((server env).run w steps).tasks[i]? = some t ∧ decides b.sha256 t = true ∧
    b ∈ ((server env).run w (steps ++ [.resume i choice])).shared.blobs

theorem SeenBy.snoc {env : Env} {w : Server} {ls : List Move} {i : Nat} {b : BlobRow}
    (h : SeenBy env w ls i b) (l : Move) : SeenBy env w (ls ++ [l]) i b := by
  obtain ⟨steps, choice, rest, t, rfl, h⟩ := h
  exact ⟨steps, choice, rest ++ [l], t, by simp, h⟩

/-- In the steps `ls`, a request was answered that `b.sha256` is held, having seen `b`. -/
def Promised (env : Env) (w : Server) (ls : List Move) (b : BlobRow) : Prop :=
  ∃ before i choice after, ls = before ++ .resume i choice :: after ∧
    b.sha256 ∈ told ((server env).run w before) (.resume i choice) ∧
    SeenBy env w (before ++ [.resume i choice]) i b

/-! ## Rows are kept for the grace period -/

section Rows

variable {env : Env} {choice : Choice} {s : State}

theorem next_keepsYoung (t : Task) :
    (t.next env).Wp (exec env) choice s (fun s' _ =>
      ∀ b ∈ s.blobs, s.now ≤ b.createdAt + env.blobGrace → b ∈ s'.blobs) := by
  by_cases hr : ∃ session, t = .uploadChunk (.completing session .recordBlob)
  · obtain ⟨session, rfl⟩ := hr
    intro r s' e b hb _
    obtain ⟨_, _, h⟩ | ⟨_, h⟩ := s.recordBlob_cases session.blobSha256
      session.declaredSizeBytes (storageKeyFor session.blobSha256) (some session.userId)
    · cases h.symm.trans e
      exact hb
    · cases h.symm.trans e
      exact Table.mem_insert_of_mem hb
  · by_cases hd : ∃ blob rest report, t = .collectBlobs (.deleteIfUnreferenced blob rest report)
    · obtain ⟨blob, rest, report, rfl⟩ := hd
      intro r s' e b hb hyoung
      obtain h | ⟨b', hb', hc, h⟩ := s.deleteIfUnreferenced_cases blob.sha256 env.blobGrace
      · cases h.symm.trans e
        exact hb
      · cases h.symm.trans e
        refine Table.mem_delete.mpr ⟨hb, ?_⟩
        have hold : b'.createdAt + env.blobGrace < s.now :=
          ((s.isCollectable_iff env.blobGrace b').mp hc).1
        have hne : b.sha256 ≠ blob.sha256 := by
          intro he
          have hbb : b = b' := Table.eq_of_key_eq hb (Table.mem_of_find? hb')
            (he.trans (Table.key_of_find? hb').symm)
          rw [hbb] at hyoung
          omega
        simpa using hne
    · refine (t.next_blobs env hr hd).wp (fun c k hc r s' e b hb _ => ?_)
      have hf := Frame.of_exec e
      rw [hf.blobs hc]
      exact hb

end Rows

theorem step_keepsYoung (env : Env) (w : Server) (l : Move) {b : BlobRow}
    (hb : b ∈ w.shared.blobs) (hyoung : w.shared.now ≤ b.createdAt + env.blobGrace) :
    b ∈ ((server env).step w l).shared.blobs := by
  refine System.step_induction (P := fun w' : Server => b ∈ w'.shared.blobs) (fun _ _ => hb)
    (fun i choice t _ _ => ?_) hb (fun e _ => ?_)
  · exact (next_keepsYoung t).mono (fun s' _ h => h b hb hyoung)
  · cases e <;> exact hb

/-- A row is there at every time up to its creation plus the grace period. -/
theorem kept_until (env : Env) {b : BlobRow} : ∀ (ls : List Move) (w : Server),
    b ∈ w.shared.blobs → ((server env).run w ls).shared.now ≤ b.createdAt + env.blobGrace →
    b ∈ ((server env).run w ls).shared.blobs
  | [], _, hb, _ => hb
  | l :: ls, w, hb, hnow => by
      have hle : w.shared.now ≤ ((server env).run w (l :: ls)).shared.now :=
        (Reservation.evolves_run env w (l :: ls)).now
      exact kept_until env ls _ (step_keepsYoung env w l hb (hle.trans hnow)) hnow

/-- No row is from the future. -/
theorem createdAt_le_now {env : Env} {w : Server} (hw : Initial w) (ls : List Move) :
    ∀ b ∈ ((server env).run w ls).shared.blobs,
      b.createdAt ≤ ((server env).run w ls).shared.now := by
  refine System.run_invariant (S := server env)
    (I := fun w : Server => ∀ b ∈ w.shared.blobs, b.createdAt ≤ w.shared.now) (A := fun _ _ => True)
    (fun w l h _ => ?_) ls w (fun b hb => ?_) (System.along_true w ls)
  · refine System.step_induction
      (P := fun w' : Server => ∀ b ∈ w'.shared.blobs, b.createdAt ≤ w'.shared.now) (fun _ _ => h)
      (fun i choice t _ _ => ?_) h (fun e _ => ?_)
    · refine ((t.next_rows env choice w.shared).and (t.next_keeps env choice w.shared)).mono
        (fun s' t' hs b hb => ?_)
      show b.createdAt ≤ s'.now
      rw [hs.2.1.now]
      rcases hs.1 b hb with hb | ⟨session, _, _, rfl⟩
      · exact h b hb
      · exact Nat.le_refl _
    · cases e with
      | tick duration => exact fun b hb => (h b hb).trans (Nat.le_add_right _ _)
      | _ => exact h
  · rw [hw.blobs] at hb
    cases hb

/-! ## Completions have seen the row they answer for -/

/-- The points of a completion after the statement that decided that the content is held. -/
def decided : CompletePoint → Bool
  | .discardHeld => true
  | .markHeld => true
  | .releaseLost => true
  | .markCompleted => true
  | _ => false

/-- A completion gets past its deciding statement only with the row in the table. -/
theorem next_decided {env : Env} {choice : Choice} {s : State} (t : Task) :
    (t.next env).Wp (exec env) choice s (fun s' t' => ∀ session point,
      t' = .uploadChunk (.completing session point) → decided point = true →
      (∃ point', t = .uploadChunk (.completing session point') ∧ decided point' = true) ∨
      (decides session.blobSha256 t = true ∧
        ∃ b ∈ s'.blobs, b.sha256 = session.blobSha256)) := by
  by_cases hk : t.kind = .uploadChunk
  · cases t with
    | uploadChunk t =>
        rw [Task.next, Suspended.wp_map]
        cases t with
        | findSession actor id offset chunk =>
            intro r s' _ session point h
            obtain ⟨_, hr⟩ | ⟨_, _, _, _, hr⟩ := admitted_cases env actor offset chunk r <;>
              rw [hr] at h <;> cases h
        | reserveBytes session offset chunk =>
            intro r s' _ _ _ h
            cases r <;> cases h
        | writeAt session reserved offset chunk =>
            intro r s' _ _ point h hp
            obtain ⟨_, _, hr⟩ | ⟨_, _, hr⟩ | ⟨_, _, hr⟩ := written_cases session reserved r <;>
              rw [hr] at h <;> cases h
            cases hp
        | completing session point =>
            cases point with
            | findBySha256 =>
                intro r s' e session' point' h hp
                cases hb : s.blobs.find? session.blobSha256 with
                | none =>
                    simp only [exec, hb, Option.map_none] at e
                    cases e
                    cases h
                    cases hp
                | some b =>
                    simp only [exec, hb, Option.map_some] at e
                    cases e
                    cases h
                    exact Or.inr ⟨by simp [decides],
                      b, Table.mem_of_find? hb, Table.key_of_find? hb⟩
            | chargeUpload => intro r s' _ _ point' h hp; cases r <;> cases h <;> cases hp
            | commit => intro r s' _ _ point' h hp; cases r <;> cases h <;> cases hp
            | discardHeld => intro r s' _ _ _ h _; cases h; exact Or.inl ⟨_, rfl, rfl⟩
            | releaseLost => intro r s' _ _ _ h _; cases h; exact Or.inl ⟨_, rfl, rfl⟩
            | recordBlob =>
                intro r s' e session' point' h _
                obtain ⟨b, hb, hr⟩ | ⟨hnone, hr⟩ := s.recordBlob_cases session.blobSha256
                  session.declaredSizeBytes (storageKeyFor session.blobSha256)
                  (some session.userId)
                · cases hr.symm.trans e
                  cases h
                  exact Or.inr ⟨by simp [decides],
                    b, Table.mem_of_find? hb, Table.key_of_find? hb⟩
                · cases hr.symm.trans e
                  cases h
                  exact Or.inr ⟨by simp [decides], _,
                    (Table.mem_insert hnone _).mpr (Or.inl rfl), rfl⟩
            | discardRefused => intro r s' _ _ _ h hp; cases h; cases hp
            | releaseFailed error => intro r s' _ _ _ h hp; cases h; cases hp
            | _ => intro r s' _ _ _ h _; cases h
        | _ => first | trivial | (intro r s' _ _ _ h _; cases h)
    | _ => cases hk
  · refine (t.next_keeps env choice s).mono (fun s' t' h session point he => ?_)
    rw [he] at h
    exact absurd h.2.symm hk

/-- Every completion past its deciding statement has seen a row of its hash. -/
def Informed (env : Env) (w : Server) (ls : List Move) (w' : Server) : Prop :=
  ∀ (i : Nat) session point, w'.tasks[i]? = some (.uploadChunk (.completing session point)) →
    decided point = true → ∃ b, b.sha256 = session.blobSha256 ∧ SeenBy env w ls i b

theorem informed_step {env : Env} {w : Server} {ls : List Move} {l : Move}
    (h : Informed env w ls ((server env).run w ls)) :
    Informed env w (ls ++ [l]) ((server env).step ((server env).run w ls) l) := by
  have hrun : (server env).run w (ls ++ [l]) = (server env).step ((server env).run w ls) l :=
    System.run_append _ w ls [l]
  set w₀ := (server env).run w ls with hw₀
  have hold : Informed env w (ls ++ [l]) w₀ := by
    intro j session point hj hp
    obtain ⟨b, hb, hs⟩ := h j session point hj hp
    exact ⟨b, hb, hs.snoc l⟩
  refine System.step_induction (S := server env) (w := w₀) (l := l)
    (P := fun w' => (server env).step w₀ l = w' → Informed env w (ls ++ [l]) w')
    (fun r _ _ j session point hj hp => ?_) (fun i choice t hlab hi => ?_) (fun _ => hold)
    (fun _ _ _ => hold) rfl
  · rw [List.getElem?_append] at hj
    split at hj
    · exact hold j session point hj hp
    · have := List.mem_of_getElem? hj
      rw [List.mem_singleton] at this
      exact absurd this.symm (entry_ne_completing r session point)
  · subst hlab
    refine (next_decided t).mono (fun s' t' hs hstep j session point hj hp => ?_)
    rcases System.mem_set_cases hj with ⟨rfl, ht'⟩ | ⟨_, hj'⟩
    · rcases hs session point ht'.symm hp with ⟨point', ht, hp'⟩ | ⟨hdec, b, hb, hsha⟩
      · exact hold j session point' (hi.trans (congrArg some ht)) hp'
      · refine ⟨b, hsha, ls, choice, [], t, rfl, hi, hsha ▸ hdec, ?_⟩
        rw [hrun, hstep]
        exact hb
    · exact hold j session point hj' hp

theorem informed_run (env : Env) {w : Server} (hw : Initial w) (ls : List Move) :
    Informed env w ls ((server env).run w ls) := by
  refine System.prefix_induction (fun i session point hi => ?_) (fun ls l h => informed_step h) ls
  rw [hw.tasks] at hi
  cases hi

/-! ## Every answer rests on a row -/

/-- A statement that only reads leaves the table for the next state. -/
theorem seenBy_of_read {env : Env} {w : Server} {ls : List Move} {i : Nat} {choice : Choice}
    {t : Task} {α : Type} {c : Call α} {k : α → Task} {b : BlobRow}
    (hi : ((server env).run w ls).tasks[i]? = some t) (hn : t.next env = .call c k)
    (hc : c.writesBlobs = false) (hd : decides b.sha256 t = true)
    (hb : b ∈ ((server env).run w ls).shared.blobs) :
    SeenBy env w (ls ++ [.resume i choice]) i b := by
  refine ⟨ls, choice, [], t, rfl, hi, hd, ?_⟩
  have hstep : ((server env).run w (ls ++ [.resume i choice])).shared
      = (exec env choice c ((server env).run w ls).shared).2 := by
    rw [System.run_append]
    exact congrArg World.shared (System.step_resume (server env) hi hn)
  rw [hstep, (exec_frame env choice c _).blobs hc]
  exact hb

theorem told_seen {env : Env} {w : Server} (hw : Initial w) {ls : List Move} {l : Move}
    {sha256 : Bytes} (h : sha256 ∈ told ((server env).run w ls) l) :
    ∃ i choice b, l = .resume i choice ∧ b.sha256 = sha256 ∧ SeenBy env w (ls ++ [l]) i b := by
  have hinf := informed_run env hw ls
  unfold told at h
  split at h
  · rename_i i choice
    split at h
    · -- `missingBlobs`: what is asked for and not missing has a row
      rename_i candidates hi
      obtain ⟨hcand, hmiss⟩ := List.mem_filter.mp h
      cases hb : ((server env).run w ls).shared.blobs.find? sha256 with
      | none => simp [State.findMissing, hcand, hb] at hmiss
      | some b =>
          have hsha : b.sha256 = sha256 := Table.key_of_find? hb
          refine ⟨i, choice, b, rfl, hsha, seenBy_of_read hi rfl rfl ?_ (Table.mem_of_find? hb)⟩
          simpa [decides, hsha] using hcand
    · -- `beginUpload`: refused because the row is there
      rename_i actor build blob hi
      cases hb : ((server env).run w ls).shared.blobs.find? blob.sha256 with
      | none => simp [hb] at h
      | some b =>
          have hsha : b.sha256 = blob.sha256 := Table.key_of_find? hb
          have he : sha256 = blob.sha256 := by simpa [hb] using h
          refine ⟨i, choice, b, rfl, hsha.trans he.symm,
            seenBy_of_read hi rfl rfl ?_ (Table.mem_of_find? hb)⟩
          simp [decides, hsha]
    · rename_i session hi
      obtain ⟨b, hb, hs⟩ := hinf i session .markHeld hi rfl
      exact ⟨i, choice, b, rfl, hb.trans (List.mem_singleton.mp h).symm, hs.snoc _⟩
    · rename_i session hi
      obtain ⟨b, hb, hs⟩ := hinf i session .markCompleted hi rfl
      exact ⟨i, choice, b, rfl, hb.trans (List.mem_singleton.mp h).symm, hs.snoc _⟩
    · cases h
  · cases h

/-- A row that was seen is there at every later time up to its creation plus the grace
period. -/
theorem seenBy_kept {env : Env} {w : Server} {ls : List Move} {i : Nat} {b : BlobRow}
    (h : SeenBy env w ls i b) (ls' : List Move)
    (hnow : ((server env).run w (ls ++ ls')).shared.now ≤ b.createdAt + env.blobGrace) :
    b ∈ ((server env).run w (ls ++ ls')).shared.blobs := by
  obtain ⟨steps, choice, rest, t, rfl, _, _, hb⟩ := h
  have hsplit : steps ++ .resume i choice :: rest ++ ls'
      = (steps ++ [.resume i choice]) ++ (rest ++ ls') := by simp
  rw [hsplit, System.run_append] at hnow ⊢
  exact kept_until env (rest ++ ls') _ hb hnow

theorem seenBy_createdAt {env : Env} {w : Server} (hw : Initial w) {ls : List Move} {i : Nat}
    {b : BlobRow} (h : SeenBy env w ls i b) :
    b.createdAt ≤ ((server env).run w ls).shared.now := by
  obtain ⟨steps, choice, rest, t, rfl, _, _, hb⟩ := h
  have hsplit : steps ++ .resume i choice :: rest = (steps ++ [.resume i choice]) ++ rest := by
    simp
  rw [hsplit, System.run_append]
  exact (createdAt_le_now hw _ b hb).trans (Reservation.evolves_run env _ rest).now

theorem promised_kept {env : Env} {w : Server} {ls : List Move} {b : BlobRow}
    (h : Promised env w ls b)
    (hnow : ((server env).run w ls).shared.now ≤ b.createdAt + env.blobGrace) :
    b ∈ ((server env).run w ls).shared.blobs := by
  obtain ⟨before, i, choice, after, rfl, _, hs⟩ := h
  have hsplit : before ++ .resume i choice :: after = (before ++ [.resume i choice]) ++ after := by
    simp
  rw [hsplit] at hnow ⊢
  exact seenBy_kept hs after hnow

/-! ## Finalizing in time -/

/-- Every file of the command is a blob the server said it holds, and the grace period of the
row that answer rests on is not over. -/
def InTime (env : Env) (w : Server) (ls : List Move) (command : FinalizeBuildCommand) : Prop :=
  ∀ f ∈ command.files, ∃ b, b.sha256 = f.blobSha256 ∧ Promised env w ls b ∧
    ((server env).run w ls).shared.now ≤ b.createdAt + env.blobGrace

theorem rows_of_inTime {env : Env} {w : Server} {ls : List Move} {command : FinalizeBuildCommand}
    (h : InTime env w ls command) : ∀ f ∈ command.files,
      ∃ b, ((server env).run w ls).shared.blobs.find? f.blobSha256 = some b := by
  intro f hf
  obtain ⟨b, hsha, hp, hnow⟩ := h f hf
  exact ⟨b, Table.find?_eq_some.mpr ⟨promised_kept hp hnow, hsha⟩⟩

theorem finalizeBuild_not_foreignKey (env : Env) {s : State} (buildId : Uuid)
    {manifest : FinalizedManifest}
    (h : ∀ f ∈ manifest.files, ∃ b, s.blobs.find? f.blobSha256 = some b) :
    (s.finalizeBuild env buildId manifest).1 ≠ .error .foreignKeyViolation := by
  have hno : ((State.manifestRows env buildId manifest.files).any
      (fun f => (s.blobs.find? f.blobSha256).isNone)) = false := by
    rw [List.any_eq_false]
    intro row hrow
    obtain ⟨f, hf, rfl⟩ := List.mem_map.mp hrow
    obtain ⟨b, hb⟩ := h f hf
    simp [hb]
  unfold State.finalizeBuild
  split
  · simp
  · cases s.builds.find? buildId with
    | none => simp
    | some build =>
        simp only [hno, Bool.false_eq_true, if_false]
        split
        · simp
        · split
          · simp
          · cases s.buildFiles.insertAll (State.manifestRows env buildId manifest.files) <;> simp

/-- With a row for every file, the look-up of the blobs goes on to the last statement. -/
theorem next_findMany {env : Env} {choice : Choice} {s : State} {build : BuildOwnership}
    {command : FinalizeBuildCommand}
    (h : ∀ f ∈ command.files, ∃ b, s.blobs.find? f.blobSha256 = some b) :
    (Task.next env (.finalizeBuild (.findMany build command))).Wp (exec env) choice s
      (fun _ t' => ∃ manifest, t' = .finalizeBuild (.finalize build command manifest)) := by
  intro r s' e
  cases e
  refine ⟨finalizedManifest env
    (s.findMany (distinctOf (command.files.map (·.blobSha256)))) command, ?_⟩
  simp only [missingFrom_eq_nil h, List.isEmpty_nil, if_true]

/-- With a row for every file, the last statement does not fail on a foreign key. -/
theorem next_finalize {env : Env} {choice : Choice} {s : State} {build : BuildOwnership}
    (command : FinalizeBuildCommand) {manifest : FinalizedManifest}
    (h : ∀ f ∈ manifest.files, ∃ b, s.blobs.find? f.blobSha256 = some b) :
    (Task.next env (.finalizeBuild (.finalize build command manifest))).Wp (exec env) choice s
      (fun _ t' => t' ≠ .finalizeBuild (.threw .foreignKeyViolation)) := by
  intro r s' e
  have hr : r = (s.finalizeBuild env build.buildId manifest).1 := (congrArg Prod.fst e).symm
  have hno := finalizeBuild_not_foreignKey env build.buildId h
  rw [← hr] at hno
  rcases r with error | (_ | _)
  · intro he
    cases he
    exact hno rfl
  · simp
  · simp

/-- **The grace period.** In every run:

* an answer that content is held rests on a row of that hash which the deciding statement of
  the request saw or inserted, and that row exists in every later state whose clock is at most
  its creation time plus the grace period;
* a `finalizeBuild` all of whose blobs are promised so and still within that time goes on from
  the look-up of its blobs, and its last statement does not fail on a missing blob. -/
theorem grace_period (env : Env) (w : Server) (hw : Initial w) (ls : List Move) :
    (∀ l sha256, sha256 ∈ told ((server env).run w ls) l →
      ∃ i choice b, l = .resume i choice ∧ b.sha256 = sha256 ∧
        SeenBy env w (ls ++ [l]) i b ∧
        b.createdAt ≤ ((server env).run w (ls ++ [l])).shared.now ∧
        ∀ ls', ((server env).run w (ls ++ [l] ++ ls')).shared.now
            ≤ b.createdAt + env.blobGrace →
          b ∈ ((server env).run w (ls ++ [l] ++ ls')).shared.blobs) ∧
    (∀ (i : Nat) build command choice, ((server env).run w ls).tasks[i]?
        = some (.finalizeBuild (.findMany build command)) → InTime env w ls command →
      ∃ manifest, ((server env).step ((server env).run w ls) (.resume i choice)).tasks[i]?
        = some (.finalizeBuild (.finalize build command manifest))) ∧
    ∀ (i : Nat) build command manifest choice, ((server env).run w ls).tasks[i]?
        = some (.finalizeBuild (.finalize build command manifest)) → InTime env w ls command →
      ((server env).step ((server env).run w ls) (.resume i choice)).tasks[i]?
        ≠ some (.finalizeBuild (.threw .foreignKeyViolation)) := by
  refine ⟨fun l sha256 h => ?_, fun i build command choice hi hin => ?_,
    fun i build command manifest choice hi hin => ?_⟩
  · obtain ⟨i, choice, b, hl, hsha, hs⟩ := told_seen hw h
    exact ⟨i, choice, b, hl, hsha, hs, seenBy_createdAt hw hs, fun ls' hnow => seenBy_kept hs ls' hnow⟩
  · obtain ⟨t', ht', manifest, rfl⟩ := System.step_resumed (S := server env) choice hi
      (by simp [server, Task.next, FinalizeBuild.next, Suspended.map])
      (next_findMany (rows_of_inTime hin))
    exact ⟨manifest, ht'⟩
  · obtain ⟨_, records, _, rfl⟩ := finalizing_run env hw ls i _ hi
    have hrows : ∀ f ∈ (finalizedManifest env records command).files,
        ∃ b, ((server env).run w ls).shared.blobs.find? f.blobSha256 = some b := by
      intro f hf
      have hm : f.blobSha256 ∈ command.files.map (·.blobSha256) := by
        rw [← finalizedManifest_hashes env records command]
        exact List.mem_map_of_mem hf
      obtain ⟨f', hf', he⟩ := List.mem_map.mp hm
      rw [← he]
      exact rows_of_inTime hin f' hf'
    obtain ⟨t', ht', hne⟩ := System.step_resumed (S := server env) choice hi
      (by simp [server, Task.next, FinalizeBuild.next, Suspended.map]) (next_finalize command hrows)
    rw [ht']
    exact fun he => hne (Option.some.inj he)

section Demo

open Launcher.Demo

/-- Bob asks about the content alice has stored a second ago. -/
def askedEarly : List Move :=
  stored ++ after 1 ++ .request (.missingBlobs bob (uuidText 10) [⟨shaA, 1⟩]) :: go 3 1

theorem grace_period_askedEarly :
    shaA ∈ told ((server env).run start askedEarly) (.resume 3 ⟨0, .none⟩) ∧
    ∃ i choice b, (.resume 3 ⟨0, .none⟩ : Move) = .resume i choice ∧ b.sha256 = shaA ∧
      SeenBy env start (askedEarly ++ [.resume 3 ⟨0, .none⟩]) i b ∧
      b.createdAt
        ≤ ((server env).run start (askedEarly ++ [.resume 3 ⟨0, .none⟩])).shared.now ∧
      ∀ ls', ((server env).run start (askedEarly ++ [.resume 3 ⟨0, .none⟩] ++ ls')).shared.now
          ≤ b.createdAt + env.blobGrace →
        b ∈ ((server env).run start
          (askedEarly ++ [.resume 3 ⟨0, .none⟩] ++ ls')).shared.blobs :=
  have h : shaA ∈ told ((server env).run start askedEarly) (.resume 3 ⟨0, .none⟩) := by
    decide +kernel
  ⟨h, (grace_period env start initial_start askedEarly).1 _ shaA h⟩

/-- He asks when the blob is older than the grace period. -/
def askedLate : List Move :=
  stored ++ after 11 ++ .request (.missingBlobs bob (uuidText 10) [⟨shaA, 1⟩]) :: go 3 1

/-- The answer is that the content is held; a pass of the collector in the same second deletes
its row. -/
theorem askedLate_collected :
    Initial start ∧
    shaA ∈ told ((server env).run start askedLate) (.resume 3 ⟨0, .none⟩) ∧
    ((server env).run start (askedLate ++ go 3 1
      ++ .request .collectUnreferencedBlobs :: go 4 2)).shared.now
        < ((server env).run start askedLate).shared.now + env.blobGrace ∧
    ((server env).run start (askedLate ++ go 3 1
      ++ .request .collectUnreferencedBlobs :: go 4 2)).shared.blobs.find? shaA = none :=
  ⟨initial_start, by decide +kernel, by decide +kernel, by decide +kernel⟩

end Demo

end Launcher.Grace
