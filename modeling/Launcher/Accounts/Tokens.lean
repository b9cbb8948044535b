import Launcher.Accounts.Frame
import Launcher.Accounts.System

set_option autoImplicit false

/-! # What the statements do to the refresh tokens

A row is inserted live; afterwards its id, its owner, its family and its hash never change, and
a revoked row stays revoked. `exec_tokens` says once what a call can do to the table; the
invariants of sessions are derived from it. -/

namespace Launcher.Accounts

open Launcher.Lib

/-! ## Calls that insert a row -/

/-- The account a call starts a new session for. -/
def Call.opens {α : Type} : Call α → Option Uuid
  | .issueToken userId _ => some userId
  | _ => none

/-- The token, account and family of a call that rotates. -/
def Call.rotates {α : Type} : Call α → Option (Uuid × Uuid × Uuid)
  | .rotate previousId userId familyId _ => some (previousId, userId, familyId)
  | _ => none

/-- `later` is `row`, possibly revoked since. -/
structure Later (row later : RefreshToken) : Prop where
  id : later.id = row.id
  userId : later.userId = row.userId
  familyId : later.familyId = row.familyId
  tokenHash : later.tokenHash = row.tokenHash
  unchanged : later.live = true → later = row

theorem Later.refl (row : RefreshToken) : Later row row := ⟨rfl, rfl, rfl, rfl, fun _ => rfl⟩

/-- What is known of a row the call inserts: its id, the last one drawn, and its hash are new,
and so is its family unless it continues one. -/
structure Inserted {α : Type} (c : Call α) (s s' : State) (row : RefreshToken) : Prop where
  fresh : row.id ∉ s.issued
  drawn : s'.issued.head? = some row.id
  tokenHash : ∀ t ∈ s.refreshTokens, t.tokenHash ≠ row.tokenHash
  live : row.live = true
  origin :
    (c.opens = some row.userId ∧ row.familyId ∉ s.issued ∧ row.familyId ∈ s'.issued) ∨
      ∃ previousId, c.rotates = some (previousId, row.userId, row.familyId) ∧
        (previousId ∈ s.issued → ∀ r ∈ s'.refreshTokens, r.id = previousId → r.live = false)

/-- What a call can do to the refresh tokens and to the ids handed out. -/
structure TokensAfter {α : Type} (c : Call α) (s s' : State) : Prop where
  issued : ∀ id ∈ s.issued, id ∈ s'.issued
  rows : ∀ row' ∈ s'.refreshTokens,
    (∃ row ∈ s.refreshTokens, Later row row') ∨ Inserted c s s' row'

/-! ## The statements -/

section Statements

variable {α : Type} {c : Call α} {s s' : State}

/-- A call that leaves the table alone. -/
theorem TokensAfter.of_eq (hi : ∀ id ∈ s.issued, id ∈ s'.issued)
    (ht : s'.refreshTokens = s.refreshTokens) : TokensAfter c s s' where
  issued := hi
  rows row' h := Or.inl ⟨row', ht ▸ h, Later.refl row'⟩

theorem later_updateWhere {t : Table RefreshToken.id} {p : RefreshToken → Bool}
    {f : Table.Update RefreshToken.id} (hf : ∀ row, Later row (f.1 row)) {row' : RefreshToken}
    (h : row' ∈ t.updateWhere p f) : ∃ row ∈ t, Later row row' := by
  obtain ⟨row, hrow, rfl⟩ := Table.mem_updateWhere.mp h
  refine ⟨row, hrow, ?_⟩
  by_cases hp : p row
  · rw [if_pos hp]; exact hf row
  · rw [if_neg hp]; exact Later.refl row

theorem later_revoked (row : RefreshToken) (now : Nat) (replacedBy : Option Uuid) :
    Later row { row with revokedAt := some now, replacedBy := replacedBy } :=
  ⟨rfl, rfl, rfl, rfl, fun h => by simp [RefreshToken.live] at h⟩

/-- A call that revokes the rows with `p` and does nothing else to the table. -/
theorem TokensAfter.of_revoked (hi : s'.issued = s.issued) (p : RefreshToken → Bool)
    (ht : s'.refreshTokens = (s.revokeWhere p).refreshTokens) : TokensAfter c s s' where
  issued id h := hi ▸ h
  rows row' h := by
    rw [ht] at h
    exact Or.inl (later_updateWhere (fun row => later_revoked row s.now row.replacedBy) h)

/-- After a revocation no row it is about is live. -/
theorem not_live_revokeWhere {p : RefreshToken → Bool} {row' : RefreshToken}
    (h : row' ∈ (s.revokeWhere p).refreshTokens) (hrow : p row' = true) : row'.live = false := by
  obtain ⟨row, hr, rfl⟩ := Table.mem_updateWhere.mp h
  by_cases hc : (p row && row.live) = true
  · rw [if_pos hc]; rfl
  · rw [if_neg hc] at hrow ⊢
    simpa [hrow] using hc

theorem not_live_replaceToken {previousId nextId : Uuid} {row' : RefreshToken}
    (h : row' ∈ (s.replaceToken previousId nextId).refreshTokens) (hid : row'.id = previousId) :
    row'.live = false := by
  obtain ⟨row, hr, rfl⟩ := Table.mem_updateWhere.mp h
  by_cases hc : (row.id == previousId && row.live) = true
  · rw [if_pos hc]; rfl
  · rw [if_neg hc] at hid ⊢
    simpa [hid] using hc

/-- The two outcomes of an insert. -/
theorem insertToken_cases (env : Env) (choice : Choice) (userId familyId : Uuid)
    (client : ClientContext) :
    (∃ e, s.insertToken env choice userId familyId client = (.error e, s)) ∨
    ∃ row : RefreshToken, row.id = choice.uuid ∧ row.userId = userId ∧ row.familyId = familyId ∧
      row.live = true ∧ choice.uuid ∉ s.issued ∧
      (∀ t ∈ s.refreshTokens, t.tokenHash ≠ row.tokenHash) ∧
      s.insertToken env choice userId familyId client = (.ok (choice.uuid, choice.token),
        { s with
          refreshTokens := s.refreshTokens.insert row, issued := choice.uuid :: s.issued }) := by
  unfold State.insertToken
  by_cases hu : (s.users.find? userId).isNone = true
  · exact Or.inl ⟨_, by rw [if_pos hu]⟩
  rw [if_neg hu]
  by_cases hd : (s.issued.contains choice.uuid || s.refreshTokens.rows.any
      (fun t => t.tokenHash == env.sha256Hex choice.token)) = true
  · exact Or.inl ⟨_, by rw [if_pos hd]⟩
  rw [if_neg hd]
  simp only [Bool.or_eq_true, not_or, List.contains_eq_mem, decide_eq_true_eq,
    List.any_eq_true, beq_iff_eq, not_exists, not_and] at hd
  exact Or.inr ⟨_, rfl, rfl, rfl, rfl, hd.1, fun t ht => hd.2 t ht, rfl⟩

/-- A row with an unused id, inserted into a table whose rows are those of `s`, possibly revoked. -/
theorem rows_insert {t : Table RefreshToken.id} {row : RefreshToken}
    (ht : ∀ r' ∈ t, ∃ r ∈ s.refreshTokens, Later r r') (hrow : Inserted c s s' row)
    (hs : s'.refreshTokens = t.insert row) :
    ∀ row' ∈ s'.refreshTokens,
      (∃ r ∈ s.refreshTokens, Later r row') ∨ Inserted c s s' row' := by
  intro row' h
  rw [hs] at h
  rcases Table.eq_or_mem_of_mem_insert h with rfl | h
  · exact Or.inr hrow
  · exact Or.inl (ht row' h)

theorem TokensAfter.issueToken (env : Env) (choice : Choice) (userId : Uuid)
    (client : ClientContext) :
    TokensAfter (.issueToken userId client) s (s.issueToken env choice userId client).2 := by
  unfold State.issueToken
  by_cases hf : s.issued.contains choice.family = true
  · rw [if_pos hf]; exact .of_eq (fun _ h => h) rfl
  rw [if_neg hf]
  have hfam : choice.family ∉ s.issued := by simpa using hf
  rcases insertToken_cases (s := { s with issued := choice.family :: s.issued }) env choice userId
    choice.family client with ⟨e, he⟩ | ⟨row, hid, hu, hfm, hl, hnew, hhash, he⟩
  · simp only [he]; exact .of_eq (fun _ h => h) rfl
  · simp only [he]
    refine ⟨fun id h => by simp [h], rows_insert (fun r' h => ⟨r', h, Later.refl r'⟩) ?_ rfl⟩
    refine ⟨?_, by rw [hid]; rfl, hhash, hl, Or.inl ⟨by rw [hu]; rfl, by rwa [hfm], by simp [hfm]⟩⟩
    rw [hid]
    exact fun h => hnew (List.mem_cons_of_mem _ h)

/-- The rotating statement throws and changes nothing, or it inserts the successor. -/
theorem rotate_cases (env : Env) (choice : Choice) (previousId userId familyId : Uuid)
    (client : ClientContext) :
    (∃ e, s.rotate env choice previousId userId familyId client = (.error e, s)) ∨
    ∃ row : RefreshToken, row.id = choice.uuid ∧ row.userId = userId ∧ row.familyId = familyId ∧
      row.live = true ∧ choice.uuid ∉ s.issued ∧
      (∀ t ∈ s.refreshTokens, t.tokenHash ≠ row.tokenHash) ∧
      s.rotate env choice previousId userId familyId client = (.ok (choice.uuid, choice.token),
        { s with
          refreshTokens := (s.replaceToken previousId choice.uuid).refreshTokens.insert row
          issued := choice.uuid :: s.issued }) := by
  unfold State.rotate
  rcases insertToken_cases (s := s.replaceToken previousId choice.uuid) env choice userId
    familyId client with ⟨e, he⟩ | ⟨row, hid, hu, hfm, hl, hnew, hhash, he⟩
  · exact Or.inl ⟨e, by rw [he]⟩
  · refine Or.inr ⟨row, hid, hu, hfm, hl, hnew, fun t ht heq => ?_, by rw [he]; rfl⟩
    -- the hash was compared with the rows after the revocation, which changes no hash
    refine hhash _ (Table.mem_updateWhere.mpr ⟨t, ht, rfl⟩) ?_
    by_cases hp : (t.id == previousId && t.live) = true
    · rw [if_pos hp]; exact heq
    · rw [if_neg hp]; exact heq

/-- After a rotation the presented token is not live. -/
theorem not_live_rotated {previousId nextId : Uuid} {row r : RefreshToken}
    (hp : previousId ∈ s.issued) (hnew : row.id ∉ s.issued)
    (h : r ∈ (s.replaceToken previousId nextId).refreshTokens.insert row)
    (hid : r.id = previousId) : r.live = false := by
  rcases Table.eq_or_mem_of_mem_insert h with rfl | h
  · exact (hnew (hid ▸ hp)).elim
  · exact not_live_replaceToken h hid

theorem TokensAfter.rotate (env : Env) (choice : Choice) (previousId userId familyId : Uuid)
    (client : ClientContext) :
    TokensAfter (.rotate previousId userId familyId client) s
      (s.rotate env choice previousId userId familyId client).2 := by
  have hrep : ∀ r' ∈ (s.replaceToken previousId choice.uuid).refreshTokens,
      ∃ r ∈ s.refreshTokens, Later r r' := fun r' h =>
    later_updateWhere (fun row => later_revoked row s.now (some choice.uuid)) h
  rcases rotate_cases (s := s) env choice previousId userId familyId client with
    ⟨e, he⟩ | ⟨row, hid, hu, hfm, hl, hnew, hhash, he⟩
  · rw [he]; exact .of_eq (fun _ h => h) rfl
  · rw [he]
    refine ⟨fun id h => List.mem_cons_of_mem _ h, rows_insert hrep ?_ rfl⟩
    exact ⟨hid ▸ hnew, by rw [hid]; rfl, hhash, hl, Or.inr ⟨previousId, by rw [hu, hfm]; rfl,
      fun hp r hr hrid => not_live_rotated hp (hid ▸ hnew) hr hrid⟩⟩

end Statements

/-- **What a call can do to the refresh tokens.** -/
theorem exec_tokens (env : Env) (choice : Choice) {α : Type} (c : Call α) (s : State) :
    TokensAfter c s (exec env choice c s).2 := by
  have hframe : Frame c s (exec env choice c s).2 := .of_exec env choice c s
  cases c with
  | issueToken userId client => exact .issueToken env choice userId client
  | rotate previousId userId familyId client =>
      exact .rotate env choice previousId userId familyId client
  | revokeById id => exact .of_revoked rfl _ rfl
  | revokeFamily familyId => exact .of_revoked rfl _ rfl
  | revokeAllForUser userId => exact .of_revoked rfl _ rfl
  | erase userId identity audit =>
      simp only [exec, State.erase]
      split
      · exact .of_eq (fun _ h => h) rfl
      · split_ifs
        · exact .of_eq (fun _ h => h) rfl
        · exact .of_eq (fun _ h => h) rfl
        · refine ⟨fun _ h => h, fun row' h => Or.inl ⟨row', ?_, Later.refl row'⟩⟩
          exact (Table.mem_delete.mp h).1
  | setActive userId active audit =>
      simp only [exec, State.setActive]
      split
      · exact .of_eq (fun _ h => h) rfl
      · cases active with
        | true => exact .of_eq (fun _ h => h) rfl
        | false => exact .of_revoked rfl (fun t => t.userId == userId) rfl
  | setTemporaryPassword userId hash audit =>
      simp only [exec, State.setTemporaryPassword]
      split
      · exact .of_eq (fun _ h => h) rfl
      · exact .of_revoked rfl (fun t => t.userId == userId) rfl
  | _ => exact .of_eq hframe.issued (hframe.same .refreshTokens rfl)

end Launcher.Accounts
