import Launcher.Releases.Columns

set_option autoImplicit false

/-! # A published release is the thing that was signed

`Signed` is what a launcher relies on before it replaces itself: the stored signature verifies
over the stored document, the document is one `parseReleaseDocument` accepts, and the file at
the storage key has the hash and the length that it states. The chain has two gaps. The
artifact is hashed but its length is compared with nothing, and libpq cuts the signature, which
was verified whole, at a NUL. `signed_iff` says that there are no others: every row is as it
should be in exactly those runs where no command that went through either of them inserted a
row. -/

namespace Launcher.Releases

open Lib ReleaseStore

/-- What the row promises about the files. -/
def SignedRow (env : Env) (files : Files) (row : LauncherReleaseRow) : Prop :=
  verifyP256Signature env.crypto row.publicKey row.signature row.document = .ok () ∧
    ∃ document content, Accepts env.jsoncpp row.document document ∧
      files (under row.storageKey) = some content ∧
      env.sha256Hex content = document.artifactSha256 ∧
      (content.length : Int) = document.artifactSize

def Signed (env : Env) (s : State) : Prop := ∀ row ∈ s.releases, SignedRow env s.files row

/-- The artifact has the length that the document states, and what libpq is given of the
signature verifies too. -/
def Faithful (env : Env) : Request → Prop
  | .publish publicKey sources paths =>
      ∀ json signatureBytes artifact document, sources paths.documentPath = some json →
        sources paths.signaturePath = some signatureBytes →
        sources paths.artifactPath = some artifact → Accepts env.jsoncpp json document →
          (artifact.length : Int) = document.artifactSize ∧
          verifyP256Signature env.crypto publicKey
            (cString (withoutSurroundingWhitespace signatureBytes)) json = .ok ()
  | .retire _ _ => True

/-- A row is there that was not there before. -/
def Inserts (s s' : State) : Prop := ∃ row ∈ s'.releases, s.releases.find? row.id = none

section Rows

variable {env : Env} {A : Set Bytes} {s s' : State}

/-- Whether a row is as it should be was decided when it was inserted. -/
theorem signedRow_iff (hinj : Set.InjOn env.sha256Hex A) (h : Records env A s)
    {row : LauncherReleaseRow} {json signature artifact : Bytes} {document : ReleaseDocument}
    (hr : Recorded env A row json signature artifact document)
    (hstored : Stored s document.artifactSha256) : SignedRow env s.files row ↔
      (artifact.length : Int) = document.artifactSize ∧
        verifyP256Signature env.crypto row.publicKey (cString signature) json = .ok () := by
  have hvalid := validateReleaseDocument_ok.mp (parseReleaseDocument_ok hr.checked.accepts).1.valid
  have hcolumns := NewRelease.columns hr.row
  have hkey : under row.storageKey = address document.artifactSha256 := by
    rw [hcolumns.storageKey]
    show under (cString (ReleaseStore.storageKeyFor document.artifactSha256)) = _
    rw [cString_storageKeyFor hvalid.sha256, under_storageKeyFor hvalid.sha256]
  have hsignature : row.signature = cString signature := hcolumns.signature
  obtain ⟨content, hcontent⟩ := Option.isSome_iff_exists.mp hstored
  obtain ⟨hhash, hmem⟩ := h.content _ content hcontent
  have hsame : content = artifact :=
    hinj hmem hr.mem (hhash.trans hr.checked.hash.symm)
  subst hsame
  rw [SignedRow, hkey, hsignature, hr.document]
  constructor
  · rintro ⟨hverifies, document', content', haccepts, hcontent', -, hlength⟩
    obtain rfl := accepts_unique hr.checked.accepts haccepts
    obtain rfl := Option.some.inj (hcontent.symm.trans hcontent')
    exact ⟨hlength, hverifies⟩
  · rintro ⟨hlength, hverifies⟩
    exact ⟨hverifies, document, content, hr.checked.accepts, hcontent, hhash, hlength⟩

/-- The artifact of a row is stored, whatever the row is known to be made of. -/
theorem Records.stored (h : Records env A s) {row : LauncherReleaseRow}
    (hrow : row ∈ s.releases) {json signature artifact : Bytes} {document : ReleaseDocument}
    (hr : Recorded env A row json signature artifact document) :
    Stored s document.artifactSha256 := by
  obtain ⟨json', signature', artifact', document', hr', hstored⟩ := h.recorded row hrow
  have hdocument : document' = document := by
    refine accepts_unique hr'.checked.accepts ?_
    rw [← hr'.document, hr.document]
    exact hr.checked.accepts
  rw [← hdocument]
  exact hstored

/-- A row that was there before is as it should be if it was. -/
theorem signedRow_keeps (hinj : Set.InjOn env.sha256Hex A) (h : Records env A s)
    (h' : Records env A s') {row row' : LauncherReleaseRow} (hrow : row ∈ s.releases)
    (hrow' : row' ∈ s'.releases) (hkeeps : row.Keeps row') :
    SignedRow env s'.files row' ↔ SignedRow env s.files row := by
  obtain ⟨json, signature, artifact, document, hr, hstored⟩ := h.recorded row hrow
  have hr' := hr.keeps hkeeps
  have hkey : row'.publicKey = row.publicKey := by
    obtain ⟨t, rfl⟩ := hkeeps
    rfl
  rw [signedRow_iff hinj h hr hstored, signedRow_iff hinj h' hr' (h'.stored hrow' hr'), hkey]

/-- The same rows, perhaps retired since. -/
theorem signed_keeps (hinj : Set.InjOn env.sha256Hex A) (h : Records env A s)
    (h' : Records env A s')
    (hto : ∀ row ∈ s.releases, ∃ row' ∈ s'.releases, row.Keeps row')
    (hfrom : ∀ row' ∈ s'.releases, ∃ row ∈ s.releases, row.Keeps row') :
    Signed env s' ↔ Signed env s := by
  constructor
  · intro hsigned row hrow
    obtain ⟨row', hrow', hkeeps⟩ := hto row hrow
    exact (signedRow_keeps hinj h h' hrow hrow' hkeeps).mp (hsigned row' hrow')
  · intro hsigned row' hrow'
    obtain ⟨row, hrow, hkeeps⟩ := hfrom row' hrow'
    exact (signedRow_keeps hinj h h' hrow hrow' hkeeps).mpr (hsigned row hrow)

theorem not_inserts (hfrom : ∀ row' ∈ s'.releases, ∃ row ∈ s.releases, row.Keeps row') :
    ¬Inserts s s' := by
  rintro ⟨row', hrow', hnone⟩
  obtain ⟨row, hrow, t, rfl⟩ := hfrom row' hrow'
  exact Table.find?_eq_none.mp hnone row hrow rfl

/-- What the command was given is what the row was made of. -/
theorem faithful_iff {request : Request} {publicKey json signature artifact : Bytes}
    {document : ReleaseDocument} (hgiven : Given request publicKey json signature artifact)
    (haccepts : Accepts env.jsoncpp json document) : Faithful env request ↔
      (artifact.length : Int) = document.artifactSize ∧
        verifyP256Signature env.crypto publicKey (cString signature) json = .ok () := by
  obtain ⟨⟨sources, paths, signatureBytes, rfl, hjson, hsignature, rfl⟩, hartifact⟩ := hgiven
  constructor
  · intro h
    exact h json signatureBytes artifact document hjson hsignature hartifact haccepts
  · intro h json' signatureBytes' artifact' document' hjson' hsignature' hartifact' haccepts'
    obtain rfl := Option.some.inj (hjson.symm.trans hjson')
    obtain rfl := Option.some.inj (hsignature.symm.trans hsignature')
    obtain rfl := Option.some.inj (hartifact.symm.trans hartifact')
    obtain rfl := accepts_unique haccepts haccepts'
    exact h

end Rows

section Steps

variable {env : Env} {A : Set Bytes}

/-- An insert keeps what was there, and the new row is as it should be if its command is. -/
theorem signed_publish (hinj : Set.InjOn env.sha256Hex A) {s s' : State} (h : Records env A s)
    (h' : Records env A s') {request : Request} {choice : Choice}
    {publicKey json signature artifact : Bytes} {document : ReleaseDocument}
    (hgiven : Given request publicKey json signature artifact)
    (hchecked : Checked env publicKey json signature artifact document) (hartifact : artifact ∈ A)
    (heq : s'.releases = (s.publish choice (newRelease publicKey json signature
      (ReleaseStore.storageKeyFor document.artifactSha256) document)).2.releases) :
    Signed env s' ↔ Signed env s ∧ (Inserts s s' → Faithful env request) := by
  rcases publish_cases s choice (newRelease publicKey json signature
    (ReleaseStore.storageKeyFor document.artifactSha256) document) with
    hsame | ⟨releasedAt, hcast, hfree, -, hinserted⟩
  · -- the version was published already
    rw [hsame] at heq
    have hfrom : ∀ row' ∈ s'.releases, ∃ row ∈ s.releases, row.Keeps row' := fun row' hrow' =>
      ⟨row', heq ▸ hrow', .refl row'⟩
    rw [signed_keeps hinj h h' (fun row hrow => ⟨row, heq ▸ hrow, .refl row⟩) hfrom]
    exact ⟨fun hsigned => ⟨hsigned, fun hins => absurd hins (not_inserts hfrom)⟩, And.left⟩
  · rw [hinserted] at heq
    have hmem : ∀ row', row' ∈ s'.releases ↔ row' = (newRelease publicKey json signature
        (ReleaseStore.storageKeyFor document.artifactSha256) document).row choice.id releasedAt
          choice.now ∨ row' ∈ s.releases := by
      intro row'
      rw [heq]
      exact Table.mem_insert hfree row'
    have hinserts : Inserts s s' := ⟨_, (hmem _).mpr (Or.inl rfl), hfree⟩
    have hr : Recorded env A ((newRelease publicKey json signature
        (ReleaseStore.storageKeyFor document.artifactSha256) document).row choice.id releasedAt
          choice.now) json signature artifact document := recorded_new hchecked hartifact hcast
    have hrow := signedRow_iff hinj h' hr (h'.stored ((hmem _).mpr (Or.inl rfl)) hr)
    have hold : ∀ row ∈ s.releases, SignedRow env s'.files row ↔ SignedRow env s.files row :=
      fun row hmem' =>
        signedRow_keeps hinj h h' hmem' ((hmem row).mpr (Or.inr hmem')) (.refl row)
    rw [faithful_iff hgiven hchecked.accepts]
    constructor
    · intro hsigned
      exact ⟨fun row hmem' => (hold row hmem').mp (hsigned row ((hmem row).mpr (Or.inr hmem'))),
        fun _ => hrow.mp (hsigned _ ((hmem _).mpr (Or.inl rfl)))⟩
    · rintro ⟨hsigned, hfaithful⟩ row' hrow'
      rcases (hmem row').mp hrow' with rfl | hrow'
      · exact hrow.mpr (hfaithful hinserts)
      · exact (hold row' hrow').mpr (hsigned row' hrow')

/-- **What one step does to `Signed`.** -/
theorem signed_step (hinj : Set.InjOn env.sha256Hex A) {events : List Event} {e : Event}
    (hA : handed (events ++ [e]) ⊆ A) : Signed env (run env (events ++ [e])).shared ↔
      Signed env (run env events).shared ∧
        (Inserts (run env events).shared (run env (events ++ [e])).shared →
          ∀ request, (run env events).request = some request → Faithful env request) := by
  have hbefore : handed events ⊆ A := fun artifact ⟨request, hmem, hartifact⟩ =>
    hA ⟨request, List.mem_append_left _ hmem, hartifact⟩
  have h := (records_run env events hbefore).shared
  have h' := (records_run env (events ++ [e]) hA).shared
  rw [run_snoc] at h' ⊢
  rcases step_cases env events e with hsame | ⟨request, hrequest, hhanded, hstep⟩
  · have hfrom : ∀ row' ∈ ((serial env).step (run env events) e).shared.releases,
        ∃ row ∈ (run env events).shared.releases, row.Keeps row' := fun row' hrow' =>
      ⟨row', hsame ▸ hrow', .refl row'⟩
    have hnot := not_inserts hfrom
    rw [hsame] at hnot ⊢
    exact ⟨fun hsigned => ⟨hsigned, fun hins => absurd hins hnot⟩, And.left⟩
  · have hcurrent : (∀ request', (run env events).request = some request' →
        Faithful env request') ↔ Faithful env request := by
      rw [hrequest]
      exact ⟨fun hall => hall request rfl, fun hf request' heq => Option.some.inj heq ▸ hf⟩
    rw [hcurrent]
    cases hstep with
    | same heq =>
        have hfrom : ∀ row' ∈ ((serial env).step (run env events) e).shared.releases,
            ∃ row ∈ (run env events).shared.releases, row.Keeps row' := fun row' hrow' =>
          ⟨row', heq ▸ hrow', .refl row'⟩
        rw [signed_keeps hinj h h' (fun row hrow => ⟨row, heq ▸ hrow, .refl row⟩) hfrom]
        exact ⟨fun hsigned => ⟨hsigned, fun hins => absurd hins (not_inserts hfrom)⟩, And.left⟩
    | publish choice publicKey json signature artifact document hgiven hchecked heq =>
        exact signed_publish hinj h h' hgiven hchecked
          (hbefore (hhanded artifact hgiven.artifact)) heq
    | retire choice query version hasked heq =>
        have hfrom : ∀ row' ∈ ((serial env).step (run env events) e).shared.releases,
            ∃ row ∈ (run env events).shared.releases, row.Keeps row' := fun row' hrow' =>
          mem_retire (heq ▸ hrow')
        rw [signed_keeps hinj h h' (fun row hrow => ?_) hfrom]
        · exact ⟨fun hsigned => ⟨hsigned, fun hins => absurd hins (not_inserts hfrom)⟩, And.left⟩
        · rw [heq]
          exact retire_keeps hrow choice query (cString version)

end Steps

namespace Demo

theorem handed_events {document : ReleaseDocument} {artifact : Bytes} :
    handed (events document artifact) ⊆ {artifact} := by
  rintro content ⟨request, hmem, hcontent⟩
  simp only [events, List.mem_cons, List.mem_replicate, reduceCtorEq, and_false, or_false,
    Serial.Event.start.injEq] at hmem
  subst hmem
  exact (Option.some.inj hcontent).symm

theorem injOn_handed {document : ReleaseDocument} {artifact : Bytes} :
    Set.InjOn env.sha256Hex (handed (events document artifact)) :=
  (Set.injOn_singleton _ _).mono handed_events

theorem given_release : Given (.publish publicKey (sources release (ascii "zip")) paths) publicKey
    (canonicalReleaseDocument release) (ascii "MEUCIQ") (ascii "zip") where
  given := ⟨sources release (ascii "zip"), paths, ascii "MEUCIQ\n", rfl, rfl, rfl,
    by decide +kernel⟩
  artifact := rfl

theorem faithful_release : Faithful env (.publish publicKey (sources release (ascii "zip")) paths) :=
  (faithful_iff given_release (parse_canonical referenceJson_reads publishable_release)).mpr
    ⟨rfl, rfl⟩

end Demo

end Launcher.Releases
