import Mathlib.Data.List.TakeWhile
import Launcher.Releases.Publish

set_option autoImplicit false

/-! # What a row was made of

`publishRelease` checks the document, the signature and the artifact before it inserts a row,
and stores the artifact before that. `Admits` says for each call of a command when it is made,
`Records` is what holds of the table and the files in every run, and `records_run` that it
does: at a content address there is only an artifact with that hash, and every row comes from
an accepted document with a signature that verified and an artifact that is still there. -/

namespace Launcher.Releases

open Lib ReleaseStore

/-! ## Names of files -/

theorem isLowercaseHexDigit_ne {c : UInt8} (h : isLowercaseHexDigit c = true) :
    c ≠ slash ∧ c ≠ 0 := by
  constructor
  · rintro rfl
    exact absurd h (by decide)
  · rintro rfl
    exact absurd h (by decide)

theorem hexDigit_of_mem {sha256 : Bytes} (h : isSha256Hex sha256 = true) :
    ∀ c ∈ sha256, isLowercaseHexDigit c = true := by
  simp only [isSha256Hex, Bool.and_eq_true, List.all_eq_true] at h
  exact h.2

/-- The three components of a content address. -/
def address (sha256 : Bytes) : Path :=
  [sha256.take 2, (sha256.drop 2).take 2, sha256 ++ ARTIFACT_EXTENSION]

theorem under_storageKeyFor {sha256 : Bytes} (h : isSha256Hex sha256 = true) :
    under (ReleaseStore.storageKeyFor sha256) = address sha256 := by
  have hslash : ∀ c ∈ sha256, c ≠ slash := fun c hc => (isLowercaseHexDigit_ne
    (hexDigit_of_mem h c hc)).1
  have hkey : ReleaseStore.storageKeyFor sha256 = [slash].intercalate (address sha256) := by
    rw [ReleaseStore.storageKeyFor, if_pos h]
    simp only [address, List.intercalate_cons_cons, List.intercalate_singleton,
      List.append_assoc]
  rw [under, hkey]
  refine List.splitOn_intercalate slash (fun component hc hmem => ?_) (List.cons_ne_nil _ _)
  simp only [address, List.mem_cons, List.not_mem_nil, or_false] at hc
  rcases hc with rfl | rfl | rfl
  · exact hslash slash (List.mem_of_mem_take hmem) rfl
  · exact hslash slash (List.mem_of_mem_drop (List.mem_of_mem_take hmem)) rfl
  · rcases List.mem_append.mp hmem with hmem | hmem
    · exact hslash slash hmem rfl
    · exact absurd hmem (by decide)

theorem address_injective {sha256 sha256' : Bytes} (h : address sha256 = address sha256') :
    sha256 = sha256' := by
  simp only [address, List.cons.injEq, and_true] at h
  exact List.append_cancel_right h.2.2

theorem address_ne_staging (sha256 sha256' : Bytes) : address sha256 ≠ stagingFor sha256' := by
  intro h
  have hlen := congrArg List.length h
  simp [address, stagingFor] at hlen

/-! ## C strings -/

theorem cString_eq_self {text : Bytes} (h : ∀ c ∈ text, c ≠ 0) : cString text = text :=
  List.takeWhile_eq_self_iff.mpr (fun c hc => by simpa using h c hc)

theorem cString_sha256 {sha256 : Bytes} (h : isSha256Hex sha256 = true) :
    cString sha256 = sha256 :=
  cString_eq_self (fun c hc => (isLowercaseHexDigit_ne (hexDigit_of_mem h c hc)).2)

theorem cString_storageKeyFor {sha256 : Bytes} (h : isSha256Hex sha256 = true) :
    cString (ReleaseStore.storageKeyFor sha256) = ReleaseStore.storageKeyFor sha256 := by
  have hzero : ∀ c ∈ sha256, c ≠ 0 := fun c hc =>
    (isLowercaseHexDigit_ne (hexDigit_of_mem h c hc)).2
  refine cString_eq_self (fun c hc => ?_)
  rw [ReleaseStore.storageKeyFor, if_pos h] at hc
  simp only [List.mem_append, List.mem_singleton] at hc
  rcases hc with ((((hc | rfl) | hc) | rfl) | hc) | hc
  · exact hzero c (List.mem_of_mem_take hc)
  · decide
  · exact hzero c (List.mem_of_mem_drop (List.mem_of_mem_take hc))
  · decide
  · exact hzero c hc
  · rintro rfl
    exact absurd hc (by decide)

theorem cString_version {version : Semver} (h : version.text = canonicalVersion version) :
    cString version.text = version.text := by
  refine cString_eq_self (fun c hc => ?_)
  rintro rfl
  rw [h] at hc
  have hdecimal : ∀ n : Nat, (0 : UInt8) ∉ decimal n := fun n hmem =>
    absurd ((digits_decimal n).2 0 hmem) (by decide)
  simp only [canonicalVersion, List.mem_append] at hc
  rcases hc with (((hc | hc) | hc) | hc) | hc
  · exact hdecimal version.major hc
  · exact absurd hc (by decide)
  · exact hdecimal version.minor hc
  · exact absurd hc (by decide)
  · exact hdecimal version.patch hc

theorem cString_timestamp {text : Bytes} (h : isUtcTimestamp text = true) :
    cString text = text := by
  have hshaped := Timestamptz.shaped_of_isUtcTimestamp h
  refine cString_eq_self (fun c hc => ?_)
  rintro rfl
  rw [hshaped.eq_fields] at hc
  have hpadded : ∀ width n : Nat, (0 : UInt8) ∉ Timestamptz.padded width n := fun width n hmem =>
    absurd (Timestamptz.isDigit_padded 0 hmem) (by decide)
  simp only [List.mem_append, hpadded, false_or, or_false] at hc
  rcases hc with ((((hc | hc) | hc) | hc) | hc) | hc
  all_goals exact absurd hc (by decide)

theorem canonicalJsonByte_ne_zero (c : UInt8) : ∀ c' ∈ canonicalJsonByte c, c' ≠ 0 := by
  intro c' hc'
  rintro rfl
  unfold canonicalJsonByte at hc'
  split_ifs at hc' with h1 h2 h3 h4 h5 h6 h7 h8
  all_goals try exact absurd hc' (by decide)
  · have hdigit : ∀ n < 16, hexDigit n ≠ 0 := by decide
    simp only [List.mem_append, List.mem_cons, List.not_mem_nil, or_false] at hc'
    rcases hc' with hc' | hc' | hc'
    · exact absurd hc' (by decide)
    · exact hdigit _ (Nat.mod_lt _ (by decide)) hc'.symm
    · exact hdigit _ (Nat.mod_lt _ (by decide)) hc'.symm
  · rw [← List.mem_singleton.mp hc'] at h8
    exact h8 (by decide)

/-- The bytes that were signed have no NUL among them. -/
theorem cString_document {document : ReleaseDocument} (h : Publishable document) :
    cString (canonicalReleaseDocument document) = canonicalReleaseDocument document := by
  have hvalid := validateReleaseDocument_ok.mp h.valid
  have hstring : ∀ value : Bytes, (0 : UInt8) ∉ canonicalJsonString value := by
    intro value hmem
    simp only [canonicalJsonString, List.mem_append, List.mem_flatMap] at hmem
    rcases hmem with (hmem | ⟨c, -, hmem⟩) | hmem
    · exact absurd hmem (by decide)
    · exact canonicalJsonByte_ne_zero c 0 hmem rfl
    · exact absurd hmem (by decide)
  have hdecimal : ∀ n : Int, 0 ≤ n → (0 : UInt8) ∉ decimal n := by
    intro n hn hmem
    obtain ⟨k, rfl⟩ := Int.eq_ofNat_of_zero_le hn
    exact absurd ((digits_decimal k).2 0 hmem) (by decide)
  have hschema : 0 ≤ document.schema := by
    rw [hvalid.schema]
    decide
  refine cString_eq_self (fun c hc => ?_)
  rintro rfl
  delta canonicalReleaseDocument at hc
  simp only [List.mem_append, hstring, hdecimal _ hschema, hdecimal _ hvalid.size_pos.le,
    or_false] at hc
  rcases hc with ((((((((hc | hc) | hc) | hc) | hc) | hc) | hc) | hc) | hc) | hc
  all_goals exact absurd hc (by decide +kernel)

/-! ## What is recorded -/

/-- The artifact a command was given. -/
def Request.artifact : Request → Option Bytes
  | .publish _ sources request => sources request.artifactPath
  | .retire _ _ => none

/-- A document with its signature and its artifact, as they passed the checks. -/
structure Checked (env : Env) (publicKey json signature artifact : Bytes)
    (document : ReleaseDocument) : Prop where
  accepts : Accepts env.jsoncpp json document
  verifies : verifyP256Signature env.crypto publicKey signature json = .ok ()
  hash : env.sha256Hex artifact = document.artifactSha256

/-- What a publishing command was given. -/
structure Given (request : Request) (publicKey json signature artifact : Bytes) : Prop where
  given : ∃ sources paths signatureBytes, request = .publish publicKey sources paths ∧
    sources paths.documentPath = some json ∧
    sources paths.signaturePath = some signatureBytes ∧
    signature = withoutSurroundingWhitespace signatureBytes
  artifact : request.artifact = some artifact

/-- The row of a checked document. -/
structure Recorded (env : Env) (A : Set Bytes) (row : LauncherReleaseRow)
    (json signature artifact : Bytes) (document : ReleaseDocument) : Prop where
  checked : Checked env row.publicKey json signature artifact document
  mem : artifact ∈ A
  releasedAt : Timestamptz.cast document.releasedAt = some row.releasedAt
  row : ((newRelease row.publicKey json signature
    (ReleaseStore.storageKeyFor document.artifactSha256) document).row
      row.id row.releasedAt row.createdAt).Keeps row

/-- The artifact of the hash is in the store. -/
def Stored (s : State) (sha256 : Bytes) : Prop := (s.files (address sha256)).isSome

/-- The invariant: what is at a content address has that hash, and every row was checked and
has its artifact. -/
structure Records (env : Env) (A : Set Bytes) (s : State) : Prop where
  content : ∀ sha256 content, s.files (address sha256) = some content →
    env.sha256Hex content = sha256 ∧ content ∈ A
  recorded : ∀ row ∈ s.releases, ∃ json signature artifact document,
    Recorded env A row json signature artifact document ∧ Stored s document.artifactSha256

/-- When a call is made. -/
def Admits (env : Env) (request : Request) (s : State) : {γ : Type} → Call γ → Prop
  | _, .removeFile path => ∃ sha256, path = stagingFor sha256
  | _, .copyFile _ target => ∃ sha256, target = stagingFor sha256
  | _, .rename source target => ∃ sha256 artifact, source = stagingFor sha256 ∧
      target = address sha256 ∧ s.files source = some artifact ∧
      env.sha256Hex artifact = sha256 ∧ request.artifact = some artifact
  | _, .publish release => ∃ publicKey json signature artifact document,
      Given request publicKey json signature artifact ∧
      Checked env publicKey json signature artifact document ∧
      Stored s document.artifactSha256 ∧
      release = newRelease publicKey json signature
        (ReleaseStore.storageKeyFor document.artifactSha256) document
  | _, .retire query version => ∃ version', request = .retire query version' ∧
      version = cString version'
  | _, _ => True

/-! ## The calls keep it -/

section Calls

variable {env : Env} {A : Set Bytes} {s s' : State}

theorem Recorded.keeps {row row' : LauncherReleaseRow} {json signature artifact : Bytes}
    {document : ReleaseDocument} (h : Recorded env A row json signature artifact document)
    (hkeeps : row.Keeps row') : Recorded env A row' json signature artifact document := by
  obtain ⟨t, rfl⟩ := hkeeps
  exact ⟨h.checked, h.mem, h.releasedAt, h.row.trans ⟨t, rfl⟩⟩

theorem Records.of_rows (h : Records env A s) (hfiles : s'.files = s.files)
    (hrows : ∀ row' ∈ s'.releases, ∃ row ∈ s.releases, row.Keeps row') : Records env A s' := by
  refine ⟨fun sha256 content hc => h.content sha256 content (hfiles ▸ hc), fun row' hrow' => ?_⟩
  obtain ⟨row, hrow, hkeeps⟩ := hrows row' hrow'
  obtain ⟨json, signature, artifact, document, hr, hstored⟩ := h.recorded row hrow
  refine ⟨json, signature, artifact, document, hr.keeps hkeeps, ?_⟩
  rw [Stored, hfiles]
  exact hstored

/-- Files that are not at a content address do not matter. -/
theorem Records.of_files (h : Records env A s)
    (hfiles : ∀ sha256, s'.files (address sha256) = s.files (address sha256))
    (hrows : s'.releases = s.releases) : Records env A s' := by
  refine ⟨fun sha256 content hc => h.content sha256 content (hfiles sha256 ▸ hc),
    fun row hrow => ?_⟩
  rw [hrows] at hrow
  obtain ⟨json, signature, artifact, document, hr, hstored⟩ := h.recorded row hrow
  refine ⟨json, signature, artifact, document, hr, ?_⟩
  rw [Stored, hfiles]
  exact hstored

/-- An artifact is put at its content address. -/
theorem Records.place (h : Records env A s) {sha256 artifact : Bytes}
    (hself : s'.files (address sha256) = some artifact)
    (hother : ∀ sha256', sha256' ≠ sha256 →
      s'.files (address sha256') = s.files (address sha256'))
    (hrows : s'.releases = s.releases) (hhash : env.sha256Hex artifact = sha256)
    (hmem : artifact ∈ A) : Records env A s' := by
  refine ⟨fun sha256' content hc => ?_, fun row hrow => ?_⟩
  · by_cases heq : sha256' = sha256
    · subst heq
      rw [hself] at hc
      obtain rfl := Option.some.inj hc
      exact ⟨hhash, hmem⟩
    · rw [hother sha256' heq] at hc
      exact h.content sha256' content hc
  · rw [hrows] at hrow
    obtain ⟨json, signature, artifact', document, hr, hstored⟩ := h.recorded row hrow
    refine ⟨json, signature, artifact', document, hr, ?_⟩
    by_cases heq : document.artifactSha256 = sha256
    · rw [Stored, heq, hself]
      rfl
    · rw [Stored, hother _ heq]
      exact hstored

/-- The row that an insert adds. -/
theorem recorded_new {publicKey json signature artifact : Bytes} {document : ReleaseDocument}
    (hchecked : Checked env publicKey json signature artifact document) (hmem : artifact ∈ A)
    {releasedAt : Timestamptz} (hcast : Timestamptz.cast (newRelease publicKey json signature
      (ReleaseStore.storageKeyFor document.artifactSha256) document).releasedAt = some releasedAt)
    {id : Uuid} {now : Timestamptz} :
    Recorded env A ((newRelease publicKey json signature
      (ReleaseStore.storageKeyFor document.artifactSha256) document).row id releasedAt now)
      json signature artifact document := by
  have hvalid := validateReleaseDocument_ok.mp (parseReleaseDocument_ok hchecked.accepts).1.valid
  refine ⟨hchecked, hmem, ?_, .refl _⟩
  rw [← cString_timestamp hvalid.releasedAt]
  exact hcast

theorem Records.publish (h : Records env A s) {publicKey json signature artifact : Bytes}
    {document : ReleaseDocument}
    (hchecked : Checked env publicKey json signature artifact document) (hmem : artifact ∈ A)
    (hstored : Stored s document.artifactSha256) (choice : Choice) :
    Records env A (s.publish choice (newRelease publicKey json signature
      (ReleaseStore.storageKeyFor document.artifactSha256) document)).2 := by
  rcases publish_cases s choice (newRelease publicKey json signature
    (ReleaseStore.storageKeyFor document.artifactSha256) document) with
    hsame | ⟨releasedAt, hcast, -, -, heq⟩
  · rwa [hsame]
  · rw [heq]
    refine ⟨h.content, fun row hrow => ?_⟩
    rcases Table.eq_or_mem_of_mem_insert hrow with rfl | hrow
    · exact ⟨json, signature, artifact, document, recorded_new hchecked hmem hcast, hstored⟩
    · exact h.recorded row hrow

theorem answered_snd {α : Type} (choice : Choice) (outcome : Except Bytes α × State) :
    (answered choice outcome).2 = outcome.2 := by
  unfold answered
  split
  · rfl
  · rfl

/-- **An admitted call keeps the invariant.** -/
theorem Records.exec (h : Records env A s) {request : Request}
    (hrequest : ∀ artifact, request.artifact = some artifact → artifact ∈ A) (choice : Choice)
    {γ : Type} {c : Call γ} (hc : Admits env request s c) :
    Records env A (exec env choice c s).2 := by
  cases c with
  | isRegularFile path => exact h
  | createDirectories path => exact h
  | sha256File content => exact h
  | connect => exact h
  | removeFile path =>
      obtain ⟨sha256, rfl⟩ := hc
      simp only [Releases.exec]
      split
      · exact h
      · exact h.of_files (fun sha256' => Files.remove_ne _ (address_ne_staging sha256' sha256)) rfl
  | copyFile content target =>
      obtain ⟨sha256, rfl⟩ := hc
      have hset : ∀ written, Records env A
          { s with files := s.files.set (stagingFor sha256) written } := fun written =>
        h.of_files (fun sha256' => Files.set_ne _ _ (address_ne_staging sha256' sha256)) rfl
      simp only [Releases.exec]
      split
      · exact h
      · exact hset _
      · exact hset _
  | rename source target =>
      obtain ⟨sha256, artifact, rfl, rfl, hsource, hhash, hartifact⟩ := hc
      simp only [Releases.exec, hsource]
      split
      · exact h
      · exact h
      · rename_i content heq hne
        obtain rfl := Option.some.inj heq
        refine h.place (Files.set_self _ _ _) (fun sha256' hne => ?_) rfl hhash
          (hrequest _ hartifact)
        show ((s.files.remove (stagingFor sha256)).set (address sha256) _) (address sha256') = _
        rw [Files.set_ne _ _ (fun heq => hne (address_injective heq)),
          Files.remove_ne _ (address_ne_staging sha256' sha256)]
  | publish release =>
      obtain ⟨publicKey, json, signature, artifact, document, hgiven, hchecked, hstored, rfl⟩ := hc
      simp only [Releases.exec]
      split
      · exact h
      · rw [answered_snd]
        exact h.publish hchecked (hrequest artifact hgiven.artifact) hstored choice
  | retire query version =>
      simp only [Releases.exec]
      split
      · exact h
      · rw [answered_snd]
        exact h.of_rows rfl (fun row' hrow' => mem_retire hrow')

end Calls

/-! ## The commands make only such calls -/

section Commands

variable {env : Env} {A : Set Bytes} {request : Request} {s : State}

/-- Alone on the table and the files, the command makes only admitted calls, and ends in `Q`. -/
abbrev Safely (env : Env) (A : Set Bytes) (request : Request) {α : Type}
    (Q : Except Refusal α → State → Prop) (p : Command α) (s : State) : Prop :=
  p.Safe (exec env) (Records env A) Eq (Admits env request) Q s

theorem safely_ensureDirectory {Q : Except Refusal Unit → State → Prop} {directory : Path}
    (hok : Q (.ok ()) s) (herror : ∀ e, Q (.error e) s) :
    Safely env A request Q (ensureDirectory directory) s := by
  refine Serial.safe_call (fun _ => ⟨trivial, fun choice => ?_⟩)
  cases (exec env choice (.createDirectories directory) s).1 with
  | none => exact hok
  | some message => exact herror _

theorem safely_connect {Q : Except Refusal Unit → State → Prop}
    (hok : Q (.ok ()) s) (herror : ∀ e, Q (.error e) s) :
    Safely env A request Q connect s := by
  refine Serial.safe_call (fun _ => ⟨trivial, fun choice => ?_⟩)
  cases (exec env choice .connect s).1 with
  | none => exact hok
  | some message => exact herror _

theorem files_copyFile {choice : Choice} {content : Bytes} {target : Path}
    (h : (exec env choice (.copyFile content target) s).1 = none) :
    (exec env choice (.copyFile content target) s).2.files target = some content := by
  simp only [exec] at h ⊢
  split at h
  · cases h
  · cases h
  · exact Files.set_self _ _ _

theorem files_rename {choice : Choice} {content : Bytes} {source target : Path}
    (hsource : s.files source = some content)
    (h : (exec env choice (.rename source target) s).1 = none) :
    (exec env choice (.rename source target) s).2.files target = some content := by
  simp only [exec, hsource] at h ⊢
  split at h
  · cases h
  · cases h
  · rename_i content' heq hne
    obtain rfl := Option.some.inj heq
    exact Files.set_self _ _ _

theorem files_removeFile {choice : Choice} {path p : Path} (hne : p ≠ path) :
    (exec env choice (.removeFile path) s).2.files p = s.files p := by
  simp only [exec]
  split
  · rfl
  · exact Files.remove_ne _ hne

/-- A part that ends with a value leaves its artifact in the store. -/
def Leaves (sha256 : Bytes) (outcome : Except Refusal Bytes) (s : State) : Prop :=
  ∀ key, outcome = .ok key → key = ReleaseStore.storageKeyFor sha256 ∧ Stored s sha256

theorem leaves_error {sha256 : Bytes} (e : Refusal) : Leaves sha256 (.error e) s :=
  fun _ h => by cases h

/-- After a look that found the file. -/
theorem stored_of_isRegularFile {sha256 : Bytes} {choice : Choice}
    (h : (exec env choice (.isRegularFile (address sha256)) s).1 = true) : Stored s sha256 := by
  simp only [exec, Bool.and_eq_true] at h
  exact h.2

theorem safely_place {sha256 content : Bytes} (hsha : isSha256Hex sha256 = true)
    (hhash : env.sha256Hex content = sha256) (hartifact : request.artifact = some content) :
    Safely env A request (Leaves sha256)
      (place content sha256 (ReleaseStore.storageKeyFor sha256)) s := by
  unfold place
  rw [under_storageKeyFor hsha]
  refine Program.safe_bind (safely_ensureDirectory ?_ leaves_error)
  refine Program.safe_bind (safely_ensureDirectory ?_ leaves_error)
  -- the old staging file
  refine Serial.safe_call (fun _ => ⟨⟨sha256, rfl⟩, fun choice => ?_⟩)
  generalize (exec env choice (.removeFile (stagingFor sha256)) s).2 = s
  refine Serial.safe_call (fun _ => ⟨⟨sha256, rfl⟩, fun choice => ?_⟩)
  cases hcopy : (exec env choice (.copyFile content (stagingFor sha256)) s).1 with
  | some message => exact leaves_error _
  | none =>
      -- copied whole
      have hcopied := files_copyFile hcopy
      generalize (exec env choice (.copyFile content (stagingFor sha256)) s).2 = s at hcopied ⊢
      refine Serial.safe_call
        (fun _ => ⟨⟨sha256, content, rfl, rfl, hcopied, hhash, hartifact⟩, fun choice => ?_⟩)
      cases hrename : (exec env choice (.rename (stagingFor sha256) (address sha256)) s).1 with
      | none =>
          intro key hkey
          refine ⟨(Except.ok.inj hkey).symm, ?_⟩
          rw [Stored, files_rename hcopied hrename]
          rfl
      | some message =>
          generalize (exec env choice (.rename (stagingFor sha256) (address sha256)) s).2 = s
          refine Serial.safe_call (fun _ => ⟨trivial, fun choice => ?_⟩)
          cases hthere : (exec env choice (.isRegularFile (address sha256)) s).1 with
          | false => exact Serial.safe_call (fun _ => ⟨⟨sha256, rfl⟩, fun _ => leaves_error _⟩)
          | true =>
              have hstored := stored_of_isRegularFile hthere
              refine Serial.safe_call (fun _ => ⟨⟨sha256, rfl⟩, fun choice' => ?_⟩)
              intro key hkey
              refine ⟨(Except.ok.inj hkey).symm, ?_⟩
              rw [Stored, files_removeFile (address_ne_staging sha256 sha256)]
              exact hstored

/-- What `store` has done when it ends with a value. -/
def Stores (env : Env) (source : Option Bytes) (sha256 : Bytes)
    (outcome : Except Refusal Bytes) (s : State) : Prop :=
  ∀ key, outcome = .ok key → key = ReleaseStore.storageKeyFor sha256 ∧ Stored s sha256 ∧
    ∃ artifact, source = some artifact ∧ env.sha256Hex artifact = sha256

theorem stores_error {source : Option Bytes} {sha256 : Bytes} (e : Refusal) :
    Stores env source sha256 (.error e) s :=
  fun _ h => by cases h

theorem safely_store {path sha256 : Bytes} {source : Option Bytes}
    (hsource : request.artifact = source) :
    Safely env A request (Stores env source sha256) (store path source sha256) s := by
  show Safely env A request _ (if (ReleaseStore.storageKeyFor sha256).isEmpty then _ else _) s
  split
  case isTrue => exact stores_error _
  case isFalse hkey =>
    have hsha : isSha256Hex sha256 = true := by
      by_contra hnot
      rw [ReleaseStore.storageKeyFor, if_neg hnot] at hkey
      exact hkey rfl
    cases source with
    | none => exact stores_error _
    | some content =>
        refine Serial.safe_call (fun _ => ⟨trivial, fun choice => ?_⟩)
        cases hdigest : (exec env choice (.sha256File content) s).1 with
        | error e => exact stores_error _
        | ok actual =>
            have hactual : env.sha256Hex content = actual := by
              simp only [exec] at hdigest
              split at hdigest
              · cases hdigest
              · exact Except.ok.inj hdigest
            show Safely env A request _ (if actual ≠ sha256 then _ else _) s
            split
            case isTrue => exact stores_error _
            case isFalse hsame =>
              obtain rfl := not_not.mp hsame
              have hkept : ∀ {outcome s'}, Leaves actual outcome s' →
                  Stores env (some content) actual outcome s' := fun h key hk =>
                ⟨(h key hk).1, (h key hk).2, content, rfl, hactual⟩
              rw [under_storageKeyFor hsha]
              refine Serial.safe_call (fun _ => ⟨trivial, fun choice => ?_⟩)
              cases hthere : (exec env choice (.isRegularFile (address actual)) s).1 with
              | true =>
                  have hstored := stored_of_isRegularFile hthere
                  exact hkept (fun key hk => ⟨(Except.ok.inj hk).symm, hstored⟩)
              | false =>
                  exact (safely_place hsha hactual hsource).mono (fun outcome s' h => hkept h)

theorem safely_record {release : NewRelease} (h : Admits env request s (.publish release)) :
    Safely env A request (fun _ _ => True) (record release) s := by
  refine Program.safe_bind (safely_connect ?_ (fun _ => trivial))
  refine Serial.safe_call (fun _ => ⟨h, fun choice => ?_⟩)
  cases (exec env choice (.publish release) s).1 with
  | error message => trivial
  | ok tuples => trivial

theorem given_of_readWholeFile {sources : Sources} {path content : Bytes}
    (h : readWholeFile sources path = .ok content) : sources path = some content := by
  unfold readWholeFile at h
  cases hsource : sources path with
  | none =>
      rw [hsource] at h
      cases h
  | some content' =>
      rw [hsource] at h
      rw [Except.ok.inj h]

theorem safely_publishRelease {publicKey : Bytes} {sources : Sources}
    {paths : ReleasePublishRequest} :
    Safely env A (.publish publicKey sources paths) (fun _ _ => True)
      (publishRelease env publicKey sources paths) s := by
  unfold publishRelease
  split
  case isTrue => trivial
  case isFalse =>
    cases hjson : readWholeFile sources paths.documentPath with
    | error e => trivial
    | ok json =>
        cases hsignature : readWholeFile sources paths.signaturePath with
        | error e => trivial
        | ok signatureBytes =>
            -- both files are there
            show Safely env A _ _ (parseDocument env json >>= fun release => _) s
            cases hparse : parseReleaseDocument env.jsoncpp json with
            | error thrown =>
                rw [parseDocument, hparse]
                trivial
            | ok result =>
                cases result with
                | error e =>
                    rw [parseDocument, hparse]
                    trivial
                | ok document =>
                    rw [parseDocument, hparse]
                    cases hverify : verifyP256Signature env.crypto publicKey
                      (withoutSurroundingWhitespace signatureBytes) json with
                    | error e => trivial
                    | ok _ =>
                        have hstore : Safely env A (.publish publicKey sources paths) _
                            (store paths.artifactPath (sources paths.artifactPath)
                              document.artifactSha256) s := safely_store rfl
                        show Safely env A _ _ (store paths.artifactPath
                          (sources paths.artifactPath) document.artifactSha256 >>= _) s
                        refine Program.safe_bind (hstore.mono (fun outcome s' h => ?_))
                        cases outcome with
                        | error e => trivial
                        | ok key =>
                            obtain ⟨rfl, hstored, artifact, hartifact, hhash⟩ := h key rfl
                            exact safely_record ⟨publicKey, json, _, artifact, document,
                              ⟨⟨sources, paths, signatureBytes, rfl, given_of_readWholeFile hjson,
                                given_of_readWholeFile hsignature, rfl⟩, hartifact⟩,
                              ⟨hparse, hverify, hhash⟩, hstored, rfl⟩

theorem safely_retireRelease {query : ReleaseQuery} {version : Bytes} :
    Safely env A (.retire query version) (fun _ _ => True) (retireRelease query version) s := by
  refine Program.safe_bind (safely_connect ?_ (fun _ => trivial))
  refine Serial.safe_call (fun _ => ⟨⟨version, rfl, rfl⟩, fun choice => ?_⟩)
  cases (exec env choice (.retire query (cString version)) s).1 with
  | error message => trivial
  | ok tuples => trivial

end Commands

/-! ## What a call does to the table -/

/-- The rows are left alone, or a checked document is inserted, or the version that was asked
for is retired. -/
inductive TableStep (env : Env) (request : Request) (s s' : State) : Prop
  | same (h : s'.releases = s.releases)
  | publish (choice : Choice) (publicKey json signature artifact : Bytes)
      (document : ReleaseDocument) (given : Given request publicKey json signature artifact)
      (checked : Checked env publicKey json signature artifact document)
      (h : s'.releases = (s.publish choice (newRelease publicKey json signature
        (ReleaseStore.storageKeyFor document.artifactSha256) document)).2.releases)
  | retire (choice : Choice) (query : ReleaseQuery) (version : Bytes)
      (asked : request = .retire query version)
      (h : s'.releases = (s.retire choice query (cString version)).2.releases)

theorem Admits.tableStep {env : Env} {request : Request} {s : State} {γ : Type} {c : Call γ}
    (h : Admits env request s c) (choice : Choice) :
    TableStep env request s (exec env choice c s).2 := by
  cases c with
  | isRegularFile path => exact .same rfl
  | createDirectories path => exact .same rfl
  | sha256File content => exact .same rfl
  | connect => exact .same rfl
  | removeFile path =>
      refine .same ?_
      simp only [exec]
      split
      · rfl
      · rfl
  | copyFile content target =>
      refine .same ?_
      simp only [exec]
      split
      · rfl
      · rfl
      · rfl
  | rename source target =>
      refine .same ?_
      simp only [exec]
      split
      · rfl
      · rfl
      · rfl
  | publish release =>
      obtain ⟨publicKey, json, signature, artifact, document, hgiven, hchecked, -, rfl⟩ := h
      simp only [exec]
      split
      · exact .same rfl
      · rw [answered_snd]
        exact .publish choice publicKey json signature artifact document hgiven hchecked rfl
  | retire query version =>
      obtain ⟨version, rfl, rfl⟩ := h
      simp only [exec]
      split
      · exact .same rfl
      · rw [answered_snd]
        exact .retire choice query version rfl rfl

/-! ## In every run -/

section Runs

variable {env : Env} {A : Set Bytes}

theorem records_initial : Records env A State.initial where
  content := fun _ _ h => by cases h
  recorded := fun _ h => by cases h

/-- The artifacts of the commands are all in `A`. -/
def Handed (A : Set Bytes) (request : Request) : Prop :=
  ∀ artifact, request.artifact = some artifact → artifact ∈ A

theorem records_keeps : (serial env).Keeps (Handed A) (Records env A) (Admits env) where
  start := by
    intro request s _ _
    cases request with
    | publish publicKey sources paths =>
        refine Program.safe_bind (safely_publishRelease.mono (fun outcome s' _ => ?_))
        cases outcome with
        | ok _ => trivial
        | error _ => trivial
    | retire query version =>
        refine Program.safe_bind (safely_retireRelease.mono (fun outcome s' _ => ?_))
        cases outcome with
        | ok _ => trivial
        | error _ => trivial
  call := fun _ _ choice _ _ hallowed hrecords hadmits => hrecords.exec hallowed choice hadmits

/-- The artifacts handed over in a run. -/
def handed (events : List Event) : Set Bytes :=
  {artifact | ∃ request, .start request ∈ events ∧ request.artifact = some artifact}

/-- **The invariant of every run.** -/
theorem records_run (env : Env) (events : List Event) (hA : handed events ⊆ A) :
    (serial env).Good (Handed A) (Records env A) (Admits env) (run env events) :=
  (Serial.good_initial records_initial).run records_keeps
    (fun request hmem _ hartifact => hA ⟨request, hmem, hartifact⟩)

/-- A step of a run, as far as the table goes. -/
theorem step_cases (env : Env) (events : List Event) (e : Event) :
    ((serial env).step (run env events) e).shared = (run env events).shared ∨
      ∃ request, (run env events).request = some request ∧ Handed (handed events) request ∧
        TableStep env request (run env events).shared
          ((serial env).step (run env events) e).shared := by
  rcases (records_run env events subset_rfl).step_cases e with
    hsame | ⟨request, _, c, choice, hrequest, hhanded, hadmits, heq⟩
  · exact Or.inl hsame
  · right
    refine ⟨request, hrequest, hhanded, ?_⟩
    rw [heq]
    exact Admits.tableStep hadmits choice

theorem run_snoc (env : Env) (events : List Event) (e : Event) :
    run env (events ++ [e]) = (serial env).step (run env events) e :=
  (serial env).run_snoc _ events e

end Runs

end Launcher.Releases
