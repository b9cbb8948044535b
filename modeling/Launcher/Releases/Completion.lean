import Launcher.Releases.Records

set_option autoImplicit false

/-! # A publish that nothing goes wrong in

When the checks of `publishRelease` pass, the artifact is not stored yet, and neither the file
system nor the database refuses anything, the nine calls of the command leave the artifact at
its content address and the row in the table. -/

namespace Launcher.Releases

open Lib ReleaseStore

/-- What is left of `publishRelease` after the checks of the document and the signature. -/
theorem publishRelease_checked {env : Env} {publicKey json signatureBytes : Bytes}
    {sources : Sources} {paths : ReleasePublishRequest} {document : ReleaseDocument}
    (hkey : publicKey ≠ []) (hjson : sources paths.documentPath = some json)
    (hsignature : sources paths.signaturePath = some signatureBytes)
    (haccepts : Accepts env.jsoncpp json document)
    (hverifies : verifyP256Signature env.crypto publicKey
      (withoutSurroundingWhitespace signatureBytes) json = .ok ()) :
    publishRelease env publicKey sources paths =
      (store paths.artifactPath (sources paths.artifactPath) document.artifactSha256 >>=
        fun storageKey => record (newRelease publicKey json
          (withoutSurroundingWhitespace signatureBytes) storageKey document)) := by
  have hparse : parseDocument env json = pure document := by
    rw [parseDocument, show parseReleaseDocument env.jsoncpp json = _ from haccepts]
    rfl
  have hempty : publicKey.isEmpty = false := List.isEmpty_eq_false_iff.mpr hkey
  rw [publishRelease, readWholeFile, readWholeFile, hjson, hsignature, hempty]
  show (parseDocument env json >>= fun release => _) = _
  rw [hparse, hverifies]
  rfl

theorem publish_inserts {s : State} {choice : Choice} {release : NewRelease}
    {releasedAt : Timestamptz} (hdocument : Utf8.valid release.document = true)
    (hsignature : Utf8.valid release.signature = true)
    (hcast : Timestamptz.cast release.releasedAt = some releasedAt)
    (hchecked : release.checked = true) (hid : s.releases.find? choice.id = none)
    (hfree : ∀ row ∈ s.releases, row.sameIdentity release = false) :
    s.publish choice release = (.ok 1, { s with
      releases := s.releases.insert (release.row choice.id releasedAt choice.now) }) := by
  have hany : s.releases.rows.any (fun row => row.sameIdentity release) = false :=
    List.any_eq_false.mpr (fun row hrow => by rw [hfree row hrow]; exact Bool.false_ne_true)
  unfold State.publish
  rw [hdocument, hsignature, hcast, hchecked, hid, hany]
  rfl

section Faultless

variable {env : Env} {choice : Choice} {s : State}

/-- The files after an artifact was placed. -/
def placed (files : Files) (sha256 content : Bytes) : Files :=
  (((files.remove (stagingFor sha256)).set (stagingFor sha256) content).remove
    (stagingFor sha256)).set (address sha256) content

theorem ends_ensureDirectory (hfault : choice.fault = .none) (directory : Path) :
    Serial.Ends (exec env) choice 1 (ensureDirectory directory) s (.ok ()) s :=
  Serial.ends_call (r := none) (by simp [exec, hfault]) Serial.ends_done

theorem ends_connect (hfault : choice.fault = .none) :
    Serial.Ends (exec env) choice 1 connect s (.ok ()) s :=
  Serial.ends_call (r := none) (by simp [exec, hfault]) Serial.ends_done

theorem ends_place (hfault : choice.fault = .none) {sha256 content : Bytes}
    (hsha : isSha256Hex sha256 = true) :
    Serial.Ends (exec env) choice 5
      (place content sha256 (ReleaseStore.storageKeyFor sha256)) s
      (.ok (ReleaseStore.storageKeyFor sha256))
      { s with files := placed s.files sha256 content } := by
  have hremove : exec env choice (.removeFile (stagingFor sha256)) s =
      ((), { s with files := s.files.remove (stagingFor sha256) }) := by
    simp [exec, hfault]
  have hcopy : ∀ s : State, exec env choice (.copyFile content (stagingFor sha256)) s =
      (none, { s with files := s.files.set (stagingFor sha256) content }) := by
    intro s
    simp [exec, hfault]
  have hrename : ∀ s : State, s.files (stagingFor sha256) = some content →
      exec env choice (.rename (stagingFor sha256) (address sha256)) s =
        (none, { s with files :=
          (s.files.remove (stagingFor sha256)).set (address sha256) content }) := by
    intro s hstaged
    simp [exec, hfault, hstaged]
  unfold place
  rw [under_storageKeyFor hsha]
  refine Serial.ends_bind (m := 4) ?_ (ends_ensureDirectory hfault _)
  refine Serial.ends_bind (m := 3) ?_ (ends_ensureDirectory hfault _)
  refine Serial.ends_call hremove (Serial.ends_call (hcopy _) ?_)
  exact Serial.ends_call (hrename _ (Files.set_self _ _ _)) Serial.ends_done

theorem ends_store (hfault : choice.fault = .none) {path sha256 content : Bytes}
    (hsha : isSha256Hex sha256 = true) (hhash : env.sha256Hex content = sha256)
    (hnew : s.files (address sha256) = none) :
    Serial.Ends (exec env) choice 7 (store path (some content) sha256) s
      (.ok (ReleaseStore.storageKeyFor sha256))
      { s with files := placed s.files sha256 content } := by
  have hkey : (ReleaseStore.storageKeyFor sha256).isEmpty = false := by
    rw [ReleaseStore.storageKeyFor, if_pos hsha]
    simp
  have hdigest : exec env choice (.sha256File content) s = (.ok sha256, s) := by
    simp [exec, hfault, hhash]
  have hlook : exec env choice (.isRegularFile (address sha256)) s = (false, s) := by
    simp [exec, hnew]
  show Serial.Ends (exec env) choice 7
    (if (ReleaseStore.storageKeyFor sha256).isEmpty then _ else _) s _ _
  rw [hkey, if_neg Bool.false_ne_true]
  refine Serial.ends_call hdigest ?_
  show Serial.Ends (exec env) choice 6 (if sha256 ≠ sha256 then _ else _) s _ _
  rw [if_neg (not_not.mpr rfl), under_storageKeyFor hsha]
  exact Serial.ends_call hlook (ends_place hfault hsha)

theorem ends_record (hfault : choice.fault = .none) {release : NewRelease} {s' : State}
    (hinsert : s.publish choice release = (.ok 1, s')) :
    Serial.Ends (exec env) choice 2 (record release) s (.ok .Published) s' := by
  refine Serial.ends_bind (m := 1) ?_ (ends_connect hfault)
  refine Serial.ends_call (r := .ok 1) ?_ Serial.ends_done
  simp [exec, hfault, answered, hinsert]

end Faultless

/-- A checked document passes the constraints of the table. -/
theorem checked_newRelease {env : Env} {publicKey json signature artifact : Bytes}
    {document : ReleaseDocument}
    (h : Checked env publicKey json signature artifact document) (hne : cString signature ≠ [])
    (key : Bytes) : (newRelease publicKey json signature key document).checked = true := by
  obtain ⟨hpublishable, rfl⟩ := parseReleaseDocument_ok h.accepts
  have hvalid := validateReleaseDocument_ok.mp hpublishable.valid
  have hchannel : document.channel.name ≠ [] := by cases document.channel <;> decide
  have hplatform : document.platform.name ≠ [] := by cases document.platform <;> decide
  have harch : document.arch.name ≠ [] := by cases document.arch <;> decide
  have hversion : document.version.text ≠ [] := by
    rw [hvalid.version, canonicalVersion]
    simp [decimal_ne_nil]
  have hjson : canonicalReleaseDocument document ≠ [] := by
    rw [canonicalReleaseDocument_eq]
    exact List.cons_ne_nil _ _
  simp only [NewRelease.checked, newRelease, cString_version hvalid.version,
    cString_sha256 hvalid.sha256, cString_document hpublishable, hvalid.sha256, hvalid.size_pos,
    List.isEmpty_eq_false_iff.mpr hchannel, List.isEmpty_eq_false_iff.mpr hplatform,
    List.isEmpty_eq_false_iff.mpr harch, List.isEmpty_eq_false_iff.mpr hversion,
    List.isEmpty_eq_false_iff.mpr hjson, List.isEmpty_eq_false_iff.mpr hne, decide_true,
    Bool.not_false, Bool.and_self]

/-- The state after a publish. -/
def State.published (s : State) (sha256 artifact : Bytes) (row : LauncherReleaseRow) : State where
  files := placed s.files sha256 artifact
  releases := s.releases.insert row

/-- The calls of a publish. -/
def publishCalls : Nat := 9

/-- **The row and the file are there.** -/
theorem publish_completes {env : Env} {publicKey json signatureBytes signature artifact : Bytes}
    {sources : Sources} {paths : ReleasePublishRequest} {document : ReleaseDocument}
    {p : Serial.Point Call Refusal State Request} {choice : Choice} {releasedAt : Timestamptz}
    (hkey : publicKey ≠ []) (hjson : sources paths.documentPath = some json)
    (hsignature : sources paths.signaturePath = some signatureBytes)
    (htrim : withoutSurroundingWhitespace signatureBytes = signature)
    (hartifact : sources paths.artifactPath = some artifact)
    (hchecked : Checked env publicKey json signature artifact document)
    (htext : Utf8.valid json = true) (hsignatureText : Utf8.valid (cString signature) = true)
    (hne : cString signature ≠ []) (hcast : Timestamptz.cast document.releasedAt = some releasedAt)
    (hfault : choice.fault = .none)
    (hnew : p.shared.files (address document.artifactSha256) = none)
    (hid : p.shared.releases.find? choice.id = none)
    (hfree : ∀ row ∈ p.shared.releases, row.sameIdentity (newRelease publicKey json signature
      (ReleaseStore.storageKeyFor document.artifactSha256) document) = false) :
    ((serial env).run p (.start (.publish publicKey sources paths) ::
        List.replicate publishCalls (.call choice))).shared =
      p.shared.published document.artifactSha256 artifact ((newRelease publicKey json signature
        (ReleaseStore.storageKeyFor document.artifactSha256) document).row choice.id
          releasedAt choice.now) := by
  obtain ⟨hpublishable, hcanonical⟩ := parseReleaseDocument_ok hchecked.accepts
  have hvalid := validateReleaseDocument_ok.mp hpublishable.valid
  have hjsonText : cString json = json := by
    rw [← hcanonical]
    exact cString_document hpublishable
  have hrelease : publishRelease env publicKey sources paths =
      (store paths.artifactPath (some artifact) document.artifactSha256 >>= fun storageKey =>
        record (newRelease publicKey json signature storageKey document)) := by
    rw [publishRelease_checked hkey hjson hsignature hchecked.accepts
      (htrim ▸ hchecked.verifies), htrim, hartifact]
  have hinsert : ({ p.shared with files := placed p.shared.files document.artifactSha256 artifact } :
      State).publish choice (newRelease publicKey json signature
        (ReleaseStore.storageKeyFor document.artifactSha256) document) =
      (.ok 1, p.shared.published document.artifactSha256 artifact
        ((newRelease publicKey json signature
          (ReleaseStore.storageKeyFor document.artifactSha256) document).row choice.id
            releasedAt choice.now)) :=
    publish_inserts (by rw [newRelease, hjsonText]; exact htext) hsignatureText
      (by rw [newRelease, cString_timestamp hvalid.releasedAt]; exact hcast)
      (checked_newRelease hchecked hne _) hid hfree
  have hpublish : Serial.Ends (exec env) choice publishCalls
      (publishRelease env publicKey sources paths) p.shared (.ok .Published)
      (p.shared.published document.artifactSha256 artifact ((newRelease publicKey json signature
        (ReleaseStore.storageKeyFor document.artifactSha256) document).row choice.id
          releasedAt choice.now)) := by
    rw [hrelease]
    exact Serial.ends_bind (n := 7)
      (f := fun storageKey => record (newRelease publicKey json signature storageKey document))
      (ends_record hfault hinsert) (ends_store hfault hvalid.sha256 hchecked.hash hnew)
  have hends : Serial.Ends (serial env).exec choice publishCalls
      ((serial env).program (.publish publicKey sources paths)) p.shared (.ok ()) _ :=
    Serial.ends_bind (n := 9) (m := 0) (f := fun _ => .done (.ok ())) Serial.ends_done hpublish
  rw [Serial.run_start, Serial.run_of_ends hends]

/-! ## A deployment to run on -/

namespace Demo

/-- A verifier that has seen one signature, and a hash of one value. -/
def env : Env where
  jsoncpp := referenceJson
  crypto :=
    { base642bin := fun text => some (text, text.length)
      d2iPubkey := fun _ => true
      isEc := fun _ => true
      keyBits := fun _ => 256
      groupName := fun _ => some (ascii "prime256v1")
      digestVerifyInit := fun _ => true
      digestVerify := fun _ signature _ => signature == ascii "MEUCIQ" }
  sha256Hex := fun _ => List.replicate 64 0x61

def publicKey : Bytes := ascii "MFkwEw"

def paths : ReleasePublishRequest :=
  ⟨ascii "release.json", ascii "release.json.sig", ascii "launcher.zip"⟩

def sources (document : ReleaseDocument) (artifact : Bytes) : Sources := fun path =>
  if path = paths.documentPath then some (canonicalReleaseDocument document)
  else if path = paths.signaturePath then some (ascii "MEUCIQ\n")
  else if path = paths.artifactPath then some artifact
  else none

def now : Timestamptz :=
  ⟨2026, 5, 1, 8, 30, 0, by decide, by decide, by decide, by decide, by decide, by decide,
    by decide⟩

def choice : Choice := ⟨.none, [], 7, now⟩

/-- The document is published with this artifact. -/
def events (document : ReleaseDocument) (artifact : Bytes) : List Event :=
  .start (.publish publicKey (sources document artifact) paths) ::
    List.replicate publishCalls (.call choice)

/-- The row that is inserted. -/
def row (document : ReleaseDocument) (releasedAt : Timestamptz) : LauncherReleaseRow :=
  (newRelease publicKey (canonicalReleaseDocument document) (ascii "MEUCIQ")
    (ReleaseStore.storageKeyFor document.artifactSha256) document).row choice.id releasedAt now

theorem accepts_row {document : ReleaseDocument} (h : Publishable document)
    (releasedAt : Timestamptz) :
    Accepts env.jsoncpp (row document releasedAt).document document := by
  have hdocument : (row document releasedAt).document = canonicalReleaseDocument document := by
    simp only [row, NewRelease.row, newRelease]
    exact cString_document h
  rw [hdocument]
  exact parse_canonical referenceJson_reads h

theorem shared_events {document : ReleaseDocument} {artifact : Bytes} {releasedAt : Timestamptz}
    (h : Publishable document) (hsha : document.artifactSha256 = List.replicate 64 0x61)
    (htext : Utf8.valid (canonicalReleaseDocument document) = true)
    (hcast : Timestamptz.cast document.releasedAt = some releasedAt) :
    (run env (events document artifact)).shared =
      State.initial.published document.artifactSha256 artifact (row document releasedAt) := by
  have hsignature : cString (ascii "MEUCIQ") = ascii "MEUCIQ" := by decide +kernel
  exact publish_completes (by decide) rfl rfl (by decide +kernel) rfl
    ⟨parse_canonical referenceJson_reads h, rfl, hsha.symm⟩ htext (by decide +kernel)
    (by rw [hsignature]; decide) hcast rfl rfl rfl (fun row hrow => by cases hrow)

theorem mem_row {document : ReleaseDocument} {artifact : Bytes} {releasedAt : Timestamptz}
    (h : Publishable document) (hsha : document.artifactSha256 = List.replicate 64 0x61)
    (htext : Utf8.valid (canonicalReleaseDocument document) = true)
    (hcast : Timestamptz.cast document.releasedAt = some releasedAt) :
    row document releasedAt ∈ (run env (events document artifact)).shared.releases := by
  rw [shared_events h hsha htext hcast]
  exact (Table.mem_insert rfl _).mpr (Or.inl rfl)

end Demo

end Launcher.Releases
