import Launcher.Releases.Completion
import Launcher.Releases.Newest

set_option autoImplicit false

/-! # Columns and document

`findLatest` does not parse the stored document: `mapRelease` rebuilds the parsed view from the
columns, which were written from the same parse. All but one of them come back as they went in.
The instant goes through a `timestamptz`, which has no second 60; a document is allowed one,
and its view then names the next minute. -/

namespace Launcher.Releases

open Lib

/-- The view is the parse of the stored document, but for the notes. -/
def Agrees (env : Env) (query : ReleaseQuery) (row : LauncherReleaseRow) : Prop :=
  ∃ document, Accepts env.jsoncpp row.document document ∧
    { (mapRelease row query).parsed with notes := document.notes } = document

/-- The instant of the document is in a second 60. -/
def LeapSecond (document : ReleaseDocument) : Prop := numberAt document.releasedAt 17 2 = 60

instance (document : ReleaseDocument) : Decidable (LeapSecond document) :=
  inferInstanceAs (Decidable (numberAt document.releasedAt 17 2 = 60))

/-- The document that a row was made of is the one that is stored. -/
theorem Recorded.document {env : Env} {A : Set Bytes} {row : LauncherReleaseRow}
    {json signature artifact : Bytes} {document : ReleaseDocument}
    (h : Recorded env A row json signature artifact document) : row.document = json := by
  obtain ⟨hpublishable, hcanonical⟩ := parseReleaseDocument_ok h.checked.accepts
  have hjson : cString json = json := by
    rw [← hcanonical]
    exact cString_document hpublishable
  exact (NewRelease.columns h.row).document.trans hjson

theorem accepts_unique {jsoncpp : JsonCpp} {json : Bytes} {document document' : ReleaseDocument}
    (h : Accepts jsoncpp json document) (h' : Accepts jsoncpp json document') :
    document = document' := by
  rw [Accepts, show parseReleaseDocument jsoncpp json = _ from h'] at h
  exact (Except.ok.inj (Except.ok.inj h)).symm

/-- Every field of the view but the instant and the notes. -/
theorem Recorded.view {env : Env} {A : Set Bytes} {row : LauncherReleaseRow}
    {json signature artifact : Bytes} {document : ReleaseDocument}
    (h : Recorded env A row json signature artifact document) {query : ReleaseQuery}
    (hof : row.of query = true) :
    (mapRelease row query).parsed =
      { document with releasedAt := row.releasedAt.toChar, notes := [] } := by
  have hvalid := validateReleaseDocument_ok.mp (parseReleaseDocument_ok h.checked.accepts).1.valid
  have hcolumns := NewRelease.columns h.row
  have hversion : row.version = document.version.text :=
    hcolumns.version.trans (cString_version hvalid.version)
  have hsha : row.artifactSha256 = document.artifactSha256 :=
    hcolumns.artifactSha256.trans (cString_sha256 hvalid.sha256)
  have hquery : query = ⟨document.channel, document.platform, document.arch⟩ := by
    refine name_injective hof ?_
    rw [LauncherReleaseRow.of, hcolumns.channel, hcolumns.platform, hcolumns.arch]
    simp [newRelease]
  rw [mapRelease, hquery, hversion, hsha, hcolumns.versionMajor, hcolumns.versionMinor,
    hcolumns.versionPatch, hcolumns.artifactSize, ← hvalid.schema]
  rfl

/-- **The columns agree with the document unless its second is 60.** -/
theorem columns_agree_iff (env : Env) (events : List Event) (row : LauncherReleaseRow)
    (hrow : row ∈ (run env events).shared.releases) (query : ReleaseQuery)
    (hof : row.of query = true) : Agrees env query row ↔
      ∃ document, Accepts env.jsoncpp row.document document ∧ ¬LeapSecond document := by
  obtain ⟨json, signature, artifact, document, hrecorded, -⟩ :=
    (records_run env events subset_rfl).shared.recorded row hrow
  have haccepts : Accepts env.jsoncpp row.document document := by
    rw [hrecorded.document]
    exact hrecorded.checked.accepts
  have hback : row.releasedAt.toChar = document.releasedAt ↔ ¬LeapSecond document :=
    Timestamptz.toChar_cast_iff hrecorded.releasedAt
  have hview := hrecorded.view hof
  constructor
  · rintro ⟨document', haccepts', heq⟩
    obtain rfl := accepts_unique haccepts haccepts'
    refine ⟨document, haccepts, hback.mp ?_⟩
    rw [hview] at heq
    have hinstant := congrArg ReleaseDocument.releasedAt heq
    exact hinstant
  · rintro ⟨document', haccepts', hsecond⟩
    obtain rfl := accepts_unique haccepts haccepts'
    refine ⟨document, haccepts, ?_⟩
    rw [hview, hback.mpr hsecond]

namespace Demo

def query : ReleaseQuery := ⟨.Stable, .Linux, .X64⟩

theorem start_lt : 0 < 60 := by decide

/-- The instant of `release`. -/
def releasedAt : Timestamptz :=
  ⟨2026, 4, 30, 12, 0, 0, by decide, by decide, by decide, by decide, by decide, start_lt,
    start_lt⟩

/-- The release again, a minute later by a clock with a leap second. -/
def leapRelease : ReleaseDocument := { release with releasedAt := ascii "2026-04-30T12:00:60Z" }

/-- The start of the next minute. -/
def leapInstant : Timestamptz :=
  ⟨2026, 4, 30, 12, 1, 0, by decide, by decide, by decide, by decide, by decide, by decide,
    start_lt⟩

theorem casts_releasedAt : isUtcTimestamp leapRelease.releasedAt = true ∧
    Timestamptz.cast release.releasedAt = some releasedAt ∧
    Timestamptz.cast leapRelease.releasedAt = some leapInstant := by
  refine ⟨?_, ?_, ?_⟩ <;> decide +kernel

theorem cast_release : Timestamptz.cast release.releasedAt = some releasedAt :=
  casts_releasedAt.2.1

theorem valid_documents : Utf8.valid (canonicalReleaseDocument release) = true ∧
    Utf8.valid (canonicalReleaseDocument leapRelease) = true := by
  constructor <;> decide +kernel

theorem publishable_leapRelease : Publishable leapRelease where
  valid :=
    have hvalid := validateReleaseDocument_ok.mp publishable_release.valid
    validateReleaseDocument_ok.mpr ⟨hvalid.schema, hvalid.version, hvalid.sha256, hvalid.size_pos,
      hvalid.size_le, casts_releasedAt.1, hvalid.notes⟩
  version := publishable_release.version

theorem mem_release (artifact : Bytes) : row release releasedAt ∈
    (run env (events release artifact)).shared.releases :=
  mem_row publishable_release rfl valid_documents.1 cast_release

theorem mem_leapRelease : row leapRelease leapInstant ∈
    (run env (events leapRelease (ascii "zip"))).shared.releases :=
  mem_row publishable_leapRelease rfl valid_documents.2 casts_releasedAt.2.2

theorem of_row (instant : Timestamptz) (document : ReleaseDocument)
    (h : (⟨document.channel, document.platform, document.arch⟩ : ReleaseQuery) = query) :
    (row document instant).of query = true := by
  rw [← h]
  simp [LauncherReleaseRow.of, row, NewRelease.row, newRelease]

end Demo

theorem columns_agree_release : Agrees Demo.env Demo.query (Demo.row Demo.release Demo.releasedAt) :=
  (columns_agree_iff Demo.env (Demo.events Demo.release (ascii "zip")) _ (Demo.mem_release _)
    Demo.query (Demo.of_row _ _ rfl)).mpr
      ⟨Demo.release, Demo.accepts_row Demo.publishable_release _, by decide +kernel⟩

/-- The view of a document with a second 60 names the next minute. -/
theorem columns_leap_second : ¬∀ (env : Env) (events : List Event),
    ∀ row ∈ (run env events).shared.releases, ∀ query : ReleaseQuery, row.of query = true →
      Agrees env query row := by
  intro h
  obtain ⟨document, haccepts, heq⟩ := h Demo.env (Demo.events Demo.leapRelease (ascii "zip")) _
    Demo.mem_leapRelease Demo.query (Demo.of_row _ _ rfl)
  obtain rfl := accepts_unique (Demo.accepts_row Demo.publishable_leapRelease _) haccepts
  have hinstant := congrArg ReleaseDocument.releasedAt heq
  have hother : Demo.leapInstant.toChar ≠ Demo.leapRelease.releasedAt := by decide +kernel
  exact hother hinstant

end Launcher.Releases
