import Launcher.Storefront.ArtworkKeys

set_option autoImplicit false

/-! # Pictures and videos

A body is sniffed for the kind it is posted as and announced as what the sniffer said. One
sniffer looks at the first bytes and the other at the fifth to twelfth, so a body may have the
first bytes of a JPEG file and the box type of an MP4 file behind them (`isPolyglot`):
`oneMedium_iff` proves that these are all the bodies that pass as a picture and as a video, and
`jpegFilm_announced_twice` is a run in which one is announced as both. -/

namespace Launcher.Storefront

open Launcher.Lib

/-! ## The two sniffers -/

/-- The first bytes of a JPEG file, and an MP4 brand where it belongs. -/
def isPolyglot (bytes : Bytes) : Bool :=
  startsWith bytes [0xff, 0xd8, 0xff] && startsWith (bytes.drop 4) (ascii "ftyp") &&
    MP4_BRANDS.contains ((bytes.drop 8).take 4)

section Sniff

variable {bytes lead : Bytes}

theorem getElem?_of_startsWith (h : startsWith bytes lead = true) {i : Nat} (hi : i < lead.length) :
    bytes[i]? = lead[i]? := by
  rw [startsWith, beq_iff_eq] at h
  rw [← h, List.getElem?_take_of_lt hi]

/-- Two signatures that differ in a byte. -/
theorem startsWith_disjoint {lead' : Bytes} {i : Nat} (h : startsWith bytes lead = true)
    (h' : startsWith bytes lead' = true) (hi : i < lead.length) (hi' : i < lead'.length) :
    lead[i]? = lead'[i]? := by
  rw [← getElem?_of_startsWith h hi, getElem?_of_startsWith h' hi']

/-- What a picture begins with. -/
theorem sniffImageFormat_cases {format : StoredFormat} (h : sniffImageFormat bytes = some format) :
    startsWith bytes [0x89, 0x50, 0x4e, 0x47, 0x0d, 0x0a, 0x1a, 0x0a] = true ∨
      (startsWith bytes [0xff, 0xd8, 0xff] = true ∧ format = JPEG) ∨
      (startsWith bytes (ascii "RIFF") = true ∧
        startsWith (bytes.drop 8) (ascii "WEBP") = true) := by
  unfold sniffImageFormat at h
  split_ifs at h with hpng hjpeg hwebp
  · exact Or.inl hpng
  · exact Or.inr (Or.inl ⟨hjpeg, (Option.some.inj h).symm⟩)
  · rw [Bool.and_eq_true] at hwebp
    exact Or.inr (Or.inr hwebp)

/-- What a video begins with. -/
theorem sniffVideoFormat_cases {format : StoredFormat} (h : sniffVideoFormat bytes = some format) :
    startsWith bytes [0x1a, 0x45, 0xdf, 0xa3] = true ∨
      (startsWith (bytes.drop 4) (ascii "ftyp") = true ∧
        MP4_BRANDS.contains ((bytes.drop 8).take 4) = true ∧ format = MP4) := by
  unfold sniffVideoFormat at h
  split_ifs at h with hebml hwindow hbox hbrand
  · exact Or.inl hebml
  · rw [Bool.or_eq_true, not_or, Bool.not_eq_true', Bool.not_eq_false] at hbox
    exact Or.inr ⟨hbox.2, hbrand, (Option.some.inj h).symm⟩

/-- **A body that passes both sniffers is a polyglot.** -/
theorem isPolyglot_of_sniffed {picture video : StoredFormat}
    (hpicture : sniffImageFormat bytes = some picture)
    (hvideo : sniffVideoFormat bytes = some video) : isPolyglot bytes = true := by
  rcases sniffVideoFormat_cases hvideo with hebml | ⟨hbox, hbrand, -⟩
  · -- no picture begins with the magic of EBML
    exfalso
    rcases sniffImageFormat_cases hpicture with hpng | ⟨hjpeg, -⟩ | ⟨hriff, -⟩
    · exact absurd (startsWith_disjoint (i := 0) hebml hpng (by decide) (by decide)) (by decide)
    · exact absurd (startsWith_disjoint (i := 0) hebml hjpeg (by decide) (by decide)) (by decide)
    · exact absurd (startsWith_disjoint (i := 0) hebml hriff (by decide) (by decide)) (by decide)
  · rcases sniffImageFormat_cases hpicture with hpng | ⟨hjpeg, -⟩ | ⟨-, hwebp⟩
    · -- the fifth byte of a PNG file
      exfalso
      have hfifth := getElem?_of_startsWith hpng (i := 4) (by decide)
      have hbox' := getElem?_of_startsWith hbox (i := 0) (by decide)
      rw [List.getElem?_drop, hfifth] at hbox'
      exact absurd hbox' (by decide)
    · rw [isPolyglot, hjpeg, hbox, hbrand]
      rfl
    · -- "WEBP" is no brand
      exfalso
      have hbytes : (bytes.drop 8).take 4 = ascii "WEBP" := by
        simpa [startsWith, show (ascii "WEBP").length = 4 from rfl] using hwebp
      rw [hbytes] at hbrand
      exact absurd hbrand (by decide)

/-- **A polyglot passes both.** -/
theorem sniffed_of_isPolyglot (h : isPolyglot bytes = true) :
    sniffImageFormat bytes = some JPEG ∧ sniffVideoFormat bytes = some MP4 := by
  rw [isPolyglot, Bool.and_eq_true, Bool.and_eq_true] at h
  obtain ⟨⟨hjpeg, hbox⟩, hbrand⟩ := h
  have hfirst := getElem?_of_startsWith hjpeg (i := 0) (by decide)
  constructor
  · have hpng : startsWith bytes [0x89, 0x50, 0x4e, 0x47, 0x0d, 0x0a, 0x1a, 0x0a] = false := by
      by_contra hpng
      have hother := getElem?_of_startsWith (Bool.not_eq_false _ |>.mp hpng) (i := 0) (by decide)
      rw [hfirst] at hother
      exact absurd hother (by decide)
    rw [sniffImageFormat, hpng, hjpeg]
    rfl
  · have hebml : startsWith bytes [0x1a, 0x45, 0xdf, 0xa3] = false := by
      by_contra hebml
      have hother := getElem?_of_startsWith (Bool.not_eq_false _ |>.mp hebml) (i := 0) (by decide)
      rw [hfirst] at hother
      exact absurd hother (by decide)
    -- a brand of four bytes ends at the twelfth
    have hlong : 12 ≤ bytes.length := by
      have hfour : ∀ brand ∈ MP4_BRANDS, brand.length = 4 := by decide
      have hlength := hfour _ (List.contains_iff_mem.mp hbrand)
      rw [List.length_take, List.length_drop] at hlength
      omega
    rw [sniffVideoFormat, hebml, hbox, hbrand, decide_eq_false (not_lt.mpr hlong)]
    rfl

end Sniff

/-! ## One content, one medium -/

/-- Among other coroutines, the upload may come to a row. -/
def Media.Accepts (env : Env) (command : Media.UploadMediaCommand) : Prop :=
  ∃ actor gameId s, ¬ (Media.upload env actor gameId command).Safe (exec env) (fun _ => True)
    (fun _ _ => True) (fun _ {_} _ => True) (fun outcome _ => ∀ row, outcome ≠ .ok row) s

/-- The rows whose files have this content are announced under one content type. -/
def AnnouncedOnce (bytes : Bytes) (s : State) : Prop :=
  ∀ row ∈ s.media, ∀ row' ∈ s.media, s.artwork row.storageKey = some bytes →
    s.artwork row'.storageKey = some bytes → row.contentType = row'.contentType

/-- No picture passes as a video. -/
structure OneMedium (bytes : Bytes) : Prop where
  sniffed : (sniffImageFormat bytes).isSome = true → sniffVideoFormat bytes = none
  accepted : ∀ env (video picture : Media.UploadMediaCommand), video.bytes = bytes →
    picture.bytes = bytes → isVideoKind video.kind = true → isVideoKind picture.kind = false →
      ¬ (Media.Accepts env video ∧ Media.Accepts env picture)
  announced : ∀ env w, Initial w → (∀ key, w.shared.artwork key = none) → ∀ ls,
    AnnouncedOnce bytes ((storefront env).run w ls).shared

/-- An upload that may be accepted has passed the sniffer for its kind. -/
theorem sniffed_of_accepts {env : Env} {command : Media.UploadMediaCommand}
    (h : Media.Accepts env command) : (sniffFor command.kind command.bytes).isSome = true := by
  obtain ⟨actor, gameId, s, hreached⟩ := h
  by_contra hnone
  have hrefused : Posts env command.bytes (fun outcome _ => ∀ row, outcome ≠ .ok row)
      (Media.upload env actor gameId command) s := by
    -- what the sniffer does not know is refused before anything is stored
    refine posts_bind (plain_editableGame actor gameId).quiet (fun e s row h => by cases h)
      (fun game s => ?_) s
    cases hcheck : Media.checkUpload env.media command with
    | error e => exact fun row h => by cases h
    | ok format =>
        rw [(Media.checkUpload_ok.mp hcheck).2.2.2] at hnone
        exact absurd rfl hnone
  exact hreached (hrefused.mono_calls (fun _ {_} _ _ => trivial))

section Formats

variable {bytes : Bytes} {kind kind' : MediaKind} {format format' : StoredFormat}

/-- A body that is no polyglot is in one format at most. -/
theorem sniffFor_unique (hpolyglot : isPolyglot bytes = false)
    (h : sniffFor kind bytes = some format) (h' : sniffFor kind' bytes = some format') :
    format = format' := by
  have hexcluded : ∀ {picture video : StoredFormat}, sniffImageFormat bytes = some picture →
      sniffVideoFormat bytes ≠ some video := by
    intro picture video hpicture hvideo
    rw [isPolyglot_of_sniffed hpicture hvideo] at hpolyglot
    cases hpolyglot
  unfold sniffFor at h h'
  split_ifs at h h' with hvideo hvideo'
  · exact Option.some.inj (h.symm.trans h')
  · exact absurd h (hexcluded h')
  · exact absurd h' (hexcluded h)
  · exact Option.some.inj (h.symm.trans h')

/-- A key gives its format away. -/
theorem mediaKeyFor_inj {sha256 sha256' : Bytes} (hsha : isSha256Hex sha256 = true)
    (hsha' : isSha256Hex sha256' = true) (hformat : format ∈ [PNG, JPEG, WEBP, MP4, WEBM])
    (hformat' : format' ∈ [PNG, JPEG, WEBP, MP4, WEBM])
    (h : State.mediaKeyFor sha256 format = State.mediaKeyFor sha256' format') :
    sha256 = sha256' ∧ format = format' := by
  have hone : sha256 = sha256' := by
    rw [← sha256_of_mediaKeyFor hsha format, h, sha256_of_mediaKeyFor hsha' format']
  refine ⟨hone, ?_⟩
  -- no two formats share an extension
  have hextensions : ∀ f ∈ [PNG, JPEG, WEBP, MP4, WEBM], ∀ f' ∈ [PNG, JPEG, WEBP, MP4, WEBM],
      f.extension = f'.extension → f = f' := by decide
  rw [mediaKeyFor_eq hsha, mediaKeyFor_eq hsha', ← hone] at h
  exact hextensions format hformat format' hformat' (List.append_cancel_left h)

/-- A row announces the format of what its file holds. -/
theorem announced_format {env : Env} {s : State} {row : GameMedia} (hrows : RowsDescribe env s)
    (hfiles : NamedByContent env s) (hrow : row ∈ s.media)
    (hfile : s.artwork row.storageKey = some bytes) :
    ∃ kind format, sniffFor kind bytes = some format ∧ row.contentType = format.contentType := by
  obtain ⟨body, format, hdescribes⟩ := hrows row hrow
  obtain ⟨kind, format', hsniffed, hashed, hkey⟩ := hfiles _ _ hfile
  have hname : State.mediaKeyFor (env.core.sha256Hex body) format =
      State.mediaKeyFor (env.core.sha256Hex bytes) format' := hdescribes.storageKey.symm.trans hkey
  -- the row and the file have one key, and the key has one format
  obtain ⟨-, rfl⟩ := mediaKeyFor_inj hdescribes.hashed hashed (sniffFor_mem hdescribes.sniffed)
    (sniffFor_mem hsniffed) hname
  exact ⟨kind, format, hsniffed, hdescribes.contentType⟩

end Formats

/-- **No picture passes as a video, polyglots apart.** -/
theorem oneMedium_iff (bytes : Bytes) : OneMedium bytes ↔ isPolyglot bytes = false := by
  constructor
  · intro h
    by_contra hpolyglot
    obtain ⟨hpicture, hvideo⟩ := sniffed_of_isPolyglot (Bool.not_eq_false _ |>.mp hpolyglot)
    have hnone := h.sniffed (by rw [hpicture]; rfl)
    rw [hvideo] at hnone
    cases hnone
  · intro hpolyglot
    have hexcluded : (sniffImageFormat bytes).isSome = true → sniffVideoFormat bytes = none := by
      intro hsome
      obtain ⟨picture, hpicture⟩ := Option.isSome_iff_exists.mp hsome
      by_contra hvideo
      obtain ⟨video, hvideo⟩ := Option.ne_none_iff_exists'.mp hvideo
      rw [isPolyglot_of_sniffed hpicture hvideo] at hpolyglot
      cases hpolyglot
    refine ⟨hexcluded, fun env video picture hvideo hpicture hkind hkind' => ?_,
      fun env w hw hempty ls row hrow row' hrow' hfile hfile' => ?_⟩
    · rintro ⟨haccepted, haccepted'⟩
      have hone := sniffed_of_accepts haccepted
      have hother := sniffed_of_accepts haccepted'
      rw [sniffFor, if_pos hkind, hvideo] at hone
      rw [sniffFor, hkind', hpicture] at hother
      rw [hexcluded hother] at hone
      cases hone
    · obtain ⟨hrows, hfiles⟩ := artwork_described env w hw ls
      obtain ⟨kind, format, hsniffed, htype⟩ :=
        announced_format hrows (hfiles hempty) hrow hfile
      obtain ⟨kind', format', hsniffed', htype'⟩ :=
        announced_format hrows (hfiles hempty) hrow' hfile'
      rw [htype, htype', sniffFor_unique hpolyglot hsniffed hsniffed']

namespace Demo

open Launcher.Demo (alice)

/-- The first bytes of a JPEG file in front of the box of an MP4 file. -/
def jpegFilm : Bytes := [0xff, 0xd8, 0xff, 0x00] ++ ascii "ftypisom"

def shaJpegFilm : Bytes :=
  ascii "0574ef7c12b5065a142085f8010ea685b481c579d4feb45682873730bd4cf105"

/-- The deployment with the hash of these bytes. -/
def jpegFilmEnv : Env := { env with core := { env.core with
  sha256Hex := fun content => if content = jpegFilm then shaJpegFilm else Launcher.Demo.shaEmpty } }

/-- Tasks 1 and 2: alice posts them as a cover and as a video. -/
def postedTwice : List Move :=
  published ++ .request (.uploadMedia alice (uuidText 4) ⟨.Cover, [], 0, jpegFilm⟩) ::
    drawing 21 1 4 ++ .request (.uploadMedia alice (uuidText 4) ⟨.Video, [], 0, jpegFilm⟩) ::
    drawing 22 2 4

/-- The content type and the file of each row. -/
def announced (s : State) : List (Bytes × Option Bytes) :=
  s.media.rows.map (fun row => (row.contentType, s.artwork row.storageKey))

end Demo

/-- Twelve bytes that pass as a picture and as a video, and are announced as both. -/
theorem jpegFilm_announced_twice :
    ¬ OneMedium Demo.jpegFilm ∧
    sniffImageFormat Demo.jpegFilm = some JPEG ∧ sniffVideoFormat Demo.jpegFilm = some MP4 ∧
    Initial Demo.opened ∧ (∀ key, Demo.opened.shared.artwork key = none) ∧
    Demo.announced
        ((storefront Demo.jpegFilmEnv).run Demo.opened Demo.postedTwice).shared =
      [(MP4.contentType, some Demo.jpegFilm), (JPEG.contentType, some Demo.jpegFilm)] := by
  refine ⟨fun h => ?_, by decide, by decide, Demo.initial_opened, fun key => rfl, by decide +kernel⟩
  have hnone := h.sniffed (by decide)
  exact absurd hnone (by decide)

end Launcher.Storefront
