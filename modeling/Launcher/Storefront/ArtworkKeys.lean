import Launcher.Lib.Paths
import Launcher.Lib.Patterns
import Launcher.Storefront.Artwork

set_option autoImplicit false

/-! # The keys of artwork

How a storage key is spelled is said in four places: `MediaStore::storageKeyFor` builds it, a
CHECK of migration 0008 admits it, the file server takes a path apart that ends in it and names
the file to send, and `PgGameRepository::remove` packs the keys of a game into one text that
`splitStorageKeys` unpacks. `artwork_rows_fit` proves that the four agree on every row an upload
inserts. -/

namespace Launcher.Storefront

open Launcher.Lib
open scoped Computability

/-! ## What is said of a key -/

/-- `[a-z0-9]`. -/
def isExtensionCharacter (c : UInt8) : Bool := (0x61 ≤ c && c ≤ 0x7a) || isDigit c

/-- `[0-9a-f]{n}`. -/
def hexDigits (n : Nat) : Language UInt8 := oneOf isLowercaseHexDigit ^ n

/-- `^[0-9a-f]{2}/[0-9a-f]{2}/[0-9a-f]{64}\.[a-z0-9]{3,4}$`. -/
def STORAGE_KEY_SHAPE : Language UInt8 :=
  hexDigits 2 * char slash * hexDigits 2 * char slash * hexDigits 64 * char dot *
    repeated 3 4 (oneOf isExtensionCharacter)

def CONTENT_TYPES : List Bytes :=
  [ascii "image/png", ascii "image/jpeg", ascii "image/webp", ascii "video/mp4",
    ascii "video/webm"]

/-- The CHECKs on `game_media` since migration 0008. -/
structure NewGameMedia.Checked (media : NewGameMedia) : Prop where
  sha256_lowercase_hex : media.sha256 ∈ hexDigits 64
  size_positive : 0 < media.sizeBytes
  storage_key_shape : media.storageKey ∈ STORAGE_KEY_SHAPE
  content_type_allowed : media.contentType ∈ CONTENT_TYPES
  kind_matches_content_type :
    [MediaKind.Cover, .Banner, .Logo, .Screenshot].contains media.kind =
      startsWith media.contentType (ascii "image/")

/-- The file server's `location ~ "^/media/…$"` with its `alias`: the path asked for, and the
file sent. A `$` also stands in front of a last newline. -/
inductive Sent : Bytes → Bytes → Prop
  | media {first second name tail : Bytes} (hfirst : first ∈ hexDigits 2)
      (hsecond : second ∈ hexDigits 2)
      (hname : name ∈ hexDigits 64 * char dot *
        anyOf [ascii "png", ascii "jpg", ascii "webp", ascii "mp4", ascii "webm"])
      (htail : tail = [] ∨ tail = [0x0a]) :
      Sent (ascii "/media/" ++ (first ++ [slash] ++ second ++ [slash] ++ name ++ tail))
        (ascii "/data/media/" ++ (first ++ [slash] ++ second ++ [slash] ++ name))

namespace MediaStore

/-- `MEDIA_ROOT` in docker-compose.yml. -/
def MEDIA_ROOT : Bytes := ascii "/data/media"

/-- The target of `MediaStore::store`. -/
def target (root sha256 : Bytes) (format : StoredFormat) : Bytes :=
  Paths.join slash root (State.mediaKeyFor sha256 format)

/-- `MediaStore::pathFor`; the file `MediaStore::remove` removes. -/
def pathFor (root storageKey : Bytes) : Bytes :=
  if storageKey.isEmpty || storageKey.tails.any (fun rest => startsWith rest [dot, dot]) ||
      storageKey.head? = some slash then []
  else Paths.join slash root storageKey

end MediaStore

/-- The `','` of `string_agg`. -/
def separator : UInt8 := 0x2c

/-- `COALESCE((SELECT string_agg(storage_key, ',') FROM doomed), '')`. -/
def packStorageKeys (keys : List Bytes) : Bytes := [separator].intercalate keys

/-- The pieces `std::getline` reads, less the empty ones. -/
def splitStorageKeys (packed : Bytes) : List Bytes :=
  (packed.splitOn separator).filter (fun key => !key.isEmpty)

/-! ## Formats -/

section Formats

variable {bytes : Bytes} {format : StoredFormat}

theorem sniffImageFormat_mem (h : sniffImageFormat bytes = some format) :
    format ∈ [PNG, JPEG, WEBP] := by
  unfold sniffImageFormat at h
  split_ifs at h <;> cases h <;> decide

theorem sniffVideoFormat_mem (h : sniffVideoFormat bytes = some format) :
    format ∈ [MP4, WEBM] := by
  unfold sniffVideoFormat at h
  split_ifs at h <;> cases h <;> decide

/-- What the service sniffs a body for. -/
def sniffFor (kind : MediaKind) (bytes : Bytes) : Option StoredFormat :=
  if isVideoKind kind then sniffVideoFormat bytes else sniffImageFormat bytes

theorem sniffFor_mem {kind : MediaKind} (h : sniffFor kind bytes = some format) :
    format ∈ [PNG, JPEG, WEBP, MP4, WEBM] := by
  unfold sniffFor at h
  split_ifs at h with hvideo
  · exact List.mem_append_right [PNG, JPEG, WEBP] (sniffVideoFormat_mem h)
  · exact List.mem_append_left [MP4, WEBM] (sniffImageFormat_mem h)

theorem contentType_mem (h : format ∈ [PNG, JPEG, WEBP, MP4, WEBM]) :
    format.contentType ∈ CONTENT_TYPES := by
  revert format
  decide

/-- The kinds that are no video are the four that the CHECK names. -/
theorem sniffFor_kind {kind : MediaKind} (h : sniffFor kind bytes = some format) :
    [MediaKind.Cover, .Banner, .Logo, .Screenshot].contains kind =
      startsWith format.contentType (ascii "image/") := by
  have hkind : [MediaKind.Cover, .Banner, .Logo, .Screenshot].contains kind =
      !isVideoKind kind := by
    cases kind <;> rfl
  rw [hkind]
  unfold sniffFor at h
  split_ifs at h with hvideo
  · have hno : ∀ f ∈ [MP4, WEBM], startsWith f.contentType (ascii "image/") = false := by decide
    rw [hvideo, hno format (sniffVideoFormat_mem h)]
    rfl
  · have hyes : ∀ f ∈ [PNG, JPEG, WEBP], startsWith f.contentType (ascii "image/") = true := by
      decide
    rw [hyes format (sniffImageFormat_mem h), Bool.not_eq_true _ |>.mp hvideo]
    rfl

end Formats

/-! ## Keys -/

theorem mem_hexDigits {n : Nat} {text : Bytes} : text ∈ hexDigits n ↔
    text.length = n ∧ ∀ c ∈ text, isLowercaseHexDigit c = true := mem_oneOf_pow

theorem isSha256Hex_iff {sha256 : Bytes} : isSha256Hex sha256 = true ↔ sha256 ∈ hexDigits 64 := by
  rw [mem_hexDigits, isSha256Hex, Bool.and_eq_true, beq_iff_eq, List.all_eq_true]
  exact Iff.rfl

/-- What the pieces of a key are made of. -/
theorem keyCharacter {c : UInt8}
    (h : isLowercaseHexDigit c = true ∨ isExtensionCharacter c = true) :
    c ≠ slash ∧ c ≠ dot ∧ c ≠ separator ∧ c ≠ 0x0a := by
  refine ⟨?_, ?_, ?_, ?_⟩ <;>
    · rintro rfl
      revert h
      decide

section Shape

variable {key : Bytes}

/-- A key is two levels of directories, a name and an extension. -/
theorem mem_storageKeyShape : key ∈ STORAGE_KEY_SHAPE ↔ ∃ first second name extension : Bytes,
    first ∈ hexDigits 2 ∧ second ∈ hexDigits 2 ∧ name ∈ hexDigits 64 ∧
      extension ∈ repeated 3 4 (oneOf isExtensionCharacter) ∧
      key = first ++ [slash] ++ second ++ [slash] ++ name ++ [dot] ++ extension := by
  simp only [STORAGE_KEY_SHAPE, Language.mem_mul, mem_char]
  constructor
  · rintro ⟨_, ⟨_, ⟨_, ⟨_, ⟨_, ⟨first, hfirst, _, rfl, rfl⟩, second, hsecond, rfl⟩, _, rfl, rfl⟩,
      name, hname, rfl⟩, _, rfl, rfl⟩, extension, hextension, rfl⟩
    exact ⟨first, second, name, extension, hfirst, hsecond, hname, hextension, rfl⟩
  · rintro ⟨first, second, name, extension, hfirst, hsecond, hname, hextension, rfl⟩
    exact ⟨_, ⟨_, ⟨_, ⟨_, ⟨_, ⟨first, hfirst, _, rfl, rfl⟩, second, hsecond, rfl⟩, _, rfl, rfl⟩,
      name, hname, rfl⟩, _, rfl, rfl⟩, extension, hextension, rfl⟩

theorem separator_notMem (h : key ∈ STORAGE_KEY_SHAPE) : separator ∉ key := by
  obtain ⟨first, second, name, extension, hfirst, hsecond, hname, ⟨k, _, _, hextension⟩, rfl⟩ :=
    mem_storageKeyShape.mp h
  have hhex : ∀ {n : Nat} {text : Bytes}, text ∈ hexDigits n → separator ∉ text := fun ht hc =>
    (keyCharacter (Or.inl ((mem_hexDigits.mp ht).2 _ hc))).2.2.1 rfl
  have hext : separator ∉ extension := fun hc =>
    (keyCharacter (Or.inr ((mem_oneOf_pow.mp hextension).2 _ hc))).2.2.1 rfl
  simp only [List.mem_append, List.mem_singleton, not_or]
  exact ⟨⟨⟨⟨⟨⟨hhex hfirst, by decide⟩, hhex hsecond⟩, by decide⟩, hhex hname⟩, by decide⟩, hext⟩

theorem storageKey_ne_nil (h : key ∈ STORAGE_KEY_SHAPE) : key ≠ [] := by
  obtain ⟨first, second, name, extension, _, _, _, _, rfl⟩ := mem_storageKeyShape.mp h
  simp

/-- **Packing and unpacking keys.** -/
theorem splitStorageKeys_packStorageKeys {keys : List Bytes}
    (h : ∀ key ∈ keys, key ∈ STORAGE_KEY_SHAPE) :
    splitStorageKeys (packStorageKeys keys) = keys := by
  by_cases hnil : keys = []
  · subst hnil
    rfl
  · rw [splitStorageKeys, packStorageKeys,
      List.splitOn_intercalate separator (fun key hkey => separator_notMem (h key hkey)) hnil,
      List.filter_eq_self]
    intro key hkey
    rw [Bool.not_eq_true', List.isEmpty_eq_false_iff]
    exact storageKey_ne_nil (h key hkey)

end Shape

section MediaKey

variable {sha256 : Bytes} {format : StoredFormat}

theorem mediaKeyFor_eq (h : isSha256Hex sha256 = true) (format : StoredFormat) :
    State.mediaKeyFor sha256 format = sha256.take 2 ++ [slash] ++ (sha256.drop 2).take 2 ++
      [slash] ++ sha256 ++ [dot] ++ format.extension := by
  rw [State.mediaKeyFor, if_pos h, storageKeyFor, if_pos h]

/-- The two directories are named after the hash. -/
theorem hexDigits_directories (h : isSha256Hex sha256 = true) :
    sha256.take 2 ∈ hexDigits 2 ∧ (sha256.drop 2).take 2 ∈ hexDigits 2 := by
  obtain ⟨hlength, hall⟩ := mem_hexDigits.mp (isSha256Hex_iff.mp h)
  refine ⟨mem_hexDigits.mpr ⟨by rw [List.length_take]; omega, fun c hc =>
    hall c (List.mem_of_mem_take hc)⟩, mem_hexDigits.mpr ⟨?_, fun c hc =>
    hall c (List.mem_of_mem_drop (List.mem_of_mem_take hc))⟩⟩
  rw [List.length_take, List.length_drop]
  omega

/-- The hash is read off a key at a fixed offset. -/
theorem sha256_of_mediaKeyFor (h : isSha256Hex sha256 = true) (format : StoredFormat) :
    ((State.mediaKeyFor sha256 format).drop 6).take 64 = sha256 := by
  have hlength : sha256.length = 64 := (mem_hexDigits.mp (isSha256Hex_iff.mp h)).1
  have hlong : 6 ≤ (storageKeyFor sha256).length := by
    have hdrop := congrArg List.length (drop_storageKeyFor h)
    rw [List.length_drop] at hdrop
    omega
  rw [State.mediaKeyFor, if_pos h, List.append_assoc, List.drop_append_of_le_length hlong,
    drop_storageKeyFor h, List.take_left' hlength]

theorem extension_mem (h : format ∈ [PNG, JPEG, WEBP, MP4, WEBM]) :
    format.extension ∈ repeated 3 4 (oneOf isExtensionCharacter) ∧ format.extension ∈
      anyOf [ascii "png", ascii "jpg", ascii "webp", ascii "mp4", ascii "webm"] := by
  have hall : ∀ format ∈ [PNG, JPEG, WEBP, MP4, WEBM], 3 ≤ format.extension.length ∧
      format.extension.length ≤ 4 ∧ (∀ c ∈ format.extension, isExtensionCharacter c = true) ∧
      format.extension ∈ [ascii "png", ascii "jpg", ascii "webp", ascii "mp4", ascii "webm"] := by
    decide +kernel
  obtain ⟨hlow, hhigh, hchars, hmem⟩ := hall format h
  exact ⟨⟨_, hlow, hhigh, mem_oneOf_pow.mpr ⟨rfl, hchars⟩⟩, hmem⟩

theorem mediaKeyFor_mem_shape (h : isSha256Hex sha256 = true)
    (hformat : format ∈ [PNG, JPEG, WEBP, MP4, WEBM]) :
    State.mediaKeyFor sha256 format ∈ STORAGE_KEY_SHAPE :=
  mem_storageKeyShape.mpr ⟨_, _, _, _, (hexDigits_directories h).1, (hexDigits_directories h).2,
    isSha256Hex_iff.mp h, (extension_mem hformat).1, mediaKeyFor_eq h format⟩

end MediaKey

/-! ## Files -/

/-- The captures of a path that has the shape are its pieces. -/
theorem sent_iff {path file : Bytes} : Sent (ascii "/media/" ++ path) file ↔
    ∃ first second name tail : Bytes, first ∈ hexDigits 2 ∧ second ∈ hexDigits 2 ∧
      name ∈ hexDigits 64 * char dot *
        anyOf [ascii "png", ascii "jpg", ascii "webp", ascii "mp4", ascii "webm"] ∧
      (tail = [] ∨ tail = [0x0a]) ∧
      path = first ++ [slash] ++ second ++ [slash] ++ name ++ tail ∧
      file = ascii "/data/media/" ++ (first ++ [slash] ++ second ++ [slash] ++ name) := by
  constructor
  · generalize hwhole : ascii "/media/" ++ path = whole
    rintro ⟨hfirst, hsecond, hname, htail⟩
    exact ⟨_, _, _, _, hfirst, hsecond, hname, htail, List.append_cancel_left hwhole, rfl⟩
  · rintro ⟨first, second, name, tail, hfirst, hsecond, hname, htail, rfl, rfl⟩
    exact .media hfirst hsecond hname htail

/-- Pieces of the same lengths, with slashes between them. -/
theorem pieces_inj {first first' second second' rest rest' : Bytes}
    (hfirst : first.length = first'.length) (hsecond : second.length = second'.length)
    (h : first ++ [slash] ++ second ++ [slash] ++ rest =
      first' ++ [slash] ++ second' ++ [slash] ++ rest') :
    first = first' ∧ second = second' ∧ rest = rest' := by
  simp only [List.append_assoc] at h
  obtain ⟨hone, htail⟩ := List.append_inj h hfirst
  obtain ⟨htwo, hlast⟩ := List.append_inj (List.append_cancel_left htail) hsecond
  exact ⟨hone, htwo, List.append_cancel_left hlast⟩

section MediaFile

variable {sha256 : Bytes} {format : StoredFormat}

/-- What does not occur in the name of a file. -/
theorem fileName_notMem (h : isSha256Hex sha256 = true)
    (hformat : format ∈ [PNG, JPEG, WEBP, MP4, WEBM]) :
    (∀ c ∈ sha256, c ≠ slash ∧ c ≠ dot ∧ c ≠ separator ∧ c ≠ 0x0a) ∧
      ∀ c ∈ format.extension, c ≠ slash ∧ c ≠ dot ∧ c ≠ separator ∧ c ≠ 0x0a := by
  obtain ⟨⟨k, _, _, hextension⟩, -⟩ := extension_mem hformat
  exact ⟨fun c hc => keyCharacter (Or.inl ((mem_hexDigits.mp (isSha256Hex_iff.mp h)).2 c hc)),
    fun c hc => keyCharacter (Or.inr ((mem_oneOf_pow.mp hextension).2 c hc))⟩

theorem head_mediaKeyFor (h : isSha256Hex sha256 = true) (format : StoredFormat) :
    (State.mediaKeyFor sha256 format).head? ≠ some slash := by
  obtain ⟨hlength, hall⟩ := mem_hexDigits.mp (hexDigits_directories h).1
  rw [mediaKeyFor_eq h]
  cases hfirst : sha256.take 2 with
  | nil => rw [hfirst] at hlength; cases hlength
  | cons c rest =>
      intro hc
      rw [hfirst] at hall
      exact (keyCharacter (Or.inl (hall c List.mem_cons_self))).1 (Option.some.inj hc)

theorem MediaStore.target_eq (h : isSha256Hex sha256 = true) (format : StoredFormat) :
    MediaStore.target MediaStore.MEDIA_ROOT sha256 format =
      ascii "/data/media/" ++ State.mediaKeyFor sha256 format := by
  have hrelative : Paths.isAbsolute slash (State.mediaKeyFor sha256 format) = false := by
    rw [Paths.isAbsolute, beq_eq_false_iff_ne]
    exact head_mediaKeyFor h format
  rw [MediaStore.target, Paths.join, hrelative, if_neg (by decide), if_neg (by decide)]
  rfl

/-- **The file server sends the file that `store` writes**, and no other. -/
theorem sent_mediaKeyFor (h : isSha256Hex sha256 = true)
    (hformat : format ∈ [PNG, JPEG, WEBP, MP4, WEBM]) (file : Bytes) :
    Sent (ascii "/media/" ++ State.mediaKeyFor sha256 format) file ↔
      file = MediaStore.target MediaStore.MEDIA_ROOT sha256 format := by
  obtain ⟨hfirst, hsecond⟩ := hexDigits_directories h
  rw [sent_iff, MediaStore.target_eq h, mediaKeyFor_eq h]
  constructor
  · rintro ⟨first, second, name, tail, hfirst', hsecond', -, htail, hpath, rfl⟩
    rw [List.append_assoc _ sha256, List.append_assoc _ (sha256 ++ [dot]),
      List.append_assoc _ name] at hpath
    obtain ⟨hone, htwo, hname⟩ := pieces_inj
      ((mem_hexDigits.mp hfirst).1.trans (mem_hexDigits.mp hfirst').1.symm)
      ((mem_hexDigits.mp hsecond).1.trans (mem_hexDigits.mp hsecond').1.symm) hpath
    rw [← hone, ← htwo]
    rcases htail with rfl | rfl
    · rw [List.append_nil] at hname
      rw [← hname]
      simp only [List.append_assoc]
    · -- no key ends in a newline
      exfalso
      have hmem : (0x0a : UInt8) ∈ sha256 ++ [dot] ++ format.extension := by
        rw [hname]
        exact List.mem_append_right name List.mem_cons_self
      obtain ⟨hsha, hextension⟩ := fileName_notMem h hformat
      rcases List.mem_append.mp hmem with hmem | hmem
      · rcases List.mem_append.mp hmem with hmem | hmem
        · exact (hsha _ hmem).2.2.2 rfl
        · exact absurd hmem (by decide)
      · exact (hextension _ hmem).2.2.2 rfl
  · rintro rfl
    refine ⟨sha256.take 2, (sha256.drop 2).take 2, sha256 ++ [dot] ++ format.extension, [], hfirst,
      hsecond, Language.append_mem_mul (Language.append_mem_mul (isSha256Hex_iff.mp h) rfl)
        (extension_mem hformat).2, Or.inl rfl, ?_, ?_⟩
    · simp only [List.append_assoc, List.append_nil]
    · simp only [List.append_assoc]

/-- The only dot of a key is the one in front of its extension. -/
theorem count_dot_mediaKeyFor (h : isSha256Hex sha256 = true)
    (hformat : format ∈ [PNG, JPEG, WEBP, MP4, WEBM]) :
    (State.mediaKeyFor sha256 format).count dot = 1 := by
  obtain ⟨hsha, hextension⟩ := fileName_notMem h hformat
  have hnone : ∀ text : Bytes, (∀ c ∈ text, c ≠ dot) → text.count dot = 0 := fun text ht =>
    List.count_eq_zero_of_not_mem (fun hc => ht dot hc rfl)
  have hslash : [slash].count dot = 0 := by decide
  have hdot : [dot].count dot = 1 := by decide
  rw [mediaKeyFor_eq h]
  simp only [List.count_append, hslash, hdot, hnone _ (fun c hc => (hextension c hc).2.1),
    hnone _ (fun c hc => (hsha c hc).2.1),
    hnone _ (fun c hc => (hsha c (List.mem_of_mem_take hc)).2.1),
    hnone _ (fun c hc => (hsha c (List.mem_of_mem_drop (List.mem_of_mem_take hc))).2.1)]

/-- **A file is removed under the path it was written to.** -/
theorem MediaStore.pathFor_mediaKeyFor (h : isSha256Hex sha256 = true)
    (hformat : format ∈ [PNG, JPEG, WEBP, MP4, WEBM]) (root : Bytes) :
    MediaStore.pathFor root (State.mediaKeyFor sha256 format) =
      MediaStore.target root sha256 format := by
  have hempty : (State.mediaKeyFor sha256 format).isEmpty = false :=
    List.isEmpty_eq_false_iff.mpr (storageKey_ne_nil (mediaKeyFor_mem_shape h hformat))
  have hdots : (State.mediaKeyFor sha256 format).tails.any
      (fun rest => startsWith rest [dot, dot]) = false := by
    rw [List.any_eq_false]
    intro rest hrest hstarts
    have htwo : rest.take 2 = [dot, dot] := by simpa [startsWith] using hstarts
    -- a key has one dot, so no two of them follow each other
    have hcount : ([dot, dot] : Bytes).count dot ≤ rest.count dot :=
      htwo ▸ (List.take_sublist 2 rest).count_le dot
    have hle := ((List.mem_tails rest _).mp hrest).sublist.count_le dot
    rw [count_dot_mediaKeyFor h hformat] at hle
    exact absurd (hcount.trans hle) (by decide)
  rw [MediaStore.pathFor, hempty, hdots, if_neg (by simpa using head_mediaKeyFor h format)]
  rfl

end MediaFile

/-! ## Uploads -/

/-- The row of an upload of `body`, which is in the format. -/
structure NewGameMedia.Describes (env : Env) (body : Bytes) (format : StoredFormat)
    (media : NewGameMedia) : Prop where
  sniffed : sniffFor media.kind body = some format
  nonempty : body ≠ []
  hashed : isSha256Hex (env.core.sha256Hex body) = true
  storageKey : media.storageKey = State.mediaKeyFor (env.core.sha256Hex body) format
  sha256 : media.sha256 = (media.storageKey.drop 6).take 64
  contentType : media.contentType = format.contentType
  sizeBytes : media.sizeBytes = body.length

theorem Media.checkUpload_ok {limits : MediaLimits} {command : Media.UploadMediaCommand}
    {format : StoredFormat} : Media.checkUpload limits command = .ok format ↔
    command.bytes ≠ [] ∧
    command.bytes.length ≤
      (if isVideoKind command.kind then limits.maxVideoBytes else limits.maxBytes) ∧
    validateAltText command.altText = .ok () ∧
    sniffFor command.kind command.bytes = some format := by
  have hsniff : (if isVideoKind command.kind then sniffVideoFormat command.bytes
      else sniffImageFormat command.bytes) = sniffFor command.kind command.bytes := rfl
  unfold Media.checkUpload
  dsimp only
  rw [hsniff]
  constructor
  · intro h
    by_cases hempty : command.bytes.isEmpty = true
    · rw [if_pos hempty] at h
      cases h
    · rw [if_neg hempty] at h
      by_cases hlimit : (if isVideoKind command.kind then limits.maxVideoBytes
          else limits.maxBytes) < command.bytes.length
      · rw [if_pos hlimit] at h
        cases h
      · rw [if_neg hlimit] at h
        obtain ⟨⟨⟩, halt, h⟩ := bind_ok h
        cases hfound : sniffFor command.kind command.bytes with
        | none => rw [hfound] at h; cases h
        | some format' =>
            rw [hfound] at h
            cases h
            exact ⟨fun hnil => hempty (by rw [hnil]; rfl), not_lt.mp hlimit, halt, rfl⟩
  · rintro ⟨hne, hlimit, halt, hfound⟩
    rw [if_neg (by simpa using hne), if_neg (not_lt.mpr hlimit), halt, hfound]
    rfl

/-- The file a call stores. -/
def Call.stores {α : Type} : Call α → Option (Bytes × StoredFormat)
  | .storeMedia bytes format => some (bytes, format)
  | _ => none

/-- The call stores `body` under its format, or inserts its row, or does neither with any. -/
structure Call.Posts (env : Env) (body : Bytes) {α : Type} (c : Call α) : Prop where
  row : ∀ media, c.uploads = some media → ∃ format, media.Describes env body format
  file : ∀ bytes format, c.stores = some (bytes, format) →
    bytes = body ∧ ∃ kind, sniffFor kind body = some format

/-- Among other coroutines, the program stores and inserts nothing but `body`. -/
abbrev Posts (env : Env) (body : Bytes) {α : Type} (Q : Except Failure α → State → Prop)
    (p : Coroutine α) (s : State) : Prop :=
  p.Safe (exec env) (fun _ => True) (fun _ _ => True) (fun _ {_} c => c.Posts env body) Q s

section Posts

variable {env : Env} {body : Bytes} {α : Type}

theorem Call.posts_of_none {c : Call α} (huploads : c.uploads = none) (hstores : c.stores = none) :
    c.Posts env body :=
  ⟨fun media hc => absurd (huploads.symm.trans hc) (by simp),
    fun bytes format hc => absurd (hstores.symm.trans hc) (by simp)⟩

theorem stores_of_quiet {c : Call α} (h : c.quiet = true) : c.stores = none := by
  cases c with
  | storeMedia bytes format => cases h
  | _ => rfl

theorem posts_of_quiet {p : Coroutine α} (h : Quiet p) (s : State) :
    Posts env body (fun _ _ => True) p s := by
  refine Program.Only.safe (fun s {γ} c hc => ?_) h
  exact Call.posts_of_none (uploads_of_quiet hc) (stores_of_quiet hc)

/-- The store replies the key of what it has been given. -/
theorem storeMedia_ok {s : State} {fault : IoFault} {bytes key : Bytes} {format : StoredFormat}
    (h : (s.storeMedia env fault bytes format).1 = .ok key) :
    isSha256Hex (env.core.sha256Hex bytes) = true ∧
      key = State.mediaKeyFor (env.core.sha256Hex bytes) format := by
  unfold State.storeMedia at h
  dsimp only at h
  have hkey : (State.mediaKeyFor (env.core.sha256Hex bytes) format).isEmpty = false →
      isSha256Hex (env.core.sha256Hex bytes) = true := by
    intro hne
    by_contra hno
    rw [State.mediaKeyFor, if_neg hno] at hne
    cases hne
  split_ifs at h with hempty hthere
  · cases h
  · cases h
    exact ⟨hkey (by simpa using hempty), rfl⟩
  · cases fault <;> cases h
    all_goals exact ⟨hkey (by simpa using hempty), rfl⟩

/-- A file is only written under the key of a hash. -/
theorem storeMedia_written (env : Env) (s : State) (fault : IoFault) (bytes : Bytes)
    (format : StoredFormat) :
    (s.storeMedia env fault bytes format).2 = s ∨
      isSha256Hex (env.core.sha256Hex bytes) = true ∧
      (s.storeMedia env fault bytes format).2 = { s with
        artwork := Function.update s.artwork
          (State.mediaKeyFor (env.core.sha256Hex bytes) format) (some bytes) } := by
  by_cases hashed : isSha256Hex (env.core.sha256Hex bytes) = true
  · exact (s.storeMedia_cases env fault bytes format).imp_right (fun e => ⟨hashed, e⟩)
  · left
    unfold State.storeMedia State.mediaKeyFor
    rw [if_neg hashed]
    rfl

/-- The row an insert replies is the one it was given. -/
theorem createMedia_ok {s : State} {choice : Choice} {media : NewGameMedia} {stored : StoredMedia}
    (h : (s.createMedia env choice media).1 = .ok stored) :
    ∃ id createdAt, stored.media = media.row id createdAt := by
  unfold State.createMedia at h
  split at h
  · cases h
  · split at h
    · cases h
      exact ⟨_, _, rfl⟩
    · split_ifs at h
      · cases h
        exact ⟨_, _, rfl⟩

/-- The columns of a row that an upload has set. -/
def GameMedia.inserted (row : GameMedia) : NewGameMedia :=
  { gameId := row.gameId, kind := row.kind, storageKey := row.storageKey, sha256 := row.sha256,
    contentType := row.contentType, sizeBytes := row.sizeBytes, altText := row.altText,
    sortOrder := row.sortOrder }

/-- A program that ends with a row ends with one that describes `body`. -/
def EndsDescribed (env : Env) (body : Bytes) (outcome : Except Failure GameMedia) (_ : State) :
    Prop :=
  ∀ row, outcome = .ok row → ∃ format, row.inserted.Describes env body format

theorem endsDescribed_error (e : Failure) (s : State) : EndsDescribed env body (.error e) s :=
  fun _ h => by cases h

/-- A quiet part in front. -/
theorem posts_bind {β : Type} {Q : Except Failure β → State → Prop} {p : Coroutine α}
    {f : α → Coroutine β} (hp : Quiet p) (herror : ∀ e s, Q (.error e) s)
    (hf : ∀ a s, Posts env body Q (f a) s) (s : State) : Posts env body Q (p >>= f) s := by
  refine Program.safe_bind ((posts_of_quiet hp s).mono (fun outcome s' _ => ?_))
  cases outcome with
  | error e => exact herror e s'
  | ok a => exact hf a s'

/-- **An upload stores its body and inserts the row that describes it.** -/
theorem posts_upload (env : Env) (actor : Actor) (gameId : Bytes)
    (command : Media.UploadMediaCommand) (s : State) :
    Posts env command.bytes (EndsDescribed env command.bytes)
      (Media.upload env actor gameId command) s := by
  refine posts_bind (plain_editableGame actor gameId).quiet endsDescribed_error
    (fun game s => ?_) s
  cases hcheck : Media.checkUpload env.media command with
  | error e => exact endsDescribed_error _ s
  | ok format =>
      obtain ⟨hne, -, -, hsniffed⟩ := Media.checkUpload_ok.mp hcheck
      refine posts_bind (plain_checkGallery game.id command.kind).quiet endsDescribed_error
        (fun _ s => ?_) s
      -- the file is stored first; others may run before the row is inserted
      intro s₁ _ _
      refine ⟨⟨fun media hc => (by cases hc), fun bytes format' hc => ?_⟩, fun choice => ?_⟩
      · cases hc
        exact ⟨rfl, command.kind, hsniffed⟩
      cases hstored : (exec env choice (.storeMedia command.bytes format) s₁).1 with
      | error e => exact endsDescribed_error _ _
      | ok key =>
          obtain ⟨hashed, hkey⟩ := storeMedia_ok hstored
          have hdescribes : (Media.mediaRow game.id command format key).Describes env command.bytes
              format := ⟨hsniffed, hne, hashed, hkey, rfl, rfl, rfl⟩
          intro s₂ _ _
          refine ⟨⟨fun media hc => ?_, fun bytes format' hc => (by cases hc)⟩, fun choice => ?_⟩
          · cases hc
            exact ⟨format, hdescribes⟩
          cases hcreated : (exec env choice
              (.createMedia (Media.mediaRow game.id command format key)) s₂).1 with
          | error e => exact endsDescribed_error _ _
          | ok created =>
              -- what is left removes the file of a picture that was replaced
              refine posts_bind (plain_reclaim created.replacedStorageKey).quiet endsDescribed_error
                (fun _ s => ?_) _
              obtain ⟨id, createdAt, hrow⟩ := createMedia_ok hcreated
              intro row hend
              cases hend
              rw [hrow]
              exact ⟨format, hdescribes⟩

end Posts

/-! ## Every row -/

/-- The row can be stored; its file is sent for its URL, and can be removed by its key. -/
structure NewGameMedia.Serviceable (env : Env) (body : Bytes) (format : StoredFormat)
    (media : NewGameMedia) : Prop where
  checked : media.Checked
  sha256 : media.sha256 = env.core.sha256Hex body
  storageKey : media.storageKey = State.mediaKeyFor (env.core.sha256Hex body) format
  served : ∀ file, Sent (ascii "/media/" ++ media.storageKey) file ↔
    file = MediaStore.target MediaStore.MEDIA_ROOT (env.core.sha256Hex body) format
  reclaimed : MediaStore.pathFor MediaStore.MEDIA_ROOT media.storageKey =
    MediaStore.target MediaStore.MEDIA_ROOT (env.core.sha256Hex body) format

theorem NewGameMedia.Describes.serviceable {env : Env} {body : Bytes} {format : StoredFormat}
    {media : NewGameMedia} (h : media.Describes env body format) :
    media.Serviceable env body format := by
  have hformat := sniffFor_mem h.sniffed
  have hsha : media.sha256 = env.core.sha256Hex body := by
    rw [h.sha256, h.storageKey, sha256_of_mediaKeyFor h.hashed]
  refine ⟨⟨?_, ?_, ?_, ?_, ?_⟩, hsha, h.storageKey, fun file => ?_, ?_⟩
  · rw [hsha]
    exact isSha256Hex_iff.mp h.hashed
  · rw [h.sizeBytes]
    exact List.length_pos_iff.mpr h.nonempty
  · rw [h.storageKey]
    exact mediaKeyFor_mem_shape h.hashed hformat
  · rw [h.contentType]
    exact contentType_mem hformat
  · rw [h.contentType]
    exact sniffFor_kind h.sniffed
  · rw [h.storageKey]
    exact sent_mediaKeyFor h.hashed hformat file
  · rw [h.storageKey]
    exact MediaStore.pathFor_mediaKeyFor h.hashed hformat MediaStore.MEDIA_ROOT

/-- **Every artwork row is storable, servable and reclaimable**: the rows that uploads insert
and return, whatever else happens in between, the files that `store` has answered for, and the
keys of a game, packed into one text. -/
theorem artwork_rows_fit (env : Env) :
    (∀ actor gameId command s, (Media.upload env actor gameId command).Safe (exec env)
      (fun _ => True) (fun _ _ => True)
      (fun _ {_} c => ∀ media, c.uploads = some media →
        ∃ format, media.Serviceable env command.bytes format)
      (fun outcome _ => ∀ row, outcome = .ok row →
        ∃ format, row.inserted.Serviceable env command.bytes format) s) ∧
    (∀ s fault body format key, (State.storeMedia env s fault body format).1 = .ok key →
      key = State.mediaKeyFor (env.core.sha256Hex body) format ∧
        ((State.storeMedia env s fault body format).2.artwork key).isSome = true) ∧
    ∀ keys, (∀ key ∈ keys, key ∈ STORAGE_KEY_SHAPE) →
      splitStorageKeys (packStorageKeys keys) = keys := by
  refine ⟨fun actor gameId command s => ?_, fun s fault body format key h => ?_, fun keys h => ?_⟩
  · have hposts := posts_upload env actor gameId command s
    refine (hposts.mono (fun outcome _ hend row hrow => ?_)).mono_calls
      (fun _ {_} c hc media hm => ?_)
    · obtain ⟨format, hdescribes⟩ := hend row hrow
      exact ⟨format, hdescribes.serviceable⟩
    · obtain ⟨format, hdescribes⟩ := hc.row media hm
      exact ⟨format, hdescribes.serviceable⟩
  · refine ⟨(storeMedia_ok h).2, ?_⟩
    exact artwork_stored env ⟨0, fault⟩ s (c := .storeMedia body format) (congrArg _ h)
  · exact splitStorageKeys_packStorageKeys h

/-! ## Every run -/

/-- Every row is that of an upload. -/
def RowsDescribe (env : Env) (s : State) : Prop :=
  ∀ row ∈ s.media, ∃ body format, row.inserted.Describes env body format

/-- Every file is named after what it holds. -/
def NamedByContent (env : Env) (s : State) : Prop :=
  ∀ key body, s.artwork key = some body → ∃ kind format, sniffFor kind body = some format ∧
    isSha256Hex (env.core.sha256Hex body) = true ∧
    key = State.mediaKeyFor (env.core.sha256Hex body) format

section Step

variable {env : Env} {choice : Choice} {s : State} {α : Type} {c : Call α} {body : Bytes}

theorem RowsDescribe.exec (h : RowsDescribe env s) (hc : c.Posts env body) :
    RowsDescribe env (exec env choice c s).2 := by
  intro row hrow
  have hafter := exec_media env choice s c
  generalize (Storefront.exec env choice c s).2.media = t at hafter hrow
  cases hafter with
  | kept => exact h row hrow
  | deleted p hd => exact h row (Table.mem_delete.mp hrow).1
  | described id changes =>
      rcases Table.mem_modify.mp hrow with ⟨old, hmem, _, rfl⟩ | ⟨hmem, _⟩
      · obtain ⟨body', format, hold⟩ := h old hmem
        exact ⟨body', format, hold.sniffed, hold.nonempty, hold.hashed, hold.storageKey,
          hold.sha256, hold.contentType, hold.sizeBytes⟩
      · exact h row hmem
  -- a cover, banner or logo passes its row on to the next one
  | replaced media old hm =>
      rcases Table.mem_modify.mp hrow with ⟨old', _, _, rfl⟩ | ⟨hmem, _⟩
      · exact ⟨body, hc.row media hm⟩
      · exact h row hmem
  | inserted media id hm =>
      rcases Table.eq_or_mem_of_mem_insert hrow with rfl | hmem
      · exact ⟨body, hc.row media hm⟩
      · exact h row hmem

theorem NamedByContent.exec (h : NamedByContent env s) (hc : c.Posts env body) :
    NamedByContent env (exec env choice c s).2 := by
  cases c with
  | storeMedia bytes format =>
      obtain ⟨rfl, kind, hsniffed⟩ := hc.file bytes format rfl
      obtain e | ⟨hashed, e⟩ := storeMedia_written env s choice.fault bytes format
      · rw [Storefront.exec, e]
        exact h
      · rw [Storefront.exec, e]
        intro key body' hfile
        -- only the file under the hash of `bytes` is another one
        by_cases hkey : key = State.mediaKeyFor (env.core.sha256Hex bytes) format
        · have hsome : Function.update s.artwork _ (some bytes) key = some body' := hfile
          rw [hkey, Function.update_self] at hsome
          cases hsome
          exact ⟨kind, format, hsniffed, hashed, hkey⟩
        · have hsome : Function.update s.artwork _ (some bytes) key = some body' := hfile
          rw [Function.update_of_ne hkey] at hsome
          exact h key body' hsome
  | removeArtwork key' =>
      intro key body' hfile
      by_cases hkey : key = key'
      · rw [hkey] at hfile
        have hnone : (Function.update s.artwork key' none) key' = some body' := hfile
        rw [Function.update_self] at hnone
        cases hnone
      · have hsome : (Function.update s.artwork key' none) key = some body' := hfile
        rw [Function.update_of_ne hkey] at hsome
        exact h key body' hsome
  | _ =>
      intro key body' hfile
      rw [exec_artwork_eq env choice s _ rfl] at hfile
      exact h key body' hfile

end Step

section Entry

variable {env : Env}

/-- A program that only drops rows posts nothing. -/
theorem posts_removeMedia (actor : Actor) (mediaId : Bytes) (s : State) :
    Posts env [] (fun _ _ => True) (Media.remove actor mediaId) s := by
  refine posts_bind (plain_editableMedia actor mediaId).quiet (fun _ _ => trivial) (fun _ s => ?_) s
  refine fun s' _ _ => ⟨Call.posts_of_none rfl rfl, fun choice => ?_⟩
  cases hremoved : (exec env choice (.removeMedia (uuidOf mediaId)) s').1 with
  | none => trivial
  | some removed => exact posts_of_quiet (plain_reclaim removed.storageKey).quiet _

theorem posts_deleteGame (actor : Actor) (idOrSlug : Bytes) (s : State) :
    Posts env [] (fun _ _ => True) (deleteGame actor idOrSlug) s := by
  refine posts_bind (plain_editableGame actor idOrSlug).quiet (fun _ _ => trivial)
    (fun game s => ?_) s
  refine fun s' _ _ => ⟨Call.posts_of_none rfl rfl, fun choice => ?_⟩
  cases hremoved : (exec env choice (.removeGame game.id) s').1 with
  | none => trivial
  | some keys => exact posts_of_quiet (plain_reclaimAll keys).quiet _

/-- The answer makes no difference. -/
theorem posts_answer {α β : Type} {body : Bytes} {p : Coroutine α} {s : State} (reply : α → β)
    (h : Posts env body (fun _ _ => True) p s) :
    Posts env body (fun _ _ => True) (p >>= fun a => pure (reply a)) s :=
  Program.Safe.bind h (fun _ _ => trivial)

theorem posts_entry (r : Request) {p : Coroutine Reply} (hp : (entry env r).body = .program p)
    (s : State) : ∃ body, Posts env body (fun _ _ => True) p s := by
  cases htouches : r.touchesArtwork with
  | false => exact ⟨[], posts_of_quiet (quiet_entry env htouches hp) s⟩
  | true =>
      cases r with
      | core r =>
          cases r with
          | deleteGame actor idOrSlug =>
              cases hp
              exact ⟨[], posts_answer _ (posts_deleteGame actor idOrSlug s)⟩
          | _ => cases htouches
      | uploadMedia actor gameId command =>
          cases hp
          exact ⟨command.bytes, posts_answer _
            ((posts_upload env actor gameId command s).mono (fun _ _ _ => trivial))⟩
      | removeMedia actor mediaId =>
          cases hp
          exact ⟨[], posts_answer _ (posts_removeMedia actor mediaId s)⟩
      | _ => cases htouches

/-- A coroutine posts one body, if any. -/
def Task.PostsOne (env : Env) (s : State) (t : Task) : Prop :=
  ∀ p, t.body = .program p → ∃ body, Posts env body (fun _ _ => True) p s

theorem Task.PostsOne.moved {s s' : State} {t : Task} (h : t.PostsOne env s) :
    t.PostsOne env s' := by
  intro p hp
  obtain ⟨body, hposts⟩ := h p hp
  exact ⟨body, hposts.stable (fun _ _ _ _ _ => trivial) trivial⟩

end Entry

/-- **In every run the rows are those of uploads**, and if the media store was empty at first,
the files are named after what they hold. -/
theorem artwork_described (env : Env) (w : Server) (hw : Initial w) (ls : List Move) :
    RowsDescribe env ((storefront env).run w ls).shared ∧
      ((∀ key, w.shared.artwork key = none) →
        NamedByContent env ((storefront env).run w ls).shared) := by
  refine (System.pool_invariant (S := storefront env) (A := fun _ _ => True)
    (G := fun s => RowsDescribe env s ∧
      ((∀ key, w.shared.artwork key = none) → NamedByContent env s))
    (L := Task.PostsOne env) (fun r s _ p hp => posts_entry r hp s)
    (fun w' i choice t hG hL hi _ => ?_) (fun e s hG => ⟨?_, fun t ht => ht.moved⟩) ls w
    ⟨?_, fun hempty key body hfile => ?_⟩ ?_ ((storefront env).along_true w ls)).1
  · have hexec : ∀ {α : Type} (c : Call α) body, c.Posts env body →
        RowsDescribe env (exec env choice c w'.shared).2 ∧
          ((∀ key, w.shared.artwork key = none) →
            NamedByContent env (exec env choice c w'.shared).2) :=
      fun c body hc => ⟨hG.1.exec hc, fun hempty => (hG.2 hempty).exec hc⟩
    obtain ⟨actor, body⟩ := t
    cases body with
    | core u =>
        -- the upload side has no calls about artwork
        show (Task.next env ⟨actor, .core u⟩).Wp (exec env) choice w'.shared _
        rw [next_core]
        cases u.next env.core with
        | done => trivial
        | call c k =>
            intro r s' he
            have hs' : s' = (exec env choice (.core c) w'.shared).2 := (congrArg Prod.snd he).symm
            refine ⟨hs' ▸ hexec (.core c) [] (Call.posts_of_none rfl rfl),
              fun p hp => (by cases hp), fun j t'' _ hj => (hL j t'' hj).moved⟩
    | program p =>
        cases p with
        | done r => trivial
        | call c k =>
            -- the call is about the body of this coroutine, and so is the rest of it
            obtain ⟨body, hposts⟩ := hL i _ hi _ rfl
            obtain ⟨hc, hrest⟩ := hposts w'.shared trivial trivial
            intro r s' he
            have hs' : s' = (exec env choice c w'.shared).2 := (congrArg Prod.snd he).symm
            have hr : r = (exec env choice c w'.shared).1 := (congrArg Prod.fst he).symm
            refine ⟨hs' ▸ hexec c body hc, fun p hp => ?_, fun j t'' _ hj => (hL j t'' hj).moved⟩
            cases hp
            rw [hr, hs']
            exact ⟨body, hrest choice⟩
  · cases e <;> exact hG
  · intro row hrow
    rw [hw.media] at hrow
    cases hrow
  · rw [hempty key] at hfile
    cases hfile
  · intro j t hj
    rw [hw.tasks] at hj
    cases hj

/-- What deleting a game replies is what its packed keys unpack to. -/
theorem removeGame_unpacked (env : Env) (w : Server) (hw : Initial w) (ls : List Move)
    (gameId : Uuid) (keys : List Bytes)
    (h : (((storefront env).run w ls).shared.removeGame gameId).1 = some keys) :
    splitStorageKeys (packStorageKeys keys) = keys := by
  refine splitStorageKeys_packStorageKeys (fun key hkey => ?_)
  unfold State.removeGame at h
  dsimp only at h
  split at h
  · cases h
    obtain ⟨row, hrow, rfl⟩ := List.mem_map.mp hkey
    obtain ⟨body, format, hdescribes⟩ :=
      (artwork_described env w hw ls).1 row (List.mem_filter.mp hrow).1
    exact hdescribes.serviceable.checked.storage_key_shape
  · cases h

end Launcher.Storefront
