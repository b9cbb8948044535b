import Launcher.Domain.Catalog
import Launcher.Domain.Validation

set_option autoImplicit false

/-! # What a publisher fills in

The field checks behind creating and editing games, versions, patch notes and artwork:
`domain/Catalog.cpp`, `domain/Semver.cpp`, `domain/PatchNote.cpp`, `domain/Media.cpp`, and the
two local ones of `CatalogService.cpp`. -/

namespace Launcher

inductive BuildStage
  | Demo
  | Alpha
  | Beta
  | Release
  deriving DecidableEq, Repr

def MAX_SLUG_LENGTH : Nat := 80
def MAX_TITLE_LENGTH : Nat := 200
def MAX_SUMMARY_LENGTH : Nat := 500
def MAX_DESCRIPTION_LENGTH : Nat := 20000
def MAX_RELEASE_NOTES_LENGTH : Nat := 20000

/-! ## Titles, slugs and dates -/

def checkTitle (title : Bytes) : VoidResult :=
  if title.isEmpty then
    .error (invalidInput (ascii "title must not be empty") (ascii "title_required") [])
  else checkLength title MAX_TITLE_LENGTH (ascii "title") (ascii "title_too_long")

def isDigit (c : UInt8) : Bool := 0x30 ≤ c && c ≤ 0x39

/-- `std::isalnum` in the C locale. -/
def isAlnum (c : UInt8) : Bool := isAlpha c || isDigit c

/-- The loop of `validateSlug`: whether the last character was a hyphen, or the refusal. -/
def scanSlug : Bytes → Bool → Result Bool
  | [], previousWasHyphen => .ok previousWasHyphen
  | c :: rest, previousWasHyphen =>
      if (0x61 ≤ c && c ≤ 0x7a) || isDigit c then scanSlug rest false
      else if c == hyphen && !previousWasHyphen then scanSlug rest true
      else .error (invalidInput
        (ascii "slug must be lowercase letters, digits and single hyphens, e.g. my-great-game")
        (ascii "slug_invalid") [])

def validateSlug (slug : Bytes) : VoidResult :=
  if slug.isEmpty then
    .error (invalidInput (ascii "slug must not be empty") (ascii "slug_required") [])
  else do
    checkLength slug MAX_SLUG_LENGTH (ascii "slug") (ascii "slug_too_long")
    -- a leading hyphen is as invalid as a doubled one
    let previousWasHyphen ← scanSlug slug true
    if previousWasHyphen then
      .error (invalidInput (ascii "slug must not end with a hyphen") (ascii "slug_invalid") [])
    else .ok ()

def withoutTrailingHyphens (slug : Bytes) : Bytes :=
  (slug.reverse.dropWhile (· == hyphen)).reverse

def slugify (title : Bytes) : Bytes :=
  let slug := title.foldl (fun slug c =>
    if isAlnum c then slug ++ [toLower c]
    else if !slug.isEmpty && slug.getLast? != some hyphen then slug ++ [hyphen]
    else slug) []
  let slug := withoutTrailingHyphens slug
  if MAX_SLUG_LENGTH < slug.length then withoutTrailingHyphens (slug.take MAX_SLUG_LENGTH)
  else slug

/-- `std::stoi` on digits. -/
def numberOf (digits : Bytes) : Nat := digits.foldl (fun n c => n * 10 + (c.toNat - 0x30)) 0

def daysInMonth (year month : Nat) : Nat :=
  if month = 2 then
    if (year % 4 = 0 ∧ year % 100 ≠ 0) ∨ year % 400 = 0 then 29 else 28
  else [31, 28, 31, 30, 31, 30, 31, 31, 30, 31, 30, 31].getD (month - 1) 0

def validateReleaseDate (date : Bytes) : VoidResult :=
  let malformed : VoidResult := .error (invalidInput
    (ascii "releaseDate must be an ISO date, e.g. 2026-04-30") (ascii "release_date_invalid") [])
  let yearText := date.take 4
  let monthText := (date.drop 5).take 2
  let dayText := (date.drop 8).take 2
  if date.length ≠ 10 ∨ date[4]? ≠ some hyphen ∨ date[7]? ≠ some hyphen then malformed
  else if !yearText.all isDigit || !monthText.all isDigit || !dayText.all isDigit then malformed
  else
    let year := numberOf yearText
    let month := numberOf monthText
    let day := numberOf dayText
    if year < 1970 ∨ 9999 < year ∨ month < 1 ∨ 12 < month ∨ day < 1 ∨ daysInMonth year month < day
    then malformed
    else .ok ()

def checkOptionalDate (date : Bytes) : VoidResult :=
  if date.isEmpty then .ok () else validateReleaseDate date

/-! ## Versions -/

structure Semver where
  major : Nat
  minor : Nat
  patch : Nat
  text : Bytes
  deriving DecidableEq, Repr

def MAX_VERSION_COMPONENT : Nat := 999999

def versionInvalid {α : Type} (detail : String) : Result α :=
  .error (invalidInput (ascii detail) (ascii "version_invalid") [])

/-- The loop of `parseComponent`. -/
def scanComponent : Bytes → Nat → Result Nat
  | [], value => .ok value
  | c :: rest, value =>
      if !isDigit c then versionInvalid "version components must be numeric"
      else
        let value := value * 10 + (c.toNat - 0x30)
        if MAX_VERSION_COMPONENT < value then
          .error (invalidInput (ascii "version components are too large")
            (ascii "version_too_large") [decimal MAX_VERSION_COMPONENT])
        else scanComponent rest value

def parseComponent (text : Bytes) : Result Nat :=
  if text.isEmpty then versionInvalid "version components must not be empty"
  else if 1 < text.length ∧ text.head? = some 0x30 then
    versionInvalid "version components must not have leading zeros"
  else scanComponent text 0

/-- Components that are left out are zero. -/
def parseSemver (input : Bytes) : Result Semver :=
  let text := trim input
  if text.isEmpty then
    .error (invalidInput (ascii "a version is required") (ascii "version_required") [])
  else
    let parts := text.splitOn dot
    if 3 < parts.length then
      versionInvalid "a version has at most three components, e.g. 1.2.3"
    else do
      let numbers ← parts.mapM parseComponent
      .ok ⟨numbers.getD 0 0, numbers.getD 1 0, numbers.getD 2 0, text⟩

/-! ## Patch notes -/

def MAX_PATCH_NOTE_TITLE_LENGTH : Nat := 200
def MAX_PATCH_NOTE_BODY_LENGTH : Nat := 40000

def validatePatchNoteTitle (title : Bytes) : VoidResult :=
  let trimmed := trim title
  if trimmed.isEmpty then
    .error (invalidInput (ascii "title must not be empty") (ascii "patch_note_title_required") [])
  else checkLength trimmed MAX_PATCH_NOTE_TITLE_LENGTH (ascii "title")
    (ascii "patch_note_title_too_long")

def validatePatchNoteBody (body : Bytes) : VoidResult :=
  checkLength body MAX_PATCH_NOTE_BODY_LENGTH (ascii "bodyMarkdown")
    (ascii "patch_note_body_too_long")

/-! ## Artwork -/

inductive MediaKind
  | Cover
  | Banner
  | Logo
  | Screenshot
  | Video
  deriving DecidableEq, Repr

/-- The order of the enum in the database. -/
def MediaKind.rank : MediaKind → Nat
  | .Cover => 0
  | .Banner => 1
  | .Logo => 2
  | .Screenshot => 3
  | .Video => 4

def MAX_ALT_TEXT_LENGTH : Nat := 300
def MAX_SCREENSHOTS_PER_GAME : Nat := 12
def MAX_VIDEOS_PER_GAME : Nat := 3

def isSingletonKind (kind : MediaKind) : Bool :=
  kind == .Cover || kind == .Banner || kind == .Logo

def isVideoKind (kind : MediaKind) : Bool := kind == .Video

/-- What is stored of a format; `storedFormatOf`, `contentTypeOf` and `extensionOf` in one. -/
structure StoredFormat where
  contentType : Bytes
  extension : Bytes
  deriving DecidableEq, Repr

def PNG : StoredFormat := ⟨ascii "image/png", ascii "png"⟩
def JPEG : StoredFormat := ⟨ascii "image/jpeg", ascii "jpg"⟩
def WEBP : StoredFormat := ⟨ascii "image/webp", ascii "webp"⟩
def MP4 : StoredFormat := ⟨ascii "video/mp4", ascii "mp4"⟩
def WEBM : StoredFormat := ⟨ascii "video/webm", ascii "webm"⟩

def startsWith (bytes lead : Bytes) : Bool := bytes.take lead.length == lead

def sniffImageFormat (bytes : Bytes) : Option StoredFormat :=
  if startsWith bytes [0x89, 0x50, 0x4e, 0x47, 0x0d, 0x0a, 0x1a, 0x0a] then some PNG
  else if startsWith bytes [0xff, 0xd8, 0xff] then some JPEG
  else if startsWith bytes (ascii "RIFF") && startsWith (bytes.drop 8) (ascii "WEBP") then
    some WEBP
  else none

/-- The major brands that are MP4 video. -/
def MP4_BRANDS : List Bytes :=
  [ascii "isom", ascii "iso2", ascii "iso4", ascii "iso5", ascii "iso6", ascii "mp41",
    ascii "mp42", ascii "avc1", ascii "dash", ascii "M4V "]

def sniffVideoFormat (bytes : Bytes) : Option StoredFormat :=
  if startsWith bytes [0x1a, 0x45, 0xdf, 0xa3] then
    -- the document type is in the first 64 bytes; Matroska says something else there
    if (bytes.take 64).tails.any (fun rest => startsWith rest (ascii "webm")) then some WEBM
    else none
  else if bytes.length < 12 || !startsWith (bytes.drop 4) (ascii "ftyp") then none
  else if MP4_BRANDS.contains ((bytes.drop 8).take 4) then some MP4
  else none

def validateAltText (altText : Bytes) : VoidResult := do
  checkLength altText MAX_ALT_TEXT_LENGTH (ascii "altText") (ascii "alt_text_too_long")
  if altText.any (fun c => c < 0x20 && c != 0x0a && c != 0x09) then
    .error (invalidInput (ascii "altText must not contain control characters")
      (ascii "alt_text_invalid") [])
  else .ok ()

end Launcher
