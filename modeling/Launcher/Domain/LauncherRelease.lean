import Launcher.Domain.Manifest
import Launcher.Domain.Publishing

set_option autoImplicit false

/-! # Release documents

What a signature of a launcher release covers: `domain/LauncherRelease.cpp`. The checks a
document has to pass, and the bytes it is signed as. -/

namespace Launcher

inductive ReleaseChannel
  | Stable
  | Beta
  deriving DecidableEq, Repr

inductive ReleasePlatform
  | Windows
  | Linux
  | MacOS
  deriving DecidableEq, Repr

inductive ReleaseArch
  | X64
  | Arm64
  deriving DecidableEq, Repr

/-- `nameFor`. -/
def ReleaseChannel.name : ReleaseChannel → Bytes
  | .Stable => ascii "stable"
  | .Beta => ascii "beta"

def ReleasePlatform.name : ReleasePlatform → Bytes
  | .Windows => ascii "windows"
  | .Linux => ascii "linux"
  | .MacOS => ascii "macos"

def ReleaseArch.name : ReleaseArch → Bytes
  | .X64 => ascii "x64"
  | .Arm64 => ascii "arm64"

def parseReleaseChannel (value : Bytes) : Option ReleaseChannel :=
  if value = ascii "stable" then some .Stable
  else if value = ascii "beta" then some .Beta
  else none

def parseReleasePlatform (value : Bytes) : Option ReleasePlatform :=
  if value = ascii "windows" then some .Windows
  else if value = ascii "linux" then some .Linux
  else if value = ascii "macos" then some .MacOS
  else none

def parseReleaseArch (value : Bytes) : Option ReleaseArch :=
  if value = ascii "x64" then some .X64
  else if value = ascii "arm64" then some .Arm64
  else none

theorem parseReleaseChannel_name (channel : ReleaseChannel) :
    parseReleaseChannel channel.name = some channel := by
  cases channel <;> decide

theorem parseReleasePlatform_name (platform : ReleasePlatform) :
    parseReleasePlatform platform.name = some platform := by
  cases platform <;> decide

theorem parseReleaseArch_name (arch : ReleaseArch) : parseReleaseArch arch.name = some arch := by
  cases arch <;> decide

def RELEASE_DOCUMENT_SCHEMA : Int := 1
def MAX_RELEASE_ARTIFACT_BYTES : Int := 4 * 1024 * 1024 * 1024
def MAX_LAUNCHER_RELEASE_NOTES_LENGTH : Nat := 4096

structure ReleaseDocument where
  schema : Int
  channel : ReleaseChannel
  version : Semver
  platform : ReleasePlatform
  arch : ReleaseArch
  artifactSha256 : Bytes
  artifactSize : Int
  releasedAt : Bytes
  notes : Bytes
  deriving DecidableEq, Repr

/-! ## The checks -/

def TIMESTAMP_LENGTH : Nat := 20

/-- Where the digits of a timestamp are. -/
def TIMESTAMP_DIGITS : List Nat := [0, 1, 2, 3, 5, 6, 8, 9, 11, 12, 14, 15, 17, 18]

/-- The number in `length` digits from `offset` on. -/
def numberAt (value : Bytes) (offset length : Nat) : Nat :=
  numberOf ((value.drop offset).take length)

/-- `YYYY-MM-DDTHH:MM:SSZ`; not a calendar. -/
def isUtcTimestamp (value : Bytes) : Bool :=
  if value.length ≠ TIMESTAMP_LENGTH then false
  else if !TIMESTAMP_DIGITS.all (fun i => (value[i]?).any isDigit) then false
  else if value[4]? ≠ some 0x2d ∨ value[7]? ≠ some 0x2d ∨ value[10]? ≠ some 0x54 ∨
      value[13]? ≠ some 0x3a ∨ value[16]? ≠ some 0x3a ∨ value[19]? ≠ some 0x5a then false
  else
    let month := numberAt value 5 2
    let day := numberAt value 8 2
    let hour := numberAt value 11 2
    let minute := numberAt value 14 2
    let second := numberAt value 17 2
    decide (1 ≤ month) && decide (month ≤ 12) && decide (1 ≤ day) && decide (day ≤ 31) &&
      decide (hour ≤ 23) && decide (minute ≤ 59) && decide (second ≤ 60)

/-- The full three-component form. -/
def canonicalVersion (version : Semver) : Bytes :=
  decimal version.major ++ ascii "." ++ decimal version.minor ++ ascii "." ++
    decimal version.patch

def validateReleaseDocument (document : ReleaseDocument) : VoidResult :=
  if document.schema ≠ RELEASE_DOCUMENT_SCHEMA then
    failure .InvalidInput
      (ascii "release document schema must be " ++ decimal RELEASE_DOCUMENT_SCHEMA)
  else if document.version.text ≠ canonicalVersion document.version then
    failure .InvalidInput (ascii "version must be written as major.minor.patch, not '" ++
      document.version.text ++ ascii "'")
  else if !isSha256Hex document.artifactSha256 then
    failure .InvalidInput (ascii "sha256 must be 64 lowercase hexadecimal characters")
  else if document.artifactSize ≤ 0 ∨ MAX_RELEASE_ARTIFACT_BYTES < document.artifactSize then
    failure .InvalidInput (ascii "size must be between 1 and " ++
      decimal MAX_RELEASE_ARTIFACT_BYTES ++ ascii " bytes")
  else if !isUtcTimestamp document.releasedAt then
    failure .InvalidInput (ascii ("releasedAt must be an ISO 8601 UTC instant, " ++
      "spelled YYYY-MM-DDTHH:MM:SSZ"))
  else if MAX_LAUNCHER_RELEASE_NOTES_LENGTH < document.notes.length then
    failure .InvalidInput (ascii "notes are longer than " ++
      decimal MAX_LAUNCHER_RELEASE_NOTES_LENGTH ++ ascii " characters")
  else .ok ()

/-- What the checks establish. -/
structure ValidRelease (document : ReleaseDocument) : Prop where
  schema : document.schema = RELEASE_DOCUMENT_SCHEMA
  version : document.version.text = canonicalVersion document.version
  sha256 : isSha256Hex document.artifactSha256 = true
  size_pos : 0 < document.artifactSize
  size_le : document.artifactSize ≤ MAX_RELEASE_ARTIFACT_BYTES
  releasedAt : isUtcTimestamp document.releasedAt = true
  notes : document.notes.length ≤ MAX_LAUNCHER_RELEASE_NOTES_LENGTH

theorem validateReleaseDocument_ok {document : ReleaseDocument} :
    validateReleaseDocument document = .ok () ↔ ValidRelease document := by
  unfold validateReleaseDocument failure
  constructor
  · intro h
    split_ifs at h with h1 h2 h3 h4 h5 h6
    exact ⟨by simpa using h1, by simpa using h2, by simpa using h3, by omega, by omega,
      by simpa using h5, by omega⟩
  · rintro ⟨h1, h2, h3, hpos, hle, h5, h6⟩
    rw [if_neg (by simpa using h1), if_neg (by simpa using h2), if_neg (by simp [h3]),
      if_neg (by omega), if_neg (by simp [h5]), if_neg (by omega)]

/-! ## The signed bytes -/

def canonicalReleaseDocument (document : ReleaseDocument) : Bytes :=
  ascii "\x7b\"schema\":" ++ decimal document.schema ++
  ascii ",\"channel\":" ++ canonicalJsonString document.channel.name ++
  ascii ",\"version\":" ++ canonicalJsonString document.version.text ++
  ascii ",\"platform\":" ++ canonicalJsonString document.platform.name ++
  ascii ",\"arch\":" ++ canonicalJsonString document.arch.name ++
  ascii ",\"sha256\":" ++ canonicalJsonString document.artifactSha256 ++
  ascii ",\"size\":" ++ decimal document.artifactSize ++
  ascii ",\"releasedAt\":" ++ canonicalJsonString document.releasedAt ++
  ascii ",\"notes\":" ++ canonicalJsonString document.notes ++
  ascii "\x7d"

/-- Newer on the three numbers, compared in turn. -/
def isNewerRelease (candidate installed : Semver) : Bool :=
  decide (installed.major < candidate.major) ||
    (installed.major == candidate.major &&
      (decide (installed.minor < candidate.minor) ||
        (installed.minor == candidate.minor && decide (installed.patch < candidate.patch))))

end Launcher
