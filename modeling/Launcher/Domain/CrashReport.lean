import Launcher.Domain.Publishing

set_option autoImplicit false

/-! # Crash reports

`domain/CrashReport.cpp`, and `CrashReportService::submit` up to its `INSERT`: what an anonymous
caller sends is trimmed and checked, and the report is filed under the fingerprint of its
exception type and its stack. -/

namespace Launcher

def MAX_CRASH_KIND_LENGTH : Nat := 40
def MAX_CRASH_VERSION_LENGTH : Nat := 40
def MAX_CRASH_PLATFORM_LENGTH : Nat := 120
def MAX_CRASH_EXCEPTION_TYPE_LENGTH : Nat := 200
def MAX_CRASH_MESSAGE_LENGTH : Nat := 2000
def MAX_CRASH_STACK_LENGTH : Nat := 16000

structure NewCrashReport where
  kind : Bytes
  occurredAt : Bytes
  launcherVersion : Bytes
  platform : Bytes
  exceptionType : Bytes
  message : Bytes
  stackTrace : Bytes
  deriving DecidableEq, Repr

namespace CrashReport

def space : UInt8 := 0x20
def colon : UInt8 := 0x3a
def newline : UInt8 := 0x0a

/-- Unlike the one of the catalog, it names no rule. -/
def checkLength (value : Bytes) (limit : Nat) (field : String) : VoidResult :=
  if limit < value.length then
    failure .InvalidInput
      (ascii field ++ ascii " must be at most " ++ decimal limit ++ ascii " characters")
  else .ok ()

/-- `. _ : < > +` are part of a name. -/
def isNameCharacter (c : UInt8) : Bool :=
  isAlpha c || c == 0x2e || c == 0x5f || c == 0x3a || c == 0x3c || c == 0x3e || c == 0x2b

def allDigits (value : Bytes) : Bool := !value.isEmpty && value.all isDigit

/-! ## The instant -/

def DATE_LENGTH : Nat := 10

/-- `YYYY-MM-DDTHH:MM:SS`. -/
def SECONDS_END : Nat := 19

def malformed : VoidResult :=
  failure .InvalidInput (ascii "occurredAt must be an ISO 8601 instant, e.g. 2026-08-05T12:00:00Z")

/-- `Z`, or a sign and `HH:MM`. -/
def validateZone (zone : Bytes) : VoidResult :=
  if zone = ascii "Z" then .ok ()
  else if zone.length = 6 ∧ (zone[0]? = some 0x2b ∨ zone[0]? = some hyphen) ∧
      zone[3]? = some colon ∧ allDigits ((zone.drop 1).take 2) ∧
      allDigits ((zone.drop 4).take 2) then .ok ()
  else malformed

/-- What follows the seconds: a fraction of at least one digit, if there is a point, and the
zone. -/
def validateFraction (zone : Bytes) : VoidResult :=
  if zone.head? = some dot then
    let digits := zone.drop 1
    match digits.findIdx? (fun c => !isDigit c) with
    | some 0 => malformed
    | some last => validateZone (digits.drop last)
    | none => validateZone []
  else validateZone zone

def validateOccurredAt (value : Bytes) : VoidResult :=
  if value.length < SECONDS_END + 1 ∨ value[DATE_LENGTH]? ≠ some 0x54 ∨
      value[13]? ≠ some colon ∨ value[16]? ≠ some colon then malformed
  else if validateReleaseDate (value.take DATE_LENGTH) ≠ .ok () then malformed
  else if !allDigits ((value.drop 11).take 2) || !allDigits ((value.drop 14).take 2) ||
      !allDigits ((value.drop 17).take 2) then malformed
  else validateFraction (value.drop SECONDS_END)

end CrashReport

/-! ## The report -/

def validateCrashReport (report : NewCrashReport) : VoidResult :=
  if (trim report.kind).isEmpty then failure .InvalidInput (ascii "kind must not be empty")
  else do
    CrashReport.checkLength report.kind MAX_CRASH_KIND_LENGTH "kind"
    CrashReport.checkLength report.launcherVersion MAX_CRASH_VERSION_LENGTH "version"
    CrashReport.checkLength report.platform MAX_CRASH_PLATFORM_LENGTH "platform"
    CrashReport.checkLength report.exceptionType MAX_CRASH_EXCEPTION_TYPE_LENGTH "exceptionType"
    CrashReport.checkLength report.message MAX_CRASH_MESSAGE_LENGTH "message"
    CrashReport.checkLength report.stackTrace MAX_CRASH_STACK_LENGTH "stackTrace"
    CrashReport.validateOccurredAt report.occurredAt

open CrashReport in
/-- The loop has written the first component, and whether a separator came last. -/
def normalizeStackForFingerprint (stackTrace : Bytes) : Bytes :=
  let normalized := (stackTrace.foldl (fun (normalized, lastWasSeparator) c =>
    if isNameCharacter c then (normalized ++ [toLower c], false)
    else if !lastWasSeparator then (normalized ++ [space], true)
    else (normalized, lastWasSeparator)) ([], true)).1
  (normalized.reverse.dropWhile (· == space)).reverse

/-- What is hashed. -/
def fingerprintText (report : NewCrashReport) : Bytes :=
  trim report.exceptionType ++ [CrashReport.newline] ++
    normalizeStackForFingerprint report.stackTrace

def crashFingerprint (sha256Hex : Bytes → Bytes) (report : NewCrashReport) : Bytes :=
  sha256Hex (fingerprintText report)

/-! ## The service -/

namespace CrashReport

def trimmed (report : NewCrashReport) : NewCrashReport :=
  { report with
    kind := trim report.kind
    occurredAt := trim report.occurredAt
    launcherVersion := trim report.launcherVersion
    platform := trim report.platform
    exceptionType := trim report.exceptionType }

/-- The refusal, or the row and the fingerprint that are inserted. -/
def submit (sha256Hex : Bytes → Bytes) (report : NewCrashReport) :
    Result (NewCrashReport × Bytes) := do
  let candidate := trimmed report
  validateCrashReport candidate
  .ok (candidate, crashFingerprint sha256Hex candidate)

end CrashReport

end Launcher
