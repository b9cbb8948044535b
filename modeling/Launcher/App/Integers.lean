import Launcher.App.Placeholders

set_option autoImplicit false

/-! # Configured integers

`readInt<T>` takes 64 bits from the document and casts them to the type of the setting, of which
there are five. A setting holds the integer of the document exactly if that type has it;
nothing looks at the integer before the cast, and validation sees what is left of it. -/

namespace Launcher

open Lib

/-! ## The types -/

inductive IntegerType
  | uint16
  | uint32
  | uint64
  | int32
  | int64
  deriving DecidableEq, Repr

namespace IntegerType

def carrier : IntegerType → Type
  | .uint16 => UInt16
  | .uint32 => UInt32
  | .uint64 => UInt64
  | .int32 => Int32
  | .int64 => Int64

/-- The `static_cast` from 64 bits. -/
def cast : (type : IntegerType) → Int → type.carrier
  | .uint16 => UInt16.ofInt
  | .uint32 => UInt32.ofInt
  | .uint64 => UInt64.ofInt
  | .int32 => Int32.ofInt
  | .int64 => Int64.ofInt

def toInt : (type : IntegerType) → type.carrier → Int
  | .uint16 => fun n => (UInt16.toNat n : Int)
  | .uint32 => fun n => (UInt32.toNat n : Int)
  | .uint64 => fun n => (UInt64.toNat n : Int)
  | .int32 => Int32.toInt
  | .int64 => Int64.toInt

/-- The integers of the type. -/
def Has : IntegerType → Int → Prop
  | .uint16, n => 0 ≤ n ∧ n < 2 ^ 16
  | .uint32, n => 0 ≤ n ∧ n < 2 ^ 32
  | .uint64, n => 0 ≤ n ∧ n < 2 ^ 64
  | .int32, n => -2 ^ 31 ≤ n ∧ n < 2 ^ 31
  | .int64, n => -2 ^ 63 ≤ n ∧ n < 2 ^ 63

theorem has_toInt (type : IntegerType) (value : type.carrier) : type.Has (type.toInt value) := by
  cases type with
  | uint16 =>
      have hlt : UInt16.toNat value < 2 ^ 16 := UInt16.toNat_lt value
      show 0 ≤ (UInt16.toNat value : Int) ∧ (UInt16.toNat value : Int) < 2 ^ 16
      omega
  | uint32 =>
      have hlt : UInt32.toNat value < 2 ^ 32 := UInt32.toNat_lt value
      show 0 ≤ (UInt32.toNat value : Int) ∧ (UInt32.toNat value : Int) < 2 ^ 32
      omega
  | uint64 =>
      have hlt : UInt64.toNat value < 2 ^ 64 := UInt64.toNat_lt value
      show 0 ≤ (UInt64.toNat value : Int) ∧ (UInt64.toNat value : Int) < 2 ^ 64
      omega
  | int32 => exact ⟨Int32.le_toInt value, Int32.toInt_lt value⟩
  | int64 => exact ⟨Int64.le_toInt value, Int64.toInt_lt value⟩

theorem toInt_cast_of_has (type : IntegerType) {n : Int} (h : type.Has n) :
    type.toInt (type.cast n) = n := by
  cases type with
  | uint16 =>
      obtain ⟨hlow, hhigh⟩ : 0 ≤ n ∧ n < 2 ^ 16 := h
      show ((UInt16.ofNat (n % 2 ^ 16).toNat).toNat : Int) = n
      rw [UInt16.toNat_ofNat']
      omega
  | uint32 =>
      obtain ⟨hlow, hhigh⟩ : 0 ≤ n ∧ n < 2 ^ 32 := h
      show ((UInt32.ofNat (n % 2 ^ 32).toNat).toNat : Int) = n
      rw [UInt32.toNat_ofNat']
      omega
  | uint64 =>
      obtain ⟨hlow, hhigh⟩ : 0 ≤ n ∧ n < 2 ^ 64 := h
      show ((UInt64.ofNat (n % 2 ^ 64).toNat).toNat : Int) = n
      rw [UInt64.toNat_ofNat']
      omega
  | int32 => exact Int32.toInt_ofInt_of_le h.1 h.2
  | int64 => exact Int64.toInt_ofInt_of_le h.1 h.2

/-- **A cast keeps what the type has, and nothing else.** -/
theorem toInt_cast_iff (type : IntegerType) (n : Int) :
    type.toInt (type.cast n) = n ↔ type.Has n := by
  refine ⟨fun h => ?_, type.toInt_cast_of_has⟩
  -- whatever the cast makes of `n` is an integer of the type
  rw [← h]
  exact type.has_toInt (type.cast n)

end IntegerType

/-! ## The settings -/

/-- The settings that are integers in a document. -/
inductive IntegerField
  | serverPort
  | serverAdminPort
  | serverThreadCount
  | serverMaxDocumentBytes
  | serverMaxAnonymousBodyBytes
  | securityHstsMaxAgeSeconds
  | databasePort
  | databaseConnectionCount
  | storageSignedUrlTtlSeconds
  | mediaMaxBytes
  | mediaMaxVideoBytes
  | retentionBlobGraceSeconds
  | retentionSweepIntervalSeconds
  | retentionSweepBatchSize
  | crashReportsSubmitAttempts
  | crashReportsSubmitWindowSeconds
  | crashReportsRetentionSeconds
  | crashReportsSweepIntervalSeconds
  | authAccessTokenTtlSeconds
  | authRefreshTokenTtlSeconds
  | authEmailVerificationTtlSeconds
  | authPasswordResetTtlSeconds
  | authArgon2OperationsLimit
  | authArgon2MemoryLimitBytes
  | mailPort
  | mailTimeoutSeconds
  | mailSendAttempts
  | mailSendWindowSeconds
  | rateLimitAuthAttempts
  | rateLimitAuthWindowSeconds
  | rateLimitAccountRequests
  | rateLimitAccountWindowSeconds
  | uploadsDefaultQuotaBytes
  | uploadsMaxBlobBytes
  | uploadsMaxChunkBytes
  | uploadsSessionTtlSeconds
  | uploadsMaxOpenSessionsPerUser
  | uploadsSweepIntervalSeconds
  deriving DecidableEq, Repr

namespace IntegerField

/-- The section and the key. -/
def path : IntegerField → Bytes × Bytes
  | .serverPort => (ascii "server", ascii "port")
  | .serverAdminPort => (ascii "server", ascii "adminPort")
  | .serverThreadCount => (ascii "server", ascii "threadCount")
  | .serverMaxDocumentBytes => (ascii "server", ascii "maxDocumentBytes")
  | .serverMaxAnonymousBodyBytes => (ascii "server", ascii "maxAnonymousBodyBytes")
  | .securityHstsMaxAgeSeconds => (ascii "security", ascii "hstsMaxAgeSeconds")
  | .databasePort => (ascii "database", ascii "port")
  | .databaseConnectionCount => (ascii "database", ascii "connectionCount")
  | .storageSignedUrlTtlSeconds => (ascii "storage", ascii "signedUrlTtlSeconds")
  | .mediaMaxBytes => (ascii "media", ascii "maxBytes")
  | .mediaMaxVideoBytes => (ascii "media", ascii "maxVideoBytes")
  | .retentionBlobGraceSeconds => (ascii "retention", ascii "blobGraceSeconds")
  | .retentionSweepIntervalSeconds => (ascii "retention", ascii "sweepIntervalSeconds")
  | .retentionSweepBatchSize => (ascii "retention", ascii "sweepBatchSize")
  | .crashReportsSubmitAttempts => (ascii "crashReports", ascii "submitAttempts")
  | .crashReportsSubmitWindowSeconds => (ascii "crashReports", ascii "submitWindowSeconds")
  | .crashReportsRetentionSeconds => (ascii "crashReports", ascii "retentionSeconds")
  | .crashReportsSweepIntervalSeconds => (ascii "crashReports", ascii "sweepIntervalSeconds")
  | .authAccessTokenTtlSeconds => (ascii "auth", ascii "accessTokenTtlSeconds")
  | .authRefreshTokenTtlSeconds => (ascii "auth", ascii "refreshTokenTtlSeconds")
  | .authEmailVerificationTtlSeconds => (ascii "auth", ascii "emailVerificationTtlSeconds")
  | .authPasswordResetTtlSeconds => (ascii "auth", ascii "passwordResetTtlSeconds")
  | .authArgon2OperationsLimit => (ascii "auth", ascii "argon2OperationsLimit")
  | .authArgon2MemoryLimitBytes => (ascii "auth", ascii "argon2MemoryLimitBytes")
  | .mailPort => (ascii "mail", ascii "port")
  | .mailTimeoutSeconds => (ascii "mail", ascii "timeoutSeconds")
  | .mailSendAttempts => (ascii "mail", ascii "sendAttempts")
  | .mailSendWindowSeconds => (ascii "mail", ascii "sendWindowSeconds")
  | .rateLimitAuthAttempts => (ascii "rateLimit", ascii "authAttempts")
  | .rateLimitAuthWindowSeconds => (ascii "rateLimit", ascii "authWindowSeconds")
  | .rateLimitAccountRequests => (ascii "rateLimit", ascii "accountRequests")
  | .rateLimitAccountWindowSeconds => (ascii "rateLimit", ascii "accountWindowSeconds")
  | .uploadsDefaultQuotaBytes => (ascii "uploads", ascii "defaultQuotaBytes")
  | .uploadsMaxBlobBytes => (ascii "uploads", ascii "maxBlobBytes")
  | .uploadsMaxChunkBytes => (ascii "uploads", ascii "maxChunkBytes")
  | .uploadsSessionTtlSeconds => (ascii "uploads", ascii "sessionTtlSeconds")
  | .uploadsMaxOpenSessionsPerUser => (ascii "uploads", ascii "maxOpenSessionsPerUser")
  | .uploadsSweepIntervalSeconds => (ascii "uploads", ascii "sweepIntervalSeconds")

/-- What a document has there. -/
def valueIn (field : IntegerField) (root : Json) : Json :=
  JsonValue.member (JsonValue.member root field.path.1) field.path.2

def type : IntegerField → IntegerType
  | .serverPort => .uint16
  | .serverAdminPort => .uint16
  | .serverThreadCount => .uint64
  | .serverMaxDocumentBytes => .int64
  | .serverMaxAnonymousBodyBytes => .int64
  | .securityHstsMaxAgeSeconds => .uint32
  | .databasePort => .uint16
  | .databaseConnectionCount => .uint64
  | .storageSignedUrlTtlSeconds => .uint32
  | .mediaMaxBytes => .int64
  | .mediaMaxVideoBytes => .int64
  | .retentionBlobGraceSeconds => .uint32
  | .retentionSweepIntervalSeconds => .uint32
  | .retentionSweepBatchSize => .int32
  | .crashReportsSubmitAttempts => .uint32
  | .crashReportsSubmitWindowSeconds => .uint32
  | .crashReportsRetentionSeconds => .uint32
  | .crashReportsSweepIntervalSeconds => .uint32
  | .authAccessTokenTtlSeconds => .uint32
  | .authRefreshTokenTtlSeconds => .uint32
  | .authEmailVerificationTtlSeconds => .uint32
  | .authPasswordResetTtlSeconds => .uint32
  | .authArgon2OperationsLimit => .uint64
  | .authArgon2MemoryLimitBytes => .uint64
  | .mailPort => .uint16
  | .mailTimeoutSeconds => .uint32
  | .mailSendAttempts => .uint32
  | .mailSendWindowSeconds => .uint32
  | .rateLimitAuthAttempts => .uint32
  | .rateLimitAuthWindowSeconds => .uint32
  | .rateLimitAccountRequests => .uint32
  | .rateLimitAccountWindowSeconds => .uint32
  | .uploadsDefaultQuotaBytes => .int64
  | .uploadsMaxBlobBytes => .int64
  | .uploadsMaxChunkBytes => .int64
  | .uploadsSessionTtlSeconds => .uint32
  | .uploadsMaxOpenSessionsPerUser => .int64
  | .uploadsSweepIntervalSeconds => .uint32

def stored : (field : IntegerField) → AppConfig → field.type.carrier
  | .serverPort, config => config.server.port
  | .serverAdminPort, config => config.server.adminPort
  | .serverThreadCount, config => config.server.threadCount
  | .serverMaxDocumentBytes, config => config.server.maxDocumentBytes
  | .serverMaxAnonymousBodyBytes, config => config.server.maxAnonymousBodyBytes
  | .securityHstsMaxAgeSeconds, config => config.security.hstsMaxAgeSeconds
  | .databasePort, config => config.database.port
  | .databaseConnectionCount, config => config.database.connectionCount
  | .storageSignedUrlTtlSeconds, config => config.storage.signedUrlTtlSeconds
  | .mediaMaxBytes, config => config.media.maxBytes
  | .mediaMaxVideoBytes, config => config.media.maxVideoBytes
  | .retentionBlobGraceSeconds, config => config.retention.blobGraceSeconds
  | .retentionSweepIntervalSeconds, config => config.retention.sweepIntervalSeconds
  | .retentionSweepBatchSize, config => config.retention.sweepBatchSize
  | .crashReportsSubmitAttempts, config => config.crashReports.submitAttempts
  | .crashReportsSubmitWindowSeconds, config => config.crashReports.submitWindowSeconds
  | .crashReportsRetentionSeconds, config => config.crashReports.retentionSeconds
  | .crashReportsSweepIntervalSeconds, config => config.crashReports.sweepIntervalSeconds
  | .authAccessTokenTtlSeconds, config => config.auth.accessTokenTtlSeconds
  | .authRefreshTokenTtlSeconds, config => config.auth.refreshTokenTtlSeconds
  | .authEmailVerificationTtlSeconds, config => config.auth.emailVerificationTtlSeconds
  | .authPasswordResetTtlSeconds, config => config.auth.passwordResetTtlSeconds
  | .authArgon2OperationsLimit, config => config.auth.argon2OperationsLimit
  | .authArgon2MemoryLimitBytes, config => config.auth.argon2MemoryLimitBytes
  | .mailPort, config => config.mail.port
  | .mailTimeoutSeconds, config => config.mail.timeoutSeconds
  | .mailSendAttempts, config => config.mail.sendAttempts
  | .mailSendWindowSeconds, config => config.mail.sendWindowSeconds
  | .rateLimitAuthAttempts, config => config.rateLimit.authAttempts
  | .rateLimitAuthWindowSeconds, config => config.rateLimit.authWindowSeconds
  | .rateLimitAccountRequests, config => config.rateLimit.accountRequests
  | .rateLimitAccountWindowSeconds, config => config.rateLimit.accountWindowSeconds
  | .uploadsDefaultQuotaBytes, config => config.uploads.defaultQuotaBytes
  | .uploadsMaxBlobBytes, config => config.uploads.maxBlobBytes
  | .uploadsMaxChunkBytes, config => config.uploads.maxChunkBytes
  | .uploadsSessionTtlSeconds, config => config.uploads.sessionTtlSeconds
  | .uploadsMaxOpenSessionsPerUser, config => config.uploads.maxOpenSessionsPerUser
  | .uploadsSweepIntervalSeconds, config => config.uploads.sweepIntervalSeconds

def get (field : IntegerField) (config : AppConfig) : Int := field.type.toInt (field.stored config)

/-- A setting is read at its key, with its default when the key is not there. -/
theorem read_stored {jsoncpp : JsonCpp} {root : Json} {config : AppConfig}
    (field : IntegerField) (h : readConfig jsoncpp root = .ok (.ok config)) :
    readInt field.type.cast (JsonValue.member root field.path.1) field.path.2 (field.stored {})
      = .ok (field.stored config) := by
  obtain ⟨-, -, hserver, hsecurity, hdatabase, -, hstorage, hmedia, -, hretention, hcrashReports,
    hauth, hmail, hrateLimit, -, huploads⟩ := readConfig_ok h
  obtain ⟨-, -, -, -, -, -, hrelay⟩ := readMail_ok hmail
  obtain ⟨-, hserverPort, -, hserverAdminPort, -, hserverThreadCount, hserverMaxDocumentBytes,
    hserverMaxAnonymousBodyBytes, -⟩ := readServer_ok hserver
  obtain ⟨-, hsecurityHstsMaxAgeSeconds⟩ := readSecurity_ok hsecurity
  obtain ⟨-, hdatabasePort, -, -, -, hdatabaseConnectionCount⟩ := readDatabase_ok hdatabase
  obtain ⟨-, -, -, hstorageSignedUrlTtlSeconds⟩ := readStorage_ok hstorage
  obtain ⟨-, -, hmediaMaxBytes, hmediaMaxVideoBytes⟩ := readMedia_ok hmedia
  obtain ⟨hretentionBlobGraceSeconds, hretentionSweepIntervalSeconds, hretentionSweepBatchSize⟩ :=
    readRetention_ok hretention
  obtain ⟨-, hcrashReportsSubmitAttempts, hcrashReportsSubmitWindowSeconds,
    hcrashReportsRetentionSeconds, hcrashReportsSweepIntervalSeconds⟩ := readCrashReports_ok
    hcrashReports
  obtain ⟨-, -, hauthAccessTokenTtlSeconds, hauthRefreshTokenTtlSeconds,
    hauthEmailVerificationTtlSeconds, hauthPasswordResetTtlSeconds, -, hauthArgon2OperationsLimit,
    hauthArgon2MemoryLimitBytes⟩ := readAuth_ok hauth
  obtain ⟨-, -, -, hmailPort, -, -, -, -, -, -, hmailTimeoutSeconds, hmailSendAttempts,
    hmailSendWindowSeconds⟩ := readRelay_ok hrelay
  obtain ⟨hrateLimitAuthAttempts, hrateLimitAuthWindowSeconds, hrateLimitAccountRequests,
    hrateLimitAccountWindowSeconds⟩ := readRateLimit_ok hrateLimit
  obtain ⟨huploadsDefaultQuotaBytes, huploadsMaxBlobBytes, huploadsMaxChunkBytes,
    huploadsSessionTtlSeconds, huploadsMaxOpenSessionsPerUser, huploadsSweepIntervalSeconds⟩ :=
    readUploads_ok huploads
  cases field with
  | serverPort => exact hserverPort
  | serverAdminPort => exact hserverAdminPort
  | serverThreadCount => exact hserverThreadCount
  | serverMaxDocumentBytes => exact hserverMaxDocumentBytes
  | serverMaxAnonymousBodyBytes => exact hserverMaxAnonymousBodyBytes
  | securityHstsMaxAgeSeconds => exact hsecurityHstsMaxAgeSeconds
  | databasePort => exact hdatabasePort
  | databaseConnectionCount => exact hdatabaseConnectionCount
  | storageSignedUrlTtlSeconds => exact hstorageSignedUrlTtlSeconds
  | mediaMaxBytes => exact hmediaMaxBytes
  | mediaMaxVideoBytes => exact hmediaMaxVideoBytes
  | retentionBlobGraceSeconds => exact hretentionBlobGraceSeconds
  | retentionSweepIntervalSeconds => exact hretentionSweepIntervalSeconds
  | retentionSweepBatchSize => exact hretentionSweepBatchSize
  | crashReportsSubmitAttempts => exact hcrashReportsSubmitAttempts
  | crashReportsSubmitWindowSeconds => exact hcrashReportsSubmitWindowSeconds
  | crashReportsRetentionSeconds => exact hcrashReportsRetentionSeconds
  | crashReportsSweepIntervalSeconds => exact hcrashReportsSweepIntervalSeconds
  | authAccessTokenTtlSeconds => exact hauthAccessTokenTtlSeconds
  | authRefreshTokenTtlSeconds => exact hauthRefreshTokenTtlSeconds
  | authEmailVerificationTtlSeconds => exact hauthEmailVerificationTtlSeconds
  | authPasswordResetTtlSeconds => exact hauthPasswordResetTtlSeconds
  | authArgon2OperationsLimit => exact hauthArgon2OperationsLimit
  | authArgon2MemoryLimitBytes => exact hauthArgon2MemoryLimitBytes
  | mailPort => exact hmailPort
  | mailTimeoutSeconds => exact hmailTimeoutSeconds
  | mailSendAttempts => exact hmailSendAttempts
  | mailSendWindowSeconds => exact hmailSendWindowSeconds
  | rateLimitAuthAttempts => exact hrateLimitAuthAttempts
  | rateLimitAuthWindowSeconds => exact hrateLimitAuthWindowSeconds
  | rateLimitAccountRequests => exact hrateLimitAccountRequests
  | rateLimitAccountWindowSeconds => exact hrateLimitAccountWindowSeconds
  | uploadsDefaultQuotaBytes => exact huploadsDefaultQuotaBytes
  | uploadsMaxBlobBytes => exact huploadsMaxBlobBytes
  | uploadsMaxChunkBytes => exact huploadsMaxChunkBytes
  | uploadsSessionTtlSeconds => exact huploadsSessionTtlSeconds
  | uploadsMaxOpenSessionsPerUser => exact huploadsMaxOpenSessionsPerUser
  | uploadsSweepIntervalSeconds => exact huploadsSweepIntervalSeconds

end IntegerField

/-! ## The theorem -/

theorem isMember_of_member {node : Json} {key : Bytes} {q : ℚ}
    (h : JsonValue.member node key = .number q) : JsonValue.isMember node key = .ok true := by
  cases node with
  | object members =>
      -- a missing member reads as null, which is no number
      rw [JsonValue.member] at h
      cases hfind : members.reverse.find? (fun m => m.1 == key) with
      | none =>
          rw [hfind] at h
          cases h
      | some m =>
          have hmem : m ∈ members := List.mem_reverse.mp (List.mem_of_find?_eq_some hfind)
          have hkey := List.find?_some hfind
          exact congrArg Except.ok (List.any_eq_true.mpr ⟨m, hmem, hkey⟩)
  | _ => cases h

theorem asInt64_intCast {n : Int} (h : IntegerType.int64.Has n) :
    JsonValue.asInt64 (n : ℚ) = .ok n := by
  obtain ⟨hlow, hhigh⟩ : -2 ^ 63 ≤ n ∧ n < 2 ^ 63 := h
  have hlow' : (-2 ^ 63 : ℚ) ≤ n := by exact_mod_cast hlow
  have hhigh' : (n : ℚ) < 2 ^ 63 := by exact_mod_cast hhigh
  have hwide : (n : ℚ) < 2 ^ 64 := hhigh'.trans (by norm_num)
  rw [JsonValue.asInt64, if_neg (not_or.mpr ⟨not_lt.mpr hlow', not_le.mpr hwide⟩),
    if_neg (not_le.mpr hhigh')]
  simp

theorem readInt_number {T : Type} {cast : Int → T} {node : Json} {key : Bytes} {n : Int}
    (h : JsonValue.member node key = .number n) (hn : IntegerType.int64.Has n) (fallback : T) :
    readInt cast node key fallback = .ok (cast n) := by
  have hcast : (JsonValue.asInt64 (n : ℚ)).map cast = .ok (cast n) := by
    rw [asInt64_intCast hn]
    rfl
  rw [readInt, readMember, isMember_of_member h, h]
  exact hcast

/-- **A configured integer is stored exactly if its type has it.** -/
theorem integer_exact_iff {jsoncpp : JsonCpp} {crypto : Crypto} {lookup : EnvLookup}
    {json text : Bytes} {root : Json} {config : AppConfig} {field : IntegerField} {n : Int}
    (htext : interpolateEnv lookup json = .ok text) (hroot : jsoncpp.parse text = some root)
    (hvalue : field.valueIn root = .number n) (hn : IntegerType.int64.Has n)
    (hparse : AppConfig.parse jsoncpp crypto json lookup = .ok (.ok config)) :
    field.get config = n ↔ field.type.Has n := by
  have hread := (AppConfig.parse_ok htext hroot hparse).1
  have hstored := field.read_stored hread
  rw [readInt_number hvalue hn] at hstored
  rw [IntegerField.get, ← Except.ok.inj hstored]
  exact field.type.toInt_cast_iff n

namespace Demo

def graceBefore : Bytes := ascii "\x7b\"retention\":\x7b\"blobGraceSeconds\":"

def graceAfter : Bytes := ascii "\x7d\x7d"

def graceDocument (seconds : Bytes) : Bytes := graceBefore ++ seconds ++ graceAfter

def graceRoot (seconds : Json) : Json :=
  .object [(ascii "retention", .object [(ascii "blobGraceSeconds", seconds)])]

theorem grace_place : Json.Place Json.notDelimiter graceBefore graceAfter graceRoot := by
  have hnone : ∀ m ∈ ([] : List Json.Member), m.Keyed Json.notDelimiter :=
    fun m hm => (List.not_mem_nil hm).elim
  have hnone' : ∀ m ∈ ([] : List Json.Member),
      Json.Denotes Json.notDelimiter m.valueText m.value := fun m hm => (List.not_mem_nil hm).elim
  have hgrace := @Json.Place.member _ _ _ _ _ _ _
    (@stringMember_keyed (ascii "blobGraceSeconds") (List.all_eq_true.mp (by decide)) [])
    hnone hnone hnone' hnone' .here
  exact @Json.Place.member _ _ _ _ _ _ _
    (@stringMember_keyed (ascii "retention") (List.all_eq_true.mp (by decide)) [])
    hnone hnone hnone' hnone' hgrace

theorem grace_value (q : ℚ) :
    IntegerField.retentionBlobGraceSeconds.valueIn (graceRoot (.number q)) = .number q := by
  simp [IntegerField.valueIn, IntegerField.path, graceRoot, JsonValue.member]

/-- The root of the document with these digits. -/
theorem parse_grace {digits : Bytes} (hdigits : Json.Digits digits)
    (hzero : Json.NoLeadingZero digits) :
    lenientJson.parse (graceDocument digits)
      = some (graceRoot (.number (Json.digitsValue digits))) := by
  have hnumber : Json.Denotes Json.notDelimiter digits (.number (Json.digitsValue digits)) :=
    .number (Json.Number.whole hdigits hzero)
  have hdocument : Json.Denotes Json.notDelimiter (graceDocument digits)
      (graceRoot (.number (Json.digitsValue digits))) := grace_place.denotes hnumber
  exact lenientJson_parse hdocument

/-- What the document is parsed to, without any variables. -/
def parseGrace (seconds : Bytes) : Except LogicError (Result AppConfig) :=
  AppConfig.parse lenientJson crypto (graceDocument seconds) (fun _ => none)

def graceConfig (seconds : UInt32) : AppConfig := { retention := { blobGraceSeconds := seconds } }

end Demo

open Demo in
theorem integer_exact_grace :
    parseGrace (ascii "3600") = .ok (.ok (graceConfig 3600)) ∧
    IntegerField.retentionBlobGraceSeconds.get (graceConfig 3600) = 3600 := by
  have hparse : parseGrace (ascii "3600") = .ok (.ok (graceConfig 3600)) := by decide +kernel
  have htext : interpolateEnv (fun _ => none) (graceDocument (ascii "3600"))
      = .ok (graceDocument (ascii "3600")) := by decide +kernel
  have hroot := @parse_grace (ascii "3600") ⟨by decide, by decide +kernel⟩
    (fun h => absurd h (by decide +kernel))
  have hdigits : Json.digitsValue (ascii "3600") = 3600 := by decide +kernel
  have hcast : ((3600 : Nat) : ℚ) = ((3600 : Int) : ℚ) := by norm_num
  rw [hdigits, hcast] at hroot
  have hvalue := grace_value ((3600 : Int) : ℚ)
  refine ⟨hparse, (integer_exact_iff htext hroot hvalue ?_ hparse).mpr ?_⟩
  · show -2 ^ 63 ≤ (3600 : Int) ∧ (3600 : Int) < 2 ^ 63
    omega
  · show (0 : Int) ≤ 3600 ∧ (3600 : Int) < 2 ^ 32
    omega

open Demo in
/-- **A grace period of 2³² seconds is none**: the document is accepted, and the collector may
take every blob at once. -/
theorem blob_grace_wraps :
    (∃ root, lenientJson.parse (graceDocument (ascii "4294967296")) = some root ∧
      IntegerField.retentionBlobGraceSeconds.valueIn root = .number (4294967296 : Int)) ∧
    parseGrace (ascii "4294967296") = .ok (.ok (graceConfig 0)) ∧
    IntegerField.retentionBlobGraceSeconds.get (graceConfig 0) ≠ 4294967296 := by
  have hroot := @parse_grace (ascii "4294967296") ⟨by decide, by decide +kernel⟩
    (fun h => absurd h (by decide +kernel))
  have hdigits : Json.digitsValue (ascii "4294967296") = 4294967296 := by decide +kernel
  have hcast : ((4294967296 : Nat) : ℚ) = ((4294967296 : Int) : ℚ) := by norm_num
  rw [hdigits, hcast] at hroot
  exact ⟨⟨_, hroot, grace_value _⟩, by decide +kernel, by decide +kernel⟩

end Launcher
