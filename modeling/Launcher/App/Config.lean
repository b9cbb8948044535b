import Launcher.Common.EnvInterpolation
import Launcher.Common.JsonCpp
import Launcher.Common.Signature

set_option autoImplicit false

/-! # The configuration

`app/Config.h` and `app/Config.cpp`: the settings of the server with their defaults, how they
are read from a document, and what is refused. The document is expanded first and read as JSON
afterwards; jsoncpp throws (`LogicError`) when a section is neither an object nor absent, or a
number is outside of 64 bits. -/

namespace Launcher

open Lib

/-! ## The settings -/

@[ext]
structure ServerConfig where
  listenAddress : Bytes := ascii "0.0.0.0"
  port : UInt16 := 8080
  adminListenAddress : Bytes := ascii "127.0.0.1"
  adminPort : UInt16 := 9090
  adminEnabled : Bool := false
  /-- 0 = one event loop per hardware thread. -/
  threadCount : UInt64 := 0
  maxDocumentBytes : Int64 := 16 * 1024 * 1024
  maxAnonymousBodyBytes : Int64 := 64 * 1024
  trustedProxies : List Bytes := []
  deriving DecidableEq, Repr

structure SecurityConfig where
  hsts : Bool := false
  hstsMaxAgeSeconds : UInt32 := 15552000
  deriving DecidableEq, Repr

@[ext]
structure DatabaseConfig where
  host : Bytes := ascii "localhost"
  port : UInt16 := 5432
  name : Bytes := ascii "launcher"
  user : Bytes := ascii "launcher"
  password : Bytes := []
  connectionCount : UInt64 := 4
  deriving DecidableEq, Repr

@[ext]
structure LoggingConfig where
  level : Bytes := ascii "info"
  directory : Bytes := []
  json : Bool := true
  deriving DecidableEq, Repr

@[ext]
structure StorageConfig where
  blobRoot : Bytes := ascii "/data/blobs"
  publicBaseUrl : Bytes := ascii "http://localhost:8081/files"
  secureLinkSecret : Bytes := []
  signedUrlTtlSeconds : UInt32 := 3600
  deriving DecidableEq, Repr

@[ext]
structure MediaConfig where
  root : Bytes := ascii "/data/media"
  publicBaseUrl : Bytes := ascii "http://localhost:8081/media"
  maxBytes : Int64 := 5 * 1024 * 1024
  maxVideoBytes : Int64 := 64 * 1024 * 1024
  deriving DecidableEq, Repr

@[ext]
structure LauncherReleaseConfig where
  root : Bytes := ascii "/data/launcher"
  publicBaseUrl : Bytes := ascii "http://localhost:8081/launcher"
  /-- base64 DER; empty turns the surface off. -/
  publicKey : Bytes := []
  deriving DecidableEq, Repr

@[ext]
structure AuthConfig where
  jwtSecret : Bytes := []
  issuer : Bytes := ascii "custom-game-launcher"
  accessTokenTtlSeconds : UInt32 := 900
  refreshTokenTtlSeconds : UInt32 := 2592000
  emailVerificationTtlSeconds : UInt32 := 86400
  passwordResetTtlSeconds : UInt32 := 3600
  requireVerifiedEmail : Bool := true
  /-- 0 selects libsodium's INTERACTIVE profile. -/
  argon2OperationsLimit : UInt64 := 0
  argon2MemoryLimitBytes : UInt64 := 0
  deriving DecidableEq, Repr

inductive MailTransport
  | Smtp
  | Log
  | None
  deriving DecidableEq, Repr

inductive MailSecurity
  | None
  | StartTls
  | Tls
  deriving DecidableEq, Repr

def parseMailTransport (value : Bytes) : Option MailTransport :=
  if value = ascii "smtp" then some .Smtp
  else if value = ascii "log" then some .Log
  else if value = ascii "none" then some .None
  else none

def parseMailSecurity (value : Bytes) : Option MailSecurity :=
  if value = ascii "none" then some .None
  else if value = ascii "starttls" then some .StartTls
  else if value = ascii "tls" then some .Tls
  else none

@[ext]
structure MailConfig where
  transport : MailTransport := .Log
  host : Bytes := []
  port : UInt16 := 587
  username : Bytes := []
  password : Bytes := []
  security : MailSecurity := .StartTls
  fromAddress : Bytes := []
  fromName : Bytes := ascii "Custom Game Launcher"
  linkBaseUrl : Bytes := ascii "http://localhost:8080"
  productName : Bytes := ascii "Custom Game Launcher"
  timeoutSeconds : UInt32 := 10
  sendAttempts : UInt32 := 3
  sendWindowSeconds : UInt32 := 900
  deriving DecidableEq, Repr

def MailConfig.enabled (mail : MailConfig) : Bool := mail.transport != .None

structure RateLimitConfig where
  authAttempts : UInt32 := 10
  authWindowSeconds : UInt32 := 60
  accountRequests : UInt32 := 600
  accountWindowSeconds : UInt32 := 60
  deriving DecidableEq, Repr

structure UpdateConfig where
  /-- The double 0.7. -/
  fullDownloadThresholdRatio : ℚ := 3152519739159347 / 2 ^ 52
  deriving DecidableEq, Repr

structure UploadConfig where
  defaultQuotaBytes : Int64 := 5 * 1024 * 1024 * 1024
  maxBlobBytes : Int64 := 2 * 1024 * 1024 * 1024
  maxChunkBytes : Int64 := 8 * 1024 * 1024
  sessionTtlSeconds : UInt32 := 86400
  maxOpenSessionsPerUser : Int64 := 16
  sweepIntervalSeconds : UInt32 := 600
  deriving DecidableEq, Repr

structure CrashReportConfig where
  enabled : Bool := true
  submitAttempts : UInt32 := 20
  submitWindowSeconds : UInt32 := 600
  retentionSeconds : UInt32 := 30 * 24 * 3600
  sweepIntervalSeconds : UInt32 := 3600
  deriving DecidableEq, Repr

structure RetentionConfig where
  blobGraceSeconds : UInt32 := 86400
  sweepIntervalSeconds : UInt32 := 3600
  sweepBatchSize : Int32 := 500
  deriving DecidableEq, Repr

@[ext]
structure AppConfig where
  environment : Bytes := ascii "development"
  migrationsDirectory : Bytes := ascii "migrations"
  server : ServerConfig := {}
  security : SecurityConfig := {}
  database : DatabaseConfig := {}
  logging : LoggingConfig := {}
  storage : StorageConfig := {}
  media : MediaConfig := {}
  launcherReleases : LauncherReleaseConfig := {}
  auth : AuthConfig := {}
  mail : MailConfig := {}
  rateLimit : RateLimitConfig := {}
  updates : UpdateConfig := {}
  uploads : UploadConfig := {}
  retention : RetentionConfig := {}
  crashReports : CrashReportConfig := {}
  deriving DecidableEq, Repr

/-! ## Reading -/

/-- The value at a key, where the node has the key and `pick` takes the value. -/
def readMember {α : Type} (pick : Json → Option (Except LogicError α)) (node : Json) (key : Bytes)
    (fallback : α) : Except LogicError α := do
  if !(← JsonValue.isMember node key) then return fallback
  match pick (JsonValue.member node key) with
  | some value => value
  | none => return fallback

def readString (node : Json) (key fallback : Bytes) : Except LogicError Bytes :=
  readMember (fun value =>
    match value with
    | .string s => some (.ok s)
    | _ => none) node key fallback

def readBool (node : Json) (key : Bytes) (fallback : Bool) : Except LogicError Bool :=
  readMember (fun value =>
    match value with
    | .bool b => some (.ok b)
    | _ => none) node key fallback

def readDouble (jsoncpp : JsonCpp) (node : Json) (key : Bytes) (fallback : ℚ) :
    Except LogicError ℚ :=
  readMember (fun value =>
    match value with
    | .number q => some (.ok (jsoncpp.asDouble q))
    | _ => none) node key fallback

/-- `readInt<T>`; `cast` is the `static_cast` from 64 bits. -/
def readInt {T : Type} (cast : Int → T) (node : Json) (key : Bytes) (fallback : T) :
    Except LogicError T :=
  readMember (fun value =>
    match value with
    | .number q => some ((JsonValue.asInt64 q).map cast)
    | _ => none) node key fallback

/-- The strings among the elements that are not empty. -/
def nonEmptyStrings (elements : List Json) : List Bytes :=
  elements.filterMap (fun element =>
    match element with
    | .string s => if s.isEmpty then none else some s
    | _ => none)

def readStrings (node : Json) (key : Bytes) (fallback : List Bytes) :
    Except LogicError (List Bytes) :=
  readMember (fun value =>
    match value with
    | .array elements => some (.ok (nonEmptyStrings elements))
    | _ => none) node key fallback

/-! ### Section by section -/

def readServer (server : Json) : Except LogicError ServerConfig := do
  let config : ServerConfig := {}
  return {
    listenAddress := ← readString server (ascii "listenAddress") config.listenAddress
    port := ← readInt UInt16.ofInt server (ascii "port") config.port
    adminListenAddress :=
      ← readString server (ascii "adminListenAddress") config.adminListenAddress
    adminPort := ← readInt UInt16.ofInt server (ascii "adminPort") config.adminPort
    adminEnabled := ← readBool server (ascii "adminEnabled") config.adminEnabled
    threadCount := ← readInt UInt64.ofInt server (ascii "threadCount") config.threadCount
    maxDocumentBytes :=
      ← readInt Int64.ofInt server (ascii "maxDocumentBytes") config.maxDocumentBytes
    maxAnonymousBodyBytes :=
      ← readInt Int64.ofInt server (ascii "maxAnonymousBodyBytes") config.maxAnonymousBodyBytes
    trustedProxies := ← readStrings server (ascii "trustedProxies") config.trustedProxies }

def readSecurity (security : Json) : Except LogicError SecurityConfig := do
  let config : SecurityConfig := {}
  return {
    hsts := ← readBool security (ascii "hsts") config.hsts
    hstsMaxAgeSeconds :=
      ← readInt UInt32.ofInt security (ascii "hstsMaxAgeSeconds") config.hstsMaxAgeSeconds }

def readDatabase (database : Json) : Except LogicError DatabaseConfig := do
  let config : DatabaseConfig := {}
  return {
    host := ← readString database (ascii "host") config.host
    port := ← readInt UInt16.ofInt database (ascii "port") config.port
    name := ← readString database (ascii "name") config.name
    user := ← readString database (ascii "user") config.user
    password := ← readString database (ascii "password") config.password
    connectionCount :=
      ← readInt UInt64.ofInt database (ascii "connectionCount") config.connectionCount }

def readLogging (logging : Json) : Except LogicError LoggingConfig := do
  let config : LoggingConfig := {}
  return {
    level := ← readString logging (ascii "level") config.level
    directory := ← readString logging (ascii "directory") config.directory
    json := ← readBool logging (ascii "json") config.json }

def readStorage (storage : Json) : Except LogicError StorageConfig := do
  let config : StorageConfig := {}
  return {
    blobRoot := ← readString storage (ascii "blobRoot") config.blobRoot
    publicBaseUrl := ← readString storage (ascii "publicBaseUrl") config.publicBaseUrl
    secureLinkSecret := ← readString storage (ascii "secureLinkSecret") config.secureLinkSecret
    signedUrlTtlSeconds :=
      ← readInt UInt32.ofInt storage (ascii "signedUrlTtlSeconds") config.signedUrlTtlSeconds }

def readMedia (media : Json) : Except LogicError MediaConfig := do
  let config : MediaConfig := {}
  return {
    root := ← readString media (ascii "root") config.root
    publicBaseUrl := ← readString media (ascii "publicBaseUrl") config.publicBaseUrl
    maxBytes := ← readInt Int64.ofInt media (ascii "maxBytes") config.maxBytes
    maxVideoBytes := ← readInt Int64.ofInt media (ascii "maxVideoBytes") config.maxVideoBytes }

def readLauncherReleases (launcherReleases : Json) : Except LogicError LauncherReleaseConfig := do
  let config : LauncherReleaseConfig := {}
  return {
    root := ← readString launcherReleases (ascii "root") config.root
    publicBaseUrl := ← readString launcherReleases (ascii "publicBaseUrl") config.publicBaseUrl
    publicKey := ← readString launcherReleases (ascii "publicKey") config.publicKey }

def readRetention (retention : Json) : Except LogicError RetentionConfig := do
  let config : RetentionConfig := {}
  return {
    blobGraceSeconds :=
      ← readInt UInt32.ofInt retention (ascii "blobGraceSeconds") config.blobGraceSeconds
    sweepIntervalSeconds :=
      ← readInt UInt32.ofInt retention (ascii "sweepIntervalSeconds") config.sweepIntervalSeconds
    sweepBatchSize :=
      ← readInt Int32.ofInt retention (ascii "sweepBatchSize") config.sweepBatchSize }

def readCrashReports (crashReports : Json) : Except LogicError CrashReportConfig := do
  let config : CrashReportConfig := {}
  return {
    enabled := ← readBool crashReports (ascii "enabled") config.enabled
    submitAttempts :=
      ← readInt UInt32.ofInt crashReports (ascii "submitAttempts") config.submitAttempts
    submitWindowSeconds :=
      ← readInt UInt32.ofInt crashReports (ascii "submitWindowSeconds") config.submitWindowSeconds
    retentionSeconds :=
      ← readInt UInt32.ofInt crashReports (ascii "retentionSeconds") config.retentionSeconds
    sweepIntervalSeconds :=
      ← readInt UInt32.ofInt crashReports (ascii "sweepIntervalSeconds")
        config.sweepIntervalSeconds }

def readAuth (auth : Json) : Except LogicError AuthConfig := do
  let config : AuthConfig := {}
  return {
    jwtSecret := ← readString auth (ascii "jwtSecret") config.jwtSecret
    issuer := ← readString auth (ascii "issuer") config.issuer
    accessTokenTtlSeconds :=
      ← readInt UInt32.ofInt auth (ascii "accessTokenTtlSeconds") config.accessTokenTtlSeconds
    refreshTokenTtlSeconds :=
      ← readInt UInt32.ofInt auth (ascii "refreshTokenTtlSeconds") config.refreshTokenTtlSeconds
    emailVerificationTtlSeconds :=
      ← readInt UInt32.ofInt auth (ascii "emailVerificationTtlSeconds")
        config.emailVerificationTtlSeconds
    passwordResetTtlSeconds :=
      ← readInt UInt32.ofInt auth (ascii "passwordResetTtlSeconds") config.passwordResetTtlSeconds
    requireVerifiedEmail :=
      ← readBool auth (ascii "requireVerifiedEmail") config.requireVerifiedEmail
    argon2OperationsLimit :=
      ← readInt UInt64.ofInt auth (ascii "argon2OperationsLimit") config.argon2OperationsLimit
    argon2MemoryLimitBytes :=
      ← readInt UInt64.ofInt auth (ascii "argon2MemoryLimitBytes") config.argon2MemoryLimitBytes }

/-- A reading may throw, and it may be refused. -/
abbrev Reading (α : Type) := ExceptT Error (Except LogicError) α

def refuse {α : Type} (detail : Bytes) : Reading α :=
  ExceptT.mk (.ok (failure .InvalidInput detail))

def readTransport (transportName : Bytes) : Reading MailTransport :=
  match parseMailTransport transportName with
  | some transport => pure transport
  | none =>
      refuse (ascii "mail.transport must be one of smtp, log or none, not \"" ++ transportName ++
        ascii "\"")

def readMailSecurity (securityName : Bytes) : Reading MailSecurity :=
  match parseMailSecurity securityName with
  | some mailSecurity => pure mailSecurity
  | none =>
      refuse (ascii "mail.security must be one of none, starttls or tls, not \"" ++
        securityName ++ ascii "\"")

/-- What is read once the two names are known. -/
def readRelay (transport : MailTransport) (security : MailSecurity) (mail : Json) :
    Except LogicError MailConfig := do
  let config : MailConfig := {}
  return {
    transport := transport
    security := security
    host := ← readString mail (ascii "host") config.host
    port := ← readInt UInt16.ofInt mail (ascii "port") config.port
    username := ← readString mail (ascii "username") config.username
    password := ← readString mail (ascii "password") config.password
    fromAddress := ← readString mail (ascii "fromAddress") config.fromAddress
    fromName := ← readString mail (ascii "fromName") config.fromName
    linkBaseUrl := ← readString mail (ascii "linkBaseUrl") config.linkBaseUrl
    productName := ← readString mail (ascii "productName") config.productName
    timeoutSeconds :=
      ← readInt UInt32.ofInt mail (ascii "timeoutSeconds") config.timeoutSeconds
    sendAttempts := ← readInt UInt32.ofInt mail (ascii "sendAttempts") config.sendAttempts
    sendWindowSeconds :=
      ← readInt UInt32.ofInt mail (ascii "sendWindowSeconds") config.sendWindowSeconds }

def readMail (mail : Json) : Reading MailConfig := do
  let transport ← readTransport (← readString mail (ascii "transport") (ascii "log"))
  let security ← readMailSecurity (← readString mail (ascii "security") (ascii "starttls"))
  readRelay transport security mail

def readRateLimit (rateLimit : Json) : Except LogicError RateLimitConfig := do
  let config : RateLimitConfig := {}
  return {
    authAttempts := ← readInt UInt32.ofInt rateLimit (ascii "authAttempts") config.authAttempts
    authWindowSeconds :=
      ← readInt UInt32.ofInt rateLimit (ascii "authWindowSeconds") config.authWindowSeconds
    accountRequests :=
      ← readInt UInt32.ofInt rateLimit (ascii "accountRequests") config.accountRequests
    accountWindowSeconds :=
      ← readInt UInt32.ofInt rateLimit (ascii "accountWindowSeconds")
        config.accountWindowSeconds }

def readUpdates (jsoncpp : JsonCpp) (updates : Json) : Except LogicError UpdateConfig := do
  let config : UpdateConfig := {}
  return {
    fullDownloadThresholdRatio :=
      ← readDouble jsoncpp updates (ascii "fullDownloadThresholdRatio")
        config.fullDownloadThresholdRatio }

def readUploads (uploads : Json) : Except LogicError UploadConfig := do
  let config : UploadConfig := {}
  return {
    defaultQuotaBytes :=
      ← readInt Int64.ofInt uploads (ascii "defaultQuotaBytes") config.defaultQuotaBytes
    maxBlobBytes := ← readInt Int64.ofInt uploads (ascii "maxBlobBytes") config.maxBlobBytes
    maxChunkBytes := ← readInt Int64.ofInt uploads (ascii "maxChunkBytes") config.maxChunkBytes
    sessionTtlSeconds :=
      ← readInt UInt32.ofInt uploads (ascii "sessionTtlSeconds") config.sessionTtlSeconds
    maxOpenSessionsPerUser :=
      ← readInt Int64.ofInt uploads (ascii "maxOpenSessionsPerUser") config.maxOpenSessionsPerUser
    sweepIntervalSeconds :=
      ← readInt UInt32.ofInt uploads (ascii "sweepIntervalSeconds") config.sweepIntervalSeconds }

/-- From the root of the document to the settings, before they are validated. -/
def readConfig (jsoncpp : JsonCpp) (root : Json) : Reading AppConfig := do
  let config : AppConfig := {}
  let node := fun key : String => JsonValue.member root (ascii key)
  return {
    environment := ← readString root (ascii "environment") config.environment
    migrationsDirectory :=
      ← readString root (ascii "migrationsDirectory") config.migrationsDirectory
    server := ← readServer (node "server")
    security := ← readSecurity (node "security")
    database := ← readDatabase (node "database")
    logging := ← readLogging (node "logging")
    storage := ← readStorage (node "storage")
    media := ← readMedia (node "media")
    launcherReleases := ← readLauncherReleases (node "launcherReleases")
    retention := ← readRetention (node "retention")
    crashReports := ← readCrashReports (node "crashReports")
    auth := ← readAuth (node "auth")
    mail := ← readMail (node "mail")
    rateLimit := ← readRateLimit (node "rateLimit")
    updates := ← readUpdates jsoncpp (node "updates")
    uploads := ← readUploads (node "uploads") }

/-! ## Validation -/

/-- Marks the secrets the repository ships. -/
def isDevelopmentPlaceholder (secret : Bytes) : Bool :=
  (cut? (ascii "dev-insecure") secret).isSome

namespace AppConfig

/-- What only holds outside development. -/
def validateDeployed (config : AppConfig) : VoidResult := do
  if config.auth.jwtSecret.length < 32 then
    failure .InvalidInput
      (ascii "auth.jwtSecret must be at least 32 characters outside development")
  if config.storage.secureLinkSecret.isEmpty then
    failure .InvalidInput (ascii "storage.secureLinkSecret is required outside development")
  if isDevelopmentPlaceholder config.auth.jwtSecret ||
      isDevelopmentPlaceholder config.storage.secureLinkSecret then
    failure .InvalidInput
      (ascii ("auth.jwtSecret and storage.secureLinkSecret still hold the development " ++
        "placeholders this repository ships: set JWT_SECRET and FILE_SECURE_LINK_SECRET " ++
        "to secrets of your own outside development"))
  if config.database.password.isEmpty then
    failure .InvalidInput (ascii "database.password is required outside development")
  if config.mail.transport = .Log then
    failure .InvalidInput
      (ascii ("mail.transport \"log\" is a development affordance and writes reset links into " ++
        "the log: set MAIL_TRANSPORT to smtp, or to none if this deployment sends no " ++
        "mail at all"))
  if !config.mail.enabled && config.auth.requireVerifiedEmail then
    failure .InvalidInput
      (ascii ("auth.requireVerifiedEmail cannot be true while mail.transport is \"none\": " ++
        "nothing would ever deliver the verification link, so no account could sign in"))

def validate (crypto : Crypto) (config : AppConfig) : VoidResult := do
  if config.server.port = 0 then
    failure .InvalidInput (ascii "server.port must be non-zero")
  if config.server.adminEnabled ∧ config.server.adminPort = config.server.port then
    failure .InvalidInput
      (ascii ("server.adminPort must differ from server.port: the admin surface is separated " ++
        "by the listener a request arrives on"))
  if config.server.adminEnabled ∧ config.server.adminPort = 0 then
    failure .InvalidInput
      (ascii "server.adminPort must be non-zero when the admin surface is enabled")
  if config.database.name.isEmpty || config.database.user.isEmpty then
    failure .InvalidInput (ascii "database.name and database.user are required")
  if config.updates.fullDownloadThresholdRatio ≤ 0 ∨
      1 < config.updates.fullDownloadThresholdRatio then
    failure .InvalidInput (ascii "updates.fullDownloadThresholdRatio must be within (0, 1]")
  if config.uploads.defaultQuotaBytes ≤ 0 then
    failure .InvalidInput (ascii "uploads.defaultQuotaBytes must be positive")
  if config.uploads.maxBlobBytes ≤ 0 ∨ config.uploads.maxChunkBytes ≤ 0 then
    failure .InvalidInput
      (ascii "uploads.maxBlobBytes and uploads.maxChunkBytes must be positive")
  if config.uploads.maxBlobBytes < config.uploads.maxChunkBytes then
    failure .InvalidInput
      (ascii ("uploads.maxChunkBytes cannot exceed uploads.maxBlobBytes: a chunk is part of " ++
        "a file"))
  if config.server.maxDocumentBytes ≤ 0 ∨ config.server.maxAnonymousBodyBytes ≤ 0 then
    failure .InvalidInput
      (ascii "server.maxDocumentBytes and server.maxAnonymousBodyBytes must be positive")
  if config.server.maxDocumentBytes < config.server.maxAnonymousBodyBytes then
    failure .InvalidInput
      (ascii ("server.maxAnonymousBodyBytes cannot exceed server.maxDocumentBytes: it is the " ++
        "tighter of the two"))
  if config.rateLimit.authAttempts = 0 ∨ config.rateLimit.authWindowSeconds = 0 ∨
      config.rateLimit.accountRequests = 0 ∨ config.rateLimit.accountWindowSeconds = 0 then
    failure .InvalidInput (ascii "every rateLimit value must be positive")
  if config.mail.enabled then
    if config.mail.linkBaseUrl.isEmpty then
      failure .InvalidInput
        (ascii ("mail.linkBaseUrl is required when mail is enabled: a verification link with " ++
          "no origin is not a link"))
    if config.mail.sendAttempts = 0 ∨ config.mail.sendWindowSeconds = 0 ∨
        config.mail.timeoutSeconds = 0 then
      failure .InvalidInput
        (ascii ("mail.sendAttempts, mail.sendWindowSeconds and mail.timeoutSeconds must be " ++
          "positive"))
  if config.mail.transport = .Smtp ∧
      (config.mail.host.isEmpty || config.mail.fromAddress.isEmpty) then
    failure .InvalidInput
      (ascii ("mail.host and mail.fromAddress are required when mail.transport is smtp: set " ++
        "SMTP_HOST and MAIL_FROM_ADDRESS"))
  if !config.launcherReleases.publicKey.isEmpty then
    match validateP256PublicKey crypto config.launcherReleases.publicKey with
    | .error e =>
        failure .InvalidInput (ascii "launcherReleases.publicKey is not usable: " ++ e.detail)
    | .ok () => pure ()
    if config.launcherReleases.root.isEmpty || config.launcherReleases.publicBaseUrl.isEmpty then
      failure .InvalidInput
        (ascii ("launcherReleases.root and launcherReleases.publicBaseUrl are required when a " ++
          "release signing key is configured"))
  if config.uploads.sessionTtlSeconds = 0 ∨ config.uploads.maxOpenSessionsPerUser ≤ 0 then
    failure .InvalidInput
      (ascii ("uploads.sessionTtlSeconds and uploads.maxOpenSessionsPerUser must be positive"))
  if config.environment ≠ ascii "development" then
    config.validateDeployed

/-- `AppConfig::parse`. -/
def parse (jsoncpp : JsonCpp) (crypto : Crypto) (json : Bytes) (lookup : EnvLookup) :
    Except LogicError (Result AppConfig) :=
  match interpolateEnv lookup json with
  | .error e => .ok (.error e)
  | .ok text =>
      match jsoncpp.parse text with
      | none =>
          .ok (failure .InvalidInput
            (ascii "invalid configuration JSON: " ++ jsoncpp.parseErrors text))
      | some root =>
          if !JsonValue.isObject root then
            .ok (failure .InvalidInput (ascii "configuration root must be a JSON object"))
          else
            match readConfig jsoncpp root with
            | .error thrown => .error thrown
            | .ok (.error e) => .ok (.error e)
            | .ok (.ok config) => .ok ((config.validate crypto).map (fun () => config))

end AppConfig

end Launcher
