import Launcher.App.Config

set_option autoImplicit false

/-! # Reading two documents that differ in one string

A reading that succeeds is a reading of every key (`readServer_ok` and so on). Two nodes that
differ only in the string at one key (`Varies`) are read alike everywhere else, so that two
sections differ in the field of that key (`readServer_put` and so on), and so do two
configurations (`readConfig_set`). -/

namespace Launcher

open Lib

/-! ## Two nodes -/

/-- The nodes are alike but for the key, where the one has `j` and the other has `j'`. -/
structure Varies (key : Bytes) (j j' : Json) (node node' : Json) : Prop where
  isMember : ∀ k, JsonValue.isMember node' k = JsonValue.isMember node k
  other : ∀ k, k ≠ key → JsonValue.member node' k = JsonValue.member node k
  here : JsonValue.member node key = j
  here' : JsonValue.member node' key = j'
  present : JsonValue.isMember node key = .ok true

section

variable {α : Type} {pick : Json → Option (Except LogicError α)} {key k : Bytes} {j j' : Json}
  {node node' : Json} {a a' fallback : α}

theorem Varies.readMember_ne (h : Varies key j j' node node') (hkey : k ≠ key) :
    readMember pick node' k fallback = readMember pick node k fallback := by
  simp only [readMember, h.isMember, h.other k hkey]

theorem Varies.readMember_here (h : Varies key j j' node node') :
    readMember pick node key fallback = (pick j).getD (.ok fallback) := by
  simp only [readMember, h.present, h.here]
  cases pick j <;> rfl

theorem Varies.readMember_here' (h : Varies key j j' node node') :
    readMember pick node' key fallback = (pick j').getD (.ok fallback) := by
  simp only [readMember, h.isMember, h.present, h.here']
  cases pick j' <;> rfl

/-- Whoever takes neither of the two values reads the same from both nodes. -/
theorem Varies.read_eq (h : Varies key j j' node node') (hpick : pick j = none)
    (hpick' : pick j' = none) (hread : readMember pick node k fallback = .ok a)
    (hread' : readMember pick node' k fallback = .ok a') : a' = a := by
  by_cases hkey : k = key
  · subst hkey
    rw [h.readMember_here, hpick] at hread
    rw [h.readMember_here', hpick'] at hread'
    exact Except.ok.inj (hread'.symm.trans hread)
  · rw [h.readMember_ne hkey] at hread'
    exact Except.ok.inj (hread'.symm.trans hread)

end

section

variable {key s s' fallback a a' : Bytes} {node node' : Json}

/-- A string is the one at the key, or the same in both nodes. -/
theorem Varies.string_eq (h : Varies key (.string s) (.string s') node node') {k : Bytes}
    (hread : readString node k fallback = .ok a) (hread' : readString node' k fallback = .ok a') :
    a' = if k = key then s' else a := by
  by_cases hkey : k = key
  · subst hkey
    rw [readString, h.readMember_here'] at hread'
    rw [if_pos rfl]
    exact (Except.ok.inj hread').symm
  · rw [readString, h.readMember_ne hkey] at hread'
    rw [if_neg hkey]
    exact Except.ok.inj (hread'.symm.trans hread)

/-- The node with the one string in both places. -/
theorem Varies.left (h : Varies key (.string s) (.string s') node node') :
    Varies key (.string s) (.string s) node node where
  isMember := fun _ => rfl
  other := fun _ _ => rfl
  here := h.here
  here' := h.here
  present := h.present

end

/-! ## Readings that succeed -/

theorem Reading.bind_ok {α β : Type} {x : Reading α} {f : α → Reading β} {b : β}
    (h : (x >>= f) = .ok (.ok b)) : ∃ a, x = .ok (.ok a) ∧ f a = .ok (.ok b) := by
  obtain ⟨outcome, hx, hf⟩ := Launcher.bind_ok h
  cases outcome with
  | error e => cases hf
  | ok a => exact ⟨a, hx, hf⟩

theorem Reading.lift_ok {α : Type} {x : Except LogicError α} {a : α}
    (h : (liftM x : Reading α) = .ok (.ok a)) : x = .ok a := by
  cases x with
  | error thrown => cases h
  | ok b =>
      cases h
      rfl

section

variable {node : Json}

theorem readServer_ok {c : ServerConfig} (h : readServer node = .ok c) :
    let config : ServerConfig := {}
    readString node (ascii "listenAddress") config.listenAddress = .ok c.listenAddress ∧
    readInt UInt16.ofInt node (ascii "port") config.port = .ok c.port ∧
    readString node (ascii "adminListenAddress") config.adminListenAddress =
      .ok c.adminListenAddress ∧
    readInt UInt16.ofInt node (ascii "adminPort") config.adminPort = .ok c.adminPort ∧
    readBool node (ascii "adminEnabled") config.adminEnabled = .ok c.adminEnabled ∧
    readInt UInt64.ofInt node (ascii "threadCount") config.threadCount = .ok c.threadCount ∧
    readInt Int64.ofInt node (ascii "maxDocumentBytes") config.maxDocumentBytes =
      .ok c.maxDocumentBytes ∧
    readInt Int64.ofInt node (ascii "maxAnonymousBodyBytes") config.maxAnonymousBodyBytes =
      .ok c.maxAnonymousBodyBytes ∧
    readStrings node (ascii "trustedProxies") config.trustedProxies = .ok c.trustedProxies := by
  unfold readServer at h
  obtain ⟨listenAddress, hlistenAddress, h⟩ := bind_ok h
  obtain ⟨port, hport, h⟩ := bind_ok h
  obtain ⟨adminListenAddress, hadminListenAddress, h⟩ := bind_ok h
  obtain ⟨adminPort, hadminPort, h⟩ := bind_ok h
  obtain ⟨adminEnabled, hadminEnabled, h⟩ := bind_ok h
  obtain ⟨threadCount, hthreadCount, h⟩ := bind_ok h
  obtain ⟨maxDocumentBytes, hmaxDocumentBytes, h⟩ := bind_ok h
  obtain ⟨maxAnonymousBodyBytes, hmaxAnonymousBodyBytes, h⟩ := bind_ok h
  obtain ⟨trustedProxies, htrustedProxies, h⟩ := bind_ok h
  cases h
  exact ⟨hlistenAddress, hport, hadminListenAddress, hadminPort, hadminEnabled, hthreadCount,
    hmaxDocumentBytes, hmaxAnonymousBodyBytes, htrustedProxies⟩

theorem readSecurity_ok {c : SecurityConfig} (h : readSecurity node = .ok c) :
    let config : SecurityConfig := {}
    readBool node (ascii "hsts") config.hsts = .ok c.hsts ∧
    readInt UInt32.ofInt node (ascii "hstsMaxAgeSeconds") config.hstsMaxAgeSeconds =
      .ok c.hstsMaxAgeSeconds := by
  unfold readSecurity at h
  obtain ⟨hsts, hhsts, h⟩ := bind_ok h
  obtain ⟨hstsMaxAgeSeconds, hhstsMaxAgeSeconds, h⟩ := bind_ok h
  cases h
  exact ⟨hhsts, hhstsMaxAgeSeconds⟩

theorem readDatabase_ok {c : DatabaseConfig} (h : readDatabase node = .ok c) :
    let config : DatabaseConfig := {}
    readString node (ascii "host") config.host = .ok c.host ∧
    readInt UInt16.ofInt node (ascii "port") config.port = .ok c.port ∧
    readString node (ascii "name") config.name = .ok c.name ∧
    readString node (ascii "user") config.user = .ok c.user ∧
    readString node (ascii "password") config.password = .ok c.password ∧
    readInt UInt64.ofInt node (ascii "connectionCount") config.connectionCount =
      .ok c.connectionCount := by
  unfold readDatabase at h
  obtain ⟨host, hhost, h⟩ := bind_ok h
  obtain ⟨port, hport, h⟩ := bind_ok h
  obtain ⟨name, hname, h⟩ := bind_ok h
  obtain ⟨user, huser, h⟩ := bind_ok h
  obtain ⟨password, hpassword, h⟩ := bind_ok h
  obtain ⟨connectionCount, hconnectionCount, h⟩ := bind_ok h
  cases h
  exact ⟨hhost, hport, hname, huser, hpassword, hconnectionCount⟩

theorem readLogging_ok {c : LoggingConfig} (h : readLogging node = .ok c) :
    let config : LoggingConfig := {}
    readString node (ascii "level") config.level = .ok c.level ∧
    readString node (ascii "directory") config.directory = .ok c.directory ∧
    readBool node (ascii "json") config.json = .ok c.json := by
  unfold readLogging at h
  obtain ⟨level, hlevel, h⟩ := bind_ok h
  obtain ⟨directory, hdirectory, h⟩ := bind_ok h
  obtain ⟨json, hjson, h⟩ := bind_ok h
  cases h
  exact ⟨hlevel, hdirectory, hjson⟩

theorem readStorage_ok {c : StorageConfig} (h : readStorage node = .ok c) :
    let config : StorageConfig := {}
    readString node (ascii "blobRoot") config.blobRoot = .ok c.blobRoot ∧
    readString node (ascii "publicBaseUrl") config.publicBaseUrl = .ok c.publicBaseUrl ∧
    readString node (ascii "secureLinkSecret") config.secureLinkSecret = .ok c.secureLinkSecret ∧
    readInt UInt32.ofInt node (ascii "signedUrlTtlSeconds") config.signedUrlTtlSeconds =
      .ok c.signedUrlTtlSeconds := by
  unfold readStorage at h
  obtain ⟨blobRoot, hblobRoot, h⟩ := bind_ok h
  obtain ⟨publicBaseUrl, hpublicBaseUrl, h⟩ := bind_ok h
  obtain ⟨secureLinkSecret, hsecureLinkSecret, h⟩ := bind_ok h
  obtain ⟨signedUrlTtlSeconds, hsignedUrlTtlSeconds, h⟩ := bind_ok h
  cases h
  exact ⟨hblobRoot, hpublicBaseUrl, hsecureLinkSecret, hsignedUrlTtlSeconds⟩

theorem readMedia_ok {c : MediaConfig} (h : readMedia node = .ok c) :
    let config : MediaConfig := {}
    readString node (ascii "root") config.root = .ok c.root ∧
    readString node (ascii "publicBaseUrl") config.publicBaseUrl = .ok c.publicBaseUrl ∧
    readInt Int64.ofInt node (ascii "maxBytes") config.maxBytes = .ok c.maxBytes ∧
    readInt Int64.ofInt node (ascii "maxVideoBytes") config.maxVideoBytes =
      .ok c.maxVideoBytes := by
  unfold readMedia at h
  obtain ⟨root, hroot, h⟩ := bind_ok h
  obtain ⟨publicBaseUrl, hpublicBaseUrl, h⟩ := bind_ok h
  obtain ⟨maxBytes, hmaxBytes, h⟩ := bind_ok h
  obtain ⟨maxVideoBytes, hmaxVideoBytes, h⟩ := bind_ok h
  cases h
  exact ⟨hroot, hpublicBaseUrl, hmaxBytes, hmaxVideoBytes⟩

theorem readLauncherReleases_ok {c : LauncherReleaseConfig}
    (h : readLauncherReleases node = .ok c) :
    let config : LauncherReleaseConfig := {}
    readString node (ascii "root") config.root = .ok c.root ∧
    readString node (ascii "publicBaseUrl") config.publicBaseUrl = .ok c.publicBaseUrl ∧
    readString node (ascii "publicKey") config.publicKey = .ok c.publicKey := by
  unfold readLauncherReleases at h
  obtain ⟨root, hroot, h⟩ := bind_ok h
  obtain ⟨publicBaseUrl, hpublicBaseUrl, h⟩ := bind_ok h
  obtain ⟨publicKey, hpublicKey, h⟩ := bind_ok h
  cases h
  exact ⟨hroot, hpublicBaseUrl, hpublicKey⟩

theorem readRetention_ok {c : RetentionConfig} (h : readRetention node = .ok c) :
    let config : RetentionConfig := {}
    readInt UInt32.ofInt node (ascii "blobGraceSeconds") config.blobGraceSeconds =
      .ok c.blobGraceSeconds ∧
    readInt UInt32.ofInt node (ascii "sweepIntervalSeconds") config.sweepIntervalSeconds =
      .ok c.sweepIntervalSeconds ∧
    readInt Int32.ofInt node (ascii "sweepBatchSize") config.sweepBatchSize =
      .ok c.sweepBatchSize := by
  unfold readRetention at h
  obtain ⟨blobGraceSeconds, hblobGraceSeconds, h⟩ := bind_ok h
  obtain ⟨sweepIntervalSeconds, hsweepIntervalSeconds, h⟩ := bind_ok h
  obtain ⟨sweepBatchSize, hsweepBatchSize, h⟩ := bind_ok h
  cases h
  exact ⟨hblobGraceSeconds, hsweepIntervalSeconds, hsweepBatchSize⟩

theorem readCrashReports_ok {c : CrashReportConfig} (h : readCrashReports node = .ok c) :
    let config : CrashReportConfig := {}
    readBool node (ascii "enabled") config.enabled = .ok c.enabled ∧
    readInt UInt32.ofInt node (ascii "submitAttempts") config.submitAttempts =
      .ok c.submitAttempts ∧
    readInt UInt32.ofInt node (ascii "submitWindowSeconds") config.submitWindowSeconds =
      .ok c.submitWindowSeconds ∧
    readInt UInt32.ofInt node (ascii "retentionSeconds") config.retentionSeconds =
      .ok c.retentionSeconds ∧
    readInt UInt32.ofInt node (ascii "sweepIntervalSeconds") config.sweepIntervalSeconds =
      .ok c.sweepIntervalSeconds := by
  unfold readCrashReports at h
  obtain ⟨enabled, henabled, h⟩ := bind_ok h
  obtain ⟨submitAttempts, hsubmitAttempts, h⟩ := bind_ok h
  obtain ⟨submitWindowSeconds, hsubmitWindowSeconds, h⟩ := bind_ok h
  obtain ⟨retentionSeconds, hretentionSeconds, h⟩ := bind_ok h
  obtain ⟨sweepIntervalSeconds, hsweepIntervalSeconds, h⟩ := bind_ok h
  cases h
  exact ⟨henabled, hsubmitAttempts, hsubmitWindowSeconds, hretentionSeconds, hsweepIntervalSeconds⟩

theorem readAuth_ok {c : AuthConfig} (h : readAuth node = .ok c) :
    let config : AuthConfig := {}
    readString node (ascii "jwtSecret") config.jwtSecret = .ok c.jwtSecret ∧
    readString node (ascii "issuer") config.issuer = .ok c.issuer ∧
    readInt UInt32.ofInt node (ascii "accessTokenTtlSeconds") config.accessTokenTtlSeconds =
      .ok c.accessTokenTtlSeconds ∧
    readInt UInt32.ofInt node (ascii "refreshTokenTtlSeconds") config.refreshTokenTtlSeconds =
      .ok c.refreshTokenTtlSeconds ∧
    readInt UInt32.ofInt node (ascii "emailVerificationTtlSeconds")
      config.emailVerificationTtlSeconds = .ok c.emailVerificationTtlSeconds ∧
    readInt UInt32.ofInt node (ascii "passwordResetTtlSeconds") config.passwordResetTtlSeconds =
      .ok c.passwordResetTtlSeconds ∧
    readBool node (ascii "requireVerifiedEmail") config.requireVerifiedEmail =
      .ok c.requireVerifiedEmail ∧
    readInt UInt64.ofInt node (ascii "argon2OperationsLimit") config.argon2OperationsLimit =
      .ok c.argon2OperationsLimit ∧
    readInt UInt64.ofInt node (ascii "argon2MemoryLimitBytes") config.argon2MemoryLimitBytes =
      .ok c.argon2MemoryLimitBytes := by
  unfold readAuth at h
  obtain ⟨jwtSecret, hjwtSecret, h⟩ := bind_ok h
  obtain ⟨issuer, hissuer, h⟩ := bind_ok h
  obtain ⟨accessTokenTtlSeconds, haccessTokenTtlSeconds, h⟩ := bind_ok h
  obtain ⟨refreshTokenTtlSeconds, hrefreshTokenTtlSeconds, h⟩ := bind_ok h
  obtain ⟨emailVerificationTtlSeconds, hemailVerificationTtlSeconds, h⟩ := bind_ok h
  obtain ⟨passwordResetTtlSeconds, hpasswordResetTtlSeconds, h⟩ := bind_ok h
  obtain ⟨requireVerifiedEmail, hrequireVerifiedEmail, h⟩ := bind_ok h
  obtain ⟨argon2OperationsLimit, hargon2OperationsLimit, h⟩ := bind_ok h
  obtain ⟨argon2MemoryLimitBytes, hargon2MemoryLimitBytes, h⟩ := bind_ok h
  cases h
  exact ⟨hjwtSecret, hissuer, haccessTokenTtlSeconds, hrefreshTokenTtlSeconds,
    hemailVerificationTtlSeconds, hpasswordResetTtlSeconds, hrequireVerifiedEmail,
    hargon2OperationsLimit, hargon2MemoryLimitBytes⟩

theorem readRelay_ok {transport : MailTransport} {security : MailSecurity} {c : MailConfig}
    (h : readRelay transport security node = .ok c) :
    let config : MailConfig := {}
    transport = c.transport ∧
    security = c.security ∧
    readString node (ascii "host") config.host = .ok c.host ∧
    readInt UInt16.ofInt node (ascii "port") config.port = .ok c.port ∧
    readString node (ascii "username") config.username = .ok c.username ∧
    readString node (ascii "password") config.password = .ok c.password ∧
    readString node (ascii "fromAddress") config.fromAddress = .ok c.fromAddress ∧
    readString node (ascii "fromName") config.fromName = .ok c.fromName ∧
    readString node (ascii "linkBaseUrl") config.linkBaseUrl = .ok c.linkBaseUrl ∧
    readString node (ascii "productName") config.productName = .ok c.productName ∧
    readInt UInt32.ofInt node (ascii "timeoutSeconds") config.timeoutSeconds =
      .ok c.timeoutSeconds ∧
    readInt UInt32.ofInt node (ascii "sendAttempts") config.sendAttempts = .ok c.sendAttempts ∧
    readInt UInt32.ofInt node (ascii "sendWindowSeconds") config.sendWindowSeconds =
      .ok c.sendWindowSeconds := by
  unfold readRelay at h
  obtain ⟨host, hhost, h⟩ := bind_ok h
  obtain ⟨port, hport, h⟩ := bind_ok h
  obtain ⟨username, husername, h⟩ := bind_ok h
  obtain ⟨password, hpassword, h⟩ := bind_ok h
  obtain ⟨fromAddress, hfromAddress, h⟩ := bind_ok h
  obtain ⟨fromName, hfromName, h⟩ := bind_ok h
  obtain ⟨linkBaseUrl, hlinkBaseUrl, h⟩ := bind_ok h
  obtain ⟨productName, hproductName, h⟩ := bind_ok h
  obtain ⟨timeoutSeconds, htimeoutSeconds, h⟩ := bind_ok h
  obtain ⟨sendAttempts, hsendAttempts, h⟩ := bind_ok h
  obtain ⟨sendWindowSeconds, hsendWindowSeconds, h⟩ := bind_ok h
  cases h
  exact ⟨rfl, rfl, hhost, hport, husername, hpassword, hfromAddress, hfromName, hlinkBaseUrl,
    hproductName, htimeoutSeconds, hsendAttempts, hsendWindowSeconds⟩

theorem readTransport_ok {name : Bytes} {transport : MailTransport}
    (h : readTransport name = .ok (.ok transport)) : parseMailTransport name = some transport := by
  unfold readTransport at h
  cases hparse : parseMailTransport name with
  | none =>
      rw [hparse] at h
      cases h
  | some parsed =>
      rw [hparse] at h
      cases h
      rfl

theorem readMailSecurity_ok {name : Bytes} {security : MailSecurity}
    (h : readMailSecurity name = .ok (.ok security)) :
    parseMailSecurity name = some security := by
  unfold readMailSecurity at h
  cases hparse : parseMailSecurity name with
  | none =>
      rw [hparse] at h
      cases h
  | some parsed =>
      rw [hparse] at h
      cases h
      rfl

theorem readMail_ok {c : MailConfig} (h : readMail node = .ok (.ok c)) :
    ∃ transportName securityName,
      readString node (ascii "transport") (ascii "log") = .ok transportName ∧
      parseMailTransport transportName = some c.transport ∧
      readString node (ascii "security") (ascii "starttls") = .ok securityName ∧
      parseMailSecurity securityName = some c.security ∧
      readRelay c.transport c.security node = .ok c := by
  unfold readMail at h
  obtain ⟨transportName, htransportName, h⟩ := Reading.bind_ok h
  obtain ⟨transport, htransport, h⟩ := Reading.bind_ok h
  obtain ⟨securityName, hsecurityName, h⟩ := Reading.bind_ok h
  obtain ⟨security, hsecurity, h⟩ := Reading.bind_ok h
  have hrelay := Reading.lift_ok h
  obtain ⟨rfl, rfl, _⟩ := readRelay_ok hrelay
  exact ⟨transportName, securityName, Reading.lift_ok htransportName,
    readTransport_ok htransport, Reading.lift_ok hsecurityName, readMailSecurity_ok hsecurity,
    hrelay⟩

theorem readRateLimit_ok {c : RateLimitConfig} (h : readRateLimit node = .ok c) :
    let config : RateLimitConfig := {}
    readInt UInt32.ofInt node (ascii "authAttempts") config.authAttempts = .ok c.authAttempts ∧
    readInt UInt32.ofInt node (ascii "authWindowSeconds") config.authWindowSeconds =
      .ok c.authWindowSeconds ∧
    readInt UInt32.ofInt node (ascii "accountRequests") config.accountRequests =
      .ok c.accountRequests ∧
    readInt UInt32.ofInt node (ascii "accountWindowSeconds") config.accountWindowSeconds =
      .ok c.accountWindowSeconds := by
  unfold readRateLimit at h
  obtain ⟨authAttempts, hauthAttempts, h⟩ := bind_ok h
  obtain ⟨authWindowSeconds, hauthWindowSeconds, h⟩ := bind_ok h
  obtain ⟨accountRequests, haccountRequests, h⟩ := bind_ok h
  obtain ⟨accountWindowSeconds, haccountWindowSeconds, h⟩ := bind_ok h
  cases h
  exact ⟨hauthAttempts, hauthWindowSeconds, haccountRequests, haccountWindowSeconds⟩

theorem readUploads_ok {c : UploadConfig} (h : readUploads node = .ok c) :
    let config : UploadConfig := {}
    readInt Int64.ofInt node (ascii "defaultQuotaBytes") config.defaultQuotaBytes =
      .ok c.defaultQuotaBytes ∧
    readInt Int64.ofInt node (ascii "maxBlobBytes") config.maxBlobBytes = .ok c.maxBlobBytes ∧
    readInt Int64.ofInt node (ascii "maxChunkBytes") config.maxChunkBytes = .ok c.maxChunkBytes ∧
    readInt UInt32.ofInt node (ascii "sessionTtlSeconds") config.sessionTtlSeconds =
      .ok c.sessionTtlSeconds ∧
    readInt Int64.ofInt node (ascii "maxOpenSessionsPerUser") config.maxOpenSessionsPerUser =
      .ok c.maxOpenSessionsPerUser ∧
    readInt UInt32.ofInt node (ascii "sweepIntervalSeconds") config.sweepIntervalSeconds =
      .ok c.sweepIntervalSeconds := by
  unfold readUploads at h
  obtain ⟨defaultQuotaBytes, hdefaultQuotaBytes, h⟩ := bind_ok h
  obtain ⟨maxBlobBytes, hmaxBlobBytes, h⟩ := bind_ok h
  obtain ⟨maxChunkBytes, hmaxChunkBytes, h⟩ := bind_ok h
  obtain ⟨sessionTtlSeconds, hsessionTtlSeconds, h⟩ := bind_ok h
  obtain ⟨maxOpenSessionsPerUser, hmaxOpenSessionsPerUser, h⟩ := bind_ok h
  obtain ⟨sweepIntervalSeconds, hsweepIntervalSeconds, h⟩ := bind_ok h
  cases h
  exact ⟨hdefaultQuotaBytes, hmaxBlobBytes, hmaxChunkBytes, hsessionTtlSeconds,
    hmaxOpenSessionsPerUser, hsweepIntervalSeconds⟩

end

/-! ## The field of a key -/

def ServerConfig.put (c : ServerConfig) (key value : Bytes) : ServerConfig :=
  { c with
    listenAddress := if ascii "listenAddress" = key then value else c.listenAddress
    adminListenAddress := if ascii "adminListenAddress" = key then value else c.adminListenAddress }

def DatabaseConfig.put (c : DatabaseConfig) (key value : Bytes) : DatabaseConfig :=
  { c with
    host := if ascii "host" = key then value else c.host
    name := if ascii "name" = key then value else c.name
    user := if ascii "user" = key then value else c.user
    password := if ascii "password" = key then value else c.password }

def LoggingConfig.put (c : LoggingConfig) (key value : Bytes) : LoggingConfig :=
  { c with
    level := if ascii "level" = key then value else c.level
    directory := if ascii "directory" = key then value else c.directory }

def StorageConfig.put (c : StorageConfig) (key value : Bytes) : StorageConfig :=
  { c with
    blobRoot := if ascii "blobRoot" = key then value else c.blobRoot
    publicBaseUrl := if ascii "publicBaseUrl" = key then value else c.publicBaseUrl
    secureLinkSecret := if ascii "secureLinkSecret" = key then value else c.secureLinkSecret }

def MediaConfig.put (c : MediaConfig) (key value : Bytes) : MediaConfig :=
  { c with
    root := if ascii "root" = key then value else c.root
    publicBaseUrl := if ascii "publicBaseUrl" = key then value else c.publicBaseUrl }

def LauncherReleaseConfig.put (c : LauncherReleaseConfig) (key value : Bytes) :
    LauncherReleaseConfig :=
  { c with
    root := if ascii "root" = key then value else c.root
    publicBaseUrl := if ascii "publicBaseUrl" = key then value else c.publicBaseUrl
    publicKey := if ascii "publicKey" = key then value else c.publicKey }

def AuthConfig.put (c : AuthConfig) (key value : Bytes) : AuthConfig :=
  { c with
    jwtSecret := if ascii "jwtSecret" = key then value else c.jwtSecret
    issuer := if ascii "issuer" = key then value else c.issuer }

/-- A name that is neither of the known ones is not written. -/
def MailConfig.put (c : MailConfig) (key value : Bytes) : MailConfig :=
  { c with
    transport :=
      if ascii "transport" = key then (parseMailTransport value).getD c.transport else c.transport
    security :=
      if ascii "security" = key then (parseMailSecurity value).getD c.security else c.security
    host := if ascii "host" = key then value else c.host
    username := if ascii "username" = key then value else c.username
    password := if ascii "password" = key then value else c.password
    fromAddress := if ascii "fromAddress" = key then value else c.fromAddress
    fromName := if ascii "fromName" = key then value else c.fromName
    linkBaseUrl := if ascii "linkBaseUrl" = key then value else c.linkBaseUrl
    productName := if ascii "productName" = key then value else c.productName }

section

variable {key s s' : Bytes} {node node' : Json}
  (hvaries : Varies key (.string s) (.string s') node node')

include hvaries

theorem readServer_put {c c' : ServerConfig} (h : readServer node = .ok c)
    (h' : readServer node' = .ok c') : c' = c.put key s' := by
  obtain ⟨hlistenAddress, hport, hadminListenAddress, hadminPort, hadminEnabled, hthreadCount,
    hmaxDocumentBytes, hmaxAnonymousBodyBytes, htrustedProxies⟩ := readServer_ok h
  obtain ⟨hlistenAddress', hport', hadminListenAddress', hadminPort', hadminEnabled', hthreadCount',
    hmaxDocumentBytes', hmaxAnonymousBodyBytes', htrustedProxies'⟩ := readServer_ok h'
  exact ServerConfig.ext (hvaries.string_eq hlistenAddress hlistenAddress')
    (hvaries.read_eq rfl rfl hport hport')
    (hvaries.string_eq hadminListenAddress hadminListenAddress')
    (hvaries.read_eq rfl rfl hadminPort hadminPort')
    (hvaries.read_eq rfl rfl hadminEnabled hadminEnabled')
    (hvaries.read_eq rfl rfl hthreadCount hthreadCount')
    (hvaries.read_eq rfl rfl hmaxDocumentBytes hmaxDocumentBytes')
    (hvaries.read_eq rfl rfl hmaxAnonymousBodyBytes hmaxAnonymousBodyBytes')
    (hvaries.read_eq rfl rfl htrustedProxies htrustedProxies')

theorem readDatabase_put {c c' : DatabaseConfig} (h : readDatabase node = .ok c)
    (h' : readDatabase node' = .ok c') : c' = c.put key s' := by
  obtain ⟨hhost, hport, hname, huser, hpassword, hconnectionCount⟩ := readDatabase_ok h
  obtain ⟨hhost', hport', hname', huser', hpassword', hconnectionCount'⟩ := readDatabase_ok h'
  exact DatabaseConfig.ext (hvaries.string_eq hhost hhost') (hvaries.read_eq rfl rfl hport hport')
    (hvaries.string_eq hname hname') (hvaries.string_eq huser huser')
    (hvaries.string_eq hpassword hpassword')
    (hvaries.read_eq rfl rfl hconnectionCount hconnectionCount')

theorem readLogging_put {c c' : LoggingConfig} (h : readLogging node = .ok c)
    (h' : readLogging node' = .ok c') : c' = c.put key s' := by
  obtain ⟨hlevel, hdirectory, hjson⟩ := readLogging_ok h
  obtain ⟨hlevel', hdirectory', hjson'⟩ := readLogging_ok h'
  exact LoggingConfig.ext (hvaries.string_eq hlevel hlevel')
    (hvaries.string_eq hdirectory hdirectory') (hvaries.read_eq rfl rfl hjson hjson')

theorem readStorage_put {c c' : StorageConfig} (h : readStorage node = .ok c)
    (h' : readStorage node' = .ok c') : c' = c.put key s' := by
  obtain ⟨hblobRoot, hpublicBaseUrl, hsecureLinkSecret, hsignedUrlTtlSeconds⟩ := readStorage_ok h
  obtain ⟨hblobRoot', hpublicBaseUrl', hsecureLinkSecret', hsignedUrlTtlSeconds'⟩ :=
    readStorage_ok h'
  exact StorageConfig.ext (hvaries.string_eq hblobRoot hblobRoot')
    (hvaries.string_eq hpublicBaseUrl hpublicBaseUrl')
    (hvaries.string_eq hsecureLinkSecret hsecureLinkSecret')
    (hvaries.read_eq rfl rfl hsignedUrlTtlSeconds hsignedUrlTtlSeconds')

theorem readMedia_put {c c' : MediaConfig} (h : readMedia node = .ok c)
    (h' : readMedia node' = .ok c') : c' = c.put key s' := by
  obtain ⟨hroot, hpublicBaseUrl, hmaxBytes, hmaxVideoBytes⟩ := readMedia_ok h
  obtain ⟨hroot', hpublicBaseUrl', hmaxBytes', hmaxVideoBytes'⟩ := readMedia_ok h'
  exact MediaConfig.ext (hvaries.string_eq hroot hroot')
    (hvaries.string_eq hpublicBaseUrl hpublicBaseUrl')
    (hvaries.read_eq rfl rfl hmaxBytes hmaxBytes')
    (hvaries.read_eq rfl rfl hmaxVideoBytes hmaxVideoBytes')

theorem readLauncherReleases_put {c c' : LauncherReleaseConfig}
    (h : readLauncherReleases node = .ok c) (h' : readLauncherReleases node' = .ok c') :
    c' = c.put key s' := by
  obtain ⟨hroot, hpublicBaseUrl, hpublicKey⟩ := readLauncherReleases_ok h
  obtain ⟨hroot', hpublicBaseUrl', hpublicKey'⟩ := readLauncherReleases_ok h'
  exact LauncherReleaseConfig.ext (hvaries.string_eq hroot hroot')
    (hvaries.string_eq hpublicBaseUrl hpublicBaseUrl') (hvaries.string_eq hpublicKey hpublicKey')

theorem readAuth_put {c c' : AuthConfig} (h : readAuth node = .ok c)
    (h' : readAuth node' = .ok c') : c' = c.put key s' := by
  obtain ⟨hjwtSecret, hissuer, haccessTokenTtlSeconds, hrefreshTokenTtlSeconds,
    hemailVerificationTtlSeconds, hpasswordResetTtlSeconds, hrequireVerifiedEmail,
    hargon2OperationsLimit, hargon2MemoryLimitBytes⟩ := readAuth_ok h
  obtain ⟨hjwtSecret', hissuer', haccessTokenTtlSeconds', hrefreshTokenTtlSeconds',
    hemailVerificationTtlSeconds', hpasswordResetTtlSeconds', hrequireVerifiedEmail',
    hargon2OperationsLimit', hargon2MemoryLimitBytes'⟩ := readAuth_ok h'
  exact AuthConfig.ext (hvaries.string_eq hjwtSecret hjwtSecret')
    (hvaries.string_eq hissuer hissuer')
    (hvaries.read_eq rfl rfl haccessTokenTtlSeconds haccessTokenTtlSeconds')
    (hvaries.read_eq rfl rfl hrefreshTokenTtlSeconds hrefreshTokenTtlSeconds')
    (hvaries.read_eq rfl rfl hemailVerificationTtlSeconds hemailVerificationTtlSeconds')
    (hvaries.read_eq rfl rfl hpasswordResetTtlSeconds hpasswordResetTtlSeconds')
    (hvaries.read_eq rfl rfl hrequireVerifiedEmail hrequireVerifiedEmail')
    (hvaries.read_eq rfl rfl hargon2OperationsLimit hargon2OperationsLimit')
    (hvaries.read_eq rfl rfl hargon2MemoryLimitBytes hargon2MemoryLimitBytes')

theorem readMail_put {c c' : MailConfig} (h : readMail node = .ok (.ok c))
    (h' : readMail node' = .ok (.ok c')) : c' = c.put key s' := by
  obtain ⟨transportName, securityName, htransportName, htransport, hsecurityName, hsecurity,
    hrelay⟩ := readMail_ok h
  obtain ⟨transportName', securityName', htransportName', htransport', hsecurityName',
    hsecurity', hrelay'⟩ := readMail_ok h'
  obtain ⟨_, _, hhost, hport, husername, hpassword, hfromAddress, hfromName, hlinkBaseUrl,
    hproductName, htimeoutSeconds, hsendAttempts, hsendWindowSeconds⟩ := readRelay_ok hrelay
  obtain ⟨_, _, hhost', hport', husername', hpassword', hfromAddress', hfromName',
    hlinkBaseUrl', hproductName', htimeoutSeconds', hsendAttempts', hsendWindowSeconds'⟩ :=
    readRelay_ok hrelay'
  -- the two names are strings like the others, and what is kept is what they were parsed to
  have hnames : c'.transport =
      if ascii "transport" = key then (parseMailTransport s').getD c.transport
      else c.transport := by
    rw [hvaries.string_eq htransportName htransportName'] at htransport'
    split_ifs at htransport' ⊢ with hkey
    · rw [htransport', Option.getD_some]
    · exact Option.some.inj (htransport'.symm.trans htransport)
  have hnames' : c'.security =
      if ascii "security" = key then (parseMailSecurity s').getD c.security else c.security := by
    rw [hvaries.string_eq hsecurityName hsecurityName'] at hsecurity'
    split_ifs at hsecurity' ⊢ with hkey
    · rw [hsecurity', Option.getD_some]
    · exact Option.some.inj (hsecurity'.symm.trans hsecurity)
  exact MailConfig.ext hnames (hvaries.string_eq hhost hhost')
    (hvaries.read_eq rfl rfl hport hport') (hvaries.string_eq husername husername')
    (hvaries.string_eq hpassword hpassword') hnames'
    (hvaries.string_eq hfromAddress hfromAddress') (hvaries.string_eq hfromName hfromName')
    (hvaries.string_eq hlinkBaseUrl hlinkBaseUrl')
    (hvaries.string_eq hproductName hproductName')
    (hvaries.read_eq rfl rfl htimeoutSeconds htimeoutSeconds')
    (hvaries.read_eq rfl rfl hsendAttempts hsendAttempts')
    (hvaries.read_eq rfl rfl hsendWindowSeconds hsendWindowSeconds')

end

end Launcher
