import Launcher.App.Fields

set_option autoImplicit false

/-! # Two configurations that differ in one string

The root is read as its sections are (`readConfig_putTop`, `readConfig_put`). A `StringField` is
a setting that is written as a string; its `set` is the one place where two configurations
differ that were read from documents with another string there. -/

namespace Launcher

open Lib

/-! ## The root -/

section

variable {jsoncpp : JsonCpp} {root : Json} {c : AppConfig}

theorem readConfig_ok (h : readConfig jsoncpp root = .ok (.ok c)) :
    let config : AppConfig := {}
    let node := fun key : String => JsonValue.member root (ascii key)
    readString root (ascii "environment") config.environment = .ok c.environment ∧
    readString root (ascii "migrationsDirectory") config.migrationsDirectory =
      .ok c.migrationsDirectory ∧
    readServer (node "server") = .ok c.server ∧
    readSecurity (node "security") = .ok c.security ∧
    readDatabase (node "database") = .ok c.database ∧
    readLogging (node "logging") = .ok c.logging ∧
    readStorage (node "storage") = .ok c.storage ∧
    readMedia (node "media") = .ok c.media ∧
    readLauncherReleases (node "launcherReleases") = .ok c.launcherReleases ∧
    readRetention (node "retention") = .ok c.retention ∧
    readCrashReports (node "crashReports") = .ok c.crashReports ∧
    readAuth (node "auth") = .ok c.auth ∧
    readMail (node "mail") = .ok (.ok c.mail) ∧
    readRateLimit (node "rateLimit") = .ok c.rateLimit ∧
    readUpdates jsoncpp (node "updates") = .ok c.updates ∧
    readUploads (node "uploads") = .ok c.uploads := by
  unfold readConfig at h
  obtain ⟨environment, henvironment, h⟩ := Reading.bind_ok h
  obtain ⟨migrationsDirectory, hmigrationsDirectory, h⟩ := Reading.bind_ok h
  obtain ⟨server, hserver, h⟩ := Reading.bind_ok h
  obtain ⟨security, hsecurity, h⟩ := Reading.bind_ok h
  obtain ⟨database, hdatabase, h⟩ := Reading.bind_ok h
  obtain ⟨logging, hlogging, h⟩ := Reading.bind_ok h
  obtain ⟨storage, hstorage, h⟩ := Reading.bind_ok h
  obtain ⟨media, hmedia, h⟩ := Reading.bind_ok h
  obtain ⟨launcherReleases, hlauncherReleases, h⟩ := Reading.bind_ok h
  obtain ⟨retention, hretention, h⟩ := Reading.bind_ok h
  obtain ⟨crashReports, hcrashReports, h⟩ := Reading.bind_ok h
  obtain ⟨auth, hauth, h⟩ := Reading.bind_ok h
  obtain ⟨mail, hmail, h⟩ := Reading.bind_ok h
  obtain ⟨rateLimit, hrateLimit, h⟩ := Reading.bind_ok h
  obtain ⟨updates, hupdates, h⟩ := Reading.bind_ok h
  obtain ⟨uploads, huploads, h⟩ := Reading.bind_ok h
  cases h
  exact ⟨Reading.lift_ok henvironment, Reading.lift_ok hmigrationsDirectory,
    Reading.lift_ok hserver, Reading.lift_ok hsecurity, Reading.lift_ok hdatabase,
    Reading.lift_ok hlogging, Reading.lift_ok hstorage, Reading.lift_ok hmedia,
    Reading.lift_ok hlauncherReleases, Reading.lift_ok hretention,
    Reading.lift_ok hcrashReports, Reading.lift_ok hauth, hmail, Reading.lift_ok hrateLimit,
    Reading.lift_ok hupdates, Reading.lift_ok huploads⟩

/-- What is parsed has been read from the document and found valid. -/
theorem AppConfig.parse_ok {crypto : Crypto} {lookup : EnvLookup} {json text : Bytes}
    (htext : interpolateEnv lookup json = .ok text) (hroot : jsoncpp.parse text = some root)
    (h : AppConfig.parse jsoncpp crypto json lookup = .ok (.ok c)) :
    readConfig jsoncpp root = .ok (.ok c) ∧ c.validate crypto = .ok () := by
  rw [AppConfig.parse, htext] at h
  simp only [hroot] at h
  split at h
  · cases h
  · cases hread : readConfig jsoncpp root with
    | error thrown =>
        rw [hread] at h
        cases h
    | ok outcome =>
        rw [hread] at h
        cases outcome with
        | error e => cases h
        | ok config =>
            cases hvalid : config.validate crypto with
            | error e =>
                simp only [hvalid] at h
                cases h
            | ok u =>
                simp only [hvalid] at h
                cases h
                exact ⟨rfl, hvalid⟩

end

/-- The sections with strings, and those without. -/
def stringSections : List Bytes :=
  [ascii "server", ascii "database", ascii "logging", ascii "storage", ascii "media",
    ascii "launcherReleases", ascii "auth", ascii "mail"]

def plainSections : List Bytes :=
  [ascii "security", ascii "retention", ascii "crashReports", ascii "rateLimit", ascii "updates",
    ascii "uploads"]

/-- The field of a key in the root. -/
def AppConfig.putTop (c : AppConfig) (key value : Bytes) : AppConfig :=
  { c with
    environment := if ascii "environment" = key then value else c.environment
    migrationsDirectory :=
      if ascii "migrationsDirectory" = key then value else c.migrationsDirectory }

/-- The field of a key in a section. -/
def AppConfig.put (c : AppConfig) (name key value : Bytes) : AppConfig :=
  { c with
    server := if ascii "server" = name then c.server.put key value else c.server
    database := if ascii "database" = name then c.database.put key value else c.database
    logging := if ascii "logging" = name then c.logging.put key value else c.logging
    storage := if ascii "storage" = name then c.storage.put key value else c.storage
    media := if ascii "media" = name then c.media.put key value else c.media
    launcherReleases :=
      if ascii "launcherReleases" = name then c.launcherReleases.put key value
      else c.launcherReleases
    auth := if ascii "auth" = name then c.auth.put key value else c.auth
    mail := if ascii "mail" = name then c.mail.put key value else c.mail }

section

variable {ε α : Type} {key : Bytes} {j j' : Json} {node node' : Json}

/-- Another section is read from the same value. -/
theorem Varies.member_eq {read : Json → Except ε α} {k : Bytes} {a a' : α}
    (h : Varies key j j' node node') (hkey : k ≠ key)
    (hread : read (JsonValue.member node k) = .ok a)
    (hread' : read (JsonValue.member node' k) = .ok a') : a' = a := by
  rw [h.other k hkey] at hread'
  exact Except.ok.inj (hread'.symm.trans hread)

/-- The section of the key is read from the two values. -/
theorem Varies.section_eq {read : Json → Except ε α} {k : Bytes} {a a' b : α}
    (h : Varies key j j' node node') (hput : read j = .ok a → read j' = .ok a' → a' = b)
    (hread : read (JsonValue.member node k) = .ok a)
    (hread' : read (JsonValue.member node' k) = .ok a') : a' = if k = key then b else a := by
  by_cases hkey : k = key
  · subst hkey
    rw [h.here] at hread
    rw [h.here'] at hread'
    rw [if_pos rfl]
    exact hput hread hread'
  · rw [if_neg hkey]
    exact h.member_eq hkey hread hread'

/-- What has a member is an object. -/
theorem object_of_member {s : Bytes} (h : JsonValue.member node key = .string s) :
    ∃ members, node = .object members := by
  cases node with
  | object members => exact ⟨members, rfl⟩
  | _ => cases h

end

section

variable {jsoncpp : JsonCpp} {key s s' : Bytes} {root root' : Json} {c c' : AppConfig}

/-- A string of the root. -/
theorem readConfig_putTop (hvaries : Varies key (.string s) (.string s') root root')
    (hkey : key ∉ stringSections ++ plainSections) (h : readConfig jsoncpp root = .ok (.ok c))
    (h' : readConfig jsoncpp root' = .ok (.ok c')) : c' = c.putTop key s' := by
  obtain ⟨henvironment, hmigrationsDirectory, hserver, hsecurity, hdatabase, hlogging, hstorage,
    hmedia, hlauncherReleases, hretention, hcrashReports, hauth, hmail, hrateLimit, hupdates,
    huploads⟩ := readConfig_ok h
  obtain ⟨henvironment', hmigrationsDirectory', hserver', hsecurity', hdatabase', hlogging',
    hstorage', hmedia', hlauncherReleases', hretention', hcrashReports', hauth', hmail',
    hrateLimit', hupdates', huploads'⟩ := readConfig_ok h'
  have hne : ∀ k ∈ stringSections ++ plainSections, k ≠ key := by
    rintro k hk rfl
    exact hkey hk
  simp only [stringSections, plainSections, List.cons_append, List.nil_append,
    List.forall_mem_cons] at hne
  obtain ⟨hs, hd, hl, hst, hme, hlr, ha, hma, hse, hr, hc, hra, hu, hup, _⟩ := hne
  exact AppConfig.ext (hvaries.string_eq henvironment henvironment')
    (hvaries.string_eq hmigrationsDirectory hmigrationsDirectory')
    (hvaries.member_eq hs hserver hserver') (hvaries.member_eq hse hsecurity hsecurity')
    (hvaries.member_eq hd hdatabase hdatabase') (hvaries.member_eq hl hlogging hlogging')
    (hvaries.member_eq hst hstorage hstorage') (hvaries.member_eq hme hmedia hmedia')
    (hvaries.member_eq hlr hlauncherReleases hlauncherReleases')
    (hvaries.member_eq ha hauth hauth')
    (Except.ok.inj (hvaries.member_eq hma hmail hmail'))
    (hvaries.member_eq hra hrateLimit hrateLimit') (hvaries.member_eq hu hupdates hupdates')
    (hvaries.member_eq hup huploads huploads') (hvaries.member_eq hr hretention hretention')
    (hvaries.member_eq hc hcrashReports hcrashReports')

/-- A string of a section. -/
theorem readConfig_put {name : Bytes} {node node' : Json}
    (hvaries : Varies name node node' root root')
    (hnode : Varies key (.string s) (.string s') node node') (hname : name ∉ plainSections)
    (h : readConfig jsoncpp root = .ok (.ok c)) (h' : readConfig jsoncpp root' = .ok (.ok c')) :
    c' = c.put name key s' := by
  obtain ⟨henvironment, hmigrationsDirectory, hserver, hsecurity, hdatabase, hlogging, hstorage,
    hmedia, hlauncherReleases, hretention, hcrashReports, hauth, hmail, hrateLimit, hupdates,
    huploads⟩ := readConfig_ok h
  obtain ⟨henvironment', hmigrationsDirectory', hserver', hsecurity', hdatabase', hlogging',
    hstorage', hmedia', hlauncherReleases', hretention', hcrashReports', hauth', hmail',
    hrateLimit', hupdates', huploads'⟩ := readConfig_ok h'
  have hne : ∀ k ∈ plainSections, k ≠ name := by
    rintro k hk rfl
    exact hname hk
  simp only [plainSections, List.forall_mem_cons] at hne
  obtain ⟨hse, hr, hc, hra, hu, hup, _⟩ := hne
  obtain ⟨members, rfl⟩ := object_of_member hnode.here
  obtain ⟨members', rfl⟩ := object_of_member hnode.here'
  have hmailPut : c'.mail = if ascii "mail" = name then c.mail.put key s' else c.mail := by
    have hsection := hvaries.section_eq (b := .ok (c.mail.put key s'))
      (fun hread hread' => congrArg Except.ok (readMail_put hnode hread hread')) hmail hmail'
    split_ifs at hsection ⊢ <;> exact Except.ok.inj hsection
  exact AppConfig.ext (hvaries.read_eq rfl rfl henvironment henvironment')
    (hvaries.read_eq rfl rfl hmigrationsDirectory hmigrationsDirectory')
    (hvaries.section_eq (readServer_put hnode) hserver hserver')
    (hvaries.member_eq hse hsecurity hsecurity')
    (hvaries.section_eq (readDatabase_put hnode) hdatabase hdatabase')
    (hvaries.section_eq (readLogging_put hnode) hlogging hlogging')
    (hvaries.section_eq (readStorage_put hnode) hstorage hstorage')
    (hvaries.section_eq (readMedia_put hnode) hmedia hmedia')
    (hvaries.section_eq (readLauncherReleases_put hnode) hlauncherReleases hlauncherReleases')
    (hvaries.section_eq (readAuth_put hnode) hauth hauth') hmailPut
    (hvaries.member_eq hra hrateLimit hrateLimit') (hvaries.member_eq hu hupdates hupdates')
    (hvaries.member_eq hup huploads huploads') (hvaries.member_eq hr hretention hretention')
    (hvaries.member_eq hc hcrashReports hcrashReports')

end

/-! ## The string fields -/

def transportName : MailTransport → Bytes
  | .Smtp => ascii "smtp"
  | .Log => ascii "log"
  | .None => ascii "none"

def securityName : MailSecurity → Bytes
  | .None => ascii "none"
  | .StartTls => ascii "starttls"
  | .Tls => ascii "tls"

/-- The settings that are strings in a document. -/
inductive StringField
  | environment
  | migrationsDirectory
  | serverListenAddress
  | serverAdminListenAddress
  | databaseHost
  | databaseName
  | databaseUser
  | databasePassword
  | loggingLevel
  | loggingDirectory
  | storageBlobRoot
  | storagePublicBaseUrl
  | storageSecureLinkSecret
  | mediaRoot
  | mediaPublicBaseUrl
  | launcherReleasesRoot
  | launcherReleasesPublicBaseUrl
  | launcherReleasesPublicKey
  | authJwtSecret
  | authIssuer
  | mailTransport
  | mailHost
  | mailUsername
  | mailPassword
  | mailSecurity
  | mailFromAddress
  | mailFromName
  | mailLinkBaseUrl
  | mailProductName
  deriving DecidableEq, Repr

namespace StringField

/-- The section, if there is one, and the key. -/
def path : StringField → Option Bytes × Bytes
  | .environment => (none, ascii "environment")
  | .migrationsDirectory => (none, ascii "migrationsDirectory")
  | .serverListenAddress => (some (ascii "server"), ascii "listenAddress")
  | .serverAdminListenAddress => (some (ascii "server"), ascii "adminListenAddress")
  | .databaseHost => (some (ascii "database"), ascii "host")
  | .databaseName => (some (ascii "database"), ascii "name")
  | .databaseUser => (some (ascii "database"), ascii "user")
  | .databasePassword => (some (ascii "database"), ascii "password")
  | .loggingLevel => (some (ascii "logging"), ascii "level")
  | .loggingDirectory => (some (ascii "logging"), ascii "directory")
  | .storageBlobRoot => (some (ascii "storage"), ascii "blobRoot")
  | .storagePublicBaseUrl => (some (ascii "storage"), ascii "publicBaseUrl")
  | .storageSecureLinkSecret => (some (ascii "storage"), ascii "secureLinkSecret")
  | .mediaRoot => (some (ascii "media"), ascii "root")
  | .mediaPublicBaseUrl => (some (ascii "media"), ascii "publicBaseUrl")
  | .launcherReleasesRoot => (some (ascii "launcherReleases"), ascii "root")
  | .launcherReleasesPublicBaseUrl => (some (ascii "launcherReleases"), ascii "publicBaseUrl")
  | .launcherReleasesPublicKey => (some (ascii "launcherReleases"), ascii "publicKey")
  | .authJwtSecret => (some (ascii "auth"), ascii "jwtSecret")
  | .authIssuer => (some (ascii "auth"), ascii "issuer")
  | .mailTransport => (some (ascii "mail"), ascii "transport")
  | .mailHost => (some (ascii "mail"), ascii "host")
  | .mailUsername => (some (ascii "mail"), ascii "username")
  | .mailPassword => (some (ascii "mail"), ascii "password")
  | .mailSecurity => (some (ascii "mail"), ascii "security")
  | .mailFromAddress => (some (ascii "mail"), ascii "fromAddress")
  | .mailFromName => (some (ascii "mail"), ascii "fromName")
  | .mailLinkBaseUrl => (some (ascii "mail"), ascii "linkBaseUrl")
  | .mailProductName => (some (ascii "mail"), ascii "productName")

/-- What a document has there. -/
def valueIn (field : StringField) (root : Json) : Json :=
  match field.path with
  | (none, key) => JsonValue.member root key
  | (some name, key) => JsonValue.member (JsonValue.member root name) key

def get (field : StringField) (config : AppConfig) : Bytes :=
  match field with
  | .environment => config.environment
  | .migrationsDirectory => config.migrationsDirectory
  | .serverListenAddress => config.server.listenAddress
  | .serverAdminListenAddress => config.server.adminListenAddress
  | .databaseHost => config.database.host
  | .databaseName => config.database.name
  | .databaseUser => config.database.user
  | .databasePassword => config.database.password
  | .loggingLevel => config.logging.level
  | .loggingDirectory => config.logging.directory
  | .storageBlobRoot => config.storage.blobRoot
  | .storagePublicBaseUrl => config.storage.publicBaseUrl
  | .storageSecureLinkSecret => config.storage.secureLinkSecret
  | .mediaRoot => config.media.root
  | .mediaPublicBaseUrl => config.media.publicBaseUrl
  | .launcherReleasesRoot => config.launcherReleases.root
  | .launcherReleasesPublicBaseUrl => config.launcherReleases.publicBaseUrl
  | .launcherReleasesPublicKey => config.launcherReleases.publicKey
  | .authJwtSecret => config.auth.jwtSecret
  | .authIssuer => config.auth.issuer
  | .mailTransport => transportName config.mail.transport
  | .mailHost => config.mail.host
  | .mailUsername => config.mail.username
  | .mailPassword => config.mail.password
  | .mailSecurity => securityName config.mail.security
  | .mailFromAddress => config.mail.fromAddress
  | .mailFromName => config.mail.fromName
  | .mailLinkBaseUrl => config.mail.linkBaseUrl
  | .mailProductName => config.mail.productName

/-- The configuration with another value in this field; the transport and the security of the
mail are what the value names. -/
def set (field : StringField) (value : Bytes) (config : AppConfig) : AppConfig :=
  match field with
  | .environment => { config with environment := value }
  | .migrationsDirectory => { config with migrationsDirectory := value }
  | .serverListenAddress => { config with server.listenAddress := value }
  | .serverAdminListenAddress => { config with server.adminListenAddress := value }
  | .databaseHost => { config with database.host := value }
  | .databaseName => { config with database.name := value }
  | .databaseUser => { config with database.user := value }
  | .databasePassword => { config with database.password := value }
  | .loggingLevel => { config with logging.level := value }
  | .loggingDirectory => { config with logging.directory := value }
  | .storageBlobRoot => { config with storage.blobRoot := value }
  | .storagePublicBaseUrl => { config with storage.publicBaseUrl := value }
  | .storageSecureLinkSecret => { config with storage.secureLinkSecret := value }
  | .mediaRoot => { config with media.root := value }
  | .mediaPublicBaseUrl => { config with media.publicBaseUrl := value }
  | .launcherReleasesRoot => { config with launcherReleases.root := value }
  | .launcherReleasesPublicBaseUrl => { config with launcherReleases.publicBaseUrl := value }
  | .launcherReleasesPublicKey => { config with launcherReleases.publicKey := value }
  | .authJwtSecret => { config with auth.jwtSecret := value }
  | .authIssuer => { config with auth.issuer := value }
  | .mailTransport =>
      { config with mail.transport := (parseMailTransport value).getD config.mail.transport }
  | .mailHost => { config with mail.host := value }
  | .mailUsername => { config with mail.username := value }
  | .mailPassword => { config with mail.password := value }
  | .mailSecurity =>
      { config with mail.security := (parseMailSecurity value).getD config.mail.security }
  | .mailFromAddress => { config with mail.fromAddress := value }
  | .mailFromName => { config with mail.fromName := value }
  | .mailLinkBaseUrl => { config with mail.linkBaseUrl := value }
  | .mailProductName => { config with mail.productName := value }

theorem putTop_eq_set {field : StringField} {key : Bytes} (h : field.path = (none, key))
    (value : Bytes) (config : AppConfig) : config.putTop key value = field.set value config := by
  cases field <;> cases h <;> rfl

theorem put_eq_set {field : StringField} {name key : Bytes} (h : field.path = (some name, key))
    (value : Bytes) (config : AppConfig) : config.put name key value = field.set value config := by
  cases field <;> cases h <;> rfl

end StringField

end Launcher
