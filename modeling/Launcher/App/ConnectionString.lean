import Launcher.Domain.Versions
import Launcher.App.Placeholders
import Launcher.Lib.Conninfo

set_option autoImplicit false

/-! # The connection string

`DatabaseConfig::connectionString` writes the five settings of the database into one string,
which libpq takes apart again. The values are written as they are, so the grammar of the string
reads the bytes of a secret: white space ends a value, a backslash and an opening quote
disappear from it, and an empty host takes the port for its value. The keywords libpq knows are
a parameter, `known`. -/

namespace Launcher

open Lib

def DatabaseConfig.connectionString (config : DatabaseConfig) : Bytes :=
  ascii "host=" ++ config.host ++ ascii " port=" ++ decimal config.port.toNat ++
    ascii " dbname=" ++ config.name ++ ascii " user=" ++ config.user ++
    ascii " password=" ++ config.password

/-- The settings the string is meant to hold. -/
def DatabaseConfig.settings (config : DatabaseConfig) : List Conninfo.Setting :=
  [(ascii "host", config.host), (ascii "port", decimal config.port.toNat),
    (ascii "dbname", config.name), (ascii "user", config.user),
    (ascii "password", config.password)]

def connectionKeywords : List Bytes :=
  [ascii "host", ascii "port", ascii "dbname", ascii "user", ascii "password"]

theorem connectionString_eq_join (config : DatabaseConfig) :
    config.connectionString = Conninfo.join config.settings := by
  have hhost : ascii "host=" = ascii "host" ++ [Conninfo.equals] := by decide
  have hport : ascii " port=" = Conninfo.space :: ascii "port" ++ [Conninfo.equals] := by decide
  have hname : ascii " dbname=" = Conninfo.space :: ascii "dbname" ++ [Conninfo.equals] := by
    decide
  have huser : ascii " user=" = Conninfo.space :: ascii "user" ++ [Conninfo.equals] := by decide
  have hpassword : ascii " password=" = Conninfo.space :: ascii "password" ++ [Conninfo.equals] :=
    by decide
  simp [DatabaseConfig.connectionString, DatabaseConfig.settings, Conninfo.join, hhost, hport,
    hname, huser, hpassword]

theorem decimal_bare (n : Nat) : Conninfo.Bare (decimal n) := by
  have hdigit : ∀ c, isDigit c = true →
      c ≠ 0 ∧ Conninfo.isSpace c = false ∧ c ≠ Conninfo.backslash ∧ c ≠ Conninfo.quote := by
    intro c hc
    obtain ⟨hlt, heq⟩ := digit_value hc
    have hall : ∀ d < 10, UInt8.ofNat (0x30 + d) ≠ 0 ∧
        Conninfo.isSpace (UInt8.ofNat (0x30 + d)) = false ∧
        UInt8.ofNat (0x30 + d) ≠ Conninfo.backslash ∧
        UInt8.ofNat (0x30 + d) ≠ Conninfo.quote := by decide
    rw [← heq]
    exact hall _ hlt
  refine ⟨fun c hc => ?_, fun hhead => ?_⟩
  · obtain ⟨hzero, hspace, hplain, -⟩ := hdigit c (isDigit_decimal n c hc)
    exact ⟨hzero, hspace, hplain⟩
  · have hquote := isDigit_decimal n _ (List.mem_of_head? hhead)
    exact absurd hquote (by decide)

theorem ok_of_guard {p : Prop} [Decidable p] {code : ErrorCode} {detail : Bytes}
    {rest : VoidResult}
    (h : (do
      if p then failure code detail
      rest) = Except.ok ()) : ¬p ∧ rest = .ok () := by
  by_cases hp : p
  · rw [if_pos hp] at h
    cases h
  · rw [if_neg hp] at h
    exact ⟨hp, h⟩

/-- Validation asks for a database and a user. -/
theorem AppConfig.validate_database {crypto : Crypto} {config : AppConfig}
    (h : config.validate crypto = .ok ()) :
    config.database.name ≠ [] ∧ config.database.user ≠ [] := by
  unfold AppConfig.validate at h
  obtain ⟨-, h⟩ := ok_of_guard h
  obtain ⟨-, h⟩ := ok_of_guard h
  obtain ⟨-, h⟩ := ok_of_guard h
  obtain ⟨hrequired, -⟩ := ok_of_guard h
  simpa using hrequired

theorem settings_words (config : DatabaseConfig) :
    ∀ s ∈ config.settings, Conninfo.Word s.1 ∧ s.1 ∈ connectionKeywords := by
  have hwords : ∀ k ∈ connectionKeywords, Conninfo.Word k := by
    unfold Conninfo.Word
    decide +kernel
  intro s hs
  have hkeys : config.settings.map Prod.fst = connectionKeywords := rfl
  have hmem : s.1 ∈ connectionKeywords := by
    rw [← hkeys]
    exact List.mem_map_of_mem hs
  exact ⟨hwords s.1 hmem, hmem⟩

theorem literal_settings_iff (config : DatabaseConfig) :
    Conninfo.Literal config.settings ↔
      (Conninfo.Bare config.host ∧ config.host ≠ []) ∧
      (Conninfo.Bare config.name ∧ config.name ≠ []) ∧
      (Conninfo.Bare config.user ∧ config.user ≠ []) ∧ Conninfo.Bare config.password := by
  have hport : Conninfo.Bare (decimal config.port.toNat) ∧ decimal config.port.toNat ≠ [] :=
    ⟨decimal_bare _, decimal_ne_nil _⟩
  show _ ∧ _ ∧ _ ∧ (_ ∧ _) ∧ _ ↔ _
  rw [and_iff_right hport]
  rfl

/-- The string of an accepted configuration holds its five settings, and no other, exactly if
the host is not empty and libpq takes the bytes of the host, the database, the user and the
password as they are. -/
theorem connectionString_means_iff {crypto : Crypto} {known : Bytes → Bool}
    (hknown : ∀ k ∈ connectionKeywords, known k = true) {config : AppConfig}
    (hvalid : config.validate crypto = .ok ()) :
    Conninfo.Means known config.database.connectionString config.database.settings ↔
      config.database.host ≠ [] ∧ Conninfo.Bare config.database.host ∧
      Conninfo.Bare config.database.name ∧ Conninfo.Bare config.database.user ∧
      Conninfo.Bare config.database.password := by
  obtain ⟨hname, huser⟩ := AppConfig.validate_database hvalid
  have hkeys : ∀ s ∈ config.database.settings, Conninfo.Word s.1 ∧ known s.1 = true :=
    fun s hs => ⟨(settings_words _ s hs).1, hknown s.1 (settings_words _ s hs).2⟩
  have hnodup : (config.database.settings.map Prod.fst).Nodup := by
    show connectionKeywords.Nodup
    decide
  rw [connectionString_eq_join, Conninfo.join_means_iff hkeys hnodup, literal_settings_iff]
  constructor
  · rintro ⟨⟨hhost, hne⟩, ⟨hdatabase, -⟩, ⟨howner, -⟩, hpassword⟩
    exact ⟨hne, hhost, hdatabase, howner, hpassword⟩
  · rintro ⟨hne, hhost, hdatabase, howner, hpassword⟩
    exact ⟨⟨hhost, hne⟩, ⟨hdatabase, hname⟩, ⟨howner, huser⟩, hpassword⟩

namespace Demo

def knownKeyword (k : Bytes) : Bool := connectionKeywords.contains k

def databaseConfig (password : Bytes) : AppConfig :=
  { database := { host := ascii "postgres", password := password } }

end Demo

open Demo in
theorem connectionString_means_plain :
    Conninfo.Means knownKeyword (databaseConfig (ascii "s3cret'x")).database.connectionString
      (databaseConfig (ascii "s3cret'x")).database.settings := by
  have hvalid : (databaseConfig (ascii "s3cret'x")).validate crypto = .ok () := by decide +kernel
  refine (connectionString_means_iff (by decide) hvalid).mpr ?_
  unfold Conninfo.Bare
  decide +kernel

open Demo in
/-- **A password can choose the server**: what follows its first space are settings of their
own, and the last setting of the host holds. -/
theorem password_chooses_host :
    (databaseConfig (ascii "s3cret host=elsewhere")).validate crypto = .ok () ∧
    ¬ Conninfo.Means knownKeyword
      (databaseConfig (ascii "s3cret host=elsewhere")).database.connectionString
      (databaseConfig (ascii "s3cret host=elsewhere")).database.settings ∧
    ∃ read, Conninfo.parse knownKeyword
        (databaseConfig (ascii "s3cret host=elsewhere")).database.connectionString = some read ∧
      Conninfo.lookup read (ascii "host") = some (ascii "elsewhere") ∧
      Conninfo.lookup read (ascii "password") = some (ascii "s3cret") := by
  have hread : ∃ read, Conninfo.parse knownKeyword
        (databaseConfig (ascii "s3cret host=elsewhere")).database.connectionString = some read ∧
      Conninfo.lookup read (ascii "host") = some (ascii "elsewhere") ∧
      Conninfo.lookup read (ascii "password") = some (ascii "s3cret") := by
    refine ⟨[(ascii "host", ascii "postgres"), (ascii "port", ascii "5432"),
      (ascii "dbname", ascii "launcher"), (ascii "user", ascii "launcher"),
      (ascii "password", ascii "s3cret"), (ascii "host", ascii "elsewhere")], ?_, ?_, ?_⟩ <;>
      decide +kernel
  refine ⟨by decide +kernel, ?_, hread⟩
  rintro ⟨read, hparse, hlookup⟩
  obtain ⟨read', hparse', hhost, -⟩ := hread
  obtain rfl : read = read' := Option.some.inj (hparse.symm.trans hparse')
  have hmeant := hhost.symm.trans (hlookup (ascii "host"))
  exact absurd hmeant (by decide +kernel)

end Launcher
