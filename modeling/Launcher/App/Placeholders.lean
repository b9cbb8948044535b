import Launcher.App.Values

set_option autoImplicit false

/-! # What an environment variable can change

A placeholder between quotation marks is the value of a string field. `configured_value`: when
the variable is set to the text of a JSON string, the field is that string and nothing else
depends on it. A text with a quotation mark in it ends the string instead, and what follows is
read as more of the document (`quotation_mark_alters_another_key`). -/

namespace Launcher

open Lib

/-! ## The place of a string -/

theorem member_object_split (members members' : List (Bytes × Json)) (k : Bytes) (j : Json)
    (key : Bytes) :
    JsonValue.member (.object (members ++ (k, j) :: members')) key =
      (((members'.reverse.find? (fun m => m.1 == key)).or
        (if k = key then some (k, j)
         else members.reverse.find? (fun m => m.1 == key))).map Prod.snd).getD .null := by
  simp only [JsonValue.member, List.reverse_append, List.reverse_cons, List.append_assoc,
    List.find?_append, List.cons_append, List.nil_append, List.find?_cons]
  split <;> simp_all

theorem isMember_object_split (members members' : List (Bytes × Json)) (k : Bytes) (j j' : Json)
    (key : Bytes) :
    JsonValue.isMember (.object (members ++ (k, j) :: members')) key =
      JsonValue.isMember (.object (members ++ (k, j') :: members')) key := by
  simp [JsonValue.isMember]

/-- What a place makes of a key: nothing depends on the string that is put in, or it is put in
below this key and nowhere else. -/
theorem place_varies {raw : UInt8 → Bool} {pre post : Bytes} {C : Json → Json}
    (h : Json.Place raw pre post C) (key : Bytes) :
    (∀ s s', JsonValue.member (C (.string s)) key = JsonValue.member (C (.string s')) key) ∨
      ∃ pre' post' D, Json.Place raw pre' post' D ∧
        ∀ j j', Varies key (D j) (D j') (C j) (C j') := by
  induction h with
  | here => exact Or.inl (fun _ _ => rfl)
  | space _ _ _ ih => exact ih
  | element _ _ _ _ => exact Or.inl (fun _ _ => rfl)
  | @member ms ms' m pre post D hkey hkeys hkeys' h h' inner _ =>
      -- the last member with the key counts
      cases hlater : (ms'.map Json.Member.pair).reverse.find? (fun m => m.1 == key) with
      | some later =>
          refine Or.inl (fun s s' => ?_)
          rw [member_object_split, member_object_split, hlater]
          rfl
      | none =>
          by_cases hm : m.key = key
          · subst hm
            refine Or.inr ⟨pre, post, D, inner, fun j j' => ?_⟩
            refine ⟨fun k => isMember_object_split _ _ _ _ _ _, fun k hk => ?_, ?_, ?_, ?_⟩
            · rw [member_object_split, member_object_split, if_neg hk.symm, if_neg hk.symm]
            · rw [member_object_split, hlater, if_pos rfl]
              rfl
            · rw [member_object_split, hlater, if_pos rfl]
              rfl
            · simp [JsonValue.isMember]
          · refine Or.inl (fun s s' => ?_)
            rw [member_object_split, member_object_split, if_neg hm, if_neg hm]

/-- The place of the value at a key of an object. -/
theorem place_varies_key {raw : UInt8 → Bool} {pre post : Bytes} {C : Json → Json}
    (h : Json.Place raw pre post C) {key : Bytes} (hkey : ∀ j, JsonValue.member (C j) key = j)
    (j j' : Json) : Varies key j j' (C j) (C j') := by
  rcases place_varies h key with hsame | ⟨pre', post', D, _, hvaries⟩
  · have hstrings := hsame [] [0]
    rw [hkey, hkey] at hstrings
    cases hstrings
  · have hD : ∀ j, D j = j := fun j => (hvaries j j).here.symm.trans (hkey j)
    have hvaries' := hvaries j j'
    rw [hD, hD] at hvaries'
    exact hvaries'

/-- The place of the value at a key of a section. -/
theorem place_varies_section {raw : UInt8 → Bool} {pre post : Bytes} {C : Json → Json}
    (h : Json.Place raw pre post C) {name key : Bytes}
    (hkey : ∀ j, JsonValue.member (JsonValue.member (C j) name) key = j) (j j' : Json) :
    ∃ node node', Varies name node node' (C j) (C j') ∧ Varies key j j' node node' := by
  rcases place_varies h name with hsame | ⟨pre', post', D, hplace, hvaries⟩
  · have hstrings := congrArg (fun node => JsonValue.member node key) (hsame [] [0])
    simp only [hkey] at hstrings
    cases hstrings
  · have hD : ∀ j, JsonValue.member (D j) key = j := fun j => by
      rw [← (hvaries j j).here]
      exact hkey j
    exact ⟨D j, D j', hvaries j j', place_varies_key hplace hD j j'⟩

/-! ## Reading twice -/

section

variable {jsoncpp : JsonCpp} {field : StringField} {raw : UInt8 → Bool} {pre post s s' : Bytes}
  {C : Json → Json} {c c' : AppConfig}

theorem readConfig_set (h : Json.Place raw pre post C) (hfield : ∀ j, field.valueIn (C j) = j)
    (hread : readConfig jsoncpp (C (.string s)) = .ok (.ok c))
    (hread' : readConfig jsoncpp (C (.string s')) = .ok (.ok c')) : c' = field.set s' c := by
  rcases hpath : field.path with ⟨section?, key⟩
  unfold StringField.valueIn at hfield
  rw [hpath] at hfield
  cases section? with
  | none =>
      have hvaries := place_varies_key h hfield (.string s) (.string s')
      have hkey : key ∉ stringSections ++ plainSections := by
        cases field <;> cases hpath <;> decide
      rw [← field.putTop_eq_set hpath]
      exact readConfig_putTop hvaries hkey hread hread'
  | some name =>
      obtain ⟨node, node', hvaries, hnode⟩ :=
        place_varies_section h hfield (.string s) (.string s')
      have hname : name ∉ plainSections := by
        cases field <;> cases hpath <;> decide
      rw [← field.put_eq_set hpath]
      exact readConfig_put hvaries hnode hname hread hread'

theorem transportName_of_parse {name : Bytes} {transport : MailTransport}
    (h : parseMailTransport name = some transport) : transportName transport = name := by
  unfold parseMailTransport at h
  split_ifs at h with hsmtp hlog hnone <;> cases h
  · exact hsmtp.symm
  · exact hlog.symm
  · exact hnone.symm

theorem securityName_of_parse {name : Bytes} {security : MailSecurity}
    (h : parseMailSecurity name = some security) : securityName security = name := by
  unfold parseMailSecurity at h
  split_ifs at h with hnone hstarttls htls <;> cases h
  · exact hnone.symm
  · exact hstarttls.symm
  · exact htls.symm

/-- **The string is in the field.** -/
theorem readConfig_get (h : Json.Place raw pre post C) (hfield : ∀ j, field.valueIn (C j) = j)
    (hread : readConfig jsoncpp (C (.string s)) = .ok (.ok c)) : field.get c = s := by
  have hself : c = field.set s c := readConfig_set h hfield hread hread
  -- the two names of the mail are parsed first
  have hmail : readMail (JsonValue.member (C (.string s)) (ascii "mail")) = .ok (.ok c.mail) :=
    (readConfig_ok hread).2.2.2.2.2.2.2.2.2.2.2.2.1
  obtain ⟨transport, security, htransport, hparse, hsecurity, hparse', _⟩ := readMail_ok hmail
  cases field with
  | mailTransport =>
      obtain ⟨node, node', hvaries, hnode⟩ := place_varies_section h hfield (.string s) (.string s)
      rw [hvaries.here, readString, hnode.readMember_here] at htransport
      cases htransport
      exact transportName_of_parse hparse
  | mailSecurity =>
      obtain ⟨node, node', hvaries, hnode⟩ := place_varies_section h hfield (.string s) (.string s)
      rw [hvaries.here, readString, hnode.readMember_here] at hsecurity
      cases hsecurity
      exact securityName_of_parse hparse'
  | _ => exact (congrArg (StringField.get _) hself).trans rfl

end

/-! ## Documents -/

/-- The environment with the variable set. -/
def EnvLookup.set (lookup : EnvLookup) (name value : Bytes) : EnvLookup :=
  Function.update lookup name (some value)

/-- A document in which the value of the field is the placeholder in quotation marks, and no
other placeholder names its variable. The others are expanded, and what they make of the document
has a value in this place. -/
structure FieldDocument (lookup : EnvLookup) (field : StringField) (p : Placeholder) where
  before : Bytes
  after : Bytes
  expandedBefore : Bytes
  expandedAfter : Bytes
  filled : Json → Json
  before_expands : interpolateEnv lookup before = .ok expandedBefore
  after_expands : interpolateEnv lookup after = .ok expandedAfter
  before_silent : p.name ∉ namedVariables before
  after_silent : p.name ∉ namedVariables after
  place : Json.Place Json.notDelimiter expandedBefore expandedAfter filled
  value_of_field : ∀ j, field.valueIn (filled j) = j

namespace FieldDocument

variable {lookup : EnvLookup} {field : StringField} {p : Placeholder}
  (document : FieldDocument lookup field p)

def text : Bytes :=
  document.before ++ (Json.quote :: (p.text ++ (Json.quote :: document.after)))

/-- The document with a value for the variable. -/
def expanded (value : Bytes) : Bytes :=
  document.expandedBefore ++ (Json.quote :: (value ++ [Json.quote])) ++ document.expandedAfter

theorem interpolateEnv_silent {text output value : Bytes} (h : p.name ∉ namedVariables text)
    (hexpands : interpolateEnv lookup text = .ok output) :
    interpolateEnv (lookup.set p.name value) text = .ok output := by
  rw [← hexpands]
  refine interpolateEnv_congr text (fun name hname => ?_)
  have hne : name ≠ p.name := by
    rintro rfl
    exact h hname
  exact Function.update_of_ne hne _ _

/-- A quotation mark is no part of a placeholder. -/
theorem interpolateEnv_quote (lookup : EnvLookup) (rest : Bytes) :
    interpolateEnv lookup (Json.quote :: rest) =
      (interpolateEnv lookup rest).map (fun tail => Json.quote :: tail) := by
  have hquote : interpolateEnv lookup [Json.quote] = .ok [Json.quote] :=
    interpolateEnv_plain (cut?_eq_none_of_head (by decide))
  exact interpolateEnv_append hquote (Apart.pair (fun h => by cases h))

theorem interpolateEnv_text (value : Bytes) :
    interpolateEnv (lookup.set p.name value) document.text = .ok (document.expanded value) := by
  have hbefore : interpolateEnv (lookup.set p.name value) document.before =
      .ok document.expandedBefore :=
    interpolateEnv_silent document.before_silent document.before_expands
  have hafter : interpolateEnv (lookup.set p.name value) document.after =
      .ok document.expandedAfter :=
    interpolateEnv_silent document.after_silent document.after_expands
  have hvalue : lookup.set p.name value p.name = some value := Function.update_self _ _ _
  rw [text, interpolateEnv_append hbefore (Apart.pair (fun _ => by simp [Json.quote])),
    interpolateEnv_quote, p.interpolateEnv_text hvalue, interpolateEnv_quote, hafter]
  simp [Except.map, expanded]

variable {jsoncpp : JsonCpp} {crypto : Crypto} {value s : Bytes} {config : AppConfig}

/-- A configuration that was parsed is one that was read, with the string in its place. -/
theorem read_of_parse (hreads : jsoncpp.ReadsOrRefuses)
    (hvalue : Json.Chars Json.notDelimiter value s)
    (hparse : AppConfig.parse jsoncpp crypto document.text (lookup.set p.name value) =
      .ok (.ok config)) :
    readConfig jsoncpp (document.filled (.string s)) = .ok (.ok config) := by
  have hdenotes : Json.Denotes Json.notDelimiter (document.expanded value)
      (document.filled (.string s)) := document.place.denotes (Json.Denotes.string hvalue)
  rcases hreads.parse _ _ hdenotes with hnone | hsome
  · rw [AppConfig.parse, document.interpolateEnv_text] at hparse
    simp only [hnone, failure] at hparse
    cases hparse
  · exact (AppConfig.parse_ok (document.interpolateEnv_text value) hsome hparse).1

end FieldDocument

/-- A text without quotation marks and backslashes stands for itself. -/
theorem chars_of_notDelimiter {value : Bytes} (h : ∀ c ∈ value, Json.notDelimiter c = true) :
    Json.Chars Json.notDelimiter value value := by
  refine Json.Chars.self (fun c hc => ?_)
  have hdelimiter := h c hc
  simp only [Json.notDelimiter, Bool.and_eq_true, bne_iff_ne] at hdelimiter
  exact ⟨h c hc, hdelimiter⟩

/-- **What an environment variable can change.** Whatever text of a JSON string the variable is
set to, and so whatever text without quotation marks and backslashes: if the document is accepted
at all, the field is the string, and all other fields are as with any other such text. -/
theorem configured_value {jsoncpp : JsonCpp} (hreads : jsoncpp.ReadsOrRefuses) (crypto : Crypto)
    {lookup : EnvLookup} {field : StringField} {p : Placeholder}
    (document : FieldDocument lookup field p) {value s : Bytes} {config : AppConfig}
    (hvalue : Json.Chars Json.notDelimiter value s)
    (hparse : AppConfig.parse jsoncpp crypto document.text (lookup.set p.name value) =
      .ok (.ok config)) :
    field.get config = s ∧
      ((∀ c ∈ value, Json.notDelimiter c = true) → field.get config = value) ∧
      ∀ value' s' config', Json.Chars Json.notDelimiter value' s' →
        AppConfig.parse jsoncpp crypto document.text (lookup.set p.name value') =
          .ok (.ok config') →
        config' = field.set s' config := by
  have hread := document.read_of_parse hreads hvalue hparse
  have hget : field.get config = s :=
    readConfig_get document.place document.value_of_field hread
  refine ⟨hget, fun hplain => ?_, fun value' s' config' hvalue' hparse' => ?_⟩
  · have hstring := Json.denotes_unique (Json.Denotes.string hvalue)
      (Json.Denotes.string (chars_of_notDelimiter hplain))
    rw [hget]
    exact Json.string.inj hstring
  · exact readConfig_set document.place document.value_of_field hread
      (document.read_of_parse hreads hvalue' hparse')

/-! ## The level of the log

`{"logging":{"directory":"/var/log","level":"${LOG_LEVEL:-info}"}}`. -/

namespace Demo

def logLevel : Placeholder where
  name := ascii "LOG_LEVEL"
  fallback := some (ascii "info")
  name_ne_nil := by decide
  name_whole := by decide +kernel
  name_closed := by decide +kernel
  fallback_closed := by decide +kernel

/-- A member whose key and string are written as they are. -/
def stringMember (key value : Bytes) : Json.Member where
  before := []
  keyText := key
  key := key
  after := []
  valueText := Json.quote :: (value ++ [Json.quote])
  value := .string value

theorem stringMember_keyed {key : Bytes} (h : ∀ c ∈ key, Json.notDelimiter c = true)
    (value : Bytes) : (stringMember key value).Keyed Json.notDelimiter :=
  ⟨Json.Space.nil, chars_of_notDelimiter h, Json.Space.nil⟩

def levelBefore : Bytes := ascii "\x7b\"logging\":\x7b\"directory\":\"/var/log\",\"level\":"

def levelAfter : Bytes := ascii "\x7d\x7d"

def levelFilled (j : Json) : Json :=
  .object [(ascii "logging",
    .object [(ascii "directory", .string (ascii "/var/log")), (ascii "level", j)])]

theorem level_place : Json.Place Json.notDelimiter levelBefore levelAfter levelFilled := by
  have hnone : ∀ m ∈ ([] : List Json.Member), m.Keyed Json.notDelimiter :=
    fun m hm => (List.not_mem_nil hm).elim
  have hnone' : ∀ m ∈ ([] : List Json.Member),
      Json.Denotes Json.notDelimiter m.valueText m.value := fun m hm => (List.not_mem_nil hm).elim
  have hdirectory : ∀ m ∈ [stringMember (ascii "directory") (ascii "/var/log")],
      m.Keyed Json.notDelimiter ∧ Json.Denotes Json.notDelimiter m.valueText m.value := by
    intro m hm
    rw [List.mem_singleton.mp hm]
    exact ⟨stringMember_keyed (List.all_eq_true.mp (by decide)) _,
      Json.Denotes.string (chars_of_notDelimiter (List.all_eq_true.mp (by decide)))⟩
  have hlevel := @Json.Place.member _ _ _ _ _ _ _
    (@stringMember_keyed (ascii "level") (List.all_eq_true.mp (by decide)) [])
    (fun m hm => (hdirectory m hm).1) hnone (fun m hm => (hdirectory m hm).2) hnone' .here
  exact @Json.Place.member _ _ _ _ _ _ _
    (@stringMember_keyed (ascii "logging") (List.all_eq_true.mp (by decide)) [])
    hnone hnone hnone' hnone' hlevel

def levelDocument : FieldDocument (fun _ => none) .loggingLevel logLevel where
  before := levelBefore
  after := levelAfter
  expandedBefore := levelBefore
  expandedAfter := levelAfter
  filled := levelFilled
  before_expands := interpolateEnv_plain (by decide +kernel)
  after_expands := interpolateEnv_plain (by decide +kernel)
  before_silent := by decide +kernel
  after_silent := by decide +kernel
  place := level_place
  value_of_field := fun _ => rfl

/-- Nothing asks it: the document has no key. -/
def crypto : Crypto where
  base642bin := fun _ => none
  d2iPubkey := fun _ => false
  isEc := fun _ => false
  keyBits := fun _ => 0
  groupName := fun _ => none
  digestVerifyInit := fun _ => false
  digestVerify := fun _ _ _ => false

/-- What the document is parsed to when the variable has the value. -/
def parseLevel (jsoncpp : JsonCpp) (value : Bytes) : Except LogicError (Result AppConfig) :=
  AppConfig.parse jsoncpp crypto levelDocument.text
    (EnvLookup.set (fun _ => none) logLevel.name value)

def loggingConfig (level directory : Bytes) : AppConfig :=
  { logging := { level := level, directory := directory } }

theorem parseLevel_plain :
    parseLevel lenientJson (ascii "debug") =
        .ok (.ok (loggingConfig (ascii "debug") (ascii "/var/log"))) ∧
      parseLevel lenientJson (ascii "warn") =
        .ok (.ok (loggingConfig (ascii "warn") (ascii "/var/log"))) := by
  decide +kernel

end Demo

open Demo in
theorem configured_value_level :
    StringField.loggingLevel.get (loggingConfig (ascii "debug") (ascii "/var/log")) =
        ascii "debug" ∧
      loggingConfig (ascii "warn") (ascii "/var/log") =
        StringField.loggingLevel.set (ascii "warn")
          (loggingConfig (ascii "debug") (ascii "/var/log")) := by
  have hvalue := configured_value lenientJson_reads crypto levelDocument
    (chars_of_notDelimiter (by decide +kernel)) parseLevel_plain.1
  exact ⟨hvalue.1, hvalue.2.2 _ _ _ (chars_of_notDelimiter (by decide +kernel))
    parseLevel_plain.2⟩

open Demo in
/-- **A quotation mark ends the string**: what follows it in the value is another directory for
the log, and the level is only what is before it. -/
theorem quotation_mark_alters_another_key :
    let value := ascii "debug\",\"directory\":\"/tmp"
    let config := loggingConfig (ascii "debug") (ascii "/var/log")
    let altered := loggingConfig (ascii "debug") (ascii "/tmp")
    parseLevel referenceJson (ascii "debug") = .ok (.ok config) ∧
      parseLevel referenceJson value = .ok (.ok altered) ∧
      StringField.loggingLevel.get altered ≠ value ∧
      altered.logging.directory ≠ config.logging.directory := by
  decide +kernel

end Launcher
