import CcnxPacket.Config.Document
import Mathlib

/-!
# Documents that leave keys out

A document need not name every section of a configuration, nor every key of a section: what it
leaves out keeps its default, and what it says replaces just that key. The one exception is the
section of the log, which is all there but for the path of the file, or not there at all.
-/

namespace CcnxPacket.Config

open Toml

/-! ### Settings -/

/-- A section of a configuration. -/
inductive Section where
  | registry
  | limits
  | signing
  | logging
deriving DecidableEq, Repr

/-- The key of a section's table. -/
def Section.key : Section → String
  | registry => "registry"
  | limits => "limits"
  | signing => "signing"
  | logging => "logging"

/-- A key of a section with what it is set to. -/
inductive Setting where
  | duplicatePolicy (policy : DuplicatePolicy)
  | freezeAfterInit (b : Bool)
  | maxMessageSize (size : Nat)
  | embedPublicKey (b : Bool)
  | includeSigningTime (b : Bool)
  | appName (name : String)
  | logLevel (level : LogLevel)
  | logToConsole (b : Bool)
  | logToFile (b : Bool)
  | logFilePath (path : String)
  | jsonFormat (b : Bool)
deriving DecidableEq, Repr

namespace Setting

/-- The section that the key is in. -/
def inSection : Setting → Section
  | duplicatePolicy _ | freezeAfterInit _ => .registry
  | maxMessageSize _ => .limits
  | embedPublicKey _ | includeSigningTime _ => .signing
  | appName _ | logLevel _ | logToConsole _ | logToFile _ | logFilePath _ | jsonFormat _ => .logging

/-- The key in its section. -/
def key : Setting → String
  | duplicatePolicy _ => "duplicate_policy"
  | freezeAfterInit _ => "freeze_after_init"
  | maxMessageSize _ => "max_message_size"
  | embedPublicKey _ => "embed_public_key"
  | includeSigningTime _ => "include_signing_time"
  | appName _ => "app_name"
  | logLevel _ => "log_level"
  | logToConsole _ => "log_to_console"
  | logToFile _ => "log_to_file"
  | logFilePath _ => "log_file_path"
  | jsonFormat _ => "json_format"

/-- Whether a value in a document says what the key is set to. -/
def IsSaidBy : Setting → Value → Prop
  | duplicatePolicy policy, value => value = .string policy.text
  | maxMessageSize size, value => value = .integer size
  | logLevel level, value => ∃ name, value = .string name ∧ LogLevel.parse? name = some level
  | appName text, value | logFilePath text, value => value = .string text
  | freezeAfterInit b, value | embedPublicKey b, value | includeSigningTime b, value
  | logToConsole b, value | logToFile b, value | jsonFormat b, value => value = .boolean b

/-- The configuration with the key set. -/
def apply (config : Config) : Setting → Config
  | duplicatePolicy policy =>
    { config with registry := { config.registry with duplicatePolicy := policy } }
  | freezeAfterInit b => { config with registry := { config.registry with freezeAfterInit := b } }
  | maxMessageSize size => { config with limits := { config.limits with maxMessageSize := size } }
  | embedPublicKey b => { config with signing := { config.signing with embedPublicKey := b } }
  | includeSigningTime b =>
    { config with signing := { config.signing with includeSigningTime := b } }
  | appName name => { config with logging := { config.logging with appName := name } }
  | logLevel level => { config with logging := { config.logging with logLevel := level } }
  | logToConsole b => { config with logging := { config.logging with logToConsole := b } }
  | logToFile b => { config with logging := { config.logging with logToFile := b } }
  | logFilePath path => { config with logging := { config.logging with logFilePath := some path } }
  | jsonFormat b => { config with logging := { config.logging with jsonFormat := b } }

end Setting

/-- The configuration with keys set. -/
def applyAll (config : Config) (settings : List Setting) : Config :=
  settings.foldl Setting.apply config

/-- Entries of a section's table: some of its keys, each at most once and in any order. -/
inductive SaysIn (s : Section) : Entries → List Setting → Prop where
  | nil : SaysIn s [] []
  | cons (setting : Setting) (value : Value) {entries : Entries} {settings : List Setting}
      (insection : setting.inSection = s) (said : setting.IsSaidBy value)
      (fresh : entries.lookup setting.key = none) (rest : SaysIn s entries settings) :
      SaysIn s ((setting.key, value) :: entries) (setting :: settings)

/-- Entries of a document: some of the sections, each at most once and in any order. -/
inductive Says : Entries → List Setting → Prop where
  | nil : Says [] []
  | cons {s : Section} {inner entries : Entries} {settings others : List Setting}
      (inside : SaysIn s inner settings) (fresh : entries.lookup s.key = none)
      (rest : Says entries others) : Says ((s.key, .table inner) :: entries) (settings ++ others)

/-- The keys that the section of the log has to name. -/
def requiredKeys : List String :=
  ["app_name", "log_level", "log_to_console", "log_to_file", "json_format"]

/-- The document has no section for the log, or one that names every key that has to be there. -/
def LogsInFull (entries : Entries) : Prop :=
  ∀ inner, entries.lookup Section.logging.key = some (.table inner) →
    ∀ key ∈ requiredKeys, (inner.lookup key).isSome

/-! ### Fields of a section -/

section
variable {α : Type} {key : String} {entries : Entries} (place : Nat) (read : Value → Option α)

/-- A setting in front is the one that is read. -/
theorem Record.getD_cons (k : String) (value : Value) (default : α) :
    (Record.keyed ((k, value) :: entries)).getD place key read default =
      if key = k then read value else (Record.keyed entries).getD place key read default := by
  by_cases h : key = k
  · simp [Record.getD, Record.get?, h]
  · simp [Record.getD, Record.get?, List.lookup_cons, h, beq_false_of_ne h]

/-- A setting that is not there has its default. -/
theorem Record.getD_of_fresh (h : entries.lookup key = none) (default : α) :
    (Record.keyed entries).getD place key read default = some default := by
  simp [Record.getD, Record.get?, h]

/-- Where a setting is there, it does not matter that it is required. -/
theorem Record.require_of_isSome (h : (entries.lookup key).isSome) (default : α) :
    (Record.keyed entries).require place key read =
      (Record.keyed entries).getD place key read default := by
  obtain ⟨value, hvalue⟩ := Option.isSome_iff_exists.1 h
  simp [Record.require, Record.getD, Record.get?, hvalue]

/-- A required setting that is not there cannot be read. -/
theorem Record.require_of_fresh (h : entries.lookup key = none) :
    (Record.keyed entries).require place key read = none := by
  simp [Record.require, Record.get?, h]

end

/-- Reads the entries of a section's table over a configuration that says what is left out. -/
def readOver (s : Section) (config : Config) (entries : Entries) : Option Config :=
  let record := Record.keyed entries
  match s, config with
  | .registry, { registry, .. } => do
    let duplicatePolicy ← record.getD 0 "duplicate_policy" readPolicy registry.duplicatePolicy
    let freezeAfterInit ← record.getD 1 "freeze_after_init" readBool registry.freezeAfterInit
    return { config with registry := { duplicatePolicy, freezeAfterInit } }
  | .limits, { limits, .. } => do
    let maxMessageSize ← record.getD 0 "max_message_size" readSize limits.maxMessageSize
    return { config with limits := { maxMessageSize } }
  | .signing, { signing, .. } => do
    let embedPublicKey ← record.getD 0 "embed_public_key" readBool signing.embedPublicKey
    let includeSigningTime ←
      record.getD 1 "include_signing_time" readBool signing.includeSigningTime
    return { config with signing := { embedPublicKey, includeSigningTime } }
  | .logging, { logging, .. } => do
    let appName ← record.getD 0 "app_name" readString logging.appName
    let logLevel ← record.getD 1 "log_level" readLevel logging.logLevel
    let logToConsole ← record.getD 2 "log_to_console" readBool logging.logToConsole
    let logToFile ← record.getD 3 "log_to_file" readBool logging.logToFile
    let logFilePath ←
      record.getD 4 "log_file_path" (fun value => (readString value).map some) logging.logFilePath
    let jsonFormat ← record.getD 5 "json_format" readBool logging.jsonFormat
    return { config with
      logging := { appName, logLevel, logToConsole, logToFile, logFilePath, jsonFormat } }

/-- The text of a policy is read as that policy. -/
theorem readPolicy_text (policy : DuplicatePolicy) :
    readPolicy (.string policy.text) = some policy := by
  cases policy <;> rfl

theorem readSize_natural (size : Nat) : readSize (.integer size) = some size := rfl

/-- Reading an entry sets its key. -/
theorem readOver_cons {s : Section} {setting : Setting} {value : Value} {entries : Entries}
    (config : Config) (insection : setting.inSection = s) (said : setting.IsSaidBy value)
    (fresh : entries.lookup setting.key = none) :
    readOver s config ((setting.key, value) :: entries) =
      readOver s (setting.apply config) entries := by
  -- The rest does not name the key, so what the rest defaults to is what the entry says.
  subst insection
  cases setting with
  | duplicatePolicy policy =>
      obtain rfl : value = .string policy.text := said
      rw [Setting.key] at fresh
      simp [readOver, Setting.inSection, Setting.apply, Setting.key, Record.getD_cons,
        Record.getD_of_fresh _ _ fresh, readPolicy_text]
  | maxMessageSize size =>
      obtain rfl : value = .integer size := said
      rw [Setting.key] at fresh
      simp [readOver, Setting.inSection, Setting.apply, Setting.key, Record.getD_cons,
        Record.getD_of_fresh _ _ fresh, readSize_natural]
  | logLevel level =>
      obtain ⟨name, rfl, hname⟩ := said
      rw [Setting.key] at fresh
      simp [readOver, Setting.inSection, Setting.apply, Setting.key, Record.getD_cons,
        Record.getD_of_fresh _ _ fresh, readLevel, readString, hname]
  | appName text | logFilePath text =>
      obtain rfl : value = .string text := said
      rw [Setting.key] at fresh
      simp [readOver, Setting.inSection, Setting.apply, Setting.key, Record.getD_cons,
        Record.getD_of_fresh _ _ fresh, readString]
  | freezeAfterInit b | embedPublicKey b | includeSigningTime b | logToConsole b | logToFile b
  | jsonFormat b =>
      obtain rfl : value = .boolean b := said
      rw [Setting.key] at fresh
      simp [readOver, Setting.inSection, Setting.apply, Setting.key, Record.getD_cons,
        Record.getD_of_fresh _ _ fresh, readBool]

/-- The settings that a table says are those that it is read with. -/
theorem readOver_eq {s : Section} {entries : Entries} {settings : List Setting}
    (h : SaysIn s entries settings) (config : Config) :
    readOver s config entries = some (config.applyAll settings) := by
  induction h generalizing config with
  | nil => cases s <;> rfl
  | cons setting value insection said fresh rest ih =>
      rw [readOver_cons config insection said fresh, ih]
      rfl

/-! ### Sections -/

section
variable {config : Config} (inner : Entries)

theorem registry_ofValue (h : config.registry = {}) :
    RegistrySection.ofValue (.table inner) =
      (readOver .registry config inner).map (·.registry) := by
  simp [RegistrySection.ofValue, Record.ofValue?, readOver, h, Option.map_bind]

theorem limits_ofValue (h : config.limits = {}) :
    LimitsSection.ofValue (.table inner) = (readOver .limits config inner).map (·.limits) := by
  simp [LimitsSection.ofValue, Record.ofValue?, readOver, h, Option.map_bind]

theorem signing_ofValue (h : config.signing = {}) :
    SigningSection.ofValue (.table inner) = (readOver .signing config inner).map (·.signing) := by
  simp [SigningSection.ofValue, Record.ofValue?, readOver, h, Option.map_bind]

/-- The section of the log is read as the others are when nothing that it has to name is left
out. -/
theorem logging_ofValue (h : config.logging = {})
    (hfull : ∀ key ∈ requiredKeys, (inner.lookup key).isSome) :
    LoggingSection.ofValue (.table inner) = (readOver .logging config inner).map (·.logging) := by
  have hrequire {α : Type} (key : String) (hkey : key ∈ requiredKeys) (place : Nat)
      (read : Value → Option α) (default : α) :=
    Record.require_of_isSome place read (hfull key hkey) default
  simp [LoggingSection.ofValue, Record.ofValue?, readOver, Option.map_bind,
    hrequire "app_name" (by simp [requiredKeys]) 0 readString config.logging.appName,
    hrequire "log_level" (by simp [requiredKeys]) 1 readLevel config.logging.logLevel,
    hrequire "log_to_console" (by simp [requiredKeys]) 2 readBool config.logging.logToConsole,
    hrequire "log_to_file" (by simp [requiredKeys]) 3 readBool config.logging.logToFile,
    hrequire "json_format" (by simp [requiredKeys]) 5 readBool config.logging.jsonFormat, h]

/-- A logging table that lacks a required key cannot be read. -/
theorem logging_ofValue_of_missing {key : String} (hkey : key ∈ requiredKeys)
    (h : inner.lookup key = none) : LoggingSection.ofValue (.table inner) = none := by
  simp only [requiredKeys, List.mem_cons, List.not_mem_nil, or_false] at hkey
  rcases hkey with rfl | rfl | rfl | rfl | rfl <;>
    simp [LoggingSection.ofValue, Record.ofValue?, Record.require_of_fresh _ _ h]

end

/-- Two configurations have the same section. -/
def Agree (s : Section) (a b : Config) : Prop :=
  match s with
  | .registry => a.registry = b.registry
  | .limits => a.limits = b.limits
  | .signing => a.signing = b.signing
  | .logging => a.logging = b.logging

/-- Setting a key leaves the other sections alone. -/
theorem agree_apply {s : Section} {setting : Setting} (config : Config)
    (h : setting.inSection ≠ s) : Agree s (setting.apply config) config := by
  cases s <;> cases setting <;> first | rfl | exact absurd rfl h

/-- Agreement in a section passes through a third configuration. -/
theorem Agree.trans {s : Section} {a b c : Config} (hab : Agree s a b) (hbc : Agree s b c) :
    Agree s a c := by
  cases s <;> exact Eq.trans hab hbc

/-- The settings of one section leave the others as they are. -/
theorem agree_applyAll {s other : Section} {inner : Entries} {settings : List Setting}
    (h : SaysIn s inner settings) (hne : s ≠ other) (config : Config) :
    Agree other (config.applyAll settings) config := by
  induction h generalizing config with
  | nil => cases other <;> rfl
  | cons setting value insection said fresh rest ih =>
      exact (ih _).trans (agree_apply config (insection ▸ hne))

/-- The configuration with one section taken from another one. -/
def withSection (s : Section) (config source : Config) : Config :=
  match s with
  | .registry => { config with registry := source.registry }
  | .limits => { config with limits := source.limits }
  | .signing => { config with signing := source.signing }
  | .logging => { config with logging := source.logging }

/-- Setting keys of one section changes that section only. -/
theorem applyAll_eq_withSection {s : Section} {inner : Entries} {settings : List Setting}
    (h : SaysIn s inner settings) (config : Config) :
    config.applyAll settings = withSection s config (config.applyAll settings) := by
  have hother (other : Section) (hne : s ≠ other) := agree_applyAll h hne config
  generalize config.applyAll settings = result at hother
  obtain ⟨registry, limits, signing, logging⟩ := result
  cases s <;> simp only [withSection, Config.mk.injEq, true_and, and_true]
  · exact ⟨hother .limits nofun, hother .signing nofun, hother .logging nofun⟩
  · exact ⟨hother .registry nofun, hother .signing nofun, hother .logging nofun⟩
  · exact ⟨hother .registry nofun, hother .limits nofun, hother .logging nofun⟩
  · exact ⟨hother .registry nofun, hother .limits nofun, hother .signing nofun⟩

/-! ### Documents -/

/-- Reads the entries of a document over a configuration that says what is left out. -/
def readAllOver (config : Config) (entries : Entries) : Option Config := do
  return {
    registry := ← readSection entries "registry" RegistrySection.ofValue config.registry
    limits := ← readSection entries "limits" LimitsSection.ofValue config.limits
    signing := ← readSection entries "signing" SigningSection.ofValue config.signing
    logging := ← readSection entries "logging" LoggingSection.ofValue config.logging }

/-- Reading the table of a section sets the keys in it. -/
theorem readAllOver_cons {s : Section} {inner entries : Entries} {settings : List Setting}
    {config : Config} (inside : SaysIn s inner settings) (fresh : entries.lookup s.key = none)
    (hdefault : Agree s config {})
    (hfull : s = .logging → ∀ key ∈ requiredKeys, (inner.lookup key).isSome) :
    readAllOver config ((s.key, .table inner) :: entries) =
      readAllOver (config.applyAll settings) entries := by
  have hread := readOver_eq inside config
  rw [applyAll_eq_withSection inside config]
  generalize config.applyAll settings = result at hread
  cases s with
  | registry =>
      rw [Section.key] at fresh
      simp [readAllOver, readSection, Section.key, withSection, Record.getD_cons,
        Record.getD_of_fresh _ _ fresh, registry_ofValue inner hdefault, hread]
  | limits =>
      rw [Section.key] at fresh
      simp [readAllOver, readSection, Section.key, withSection, Record.getD_cons,
        Record.getD_of_fresh _ _ fresh, limits_ofValue inner hdefault, hread]
  | signing =>
      rw [Section.key] at fresh
      simp [readAllOver, readSection, Section.key, withSection, Record.getD_cons,
        Record.getD_of_fresh _ _ fresh, signing_ofValue inner hdefault, hread]
  | logging =>
      rw [Section.key] at fresh
      simp [readAllOver, readSection, Section.key, withSection, Record.getD_cons,
        Record.getD_of_fresh _ _ fresh, logging_ofValue inner hdefault (hfull rfl), hread]

/-- No two sections have the same key. -/
theorem Section.key_injective : Function.Injective Section.key := by
  intro s other h
  cases s <;> cases other <;> first | rfl | exact absurd h (by decide)

/-- What a document says replaces what a configuration says, one section after the other. -/
theorem readAllOver_eq {entries : Entries} {settings : List Setting} (h : Says entries settings)
    (hlogs : LogsInFull entries) (config : Config)
    (hdefault : ∀ s : Section, entries.lookup s.key ≠ none → Agree s config {}) :
    readAllOver config entries = some (config.applyAll settings) := by
  -- Sections named further on must still have their defaults: those named before differ from them.
  induction h generalizing config with
  | nil => rfl
  | @cons s inner entries settings others inside fresh rest ih =>
      have hskip {other : Section} (hne : s ≠ other) :
          ((s.key, Value.table inner) :: entries).lookup other.key = entries.lookup other.key := by
        have hkey : (other.key == s.key) = false :=
          beq_false_of_ne fun h => hne (Section.key_injective h).symm
        rw [List.lookup_cons, hkey]
      have hself : ((s.key, Value.table inner) :: entries).lookup s.key = some (.table inner) :=
        List.lookup_cons_self
      have hfull : s = .logging → ∀ key ∈ requiredKeys, (inner.lookup key).isSome := by
        rintro rfl
        exact hlogs inner hself
      have hne {other : Section} (h : entries.lookup other.key ≠ none) : s ≠ other := by
        rintro rfl
        exact h fresh
      have hlogsRest : LogsInFull entries := by
        intro inside' hinside
        exact hlogs inside' ((hskip (hne (by simp [hinside]))).trans hinside)
      have hstep := readAllOver_cons inside fresh
        (hdefault s (by rw [hself]; exact Option.some_ne_none _)) hfull
      rw [hstep, ih hlogsRest _ ?_, applyAll, applyAll, applyAll, List.foldl_append]
      intro other hother
      refine (agree_applyAll inside (hne hother) config).trans (hdefault other ?_)
      rwa [hskip (hne hother)]

/-- A document whose logging table lacks a required key cannot be read. -/
theorem ofEntries_of_missing {entries : Entries} (h : ¬ LogsInFull entries) :
    ofEntries entries = none := by
  simp only [LogsInFull, not_forall] at h
  obtain ⟨inner, hinner, key, hkey, hmissing⟩ := h
  rw [Section.key] at hinner
  have hlogging : LoggingSection.ofValue (.table inner) = none :=
    logging_ofValue_of_missing inner hkey (Option.not_isSome_iff_eq_none.1 hmissing)
  simp [ofEntries, readSection, Record.getD, Record.get?, hinner, hlogging]

/-- A document that leaves out sections and keys says the default configuration with its own keys
set, unless it has a section for the log with a key missing that has to be there: then it is
refused. -/
theorem ofText_partial {text : String} {entries : Entries} {settings : List Setting}
    (hparse : Toml.parse text = some entries) (hsaid : Says entries settings) :
    (LogsInFull entries → ofText text = .ok (applyAll {} settings)) ∧
      (¬ LogsInFull entries → ofText text = .error (.config .malformed)) := by
  have hread : Toml.parse text >>= ofEntries = ofEntries entries := by
    rw [hparse]
    rfl
  constructor
  · intro hlogs
    have hdefault (s : Section) : Agree s {} {} := by
      cases s <;> rfl
    have hentries : ofEntries entries = some (applyAll {} settings) :=
      readAllOver_eq hsaid hlogs {} fun s _ => hdefault s
    rw [ofText, hread, hentries]
  · intro hmissing
    rw [ofText, hread, ofEntries_of_missing hmissing]

/-- A document that leaves out two sections and the path of the log's file. -/
def consumerText : String :=
  "[limits]\nmax_message_size = 1024\n\n[logging]\nlog_to_file = false\napp_name = \"consumer\"\n" ++
    "log_level = \"debug\"\nlog_to_console = true\njson_format = true\n"

/-- The table of the log in it. -/
def consumerLogging : Entries :=
  [("log_to_file", .boolean false), ("app_name", .string "consumer"),
    ("log_level", .string "debug"), ("log_to_console", .boolean true),
    ("json_format", .boolean true)]

/-- Its entries. -/
def consumerEntries : Entries :=
  [("limits", .table [("max_message_size", .integer 1024)]), ("logging", .table consumerLogging)]

/-- What it sets. -/
def consumerSettings : List Setting :=
  [.maxMessageSize 1024, .logToFile false, .appName "consumer", .logLevel .debug,
    .logToConsole true, .jsonFormat true]

theorem ofText_consumer :
    Toml.parse consumerText = some consumerEntries ∧ Says consumerEntries consumerSettings ∧
      LogsInFull consumerEntries ∧
      ofText consumerText =
        .ok { limits := { maxMessageSize := 1024 }
              logging := { appName := "consumer", logLevel := .debug, jsonFormat := true } } := by
  have hparse : Toml.parse consumerText = some consumerEntries := by
    decide +kernel
  have hlevel : (Setting.logLevel .debug).IsSaidBy (.string "debug") :=
    ⟨"debug", rfl, by decide +kernel⟩
  have hlimits : SaysIn .limits [("max_message_size", .integer 1024)] [.maxMessageSize 1024] :=
    .cons (.maxMessageSize 1024) (.integer 1024) rfl rfl rfl .nil
  have hlogging : SaysIn .logging consumerLogging (consumerSettings.drop 1) :=
    .cons (.logToFile false) (.boolean false) rfl rfl rfl <|
      .cons (.appName "consumer") (.string "consumer") rfl rfl rfl <|
        .cons (.logLevel .debug) (.string "debug") rfl hlevel rfl <|
          .cons (.logToConsole true) (.boolean true) rfl rfl rfl <|
            .cons (.jsonFormat true) (.boolean true) rfl rfl rfl .nil
  have hsaid : Says consumerEntries consumerSettings := .cons hlimits rfl (.cons hlogging rfl .nil)
  have hfull : LogsInFull consumerEntries := by
    intro inner hinner
    obtain rfl : consumerLogging = inner := by
      simpa [consumerEntries, Section.key, List.lookup_cons] using hinner
    decide
  exact ⟨hparse, hsaid, hfull, (ofText_partial hparse hsaid).1 hfull⟩

/-- A document that sets how much is logged and nothing else. -/
def levelOnlyText : String := "[logging]\nlog_level = \"debug\"\n"

/-- A table for the log that leaves a key out is refused, though the other sections may leave out
any of theirs. -/
theorem ofText_levelOnly :
    Says [("logging", .table [("log_level", .string "debug")])] [.logLevel .debug] ∧
      Toml.parse levelOnlyText = some [("logging", .table [("log_level", .string "debug")])] ∧
      ofText levelOnlyText = .error (.config .malformed) := by
  have hlevel : (Setting.logLevel .debug).IsSaidBy (.string "debug") :=
    ⟨"debug", rfl, by decide +kernel⟩
  have hinside : SaysIn .logging [("log_level", .string "debug")] [.logLevel .debug] :=
    .cons (.logLevel .debug) (.string "debug") rfl hlevel rfl .nil
  exact ⟨.cons hinside rfl .nil, by decide +kernel, by decide +kernel⟩

end CcnxPacket.Config
