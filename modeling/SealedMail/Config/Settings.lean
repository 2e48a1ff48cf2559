import SealedMail.Codec.Record
import SealedMail.Config.Path
import SealedMail.Message.Time
import SealedMail.Toml.Document

/-!
# Settings

How long a mailbox waits, how much it opens at a time, how long entries live, and where it keeps its
files. Every member may be left out. Settings are read from TOML or JSON, and `validate` reports the
first value that a mailbox cannot work with.
-/

namespace SealedMail

structure LogSettings where
  level : String := "info"
  json : Bool := false
  deriving DecidableEq, Repr

instance : Codec LogSettings :=
  .record (.fieldOr "level" "info" <| .fieldOr "json" false .nil) (fun l => (l.level, l.json, ()))
    fun (level, json, _) => ⟨level, json⟩

structure Settings where
  retryDelaySecs : UInt64 := 30
  maxBatches : UInt64 := 1
  ttlSecs : UInt64 := 1296000
  dataDir : String := "data"
  itemsFile : String := "MailboxMessageList.json"
  ledgerFile : String := "IgnoredMailboxMap.json"
  log : LogSettings := {}
  deriving DecidableEq, Repr

inductive SettingsError where
  | unreadable (reason : String)
  | unparsable (reason : String)
  | invalid (field reason : String)
  deriving DecidableEq, Repr

def SettingsError.message : SettingsError → String
  | .unreadable reason => s!"Failed to read config: {reason}"
  | .unparsable reason => s!"Failed to parse config: {reason}"
  | .invalid field reason => s!"Invalid config value for {field}: {reason}"

namespace Settings

instance : Codec Settings :=
  .record
    (.fieldOr "remove_retry_delay_secs" ({} : Settings).retryDelaySecs <|
      .fieldOr "max_concurrent_batches" ({} : Settings).maxBatches <|
      .fieldOr "mailbox_ttl_secs" ({} : Settings).ttlSecs <|
      .fieldOr "data_dir" ({} : Settings).dataDir <|
      .fieldOr "mailbox_list_file" ({} : Settings).itemsFile <|
      .fieldOr "ignored_map_file" ({} : Settings).ledgerFile <|
      .fieldOr "log" ({} : Settings).log .nil)
    (fun s =>
      (s.retryDelaySecs, s.maxBatches, s.ttlSecs, s.dataDir, s.itemsFile, s.ledgerFile, s.log, ()))
    fun (retryDelaySecs, maxBatches, ttlSecs, dataDir, itemsFile, ledgerFile, log, _) =>
      ⟨retryDelaySecs, maxBatches, ttlSecs, dataDir, itemsFile, ledgerFile, log⟩

/-- Short waits and a chatty log, with files below a directory of one's choice. -/
def forTesting (dataDir : String) : Settings :=
  { retryDelaySecs := 1, dataDir, log := { level := "debug" } }

/-- The first value that cannot be worked with, and why. -/
def fault? (s : Settings) : Option (String × String) :=
  if s.maxBatches = 0 then some ("max_concurrent_batches", "must be at least 1")
  else if s.ttlSecs = 0 then some ("mailbox_ttl_secs", "must be positive")
  else if s.itemsFile = "" then some ("mailbox_list_file", "must not be empty")
  else if s.ledgerFile = "" then some ("ignored_map_file", "must not be empty")
  else if s.itemsFile = s.ledgerFile then
    some ("ignored_map_file", "must differ from mailbox_list_file")
  else none

def validate (s : Settings) : Except SettingsError Settings :=
  match s.fault? with
  | some (field, reason) => .error (.invalid field reason)
  | none => .ok s

/-- A TOML document whose `log` is an array, with the items past the members of log settings left
out: they are not looked at. -/
def cutLog : Json → Json
  | .object members => .object <| members.map fun
    | (key, .array items) =>
      (key, .array (if key = ascii "log".toList then items.take 2 else items))
    | member => member
  | j => j

/-- Settings from a TOML text. -/
def ofToml (text : String) : Except SettingsError Settings :=
  match (Toml.parse? text).bind (Codec.ofJson? ∘ cutLog) with
  | some s => validate s
  | none => .error (.unparsable "not a settings document")

/-- Settings from the octets of a TOML file, if there is one. -/
def ofFile : Option Bytes → Except SettingsError Settings
  | none => .error (.unreadable "no such file")
  | some bs =>
    match ofUtf8? bs with
    | some text => ofToml text
    | none => .error (.unreadable "not UTF-8")

def ttlMillis (s : Settings) : UInt64 := millisOfSeconds s.ttlSecs

def itemsPath (s : Settings) : String := Path.joinText s.dataDir s.itemsFile

def ledgerPath (s : Settings) : String := Path.joinText s.dataDir s.ledgerFile

end Settings

end SealedMail
