import TopicPublisher.Config.Digits
import TopicPublisher.Config.Fault
import TopicPublisher.Schema
import TopicPublisher.Text.Blank
import TopicPublisher.Text.LowerCase

/-!
# Configurations

A configuration has three groups of fields: how to reach the broker, how producers are opened, and
the default topic. `Config.ofSetting` reads it from settings. Values are taken generously: a text may
be given as a number, a number as a text, a group as a list of its fields. `Config.validate` then
demands an address and room for at least one message.
-/

namespace TopicPublisher

/-- How to reach the broker. -/
structure ClientConfig where
  serviceUrl : String
  operationTimeoutSecs : Nat := 30
  deriving DecidableEq, Repr

/-- How producers are opened. -/
structure ProducerConfig where
  schema : Schema := {}
  sendTimeoutMs : Nat := 30000
  maxPendingMessages : Nat := 1000
  deriving DecidableEq, Repr

structure TemplateConfig where
  defaultTopic : Option String := none
  deriving DecidableEq, Repr

structure Config where
  client : ClientConfig
  producer : ProducerConfig := {}
  template : TemplateConfig := {}
  deriving DecidableEq, Repr

namespace Setting

/-- Reads a value, or says what is wrong with it. -/
abbrev Reader (α : Type) := Setting → Except ConfigFault α

def mismatch {α : Type} (s : Setting) (expected : String) : Except ConfigFault α :=
  .error (.mismatch { found := s.found, expected, origin := s.origin? })

/-! ## 1. Single values -/

def readText : Reader String
  | .scalar _ (.str s) => .ok s
  | .scalar _ (.bool b) => .ok (if b then "true" else "false")
  | .scalar _ (.int n) => .ok (toString n)
  | .scalar _ (.float x) => .ok x.positional
  | s => s.mismatch "a string"

/-- A text that may be absent. -/
def readOptionalText : Reader (Option String)
  | .scalar _ .null => .ok none
  | s => (readText s).map some

/-- Decimal digits, with a plus sign or without one, that fit 64 bits. -/
def unsigned? (text : String) : Option Nat :=
  let ds := match text.toList with
    | '+' :: rest => rest
    | cs => cs
  if ds.isEmpty || !ds.all Char.isDigit then none
  else
    let n := Digits.natOf 10 ds
    if n ≤ Word.maxUnsigned then some n else none

/-- A number as a text: a word for yes or no in any case, or digits. -/
def unsignedText? (text : String) : Option Nat :=
  let word := Text.lower text
  if word = "true" || word = "on" || word = "yes" then some 1
  else if word = "false" || word = "off" || word = "no" then some 0
  else unsigned? text

/-- An unsigned number. Doubles are rounded, and clamped to the numbers of 64 bits. -/
def readUnsigned : Reader Nat
  | .scalar o (.int n) =>
    if 0 ≤ n then .ok n.toNat
    else (Setting.scalar o (.int n)).mismatch "an unsigned 64 bit or less integer"
  | .scalar _ (.bool b) => .ok (if b then 1 else 0)
  | .scalar _ (.float x) => .ok (x.roundToNat Word.maxUnsigned)
  | .scalar o (.str s) =>
    match unsignedText? s with
    | some n => .ok n
    | none => (Setting.scalar o (.str s)).mismatch "an integer"
  | s => s.mismatch "an integer"

/-- A family of payloads by its name in any case. -/
def schemaTypeNamed (name : String) : Except ConfigFault SchemaType :=
  match SchemaType.ofText? (Text.lower name) with
  | some t => .ok t
  | none => .error (.unknownVariant "SchemaType" name)

/-- A family of payloads: a name, or a table with a name for its only key. -/
def readSchemaType : Reader SchemaType
  | .scalar _ (.str name) => schemaTypeNamed name
  | .table _ [(name, _)] => schemaTypeNamed name
  | _ => .error (.variantShape "SchemaType")

/-! ## 2. Groups of fields -/

/-- An entry of a table, if it is there. -/
def readEntry {α : Type} (entries : List (String × Setting)) (key : String) (reader : Reader α) :
    Except ConfigFault (Option α) :=
  match Entries.find? key entries with
  | none => .ok none
  | some s =>
    match reader s with
    | .ok x => .ok (some x)
    | .error f => .error (f.underKey key)

/-- An item of a list, if it is there. -/
def readItem {α : Type} (items : List Setting) (i : Nat) (reader : Reader α) :
    Except ConfigFault (Option α) :=
  match items[i]? with
  | none => .ok none
  | some s =>
    match reader s with
    | .ok x => .ok (some x)
    | .error f => .error (f.underIndex i)

/-- How the fields of a group are looked up: by key, or by position. -/
def readField {α : Type} (s : Setting) (key : String) (i : Nat) (reader : Reader α) :
    Except ConfigFault (Option α) :=
  match s with
  | .table _ entries => readEntry entries key reader
  | .list _ items => readItem items i reader
  | .scalar _ _ => .ok none

/-- A group must be a table or a list. -/
def demandGroup (s : Setting) (group : String) : Except ConfigFault Unit :=
  match s with
  | .scalar _ x => .error (.wrongShape x.foundForGroup group)
  | _ => .ok ()

def readSchema : Reader Schema := fun s => do
  s.demandGroup "Schema"
  let type ← s.readField "type" 0 readSchemaType
  let definition ← s.readField "definition" 1 readOptionalText
  return ⟨type.getD .bytes, definition.getD none⟩

/-- The fault of a group that lacks its first field. -/
def lacks (s : Setting) (field group : String) (fields : Nat) : ConfigFault :=
  match s with
  | .list _ _ => .tooShort 0 group fields
  | _ => .missingField field

def readClient : Reader ClientConfig := fun s => do
  s.demandGroup "ClientConfig"
  let serviceUrl ← s.readField "service_url" 0 readText
  let timeout ← s.readField "operation_timeout_secs" 1 readUnsigned
  match serviceUrl with
  | none => .error (s.lacks "service_url" "ClientConfig" 2)
  | some serviceUrl => return ⟨serviceUrl, timeout.getD 30⟩

def readProducer : Reader ProducerConfig := fun s => do
  s.demandGroup "ProducerConfig"
  let schema ← s.readField "schema" 0 readSchema
  let timeout ← s.readField "send_timeout_ms" 1 readUnsigned
  let pending ← s.readField "max_pending_messages" 2 readUnsigned
  return ⟨schema.getD {}, timeout.getD 30000, pending.getD 1000⟩

def readTemplate : Reader TemplateConfig := fun s => do
  s.demandGroup "TemplateConfig"
  let topic ← s.readField "default_topic" 0 readOptionalText
  return ⟨topic.getD none⟩

end Setting

namespace Config

/-- Reads a configuration. -/
def ofSetting (s : Setting) : Except ConfigFault Config := do
  let client ← s.readField "client" 0 Setting.readClient
  let producer ← s.readField "producer" 1 Setting.readProducer
  let template ← s.readField "template" 2 Setting.readTemplate
  match client with
  | none => .error (.missingField "client")
  | some client => return ⟨client, producer.getD {}, template.getD {}⟩

/-- Demands an address, and room for at least one message. -/
def validate (c : Config) : Except ConfigFault Config :=
  if Text.isBlank c.client.serviceUrl then .error .emptyServiceUrl
  else if c.producer.maxPendingMessages = 0 then .error .noPendingMessages
  else .ok c

end Config

end TopicPublisher
