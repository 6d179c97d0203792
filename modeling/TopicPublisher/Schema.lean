import TopicPublisher.Json.Basic

/-!
# Schemas

A schema is a family of payloads with an optional definition, such as an Avro document. Payloads are
never encoded with it: it goes to the client as it is, with the producer of a topic or with one
message.

`Schema.text` writes a schema as JSON and `Schema.parse?` reads one. The reader looks at the fields
`type` and `definition` only; it refuses a repetition of those two, and passes over every other
field whatever is in it, even strings that are no text.
-/

namespace TopicPublisher

/-- The families of payloads that the broker knows. -/
inductive SchemaType where
  | bytes
  | string
  | json
  | avro
  | protobuf
  deriving DecidableEq, Repr

namespace SchemaType

def all : List SchemaType := [.bytes, .string, .json, .avro, .protobuf]

def text : SchemaType → String
  | .bytes => "bytes"
  | .string => "string"
  | .json => "json"
  | .avro => "avro"
  | .protobuf => "protobuf"

def ofText? (s : String) : Option SchemaType := all.find? fun t => t.text = s

end SchemaType

/-- A schema as it is handed to the client. -/
structure Schema where
  type : SchemaType := .bytes
  definition : Option String := none
  deriving DecidableEq, Repr, Inhabited

namespace Schema

/-- The fields of a schema, in the order in which they are written. -/
def fields (s : Schema) : List (String × Json) :=
  [("type", .str s.type.text), ("definition", (s.definition.map Json.str).getD .null)]

/-- The JSON text of a schema. -/
def text (s : Schema) : String := Json.text (.obj s.fields)

/-! ## Reading -/

open Json (Document)

/-- A family: its name, or an object whose only entry has that name and the value null. -/
def typeOf? : Document → Option SchemaType
  | .string (some name) => SchemaType.ofText? name
  | .object [(some name, .null)] => SchemaType.ofText? name
  | _ => none

/-- A definition: a text, or null for none. -/
def definitionOf? : Document → Option (Option String)
  | .string (some s) => some (some s)
  | .null => some none
  | _ => none

/-- The fields read so far. -/
structure Draft where
  type : Option SchemaType := none
  definition : Option (Option String) := none

def Draft.finish (d : Draft) : Schema := ⟨d.type.getD .bytes, d.definition.getD none⟩

/-- Reads entries one after the other. Their names must be texts. -/
def readEntries : Draft → List (Option String × Document) → Option Schema
  | d, [] => some d.finish
  | d, (name, x) :: rest =>
    match name with
    | none => none
    | some name =>
      if name = "type" then
        match d.type, typeOf? x with
        | none, some t => readEntries { d with type := some t } rest
        | _, _ => none
      else if name = "definition" then
        match d.definition, definitionOf? x with
        | none, some t => readEntries { d with definition := some t } rest
        | _, _ => none
      else readEntries d rest

/-- The schema that a document gives: an object, or an array of its fields in order, the last of
which may be missing. -/
def ofDocument? : Document → Option Schema
  | .object entries => readEntries {} entries
  | .array [] => some {}
  | .array [t] => (typeOf? t).map fun t => ⟨t, none⟩
  | .array [t, d] => do
    let t ← typeOf? t
    let d ← definitionOf? d
    return ⟨t, d⟩
  | _ => none

/-- The schema that a JSON text writes. -/
def parse? (text : String) : Option Schema := (Document.parse text).bind ofDocument?

end Schema

end TopicPublisher
