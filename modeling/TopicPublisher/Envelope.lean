import TopicPublisher.Error
import TopicPublisher.Message

/-!
# Envelopes

An envelope is a payload with headers of four kinds. `Envelope.convert` makes a message of it: the
header `pulsar_topic` names the topic, in place of a default one, and `pulsar_key` the routing key.
Both must be readable: text, or binary that is UTF-8. Other headers have no effect.
-/

namespace TopicPublisher

/-- The value of a header. -/
inductive HeaderValue where
  | text (s : String)
  | binary (bytes : Bytes)
  | integer (n : Int)
  | boolean (b : Bool)
  deriving DecidableEq, Repr

namespace HeaderValue

def typeName : HeaderValue → String
  | .text _ => "text"
  | .binary _ => "binary"
  | .integer _ => "integer"
  | .boolean _ => "boolean"

/-- The text of a readable value; of another one, the words for what it is. -/
def read : HeaderValue → Except String String
  | .text s => .ok s
  | .binary bytes =>
    match Utf8.text? bytes with
    | some s => .ok s
    | none => .error "non-UTF-8 binary"
  | v => .error v.typeName

end HeaderValue

/-- A payload under headers; a header set later stands for one of the same name set before. -/
structure Envelope where
  headers : List (String × HeaderValue)
  payload : Bytes

namespace Envelope

def topicHeader : String := "pulsar_topic"

def keyHeader : String := "pulsar_key"

def ofHeaders (headers : List (String × HeaderValue)) (payload : Bytes) : Envelope :=
  ⟨headers.foldl (fun hs h => Entries.putLast h.1 h.2 hs) [], payload⟩

def header? (e : Envelope) (name : String) : Option HeaderValue := Entries.find? name e.headers

/-- The text of a header, none where the header is absent. -/
def textHeader (e : Envelope) (name : String) : Except Error (Option String) :=
  match e.header? name with
  | none => .ok none
  | some v =>
    match v.read with
    | .ok s => .ok (some s)
    | .error found => .error (.malformedHeader name found)

/-- The message that an envelope stands for. An unreadable topic comes before a missing one, and
both before an unreadable key. -/
def convert (e : Envelope) (defaultTopic : Option String) : Except Error OutboundMessage :=
  match e.textHeader topicHeader with
  | .error err => .error err
  | .ok named =>
    match named.orElse fun _ => defaultTopic with
    | none => .error .noDefaultTopic
    | some topic =>
      match e.textHeader keyHeader with
      | .error err => .error err
      | .ok none => .ok ⟨topic, .ofPayload e.payload⟩
      | .ok (some key) =>
        .ok ⟨topic, (MessageSpec.ofPayload e.payload).withConfEntry Conf.key (.str key)⟩

end Envelope

end TopicPublisher
