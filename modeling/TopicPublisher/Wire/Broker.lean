import TopicPublisher.Error
import TopicPublisher.MessageId
import TopicPublisher.Schema

/-!
# What a broker says

Faults that come with the connection to a broker, how they are told to senders, and the form in which
schemas are handed over.
-/

namespace TopicPublisher

/-- What is wrong with a connection. -/
inductive ConnectionFault where
  /-- The broker answered with an error. -/
  | refused
  /-- No answer could be had. -/
  | broken
  deriving DecidableEq, Repr

/-- Where a fault comes from. -/
inductive FaultOrigin where
  | connection (f : ConnectionFault)
  /-- A producer, because of its connection. -/
  | producerConnection (f : ConnectionFault)
  | producer
  | other
  deriving DecidableEq, Repr

/-- A fault and its wording. -/
structure BrokerFault where
  origin : FaultOrigin
  text : String
  deriving DecidableEq, Repr

namespace BrokerFault

/-- The connection's share in a fault. -/
def connection? (f : BrokerFault) : Option ConnectionFault :=
  match f.origin with
  | .connection c => some c
  | .producerConnection c => some c
  | _ => none

/-- How a fault is told: what the broker refused, what the connection failed at, and the rest. -/
def toClientError (f : BrokerFault) : ClientError :=
  match f.connection? with
  | some .refused => .rejected f.text
  | some .broken => .connection f.text
  | none => .other f.text

end BrokerFault

/-- The broker's number for a family of payloads; it has none for plain bytes. -/
def SchemaType.wireNumber : SchemaType → Nat
  | .bytes => 0
  | .string => 1
  | .json => 2
  | .protobuf => 3
  | .avro => 4

/-- A schema as it is handed over: a number, and a definition that may be empty. -/
structure WireSchema where
  number : Nat
  data : String
  deriving DecidableEq, Repr

def Schema.toWire (s : Schema) : WireSchema := ⟨s.type.wireNumber, s.definition.getD ""⟩

end TopicPublisher
