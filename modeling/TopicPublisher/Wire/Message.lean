import TopicPublisher.Error
import TopicPublisher.Message

/-!
# Messages on the wire

The wire client acts on five entries of a message's `Conf`: the routing key, the event time, two ways
to give a delivery time, and properties. `WireMessage.ofSpec` reads them in the order of their keys
and refuses the message at the first one that is malformed. Entries under other keys, and the schema
of the message, are passed over: the producer's own schema stands.

Of the two ways to give a delivery time the absolute one comes later in the order of keys, and wins.
-/

namespace TopicPublisher

/-- A message as it is handed to the broker. Times are in milliseconds. -/
structure WireMessage where
  payload : Bytes := []
  partitionKey : Option String := none
  eventTime : Option Nat := none
  deliverAt : Option Nat := none
  properties : List (String × String) := []
  deriving DecidableEq, Repr

namespace WireMessage

/-- The latest delivery time. -/
def maxDeliveryTime : Nat := Word.maxSigned

/-- A whole number that is not negative and fits 64 bits. -/
def unsigned? : Json → Option Nat
  | .int n => if 0 ≤ n ∧ n ≤ Word.maxUnsigned then some n.toNat else none
  | _ => none

/-- An absolute delivery time. -/
def deliveryTime? (x : Json) : Option Nat :=
  (unsigned? x).bind fun t => if t ≤ maxDeliveryTime then some t else none

/-- A delivery time by its distance from `now`. -/
def deliveryAfter? (now : Nat) (x : Json) : Option Nat :=
  (unsigned? x).bind fun d => if d + now ≤ maxDeliveryTime then some (d + now) else none

/-- The text of a property: a text itself, and the JSON text of anything else. -/
def propertyText : Json → String
  | .str s => s
  | x => x.text

def properties? : Json → Option (List (String × String))
  | .obj entries => some (entries.map fun e => (e.1, propertyText e.2))
  | _ => none

def key? : Json → Option String
  | .str s => some s
  | _ => none

/-- Applies one entry of a `Conf`; none where its value is malformed. -/
def withEntry? (now : Nat) (m : WireMessage) (key : String) (x : Json) : Option WireMessage :=
  if key = Conf.key then (key? x).map fun k => { m with partitionKey := some k }
  else if key = Conf.eventTime then (unsigned? x).map fun t => { m with eventTime := some t }
  else if key = Conf.deliverAtTime then (deliveryTime? x).map fun t => { m with deliverAt := some t }
  else if key = Conf.deliverAfterMs then
    (deliveryAfter? now x).map fun t => { m with deliverAt := some t }
  else if key = Conf.properties then (properties? x).map fun ps => { m with properties := ps }
  else some m

/-- The error for a malformed entry. -/
def malformed (key : String) (x : Json) : ClientError :=
  .rejected ("invalid value for message conf '" ++ key ++ "': " ++ x.text)

/-- Applies entries one after the other. -/
def applyAll (now : Nat) : WireMessage → List (String × Json) → Except ClientError WireMessage
  | m, [] => .ok m
  | m, (key, x) :: rest =>
    match m.withEntry? now key x with
    | some m => applyAll now m rest
    | none => .error (malformed key x)

/-- The message for a spec, at the time `now`. -/
def ofSpec (now : Nat) (spec : MessageSpec) : Except ClientError WireMessage :=
  applyAll now { payload := spec.payload } spec.conf.entries

end WireMessage

end TopicPublisher
