import TopicPublisher.Envelope
import TopicPublisher.Factory.State
import TopicPublisher.Json.Writable

/-!
# Sending

A template is what a sender holds: a default topic and a converter of envelopes. There are four
forms of a send, by what is given; `Template.outbound` makes the message of each of them, or fails
before the factory is looked at. `Template.request` is then the call on the factory.

The ways in which a sender may ask for a send are `Template.send`, `Template.sendDefault` and so on. Each of
them has one of the four forms.
-/

namespace TopicPublisher

/-- What makes messages of envelopes, given the default topic. -/
abbrev Converter := Envelope → Option String → Except Error OutboundMessage

/-- What a sender sends with. -/
structure Template where
  defaultTopic : Option String := none
  converter : Converter := Envelope.convert

/-- The forms of a send.

* `toDefault`: a message to the default topic.
* `json`: a value as JSON text, under the JSON schema, to a topic. -/
inductive SendForm where
  | message (topic : String) (spec : MessageSpec)
  | toDefault (spec : MessageSpec)
  | envelope (e : Envelope)
  | json (topic : String) (value : Writable)

namespace Template

/-- The message that is sent, or the error that keeps it from being sent. -/
def outbound (t : Template) : SendForm → Except Error OutboundMessage
  | .message topic spec => .ok ⟨topic, spec⟩
  | .toDefault spec =>
    match t.defaultTopic with
    | some topic => .ok ⟨topic, spec⟩
    | none => .error .noDefaultTopic
  | .envelope e => t.converter e t.defaultTopic
  | .json topic value =>
    match value.write with
    | .ok text => .ok ⟨topic, (MessageSpec.ofPayload (Utf8.encode text)).withSchema { type := .json }⟩
    | .error e => .error (.serialization e)

/-- The call of a send. -/
def request (t : Template) (form : SendForm) (delivery : Delivery) : Request :=
  .send (t.outbound form) delivery

/-! ## Ways to send -/

def sendMessage (t : Template) (topic : String) (spec : MessageSpec) (delivery : Delivery) : Request :=
  t.request (.message topic spec) delivery

def send (t : Template) (topic : String) (payload : Bytes) (delivery : Delivery) : Request :=
  t.sendMessage topic (.ofPayload payload) delivery

/-- Sends under a schema in place of the producer's. -/
def sendWithSchema (t : Template) (topic : String) (payload : Bytes) (schema : Schema)
    (delivery : Delivery) : Request :=
  t.sendMessage topic ((MessageSpec.ofPayload payload).withSchema schema) delivery

def sendWithConf (t : Template) (topic : String) (payload : Bytes) (conf : Conf) (delivery : Delivery) :
    Request :=
  t.sendMessage topic ((MessageSpec.ofPayload payload).withConf conf) delivery

/-- Sends a value as JSON text. There is no form of this that does not wait for the receipt. -/
def sendJson (t : Template) (topic : String) (value : Writable) : Request :=
  t.request (.json topic value) .acknowledged

def sendDefault (t : Template) (payload : Bytes) (delivery : Delivery) : Request :=
  t.request (.toDefault (.ofPayload payload)) delivery

def sendDefaultWithSchema (t : Template) (payload : Bytes) (schema : Schema) (delivery : Delivery) :
    Request :=
  t.request (.toDefault ((MessageSpec.ofPayload payload).withSchema schema)) delivery

def sendEnvelope (t : Template) (e : Envelope) (delivery : Delivery) : Request :=
  t.request (.envelope e) delivery

/-- A send to the default topic is one to a topic, or fails where there is none. -/
theorem sendDefault_eq (t : Template) (payload : Bytes) (delivery : Delivery) :
    t.sendDefault payload delivery = match t.defaultTopic with
      | some topic => t.send topic payload delivery
      | none => .refuse .noDefaultTopic := by
  unfold sendDefault request outbound
  dsimp only
  cases t.defaultTopic <;> rfl

theorem sendDefaultWithSchema_eq (t : Template) (payload : Bytes) (schema : Schema)
    (delivery : Delivery) :
    t.sendDefaultWithSchema payload schema delivery = match t.defaultTopic with
      | some topic => t.sendWithSchema topic payload schema delivery
      | none => .refuse .noDefaultTopic := by
  unfold sendDefaultWithSchema request outbound
  dsimp only
  cases t.defaultTopic <;> rfl

/-- A value is sent as its text under the JSON schema, or fails where it has none. -/
theorem sendJson_eq (t : Template) (topic : String) (value : Writable) :
    t.sendJson topic value = match value.write with
      | .ok text => t.sendWithSchema topic (Utf8.encode text) { type := .json } .acknowledged
      | .error e => .refuse (.serialization e) := by
  unfold sendJson request outbound
  dsimp only
  cases value.write <;> rfl

end Template

end TopicPublisher
