import TopicPublisher.CommandLine.Fault
import TopicPublisher.Template

/-!
# Publishing messages

What the command does with its messages, as calls on a factory, one after the other: it sends each of
them, waits for those sends that are pending, and closes the factory, whatever came before.
`Publication.next?` is the call to make next, and `Publication.take` goes on with the outcome of that
call. Who carries the calls out is left open, so a publication can be followed against any wire
client.

1. A send that is refused ends the sending; what is pending then is no longer waited for.
2. A pending send that fails is counted, and the others are waited for all the same.
3. `callsLeft_take_lt` : each outcome brings a publication nearer to its end.
4. `isOver_iff` : a publication is over where it has no next call.
-/

namespace TopicPublisher

namespace CommandLine

/-- How far a publication is.

* `sending`: a message is sent. There are messages left to send, and sends that are pending.
* `collecting`: a pending send is waited for. There are others left, and some failed already.
* `closing`: all is done but the closing of the factory. -/
inductive Phase where
  | sending (message : String) (left : List String) (pending : List PendingId)
  | collecting (pending : PendingId) (left : List PendingId) (failures : Nat)
  | closing (fault : Option CommandFault)
  | finished (fault : Option CommandFault)

namespace Phase

/-- The fault that so many failures make. -/
def faultOf (failures : Nat) : Option CommandFault :=
  if failures = 0 then none else some (.undelivered failures)

/-- Waits for pending sends, after so many of them failed. -/
def collect : List PendingId → Nat → Phase
  | [], failures => .closing (faultOf failures)
  | pending :: left, failures => .collecting pending left failures

/-- Sends messages, while these sends are pending. -/
def send : List String → List PendingId → Phase
  | [], pending => collect pending 0
  | message :: left, pending => .sending message left pending

/-- A bound on the calls that are left to make, each send being one that may have to be waited
for. -/
def callsLeft : Phase → Nat
  | .sending _ left pending => 2 * (left.length + 1) + pending.length + 1
  | .collecting _ left _ => left.length + 2
  | .closing _ => 1
  | .finished _ => 0

theorem callsLeft_collect (ps : List PendingId) (n : Nat) :
    (collect ps n).callsLeft = ps.length + 1 := by
  cases ps <;> rfl

theorem callsLeft_send (ms : List String) (ps : List PendingId) :
    (send ms ps).callsLeft = 2 * ms.length + ps.length + 1 := by
  cases ms with
  | nil => simp [send, callsLeft_collect]
  | cons m ms =>
    simp only [send, callsLeft, List.length_cons]

end Phase

/-- The publishing of a list of messages. -/
structure Publication where
  template : Template
  /-- The topic of the messages, unless it is the default topic. -/
  topic : Option String
  delivery : Delivery
  phase : Phase
  /-- The names of the messages that are known to have arrived. -/
  printed : List MessageId := []

namespace Publication

/-- A publication that begins. -/
def begin (template : Template) (topic : Option String) (delivery : Delivery)
    (messages : List String) : Publication :=
  { template, topic, delivery, phase := .send messages [] }

/-- A publication whose messages could not be read. -/
def failed (template : Template) (fault : CommandFault) : Publication :=
  { template, topic := none, delivery := .acknowledged, phase := .closing (some fault) }

/-- The call that sends a message. -/
def requestOf (p : Publication) (message : String) : Request :=
  match p.topic with
  | some topic => p.template.send topic (Utf8.encode message) p.delivery
  | none => p.template.sendDefault (Utf8.encode message) p.delivery

/-- The call to make next; none at the end. -/
def next? (p : Publication) : Option Request :=
  match p.phase with
  | .sending message _ _ => some (p.requestOf message)
  | .collecting pending _ _ => some (.await pending)
  | .closing _ => some .shutdown
  | .finished _ => none

def print (p : Publication) (id : MessageId) : Publication := { p with printed := p.printed ++ [id] }

/-- Goes on with the outcome of the call that was made. An outcome that such a call does not have
changes nothing but the phase. -/
def take (p : Publication) (o : Outcome) : Publication :=
  match p.phase, o with
  | .sending _ left pending, .acknowledged id => { p.print id with phase := .send left pending }
  | .sending _ left pending, .promised q => { p with phase := .send left (pending ++ [q]) }
  | .sending _ _ _, .failed e => { p with phase := .closing (some (.send e)) }
  | .sending _ left pending, _ => { p with phase := .send left pending }
  | .collecting _ left failures, .acknowledged id =>
    { p.print id with phase := .collect left failures }
  | .collecting _ left failures, _ => { p with phase := .collect left (failures + 1) }
  | .closing fault, _ => { p with phase := .finished fault }
  | .finished fault, _ => { p with phase := .finished fault }

/-- Each outcome brings a publication nearer to its end. -/
theorem callsLeft_take_lt (p : Publication) (o : Outcome) (h : p.next? ≠ none) :
    (p.take o).phase.callsLeft < p.phase.callsLeft := by
  obtain ⟨template, topic, delivery, phase, printed⟩ := p
  cases phase with
  | sending message left pending =>
    cases o <;> simp only [take, print, Phase.callsLeft_send, List.length_append] <;>
      simp only [Phase.callsLeft, List.length_cons, List.length_nil] <;> omega
  | collecting pending left failures =>
    cases o <;> simp only [take, print, Phase.callsLeft_collect] <;> simp [Phase.callsLeft]
  | closing fault => exact Nat.zero_lt_one
  | finished fault => exact absurd rfl h

def isOver (p : Publication) : Bool :=
  match p.phase with
  | .finished _ => true
  | _ => false

theorem isOver_iff (p : Publication) : p.isOver = true ↔ p.next? = none := by
  unfold isOver next?
  split <;> simp_all
  split <;> simp_all

/-- The fault that a publication ends with. -/
def fault? (p : Publication) : Option CommandFault :=
  match p.phase with
  | .closing fault => fault
  | .finished fault => fault
  | _ => none

end Publication

end CommandLine

end TopicPublisher
