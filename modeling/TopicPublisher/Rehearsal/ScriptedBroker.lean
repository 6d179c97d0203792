import TopicPublisher.Rehearsal.Stage
import TopicPublisher.Wire.Producer

/-!
# A broker by script

`ScriptedBroker` stands behind wire producers. Its script says which connections, producers, messages
and closes fail, and what receipts messages get; each entry is used up by one request. A message that
the script says nothing about is held until a receipt is given by hand, or gets one at once where
that was agreed on.

`WireClient` is the wire client over such a broker, with a clock that moves only when it is told to.
-/

namespace TopicPublisher

namespace Rehearsal

/-! ## 1. The broker -/

/-- A receipt: the message's name, if it has one, or a fault. -/
abbrev Receipt := Except BrokerFault (Option MessageId)

/-- What the script says of a message's receipt. -/
inductive ReceiptPlan where
  | hold
  | give (r : Receipt)

/-- What a broker is to do. An entry that is `none` is a success. -/
structure BrokerScript where
  connects : List (Option BrokerFault) := []
  creations : List (Option BrokerFault) := []
  enqueues : List (Option BrokerFault) := []
  closes : List (Option BrokerFault) := []
  receipts : List (Option ReceiptPlan) := []
  /-- Messages that the script says nothing about get a receipt at once. -/
  autoAck : Bool := false

/-- Where a message is, as far as its receipt goes. -/
inductive MessageState where
  | held
  | answered (r : Receipt)
  /-- Nobody waits for the receipt any more. -/
  | gone

/-- A message that was taken. -/
structure BrokerMessage where
  state : MessageState := .held
  /-- The task that waits for the receipt. -/
  waiter : Option TaskId := none

/-- What a broker sees. -/
inductive BrokerEvent where
  | connect (url : String) (operationTimeout : Nat)
  | create (topic : String) (schema : WireSchema)
  /-- A message that was taken. The delivery time may be given by its distance from now. -/
  | message (number : Nat) (topic : String) (m : WireMessage) (deliverAfter : Option Nat)
  | close (topic : String)

structure ScriptedBroker where
  script : BrokerScript := {}
  messages : Registry BrokerMessage := .empty
  events : Array BrokerEvent := #[]

namespace ScriptedBroker

/-- The first entry of a list of faults. -/
def next : List (Option BrokerFault) → Except BrokerFault Unit
  | some f :: _ => .error f
  | _ => .ok ()

def see (b : ScriptedBroker) (e : BrokerEvent) : ScriptedBroker :=
  { b with events := b.events.push e }

def connect (b : ScriptedBroker) (url : String) (operationTimeout : Nat) :
    Except BrokerFault Unit × ScriptedBroker :=
  let b := b.see (.connect url operationTimeout)
  (next b.script.connects, { b with script.connects := b.script.connects.drop 1 })

def create (b : ScriptedBroker) (topic : String) (schema : WireSchema) :
    Except BrokerFault Unit × ScriptedBroker :=
  let b := b.see (.create topic schema)
  (next b.script.creations, { b with script.creations := b.script.creations.drop 1 })

def close (b : ScriptedBroker) (topic : String) : Except BrokerFault Unit × ScriptedBroker :=
  let b := b.see (.close topic)
  (next b.script.closes, { b with script.closes := b.script.closes.drop 1 })

/-- The receipt of a message by the script. -/
def stateFor (b : ScriptedBroker) (number : Nat) : MessageState :=
  match b.script.receipts with
  | some .hold :: _ => .held
  | some (.give r) :: _ => .answered r
  | _ =>
    if b.script.autoAck then
      .answered (.ok (some { ledger := 9, entry := UInt64.ofNat number }))
    else .held

/-- Takes a message, and gives its number. -/
def take (b : ScriptedBroker) (topic : String) (m : WireMessage) (deliverAfter : Option Nat) :
    Except BrokerFault Nat × ScriptedBroker :=
  let rest : ScriptedBroker := { b with script.enqueues := b.script.enqueues.drop 1 }
  match next b.script.enqueues with
  | .error f => (.error f, rest)
  | .ok _ =>
    let number := b.messages.size
    (.ok number,
      { rest with
        script.receipts := b.script.receipts.drop 1
        messages := b.messages.add { state := b.stateFor number }
        events := b.events.push (.message number topic m deliverAfter) })

/-- Gives a held message its receipt: whether somebody could still take it, and who is woken. -/
def acknowledge (b : ScriptedBroker) (number : Nat) (r : Receipt) :
    Bool × List TaskId × ScriptedBroker :=
  match b.messages.get? number with
  | some { state := .held, waiter } =>
    (true, waiter.toList,
      { b with messages := b.messages.update number fun _ => { state := .answered r } })
  | _ => (false, [], b)

def setMessage (b : ScriptedBroker) (number : Nat) (f : BrokerMessage → BrokerMessage) :
    ScriptedBroker :=
  { b with messages := b.messages.update number f }

/-- The fault of a message whose receipt is given up. -/
def disconnected : BrokerFault := ⟨.producer, "producer unexpectedly disconnected"⟩

end ScriptedBroker

/-! ## 2. The client -/

/-- A message whose receipt is waited for. -/
structure Awaited where
  producer : Nat
  send : SendId
  message : Nat

/-- A request that is under way. -/
inductive WireFlight where
  | replies (r : Reply)
  /-- The message was queued; the receipt comes later. -/
  | accepted (a : Awaited)
  | receipt (a : Awaited)

/-- Wire producers over a scripted broker. Times are in milliseconds. -/
structure WireClient where
  broker : ScriptedBroker
  sendTimeout : Nat
  maxPending : Nat
  now : Nat := 0
  producers : Registry WireProducer := .empty
  /-- The producers that the factory asked for, by the numbers of its handles. -/
  ofHandles : Registry Nat := .empty
  flights : List (Ticket × WireFlight) := []
  /-- Who waits until when. -/
  timers : List (Nat × TaskId) := []

namespace WireClient

/-- The broker's time when the client's clock is at zero. -/
def epoch : Nat := 1700000000000

/-- A client whose producers admit at least one message. -/
def new (broker : ScriptedBroker) (sendTimeout maxPending : Nat) : WireClient :=
  { broker, sendTimeout, maxPending := max 1 maxPending }

/-- What comes of opening a producer. -/
inductive Opening where
  | opened (producer : Nat)
  | failed (e : ClientError)
  /-- A window of that size cannot be made. -/
  | crashed

/-- Opens a producer. -/
def openProducer (c : WireClient) (topic : String) (schema : Schema) : Opening × WireClient :=
  match c.broker.create topic schema.toWire with
  | (.error f, broker) => (.failed f.toClientError, { c with broker })
  | (.ok _, broker) =>
    if WireProducer.maxPermits < c.maxPending then (.crashed, { c with broker })
    else
      (.opened c.producers.size, { c with
        broker
        producers := c.producers.add { topic, maxPending := c.maxPending } })

def setProducer (c : WireClient) (i : Nat) (p : WireProducer) : WireClient :=
  { c with producers := c.producers.update i fun _ => p }

/-- How far in the future a message's delivery is, where its time was given in that way. -/
def deliverAfter (spec : MessageSpec) : Option Nat :=
  match spec.conf.get? Conf.deliverAtTime with
  | some _ => none
  | none => (spec.conf.get? Conf.deliverAfterMs).bind WireMessage.unsigned?

/-- Queues a message. -/
def enqueue (c : WireClient) (i : Nat) (spec : MessageSpec) :
    Except ClientError Awaited × WireClient :=
  match c.producers.get? i with
  | none => (.error .closed, c)
  | some p =>
    match p.begin (epoch + c.now) spec with
    | (p, .error e) => (.error e, c.setProducer i p)
    | (p, .ok (send, m)) =>
      let (taken, broker) := c.broker.take p.topic m (deliverAfter spec)
      let c := { c with broker }
      match taken with
      | .error f =>
        match p.enqueued send (.error f) with
        | (p, .error e) => (.error e, c.setProducer i p)
        | (p, .ok _) => (.error f.toClientError, c.setProducer i p)
      | .ok message =>
        (.ok ⟨i, send, message⟩, c.setProducer i (p.enqueued send (.ok ())).1)

/-- Gives up waiting for a receipt. -/
def forget (c : WireClient) (a : Awaited) : WireClient :=
  let c := { c with broker := c.broker.setMessage a.message fun _ => { state := .gone } }
  match c.producers.get? a.producer with
  | none => c
  | some p => c.setProducer a.producer (p.finish a.send)

/-- Looks for a receipt on behalf of a task; none if there is none yet and time is left. -/
def pollReceipt (c : WireClient) (task : TaskId) (a : Awaited) :
    Option (Except ClientError MessageId) × WireClient :=
  match c.producers.get? a.producer, c.broker.messages.get? a.message with
  | some p, some m =>
    let p := p.await a.send c.now c.sendTimeout
    match m.state with
    | .answered r =>
      let (p, r) := p.receive a.send r
      (some r, (c.setProducer a.producer p).forget a)
    | _ =>
      match p.deadline? a.send with
      | none => (none, c)
      | some d =>
        if d ≤ c.now then
          let (p, e) := p.expire a.send c.sendTimeout
          (some (.error e), (c.setProducer a.producer p).forget a)
        else
          let c := c.setProducer a.producer p
          (none, { c with
            broker := c.broker.setMessage a.message fun m => { m with waiter := some task }
            timers := if (d, task) ∈ c.timers then c.timers else c.timers ++ [(d, task)] })
  | _, _ => (none, c)

/-- Closes a producer. It stays as it is. -/
def close (c : WireClient) (i : Nat) : Except ClientError Unit × WireClient :=
  match c.producers.get? i with
  | none => (.error .closed, c)
  | some p =>
    match c.broker.close p.topic with
    | (.error f, broker) => (.error f.toClientError, { c with broker })
    | (.ok _, broker) => (.ok (), { c with broker })

/-- Moves the clock. Those whose time is up are woken, the earliest deadline first. -/
def advance (c : WireClient) (ms : Nat) : List TaskId × WireClient :=
  let now := c.now + ms
  let due := (c.timers.filter fun t => t.1 ≤ now).mergeSort fun a b => decide (a.1 ≤ b.1)
  (due.map Prod.snd, { c with now, timers := c.timers.filter fun t => now < t.1 })

/-! ## 3. The client's part -/

def producerOf (c : WireClient) (h : HandleId) : Nat := (c.ofHandles.get? h).getD c.producers.size

def flightOf (c : WireClient) : WireCall → WireFlight × WireClient
  | .newProducer topic schema =>
    match c.openProducer topic schema with
    | (.opened p, c) =>
      (.replies (.answer (.opened (.ok .pipelined))), { c with ofHandles := c.ofHandles.add p })
    | (.failed e, c) => (.replies (.answer (.opened (.error e))), c)
    | (.crashed, c) => (.replies .crash, c)
  | .send h spec =>
    match c.enqueue (c.producerOf h) spec with
    | (.ok a, c) => (.receipt a, c)
    | (.error e, c) => (.replies (.answer (.receipt (.error e))), c)
  | .sendAsync h spec =>
    match c.enqueue (c.producerOf h) spec with
    | (.ok a, c) => (.accepted a, c)
    | (.error e, c) => (.replies (.answer (.accepted (.error e))), c)
  | .close h =>
    match c.close (c.producerOf h) with
    | (.ok _, c) => (.replies (.answer (.closed (.ok ()))), c)
    | (.error e, c) => (.replies (.answer (.closed (.error e))), c)

def setFlight (c : WireClient) (t : Ticket) (f : Option WireFlight) : WireClient :=
  let others := c.flights.filter fun f => f.1 ≠ t
  { c with flights := (f.map fun f => (t, f)).toList ++ others }

def take (c : WireClient) (t : Ticket) (w : WireCall) : WireClient :=
  let (f, c) := c.flightOf w
  c.setFlight t (some f)

def poll (c : WireClient) (t : Ticket) (task : TaskId) : WireClient × Reply :=
  match c.flights.find? fun f => f.1 = t with
  | none => (c, .later)
  | some (_, .replies r) => (c.setFlight t none, r)
  | some (_, .accepted a) => (c.setFlight t (some (.receipt a)), .answer (.accepted (.ok ())))
  | some (_, .receipt a) =>
    match c.pollReceipt task a with
    | (none, c) => (c, .later)
    | (some r, c) => (c.setFlight t none, .answer (.receipt r))

def drop (c : WireClient) (t : Ticket) : WireClient :=
  match c.flights.find? fun f => f.1 = t with
  | some (_, .accepted a) => (c.forget a).setFlight t none
  | some (_, .receipt a) => (c.forget a).setFlight t none
  | _ => c.setFlight t none

/-- How the client plays its part. -/
def part : Part WireClient := ⟨take, poll, drop⟩

end WireClient

end Rehearsal

end TopicPublisher
