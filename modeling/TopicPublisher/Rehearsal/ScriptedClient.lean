import TopicPublisher.Rehearsal.Stage

/-!
# A client by script

`ScriptedClient` opens producers, takes messages and closes producers as its script says. The script
is given step by step: failures, each for one request to come, and gates, at which the answers to
requests wait until the gate is opened. What it is asked it writes down.

A producer gives its messages the ids `n:0`, `n:1`, … where `n` is its number.
-/

namespace TopicPublisher

namespace Rehearsal

/-- What producers can do, and what they say they can do.

* `sequential`: they take one message at a time and say so. Asked to queue a message, they do that too.
* `unsupported`: they say that they queue messages, but cannot.
* `unstated`: they say nothing, which stands for one message at a time, and cannot queue messages. -/
inductive Ability where
  | sequential
  | pipelined
  | unsupported
  | unstated
  deriving DecidableEq, Repr

namespace Ability

/-- What a producer says of itself. -/
def mode : Ability → DispatchMode
  | .sequential => .sequential
  | .pipelined => .pipelined
  | .unsupported => .pipelined
  | .unstated => .sequential

/-- Whether a producer can queue messages. -/
def queues : Ability → Bool
  | .sequential => true
  | .pipelined => true
  | _ => false

end Ability

/-- A failure by script. -/
inductive Failure where
  | error (e : ClientError)
  /-- The client crashes where it would fail. -/
  | crash
  deriving DecidableEq, Repr

/-- A request that is under way.

* `replies`: the reply comes when the gate is open.
* `opens`: a producer is opened when the gate is open.
* `queues`: a message was queued; its receipt comes when the gate is open. -/
inductive Flight where
  | replies (gate : Option String) (r : Reply)
  | opens (gate : Option String) (topic : String)
  | queues (gate : Option String) (receipt : Reply)

/-- A gate: whether it is open, and the tasks in front of it in the order they came. -/
structure Gate where
  isOpen : Bool := false
  waiting : List TaskId := []

/-- A producer of the client. -/
structure ScriptedProducer where
  topic : String
  ability : Ability
  sends : Nat := 0
  closes : Nat := 0
  deriving Repr

/-- What the client writes down. -/
inductive Note where
  | create (topic : String)
  | send (producer : HandleId) (spec : MessageSpec)

/-- The client: its script, its producers, and what it is asked. -/
structure ScriptedClient where
  ability : Ability := .sequential
  /-- The abilities of producers of single topics. -/
  abilities : List (String × Ability) := []
  creationFailures : List Failure := []
  sendFailures : List Failure := []
  closeFailures : List (String × Failure) := []
  creationGates : List (String × String) := []
  sendGate : Option String := none
  closeGates : List (String × String) := []
  gates : List (String × Gate) := []
  producers : Registry ScriptedProducer := .empty
  flights : List (Ticket × Flight) := []
  notes : Array Note := #[]

namespace ScriptedClient

/-! ## 1. The script -/

/-- Takes the first failure for a topic. -/
def takeFor (topic : String) : List (String × Failure) → Option Failure × List (String × Failure)
  | [] => (none, [])
  | (t, f) :: rest =>
    if t = topic then (some f, rest)
    else
      let (found, rest) := takeFor topic rest
      (found, (t, f) :: rest)

def abilityFor (s : ScriptedClient) (topic : String) : Ability :=
  (Entries.find? topic s.abilities).getD s.ability

/-- No gates from now on. -/
def unhold (s : ScriptedClient) : ScriptedClient :=
  { s with creationGates := [], sendGate := none, closeGates := [] }

/-- Opens a gate for good, and gives the tasks in front of it. -/
def openGate (s : ScriptedClient) (gate : String) : ScriptedClient × List TaskId :=
  let waiting := ((Entries.find? gate s.gates).map Gate.waiting).getD []
  ({ s with gates := Entries.put gate { isOpen := true } s.gates }, waiting)

/-- Whether the way is free. Otherwise the task waits in front of the gate. -/
def pass (s : ScriptedClient) (task : TaskId) : Option String → Bool × ScriptedClient
  | none => (true, s)
  | some gate =>
    let g := (Entries.find? gate s.gates).getD {}
    if g.isOpen then (true, s)
    else if task ∈ g.waiting then (false, s)
    else (false, { s with gates := Entries.put gate { g with waiting := g.waiting ++ [task] } s.gates })

/-! ## 2. Messages -/

/-- Notes a message, and gives what its receipt will be and the gate that it waits for. -/
def takeMessage (s : ScriptedClient) (h : HandleId) (spec : MessageSpec) :
    ScriptedClient × Except Failure MessageId × Option String :=
  let sends := ((s.producers.get? h).map ScriptedProducer.sends).getD 0
  let id : MessageId := { ledger := UInt64.ofNat h, entry := UInt64.ofNat sends }
  let result : Except Failure MessageId := match s.sendFailures with
    | [] => .ok id
    | f :: _ => .error f
  ({ s with
      producers := s.producers.update h fun p => { p with sends := p.sends + 1 }
      sendFailures := s.sendFailures.drop 1
      notes := s.notes.push (.send h spec) },
    result, s.sendGate)

def receiptOf : Except Failure MessageId → Reply
  | .ok id => .answer (.receipt (.ok id))
  | .error (.error e) => .answer (.receipt (.error e))
  | .error .crash => .crash

/-- A message to send. -/
def flightOfSend (s : ScriptedClient) (h : HandleId) (spec : MessageSpec) : ScriptedClient × Flight :=
  let (s, result, gate) := s.takeMessage h spec
  (s, .replies gate (receiptOf result))

/-- A message to queue. A full queue shows at once. -/
def flightOfEnqueue (s : ScriptedClient) (h : HandleId) (spec : MessageSpec) :
    ScriptedClient × Flight :=
  match s.producers.get? h with
  | none => (s, .replies none .crash)
  | some p =>
    if p.ability.queues then
      let (s, result, gate) := s.takeMessage h spec
      match result with
      | .error (.error (.queueFull text)) =>
        (s, .replies none (.answer (.accepted (.error (.queueFull text)))))
      | _ => (s, .queues gate (receiptOf result))
    else
      let text := "producer for '" ++ p.topic ++ "' does not support pipelined dispatch"
      (s, .replies none (.answer (.accepted (.error (.other text)))))

/-! ## 3. Requests -/

def flightOfOpen (s : ScriptedClient) (topic : String) : ScriptedClient × Flight :=
  let gate := Entries.find? topic s.creationGates
  let flight : Flight := match s.creationFailures with
    | [] => .opens gate topic
    | .error e :: _ => .replies gate (.answer (.opened (.error e)))
    | .crash :: _ => .replies gate .crash
  ({ s with creationFailures := s.creationFailures.drop 1, notes := s.notes.push (.create topic) },
    flight)

def flightOfClose (s : ScriptedClient) (h : HandleId) : ScriptedClient × Flight :=
  let topic := ((s.producers.get? h).map ScriptedProducer.topic).getD ""
  let (failure, closeFailures) := takeFor topic s.closeFailures
  let reply : Reply := match failure with
    | none => .answer (.closed (.ok ()))
    | some (.error e) => .answer (.closed (.error e))
    | some .crash => .crash
  ({ s with
      closeFailures
      producers := s.producers.update h fun p => { p with closes := p.closes + 1 } },
    .replies (Entries.find? topic s.closeGates) reply)

def flightOf (s : ScriptedClient) : WireCall → ScriptedClient × Flight
  | .newProducer topic _ => s.flightOfOpen topic
  | .send h spec => s.flightOfSend h spec
  | .sendAsync h spec => s.flightOfEnqueue h spec
  | .close h => s.flightOfClose h

def take (s : ScriptedClient) (t : Ticket) (w : WireCall) : ScriptedClient :=
  let (s, flight) := s.flightOf w
  { s with flights := (t, flight) :: s.flights }

def drop (s : ScriptedClient) (t : Ticket) : ScriptedClient :=
  { s with flights := s.flights.filter fun f => f.1 ≠ t }

/-- The reply to a request under way, and what is left of it. -/
def pollFlight (s : ScriptedClient) (task : TaskId) : Flight →
    ScriptedClient × Reply × Option Flight
  | .replies gate r =>
    match s.pass task gate with
    | (true, s) => (s, r, none)
    | (false, s) => (s, .later, some (.replies gate r))
  | .opens gate topic =>
    match s.pass task gate with
    | (true, s) =>
      let ability := s.abilityFor topic
      ({ s with producers := s.producers.add { topic, ability } },
        .answer (.opened (.ok ability.mode)), none)
    | (false, s) => (s, .later, some (.opens gate topic))
  | .queues gate receipt => (s, .answer (.accepted (.ok ())), some (.replies gate receipt))

def poll (s : ScriptedClient) (t : Ticket) (task : TaskId) : ScriptedClient × Reply :=
  match s.flights.find? fun f => f.1 = t with
  | none => (s, .later)
  | some (_, flight) =>
    match s.pollFlight task flight with
    | (s, reply, none) => (s.drop t, reply)
    | (s, reply, some rest) =>
      let s := s.drop t
      ({ s with flights := (t, rest) :: s.flights }, reply)

/-- How the client plays its part. -/
def part : Part ScriptedClient := ⟨take, poll, drop⟩

end ScriptedClient

end Rehearsal

end TopicPublisher
