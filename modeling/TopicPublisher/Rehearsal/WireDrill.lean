import TopicPublisher.Rehearsal.ScriptedBroker
import TopicPublisher.Template

/-!
# Wire drills

A drill is a rehearsal of the wire client over a scripted broker: producers that are used directly, a
factory and a template over the same client, and a clock. `WireDrill.perform` carries a command out,
lets all tasks run until none can go on, and gives a `View` of what became visible meanwhile.
-/

namespace TopicPublisher

namespace Rehearsal

namespace WireDrill

/-! ## 1. Commands and what they show -/

/-- A command to a drill. -/
inductive Command where
  | newProducer (topic : String) (schema : Schema)
  | send (producer : Nat) (spec : MessageSpec)
  /-- Queues a message and keeps its receipt. -/
  | enqueue (producer : Nat) (spec : MessageSpec)
  | await (task : Nat)
  | dropReceipt (task : Nat)
  | abort (task : Nat)
  | acknowledge (message : Nat) (r : Receipt)
  | advance (ms : Nat)
  | close (producer : Nat)
  | templateSend (topic : String) (spec : MessageSpec)
  /-- Sends without waiting, and then waits for the pending send. -/
  | templatePromise (topic : String) (spec : MessageSpec)
  | shutdown

/-- What a command gives at once. -/
inductive Reaction where
  | none
  | task (number : Nat)
  | missing
  | producer (topic : String)
  | failed (e : ClientError)
  | crashed
  | receipt (number : Nat)
  | dropped (b : Bool)
  | aborted (b : Bool)
  | delivered (b : Bool)
  | closed

/-- How a task ended. -/
inductive Report where
  | acknowledged (id : MessageId)
  | clientFailed (e : ClientError)
  | failed (e : Error)
  | promised (topic : String) (r : Except Error MessageId)
  | closed (count : Nat)
  | crashed

structure View where
  reaction : Reaction
  done : List (Nat × Report)
  events : List BrokerEvent

/-! ## 2. The state of a drill -/

/-- How far a task is. -/
inductive Job where
  | send (producer : Nat) (spec : MessageSpec)
  | await (a : Awaited)
  /-- A call of the factory. -/
  | call (c : CallId)
  /-- A call after which the pending send is waited for. -/
  | promise (c : CallId)
  | pending (topic : String) (c : CallId)
  | finished

structure Task where
  number : Nat
  job : Job
  aborted : Bool := false

structure State where
  stage : Stage WireClient
  template : Template := {}
  /-- The producers used directly, in the order they were opened. -/
  direct : List Nat := []
  tasks : Registry Task := .empty
  receipts : List (Nat × Awaited) := []
  done : List (Nat × Report) := []
  /-- How many of the broker's events were shown. -/
  shown : Nat := 0

/-- Connects a client; the events that this made come with the result. -/
def connect (url : String) (operationTimeout : Nat) (schema : Schema) (sendTimeout maxPending : Nat)
    (script : BrokerScript) : Except ClientError State × List BrokerEvent :=
  match ({ script } : ScriptedBroker).connect url operationTimeout with
  | (.error f, broker) => (.error f.toClientError, broker.events.toList)
  | (.ok _, broker) =>
    let client := WireClient.new broker sendTimeout maxPending
    (.ok { stage := { schema, client }, shown := broker.events.size }, broker.events.toList)

namespace State

def setJob (s : State) (n : Nat) (job : Job) : State :=
  { s with tasks := s.tasks.update n fun t => { t with job } }

/-- Ends a task with a report. -/
def finish (s : State) (n : Nat) (r : Report) : State :=
  match s.tasks.get? n with
  | none => s
  | some t => { s.setJob n .finished with done := s.done ++ [(t.number, r)] }

def reportOf (s : State) : Progress → Report
  | .ended (.acknowledged id) => .acknowledged id
  | .ended (.closed n) => .closed n
  | .ended (.failed e) => .failed e
  | .ended (.promised p) =>
    match s.stage.factory.pending.get? p with
    | some q => .failed (Pending.lost q.topic)
    | none => .crashed
  | _ => .crashed

def outcomeOf : Progress → Except Error MessageId
  | .ended (.acknowledged id) => .ok id
  | .ended (.failed e) => .error e
  | _ => .error .factoryClosed

def directReport : Except ClientError MessageId → Report
  | .ok id => .acknowledged id
  | .error e => .clientFailed e

/-! ## 3. Running -/

/-- One stage of a task, and whether it can go on. -/
def advance (s : State) (n : Nat) : Bool × State :=
  match s.tasks.get? n with
  | none => (false, s)
  | some t =>
    match t.job with
    | .finished => (false, s)
    | .send p spec =>
      match s.stage.client.enqueue p spec with
      | (.ok a, client) => (true, { s with stage.client := client }.setJob n (.await a))
      | (.error e, client) => (false, { s with stage.client := client }.finish n (.clientFailed e))
    | .await a =>
      match s.stage.client.pollReceipt (.own n) a with
      | (none, client) => (false, { s with stage.client := client })
      | (some r, client) => (false, { s with stage.client := client }.finish n (directReport r))
    | .call c =>
      let s := { s with stage := s.stage.run WireClient.part (.own n) c }
      if s.stage.isOver c then (false, s.finish n (s.reportOf (s.stage.progress c))) else (false, s)
    | .promise c =>
      let s := { s with stage := s.stage.run WireClient.part (.own n) c }
      match s.stage.progress c with
      | .ended (.promised p) =>
        let topic := ((s.stage.factory.pending.get? p).map Pending.topic).getD ""
        let (stage, c) := s.stage.callWithin WireClient.part (.own n) (.await p)
        (true, { s with stage }.setJob n (.pending topic c))
      | progress =>
        if s.stage.isOver c then (false, s.finish n (s.reportOf progress)) else (false, s)
    | .pending topic c =>
      let s := { s with stage := s.stage.run WireClient.part (.own n) c }
      if s.stage.isOver c then
        (false, s.finish n (.promised topic (outcomeOf (s.stage.progress c))))
      else (false, s)

/-- Runs a task, or a call that the factory began by itself. A task has three stages at most. -/
def run (s : State) : TaskId → State
  | .own n => runFor (fun s => s.advance n) 4 s
  | .call c => { s with stage := s.stage.run WireClient.part (.call c) c }

/-- More runs of tasks than there can be: a call runs once for each thing that it waits for. -/
def enoughRuns (s : State) : Nat :=
  let n := s.stage.factory.calls.size + s.tasks.size + s.stage.ready.length + 4
  64 * n * n * n

/-! ## 4. Commands -/

def beginTask (s : State) (number : Nat) (job : Job) : Reaction × State :=
  (.task number, { s with
    tasks := s.tasks.add { number, job }
    stage := s.stage.push (.own s.tasks.size) })

/-- Begins a task that makes a call first. -/
def beginCall (s : State) (number : Nat) (r : Request) (job : CallId → Job) : Reaction × State :=
  let (stage, c) := s.stage.callWithin WireClient.part (.own s.tasks.size) r
  { s with stage }.beginTask number (job c)

/-- The wire producer behind a number; beyond all of them where there is none. -/
def producerOf (s : State) (i : Nat) : Nat := s.direct.getD i s.stage.client.producers.size

def abort (s : State) (number : Nat) : Reaction × State :=
  match s.tasks.toList.findIdx? fun t => t.number = number, s.tasks.toList.find? fun t => t.number = number with
  | some n, some t =>
    if t.aborted then (.missing, s)
    else
      let s := { s with tasks := s.tasks.update n fun t => { t with aborted := true, job := .finished } }
      match t.job with
      | .finished => (.aborted false, s)
      | .send _ _ => (.aborted true, s)
      | .await a => (.aborted true, { s with stage.client := s.stage.client.forget a })
      | .call c => (.aborted true, { s with stage := s.stage.happen WireClient.part (.abort c) })
      | .promise c => (.aborted true, { s with stage := s.stage.happen WireClient.part (.abort c) })
      | .pending _ c => (.aborted true, { s with stage := s.stage.happen WireClient.part (.abort c) })
  | _, _ => (.missing, s)

/-- Carries the command with a number out. -/
def obey (s : State) (number : Nat) : Command → Reaction × State
  | .newProducer topic schema =>
    match s.stage.client.openProducer topic schema with
    | (.opened p, client) => (.producer topic, { s with stage.client := client, direct := s.direct ++ [p] })
    | (.failed e, client) => (.failed e, { s with stage.client := client })
    | (.crashed, client) => (.crashed, { s with stage.client := client })
  | .send p spec => s.beginTask number (.send (s.producerOf p) spec)
  | .enqueue p spec =>
    match s.stage.client.enqueue (s.producerOf p) spec with
    | (.ok a, client) =>
      (.receipt number, { s with stage.client := client, receipts := (number, a) :: s.receipts })
    | (.error e, client) => (.failed e, { s with stage.client := client })
  | .await task =>
    match s.receipts.find? fun r => r.1 = task with
    | none => (.missing, s)
    | some (_, a) =>
      { s with receipts := s.receipts.filter fun r => r.1 ≠ task }.beginTask number (.await a)
  | .dropReceipt task =>
    match s.receipts.find? fun r => r.1 = task with
    | none => (.dropped false, s)
    | some (_, a) =>
      (.dropped true, { s with
        stage.client := s.stage.client.forget a
        receipts := s.receipts.filter fun r => r.1 ≠ task })
  | .abort task => s.abort task
  | .acknowledge message r =>
    let client := s.stage.client
    let (delivered, woken, broker) := client.broker.acknowledge message r
    (.delivered delivered,
      { s with stage := { s.stage with client.broker := broker }.pushAll woken })
  | .advance ms =>
    let (woken, client) := s.stage.client.advance ms
    (.none, { s with stage := { s.stage with client }.pushAll woken })
  | .close p =>
    match s.stage.client.close (s.producerOf p) with
    | (.ok _, client) => (.closed, { s with stage.client := client })
    | (.error e, client) => (.failed e, { s with stage.client := client })
  | .templateSend topic spec =>
    s.beginCall number (s.template.sendMessage topic spec .acknowledged) .call
  | .templatePromise topic spec =>
    s.beginCall number (s.template.sendMessage topic spec .promised) .promise
  | .shutdown => s.beginCall number .shutdown .call

/-! ## 5. Views -/

/-- Puts an event in front of sorted neighbours: closes that follow one another are sorted by
topic. -/
def insertClose : BrokerEvent → List BrokerEvent → List BrokerEvent
  | .close t, .close u :: rest =>
    if u < t then .close u :: insertClose (.close t) rest else .close t :: .close u :: rest
  | e, rest => e :: rest

def sortCloses (events : List BrokerEvent) : List BrokerEvent := events.foldr insertClose []

/-- Carries the command at a place out and lets all tasks run. -/
def perform (s : State) (index : Nat) (command : Command) : View × State :=
  let (reaction, s) := s.obey index command
  let s := runReady State.stage (fun s stage => { s with stage }) run s.enoughRuns s
  let events := s.stage.client.broker.events
  ({ reaction
     done := s.done
     events := sortCloses (events.extract s.shown events.size).toList },
    { s with done := [], shown := events.size })

def performAll : State → Nat → List Command → List View := Rehearsal.performAll perform

end State

end WireDrill

end Rehearsal

end TopicPublisher
