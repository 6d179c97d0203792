import TopicPublisher.Rehearsal.ScriptedClient
import TopicPublisher.Template

/-!
# Sessions

A session is a rehearsal of a factory and a template with a client by script. It is told what to do
command by command: `Session.perform` carries a command out, lets all tasks run until none can go on,
and gives a `View` of what became visible meanwhile.

Calls are tasks with numbers. What a call leaves behind, a handle, a lease or a pending send, is kept
under a name, or under the number of the call.
-/

namespace TopicPublisher

namespace Rehearsal

namespace Session

/-! ## 1. Commands and what they show -/

/-- A command to a session. -/
inductive Command where
  | send (form : SendForm) (delivery : Delivery)
  | createProducer (topic name : String)
  | acquire (topic name : String)
  | reset
  | shutdown
  | await (task : Nat)
  /-- Sends through a lease, without the template. -/
  | leaseSend (name : String) (spec : MessageSpec)
  | leaseEnqueue (name : String) (spec : MessageSpec)
  | dropPending (task : Nat)
  | abort (task : Nat)
  | tryLease (handle name : String)
  | release (name : String)
  | leaseInfo (name : String)
  | handleInfo (name : String)
  | same (a b : String)
  | templateInfo
  | failCreation (f : Failure)
  | failSend (f : Failure)
  | failClose (topic : String) (f : Failure)
  | holdCreation (topic gate : String)
  | holdSends (gate : String)
  | holdClose (topic gate : String)
  | unhold
  | openGate (gate : String)
  /-- Several commands, before any task runs. -/
  | batch (commands : List Command)

/-- What a command gives at once. -/
inductive Reaction where
  | none
  /-- It began a task. -/
  | task (number : Nat)
  /-- What it is about does not exist. -/
  | missing
  | dropped (b : Bool)
  | aborted (b : Bool)
  | granted (b : Bool)
  | released (b : Bool)
  | lease (h : Handle)
  | handle (h : Handle)
  | same (b : Bool)
  | template (defaultTopic : Option String) (schema : Schema)
  | all (rs : List Reaction)

/-- How a task ended. -/
inductive Report where
  | acknowledged (id : MessageId)
  | promised (topic : String)
  | producer (h : HandleId) (topic : String)
  | lease (h : HandleId) (topic : String) (borrows : Nat)
  | closed (count : Nat)
  | failed (e : Error)
  | clientFailed (e : ClientError)
  | crashed

/-- A handle in the cache. -/
structure CachedHandle where
  topic : String
  borrows : Nat
  producer : HandleId

/-- What a command made visible. -/
structure View where
  reaction : Reaction
  done : List (Nat × Report)
  notes : List Note
  cached : List CachedHandle
  producers : List ScriptedProducer
  closed : Bool

/-! ## 2. The state of a session -/

/-- What is kept of a call that ends well. -/
inductive Keep where
  | nothing
  | handle (name : String)
  | lease (name : String)
  | pending
  deriving DecidableEq, Repr

/-- How far a send through a lease is. -/
inductive DirectSend where
  | fresh (h : HandleId) (spec : MessageSpec) (queue : Bool)
  | underWay (f : Flight)
  | finished (r : Report)
  | aborted

/-- A task under its number. -/
structure Task where
  number : Nat
  id : TaskId
  keep : Keep := .nothing
  /-- It ended, and what it left was kept. -/
  finished : Bool := false
  /-- Somebody tried to abort it. -/
  aborted : Bool := false

/-- A session. -/
structure State where
  stage : Stage ScriptedClient
  template : Template := {}
  handles : List (String × HandleId) := []
  pending : List (Nat × PendingId) := []
  tasks : List Task := []
  direct : Registry DirectSend := .empty
  done : List (Nat × Report) := []
  /-- How many of the client's notes were shown. -/
  shown : Nat := 0

/-- A session with a client of given abilities. -/
def start (ability : Ability) (abilities : List (String × Ability)) (schema : Schema)
    (template : Template) : State :=
  { stage := { schema, client := { ability, abilities } }, template }

namespace State

def handleOf (s : State) (h : HandleId) : Option Handle := s.stage.factory.handles.get? h

def leaseOf (s : State) (name : String) : Option Lease :=
  (Entries.find? name s.stage.leases).bind s.stage.factory.leases.get?

def happen (s : State) (l : Factory.Label) : State :=
  { s with stage := s.stage.happen ScriptedClient.part l }

def keepLease (s : State) (name : String) (l : LeaseId) : State :=
  { s with stage := s.stage.keepLease ScriptedClient.part name l }

def keepHandle (s : State) (name : String) (h : HandleId) : State :=
  { s with handles := Entries.put name h s.handles }

/-! ## 3. Ends of tasks -/

/-- How a call ended; none while it goes on, and for one that was aborted. -/
def reportOf (s : State) : Progress → Option Report
  | .ended (.handle h) => some (.producer h (s.stage.factory.topicOf h))
  | .ended (.lease l) =>
    match (s.stage.factory.leases.get? l).bind fun x => (s.handleOf x.handle).map fun h => (x.handle, h) with
    | some (number, h) => some (.lease number h.topic h.borrows)
    | none => none
  | .ended (.acknowledged id) => some (.acknowledged id)
  | .ended (.promised p) => (s.stage.factory.pending.get? p).map fun q => .promised q.topic
  | .ended (.closed n) => some (.closed n)
  | .ended (.failed e) => some (.failed e)
  | .ended .delivered => none
  | .crashed => some .crashed
  | _ => none

/-- Keeps what a call left. -/
def keepResult (s : State) (t : Task) : Progress → State
  | .ended (.handle h) =>
    match t.keep with
    | .handle name => s.keepHandle name h
    | _ => s
  | .ended (.lease l) =>
    match t.keep, s.stage.factory.leases.get? l with
    | .lease name, some x => (s.keepLease name l).keepHandle name x.handle
    | _, _ => s
  | .ended (.promised p) =>
    if t.keep = .pending then { s with pending := (t.number, p) :: s.pending } else s
  | _ => s

def markOver (s : State) (number : Nat) (r : Option Report) : State :=
  { s with
    tasks := s.tasks.map fun t => if t.number = number then { t with finished := true } else t
    done := s.done ++ (r.map fun r => (number, r)).toList }

/-- Notices that a task's call is over. -/
def notice (s : State) (id : TaskId) : State :=
  match s.tasks.find? fun t => t.id = id && !t.finished, id with
  | some t, .call c =>
    if s.stage.isOver c then
      let p := s.stage.progress c
      (s.markOver t.number (s.reportOf p)).keepResult t p
    else s
  | some t, .own n =>
    match s.direct.get? n with
    | some (.finished r) => s.markOver t.number (some r)
    | _ => s
  | none, _ => s

/-! ## 4. Running -/

/-- Goes on with a send through a lease. -/
def runFlight (client : ScriptedClient) (id : TaskId) : Nat → Flight → ScriptedClient × DirectSend
  | 0, f => (client, .underWay f)
  | fuel + 1, f =>
    match client.pollFlight id f with
    | (client, .later, some f) => (client, .underWay f)
    | (client, .answer (.accepted (.ok _)), some f) => runFlight client id fuel f
    | (client, .answer (.accepted (.error e)), _) => (client, .finished (.clientFailed e))
    | (client, .answer (.receipt (.ok id)), _) => (client, .finished (.acknowledged id))
    | (client, .answer (.receipt (.error e)), _) => (client, .finished (.clientFailed e))
    | (client, _, _) => (client, .finished .crashed)

/-- Runs a send through a lease: it is accepted first where it is queued, and then there is a
receipt. -/
def runDirect (client : ScriptedClient) (id : TaskId) : DirectSend → ScriptedClient × DirectSend
  | .fresh h spec queue =>
    let (client, f) := if queue then client.flightOfEnqueue h spec else client.flightOfSend h spec
    runFlight client id 2 f
  | .underWay f => runFlight client id 2 f
  | d => (client, d)

def run (s : State) (id : TaskId) : State :=
  match id with
  | .call c => { s with stage := s.stage.run ScriptedClient.part id c }.notice id
  | .own n =>
    match s.direct.get? n with
    | none => s
    | some d =>
      let (client, d) := runDirect s.stage.client id d
      { s with stage.client := client, direct := s.direct.update n fun _ => d }.notice id

/-- More runs of tasks than there can be: a call runs once for each thing that it waits for, and each
drain makes it look its topic up once more at most. -/
def enoughRuns (s : State) : Nat :=
  let n := s.stage.factory.calls.size + s.direct.size + s.stage.ready.length + 4
  64 * n * n * n

/-- Lets all tasks run until none can go on. -/
def settle (s : State) : State :=
  runReady State.stage (fun s stage => { s with stage }) run s.enoughRuns s

/-! ## 5. Commands -/

/-- Begins a call as a task. -/
def beginCall (s : State) (number : Nat) (r : Request) (keep : Keep) : Reaction × State :=
  let (stage, c) := s.stage.call ScriptedClient.part r
  (.task number, { s with stage, tasks := ⟨number, .call c, keep, false, false⟩ :: s.tasks })

def beginDirect (s : State) (number : Nat) (name : String) (spec : MessageSpec) (queue : Bool) :
    Reaction × State :=
  match s.leaseOf name with
  | none => (.missing, s)
  | some l =>
    let n := s.direct.size
    (.task number, { s with
      direct := s.direct.add (.fresh l.handle spec queue)
      stage := s.stage.push (.own n)
      tasks := ⟨number, .own n, .nothing, false, false⟩ :: s.tasks })

/-- Aborts a task wherever it waits. A task can be aborted once. -/
def abort (s : State) (number : Nat) : Reaction × State :=
  match s.tasks.find? fun t => t.number = number with
  | none => (.missing, s)
  | some t =>
    if t.aborted then (.missing, s)
    else
      let s := { s with tasks := s.tasks.map fun x =>
        if x.number = number then { x with aborted := true, finished := true } else x }
      if t.finished then (.aborted false, s)
      else
        match t.id with
        | .call c => (.aborted true, s.happen (.abort c))
        | .own n => (.aborted true, { s with direct := s.direct.update n fun _ => .aborted })

/-- Carries one command out that is no batch. -/
def obey (s : State) (number : Nat) : Command → Reaction × State
  | .send form .acknowledged => s.beginCall number (s.template.request form .acknowledged) .nothing
  | .send form .promised => s.beginCall number (s.template.request form .promised) .pending
  | .createProducer topic name => s.beginCall number (.createProducer topic) (.handle name)
  | .acquire topic name => s.beginCall number (.acquire topic) (.lease name)
  | .reset => s.beginCall number .reset .nothing
  | .shutdown => s.beginCall number .shutdown .nothing
  | .await task =>
    match s.pending.find? fun p => p.1 = task with
    | none => (.missing, s)
    | some (_, p) =>
      { s with pending := s.pending.filter fun p => p.1 ≠ task }.beginCall number (.await p) .nothing
  | .leaseSend name spec => s.beginDirect number name spec false
  | .leaseEnqueue name spec => s.beginDirect number name spec true
  | .dropPending task =>
    (.dropped (s.pending.any fun p => p.1 = task),
      { s with pending := s.pending.filter fun p => p.1 ≠ task })
  | .abort task => s.abort task
  | .tryLease handle name =>
    match Entries.find? handle s.handles with
    | none => (.missing, s)
    | some h =>
      let l := s.stage.factory.leases.size
      let granted := (s.stage.factory.borrow h).1
      let s := s.happen (.lease h)
      (.granted granted, if granted then s.keepLease name l else s)
  | .release name =>
    let (released, stage) := s.stage.release ScriptedClient.part name
    (.released released, { s with stage })
  | .leaseInfo name =>
    match (s.leaseOf name).bind fun l => s.handleOf l.handle with
    | none => (.missing, s)
    | some h => (.lease h, s)
  | .handleInfo name =>
    match (Entries.find? name s.handles).bind s.handleOf with
    | none => (.missing, s)
    | some h => (.handle h, s)
  | .same a b =>
    match Entries.find? a s.handles, Entries.find? b s.handles with
    | some a, some b => (.same (a = b), s)
    | _, _ => (.missing, s)
  | .templateInfo => (.template s.template.defaultTopic s.stage.schema, s)
  | .failCreation f =>
    let client := s.stage.client
    (.none, { s with stage.client.creationFailures := client.creationFailures ++ [f] })
  | .failSend f =>
    let client := s.stage.client
    (.none, { s with stage.client.sendFailures := client.sendFailures ++ [f] })
  | .failClose topic f =>
    let client := s.stage.client
    (.none, { s with stage.client.closeFailures := client.closeFailures ++ [(topic, f)] })
  | .holdCreation topic gate =>
    let client := s.stage.client
    (.none, { s with stage.client.creationGates := Entries.put topic gate client.creationGates })
  | .holdSends gate => (.none, { s with stage.client.sendGate := some gate })
  | .holdClose topic gate =>
    let client := s.stage.client
    (.none, { s with stage.client.closeGates := Entries.put topic gate client.closeGates })
  | .unhold => (.none, { s with stage.client := s.stage.client.unhold })
  | .openGate gate =>
    let (client, waiting) := s.stage.client.openGate gate
    (.none, { s with stage := { s.stage with client }.pushAll waiting })
  | .batch _ => (.none, s)

/-- Carries the commands of a batch out; their tasks are numbered from the number given. -/
def obeyAll (s : State) : Nat → List Command → List Reaction × State
  | _, [] => ([], s)
  | number, c :: rest =>
    let (r, s) := s.obey number c
    let (rs, s) := s.obeyAll (number + 1) rest
    (r :: rs, s)

/-- How the tasks of a batch at one place are numbered. -/
def batchBase (index : Nat) : Nat := 1000 * (index + 1)

/-! ## 6. Views -/

def cachedHandles (s : State) : List CachedHandle :=
  let handles := s.stage.factory.cache.handles.filterMap fun h =>
    (s.handleOf h).map fun x => (⟨x.topic, x.borrows, h⟩ : CachedHandle)
  handles.mergeSort fun a b => decide (a.topic ≤ b.topic)

/-- Carries the command at a place out and lets all tasks run. -/
def perform (s : State) (index : Nat) (command : Command) : View × State :=
  let (reaction, s) : Reaction × State := match command with
    | .batch commands =>
      let (rs, s) := s.obeyAll (batchBase index) commands
      (.all rs, s)
    | c => s.obey index c
  let s := s.settle
  let notes := s.stage.client.notes
  ({ reaction
     done := s.done
     notes := (notes.extract s.shown notes.size).toList
     cached := s.cachedHandles
     producers := s.stage.client.producers.toList
     closed := s.stage.factory.cache.closed },
    { s with done := [], shown := notes.size })

def performAll : State → Nat → List Command → List View := Rehearsal.performAll perform

end State

/-- A template's converter that sends the payload of any envelope to one topic, and tells what the
default topic was. -/
def redirect (topic : String) : Converter := fun e defaultTopic =>
  .ok ⟨topic, (MessageSpec.ofPayload e.payload).withConfEntry "default"
    (.str (defaultTopic.getD "none"))⟩

/-- A converter that refuses any envelope. -/
def refusing : Converter := fun _ _ => .error (.config "converter refused")

end Session

end Rehearsal

end TopicPublisher
