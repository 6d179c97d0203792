import TopicPublisher.CommandLine.Input
import TopicPublisher.CommandLine.Publication
import TopicPublisher.CommandLine.Usage
import TopicPublisher.Config.File
import TopicPublisher.Rehearsal.ScriptedBroker

/-!
# Running the command

`CommandLine.run` is the whole command, with the files, the environment and the standard input that
it finds, against a broker that follows a script. It reads the configuration, connects, and publishes;
while all wait, time goes on to the next deadline. The ending is what the command leaves behind.

The command ends with 0 if all went well, with 1 if it fails, with 2 if its arguments are refused, and
with 101 if the wire client crashes under it.
-/

namespace TopicPublisher

namespace CommandLine

open Rehearsal

/-! ## 1. The publication as a task -/

/-- A publication with the factory that it calls. -/
structure Performance where
  publication : Publication
  stage : Stage WireClient
  /-- The call that was made last, until its outcome is taken. -/
  call : Option CallId := none
  crashed : Bool := false

namespace Performance

/-- The task that publishes. -/
def publisher : TaskId := .own 0

/-- Makes the next call, or takes the outcome of the last one; whether there is more to do now. -/
def advance (p : Performance) : Bool × Performance :=
  match p.call with
  | none =>
    match p.publication.next? with
    | none => (false, p)
    | some request =>
      let (stage, c) := p.stage.callWithin WireClient.part publisher request
      (true, { p with stage, call := some c })
  | some c =>
    let stage := p.stage.run WireClient.part publisher c
    match stage.progress c with
    | .ended o => (true, { p with stage, publication := p.publication.take o, call := none })
    | .crashed => (false, { p with stage, crashed := true })
    | _ => (false, { p with stage })

/-- Runs a task: the publisher, or a call that the factory began by itself. -/
def run (p : Performance) : TaskId → Performance
  | .own _ => runFor advance (2 * p.publication.phase.callsLeft + 2) p
  | .call c => { p with stage := p.stage.run WireClient.part (.call c) c }

/-- Whether nothing is left to wait for. -/
def isOver (p : Performance) : Bool := p.crashed || p.publication.isOver

/-- More runs of tasks than there can be: a call runs once for each thing that it waits for. -/
def enoughRuns (p : Performance) : Nat :=
  let n := p.stage.factory.calls.size + p.publication.phase.callsLeft + 4
  64 * n * n

/-- Lets time go on to the next deadline, if there is one. -/
def elapse (p : Performance) : Option Performance :=
  let client := p.stage.client
  match (client.timers.map Prod.fst).min? with
  | none => none
  | some d =>
    let (woken, client) := client.advance (d - client.now)
    some { p with stage := { p.stage with client }.pushAll woken }

/-- Runs tasks until none is ready. -/
def settle (p : Performance) : Performance :=
  runReady Performance.stage (fun p stage => { p with stage }) run p.enoughRuns p

/-- Runs tasks until the publication is over. The number bounds how many deadlines pass. -/
def finish : Nat → Performance → Performance
  | 0, p => p.settle
  | fuel + 1, p =>
    let p := p.settle
    if p.isOver then p
    else
      match p.elapse with
      | none => p
      | some p => finish fuel p

/-- Publishes through a wire client. Each message has one deadline. -/
def of (publication : Publication) (schema : Schema) (client : WireClient) : Performance :=
  let stage : Stage WireClient := { schema, client }
  { publication, stage := stage.push publisher : Performance }.finish
    (publication.phase.callsLeft + 1)

end Performance

/-! ## 2. The command -/

/-- What the command leaves behind.

* `report`: what is written about a failure. -/
structure Ending where
  exitCode : Nat
  printed : List String := []
  report : String := ""
  events : List BrokerEvent := []

namespace Ending

/-- The ending of a command that fails before it publishes. -/
def ofFault (f : CommandFault) (broker : ScriptedBroker) : Ending :=
  { exitCode := 1, report := f.report, events := broker.events.toList }

def ofPerformance (p : Performance) : Ending :=
  let printed := p.publication.printed.map MessageId.text
  let events := p.stage.client.broker.events.toList
  if p.crashed then { exitCode := 101, printed, events }
  else
    match p.publication.fault? with
    | none => { exitCode := 0, printed, events }
    | some f => { exitCode := 1, printed, report := f.report, events }

end Ending

/-- The publication that arguments ask for, whose messages may come from the standard input. -/
def publicationOf (a : Arguments) (template : Template) (input : Bytes) : Publication :=
  let delivery : Delivery := if a.pipelined then .promised else .acknowledged
  if a.messages.isEmpty then
    match messagesOf input with
    | .ok messages => .begin template a.topic delivery messages
    | .error f => .failed template (.input f)
  else .begin template a.topic delivery a.messages

/-- Publishes by a configuration. -/
def publish (a : Arguments) (config : Config) (input : Bytes) (broker : ScriptedBroker) : Ending :=
  match broker.connect config.client.serviceUrl config.client.operationTimeoutSecs with
  | (.error f, broker) => .ofFault (.connection f.toClientError) broker
  | (.ok _, broker) =>
    let client := WireClient.new broker config.producer.sendTimeoutMs
      config.producer.maxPendingMessages
    let template : Template := { defaultTopic := config.template.defaultTopic }
    .ofPerformance (.of (publicationOf a template input) config.producer.schema client)

/-- The command. -/
def run (args : List String) (directory : Directory) (environment : List (String × String))
    (input : Bytes) (script : BrokerScript) : Ending :=
  match Arguments.parse args with
  | .error .help => { exitCode := 0, printed := helpLines }
  | .error (.fault f) => { exitCode := 2, report := f.report }
  | .ok a =>
    match Config.load directory environment a.configFile with
    | .error f => .ofFault (.configuration a.configFile f) { script }
    | .ok config => publish a config input { script }

end CommandLine

end TopicPublisher
