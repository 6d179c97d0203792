import TopicPublisher.Rehearsal.ScriptedClient

/-!
# Cache drills

A drill is a rehearsal of the cache alone. Look-ups are tasks, and each brings its own creation: what
is done first, a gate to wait at, and what comes of it. A creation may look up other topics, or its
own, and waits for them in place; so a task is a stack of look-ups, the innermost of which runs. What
comes of a creation may be any handle there is, and not only a new one as from a wire client.

Draining and closing the cache here only takes the handles out of it. A handle is closed where a
look-up retires it.
-/

namespace TopicPublisher

namespace Rehearsal

namespace CacheDrill

/-! ## 1. Commands and what they show -/

/-- What comes of a creation. -/
inductive Yield where
  /-- A new handle, for a topic other than the one looked up if one is given. -/
  | fresh (topic : Option String)
  | reuse (h : HandleId)
  | fail (topic : Option String) (e : ClientError)
  | closed

/-- A command to a drill. -/
inductive Command where
  /-- Looks a topic up. The creation does the commands first, waits at the gate, and yields. -/
  | getOrCreate (topic : String) (first : List Command) (gate : Option String) (yield : Yield)
  | abort (task : Nat)
  | get (topic : String)
  | drain
  | close
  | lease (h : HandleId) (name : String)
  | release (name : String)
  | failClose (topic : String) (f : Failure)
  | openGate (gate : String)
  deriving Inhabited

/-- How a look-up ended. -/
inductive Report where
  | handle (h : HandleId)
  | failed (e : Error)

/-- What a command gives. -/
inductive Reaction where
  | none
  | task (number : Nat)
  | missing
  | aborted (b : Bool)
  | handle (h : Option HandleId)
  | handles (hs : List HandleId)
  | granted (b : Bool)
  | released (b : Bool)
  /-- The end of a look-up within a creation. -/
  | report (r : Report)

/-- What a command made visible. -/
structure View where
  reaction : Reaction
  done : List (Nat × Report)
  /-- What the commands within creations gave, in the order they ended. -/
  nested : List Reaction
  cached : List HandleId
  closed : Bool
  handles : List Handle

/-! ## 2. The state of a drill -/

/-- How far a creation is. -/
inductive Phase where
  /-- It is not this look-up's turn. -/
  | idle
  | first (commands : List Command)
  | gate
  | yielded

/-- A look-up. -/
structure Frame where
  call : CallId
  topic : String
  first : List Command
  gate : Option String
  yield : Yield
  phase : Phase := .idle

/-- A task: look-ups, the innermost first. -/
structure Task where
  number : Nat
  frames : List Frame
  finished : Bool := false
  aborted : Bool := false

/-- A drill. -/
structure State where
  stage : Stage ScriptedClient := { client := {} }
  tasks : Registry Task := .empty
  done : List (Nat × Report) := []
  nested : List Reaction := []

/-- The client closes producers. Creations are none of its business here. -/
def part : Part ScriptedClient :=
  { ScriptedClient.part with
    take := fun s t w =>
      match w with
      | .newProducer _ _ => s
      | w => s.take t w }

namespace State

def happen (s : State) (l : Factory.Label) : State := { s with stage := s.stage.happen part l }

/-- Takes handles out of the cache; they grant no leases from now on. -/
def take (s : State) (taken : Cache × List HandleId) : Reaction × State :=
  let f := s.stage.factory
  let f := { f with cache := taken.1 }.stopLeasing taken.2
  (.handles (taken.2.mergeSort fun a b => decide (a ≤ b)),
    { s with stage := { s.stage with factory := f } })

def setTask (s : State) (n : Nat) (f : Task → Task) : State :=
  { s with tasks := s.tasks.update n f }

/-! ## 3. Commands that are done at once -/

def abort (s : State) (number : Nat) : Reaction × State :=
  match s.tasks.toList.findIdx? fun t => t.number = number, s.tasks.toList.find? fun t => t.number = number with
  | some n, some t =>
    if t.aborted then (.missing, s)
    else
      let s := s.setTask n fun t => { t with aborted := true, finished := true, frames := [] }
      if t.finished then (.aborted false, s)
      else (.aborted true, t.frames.foldl (fun s f => s.happen (.abort f.call)) s)
  | _, _ => (.missing, s)

/-- Carries a command out that begins no task. A lease takes the place of one of the same name, which
is given back. -/
def obey (s : State) : Command → Reaction × State
  | .getOrCreate _ _ _ _ => (.none, s)
  | .abort number => s.abort number
  | .get topic => (.handle (s.stage.factory.cache.handle? topic), s)
  | .drain => s.take s.stage.factory.cache.take
  | .close => s.take s.stage.factory.cache.shut
  | .lease h name =>
    let l := s.stage.factory.leases.size
    let granted := (s.stage.factory.borrow h).1
    let s := s.happen (.lease h)
    (.granted granted, if granted then { s with stage := s.stage.keepLease part name l } else s)
  | .release name =>
    let (released, stage) := s.stage.release part name
    (.released released, { s with stage })
  | .failClose topic f =>
    let client := s.stage.client
    (.none, { s with stage.client.closeFailures := client.closeFailures ++ [(topic, f)] })
  | .openGate gate =>
    let (client, waiting) := s.stage.client.openGate gate
    (.none, { s with stage := { s.stage with client }.pushAll waiting })

/-! ## 4. Running -/

/-- Ends the creation of a look-up. -/
def endCreation (s : State) (c : CallId) (r : Except Error HandleId) : State :=
  match s.stage.progress c with
  | .creating w k _ => { s with stage := s.stage.follow part (s.stage.factory.created c w k r) }
  | _ => s

/-- Lets a creation yield. A new handle is one of a new producer, which has the same number. -/
def yield (s : State) (f : Frame) : State :=
  match f.yield with
  | .fresh topic =>
    let topic := topic.getD f.topic
    let (factory, h) := s.stage.factory.addHandle topic .sequential
    let client := s.stage.client
    let client := { client with producers := client.producers.add { topic, ability := .sequential } }
    { s with stage := { s.stage with factory, client } }.endCreation f.call (.ok h)
  | .reuse h => s.endCreation f.call (.ok h)
  | .fail topic e =>
    s.endCreation f.call (.error (.producerCreation (topic.getD f.topic) e))
  | .closed => s.endCreation f.call (.error .factoryClosed)

def reportOf : Progress → Option Report
  | .ended (.handle h) => some (.handle h)
  | .ended (.failed e) => some (.failed e)
  | _ => none

/-- Begins a look-up within a task. -/
def lookUp (s : State) (n : Nat) (topic : String) (first : List Command) (gate : Option String)
    (yield : Yield) : State :=
  let (stage, c) := s.stage.callWithin part (.own n) (.want ⟨topic, .peek⟩)
  let frame : Frame := { call := c, topic, first, gate, yield }
  { s with stage }.setTask n fun t => { t with frames := frame :: t.frames }

/-- Goes on from the end of a look-up: with the creation around it, or the task is over. -/
def endFrame (s : State) (n : Nat) (number : Nat) (outer : List Frame) (r : Option Report) : State :=
  let s := s.setTask n fun t => { t with frames := outer, finished := outer.isEmpty }
  match r with
  | none => s
  | some r =>
    if outer.isEmpty then { s with done := s.done ++ [(number, r)] }
    else { s with nested := s.nested ++ [.report r] }

/-- One step of a task, and whether it can go on. -/
def advance (s : State) (n : Nat) : Bool × State :=
  match s.tasks.get? n with
  | none => (false, s)
  | some t =>
    match t.frames with
    | [] => (false, s)
    | f :: outer =>
      let setPhase (s : State) (p : Phase) : State :=
        s.setTask n fun t => { t with frames := { f with phase := p } :: outer }
      let progress := s.stage.progress f.call
      if Factory.Progress.isOver progress then
        (!outer.isEmpty, s.endFrame n t.number outer (reportOf progress))
      else
        match progress, f.phase with
        | .creating _ _ _, .idle => (true, setPhase s (.first f.first))
        | _, .first (.getOrCreate topic first gate yield :: rest) =>
          (true, (setPhase s (.first rest)).lookUp n topic first gate yield)
        | _, .first (c :: rest) =>
          let (r, s) := (setPhase s (.first rest)).obey c
          (true, { s with nested := s.nested ++ [r] })
        | _, .first [] => (true, setPhase s .gate)
        | _, .gate =>
          match s.stage.client.pass (.own n) f.gate with
          | (false, client) => (false, { s with stage.client := client })
          | (true, client) => (true, (setPhase { s with stage.client := client } .yielded).yield f)
        | _, _ =>
          let (going, stage) := s.stage.advance part (.own n) f.call
          (going, { s with stage })

mutual

/-- How many commands there are within a command, itself included. -/
def weight : Command → Nat
  | .getOrCreate _ first _ _ => 1 + weights first
  | _ => 1

def weights : List Command → Nat
  | [] => 0
  | c :: rest => weight c + weights rest

end

/-- More steps than a task has: a few for each command in its creations. -/
def enough (s : State) : Nat :=
  s.tasks.toList.foldl (fun n t => t.frames.foldl (fun n f => n + 16 + 16 * weights f.first) n) 64

def run (s : State) : TaskId → State
  | .own n => runFor (fun s => s.advance n) s.enough s
  | .call _ => s

/-- More runs of tasks than there can be. -/
def enoughRuns (s : State) : Nat := s.enough * (s.tasks.size + 1)

/-! ## 5. Views -/

/-- Carries the command at a place out and lets all tasks run. -/
def perform (s : State) (index : Nat) (command : Command) : View × State :=
  let (reaction, s) : Reaction × State := match command with
    | .getOrCreate topic first gate yield =>
      let n := s.tasks.size
      let s := { s with tasks := s.tasks.add { number := index, frames := [] } }
      let s := s.lookUp n topic first gate yield
      (.task index, { s with stage := s.stage.push (.own n) })
    | c => s.obey c
  let s := runReady State.stage (fun s stage => { s with stage }) run s.enoughRuns s
  let f := s.stage.factory
  ({ reaction
     done := s.done
     nested := s.nested
     cached := f.cache.handles.mergeSort fun a b => decide (a ≤ b)
     closed := f.cache.closed
     handles := f.handles.toList },
    { s with done := [], nested := [] })

def performAll : State → Nat → List Command → List View := Rehearsal.performAll perform

end State

end CacheDrill

end Rehearsal

end TopicPublisher
