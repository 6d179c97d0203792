import TopicPublisher.Factory.Step

/-!
# Rehearsals

A rehearsal runs a factory with a client that plays a part, one task at a time. A task runs until it
waits for something that has not happened. What happens puts the tasks that waited for it at the end
of the queue, in the order in which they began to wait.

`Stage` is a factory with its client and the queue. All that happens to the factory goes through
`Factory.step`, so a rehearsal never leaves the reachable states; the client is asked what the
factory's journal says it was asked.

What all rehearsals have in common is here: they run a step as long as it can go on (`runFor`), run tasks
as long as one is ready (`runReady`), and show what each command made visible (`performAll`).
-/

namespace TopicPublisher

namespace Rehearsal

/-- Who runs: a call of the factory, or a task of the rehearsal's own. -/
inductive TaskId where
  | call (c : CallId)
  | own (n : Nat)
  deriving DecidableEq, Repr

/-- What a client says of a request. -/
inductive Reply where
  | later
  | answer (a : Answer)
  | crash

/-- How a client with states `σ` plays its part.

* `take`: it is asked something.
* `poll`: it is asked for the answer, by a task that waits for it.
* `drop`: nobody waits for the answer any more. -/
structure Part (σ : Type) where
  take : σ → Ticket → WireCall → σ
  poll : σ → Ticket → TaskId → σ × Reply
  drop : σ → Ticket → σ

/-- A factory, its client, and the tasks that are ready to run.

* `heard`: how much of the journal was passed on.
* `owners`: the tasks that calls belong to, where they are no tasks themselves.
* `leases`: the leases that callers keep, each under a name. -/
structure Stage (σ : Type) where
  factory : Factory := {}
  schema : Schema := {}
  client : σ
  heard : Nat := 0
  ready : List TaskId := []
  owners : List (CallId × TaskId) := []
  leases : List (String × LeaseId) := []

/-- Takes steps until one says that it cannot go on. The number bounds how many there are. -/
def runFor {α : Type} (advance : α → Bool × α) : Nat → α → α
  | 0, s => s
  | fuel + 1, s =>
    match advance s with
    | (true, s) => runFor advance fuel s
    | (false, s) => s

theorem runFor_induct {α : Type} {motive : α → Prop} {advance : α → Bool × α}
    (hstep : ∀ s, motive s → motive (advance s).2) {s : α} (h : motive s) (fuel : Nat) :
    motive (runFor advance fuel s) := by
  induction fuel generalizing s with
  | zero => exact h
  | succ fuel ih =>
    have hnext := hstep s h
    unfold runFor
    split
    · next heq =>
      rw [heq] at hnext
      exact ih hnext
    · next heq =>
      rw [heq] at hnext
      exact hnext

namespace Stage

variable {σ : Type}

/-- Puts a task at the end of the queue, if it is not in it. -/
def push (s : Stage σ) (t : TaskId) : Stage σ :=
  if t ∈ s.ready then s else { s with ready := s.ready ++ [t] }

def pushAll (s : Stage σ) (ts : List TaskId) : Stage σ := ts.foldl push s

/-- The first task of the queue, which leaves it. -/
def pop (s : Stage σ) : Option (TaskId × Stage σ) :=
  match s.ready with
  | [] => none
  | t :: rest => some (t, { s with ready := rest })

def ownerOf (s : Stage σ) (c : CallId) : TaskId :=
  match s.owners.find? fun o => o.1 = c with
  | some o => o.2
  | none => .call c

/-- Passes one event of the journal on. -/
def hear (part : Part σ) (s : Stage σ) : Event → Stage σ
  | .asked _ t d => { s with client := part.take s.client t (d.call s.schema) }
  | .withdrawn t => { s with client := part.drop s.client t }
  | .started c => s.push (s.ownerOf c)
  | .woken c => s.push (s.ownerOf c)
  | _ => s

/-- Goes on with a factory to which something happened. -/
def follow (part : Part σ) (s : Stage σ) (f : Factory) : Stage σ :=
  let news := (f.journal.extract s.heard f.journal.size).toList
  news.foldl (hear part) { s with factory := f, heard := f.journal.size }

/-- Lets something happen to the factory; where it cannot happen, nothing does. -/
def happen (part : Part σ) (s : Stage σ) (l : Factory.Label) : Stage σ :=
  match s.factory.step l with
  | none => s
  | some f => s.follow part f

/-- Makes a call that is a task of its own. -/
def call (part : Part σ) (s : Stage σ) (r : Request) : Stage σ × CallId :=
  (s.happen part (.call r), s.factory.calls.size)

/-- Makes a call within a task that runs already. -/
def callWithin (part : Part σ) (s : Stage σ) (t : TaskId) (r : Request) : Stage σ × CallId :=
  let c := s.factory.calls.size
  let ready := s.ready
  let s := { s with owners := (c, t) :: s.owners }.happen part (.call r)
  ({ s with ready }, c)

def progress (s : Stage σ) (c : CallId) : Progress := (s.factory.calls.get? c).getD .aborted

/-- Whether a call is over. -/
def isOver (s : Stage σ) (c : CallId) : Bool := Factory.Progress.isOver (s.progress c)

/-- The requests to the client that a call waits for. -/
def ticketsOf : Progress → List Ticket
  | .creating _ _ t => [t]
  | .sending _ t => [t]
  | .enqueuing _ t => [t]
  | .completing _ t _ => [t]
  | .retiring rs _ => rs.filterMap fun r =>
    match r.stage with
    | .closing t => some t
    | _ => none
  | _ => []

/-- Asks the client for the first answer that it has. -/
def pollAll (part : Part σ) (task : TaskId) : List Ticket → σ → σ × Option (Ticket × Reply)
  | [], x => (x, none)
  | t :: ts, x =>
    match part.poll x t task with
    | (x, .later) => pollAll part task ts x
    | (x, reply) => (x, some (t, reply))

/-- Goes one step further with a call, on behalf of a task; none where it has to wait. -/
def advance (part : Part σ) (s : Stage σ) (task : TaskId) (c : CallId) : Bool × Stage σ :=
  match s.factory.step (.resume c) with
  | some f => (true, s.follow part f)
  | none =>
    match pollAll part task (ticketsOf (s.progress c)) s.client with
    | (client, none) => (false, { s with client })
    | (client, some (t, .answer a)) => (true, { s with client }.happen part (.answer c t a))
    | (client, some (_, _)) => (true, { s with client }.happen part (.crash c))

/-- More steps than one run of a call has: each looks a topic up or is about a handle. -/
def enough (s : Stage σ) : Nat := 64 + 8 * (s.factory.handles.size + s.factory.calls.size)

/-- Runs a call on behalf of a task, until it waits or is over. -/
def run (part : Part σ) (s : Stage σ) (task : TaskId) (c : CallId) : Stage σ :=
  runFor (fun s => s.advance part task c) s.enough s

/-- Gives back the lease that is kept under a name. A name without a lease has none to give. -/
def release (part : Part σ) (s : Stage σ) (name : String) : Bool × Stage σ :=
  match Entries.find? name s.leases with
  | none => (false, s)
  | some l =>
    (true, { s with leases := Entries.erase name s.leases }.happen part (.release l))

/-- Keeps a lease under a name. One that was there before is given back. -/
def keepLease (part : Part σ) (s : Stage σ) (name : String) (l : LeaseId) : Stage σ :=
  let (_, s) := s.release part name
  { s with leases := (name, l) :: s.leases }

end Stage

/-- Runs tasks of a stage until none is ready. The number bounds how many times a task is run. -/
def runReady {α σ : Type} (stage : α → Stage σ) (setStage : α → Stage σ → α) (run : α → TaskId → α) :
    Nat → α → α
  | 0, s => s
  | fuel + 1, s =>
    match (stage s).pop with
    | none => s
    | some (t, rest) => runReady stage setStage run fuel (run (setStage s rest) t)

theorem runReady_induct {α σ : Type} {motive : α → Prop} {stage : α → Stage σ}
    {setStage : α → Stage σ → α} {run : α → TaskId → α}
    (hpop : ∀ s ts, motive s → motive (setStage s { stage s with ready := ts }))
    (hrun : ∀ s t, motive s → motive (run s t)) {s : α} (h : motive s) (fuel : Nat) :
    motive (runReady stage setStage run fuel s) := by
  induction fuel generalizing s with
  | zero => exact h
  | succ fuel ih =>
    unfold runReady
    cases hready : (stage s).ready with
    | nil => simpa [Stage.pop, hready] using h
    | cons t rest => simpa [Stage.pop, hready] using ih (hrun _ t (hpop s rest h))

/-- The views after each of the commands, which are at places from a number on. -/
def performAll {α β γ : Type} (perform : α → Nat → β → γ × α) : α → Nat → List β → List γ
  | _, _, [] => []
  | s, index, c :: rest =>
    let (view, s) := perform s index c
    view :: performAll perform s (index + 1) rest

end Rehearsal

end TopicPublisher
