import TopicPublisher.Factory.Cache
import TopicPublisher.Message
import TopicPublisher.MessageId
import TopicPublisher.Topic

/-!
# The state of a factory

A factory serves any number of calls at once. Calls take turns: one runs until it waits for
something, and then another may run. A call is the point that it has got to (`Progress`), and the
factory is the calls, the cache, the handles, and what callers were given: leases and pending sends.

All that the factory asks of the wire client, and all that it tells its callers, is written into its
journal. A request to the client has a number, its ticket, and is answered under that number.
-/

namespace TopicPublisher

/-- The number of a request to the wire client. -/
abbrev Ticket := Nat

abbrev LeaseId := Nat

abbrev PendingId := Nat

/-! ## 1. What is asked for -/

/-- When a send is over for the one who sends. -/
inductive Delivery where
  /-- When the message's receipt has come. -/
  | acknowledged
  /-- When the producer has the message; the receipt is for a pending send to tell. -/
  | promised
  deriving DecidableEq, Repr

/-- What a handle is wanted for. -/
inductive Purpose where
  /-- For nothing: whatever handle the cache gives, even one that grants no leases any more. -/
  | peek
  | open
  | lease
  | send (spec : MessageSpec) (delivery : Delivery)

/-- A handle wanted for a topic, under the topic's canonical text. -/
structure Want where
  topic : String
  purpose : Purpose

/-- What a call is to do. -/
inductive Request where
  | want (w : Want)
  /-- Fails before the factory is looked at. -/
  | refuse (e : Error)
  | reset
  | shutdown
  | await (p : PendingId)
  /-- Sends a message through a handle leased before, on behalf of a pending send. -/
  | dispatch (h : HandleId) (spec : MessageSpec) (p : PendingId)

namespace Request

def createProducer (topic : String) : Request := .want ⟨canonicalize topic, .open⟩

def acquire (topic : String) : Request := .want ⟨canonicalize topic, .lease⟩

/-- A request to send a message, or to fail where no message could be made. -/
def send (message : Except Error OutboundMessage) (delivery : Delivery) : Request :=
  match message with
  | .ok m => .want ⟨canonicalize m.topic, .send m.spec delivery⟩
  | .error e => .refuse e

end Request

/-! ## 2. What is asked of the wire client -/

/-- A request to the wire client. -/
inductive Demand where
  | openProducer (topic : String)
  | send (h : HandleId) (spec : MessageSpec)
  /-- Takes the message into the producer's queue; the receipt comes later, under the same ticket. -/
  | enqueue (h : HandleId) (spec : MessageSpec)
  | close (h : HandleId)

/-- A request as the wire client gets it, which knows of no factory and takes a schema along with the
topic of a producer to open. -/
inductive WireCall where
  | newProducer (topic : String) (schema : Schema)
  | send (h : HandleId) (spec : MessageSpec)
  | sendAsync (h : HandleId) (spec : MessageSpec)
  | close (h : HandleId)

/-- The call on the wire client that makes a request of a factory with a schema. -/
def Demand.call (schema : Schema) : Demand → WireCall
  | .openProducer topic => .newProducer topic schema
  | .send h spec => .send h spec
  | .enqueue h spec => .sendAsync h spec
  | .close h => .close h

/-- An answer of the wire client. -/
inductive Answer where
  | opened (r : Except ClientError DispatchMode)
  | accepted (r : Except ClientError Unit)
  /-- The receipt of a message, sent or enqueued. -/
  | receipt (r : Except ClientError MessageId)
  | closed (r : Except ClientError Unit)

/-! ## 3. How far a call is -/

/-- How the closing of one handle ended. -/
inductive Closing where
  | done
  /-- Another call had closed it. -/
  | elsewhere
  | failed (e : ClientError)
  deriving DecidableEq, Repr

def closingOf : Except ClientError Unit → Closing
  | .ok _ => .done
  | .error e => .failed e

/-- How far the retiring of one handle is. -/
inductive RetireStage where
  | waiting
  | closing (t : Ticket)
  | finished (r : Closing)
  deriving DecidableEq, Repr

/-- A handle that a call retires. -/
structure Retirement where
  handle : HandleId
  stage : RetireStage := .waiting
  deriving DecidableEq, Repr

/-- What a call does when the handles that it retires are closed. -/
inductive AfterRetiring where
  | give (w : Want) (h : HandleId)
  | refuse
  /-- Tells how many of them it closed itself. -/
  | count

/-- How a call ended. -/
inductive Outcome where
  | handle (h : HandleId)
  | lease (l : LeaseId)
  | acknowledged (id : MessageId)
  | promised (p : PendingId)
  | closed (count : Nat)
  | failed (e : Error)
  /-- The outcome was left to a pending send. -/
  | delivered
  deriving DecidableEq, Repr

/-- The point that a call has got to. While it is sending, enqueuing or completing it holds a lease. -/
inductive Progress where
  | fresh (r : Request)
  | queued (w : Want) (k : CellId)
  | creating (w : Want) (k : CellId) (t : Ticket)
  | retiring (rs : List Retirement) (next : AfterRetiring)
  | sending (h : HandleId) (t : Ticket)
  | enqueuing (h : HandleId) (t : Ticket)
  /-- It waits for a receipt on behalf of a pending send. -/
  | completing (h : HandleId) (t : Ticket) (p : PendingId)
  | awaiting (p : PendingId)
  /-- It looks up the same handle over and over, which grants no lease. -/
  | spinning
  | ended (o : Outcome)
  | aborted
  | crashed

/-! ## 4. What callers were given -/

structure Lease where
  handle : HandleId
  released : Bool := false
  deriving DecidableEq, Repr

inductive PendingState where
  | unknown
  | settled (r : Except Error MessageId)
  /-- The call that was to settle it is gone. -/
  | abandoned

/-- A send whose outcome comes later. -/
structure Pending where
  topic : String
  state : PendingState := .unknown
  awaiter : Option CallId := none

namespace Pending

/-- The error of a send that nobody is left to settle. -/
def lost (topic : String) : Error := .ofSend topic (.other "send task ended without an outcome")

/-- The outcome, once there is one. -/
def outcome? (p : Pending) : Option (Except Error MessageId) :=
  match p.state with
  | .unknown => none
  | .settled r => some r
  | .abandoned => some (.error (lost p.topic))

end Pending

/-! ## 5. The factory -/

/-- What a factory does that others see.

* `withdrawn`: nobody waits for the answer any more.
* `woken`: what a call waits for has come. -/
inductive Event where
  | lookedUp (c : CallId) (topic : String)
  | asked (c : CallId) (t : Ticket) (d : Demand)
  | withdrawn (t : Ticket)
  | opened (c : CallId) (h : HandleId)
  | drained (c : CallId) (hs : List HandleId)
  | started (c : CallId)
  | woken (c : CallId)
  | finished (c : CallId)

/-- The cache, the handles, the calls, and what callers were given. -/
structure Factory where
  cache : Cache := {}
  handles : Registry Handle := .empty
  calls : Registry Progress := .empty
  leases : Registry Lease := .empty
  pending : Registry Pending := .empty
  tickets : Nat := 0
  journal : Array Event := #[]

instance : Inhabited Factory := ⟨{}⟩

namespace Factory

def new : Factory := {}

def note (s : Factory) (e : Event) : Factory := { s with journal := s.journal.push e }

def noteAll (s : Factory) (es : List Event) : Factory := es.foldl note s

def wake (s : Factory) (cs : List CallId) : Factory := s.noteAll (cs.map .woken)

def goTo (s : Factory) (c : CallId) (p : Progress) : Factory :=
  { s with calls := s.calls.update c fun _ => p }

def finish (s : Factory) (c : CallId) (o : Outcome) : Factory :=
  (s.goTo c (.ended o)).note (.finished c)

def start (s : Factory) (p : Progress) : Factory :=
  { s with calls := s.calls.add p }.note (.started s.calls.size)

def ask (s : Factory) (c : CallId) (d : Demand) : Factory :=
  { s with tickets := s.tickets + 1 }.note (.asked c s.tickets d)

def topicOf (s : Factory) (h : HandleId) : String := ((s.handles.get? h).map Handle.topic).getD ""

def isRetiring (s : Factory) (h : HandleId) : Bool :=
  ((s.handles.get? h).map Handle.retiring).getD false

def modeOf (s : Factory) (h : HandleId) : DispatchMode :=
  ((s.handles.get? h).map Handle.mode).getD .sequential

def setHandle (s : Factory) (h : HandleId) (f : Handle → Handle) : Factory :=
  { s with handles := s.handles.update h f }

def stopLeasing (s : Factory) (hs : List HandleId) : Factory :=
  hs.foldl (fun s h => s.setHandle h Handle.stopLeasing) s

def endBorrow (s : Factory) (h : HandleId) : Factory :=
  match s.handles.get? h with
  | none => s
  | some x => (s.setHandle h fun _ => x.endBorrow.1).wake x.endBorrow.2

/-- Asks for a lease: whether it is granted. -/
def borrow (s : Factory) (h : HandleId) : Bool × Factory :=
  match s.handles.get? h with
  | none => (false, s)
  | some x => (x.tryLease.1, (s.setHandle h fun _ => x.tryLease.2.1).wake x.tryLease.2.2)

def handOver (s : Factory) (h : HandleId) : Factory :=
  { s with leases := s.leases.add { handle := h } }

def setCell (s : Factory) (k : CellId) (f : Cell → Cell × List CallId) : Factory :=
  match s.cache.cells.get? k with
  | none => s
  | some x =>
    { s with cache := { s.cache with cells := s.cache.cells.update k fun _ => (f x).1 } }.wake (f x).2

def settle (s : Factory) (p : PendingId) (x : PendingState) : Factory :=
  match s.pending.get? p with
  | none => s
  | some q =>
    { s with pending := s.pending.update p fun q => { q with state := x, awaiter := none } }.wake
      q.awaiter.toList

end Factory

end TopicPublisher
