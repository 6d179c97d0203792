import TopicPublisher.Registry
import TopicPublisher.Wire.Broker
import TopicPublisher.Wire.Message

/-!
# Producers on the wire

A producer admits a bounded number of messages at once. A send takes a permit before anything else
and gives it back when it is over, in whatever way: its message is malformed or is not taken, its
receipt comes, no receipt comes in time, or nobody waits for it any more. A send that finds no permit
fails at once.

The time for a receipt runs from when somebody begins to wait for it.
-/

namespace TopicPublisher

/-- The number of a send of one producer. -/
abbrev SendId := Nat

/-- How far a send is. -/
inductive SendStage where
  /-- The message is on its way into the queue. -/
  | enqueuing
  /-- The receipt has not come. There is a deadline once somebody waits for it. -/
  | waiting (deadline : Option Nat)
  | finished
  deriving DecidableEq, Repr

/-- A producer with its window of permits. -/
structure WireProducer where
  topic : String
  maxPending : Nat
  /-- How many permits are left. -/
  free : Nat := maxPending
  sends : Registry SendStage := .empty

/-- The text of a time span given in milliseconds: the largest unit it fills, with as many places as
it needs. -/
def spanText (ms : Nat) : String :=
  if ms = 0 then "0ns"
  else if ms < 1000 then toString ms ++ "ms"
  else
    let places := (toString (1000 + ms % 1000)).toList.drop 1
    let places := (places.reverse.dropWhile fun c => c = '0').reverse
    toString (ms / 1000) ++ (if places.isEmpty then "" else "." ++ String.ofList places) ++ "s"

namespace WireProducer

/-- The most permits that a producer can be opened with. -/
def maxPermits : Nat := Word.maxUnsigned >>> 3

/-- The error of a send that finds no permit. -/
def full (p : WireProducer) : ClientError :=
  .queueFull (toString p.maxPending ++ " messages pending on '" ++ p.topic ++ "'")

/-- Begins a send at the time `now`: the message that is to be queued, under its number. -/
def begin (p : WireProducer) (now : Nat) (spec : MessageSpec) :
    WireProducer × Except ClientError (SendId × WireMessage) :=
  if p.free = 0 then (p, .error p.full)
  else
    match WireMessage.ofSpec now spec with
    | .error e => (p, .error e)
    | .ok m =>
      ({ p with free := p.free - 1, sends := p.sends.add .enqueuing }, .ok (p.sends.size, m))

/-- Ends a send that is not over, and gives its permit back. -/
def finish (p : WireProducer) (i : SendId) : WireProducer :=
  match p.sends.get? i with
  | none => p
  | some .finished => p
  | some _ => { p with free := p.free + 1, sends := p.sends.update i fun _ => .finished }

/-- The message was taken into the queue, or was not. -/
def enqueued (p : WireProducer) (i : SendId) (r : Except BrokerFault Unit) :
    WireProducer × Except ClientError Unit :=
  match r with
  | .error f => (p.finish i, .error f.toClientError)
  | .ok _ => ({ p with sends := p.sends.update i fun _ => .waiting none }, .ok ())

/-- Somebody waits for the receipt at the time `now`, at most as long as the timeout. -/
def await (p : WireProducer) (i : SendId) (now timeout : Nat) : WireProducer :=
  { p with sends := p.sends.update i fun
      | .waiting none => .waiting (some (now + timeout))
      | s => s }

/-- When the wait for a receipt ends. -/
def deadline? (p : WireProducer) (i : SendId) : Option Nat :=
  match p.sends.get? i with
  | some (.waiting d) => d
  | _ => none

/-- The receipt has come. A receipt may lack the message's name. -/
def receive (p : WireProducer) (i : SendId) (r : Except BrokerFault (Option MessageId)) :
    WireProducer × Except ClientError MessageId :=
  (p.finish i,
    match r with
    | .error f => .error f.toClientError
    | .ok none => .error (.other "receipt without message id")
    | .ok (some id) => .ok id)

/-- The deadline has passed. -/
def expire (p : WireProducer) (i : SendId) (timeout : Nat) : WireProducer × ClientError :=
  (p.finish i, .timeout ("no receipt within " ++ spanText timeout))

end WireProducer

example : [spanText 0, spanText 250, spanText 1000, spanText 1500, spanText 1234567]
    = ["0ns", "250ms", "1s", "1.5s", "1234.567s"] := by decide +kernel

end TopicPublisher
