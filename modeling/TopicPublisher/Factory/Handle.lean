import TopicPublisher.Error
import TopicPublisher.Text.Quoted

/-!
# Producer handles

A handle is the factory's share in one producer. Senders borrow it through leases, and `borrows`
counts the leases there are. Only retiring a handle closes its producer: it stops new leases, waits
until the last one is gone, and then the first call that finds the handle unclosed closes it.

The operations are the single actions on a handle that no other action can come between:
`beginBorrow` and `endBorrow` on the count, `stopLeasing`, and `claimClose`. A lease is taken by
counting first and looking at the flag second (`tryLease`), so a refused lease raises the count for a
moment and lowers it again. Whenever the count falls to zero, the calls parked on the handle go on.
-/

namespace TopicPublisher

/-- The number of a call on the factory. -/
abbrev CallId := Nat

/-- The number of a producer and of its handle. -/
abbrev HandleId := Nat

/-- How a producer takes messages from a caller that does not wait. It is declared once, when the
producer is opened. -/
inductive DispatchMode where
  /-- One message at a time; somebody has to wait for each receipt. -/
  | sequential
  /-- Messages are queued and their receipts come later. -/
  | pipelined
  deriving DecidableEq, Repr

def DispatchMode.text : DispatchMode → String
  | .sequential => "Sequential"
  | .pipelined => "Pipelined"

/-- The factory's share in a producer.

* `borrows`: how many leases there are, and refused ones that were counted and not yet uncounted.
* `closed`: some call has taken it on itself to close the producer.
* `parked`: the calls that wait for the last lease to go, in the order they began to wait. -/
structure Handle where
  topic : String
  mode : DispatchMode
  borrows : Nat := 0
  retiring : Bool := false
  closed : Bool := false
  closes : Nat := 0
  parked : List CallId := []
  deriving DecidableEq, Repr

namespace Handle

def beginBorrow (h : Handle) : Handle := { h with borrows := h.borrows + 1 }

/-- Ends a borrow. With the last one, everybody parked on the handle is woken. -/
def endBorrow (h : Handle) : Handle × List CallId :=
  if h.borrows = 1 then ({ h with borrows := 0, parked := [] }, h.parked)
  else ({ h with borrows := h.borrows - 1 }, [])

def stopLeasing (h : Handle) : Handle := { h with retiring := true }

/-- Asks for a lease: whether it is granted, and who is woken because the count fell to zero. -/
def tryLease (h : Handle) : Bool × Handle × List CallId :=
  let counted := h.beginBorrow
  if counted.retiring then (false, counted.endBorrow) else (true, counted, [])

/-- Takes on the close: whether nobody had done so before. -/
def claimClose (h : Handle) : Bool × Handle := (!h.closed, { h with closed := true })

def park (h : Handle) (c : CallId) : Handle :=
  if c ∈ h.parked then h else { h with parked := h.parked ++ [c] }

def unpark (h : Handle) (c : CallId) : Handle := { h with parked := h.parked.filter (· ≠ c) }

/-- A handle in words, for those who look for a fault. -/
def describe (h : Handle) : String :=
  "ProducerHandle \x7b topic: " ++ Text.quoted h.topic ++ ", dispatch_mode: " ++ h.mode.text ++
    ", borrows: " ++ toString h.borrows ++ ", closed: " ++ (if h.closed then "true" else "false") ++
    " \x7d"

/-- A lease on a handle in words. -/
def describeLease (h : Handle) : String := "ProducerLease(" ++ h.describe ++ ")"

end Handle

end TopicPublisher
