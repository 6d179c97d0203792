import TopicPublisher.Factory.State

/-!
# One step of a factory

`Factory.step` says what becomes of a factory when one thing happens: a call is made, a call goes on
as far as it can, the wire client answers, a call is aborted or crashes, a caller takes or releases a
lease. A step runs to the next point where the call waits, so between two steps any other call may
have its turn. Whatever order the steps come in, `Reachable` holds of the state they lead to.
-/

namespace TopicPublisher

namespace Factory

/-! ## 1. Handles for callers -/

/-- Sends a message through a handle that was borrowed for it. -/
def dispatch (s : Factory) (c : CallId) (h : HandleId) (spec : MessageSpec) :
    Delivery → Factory
  | .acknowledged => (s.goTo c (.sending h s.tickets)).ask c (.send h spec)
  | .promised =>
    match s.modeOf h with
    | .pipelined => (s.goTo c (.enqueuing h s.tickets)).ask c (.enqueue h spec)
    | .sequential =>
      let p := s.pending.size
      let s := { s with pending := s.pending.add { topic := s.topicOf h } }
      (s.start (.fresh (.dispatch h spec p))).finish c (.promised p)

/-- Does with a handle that grants leases what it is wanted for. -/
def grant (s : Factory) (c : CallId) (w : Want) (h : HandleId) : Factory :=
  match w.purpose with
  | .peek => s.finish c (.handle h)
  | .open => s.finish c (.handle h)
  | .lease =>
    let (granted, s) := s.borrow h
    if granted then (s.handOver h).finish c (.lease s.leases.size) else s.goTo c .spinning
  | .send spec delivery =>
    let (granted, s) := s.borrow h
    if granted then s.dispatch c h spec delivery else s.goTo c .spinning

/-- Begins to open a producer, on the call's turn at a cell. -/
def create (s : Factory) (c : CallId) (w : Want) (k : CellId) : Factory :=
  (s.goTo c (.creating w k s.tickets)).ask c (.openProducer w.topic)

/-- Looks a topic up. A handle in the cache that grants no leases is found again and again. -/
def look (s : Factory) (c : CallId) (w : Want) : Factory :=
  let s := s.note (.lookedUp c w.topic)
  if s.cache.closed then s.finish c (.failed .factoryClosed)
  else
    let (cache, k) := s.cache.cellFor w.topic
    let s := { s with cache }
    match cache.value? k with
    | some h =>
      match w.purpose with
      | .peek => s.finish c (.handle h)
      | _ => if s.isRetiring h then s.goTo c .spinning else s.grant c w h
    | none =>
      match cache.cells.get? k with
      | none => s
      | some cell =>
        let (turn, cell) := cell.enter c
        let s := { s with cache := { cache with cells := cache.cells.update k fun _ => cell } }
        if turn then s.create c w k else s.goTo c (.queued w k)

/-- Goes on with the handle that a look-up gave. One that was taken out of the cache meanwhile is
looked up again. -/
def give (s : Factory) (c : CallId) (w : Want) (h : HandleId) : Factory :=
  match w.purpose with
  | .peek => s.finish c (.handle h)
  | _ => if s.isRetiring h then s.look c w else s.grant c w h

/-! ## 2. Retiring handles -/

/-- Closes the handles of a call that nobody leases any more. -/
def closeFree (s : Factory) (c : CallId) : List Retirement → Factory × List Retirement
  | [] => (s, [])
  | r :: rest =>
    let (s, r) : Factory × Retirement :=
      match r.stage, s.handles.get? r.handle with
      | .waiting, some x =>
        if x.borrows = 0 then
          if x.closed then (s, { r with stage := .finished .elsewhere })
          else
            ((s.setHandle r.handle fun x => { x.claimClose.2 with closes := x.closes + 1 }).ask c
              (.close r.handle), { r with stage := .closing s.tickets })
        else (s.setHandle r.handle fun x => x.park c, r)
      | _, _ => (s, r)
    let (s, rest) := s.closeFree c rest
    (s, r :: rest)

/-- A retirement when the closing under a ticket is over. -/
def closeOver (t : Ticket) (r : Except ClientError Unit) (x : Retirement) : Retirement :=
  if x.stage = .closing t then { x with stage := .finished (closingOf r) } else x

/-- The result of a closing that is over. -/
def Retirement.result? (r : Retirement) : Option Closing :=
  match r.stage with
  | .finished x => some x
  | _ => none

/-- Whether all closings of a call are over. -/
def allOver (rs : List Retirement) : Bool := rs.all fun r => (Retirement.result? r).isSome

/-- How many producers a call closed itself, without an error. -/
def closedCount (rs : List Retirement) : Nat :=
  rs.countP fun r => Retirement.result? r = some .done

/-- Goes on when all handles of a call were looked at. -/
def retired (s : Factory) (c : CallId) (rs : List Retirement) (next : AfterRetiring) : Factory :=
  if allOver rs then
    match next with
    | .give w h => s.give c w h
    | .refuse => s.finish c (.failed .factoryClosed)
    | .count => s.finish c (.closed (closedCount rs))
  else s.goTo c (.retiring rs next)

/-- Goes on with the retiring of handles, and when it is over, with what comes after it. -/
def retire (s : Factory) (c : CallId) (rs : List Retirement) (next : AfterRetiring) : Factory :=
  let (s, rs) := s.closeFree c rs
  s.retired c rs next

/-- Begins to retire handles: they grant no leases from now on. -/
def beginRetiring (s : Factory) (c : CallId) (hs : List HandleId) (next : AfterRetiring) : Factory :=
  (s.stopLeasing hs).retire c (hs.map fun h => { handle := h }) next

/-- Takes all handles out of the cache and retires them. -/
def drain (s : Factory) (c : CallId) (taken : Cache × List HandleId) : Factory :=
  ({ s with cache := taken.1 }.note (.drained c taken.2)).beginRetiring c taken.2 .count

/-! ## 3. Creations -/

/-- Goes on with the handle that a cell was filled with. -/
def place (s : Factory) (c : CallId) (w : Want) (k : CellId) (h : HandleId) : Factory :=
  let (placement, cache) := s.cache.place (s.isRetiring h) w.topic k h
  let s := { s with cache }
  match placement with
  | .cached h => s.give c w h
  | .retired h => s.give c w h
  | .superseded winner loser => s.beginRetiring c [loser] (.give w winner)
  | .closed h => s.beginRetiring c [h] .refuse

/-- Ends a call's creation: a failure gives up the turn, a success fills the cell. -/
def created (s : Factory) (c : CallId) (w : Want) (k : CellId) (r : Except Error HandleId) : Factory :=
  match r with
  | .error e => (s.setCell k Cell.pass).finish c (.failed e)
  | .ok h => (s.setCell k fun cell => cell.fill h).place c w k h

/-- A handle for a producer that was opened. -/
def addHandle (s : Factory) (topic : String) (mode : DispatchMode) : Factory × HandleId :=
  ({ s with handles := s.handles.add { topic, mode } }, s.handles.size)

/-- Ends a call's creation with the client's answer. -/
def opened (s : Factory) (c : CallId) (w : Want) (k : CellId) (r : Except ClientError DispatchMode) :
    Factory :=
  match r with
  | .error e => s.created c w k (.error (.producerCreation w.topic e))
  | .ok mode =>
    let (s, h) := s.addHandle w.topic mode
    (s.note (.opened c h)).created c w k (.ok h)

/-! ## 4. Calls -/

/-- A call's first step. -/
def begin (s : Factory) (c : CallId) : Request → Factory
  | .want w => s.look c w
  | .refuse e => s.finish c (.failed e)
  | .reset => s.drain c s.cache.take
  | .shutdown => s.drain c s.cache.shut
  | .await p => { s with pending := s.pending.update p fun q => { q with awaiter := some c } }.goTo c
      (.awaiting p)
  | .dispatch h spec p => (s.goTo c (.completing h s.tickets p)).ask c (.send h spec)

/-- Goes on with a call as far as the factory alone can tell. None where it has to wait. -/
def resume (s : Factory) (c : CallId) : Progress → Option Factory
  | .fresh r => some (s.begin c r)
  | .queued w k =>
    match s.cache.cells.get? k with
    | none => none
    | some cell =>
      match cell.value with
      | some h => some (s.place c w k h)
      | none => if cell.turn = some c then some (s.create c w k) else none
  | .retiring rs next =>
    let free := rs.any fun r =>
      r.stage = .waiting && ((s.handles.get? r.handle).map Handle.borrows) = some 0
    if free then some (s.retire c rs next) else none
  | .awaiting p =>
    match (s.pending.get? p).bind Pending.outcome? with
    | none => none
    | some (.ok id) => some (s.finish c (.acknowledged id))
    | some (.error e) => some (s.finish c (.failed e))
  | _ => none

/-- The outcome of a message by its receipt. -/
def outcomeOf (s : Factory) (h : HandleId) (r : Except ClientError MessageId) :
    Except Error MessageId :=
  match r with
  | .ok id => .ok id
  | .error e => .error (.ofSend (s.topicOf h) e)

/-- Makes a pending send of a message that a producer was asked to queue. -/
def accepted (s : Factory) (c : CallId) (h : HandleId) (t : Ticket) (r : Except ClientError Unit) :
    Factory :=
  let p := s.pending.size
  let topic := s.topicOf h
  match r with
  | .error e =>
    let s := s.endBorrow h
    { s with pending := s.pending.add { topic, state := .settled (.error (.ofSend topic e)) } }.finish
      c (.promised p)
  | .ok _ =>
    let s := { s with pending := s.pending.add { topic } }
    (s.start (.completing h t p)).finish c (.promised p)

/-- Goes on with a call to which the client answered, where the answer is one that it waits for. -/
def answer (s : Factory) (c : CallId) (t : Ticket) : Progress → Answer → Option Factory
  | .creating w k u, .opened r => if t = u then some (s.opened c w k r) else none
  | .sending h u, .receipt r =>
    if t = u then
      let s := s.endBorrow h
      match s.outcomeOf h r with
      | .ok id => some (s.finish c (.acknowledged id))
      | .error e => some (s.finish c (.failed e))
    else none
  | .enqueuing h u, .accepted r => if t = u then some (s.accepted c h t r) else none
  | .completing h u p, .receipt r =>
    if t = u then
      let s := s.endBorrow h
      some ((s.settle p (.settled (s.outcomeOf h r))).finish c .delivered)
    else none
  | .retiring rs next, .closed r =>
    if rs.any fun x => x.stage = .closing t then some (s.retire c (rs.map (closeOver t r)) next) else none
  | _, _ => none

/-- Lets go of all that a call holds: its place at a cell, its borrows, its tickets. -/
def relinquish (s : Factory) (c : CallId) : Progress → Factory
  | .fresh (.dispatch h _ p) => (s.endBorrow h).settle p .abandoned
  | .queued _ k => s.setCell k fun cell => cell.leave c
  | .creating _ k t => (s.note (.withdrawn t)).setCell k fun cell => cell.leave c
  | .retiring rs _ => rs.foldl (fun s r =>
      match r.stage with
      | .waiting => s.setHandle r.handle fun x => x.unpark c
      | .closing t => s.note (.withdrawn t)
      | .finished _ => s) s
  | .sending h t => (s.note (.withdrawn t)).endBorrow h
  | .enqueuing h t => (s.note (.withdrawn t)).endBorrow h
  | .completing h t p => ((s.note (.withdrawn t)).endBorrow h).settle p .abandoned
  | .awaiting p => { s with pending := s.pending.update p fun q => { q with awaiter := none } }
  | _ => s

/-- Whether a call is over, in whatever way. -/
def Progress.isOver : Progress → Bool
  | .ended _ => true
  | .aborted => true
  | .crashed => true
  | _ => false

/-- Ends a call that is not over before its time. -/
def stop (s : Factory) (c : CallId) (p : Progress) (final : Progress) : Option Factory :=
  if Progress.isOver p then none else some (((s.relinquish c p).goTo c final).note (.finished c))

/-- Ends a lease in a caller's hands, once. -/
def release (s : Factory) (l : LeaseId) : Option Factory :=
  match s.leases.get? l with
  | none => none
  | some x =>
    if x.released then none
    else
      some ({ s with leases := s.leases.update l fun x => { x with released := true } }.endBorrow
        x.handle)

/-! ## 5. Steps -/

/-- What can happen to a factory. -/
inductive Label where
  | call (r : Request)
  | resume (c : CallId)
  | answer (c : CallId) (t : Ticket) (a : Answer)
  | abort (c : CallId)
  | crash (c : CallId)
  /-- A caller who has a handle asks it for a lease. -/
  | lease (h : HandleId)
  | release (l : LeaseId)

/-- The state after something happens; none where it cannot happen. -/
def step (s : Factory) : Label → Option Factory
  | .call r => some (s.start (.fresh r))
  | .resume c => (s.calls.get? c).bind (s.resume c)
  | .answer c t a => (s.calls.get? c).bind fun p => s.answer c t p a
  | .abort c => (s.calls.get? c).bind fun p => s.stop c p .aborted
  | .crash c => (s.calls.get? c).bind fun p => s.stop c p .crashed
  | .lease h =>
    let (granted, s) := s.borrow h
    if granted then some (s.handOver h) else some s
  | .release l => s.release l

/-- The states that a new factory can get into. -/
inductive Reachable : Factory → Prop where
  | new : Reachable new
  | step {s s' : Factory} (l : Label) (h : Reachable s) (hs : s.step l = some s') : Reachable s'

end Factory

end TopicPublisher
