import Mathlib.Logic.Relation
import TopicPublisher.Proofs.Factory.Dispatch
import TopicPublisher.Proofs.Factory.Lines

/-!
# Two ways to deliver, one effect

A send whose caller waits for the receipt, and a send that is promised and whose outcome is awaited then,
go through different code: the second hands its message over to be queued and leaves the receipt to another
call, or leaves the whole message to another call where the producer is sequential. When nobody else does
anything, both do the same. `effect` says what that is: the outcome, what becomes of the cache and of the
handles, whether a producer is asked for, and the handle that the message is handed to.

The wire client is a `Behaviour`, which says what it makes of each request; sending through a pipelined
producer is to be the same as queueing and waiting for the receipt. `ComesTo` follows every course that
things can take: calls go on in any order until none can.

Results:
1. `Advances.cases`, `Acts.answered`: a step is one of a call that is not over, and a call that waits for a
   request is answered by what the wire client makes of it.
2. `Rest.advance`, `Rest.comes`: a promised send with the one who awaits it, whoever goes first.
3. `Ready.grant`, `Ready.comes`: what a call does with a handle that it got, and what comes of it.
4. `Creating.comes`, `look_comes`: how the call gets its handle, or fails.
5. `deliveries_agree`: all this from every state in which all calls are over.
-/

namespace TopicPublisher

/-- The request that a call of a send waits for. -/
def Progress.ticket? : Progress → Option Ticket
  | .creating _ _ u => some u
  | .sending _ u => some u
  | .enqueuing _ u => some u
  | .completing _ u _ => some u
  | _ => none

/-- The request in an entry of the journal. -/
def Event.demand? : Event → Option Demand
  | .asked _ _ d => some d
  | _ => none

/-- What the wire client makes of each request. -/
structure Behaviour where
  opens : String → Except ClientError DispatchMode
  sends : HandleId → MessageSpec → Except ClientError MessageId
  accepts : HandleId → MessageSpec → Except ClientError Unit
  receipts : HandleId → MessageSpec → Except ClientError MessageId
  closes : HandleId → Except ClientError Unit

/-- The answers to a request. -/
inductive Behaviour.Gives (w : Behaviour) : Demand → Answer → Prop
  | opened {t : String} : Gives w (.openProducer t) (.opened (w.opens t))
  | sent {v : HandleId} {m : MessageSpec} : Gives w (.send v m) (.receipt (w.sends v m))
  | accepted {v : HandleId} {m : MessageSpec} : Gives w (.enqueue v m) (.accepted (w.accepts v m))
  | receipt {v : HandleId} {m : MessageSpec} : Gives w (.enqueue v m) (.receipt (w.receipts v m))
  | closed {v : HandleId} : Gives w (.close v) (.closed (w.closes v))

namespace Factory

/-! ## Definitions -/

/-- All calls are over. -/
def Idle (s : Factory) : Prop := ∀ i q, s.calls.get? i = some q → Progress.isOver q = true

/-- All that was asked of the wire client. -/
def requests (s : Factory) : List Demand := s.events.filterMap Event.demand?

/-- A step by which a call goes on, or is answered. Nobody makes a call or ends one. -/
inductive Advances (w : Behaviour) (s s' : Factory) : Prop
  | resume {i : CallId} : s.step (.resume i) = some s' → Advances w s s'
  | answer {i j : CallId} {t : Ticket} {d : Demand} {a : Answer} : .asked j t d ∈ s.events →
      w.Gives d a → s.step (.answer i t a) = some s' → Advances w s s'

/-- A call goes on from a point, or is answered there. -/
inductive Acts (w : Behaviour) (s : Factory) (c : CallId) (q : Progress) (s' : Factory) : Prop
  | resume : s.resume c q = some s' → Acts w s c q s'
  | answer {j : CallId} {t : Ticket} {d : Demand} {a : Answer} : .asked j t d ∈ s.events →
      w.Gives d a → s.answer c t q a = some s' → Acts w s c q s'

/-- Things may have gone on. -/
def Leads (w : Behaviour) : Factory → Factory → Prop := Relation.ReflTransGen (Advances w)

/-- Whatever course things take, they come to a point where `P` is so. -/
inductive ComesTo (w : Behaviour) (P : Factory → Prop) : Factory → Prop
  | now {s : Factory} : P s → ComesTo w P s
  | later {s : Factory} : (∃ s', Advances w s s') → (∀ s', Advances w s s' → ComesTo w P s') →
      ComesTo w P s

/-- Sending through a producer that is pipelined, or may be opened so, is the same as having the message
queued and waiting for its receipt. -/
def Agrees (w : Behaviour) (s : Factory) : Prop :=
  ∀ v m, (∃ x, s.handles.get? v = some x ∧ x.mode = .pipelined) ∨
      (s.handles.size ≤ v ∧ ∃ t, w.opens t = .ok .pipelined) →
    w.sends v m = (w.accepts v m).bind fun _ => w.receipts v m

/-- What becomes of the cache and of the handles when a call wants a handle of a topic and nobody else does
anything. -/
structure Acquired where
  cache : Cache
  handles : Registry Handle
  /-- Whether a producer is asked for. -/
  creates : Bool
  result : Except Error HandleId

def acquired (w : Behaviour) (s : Factory) (t : String) : Acquired :=
  if s.cache.closed then ⟨s.cache, s.handles, false, .error .factoryClosed⟩
  else
    match s.cache.handle? t with
    | some v => ⟨s.cache, s.handles, false, .ok v⟩
    | none =>
      let (cache, k) := s.cache.cellFor t
      let cache := cache.setCell k fun x => (x.enter s.calls.size).2
      match w.opens t with
      | .error e => ⟨cache.setCell k fun x => x.pass.1, s.handles, true, .error (.producerCreation t e)⟩
      | .ok mode =>
        ⟨cache.setCell k fun x => (x.fill s.handles.size).1,
          s.handles.add { topic := t, mode }, true, .ok s.handles.size⟩

/-- What a send does. -/
structure Effect where
  result : Except Error MessageId
  cache : Cache
  handles : Registry Handle
  /-- Whether a producer was asked for. -/
  creates : Bool
  /-- The handle that the message was handed to. -/
  receiver : Option HandleId

/-- What a send does when nobody else does anything, in whichever way it is delivered. -/
def effect (w : Behaviour) (s : Factory) (m : OutboundMessage) : Effect :=
  let a := acquired w s (canonicalize m.topic)
  match a.result with
  | .error e => ⟨.error e, a.cache, a.handles, a.creates, none⟩
  | .ok v =>
    ⟨resultOf (canonicalize m.topic) (w.sends v m.spec), a.cache,
      (a.handles.update v Handle.beginBorrow).update v fun x => x.endBorrow.1, a.creates, some v⟩

/-- A producer is asked for, or not. -/
def opening (creates : Bool) (t : String) : List Demand := if creates then [.openProducer t] else []

/-- How the producer of a handle takes messages. -/
def modeIn (handles : Registry Handle) (v : HandleId) : DispatchMode :=
  ((handles.get? v).map Handle.mode).getD .sequential

/-- The requests of a send, by how it is delivered. -/
def Effect.requests (x : Effect) (m : OutboundMessage) (d : Delivery) : List Demand :=
  opening x.creates (canonicalize m.topic) ++
    x.receiver.toList.map fun v => Demand.sending v m.spec d (modeIn x.handles v)

/-- A send is made. -/
def send (s : Factory) (m : OutboundMessage) (d : Delivery) : Factory :=
  s.start (.fresh (.send (.ok m) d))

/-- What a send leaves when all that it does is done. -/
structure Effected (s : Factory) (m : OutboundMessage) (d : Delivery) (x : Effect) (s' : Factory) :
    Prop where
  cache : s'.cache = x.cache
  handles : s'.handles = x.handles
  requests : s'.requests = s.requests ++ x.requests m d

/-- And no call is left at work. -/
structure Done (s : Factory) (m : OutboundMessage) (d : Delivery) (x : Effect) (s' : Factory) : Prop
    extends Effected s m d x s' where
  idle : Idle s'

/-- What a send comes to, by how it is delivered.

* `acknowledged`: the caller who waits for the receipt gets the outcome.
* `refused`: a caller to whom the send was to be promised gets the error at once, if no handle was to be
  had.
* `promised`: otherwise the send is promised, and the outcome is for those who wait for it, whenever
  they begin to. -/
inductive Delivered (w : Behaviour) (s : Factory) (m : OutboundMessage) (x : Effect) (s' : Factory) :
    Delivery → Prop
  | acknowledged : s'.calls.get? s.calls.size = some (.ended (endOf x.result)) →
      Done s m .acknowledged x s' → Delivered w s m x s' .acknowledged
  | refused {e : Error} : x.receiver = none → x.result = .error e →
      s'.calls.get? s.calls.size = some (.ended (.failed e)) → Done s m .promised x s' →
      Delivered w s m x s' .promised
  | promised {p : PendingId} : x.receiver.isSome = true →
      s'.calls.get? s.calls.size = some (.ended (.promised p)) →
      (∀ s₁, Leads w s' s₁ → ComesTo w (fun s₂ =>
        s₂.calls.get? s₁.calls.size = some (.ended (endOf x.result)) ∧ Done s m .promised x s₂)
        (s₁.start (.fresh (.await p)))) → Delivered w s m x s' .promised

/-- Both ways to deliver a message have one effect.

* `receiver`: the message is handed to a handle of its topic.
* `unacquired`: without a handle the error is one of the factory or of the creation.
* `unsent`: with one it is a classified error of the send. -/
structure Agreement (w : Behaviour) (s : Factory) (m : OutboundMessage) (x : Effect) : Prop where
  delivered : ∀ d, ComesTo w (fun s' => Delivered w s m x s' d) (s.send m d)
  receiver : ∀ v, x.receiver = some v →
    ∃ y, x.handles.get? v = some y ∧ y.topic = canonicalize m.topic
  unacquired : x.receiver = none → x.result = .error .factoryClosed ∨
    ∃ e, x.result = .error (.producerCreation (canonicalize m.topic) e)
  unsent : ∀ e, x.receiver.isSome = true → x.result = .error e →
    ∃ f, e = .ofSend (canonicalize m.topic) f

open SoundLemmas StoryLemmas

section

variable {w : Behaviour} {s s' : Factory} {i j c : CallId} {q : Progress} {t : Ticket}
  {tr : List (Label × Factory)}

/-! ## 1. Steps -/

theorem step_resume (hq : s.calls.get? i = some q) : s.step (.resume i) = s.resume i q := by
  simp [step, hq]

theorem step_answer (hq : s.calls.get? i = some q) (a : Answer) :
    s.step (.answer i t a) = s.answer i t q a := by
  simp [step, hq]

/-- A step is one of a call that is not over. -/
theorem Advances.cases (h : Advances w s s') :
    ∃ i q, s.calls.get? i = some q ∧ Progress.isOver q = false ∧ Acts w s i q s' := by
  cases h with
  | @resume i hs =>
    obtain ⟨q, hq, hr⟩ := Option.bind_eq_some_iff.1 hs
    refine ⟨i, q, hq, ?_, .resume hr⟩
    cases q with
    | ended | aborted | crashed => cases hr
    | _ => rfl
  | @answer i j t d a hasked hgives hs =>
    obtain ⟨q, hq, hr⟩ := Option.bind_eq_some_iff.1 hs
    refine ⟨i, q, hq, ?_, .answer hasked hgives hr⟩
    cases q with
    | ended | aborted | crashed => cases hr
    | _ => rfl

theorem ticket_eq_of_answer {u : Ticket} {a : Answer} (hu : q.ticket? = some u)
    (hs : s.answer c t q a = some s') : t = u := by
  refine Decidable.by_contra fun hne => ?_
  cases q with
  | creating | sending | enqueuing | completing =>
    cases hu
    cases a <;> simp [answer, hne] at hs
  | _ => cases hu

/-- A call that waits for a request is answered, and by what the wire client makes of that request. -/
theorem Acts.answered {u : Ticket} {d : Demand} (hrun : Run PublicOnly tr s) (h : Acts w s c q s')
    (hu : q.ticket? = some u) (hasked : .asked j u d ∈ s.events) :
    ∃ a, w.Gives d a ∧ s.answer c u q a = some s' := by
  cases h with
  | resume hs =>
    cases q with
    | creating | sending | enqueuing | completing => cases hs
    | _ => cases hu
  | answer hasked' hgives hs =>
    obtain rfl := ticket_eq_of_answer hu hs
    obtain ⟨-, rfl⟩ := hrun.ticket_unique hasked hasked'
    exact ⟨_, hgives, hs⟩

theorem Advances.run (h : Advances w s s') (hr : Run PublicOnly tr s) :
    ∃ tr', Run PublicOnly tr' s' := by
  cases h with
  | @resume i hs => exact ⟨_, .step (l := .resume i) hr trivial hs⟩
  | @answer i _ t _ a _ _ hs => exact ⟨_, .step (l := .answer i t a) hr trivial hs⟩

theorem requests_eq (s : Factory) : s.requests = s.deeds.filterMap Event.demand? := by
  unfold requests deeds
  rw [List.filterMap_filter]
  congr 1
  funext e
  cases e <;> rfl

theorem requests_append {es : List Event} (he : s'.deeds = s.deeds ++ es) :
    s'.requests = s.requests ++ es.filterMap Event.demand? := by
  rw [requests_eq, requests_eq, he, List.filterMap_append]

theorem requests_of_deeds_eq (he : s'.deeds = s.deeds) : s'.requests = s.requests := by
  rw [requests_eq, requests_eq, he]

end

/-! ## 2. Calls at work -/

/-- No other calls are at work than those of a list. -/
def AtWork (s : Factory) (js : List CallId) : Prop :=
  ∀ i q, s.calls.get? i = some q → Progress.isOver q = false → i ∈ js

section

variable {s s' : Factory} {c : CallId} {q : Progress} {js js' : List CallId}

theorem AtWork.idle (h : AtWork s []) : Idle s := by
  intro i q hq
  cases ho : Progress.isOver q with
  | true => rfl
  | false => cases h i q hq ho

theorem Idle.atWork (h : Idle s) : AtWork s [] := fun i q hq ho =>
  absurd ((h i q hq).symm.trans ho) nofun

/-- A call gets to another point, or ends. -/
theorem AtWork.goTo (h : AtWork s js) (hcalls : s'.calls = s.calls.update c fun _ => q)
    (hc : Progress.isOver q = false → c ∈ js') (hjs : ∀ i, i ∈ js → i ≠ c → i ∈ js') :
    AtWork s' js' := by
  intro i r hr ho
  rw [hcalls] at hr
  rcases Registry.get?_update_const hr with ⟨rfl, rfl⟩ | ⟨hne, hr⟩
  · exact hc ho
  · exact hjs i (h i r hr ho) hne.symm

/-- The only call at work ends. -/
theorem AtWork.over (h : AtWork s [c]) (hcalls : s'.calls = s.calls.update c fun _ => q)
    (hq : Progress.isOver q = true) : Idle s' := by
  refine AtWork.idle (h.goTo hcalls (fun ho => absurd (hq.symm.trans ho) nofun) fun i hi hne => ?_)
  exact absurd (List.mem_singleton.1 hi) hne

/-- A new call. -/
theorem AtWork.start (h : AtWork s js) (q : Progress) : AtWork (s.start q) (js ++ [s.calls.size]) := by
  intro i r hr ho
  have hr : (s.calls.add q).get? i = some r := hr
  rw [Registry.get?_add] at hr
  split at hr
  · next hi =>
    subst hi
    exact List.mem_append_right _ List.mem_cons_self
  · exact List.mem_append_left _ (h i r hr ho)

/-- The only call at work leaves the rest to another one. -/
theorem AtWork.leave {r : Progress} (h : AtWork s [c])
    (hcalls : s'.calls = (s.start r).calls.update c fun _ => q) (hq : Progress.isOver q = true) :
    AtWork s' [s.calls.size] := by
  refine (h.start r).goTo hcalls (fun ho => absurd (hq.symm.trans ho) nofun) fun i hi hne => ?_
  exact (List.mem_append.1 hi).resolve_left fun hi => hne (List.mem_singleton.1 hi)

/-- A step is one of the only call at work. -/
theorem Advances.acts {w : Behaviour} (ha : Advances w s s') (h : AtWork s [c])
    (hq : s.calls.get? c = some q) : Acts w s c q s' := by
  obtain ⟨i, r, hr, hno, hacts⟩ := ha.cases
  obtain rfl := List.mem_singleton.1 (h i r hr hno)
  cases hq.symm.trans hr
  exact hacts

end

/-! ## 3. A promised send -/

/-- What a send has done when a lease is held for it on the handle that it got. `ds` is what it asked of
that handle. -/
structure Holding (w : Behaviour) (s : Factory) (m : OutboundMessage) (v : HandleId) (x : Handle)
    (ds : List Demand) (s' : Factory) : Prop where
  result : (acquired w s (canonicalize m.topic)).result = .ok v
  handle : (acquired w s (canonicalize m.topic)).handles.get? v = some x
  topic : x.topic = canonicalize m.topic
  cache : s'.cache = (acquired w s (canonicalize m.topic)).cache
  handles : s'.handles = (acquired w s (canonicalize m.topic)).handles.update v Handle.beginBorrow
  requests : s'.requests =
    s.requests ++ (opening (acquired w s (canonicalize m.topic)).creates (canonicalize m.topic) ++ ds)

/-- What is still to be done for a promised send, in so many steps, and by whom. -/
inductive Work (w : Behaviour) (s : Factory) (m : OutboundMessage) (v : HandleId) (x : Handle)
    (p : PendingId) (s' : Factory) : Nat → Option CallId → Prop
  | dispatching {i : CallId} {y : Pending} : s'.calls.get? i = some (.fresh (.dispatch v m.spec p)) →
      x.mode = .sequential → s'.pending.get? p = some y → y.outcome? = none →
      Holding w s m v x [] s' → Work w s m v x p s' 2 (some i)
  | completing {i j : CallId} {y : Pending} {u : Ticket} {d : Demand} :
      s'.calls.get? i = some (.completing v u p) → .asked j u d ∈ s'.events →
      d = Demand.sending v m.spec .promised x.mode →
      (∀ r, w.Gives d (.receipt r) ↔ r = w.sends v m.spec) → s'.pending.get? p = some y →
      y.outcome? = none → Holding w s m v x [d] s' → Work w s m v x p s' 1 (some i)
  | settled {y : Pending} : s'.pending.get? p = some y →
      y.outcome? = some (effect w s m).result → Effected s m .promised (effect w s m) s' →
      Work w s m v x p s' 0 none

/-- How far the call is that awaits a pending send, if there is one. -/
inductive Wait (p : PendingId) (s' : Factory) : Nat → Option CallId → Prop
  | nobody : Wait p s' 0 none
  | called {j : CallId} : s'.calls.get? j = some (.fresh (.await p)) → Wait p s' 2 (some j)
  | waiting {j : CallId} : s'.calls.get? j = some (.awaiting p) → Wait p s' 1 (some j)

/-- A promised send and the one who awaits it: what is left to do, and nobody else is at work. -/
structure Rest (w : Behaviour) (s : Factory) (m : OutboundMessage) (v : HandleId) (x : Handle)
    (p : PendingId) (n k : Nat) (j : Option CallId) (s' : Factory) : Prop where
  parts : ∃ i, Work w s m v x p s' n i ∧ Wait p s' k j ∧ AtWork s' (i.toList ++ j.toList)

section

variable {w : Behaviour} {s s' s'' : Factory} {m : OutboundMessage} {d : Delivery} {v : HandleId}
  {x : Handle} {p : PendingId} {n k : Nat} {i : CallId} {j : Option CallId} {ds : List Demand}
  {tr : List (Label × Factory)} {t : Ticket}

theorem effect_of_ok (h : (acquired w s (canonicalize m.topic)).result = .ok v) :
    effect w s m = ⟨resultOf (canonicalize m.topic) (w.sends v m.spec),
      (acquired w s (canonicalize m.topic)).cache,
      ((acquired w s (canonicalize m.topic)).handles.update v Handle.beginBorrow).update v
        fun x => x.endBorrow.1,
      (acquired w s (canonicalize m.topic)).creates, some v⟩ := by
  simp only [effect, h]

theorem effect_of_error {e : Error} (h : (acquired w s (canonicalize m.topic)).result = .error e) :
    effect w s m = ⟨.error e, (acquired w s (canonicalize m.topic)).cache,
      (acquired w s (canonicalize m.topic)).handles, (acquired w s (canonicalize m.topic)).creates,
      none⟩ := by
  simp only [effect, h]

theorem get?_borrowed {handles : Registry Handle} (hx : handles.get? v = some x) :
    (handles.update v Handle.beginBorrow).get? v = some x.beginBorrow := by
  rw [Registry.get?_update, if_pos rfl, hx]
  rfl

/-- The handle that a message was handed to, when its lease is gone. -/
theorem get?_returned {handles : Registry Handle} (hx : handles.get? v = some x) :
    ∃ y, ((handles.update v Handle.beginBorrow).update v fun x => x.endBorrow.1).get? v = some y ∧
      y.topic = x.topic ∧ y.mode = x.mode := by
  refine ⟨x.beginBorrow.endBorrow.1, ?_, ?_, ?_⟩
  · rw [Registry.get?_update, if_pos rfl, get?_borrowed hx]
    rfl
  · unfold Handle.endBorrow
    split <;> rfl
  · unfold Handle.endBorrow
    split <;> rfl

theorem Holding.topic? (h : Holding w s m v x ds s') : s'.topic? v = some (canonicalize m.topic) := by
  refine topic?_eq_some_iff.2 ⟨x.beginBorrow, ?_, h.topic⟩
  rw [h.handles]
  exact get?_borrowed h.handle

theorem Holding.keep {es : List Demand} (h : Holding w s m v x ds s')
    (hreq : s''.requests = s'.requests ++ es) (hcache : s''.cache = s'.cache)
    (hhandles : s''.handles = s'.handles) : Holding w s m v x (ds ++ es) s'' where
  result := h.result
  handle := h.handle
  topic := h.topic
  cache := hcache.trans h.cache
  handles := hhandles.trans h.handles
  requests := by rw [hreq, h.requests, List.append_assoc, List.append_assoc]

theorem Holding.same (h : Holding w s m v x ds s') (hdeeds : s''.deeds = s'.deeds)
    (hcache : s''.cache = s'.cache) (hhandles : s''.handles = s'.handles) :
    Holding w s m v x ds s'' where
  result := h.result
  handle := h.handle
  topic := h.topic
  cache := hcache.trans h.cache
  handles := hhandles.trans h.handles
  requests := (requests_of_deeds_eq hdeeds).trans h.requests

/-- The message was handed over, and the lease is gone. -/
theorem Holding.left (h : Holding w s m v x [Demand.sending v m.spec d x.mode] s')
    (hcache : s''.cache = s'.cache)
    (hhandles : s''.handles = s'.handles.update v fun x => x.endBorrow.1)
    (hreq : s''.requests = s'.requests) : Effected s m d (effect w s m) s'' := by
  obtain ⟨y, hy, -, hmode⟩ := get?_returned h.handle
  rw [effect_of_ok h.result]
  refine ⟨hcache.trans h.cache, hhandles.trans (by rw [h.handles]), ?_⟩
  rw [hreq, h.requests]
  simp [Effect.requests, modeIn, hy, hmode]

/-! ### The call that settles it -/

theorem Work.dispatch {y : Pending} (hi : s'.calls.get? i = some (.fresh (.dispatch v m.spec p)))
    (hmode : x.mode = .sequential) (hy : s'.pending.get? p = some y) (hno : y.outcome? = none)
    (h : Holding w s m v x [] s') :
    Work w s m v x p ((s'.goTo i (.completing v s'.tickets p)).ask i (.send v m.spec)) 1 (some i) := by
  have he : ((s'.goTo i (.completing v s'.tickets p)).ask i (.send v m.spec)).deeds =
      s'.deeds ++ [.asked i s'.tickets (.send v m.spec)] := by
    simp
    rfl
  refine .completing (j := i) (u := s'.tickets) (d := .send v m.spec) (get?_goTo hi) ?_ ?_
    (fun r => ⟨?_, ?_⟩) hy hno ?_
  · refine (mem_deeds.1 ?_).1
    rw [he]
    exact List.mem_append_right _ List.mem_cons_self
  · rw [hmode]
    rfl
  · rintro ⟨⟩
    rfl
  · rintro rfl
    exact .sent
  · exact h.keep (requests_append he) rfl rfl

/-- The receipt has come. -/
theorem Work.complete {y : Pending} {r : Except ClientError MessageId}
    (hy : s'.pending.get? p = some y) (hr : r = w.sends v m.spec)
    (h : Holding w s m v x [Demand.sending v m.spec .promised x.mode] s') :
    Work w s m v x p (((s'.endBorrow v).settle p (.settled ((s'.endBorrow v).outcomeOf v r))).finish i
      .delivered) 0 none := by
  have htopic : (s'.endBorrow v).topic? v = some (canonicalize m.topic) := by
    obtain ⟨cs, he⟩ := s'.endBorrow_eq v
    exact topic?_later (he ▸ later_endBorrow_update s'.handles v) h.topic?
  rw [resultOf_eq htopic, hr]
  obtain ⟨cs, he⟩ := s'.endBorrow_settle_eq v p
    (.settled (resultOf (canonicalize m.topic) (w.sends v m.spec)))
  have hget : (s'.pending.update p fun q => { q with
      state := .settled (resultOf (canonicalize m.topic) (w.sends v m.spec)), awaiter := none }).get? p =
      some { y with
        state := .settled (resultOf (canonicalize m.topic) (w.sends v m.spec)), awaiter := none } := by
    rw [Registry.get?_update, if_pos rfl, hy]
    rfl
  rw [he]
  refine .settled hget ?_ (h.left rfl rfl (requests_of_deeds_eq (by simp)))
  rw [effect_of_ok h.result]
  rfl

/-- What is left to do for a send does not depend on who awaits it. -/
theorem Work.keep {o : Option CallId} (h : Work w s m v x p s' n o)
    (hcalls : ∀ i q, o = some i → s'.calls.get? i = some q → s''.calls.get? i = some q)
    (hpending : ∀ y, s'.pending.get? p = some y →
      ∃ z, s''.pending.get? p = some z ∧ z.outcome? = y.outcome?)
    (hdeeds : s''.deeds = s'.deeds) (hcache : s''.cache = s'.cache)
    (hhandles : s''.handles = s'.handles) : Work w s m v x p s'' n o := by
  cases h with
  | dispatching hi hmode hy hno h =>
    obtain ⟨z, hz, ho⟩ := hpending _ hy
    exact .dispatching (hcalls _ _ rfl hi) hmode hz (ho.trans hno) (h.same hdeeds hcache hhandles)
  | completing hi hasked hd hgives hy hno h =>
    obtain ⟨z, hz, ho⟩ := hpending _ hy
    have hasked' : _ ∈ s''.deeds := hdeeds ▸ mem_deeds.2 ⟨hasked, rfl⟩
    exact .completing (hcalls _ _ rfl hi) (mem_deeds.1 hasked').1 hd hgives hz (ho.trans hno)
      (h.same hdeeds hcache hhandles)
  | settled hy hr h =>
    obtain ⟨z, hz, ho⟩ := hpending _ hy
    exact .settled hz (ho.trans hr) ⟨hcache.trans h.cache, hhandles.trans h.handles,
      (requests_of_deeds_eq hdeeds).trans h.requests⟩

theorem Wait.keep (h : Wait p s' k j)
    (hcalls : ∀ a q, j = some a → s'.calls.get? a = some q → s''.calls.get? a = some q) :
    Wait p s'' k j := by
  cases h with
  | nobody => exact .nobody
  | called hj => exact .called (hcalls _ _ rfl hj)
  | waiting hj => exact .waiting (hcalls _ _ rfl hj)

/-! ### Whoever goes first -/

/-- The call that is to settle the send goes on. -/
theorem Work.advance {q : Progress} {o : Option CallId} (hrun : Run PublicOnly tr s')
    (h : Work w s m v x p s' n o) (hi : s'.calls.get? i = some q) (ho : o = some i)
    (hacts : Acts w s' i q s'') :
    ∃ n' o' q', n' < n ∧ Work w s m v x p s'' n' o' ∧ s''.calls = (s'.calls.update i fun _ => q') ∧
      (Progress.isOver q' = false → o' = some i) := by
  cases h with
  | dispatching hc hmode hy hno hh =>
    cases ho
    cases hi.symm.trans hc
    cases hacts with
    | resume hs =>
      cases hs
      exact ⟨1, some i, _, by omega, .dispatch hc hmode hy hno hh, rfl, fun _ => rfl⟩
    | @answer _ _ _ a _ _ hs => cases a <;> cases hs
  | completing hc hasked hd hgives hy hno hh =>
    cases ho
    cases hi.symm.trans hc
    obtain ⟨a, hgive, hs⟩ := hacts.answered hrun rfl hasked
    cases a with
    | opened | accepted | closed => cases hs
    | receipt r =>
      simp only [answer, if_true] at hs
      cases hs
      subst hd
      refine ⟨0, none, .ended .delivered, by omega, .complete hy ((hgives r).1 hgive) hh, ?_, nofun⟩
      obtain ⟨cs, he⟩ := s'.endBorrow_settle_eq v p (.settled ((s'.endBorrow v).outcomeOf v r))
      rw [he]
      rfl
  | settled => cases ho

theorem resume_awaiting {y : Pending} {r : Except Error MessageId} (hy : s'.pending.get? p = some y)
    (hr : y.outcome? = some r) (a : CallId) :
    s'.resume a (.awaiting p) = some (s'.finish a (endOf r)) := by
  simp only [resume, hy, Option.bind_some, hr]
  cases r <;> rfl

/-- The call that awaits the outcome goes on, and ends with it where it is known. -/
theorem Wait.advance {q : Progress} {o : Option CallId} {a : CallId} (hw : Work w s m v x p s' n o)
    (hno : ∀ i, o = some i → i ≠ a) (h : Wait p s' k j) (ha : s'.calls.get? a = some q) (hj : j = some a)
    (hacts : Acts w s' a q s'') :
    (∃ k', k' < k ∧ Wait p s'' k' (some a) ∧ Work w s m v x p s'' n o ∧
      s''.calls = s'.calls.update a fun _ => .awaiting p) ∨
    (o = none ∧ Effected s m .promised (effect w s m) s'' ∧
      s''.calls = s'.calls.update a fun _ => .ended (endOf (effect w s m).result)) := by
  have hcalls : ∀ {q' : Progress} (i : CallId) (r : Progress), o = some i →
      s'.calls.get? i = some r → (s'.calls.update a fun _ => q').get? i = some r :=
    fun i r ho hr => calls_goTo i r (hno i ho) hr
  cases h with
  | nobody => cases hj
  | called hc =>
    cases hj
    cases ha.symm.trans hc
    cases hacts with
    | resume hs =>
      cases hs
      refine .inl ⟨1, by omega, .waiting (get?_goTo hc), hw.keep hcalls (fun y hy => ?_) rfl rfl rfl, rfl⟩
      refine ⟨{ y with awaiter := some a }, ?_, rfl⟩
      show (s'.pending.update p _).get? p = _
      rw [Registry.get?_update, if_pos rfl, hy]
      rfl
    | @answer _ _ _ b _ _ hs => cases b <;> cases hs
  | waiting hc =>
    cases hj
    cases ha.symm.trans hc
    cases hacts with
    | resume hs =>
      cases hw with
      | dispatching _ _ hy hunknown | completing _ _ _ _ hy hunknown =>
        simp [resume, hy, hunknown] at hs
      | settled hy hr heffected =>
        rw [resume_awaiting hy hr] at hs
        cases hs
        exact .inr ⟨rfl, ⟨heffected.cache, heffected.handles,
          (requests_of_deeds_eq (by simp)).trans heffected.requests⟩, rfl⟩
    | @answer _ _ _ b _ _ hs => cases b <;> cases hs

/-- Of what is left to do something is done, or all is done and the outcome was told. -/
theorem Rest.advance (hrun : Run PublicOnly tr s') (h : Rest w s m v x p n k j s')
    (ha : Advances w s' s'') :
    (∃ n' k', n' + k' < n + k ∧ Rest w s m v x p n' k' j s'') ∨
      ∃ a, j = some a ∧ s''.calls.get? a = some (.ended (endOf (effect w s m).result)) ∧
        Done s m .promised (effect w s m) s'' := by
  obtain ⟨o, hwork, hwait, hat⟩ := h.parts
  obtain ⟨i, q, hq, hno, hacts⟩ := ha.cases
  -- The two calls are at different points.
  have hapart : ∀ i a, o = some i → j = some a → i ≠ a := by
    rintro i a ho hj rfl
    cases hwork with
    | dispatching hi | completing hi =>
      cases ho
      cases hwait with
      | called ha | waiting ha =>
        cases hj
        cases hi.symm.trans ha
      | nobody => cases hj
    | settled => cases ho
  rcases List.mem_append.1 (hat i q hq hno) with hi | hi
  · have ho : o = some i := by simpa using hi
    obtain ⟨n', o', q', hlt, hwork', hcalls, hover⟩ := hwork.advance hrun hq ho hacts
    refine .inl ⟨n', k, by omega, o', hwork', ?_, ?_⟩
    · exact hwait.keep fun a r hj hr => hcalls ▸ calls_goTo a r (hapart i a ho hj).symm hr
    · refine hat.goTo hcalls (fun hq' => ?_) fun l hl hne => ?_
      · rw [hover hq']
        exact List.mem_append_left _ List.mem_cons_self
      · refine List.mem_append_right _ ((List.mem_append.1 hl).resolve_left fun hl => hne ?_)
        rw [ho] at hl
        exact List.mem_singleton.1 hl
  · have hj : j = some i := by simpa using hi
    rcases hwait.advance hwork (fun l hl => hapart l i hl hj) hq hj hacts with
      ⟨k', hlt, hwait', hwork', hcalls⟩ | ⟨ho, hleft, hcalls⟩
    · refine .inl ⟨n, k', by omega, o, hwork', hj ▸ hwait', hat.goTo hcalls (fun _ => ?_) fun l hl _ => hl⟩
      rw [hj]
      exact List.mem_append_right _ List.mem_cons_self
    · refine .inr ⟨i, hj, ?_, hleft, AtWork.idle ?_⟩
      · rw [hcalls]
        exact get?_goTo hq
      · refine hat.goTo hcalls nofun fun l hl hne => ?_
        rw [ho, hj] at hl
        exact absurd (List.mem_singleton.1 hl) hne

/-- As long as something is left to do, it can be done. -/
theorem Rest.can (h : Rest w s m v x p n k (some i) s') : ∃ s'', Advances w s' s'' := by
  obtain ⟨o, hwork, hwait, -⟩ := h.parts
  cases hwork with
  | dispatching hc => exact ⟨_, .resume ((step_resume hc).trans rfl)⟩
  | @completing i _ _ u d hc hasked hd hgives =>
    exact ⟨_, .answer hasked ((hgives _).2 rfl) ((step_answer (t := u) hc _).trans (if_pos rfl))⟩
  | settled hy hr =>
    cases hwait with
    | called hc => exact ⟨_, .resume ((step_resume hc).trans rfl)⟩
    | waiting hc => exact ⟨_, .resume ((step_resume hc).trans (resume_awaiting hy hr _))⟩

/-- A promised send that is awaited comes to its outcome. -/
theorem Rest.comes (hrun : Run PublicOnly tr s') (h : Rest w s m v x p n k (some i) s') :
    ComesTo w (fun s'' => s''.calls.get? i = some (.ended (endOf (effect w s m).result)) ∧
      Done s m .promised (effect w s m) s'') s' := by
  obtain ⟨l, hl⟩ : ∃ l, l = n + k := ⟨_, rfl⟩
  induction l using Nat.strongRecOn generalizing n k s' tr with
  | ind l ih =>
    refine .later h.can fun s'' ha => ?_
    obtain ⟨tr', hrun'⟩ := ha.run hrun
    rcases h.advance hrun ha with ⟨n', k', hlt, h'⟩ | ⟨a, hj, hdone⟩
    · exact ih (n' + k') (by omega) hrun' h' rfl
    · cases hj
      exact .now hdone

/-- While nobody awaits it, a promised send goes on by itself. -/
theorem Rest.leads {s₁ : Factory} (hrun : Run PublicOnly tr s') (h : Rest w s m v x p n 0 none s')
    (hl : Leads w s' s₁) : ∃ n' tr', Rest w s m v x p n' 0 none s₁ ∧ Run PublicOnly tr' s₁ := by
  induction hl with
  | refl => exact ⟨n, tr, h, hrun⟩
  | tail _ ha ih =>
    obtain ⟨n', tr', h, hrun⟩ := ih
    obtain ⟨tr'', hrun'⟩ := ha.run hrun
    rcases h.advance hrun ha with ⟨n'', k', -, h'⟩ | ⟨a, hj, -⟩
    · obtain ⟨o, -, hwait, -⟩ := h'.parts
      cases hwait
      exact ⟨n'', tr'', h', hrun'⟩
    · cases hj

/-- Somebody begins to await it. -/
theorem Rest.await (h : Rest w s m v x p n 0 none s') :
    Rest w s m v x p n 2 (some s'.calls.size) (s'.start (.fresh (.await p))) := by
  obtain ⟨o, hwork, -, hat⟩ := h.parts
  refine ⟨o, ?_, .called ?_, ?_⟩
  · exact hwork.keep (fun i q _ hq => calls_start hq) (fun y hy => ⟨y, hy, rfl⟩) (by simp) rfl rfl
  · exact (Registry.get?_add _ _ _).trans (if_pos rfl)
  · have := hat.start (.fresh (.await p))
    rwa [Option.toList_none, List.append_nil] at this

end

/-! ## 4. A message is handed over -/

/-- The call of a send has got a handle and goes on with it. -/
structure Ready (w : Behaviour) (s : Factory) (m : OutboundMessage) (v : HandleId) (x : Handle)
    (s' : Factory) : Prop where
  point : ∃ q, s'.calls.get? s.calls.size = some q
  alone : AtWork s' [s.calls.size]
  result : (acquired w s (canonicalize m.topic)).result = .ok v
  handle : (acquired w s (canonicalize m.topic)).handles.get? v = some x
  topic : x.topic = canonicalize m.topic
  leasing : x.retiring = false
  cache : s'.cache = (acquired w s (canonicalize m.topic)).cache
  handles : s'.handles = (acquired w s (canonicalize m.topic)).handles
  requests : s'.requests =
    s.requests ++ opening (acquired w s (canonicalize m.topic)).creates (canonicalize m.topic)

/-- The call of a send has handed its message over, and waits. -/
structure Handed (w : Behaviour) (s : Factory) (m : OutboundMessage) (v : HandleId) (x : Handle)
    (q : Progress) (u : Ticket) (d : Demand) (s' : Factory) : Prop where
  point : s'.calls.get? s.calls.size = some q
  alone : AtWork s' [s.calls.size]
  asked : .asked s.calls.size u d ∈ s'.events
  holding : Holding w s m v x [d] s'

/-- What the call of a send does with its handle, by how the message is delivered. -/
inductive Granted (w : Behaviour) (s : Factory) (m : OutboundMessage) (v : HandleId) (x : Handle)
    (s' : Factory) : Delivery → Prop
  | sending {u : Ticket} : Handed w s m v x (.sending v u) u (.send v m.spec) s' →
      Granted w s m v x s' .acknowledged
  | enqueuing {u : Ticket} : x.mode = .pipelined →
      Handed w s m v x (.enqueuing v u) u (.enqueue v m.spec) s' → Granted w s m v x s' .promised
  | promised {p : PendingId} : s'.calls.get? s.calls.size = some (.ended (.promised p)) →
      Rest w s m v x p 2 0 none s' → Granted w s m v x s' .promised

section

variable {w : Behaviour} {s s' s'' : Factory} {m : OutboundMessage} {d : Delivery} {v : HandleId}
  {x : Handle} {p : PendingId} {n : Nat} {tr : List (Label × Factory)}

/-- The call has a lease now. -/
theorem Ready.holding (h : Ready w s m v x s') {es : List Demand}
    (hreq : s''.requests = s'.requests ++ es) (hcache : s''.cache = s'.cache)
    (hhandles : s''.handles = s'.handles.update v Handle.beginBorrow) :
    Holding w s m v x es s'' where
  result := h.result
  handle := h.handle
  topic := h.topic
  cache := hcache.trans h.cache
  handles := hhandles.trans (by rw [h.handles])
  requests := by rw [hreq, h.requests, List.append_assoc]

theorem Ready.hand (h : Ready w s m v x s') {q : Progress} {e : Demand}
    (hcalls : s''.calls = s'.calls.update s.calls.size fun _ => q)
    (hdeeds : s''.deeds = s'.deeds ++ [.asked s.calls.size s'.tickets e])
    (hcache : s''.cache = s'.cache)
    (hhandles : s''.handles = s'.handles.update v Handle.beginBorrow) :
    Handed w s m v x q s'.tickets e s'' where
  point := by
    obtain ⟨r, hr⟩ := h.point
    rw [hcalls]
    exact get?_goTo hr
  alone := h.alone.goTo hcalls (fun _ => List.mem_cons_self) fun _ hi _ => hi
  asked := by
    refine (mem_deeds.1 ?_).1
    rw [hdeeds]
    exact List.mem_append_right _ List.mem_cons_self
  holding := h.holding (requests_append hdeeds) hcache hhandles

theorem Ready.grant (h : Ready w s m v x s') (d : Delivery) :
    Granted w s m v x
      (s'.grant s.calls.size ⟨canonicalize m.topic, .send m.spec d⟩ v) d := by
  have hget : s'.handles.get? v = some x := h.handles ▸ h.handle
  obtain ⟨s₁, next, ht, he, -⟩ :=
    MomentLemmas.takes_grant s.calls.size s' ⟨canonicalize m.topic, .send m.spec d⟩ v
  rw [show s'.grant s.calls.size ⟨canonicalize m.topic, .send m.spec d⟩ v = _ from he]
  cases ht with
  | handle hp => rcases hp with hp | hp <;> cases hp
  | lease hp => cases hp
  | denied _ hr => exact absurd ((hr x hget).symm.trans h.leasing) nofun
  | send hp hx =>
    cases hp
    exact .sending (h.hand rfl (by simp [conclude]; rfl) rfl rfl)
  | enqueue hp hx _ hmode =>
    cases hp
    cases hget.symm.trans hx
    exact .enqueuing hmode (h.hand rfl (by simp [conclude]; rfl) rfl rfl)
  | promise hp hx _ hmode =>
    cases hp
    cases hget.symm.trans hx
    obtain ⟨r, hr⟩ := h.point
    have hne : s'.calls.size ≠ s.calls.size := Nat.ne_of_gt (Registry.lt_size_of_get? hr)
    refine .promised (get?_goTo (calls_start hr)) ⟨some s'.calls.size, ?_, .nobody, ?_⟩
    · refine .dispatching (calls_goTo _ _ hne ((Registry.get?_add _ _ _).trans (if_pos rfl))) hmode
        ((Registry.get?_add _ _ _).trans (if_pos rfl)) rfl (h.holding ?_ rfl rfl)
      exact (requests_of_deeds_eq (by simp [conclude])).trans (List.append_nil _).symm
    · exact h.alone.leave rfl rfl

/-! ### And taken, or refused -/

theorem answer_sending (s : Factory) (c : CallId) (v : HandleId) (u : Ticket)
    (r : Except ClientError MessageId) : s.answer c u (.sending v u) (.receipt r) =
      some ((s.endBorrow v).finish c (endOf ((s.endBorrow v).outcomeOf v r))) := by
  simp only [answer, if_true]
  cases (s.endBorrow v).outcomeOf v r <;> rfl

/-- The one who waits for the receipt gets it. -/
theorem Handed.acknowledged {u : Ticket} (hrun : Run PublicOnly tr s')
    (h : Handed w s m v x (.sending v u) u (.send v m.spec) s') :
    ComesTo w (fun s'' => Delivered w s m (effect w s m) s'' .acknowledged) s' := by
  refine .later ⟨_, .answer h.asked .sent ((step_answer h.point _).trans (answer_sending ..))⟩
    fun s'' ha => .now ?_
  obtain ⟨a, hgives, hs⟩ := (ha.acts h.alone h.point).answered hrun rfl h.asked
  cases hgives
  rw [answer_sending] at hs
  obtain ⟨cs, he⟩ := s'.endBorrow_eq v
  have htopic : (s'.endBorrow v).topic? v = some (canonicalize m.topic) :=
    topic?_later (he ▸ later_endBorrow_update s'.handles v) h.holding.topic?
  rw [resultOf_eq htopic, he] at hs
  cases hs
  have hholding : Holding w s m v x [Demand.sending v m.spec .acknowledged x.mode] s' := h.holding
  refine .acknowledged ?_
    ⟨hholding.left rfl rfl (requests_of_deeds_eq (by simp)), h.alone.over rfl rfl⟩
  rw [effect_of_ok h.holding.result]
  exact get?_goTo h.point

/-- What is promised is kept, whenever somebody begins to wait for it. -/
theorem Rest.promised (hrun : Run PublicOnly tr s') (h : Rest w s m v x p n 0 none s')
    (hresult : (acquired w s (canonicalize m.topic)).result = .ok v)
    (hp : s'.calls.get? s.calls.size = some (.ended (.promised p))) :
    Delivered w s m (effect w s m) s' .promised := by
  refine .promised (by rw [effect_of_ok hresult]; rfl) hp fun s₁ hl => ?_
  obtain ⟨n', tr', h', hrun'⟩ := h.leads hrun hl
  exact h'.await.comes (.step (l := .call (.await p)) hrun' trivial rfl)

/-- The message did not get into the queue, which is for the pending send to tell. -/
theorem Handed.reject {u : Ticket} {e : ClientError} (hmode : x.mode = .pipelined)
    (hsends : w.sends v m.spec = .error e)
    (h : Handed w s m v x (.enqueuing v u) u (.enqueue v m.spec) s') :
    (s'.accepted s.calls.size v u (.error e)).calls.get? s.calls.size =
        some (.ended (.promised s'.pending.size)) ∧
      Rest w s m v x s'.pending.size 0 0 none (s'.accepted s.calls.size v u (.error e)) := by
  obtain ⟨cs, he⟩ := s'.endBorrow_eq v
  have hholding : Holding w s m v x [Demand.sending v m.spec .promised x.mode] s' := by
    rw [hmode]
    exact h.holding
  simp only [accepted, topicOf_eq h.holding.topic?, he]
  refine ⟨get?_goTo h.point, none, .settled ((Registry.get?_add _ _ _).trans (if_pos rfl)) ?_
    (hholding.left rfl rfl (requests_of_deeds_eq (by simp))), .nobody, (h.alone.over rfl rfl).atWork⟩
  rw [effect_of_ok h.holding.result, hsends]
  rfl

/-- The message is in the queue, and another call waits for its receipt. -/
theorem Handed.accept {u : Ticket} (hmode : x.mode = .pipelined)
    (hsends : w.sends v m.spec = w.receipts v m.spec)
    (h : Handed w s m v x (.enqueuing v u) u (.enqueue v m.spec) s') :
    (s'.accepted s.calls.size v u (.ok ())).calls.get? s.calls.size =
        some (.ended (.promised s'.pending.size)) ∧
      Rest w s m v x s'.pending.size 1 0 none (s'.accepted s.calls.size v u (.ok ())) := by
  have hne : s'.calls.size ≠ s.calls.size := Nat.ne_of_gt (Registry.lt_size_of_get? h.point)
  have hdeeds : (s'.accepted s.calls.size v u (.ok ())).deeds = s'.deeds := by simp [accepted]
  refine ⟨get?_goTo (calls_start h.point), some s'.calls.size, ?_, .nobody, h.alone.leave rfl rfl⟩
  refine .completing (calls_goTo _ _ hne ((Registry.get?_add _ _ _).trans (if_pos rfl)))
    (mem_deeds.1 (hdeeds ▸ mem_deeds.2 ⟨h.asked, rfl⟩)).1 (by rw [hmode]; rfl) (fun r => ⟨?_, ?_⟩)
    ((Registry.get?_add _ _ _).trans (if_pos rfl)) rfl (h.holding.same hdeeds rfl rfl)
  · rintro ⟨⟩
    exact hsends.symm
  · rintro rfl
    rw [hsends]
    exact .receipt

/-- Whether the message is taken into the queue or not, the send is promised. -/
theorem Handed.promised {u : Ticket} (hrun : Run PublicOnly tr s') (hmode : x.mode = .pipelined)
    (hagree : w.sends v m.spec = (w.accepts v m.spec).bind fun _ => w.receipts v m.spec)
    (h : Handed w s m v x (.enqueuing v u) u (.enqueue v m.spec) s') :
    ComesTo w (fun s'' => Delivered w s m (effect w s m) s'' .promised) s' := by
  refine .later ⟨_, .answer h.asked .accepted ((step_answer h.point _).trans (if_pos rfl))⟩
    fun s'' ha => .now ?_
  obtain ⟨tr', hrun'⟩ := ha.run hrun
  obtain ⟨a, hgives, hs⟩ := (ha.acts h.alone h.point).answered hrun rfl h.asked
  cases hgives with
  | receipt => cases hs
  | accepted =>
    simp only [answer, if_true] at hs
    cases hs
    cases hr : w.accepts v m.spec with
    | error e =>
      rw [hr] at hagree hrun'
      obtain ⟨hp, hrest⟩ := h.reject hmode hagree
      exact hrest.promised hrun' h.holding.result hp
    | ok =>
      rw [hr] at hagree hrun'
      obtain ⟨hp, hrest⟩ := h.accept hmode hagree
      exact hrest.promised hrun' h.holding.result hp

/-- A call that has got a handle comes to its end with it. -/
theorem Ready.comes (hrun : Run PublicOnly tr
      (s'.grant s.calls.size ⟨canonicalize m.topic, .send m.spec d⟩ v))
    (hagree : x.mode = .pipelined →
      w.sends v m.spec = (w.accepts v m.spec).bind fun _ => w.receipts v m.spec)
    (h : Ready w s m v x s') : ComesTo w (fun s'' => Delivered w s m (effect w s m) s'' d)
      (s'.grant s.calls.size ⟨canonicalize m.topic, .send m.spec d⟩ v) := by
  cases h.grant d with
  | sending hhanded => exact hhanded.acknowledged hrun
  | enqueuing hmode hhanded => exact hhanded.promised hrun hmode (hagree hmode)
  | promised hp hrest => exact .now (hrest.promised hrun h.result hp)

end

/-! ## 5. A handle is got, or not -/

/-- The call of a send opens a producer. -/
structure Creating (s : Factory) (m : OutboundMessage) (d : Delivery) (k : CellId) (u : Ticket)
    (s' : Factory) : Prop where
  point : s'.calls.get? s.calls.size =
    some (.creating ⟨canonicalize m.topic, .send m.spec d⟩ k u)
  alone : AtWork s' [s.calls.size]
  asked : .asked s.calls.size u (.openProducer (canonicalize m.topic)) ∈ s'.events
  opened : s.cache.closed = false
  missing : s.cache.handle? (canonicalize m.topic) = none
  cell : (s.cache.cellFor (canonicalize m.topic)).2 = k
  cache : s'.cache =
    (s.cache.cellFor (canonicalize m.topic)).1.setCell k fun x => (x.enter s.calls.size).2
  handles : s'.handles = s.handles
  requests : s'.requests = s.requests ++ [.openProducer (canonicalize m.topic)]

section

variable {w : Behaviour} {s s' s'' : Factory} {m : OutboundMessage} {d : Delivery} {v : HandleId}
  {t : String} {k : CellId} {u : Ticket} {e : Error} {tr : List (Label × Factory)}

theorem acquired_of_closed (h : s.cache.closed = true) :
    acquired w s t = ⟨s.cache, s.handles, false, .error .factoryClosed⟩ := by
  simp only [acquired, h, if_true]

theorem acquired_of_found (ho : s.cache.closed = false) (h : s.cache.handle? t = some v) :
    acquired w s t = ⟨s.cache, s.handles, false, .ok v⟩ := by
  simp only [acquired, ho, h, Bool.false_eq_true, if_false]

theorem acquired_of_failed {e : ClientError} (ho : s.cache.closed = false)
    (h : s.cache.handle? t = none) (he : w.opens t = .error e) :
    acquired w s t = ⟨((s.cache.cellFor t).1.setCell (s.cache.cellFor t).2
      fun x => (x.enter s.calls.size).2).setCell (s.cache.cellFor t).2 fun x => x.pass.1,
      s.handles, true, .error (.producerCreation t e)⟩ := by
  simp only [acquired, ho, h, he, Bool.false_eq_true, if_false]

theorem acquired_of_opened {mode : DispatchMode} (ho : s.cache.closed = false)
    (h : s.cache.handle? t = none) (he : w.opens t = .ok mode) :
    acquired w s t = ⟨((s.cache.cellFor t).1.setCell (s.cache.cellFor t).2
      fun x => (x.enter s.calls.size).2).setCell (s.cache.cellFor t).2
        fun x => (x.fill s.handles.size).1,
      s.handles.add { topic := t, mode }, true, .ok s.handles.size⟩ := by
  simp only [acquired, ho, h, he, Bool.false_eq_true, if_false]

/-- The handle that is got is one of the topic, grants leases and sends either way alike. -/
theorem acquired_ok (hrun : Run PublicOnly tr s) (hw : Agrees w s)
    (h : (acquired w s t).result = .ok v) : ∃ x, (acquired w s t).handles.get? v = some x ∧
      x.topic = t ∧ x.retiring = false ∧ (x.mode = .pipelined →
        ∀ spec, w.sends v spec = (w.accepts v spec).bind fun _ => w.receipts v spec) := by
  obtain ⟨owner, hs⟩ := hrun.orderly.sound
  cases ho : s.cache.closed with
  | true =>
    rw [acquired_of_closed ho] at h
    cases h
  | false =>
    cases hh : s.cache.handle? t with
    | some v' =>
      rw [acquired_of_found ho hh] at h ⊢
      cases h
      obtain ⟨x, hx, htopic⟩ := topic?_eq_some_iff.1 (topic?_of_handle? hs hh)
      refine ⟨x, hx, htopic, ?_, fun hmode spec => hw v spec (.inl ⟨x, hx, hmode⟩)⟩
      exact (isRetiring_eq hx).symm.trans (hrun.orderly.inUse.leasing t v hh)
    | none =>
      cases he : w.opens t with
      | error e =>
        rw [acquired_of_failed ho hh he] at h
        cases h
      | ok mode =>
        rw [acquired_of_opened ho hh he] at h ⊢
        cases h
        refine ⟨{ topic := t, mode }, (Registry.get?_add _ _ _).trans (if_pos rfl), rfl, rfl, ?_⟩
        rintro rfl spec
        exact hw _ spec (.inr ⟨Nat.le_refl _, t, he⟩)

theorem acquired_error (h : (acquired w s t).result = .error e) :
    e = .factoryClosed ∨ ∃ f, e = .producerCreation t f := by
  cases ho : s.cache.closed with
  | true =>
    rw [acquired_of_closed ho] at h
    cases h
    exact .inl rfl
  | false =>
    cases hh : s.cache.handle? t with
    | some v' =>
      rw [acquired_of_found ho hh] at h
      cases h
    | none =>
      cases he : w.opens t with
      | error f =>
        rw [acquired_of_failed ho hh he] at h
        cases h
        exact .inr ⟨f, rfl⟩
      | ok mode =>
        rw [acquired_of_opened ho hh he] at h
        cases h

/-- The call ends without a handle. -/
theorem Delivered.failed {cache : Cache} {handles : Registry Handle} {creates : Bool}
    (hacquired : acquired w s (canonicalize m.topic) = ⟨cache, handles, creates, .error e⟩)
    (hcall : s'.calls.get? s.calls.size = some (.ended (.failed e))) (hidle : Idle s')
    (hcache : s'.cache = cache) (hhandles : s'.handles = handles)
    (hreq : s'.requests = s.requests ++ opening creates (canonicalize m.topic)) :
    Delivered w s m (effect w s m) s' d := by
  have heffect : effect w s m = ⟨.error e, cache, handles, creates, none⟩ := by
    simp only [effect, hacquired]
  rw [heffect]
  have hdone : ∀ d, Done s m d ⟨.error e, cache, handles, creates, none⟩ s' := by
    refine fun d => ⟨⟨hcache, hhandles, ?_⟩, hidle⟩
    simp [hreq, Effect.requests]
  cases d with
  | acknowledged => exact .acknowledged hcall (hdone _)
  | promised => exact .refused rfl rfl hcall (hdone _)

/-- The call goes on with the handle that it has got. -/
theorem Ready.of_acquired {x : Handle} {cache : Cache} {handles : Registry Handle} {creates : Bool}
    {q : Progress}
    (hacquired : acquired w s (canonicalize m.topic) = ⟨cache, handles, creates, .ok v⟩)
    (hx : handles.get? v = some x) (htopic : x.topic = canonicalize m.topic)
    (hleasing : x.retiring = false) (hpoint : s'.calls.get? s.calls.size = some q)
    (halone : AtWork s' [s.calls.size]) (hcache : s'.cache = cache) (hhandles : s'.handles = handles)
    (hreq : s'.requests = s.requests ++ opening creates (canonicalize m.topic)) :
    Ready w s m v x s' := by
  refine ⟨⟨q, hpoint⟩, halone, ?_, ?_, htopic, hleasing, ?_, ?_, ?_⟩ <;> rw [hacquired] <;> assumption

theorem answer_creating (s : Factory) (c : CallId) (W : Want) (k : CellId) (u : Ticket)
    (r : Except ClientError DispatchMode) :
    s.answer c u (.creating W k u) (.opened r) = some (s.opened c W k r) := if_pos rfl

/-- The producer is not opened. -/
theorem Creating.failed {f : ClientError} (h : Creating s m d k u s')
    (hf : w.opens (canonicalize m.topic) = .error f) :
    Delivered w s m (effect w s m)
      (s'.opened s.calls.size ⟨canonicalize m.topic, .send m.spec d⟩ k (.error f)) d := by
  have hacquired := acquired_of_failed h.opened h.missing hf
  obtain ⟨cs, he⟩ := s'.setCell_eq k Cell.pass
  have hs'' : s'.opened s.calls.size ⟨canonicalize m.topic, .send m.spec d⟩ k (.error f) =
      (s'.setCell k Cell.pass).finish s.calls.size
        (.failed (.producerCreation (canonicalize m.topic) f)) := rfl
  rw [hs'', he]
  rw [h.cell, ← h.cache] at hacquired
  exact .failed hacquired (get?_goTo h.point) (h.alone.over rfl rfl) rfl h.handles
    ((requests_of_deeds_eq (by simp)).trans h.requests)

/-- A handle whose cell the map has stays there, and the message is handed to it. -/
theorem place_mapped {c : CallId} {spec : MessageSpec} (ho : s.cache.closed = false)
    (hk : s.cache.current? t = some k) (hr : s.isRetiring v = false) :
    s.place c ⟨t, .send spec d⟩ k v = s.grant c ⟨t, .send spec d⟩ v := by
  simp only [place, hr, Cache.place_own ho hk, give, Bool.false_eq_true, if_false]

/-- The producer is opened, and its handle is placed where the map looks for it. -/
theorem Creating.ready {mode : DispatchMode} (h : Creating s m d k u s')
    (hmode : w.opens (canonicalize m.topic) = .ok mode) :
    ∃ s'' x, s'.opened s.calls.size ⟨canonicalize m.topic, .send m.spec d⟩ k (.ok mode) =
        s''.grant s.calls.size ⟨canonicalize m.topic, .send m.spec d⟩ s.handles.size ∧
      Ready w s m s.handles.size x s'' := by
  have hacquired := acquired_of_opened h.opened h.missing hmode
  have hcell := s.cache.cellFor_spec (canonicalize m.topic)
  let x : Handle := { topic := canonicalize m.topic, mode }
  let s₁ := { s' with handles := s'.handles.add x }.note (.opened s.calls.size s'.handles.size)
  obtain ⟨cs, he⟩ := s₁.setCell_eq k fun y => y.fill s'.handles.size
  let s₂ := { s₁ with
    cache := s₁.cache.setCell k fun y => (y.fill s'.handles.size).1 }.rouse cs
  have hsize : s'.handles.size = s.handles.size := by rw [h.handles]
  have hget : s₂.handles.get? s.handles.size = some x := by
    rw [← hsize]
    exact (Registry.get?_add _ _ _).trans (if_pos rfl)
  have hplace : s'.opened s.calls.size ⟨canonicalize m.topic, .send m.spec d⟩ k (.ok mode) =
      s₂.place s.calls.size ⟨canonicalize m.topic, .send m.spec d⟩ k s.handles.size := by
    rw [← hsize]
    show (s₁.setCell k _).place _ _ _ _ = _
    rw [he]
  refine ⟨s₂, x, ?_, ?_⟩
  · rw [hplace]
    refine place_mapped ?_ ?_ (isRetiring_eq hget)
    · show s'.cache.closed = false
      rw [h.cache]
      exact hcell.closed_eq.trans h.opened
    · show s'.cache.current? _ = some k
      rw [h.cache, ← h.cell]
      exact hcell.current?
  · have hdeeds : s₂.deeds = s'.deeds ++ [.opened s.calls.size s'.handles.size] := by simp [s₂, s₁]
    rw [h.cell, ← h.cache, ← h.handles] at hacquired
    rw [← hsize] at hget ⊢
    refine .of_acquired hacquired hget rfl rfl h.point h.alone rfl rfl ?_
    rw [requests_append hdeeds, h.requests, List.append_assoc]
    rfl

/-- The producer is opened, or not. -/
theorem Creating.comes (hs : Run PublicOnly tr s) {tr' : List (Label × Factory)}
    (hrun : Run PublicOnly tr' s') (hw : Agrees w s) (h : Creating s m d k u s') :
    ComesTo w (fun s'' => Delivered w s m (effect w s m) s'' d) s' := by
  refine .later ⟨_, .answer h.asked .opened ((step_answer h.point _).trans (answer_creating ..))⟩
    fun s'' ha => ?_
  obtain ⟨tr'', hrun'⟩ := ha.run hrun
  obtain ⟨a, hgives, hstep⟩ := (ha.acts h.alone h.point).answered hrun rfl h.asked
  cases hgives
  rw [answer_creating] at hstep
  cases hstep
  cases hr : w.opens (canonicalize m.topic) with
  | error e => exact .now (h.failed hr)
  | ok mode =>
    obtain ⟨s₁, x, he, hready⟩ := h.ready hr
    rw [hr, he] at hrun'
    rw [he]
    obtain ⟨x', hx', -, -, hagree⟩ := acquired_ok hs hw hready.result
    cases hready.handle.symm.trans hx'
    exact hready.comes hrun' fun hmode => hagree hmode m.spec

/-- The cell of a topic without a handle is empty. -/
theorem missing_of_cellFor {owner : CellId → String} {b : Cache} {x : Cell} (hs : Sound owner s none)
    (hcell : s.cache.CellFor t (b, k)) (hx : b.cells.get? k = some x) (hnone : x.value = none) :
    s.cache.handle? t = none := by
  rw [← hcell.handle? hs.tidy, Cache.handle?, hcell.current?]
  simp [Cache.value?, hx, hnone]

/-- When all calls are over, nobody stands at the cell of a topic. -/
theorem Run.free_cellFor {b : Cache} {x : Cell} (h : Run PublicOnly tr s) (hidle : Idle s)
    (hcell : s.cache.CellFor t (b, k)) (hx : b.cells.get? k = some x) : x.line = [] := by
  cases hcell with
  | found => exact h.free hidle hx
  | added =>
    cases ((Registry.get?_add _ _ _).trans (if_pos rfl)).symm.trans hx
    rfl

theorem enter_of_free {x : Cell} {c : CallId} (h : x.line = []) : (x.enter c).1 = true := by
  unfold Cell.line at h
  unfold Cell.enter
  cases ht : x.turn with
  | none => rfl
  | some i => simp [ht] at h

/-! ### The look-up -/

theorem get?_send : (s.send m d).calls.get? s.calls.size =
    some (.fresh (.want ⟨canonicalize m.topic, .send m.spec d⟩)) :=
  (Registry.get?_add _ _ _).trans (if_pos rfl)

theorem Idle.send (h : Idle s) : AtWork (s.send m d) [s.calls.size] := h.atWork.start _

theorem deeds_send : (s.send m d).deeds = s.deeds := deeds_start s _

/-- The call of a send takes the turn at the cell of its topic, which is empty. -/
theorem creating_of_turn {owner : CellId → String} {b : Cache} {x : Cell} (hs : Sound owner s none)
    (hidle : Idle s) (ho : s.cache.closed = false)
    (hcell : s.cache.CellFor (canonicalize m.topic) (b, k)) (hx : b.cells.get? k = some x)
    (hnone : x.value = none) :
    Creating s m d k s.tickets (({ (s.send m d).note
      (.lookedUp s.calls.size (canonicalize m.topic)) with
        cache := b.setCell k fun x => (x.enter s.calls.size).2 }).create s.calls.size
          ⟨canonicalize m.topic, .send m.spec d⟩ k) := by
  have hdeeds := deeds_create { (s.send m d).note (.lookedUp s.calls.size (canonicalize m.topic)) with
    cache := b.setCell k fun x => (x.enter s.calls.size).2 } s.calls.size
      ⟨canonicalize m.topic, .send m.spec d⟩ k
  refine ⟨get?_goTo get?_send, hidle.send.goTo rfl (fun _ => List.mem_cons_self) fun _ hi _ => hi,
    (mem_deeds.1 (hdeeds ▸ List.mem_append_right _ List.mem_cons_self)).1, ho,
    missing_of_cellFor hs hcell hx hnone, by rw [hcell.eq], by rw [hcell.eq]; rfl, rfl, ?_⟩
  rw [requests_append hdeeds]
  exact congrArg (· ++ _) (requests_of_deeds_eq (by simp [deeds_send]))

/-- The call of a send looks its topic up. -/
theorem look_comes (hs : Run PublicOnly tr s) {tr' : List (Label × Factory)} (hidle : Idle s)
    (hw : Agrees w s)
    (hrun : Run PublicOnly tr'
      ((s.send m d).look s.calls.size ⟨canonicalize m.topic, .send m.spec d⟩)) :
    ComesTo w (fun s'' => Delivered w s m (effect w s m) s'' d)
      ((s.send m d).look s.calls.size ⟨canonicalize m.topic, .send m.spec d⟩) := by
  obtain ⟨owner, hsound⟩ := hs.orderly.sound
  obtain ⟨s₁, next, ht, he, -⟩ := MomentLemmas.takes_look s.calls.size (s.send m d)
    ⟨canonicalize m.topic, .send m.spec d⟩
  have he : (s.send m d).look s.calls.size ⟨canonicalize m.topic, .send m.spec d⟩ =
    s₁.conclude s.calls.size next := he
  rw [he] at hrun ⊢
  cases ht with
  | refused ho =>
    exact .now (.failed (acquired_of_closed ho) (get?_goTo get?_send) (hidle.send.over rfl rfl) rfl rfl
      ((requests_of_deeds_eq (by simp [conclude, deeds_send])).trans (List.append_nil _).symm))
  | @found _ v ho hh =>
    have hacquired : acquired w s (canonicalize m.topic) = _ := acquired_of_found ho hh
    obtain ⟨x, hx, htopic, hleasing, hagree⟩ :=
      acquired_ok hs hw (t := canonicalize m.topic) (v := v) (by rw [hacquired])
    rw [hacquired] at hx
    refine Ready.comes hrun (fun hmode => hagree hmode m.spec)
      (.of_acquired hacquired hx htopic hleasing get?_send hidle.send rfl rfl ?_)
    exact (requests_of_deeds_eq (by simp [deeds_send])).trans (List.append_nil _).symm
  | create ho hcell hx hnone => exact (creating_of_turn hsound hidle ho hcell hx hnone).comes hs hrun hw
  -- The handles in the map grant leases, and nobody has the turn at a cell.
  | spin _ hh _ hr =>
    exact absurd ((hs.orderly.inUse.leasing _ _ hh).symm.trans hr) Bool.false_ne_true
  | queue _ hcell hx _ hturn =>
    rw [enter_of_free (hs.free_cellFor hidle hcell hx)] at hturn
    cases hturn
  | lost hcell hx => exact (Sound.not_lost hsound hcell hx).elim

/-- A send comes to its end. -/
theorem send_comes (hs : Run PublicOnly tr s) (hidle : Idle s) (hw : Agrees w s)
    (m : OutboundMessage) (d : Delivery) :
    ComesTo w (fun s' => Delivered w s m (effect w s m) s' d) (s.send m d) := by
  have hrun : Run PublicOnly _ (s.send m d) := .step (l := .call (.send (.ok m) d)) hs trivial rfl
  refine .later ⟨_, .resume ((step_resume get?_send).trans rfl)⟩ fun s' ha => ?_
  obtain ⟨tr', hrun'⟩ := ha.run hrun
  cases ha.acts hidle.send get?_send with
  | resume hstep =>
    cases hstep
    exact look_comes hs hidle hw hrun'
  | @answer _ _ _ a _ _ hstep => cases a <;> cases hstep

/-- When nobody else does anything, a send has one effect, whether its caller waits for the receipt or for
what was promised. -/
theorem deliveries_agree (h : Run PublicOnly tr s) (hidle : Idle s) (hw : Agrees w s)
    (m : OutboundMessage) : Agreement w s m (effect w s m) := by
  cases hresult : (acquired w s (canonicalize m.topic)).result with
  | error e =>
    have heffect := effect_of_error hresult
    refine ⟨send_comes h hidle hw m, fun v hv => ?_, fun _ => ?_, fun e hs => ?_⟩
    · rw [heffect] at hv
      cases hv
    · rw [heffect]
      rcases acquired_error hresult with rfl | ⟨f, rfl⟩
      · exact .inl rfl
      · exact .inr ⟨f, rfl⟩
    · rw [heffect] at hs
      cases hs
  | ok v =>
    have heffect := effect_of_ok hresult
    refine ⟨send_comes h hidle hw m, fun v' hv => ?_, fun hnone => ?_, fun e _ he => ?_⟩
    · rw [heffect] at hv ⊢
      cases hv
      obtain ⟨x, hx, htopic, -⟩ := acquired_ok h hw hresult
      obtain ⟨y, hy, hsame, -⟩ := get?_returned hx
      exact ⟨y, hy, hsame.trans htopic⟩
    · rw [heffect] at hnone
      cases hnone
    · rw [heffect] at he
      cases hs : w.sends v m.spec with
      | ok id =>
        rw [hs] at he
        cases he
      | error f =>
        rw [hs] at he
        cases he
        exact ⟨f, rfl⟩

/-- A producer is opened and its queue is full: the one who waits for the receipt learns it at once, and
the other one from what he was promised. -/
theorem deliveries_agree_queue_full : ∃ w s, Run PublicOnly [] s ∧ Idle s ∧ Agrees w s ∧
    Agreement w s ⟨"a://b", {}⟩ (effect w s ⟨"a://b", {}⟩) ∧
    (effect w s ⟨"a://b", {}⟩).result = .error (.ofSend "a://b" (.queueFull "")) ∧
    (effect w s ⟨"a://b", {}⟩).creates = true ∧ (effect w s ⟨"a://b", {}⟩).receiver = some 0 := by
  let full : Behaviour :=
    { opens := fun _ => .ok .pipelined
      sends := fun _ _ => .error (.queueFull "")
      accepts := fun _ _ => .error (.queueFull "")
      receipts := fun _ _ => .error .closed
      closes := fun _ => .ok () }
  have hidle : Idle new := fun i q hq => by simp [new] at hq
  have hw : Agrees full new := fun _ _ _ => rfl
  have htopic : canonicalize "a://b" = "a://b" := by decide +kernel
  refine ⟨full, new, .new, hidle, hw, deliveries_agree .new hidle hw _, ?_, rfl, rfl⟩
  rw [effect_of_ok (v := 0) rfl, htopic]
  rfl

end

end Factory

end TopicPublisher
