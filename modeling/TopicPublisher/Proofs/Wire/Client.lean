import TopicPublisher.CommandLine.Run
import TopicPublisher.Proofs.Config.Reading
import TopicPublisher.Proofs.Wire.Window

/-!
# What a configuration makes of the wire client

A client lives with the room and the timeout of its configuration. Whatever it is asked and whatever the
broker does, each request gets a reply: at once, or when its receipt comes, or when the timeout is over.
The one reply that is no answer is a crash, and it has one cause: a producer is to be opened with more room
than there are permits. The demands on a configuration do not keep such a room out.

Results:
1. `enqueue_kept`, `pollReceipt_kept`, `forget_kept`: what the client does for one message leaves the
   receipts of all others to be waited for.
2. `Tracked.reached`: in every state of a client each message under way is known, and is one request's own.
3. `accepted_configuration`: every request is replied to, and when it crashes the client.
4. `accepted_configuration_crashes`: a configuration that is accepted and opens no producer.
-/

namespace TopicPublisher

namespace Rehearsal

namespace WireClient

/-! ## Definitions -/

/-- A state that a client can get into from another one. -/
inductive Reached (c₀ : WireClient) : WireClient → Prop
  | connected : Reached c₀ c₀
  | take {c : WireClient} (t : Ticket) (w : WireCall) : Reached c₀ c → Reached c₀ (c.take t w)
  | poll {c : WireClient} (t : Ticket) (task : TaskId) : Reached c₀ c → Reached c₀ (c.poll t task).1
  | drop {c : WireClient} (t : Ticket) : Reached c₀ c → Reached c₀ (c.drop t)
  /-- The broker gives a receipt. -/
  | acknowledge {c : WireClient} (n : Nat) (r : Receipt) : Reached c₀ c →
      Reached c₀ { c with broker := (c.broker.acknowledge n r).2.2 }
  | advance {c : WireClient} (ms : Nat) : Reached c₀ c → Reached c₀ (c.advance ms).2

/-- A message was taken and its receipt has not come, and no deadline is further off than the timeout. -/
def Waits (c : WireClient) (a : Awaited) : Prop :=
  ∃ p d, c.producers.get? a.producer = some p ∧ p.sends.get? a.send = some (.waiting d) ∧
    a.message < c.broker.messages.size ∧ ∀ x, d = some x → x ≤ c.now + c.sendTimeout

/-- A request is for the receipt of a message. -/
def Expects (c : WireClient) (t : Ticket) (a : Awaited) : Prop :=
  (t, .accepted a) ∈ c.flights ∨ (t, .receipt a) ∈ c.flights

/-- Two messages are of different sends. -/
def Apart (a b : Awaited) : Prop := a.producer ≠ b.producer ∨ a.send ≠ b.send

/-- What is known of the requests under way. -/
structure Tracked (room : Nat) (c : WireClient) : Prop where
  size : c.maxPending = room
  crash : ∀ t, (t, .replies .crash) ∈ c.flights → WireProducer.maxPermits < room
  prompt : ∀ t, (t, .replies .later) ∉ c.flights
  one : ∀ t f f', (t, f) ∈ c.flights → (t, f') ∈ c.flights → f = f'
  waits : ∀ t a, Expects c t a → Waits c a
  apart : ∀ t t' a a', Expects c t a → Expects c t' a' → t ≠ t' → Apart a a'

/-- The client is as before, but for the broker, the producers and the timers. -/
structure Same (c c' : WireClient) : Prop where
  flights : c'.flights = c.flights
  maxPending : c'.maxPending = c.maxPending
  sendTimeout : c'.sendTimeout = c.sendTimeout
  now : c'.now = c.now

/-- What a configuration with this much room makes of a client.

* `size`: every producer is opened with the room that was configured.
* `crash`: a client that crashes was to open a producer with more room than there are permits.
* `opens`: and it does crash, where the broker has no objection to the producer.
* `timely`: who asks again when the timeout is over has the reply. -/
structure Dependable (room : Nat) (c : WireClient) : Prop where
  size : c.maxPending = room
  crash : ∀ t task, (c.poll t task).2 = .crash → WireProducer.maxPermits < room
  opens : ∀ t topic schema task, ((c.take t (.newProducer topic schema)).poll t task).2 = .crash ↔
    (c.broker.create topic schema.toWire).1 = .ok () ∧ WireProducer.maxPermits < room
  others : ∀ t w task, (∀ topic schema, w ≠ .newProducer topic schema) →
    ((c.take t w).poll t task).2 ≠ .crash
  timely : ∀ t f task, (t, f) ∈ c.flights → (c.poll t task).2 = .later →
    (((c.poll t task).1.advance c.sendTimeout).2.poll t task).2 ≠ .later

section

variable {room : Nat} {c c' : WireClient} {a b : Awaited} {t : Ticket} {i : Nat} {p : WireProducer}

theorem Same.refl (c : WireClient) : Same c c := ⟨rfl, rfl, rfl, rfl⟩

theorem Same.trans {c'' : WireClient} (h : Same c c') (h' : Same c' c'') : Same c c'' :=
  ⟨h'.flights.trans h.flights, h'.maxPending.trans h.maxPending, h'.sendTimeout.trans h.sendTimeout,
    h'.now.trans h.now⟩

/-! ## 1. One message -/

/-- A message waits on when its producer leaves its send alone. -/
theorem Waits.keep (h : Waits c a) (hs : Same c c')
    (hsize : c.broker.messages.size ≤ c'.broker.messages.size)
    (hget : ∀ p, c.producers.get? a.producer = some p → ∃ p', c'.producers.get? a.producer = some p' ∧
      p'.sends.get? a.send = p.sends.get? a.send) : Waits c' a := by
  obtain ⟨p, d, hp, hsend, hm, hd⟩ := h
  obtain ⟨p', hp', hsame⟩ := hget p hp
  refine ⟨p', d, hp', hsame.trans hsend, Nat.lt_of_lt_of_le hm hsize, fun x hx => ?_⟩
  rw [hs.now, hs.sendTimeout]
  exact hd x hx

/-- A producer is set that is as it was, but for some sends. -/
theorem get?_setProducer (hp : c.producers.get? i = some p) {p' : WireProducer} {j k : Nat}
    (hsend : k = i → p'.sends.get? j = p.sends.get? j) :
    ∀ q, c.producers.get? k = some q → ∃ q', (c.setProducer i p').producers.get? k = some q' ∧
      q'.sends.get? j = q.sends.get? j := by
  intro q hq
  show ∃ q', (c.producers.update i fun _ => p').get? k = some q' ∧ _
  rw [Registry.get?_update]
  split
  · next hik =>
    subst hik
    cases hp.symm.trans hq
    exact ⟨p', by rw [hp]; rfl, hsend rfl⟩
  · exact ⟨q, hq, rfl⟩

theorem size_setMessage (s : ScriptedBroker) (n : Nat) (f : BrokerMessage → BrokerMessage) :
    (s.setMessage n f).messages.size = s.messages.size := Registry.size_update _ _ _

theorem forget_eq (hp : c.producers.get? a.producer = some p) :
    c.forget a = ({ c with
      broker := c.broker.setMessage a.message fun _ => { state := .gone } } : WireClient).setProducer
        a.producer (p.finish a.send) := by
  simp only [forget, hp]

theorem forget_eq_of_none (hp : c.producers.get? a.producer = none) :
    c.forget a = { c with broker := c.broker.setMessage a.message fun _ => { state := .gone } } := by
  simp only [forget, hp]

/-- To give up one message leaves the others to be waited for. -/
theorem forget_kept (c : WireClient) (a : Awaited) :
    Same c (c.forget a) ∧ ∀ b, Waits c b → Apart b a → Waits (c.forget a) b := by
  have hsize := Nat.le_of_eq (size_setMessage c.broker a.message fun _ => { state := .gone }).symm
  cases hp : c.producers.get? a.producer with
  | none =>
    rw [forget_eq_of_none hp]
    have hsame : Same c { c with
      broker := c.broker.setMessage a.message fun _ => { state := .gone } } := ⟨rfl, rfl, rfl, rfl⟩
    exact ⟨hsame, fun b hb _ => hb.keep hsame hsize fun p hp => ⟨p, hp, rfl⟩⟩
  | some p =>
    rw [forget_eq hp]
    have hsame : Same c (({ c with
      broker := c.broker.setMessage a.message fun _ => { state := .gone } } : WireClient).setProducer
        a.producer (p.finish a.send)) := ⟨rfl, rfl, rfl, rfl⟩
    refine ⟨hsame, fun b hb hne => hb.keep hsame hsize (get?_setProducer hp fun hprod => ?_)⟩
    exact WireProducer.get?_finish_of_ne (hne.resolve_left fun h => h hprod)

theorem take_cases (s : ScriptedBroker) (topic : String) (m : WireMessage) (d : Option Nat) :
    (∃ f s', s.take topic m d = (.error f, s') ∧ s'.messages = s.messages) ∨
      ∃ x s', s.take topic m d = (.ok s.messages.size, s') ∧ s'.messages = s.messages.add x := by
  unfold ScriptedBroker.take
  cases ScriptedBroker.next s.script.enqueues with
  | error f => exact .inl ⟨f, _, rfl, rfl⟩
  | ok _ => exact .inr ⟨_, _, rfl, rfl⟩

/-- What a client makes of a message that it is to queue. -/
structure Queues (c c' : WireClient) (r : Except ClientError Awaited) : Prop where
  same : Same c c'
  waits : ∀ a, Waits c a → Waits c' a
  taken : ∀ b, r = .ok b → Waits c' b ∧ ∀ a, Waits c a → Apart a b

/-- A message that is queued leaves the others to be waited for: a send that is under way has another number
than the one that begins. -/
theorem setProducer_kept (hp : c.producers.get? i = some p) {s : ScriptedBroker} {q : WireProducer}
    (hsize : c.broker.messages.size ≤ s.messages.size)
    (hsends : ∀ j, j ≠ p.sends.size → q.sends.get? j = p.sends.get? j) :
    Same c (({ c with broker := s } : WireClient).setProducer i q) ∧
      ∀ a, Waits c a → Waits (({ c with broker := s } : WireClient).setProducer i q) a := by
  refine ⟨⟨rfl, rfl, rfl, rfl⟩, fun a ha => ha.keep ⟨rfl, rfl, rfl, rfl⟩ hsize ?_⟩
  obtain ⟨y, d, hy, hj, -⟩ := ha
  refine get?_setProducer (c := { c with broker := s }) hp fun hprod => hsends _ ?_
  subst hprod
  cases hp.symm.trans hy
  exact Nat.ne_of_lt (Registry.lt_size_of_get? hj)

theorem enqueue_kept (c : WireClient) (i : Nat) (spec : MessageSpec) :
    Queues c (c.enqueue i spec).2 (c.enqueue i spec).1 := by
  unfold enqueue
  cases hp : c.producers.get? i with
  | none => exact ⟨.refl c, fun _ h => h, nofun⟩
  | some p =>
    obtain ⟨hsame, hwaits⟩ := setProducer_kept hp (Nat.le_refl _) (q := p) fun _ _ => rfl
    rcases p.begin_cases (epoch + c.now) spec with ⟨-, h⟩ | ⟨-, text, h⟩ | ⟨-, m, h⟩
    · simp only [h]
      exact ⟨hsame, hwaits, nofun⟩
    · simp only [h]
      exact ⟨hsame, hwaits, nofun⟩
    · simp only [h]
      have hadd : ∀ j, j ≠ p.sends.size →
          (p.sends.add .enqueuing).get? j = p.sends.get? j := fun j hj =>
        (Registry.get?_add _ _ _).trans (if_neg hj)
      rcases take_cases c.broker p.topic m (deliverAfter spec) with
        ⟨f, s', ht, hs⟩ | ⟨x, s', ht, hs⟩ <;> simp only [ht]
      · obtain ⟨hsame, hwaits⟩ := setProducer_kept hp (s := s') (Nat.le_of_eq (by rw [hs])) fun j hj =>
          (WireProducer.get?_finish_of_ne (p := { p with
            free := p.free - 1
            sends := p.sends.add .enqueuing }) hj).trans (hadd j hj)
        exact ⟨hsame, hwaits, nofun⟩
      · have hsize : s'.messages.size = c.broker.messages.size + 1 := by
          rw [hs]
          exact Registry.size_add _ _
        obtain ⟨q, hq⟩ : ∃ q : WireProducer, q = { p with
            free := p.free - 1
            sends := (p.sends.add .enqueuing).update p.sends.size fun _ => .waiting none } := ⟨_, rfl⟩
        have hnew : q.sends.get? p.sends.size = some (.waiting none) := by
          rw [hq, Registry.get?_update, if_pos rfl, Registry.get?_add, if_pos rfl]
          rfl
        obtain ⟨hsame, hwaits⟩ := setProducer_kept hp (s := s') (q := q) (by omega) fun j hj => by
          rw [hq, Registry.get?_update, if_neg (Ne.symm hj)]
          exact hadd j hj
        have hget : (({ c with broker := s' } : WireClient).setProducer i q).producers.get? i = some q := by
          show (c.producers.update i fun _ => q).get? i = _
          rw [Registry.get?_update, if_pos rfl, hp]
          rfl
        subst hq
        refine ⟨hsame, hwaits, fun b hb => ?_⟩
        cases hb
        refine ⟨⟨_, none, hget, hnew, hsize ▸ Nat.lt_succ_self _, nofun⟩, fun a ⟨q, d, hq, hj, _⟩ => ?_⟩
        · by_cases hprod : a.producer = i
          · subst hprod
            cases hp.symm.trans hq
            exact .inr (Nat.ne_of_lt (Registry.lt_size_of_get? hj))
          · exact .inl hprod

/-- What a client makes of a look for a receipt. -/
structure Polls (c c' : WireClient) (a : Awaited) (r : Option (Except ClientError MessageId)) : Prop where
  same : Same c c'
  waits : ∀ b, Waits c b → Apart b a → Waits c' b
  /-- Without a receipt there is a deadline. -/
  unanswered : r = none → Waits c' a ∧ ∃ p d, c'.producers.get? a.producer = some p ∧
    p.deadline? a.send = some d

/-- Another send of the producer is left alone. -/
theorem setProducer_apart (hp : c.producers.get? a.producer = some p) {q : WireProducer}
    (hsends : ∀ j, j ≠ a.send → q.sends.get? j = p.sends.get? j) :
    Same c (c.setProducer a.producer q) ∧
      ∀ b, Waits c b → Apart b a → Waits (c.setProducer a.producer q) b := by
  refine ⟨⟨rfl, rfl, rfl, rfl⟩, fun b hb hne => ?_⟩
  refine hb.keep ⟨rfl, rfl, rfl, rfl⟩ (Nat.le_refl _) (get?_setProducer hp fun hprod => ?_)
  exact hsends _ (hne.resolve_left fun h => h hprod)

theorem get?_await_of_ne {j k now timeout : Nat} (hj : j ≠ k) :
    (p.await k now timeout).sends.get? j = p.sends.get? j :=
  (p.get?_await k now timeout j).trans (if_neg fun h => hj h.1.symm)

/-- The wait for the receipt is over, in whatever way. -/
theorem ended_kept (hp : c.producers.get? a.producer = some p) (r : Except ClientError MessageId) :
    Polls c ((c.setProducer a.producer
      ((p.await a.send c.now c.sendTimeout).finish a.send)).forget a) a (some r) := by
  obtain ⟨hsame, hwaits⟩ := setProducer_apart hp
    (q := (p.await a.send c.now c.sendTimeout).finish a.send) fun j hj =>
      (WireProducer.get?_finish_of_ne hj).trans (get?_await_of_ne hj)
  obtain ⟨hsame', hwaits'⟩ := forget_kept
    (c.setProducer a.producer ((p.await a.send c.now c.sendTimeout).finish a.send)) a
  exact ⟨hsame.trans hsame', fun b hb hne => hwaits' b (hwaits b hb hne) hne, nofun⟩

/-- The receipt is not there yet, and is waited for until a deadline. -/
theorem unanswered_kept (hp : c.producers.get? a.producer = some p) {x : Nat}
    (hx : (p.await a.send c.now c.sendTimeout).sends.get? a.send = some (.waiting (some x)))
    (hle : x ≤ c.now + c.sendTimeout) (hm : a.message < c.broker.messages.size) (task : TaskId)
    (timers : List (Nat × TaskId)) :
    Polls c { c.setProducer a.producer (p.await a.send c.now c.sendTimeout) with
      broker := c.broker.setMessage a.message fun m => { m with waiter := some task }
      timers } a none := by
  obtain ⟨-, hwaits⟩ := setProducer_apart hp (q := p.await a.send c.now c.sendTimeout)
    fun _ hj => get?_await_of_ne hj
  have hsize := Nat.le_of_eq
    (size_setMessage c.broker a.message fun m => { m with waiter := some task }).symm
  have hset : (c.producers.update a.producer fun _ => p.await a.send c.now c.sendTimeout).get?
      a.producer = some (p.await a.send c.now c.sendTimeout) := by
    rw [Registry.get?_update, if_pos rfl, hp]
    rfl
  have hdeadline : (p.await a.send c.now c.sendTimeout).deadline? a.send = some x := by
    unfold WireProducer.deadline?
    rw [hx]
  refine ⟨⟨rfl, rfl, rfl, rfl⟩, fun b hb hne => ?_, fun _ => ⟨?_, _, x, hset, hdeadline⟩⟩
  · exact (hwaits b hb hne).keep ⟨rfl, rfl, rfl, rfl⟩ hsize fun q hq => ⟨q, hq, rfl⟩
  · exact ⟨_, some x, hset, hx, Nat.lt_of_lt_of_le hm hsize, fun y hy => Option.some.inj hy ▸ hle⟩

theorem pollReceipt_kept (task : TaskId) (ha : Waits c a) :
    Polls c (c.pollReceipt task a).2 a (c.pollReceipt task a).1 := by
  obtain ⟨p, d, hp, hsend, hm, hd⟩ := ha
  obtain ⟨m, hget⟩ := Registry.exists_get?_of_lt hm
  have hawait := p.get?_await a.send c.now c.sendTimeout
  obtain ⟨x, hx, hle⟩ : ∃ x, (p.await a.send c.now c.sendTimeout).sends.get? a.send =
      some (.waiting (some x)) ∧ x ≤ c.now + c.sendTimeout := by
    cases d with
    | none => exact ⟨_, (hawait _).trans (if_pos ⟨rfl, hsend⟩), Nat.le_refl _⟩
    | some x =>
      refine ⟨x, (hawait _).trans ((if_neg fun h => ?_).trans hsend), hd x rfl⟩
      cases hsend.symm.trans h.2
  have hdeadline : (p.await a.send c.now c.sendTimeout).deadline? a.send = some x := by
    unfold WireProducer.deadline?
    rw [hx]
  simp only [pollReceipt, hp, hget]
  split
  · exact ended_kept hp _
  · rw [hdeadline]
    dsimp only
    split
    · exact ended_kept hp _
    · exact unanswered_kept hp hx hle hm task _

/-! ## 2. All requests -/

/-- A request under way for the receipt of a message. -/
inductive WireFlight.For (a : Awaited) : WireFlight → Prop
  | accepted : WireFlight.For a (.accepted a)
  | receipt : WireFlight.For a (.receipt a)

theorem expects_iff : Expects c t a ↔ ∃ f, (t, f) ∈ c.flights ∧ WireFlight.For a f := by
  constructor
  · rintro (h | h)
    · exact ⟨_, h, .accepted⟩
    · exact ⟨_, h, .receipt⟩
  · rintro ⟨f, h, ⟨⟩ | ⟨⟩⟩
    · exact .inl h
    · exact .inr h

theorem mem_setFlight {o : Option WireFlight} {u : Ticket} {f : WireFlight} :
    (u, f) ∈ (c.setFlight t o).flights ↔ (u = t ∧ o = some f) ∨ (u ≠ t ∧ (u, f) ∈ c.flights) := by
  unfold setFlight
  cases o with
  | none => simp [and_comm]
  | some g =>
    simp only [Option.map_some, Option.toList_some, List.singleton_append, List.mem_cons,
      Prod.mk.injEq, List.mem_filter, decide_eq_true_eq, Option.some.injEq]
    constructor
    · rintro (⟨rfl, rfl⟩ | ⟨hm, hne⟩)
      · exact .inl ⟨rfl, rfl⟩
      · exact .inr ⟨hne, hm⟩
    · rintro (⟨rfl, rfl⟩ | ⟨hne, hm⟩)
      · exact .inl ⟨rfl, rfl⟩
      · exact .inr ⟨hm, hne⟩

/-- What is known of a request that was taken under a ticket. -/
structure Begun (c c' : WireClient) (t : Ticket) (f : WireFlight) : Prop where
  prompt : f ≠ .replies .later
  crash : f = .replies .crash → WireProducer.maxPermits < c.maxPending
  waits : ∀ a, WireFlight.For a f → Waits c' a
  apart : ∀ a u b, WireFlight.For a f → u ≠ t → Expects c u b → Apart b a

/-- One request changes, and the messages of the others are waited for as before. -/
theorem Tracked.setFlight (h : Tracked room c) (hs : Same c c')
    (hwaits : ∀ u b, u ≠ t → Expects c u b → Waits c' b) {o : Option WireFlight}
    (ho : ∀ f, o = some f → Begun c c' t f) : Tracked room (c'.setFlight t o) := by
  have hexpects : ∀ {u : Ticket} {b : Awaited}, Expects (c'.setFlight t o) u b →
      (u = t ∧ ∃ f, o = some f ∧ WireFlight.For b f) ∨ (u ≠ t ∧ Expects c u b) := by
    intro u b hb
    obtain ⟨f, hm, hf⟩ := expects_iff.1 hb
    rcases mem_setFlight.1 hm with ⟨hu, ho⟩ | ⟨hu, hm⟩
    · exact .inl ⟨hu, f, ho, hf⟩
    · exact .inr ⟨hu, expects_iff.2 ⟨f, hs.flights ▸ hm, hf⟩⟩
  have hwait : ∀ b, Waits c' b → Waits (c'.setFlight t o) b := fun b hb => hb
  refine ⟨hs.maxPending.trans h.size, fun u hu => ?_, fun u hu => ?_, fun u f f' hf hf' => ?_,
    fun u b hb => ?_, fun u u' b b' hb hb' hne => ?_⟩
  · rcases mem_setFlight.1 hu with ⟨-, hf⟩ | ⟨-, hm⟩
    · exact h.size ▸ (ho _ hf).crash rfl
    · exact h.crash u (hs.flights ▸ hm)
  · rcases mem_setFlight.1 hu with ⟨-, hf⟩ | ⟨-, hm⟩
    · exact (ho _ hf).prompt rfl
    · exact h.prompt u (hs.flights ▸ hm)
  · rcases mem_setFlight.1 hf with ⟨hu, ho⟩ | ⟨hu, hm⟩ <;>
      rcases mem_setFlight.1 hf' with ⟨hu', ho'⟩ | ⟨hu', hm'⟩
    · exact Option.some.inj (ho.symm.trans ho')
    · exact absurd hu hu'
    · exact absurd hu' hu
    · exact h.one u f f' (hs.flights ▸ hm) (hs.flights ▸ hm')
  · rcases hexpects hb with ⟨-, f, hf, hfor⟩ | ⟨hu, hb⟩
    · exact hwait b ((ho f hf).waits b hfor)
    · exact hwait b (hwaits u b hu hb)
  · rcases hexpects hb with ⟨hu, f, hf, hfor⟩ | ⟨hu, hb⟩ <;>
      rcases hexpects hb' with ⟨hu', f', hf', hfor'⟩ | ⟨hu', hb'⟩
    · exact absurd (hu.trans hu'.symm) hne
    · exact ((ho f hf).apart b u' b' hfor hu' hb').imp Ne.symm Ne.symm
    · exact (ho f' hf').apart b' u b hfor' hu hb
    · exact h.apart u u' b b' hb hb' hne

/-- No request changes. -/
theorem Tracked.keep (h : Tracked room c) (hs : Same c c') (hwaits : ∀ u b, Expects c u b → Waits c' b) :
    Tracked room c' := by
  have hexpects : ∀ {u : Ticket} {b : Awaited}, Expects c' u b → Expects c u b := fun hb =>
    hb.imp (fun hm => hs.flights ▸ hm) fun hm => hs.flights ▸ hm
  refine ⟨hs.maxPending.trans h.size, fun u hu => ?_, fun u hu => ?_, fun u f f' hf hf' => ?_,
    fun u b hb => ?_, fun u u' b b' hb hb' => ?_⟩
  · exact h.crash u (hs.flights ▸ hu)
  · exact h.prompt u (hs.flights ▸ hu)
  · exact h.one u f f' (hs.flights ▸ hf) (hs.flights ▸ hf')
  · exact hwaits u b (hexpects hb)
  · exact h.apart u u' b b' (hexpects hb) (hexpects hb')

theorem begun_reply {r : Reply} (hlater : r ≠ .later)
    (hcrash : r = .crash → WireProducer.maxPermits < c.maxPending) :
    Begun c c' t (.replies r) where
  prompt h := hlater (WireFlight.replies.inj h)
  crash h := hcrash (WireFlight.replies.inj h)
  waits _ h := by cases h
  apart _ _ _ h := by cases h

/-- A request that the client was asked for. -/
structure Asked (c c' : WireClient) (t : Ticket) (f : WireFlight) : Prop where
  same : Same c c'
  waits : ∀ a, Waits c a → Waits c' a
  begun : Begun c c' t f

theorem openProducer_kept (c : WireClient) (topic : String) (schema : Schema) :
    Same c (c.openProducer topic schema).2 ∧
      (∀ a, Waits c a → Waits (c.openProducer topic schema).2 a) ∧
      ((c.openProducer topic schema).1 = .crashed ↔
        (c.broker.create topic schema.toWire).1 = .ok () ∧ WireProducer.maxPermits < c.maxPending) := by
  have hsize : c.broker.messages.size ≤ (c.broker.create topic schema.toWire).2.messages.size :=
    Nat.le_refl _
  unfold openProducer
  generalize c.broker.create topic schema.toWire = x at hsize
  obtain ⟨r, broker⟩ := x
  have hsame : Same c { c with broker } := ⟨rfl, rfl, rfl, rfl⟩
  have hwaits : ∀ a, Waits c a → Waits { c with broker } a := fun a ha =>
    ha.keep hsame hsize fun p hp => ⟨p, hp, rfl⟩
  cases r with
  | error f => exact ⟨hsame, hwaits, by simp⟩
  | ok _ =>
    dsimp only
    split
    · next hroom => exact ⟨hsame, hwaits, by simp [hroom]⟩
    · next hroom =>
      refine ⟨⟨rfl, rfl, rfl, rfl⟩, fun a ha => ?_, by simp [hroom]⟩
      refine ha.keep ⟨rfl, rfl, rfl, rfl⟩ hsize fun p hp => ?_
      refine ⟨p, (Registry.get?_add _ _ _).trans ((if_neg ?_).trans hp), rfl⟩
      exact Nat.ne_of_lt (Registry.lt_size_of_get? hp)

theorem close_kept (c : WireClient) (i : Nat) :
    Same c (c.close i).2 ∧ ∀ a, Waits c a → Waits (c.close i).2 a := by
  unfold close
  split
  · exact ⟨.refl c, fun _ h => h⟩
  · next p _ =>
    have hsize : c.broker.messages.size ≤ (c.broker.close p.topic).2.messages.size := Nat.le_refl _
    generalize c.broker.close p.topic = x at hsize
    obtain ⟨r, broker⟩ := x
    have hsame : Same c { c with broker } := ⟨rfl, rfl, rfl, rfl⟩
    have hwaits : ∀ a, Waits c a → Waits { c with broker } a := fun a ha =>
      ha.keep hsame hsize fun p hp => ⟨p, hp, rfl⟩
    cases r <;> exact ⟨hsame, hwaits⟩

/-- What the client does at once with a request. -/
theorem Same.asked {x : Answer} (hs : Same c c') (hw : ∀ a, Waits c a → Waits c' a) :
    Asked c c' t (.replies (.answer x)) := ⟨hs, hw, begun_reply nofun nofun⟩

/-- A request for a message that was queued. -/
theorem Tracked.queued (h : Tracked room c) {f : WireFlight} (hq : Queues c c' (.ok b))
    (hb : WireFlight.For b f) (hone : ∀ a, WireFlight.For a f → a = b) : Asked c c' t f := by
  obtain ⟨hbwaits, hapart⟩ := hq.taken b rfl
  refine ⟨hq.same, hq.waits, by cases hb <;> exact nofun, by cases hb <;> exact nofun, fun a ha => ?_,
    fun a u b' ha hu hb' => ?_⟩
  · exact hone a ha ▸ hbwaits
  · exact hone a ha ▸ hapart b' (h.waits u b' hb')

theorem Tracked.asked (h : Tracked room c) (t : Ticket) (w : WireCall) :
    Asked c (c.flightOf w).2 t (c.flightOf w).1 := by
  unfold flightOf
  cases w with
  | newProducer topic schema =>
    obtain ⟨hsame, hwaits, hcrash⟩ := c.openProducer_kept topic schema
    dsimp only
    generalize c.openProducer topic schema = x at hsame hwaits hcrash
    obtain ⟨o, c'⟩ := x
    cases o with
    | opened p =>
      exact Same.asked ⟨hsame.flights, hsame.maxPending, hsame.sendTimeout, hsame.now⟩ hwaits
    | failed e => exact hsame.asked hwaits
    | crashed => exact ⟨hsame, hwaits, begun_reply nofun fun _ => (hcrash.1 rfl).2⟩
  | send v spec =>
    have hq := c.enqueue_kept (c.producerOf v) spec
    dsimp only
    generalize c.enqueue (c.producerOf v) spec = x at hq
    obtain ⟨r, c'⟩ := x
    cases r with
    | ok b =>
      refine h.queued hq .receipt fun a ha => ?_
      cases ha
      rfl
    | error e => exact hq.same.asked hq.waits
  | sendAsync v spec =>
    have hq := c.enqueue_kept (c.producerOf v) spec
    dsimp only
    generalize c.enqueue (c.producerOf v) spec = x at hq
    obtain ⟨r, c'⟩ := x
    cases r with
    | ok b =>
      refine h.queued hq .accepted fun a ha => ?_
      cases ha
      rfl
    | error e => exact hq.same.asked hq.waits
  | close v =>
    obtain ⟨hsame, hwaits⟩ := c.close_kept (c.producerOf v)
    dsimp only
    generalize c.close (c.producerOf v) = x at hsame hwaits
    obtain ⟨r, c'⟩ := x
    cases r <;> exact hsame.asked hwaits

theorem Tracked.take (h : Tracked room c) (t : Ticket) (w : WireCall) : Tracked room (c.take t w) := by
  obtain ⟨hsame, hwaits, hbegun⟩ := h.asked t w
  refine h.setFlight hsame (fun u b _ hb => hwaits b (h.waits u b hb)) fun f hf => ?_
  cases hf
  exact hbegun

/-- What the first request under a ticket is. -/
theorem mem_of_find? {u : Ticket} {f : WireFlight}
    (h : c.flights.find? (fun f => decide (f.1 = t)) = some (u, f)) : u = t ∧ (t, f) ∈ c.flights := by
  have hu : u = t := by simpa using List.find?_some h
  exact ⟨hu, hu ▸ List.mem_of_find?_eq_some h⟩

theorem Tracked.expects_one (h : Tracked room c) (ha : Expects c t a) (hb : Expects c t b) : b = a := by
  obtain ⟨f, hf, hfor⟩ := expects_iff.1 ha
  obtain ⟨f', hf', hfor'⟩ := expects_iff.1 hb
  cases h.one t f f' hf hf'
  cases hfor <;> cases hfor' <;> rfl

theorem Tracked.poll (h : Tracked room c) (t : Ticket) (task : TaskId) : Tracked room (c.poll t task).1 := by
  have hgone : ∀ {c' : WireClient}, Same c c' → (∀ u b, u ≠ t → Expects c u b → Waits c' b) →
      Tracked room (c'.setFlight t none) := fun hs hw => h.setFlight hs hw fun _ => nofun
  have hstay : ∀ u b, u ≠ t → Expects c u b → Waits c b := fun u b _ hb => h.waits u b hb
  unfold WireClient.poll
  split
  · exact h
  · exact hgone (.refl c) hstay
  · next u a hfind =>
    obtain ⟨-, hm⟩ := mem_of_find? hfind
    have ha : Expects c t a := .inl hm
    refine h.setFlight (.refl c) hstay fun f hf => ?_
    cases hf
    refine ⟨nofun, nofun, fun b hb => ?_, fun b u b' hb hu hb' => ?_⟩
    · cases hb
      exact h.waits t a ha
    · cases hb
      exact h.apart u t b' a hb' ha hu
  · next u a hfind =>
    obtain ⟨-, hm⟩ := mem_of_find? hfind
    have ha : Expects c t a := .inr hm
    obtain ⟨hsame, hwaits, hun⟩ := pollReceipt_kept task (h.waits t a ha)
    have hothers : ∀ u b, u ≠ t → Expects c u b → Waits (c.pollReceipt task a).2 b := fun u b hu hb =>
      hwaits b (h.waits u b hb) (h.apart u t b a hb ha hu)
    generalize c.pollReceipt task a = x at hsame hothers hun
    obtain ⟨r, c'⟩ := x
    cases r with
    | some r => exact hgone hsame hothers
    | none =>
      refine h.keep hsame fun u b hb => ?_
      by_cases hu : u = t
      · subst hu
        obtain rfl := h.expects_one ha hb
        exact (hun rfl).1
      · exact hothers u b hu hb

theorem Tracked.drop (h : Tracked room c) (t : Ticket) : Tracked room (c.drop t) := by
  have hforget : ∀ a, Expects c t a → Tracked room ((c.forget a).setFlight t none) := by
    intro a ha
    obtain ⟨hsame, hwaits⟩ := c.forget_kept a
    refine h.setFlight hsame (fun u b hu hb => ?_) fun _ => nofun
    exact hwaits b (h.waits u b hb) (h.apart u t b a hb ha hu)
  unfold WireClient.drop
  split
  · next u a hfind => exact hforget a (.inl (mem_of_find? hfind).2)
  · next u a hfind => exact hforget a (.inr (mem_of_find? hfind).2)
  · exact h.setFlight (.refl c) (fun u b _ hb => h.waits u b hb) fun _ => nofun

theorem Tracked.acknowledge (h : Tracked room c) (n : Nat) (r : Receipt) :
    Tracked room { c with broker := (c.broker.acknowledge n r).2.2 } := by
  have hsize : c.broker.messages.size ≤ (c.broker.acknowledge n r).2.2.messages.size := by
    unfold ScriptedBroker.acknowledge
    split
    · exact Nat.le_of_eq (Registry.size_update _ _ _).symm
    · exact Nat.le_refl _
  have hsame : Same c { c with broker := (c.broker.acknowledge n r).2.2 } := ⟨rfl, rfl, rfl, rfl⟩
  exact h.keep hsame fun u b hb => (h.waits u b hb).keep hsame hsize fun p hp => ⟨p, hp, rfl⟩

theorem Tracked.advance (h : Tracked room c) (ms : Nat) : Tracked room (c.advance ms).2 := by
  refine ⟨h.size, h.crash, h.prompt, h.one, fun u b hb => ?_, h.apart⟩
  obtain ⟨p, d, hp, hsend, hm, hd⟩ := h.waits u b hb
  refine ⟨p, d, hp, hsend, hm, fun x hx => Nat.le_trans (hd x hx) ?_⟩
  exact Nat.add_le_add_right (Nat.le_add_right _ _) _

theorem tracked_new (broker : ScriptedBroker) (sendTimeout room : Nat) :
    Tracked (max 1 room) (new broker sendTimeout room) := by
  have hnone : ∀ u f, (u, f) ∉ (new broker sendTimeout room).flights := fun _ _ => nofun
  refine ⟨rfl, fun u hu => ?_, fun u hu => ?_, fun u f f' hf => ?_, fun u b hb => ?_,
    fun u u' b b' hb => ?_⟩
  · exact (hnone _ _ hu).elim
  · exact (hnone _ _ hu).elim
  · exact (hnone _ _ hf).elim
  · exact hb.elim (fun hm => (hnone _ _ hm).elim) fun hm => (hnone _ _ hm).elim
  · exact hb.elim (fun hm => (hnone _ _ hm).elim) fun hm => (hnone _ _ hm).elim

theorem Tracked.reached (h : Tracked room c) (hr : Reached c c') : Tracked room c' := by
  induction hr with
  | connected => exact h
  | take t w _ ih => exact ih.take t w
  | poll t task _ ih => exact ih.poll t task
  | drop t _ ih => exact ih.drop t
  | acknowledge n r _ ih => exact ih.acknowledge n r
  | advance ms _ ih => exact ih.advance ms

/-! ## 3. Replies -/

theorem poll_crash_iff {task : TaskId} : (c.poll t task).2 = .crash ↔
    ∃ u, c.flights.find? (fun f => decide (f.1 = t)) = some (u, .replies .crash) := by
  unfold WireClient.poll
  split
  · next hfind => simp [hfind]
  · next u r hfind => simp [hfind]
  · next u a hfind => simp [hfind]
  · next u a hfind =>
    rw [hfind]
    rcases c.pollReceipt task a with ⟨_ | r, c'⟩ <;> simp

/-- A request that is polled at once crashes the client if its own reply is a crash. -/
theorem poll_take_crash_iff {task : TaskId} {w : WireCall} :
    ((c.take t w).poll t task).2 = .crash ↔ (c.flightOf w).1 = .replies .crash := by
  have hfind : (c.take t w).flights.find? (fun f => decide (f.1 = t)) = some (t, (c.flightOf w).1) := by
    show List.find? _ ((t, (c.flightOf w).1) :: _) = _
    simp
  rw [poll_crash_iff, hfind]
  simp

theorem flightOf_newProducer_crash_iff {topic : String} {schema : Schema} :
    (c.flightOf (.newProducer topic schema)).1 = .replies .crash ↔
      (c.openProducer topic schema).1 = .crashed := by
  unfold flightOf
  dsimp only
  rcases c.openProducer topic schema with ⟨_ | _ | _, c'⟩ <;> simp

theorem flightOf_no_crash {w : WireCall} (hw : ∀ topic schema, w ≠ .newProducer topic schema) :
    (c.flightOf w).1 ≠ .replies .crash := by
  unfold flightOf
  cases w with
  | newProducer topic schema => exact absurd rfl (hw topic schema)
  | send v spec =>
    dsimp only
    rcases c.enqueue (c.producerOf v) spec with ⟨_ | _, c'⟩ <;> simp
  | sendAsync v spec =>
    dsimp only
    rcases c.enqueue (c.producerOf v) spec with ⟨_ | _, c'⟩ <;> simp
  | close v =>
    dsimp only
    rcases c.close (c.producerOf v) with ⟨_ | _, c'⟩ <;> simp

/-- Once a deadline is there, the receipt or the end of the wait is there when it has passed. -/
theorem pollReceipt_due (task : TaskId) {d : Nat} (hw : Waits c a)
    (hp : c.producers.get? a.producer = some p) (hd : p.deadline? a.send = some d) (hdue : d ≤ c.now) :
    (c.pollReceipt task a).1 ≠ none := by
  obtain ⟨q, -, hq, -, hm, -⟩ := hw
  obtain ⟨m, hget⟩ := Registry.exists_get?_of_lt hm
  have hafter : (p.await a.send c.now c.sendTimeout).deadline? a.send = some d := by
    unfold WireProducer.deadline? at hd ⊢
    rw [WireProducer.get?_await, if_neg]
    · exact hd
    · rintro ⟨-, h⟩
      rw [h] at hd
      cases hd
  simp only [pollReceipt, hp, hget]
  split
  · simp
  · rw [hafter]
    dsimp only
    rw [if_pos hdue]
    simp

/-- A look at a message that waits for its receipt. -/
theorem poll_receipt (hfind : c.flights.find? (fun f => decide (f.1 = t)) = some (t, .receipt a))
    (task : TaskId) :
    ((c.pollReceipt task a).1 = none → c.poll t task = ((c.pollReceipt task a).2, .later)) ∧
      ((c.poll t task).2 = .later → (c.pollReceipt task a).1 = none) := by
  unfold WireClient.poll
  rewrite [hfind]
  dsimp only
  rcases c.pollReceipt task a with ⟨_ | r, c'⟩
  · exact ⟨fun _ => rfl, fun _ => rfl⟩
  · refine ⟨fun h => ?_, fun h => ?_⟩ <;> cases h

theorem Tracked.timely (h : Tracked room c) {f : WireFlight} (hf : (t, f) ∈ c.flights) (task : TaskId)
    (hlater : (c.poll t task).2 = .later) :
    (((c.poll t task).1.advance c.sendTimeout).2.poll t task).2 ≠ .later := by
  have hsome : (c.flights.find? fun f => decide (f.1 = t)).isSome = true :=
    List.find?_isSome.2 ⟨(t, f), hf, decide_eq_true rfl⟩
  obtain ⟨⟨u, g⟩, hfind⟩ := Option.isSome_iff_exists.1 hsome
  obtain ⟨rfl, hg⟩ := mem_of_find? hfind
  cases g with
  | replies r =>
    have hr : (c.poll u task).2 = r := by simp [WireClient.poll, hfind]
    exact absurd (hr.symm.trans hlater ▸ hg) (h.prompt u)
  | accepted a =>
    have hr : (c.poll u task).2 = .answer (.accepted (.ok ())) := by simp [WireClient.poll, hfind]
    cases hr.symm.trans hlater
  | receipt a =>
    obtain ⟨hsame, -, hun⟩ := pollReceipt_kept task (h.waits u a (.inr hg))
    obtain ⟨hpoll, hnone⟩ := poll_receipt hfind task
    -- The first look sets a deadline, and the second one is after it.
    obtain ⟨⟨p, d, hp, hsend, hm, hle⟩, q, x, hq, hx⟩ := hun (hnone hlater)
    rw [hpoll (hnone hlater)]
    generalize (c.pollReceipt task a).2 = c' at hsame hp hm hle hq hx
    cases hp.symm.trans hq
    have hdue : x ≤ (c'.advance c.sendTimeout).2.now := by
      have hd : d = some x := by
        unfold WireProducer.deadline? at hx
        rw [hsend] at hx
        exact hx
      have := hle x hd
      rw [hsame.sendTimeout] at this
      exact this
    have hnow : Waits (c'.advance c.sendTimeout).2 a := by
      refine ⟨p, d, hp, hsend, hm, fun y hy => Nat.le_trans (hle y hy) ?_⟩
      exact Nat.add_le_add_right (Nat.le_add_right _ _) _
    have hflights : (c'.advance c.sendTimeout).2.flights = c.flights := hsame.flights
    exact fun hl => pollReceipt_due task hnow hp hx hdue
      ((poll_receipt (hflights.symm ▸ hfind) task).2 hl)

theorem Tracked.dependable (h : Tracked room c) : Dependable room c where
  size := h.size
  crash t task hr := by
    obtain ⟨u, hfind⟩ := poll_crash_iff.1 hr
    exact h.crash t (mem_of_find? hfind).2
  opens t topic schema task := by
    rw [poll_take_crash_iff, flightOf_newProducer_crash_iff, ← h.size]
    exact (c.openProducer_kept topic schema).2.2
  others t w task hw hr := flightOf_no_crash hw (poll_take_crash_iff.1 hr)
  timely t f task hf := h.timely hf task

end

/-- A client that was made by a configuration that was read replies to every request. It crashes only
when it is to open a producer with more room than there are permits, and then it does. -/
theorem accepted_configuration {d : Directory} {environment : List (String × String)} {name : String}
    {config : Config} (h : Config.load d environment name = .ok config) {broker : ScriptedBroker}
    {c : WireClient}
    (hc : Reached (new broker config.producer.sendTimeoutMs config.producer.maxPendingMessages) c) :
    Dependable config.producer.maxPendingMessages c := by
  have hroom : max 1 config.producer.maxPendingMessages = config.producer.maxPendingMessages :=
    Nat.max_eq_right (Config.room_of_load h)
  exact hroom ▸ ((tracked_new broker _ _).reached hc).dependable

/-- A client made by a file that was read: a message waits for its receipt, and has an answer when the
timeout is over. -/
theorem accepted_configuration_times_out :
    ∃ config c, Config.load [("a.ini", Utf8.encode "[client]\nservice_url=b")] [] "a.ini" = .ok config ∧
      Reached (new {} config.producer.sendTimeoutMs config.producer.maxPendingMessages) c ∧
      Dependable config.producer.maxPendingMessages c ∧ (c.poll 1 (.own 0)).2 = .later ∧
      (((c.poll 1 (.own 0)).1.advance c.sendTimeout).2.poll 1 (.own 0)).2 ≠ .later := by
  have hload : Config.load [("a.ini", Utf8.encode "[client]\nservice_url=b")] [] "a.ini" = .ok
      { client := { serviceUrl := "b" } } := ok_of_toOption (by decide +kernel)
  have hc : Reached (new {} 30000 1000) _ :=
    .take 1 (.send 0 {}) (.poll 0 (.own 0) (.take 0 (.newProducer "t" {}) .connected))
  have hd := accepted_configuration hload hc
  exact ⟨_, _, hload, hc, hd, rfl, hd.timely 1 _ (.own 0) List.mem_cons_self rfl⟩

/-- The text of a configuration with room for more messages than there are permits. -/
def roomyText : String :=
  "[client]\nservice_url=pulsar://x\n[producer]\nmax_pending_messages=2305843009213693952"

/-- A configuration that is accepted, and with which the first producer crashes the client, and the
command that publishes through it. -/
theorem accepted_configuration_crashes :
    ∃ config : Config, Config.load [("a.ini", Utf8.encode roomyText)] [] "a.ini" = .ok config ∧
      ((new {} config.producer.sendTimeoutMs config.producer.maxPendingMessages).openProducer "t"
        config.producer.schema).1 = .crashed ∧
      (CommandLine.run ["-c", "a.ini", "-t", "t", "m"] [("a.ini", Utf8.encode roomyText)] [] []
        { autoAck := true }).exitCode = 101 := by
  have hload : Config.load [("a.ini", Utf8.encode roomyText)] [] "a.ini" = .ok
      { client := { serviceUrl := "pulsar://x" }, producer := { maxPendingMessages := 2 ^ 61 } } :=
    ok_of_toOption (by decide +kernel)
  exact ⟨_, hload, rfl, by decide +kernel⟩

end WireClient

end Rehearsal

end TopicPublisher
