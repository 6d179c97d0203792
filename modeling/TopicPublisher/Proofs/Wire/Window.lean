import TopicPublisher.Proofs.Registry
import TopicPublisher.Proofs.Wire.Message
import TopicPublisher.Wire.Producer

/-!
# The window of a producer

A producer has room for a number of messages that nobody changes, and its permits are the room that is
left. Calls on it come and go in any order: their messages are malformed or not taken, receipts come or are
awaited for too long, and callers give up at every point. `Window` is a producer together with a ledger of
all calls there ever were, in which each call stands as its caller sees it.

Results:
1. `WireProducer.begin_cases`, `WireProducer.finish_eq`: what a call can begin with, and how it ends.
2. `Exact.step`: the free permits and the calls that have one make up the window, step by step.
3. `Full.step`: a call is told that the queue is full only when it begins, and exactly when all permits
   are taken; its message goes nowhere.
4. `Run.exact`: both in every run.
-/

namespace TopicPublisher

/-! ## Definitions -/

/-- The number of a call on a producer. -/
abbrev AttemptId := Nat

/-- How far a call on a producer is, as its caller sees it.

* `enqueuing`: it has a permit, and its message is on the way into the queue.
* `waiting`: the message was taken and the receipt has not come.
* `resolved`: the receipt came, or the wait for it was over.
* `dropped`: the call was aborted, or its receipt given up. -/
inductive Attempt where
  | enqueuing (i : SendId)
  | waiting (i : SendId)
  | failed (e : ClientError)
  | resolved (r : Except ClientError MessageId)
  | dropped

/-- The send that a call holds a permit for. -/
def Attempt.send? : Attempt → Option SendId
  | .enqueuing i => some i
  | .waiting i => some i
  | _ => none

/-- A producer and the calls on it. -/
structure Window where
  producer : WireProducer
  /-- How long a receipt is waited for. -/
  timeout : Nat
  now : Nat := 0
  attempts : Registry Attempt := .empty
  /-- The messages that were handed on to be queued, each with its call. -/
  offered : List (AttemptId × WireMessage) := []

namespace Window

/-- A producer that was opened just now. -/
def opened (topic : String) (room timeout : Nat) : Window :=
  { producer := { topic, maxPending := room }, timeout }

/-- How many calls hold a permit. -/
def holders (w : Window) : Nat := w.attempts.count fun a => a.send?.isSome

/-- A call gets from one point to another. -/
def goTo (w : Window) (n : AttemptId) (p : WireProducer) (a : Attempt) : Window :=
  { w with producer := p, attempts := w.attempts.update n fun _ => a }

/-- A call begins. -/
def start (w : Window) (spec : MessageSpec) : Window :=
  match w.producer.begin w.now spec with
  | (p, .error e) => { w with producer := p, attempts := w.attempts.add (.failed e) }
  | (p, .ok (i, m)) =>
    { w with
      producer := p
      attempts := w.attempts.add (.enqueuing i)
      offered := w.offered ++ [(w.attempts.size, m)] }

/-- The broker took a message, or did not. -/
def enqueued (w : Window) (n : AttemptId) (i : SendId) (r : Except BrokerFault Unit) : Window :=
  match w.producer.enqueued i r with
  | (p, .error e) => w.goTo n p (.failed e)
  | (p, .ok _) => w.goTo n p (.waiting i)

/-- What can happen to a producer and the calls on it. -/
inductive Label where
  | start (spec : MessageSpec)
  | enqueued (n : AttemptId) (r : Except BrokerFault Unit)
  /-- Somebody looks whether the receipt has come. -/
  | await (n : AttemptId)
  | receive (n : AttemptId) (r : Except BrokerFault (Option MessageId))
  | expire (n : AttemptId)
  /-- A caller gives up. -/
  | drop (n : AttemptId)
  | advance (ms : Nat)

inductive Step (w : Window) : Label → Window → Prop
  | start {spec : MessageSpec} : Step w (.start spec) (w.start spec)
  | enqueued {n : AttemptId} {i : SendId} {r : Except BrokerFault Unit} :
      w.attempts.get? n = some (.enqueuing i) → Step w (.enqueued n r) (w.enqueued n i r)
  | await {n : AttemptId} {i : SendId} : w.attempts.get? n = some (.waiting i) →
      Step w (.await n) { w with producer := w.producer.await i w.now w.timeout }
  | receive {n : AttemptId} {i : SendId} {r : Except BrokerFault (Option MessageId)} :
      w.attempts.get? n = some (.waiting i) →
      Step w (.receive n r)
        (w.goTo n (w.producer.receive i r).1 (.resolved (w.producer.receive i r).2))
  | expire {n : AttemptId} {i : SendId} {d : Nat} : w.attempts.get? n = some (.waiting i) →
      w.producer.deadline? i = some d → d ≤ w.now →
      Step w (.expire n)
        (w.goTo n (w.producer.expire i w.timeout).1
          (.resolved (.error (w.producer.expire i w.timeout).2)))
  | drop {n : AttemptId} {i : SendId} {a : Attempt} : w.attempts.get? n = some a →
      a.send? = some i → Step w (.drop n) (w.goTo n (w.producer.finish i) .dropped)
  | advance {ms : Nat} : Step w (.advance ms) { w with now := w.now + ms }

/-- A run from an open producer to `w`. `tr` has what happened, the last first, each with the window that
it happened to. -/
inductive Run (w₀ : Window) : List (Label × Window) → Window → Prop
  | new : Run w₀ [] w₀
  | step {tr : List (Label × Window)} {w w' : Window} {l : Label} :
      Run w₀ tr w → Step w l w' → Run w₀ ((l, w) :: tr) w'

/-- The permits and those who hold them make up the window. -/
structure Exact (room : Nat) (w : Window) : Prop where
  size : w.producer.maxPending = room
  balance : w.producer.free + w.holders = room
  enqueuing : ∀ n i, w.attempts.get? n = some (.enqueuing i) →
    w.producer.sends.get? i = some .enqueuing
  waiting : ∀ n i, w.attempts.get? n = some (.waiting i) →
    ∃ d, w.producer.sends.get? i = some (.waiting d)
  apart : ∀ n n' a a' i, w.attempts.get? n = some a → w.attempts.get? n' = some a' →
    a.send? = some i → a'.send? = some i → n = n'

/-- A call was told that the queue is full. -/
def Refused (w : Window) (n : AttemptId) : Prop :=
  ∃ text, w.attempts.get? n = some (.failed (.queueFull text))

/-- Which calls were told that the queue is full. -/
structure Full (room : Nat) (tr : List (Label × Window)) (w : Window) : Prop where
  refused : ∀ spec w₀, (.start spec, w₀) ∈ tr →
    w₀.attempts.size < w.attempts.size ∧ (w.Refused w₀.attempts.size ↔ w₀.holders = room)
  begun : ∀ n, n < w.attempts.size → ∃ spec w₀, (.start spec, w₀) ∈ tr ∧ w₀.attempts.size = n
  offered : ∀ n m, (n, m) ∈ w.offered → n < w.attempts.size
  /-- The messages of those who were told so went nowhere. -/
  unoffered : ∀ n m, w.Refused n → (n, m) ∉ w.offered

end Window

/-! ## 1. One producer -/

theorem BrokerFault.toClientError_ne_queueFull (f : BrokerFault) (text : String) :
    f.toClientError ≠ .queueFull text := by
  unfold BrokerFault.toClientError
  split <;> exact nofun

namespace WireProducer

variable {p : WireProducer} {i : SendId} {now : Nat} {spec : MessageSpec}

/-- A call finds no permit, or its message is malformed, or it has a permit and its message goes on. -/
theorem begin_cases (p : WireProducer) (now : Nat) (spec : MessageSpec) :
    (p.free = 0 ∧ p.begin now spec = (p, .error p.full)) ∨
      (p.free ≠ 0 ∧ ∃ text, p.begin now spec = (p, .error (.rejected text))) ∨
      (p.free ≠ 0 ∧ ∃ m, p.begin now spec =
        ({ p with free := p.free - 1, sends := p.sends.add .enqueuing }, .ok (p.sends.size, m))) := by
  unfold begin
  by_cases hfree : p.free = 0
  · exact .inl ⟨hfree, if_pos hfree⟩
  · rw [if_neg hfree]
    cases hm : WireMessage.ofSpec now spec with
    | error e =>
      obtain ⟨_, _, _, _, _, rfl⟩ := WireMessage.ofSpec_stops hm
      exact .inr (.inl ⟨hfree, _, rfl⟩)
    | ok m => exact .inr (.inr ⟨hfree, m, rfl⟩)

/-- A send that is over has given its permit back. -/
theorem finish_eq {x : SendStage} (hi : p.sends.get? i = some x) (hx : x ≠ .finished) :
    p.finish i = { p with free := p.free + 1, sends := p.sends.update i fun _ => .finished } := by
  unfold finish
  rw [hi]
  cases x with
  | finished => exact absurd rfl hx
  | enqueuing | waiting => rfl

theorem maxPending_finish (p : WireProducer) (i : SendId) : (p.finish i).maxPending = p.maxPending := by
  unfold finish
  split <;> rfl

theorem get?_finish_of_ne {j : SendId} (hj : j ≠ i) :
    (p.finish i).sends.get? j = p.sends.get? j := by
  have hother : (p.sends.update i fun _ => SendStage.finished).get? j = p.sends.get? j := by
    rw [Registry.get?_update, if_neg (Ne.symm hj)]
  unfold finish
  split
  · rfl
  · rfl
  · exact hother

/-- To wait for a receipt sets the deadline of one send that has none. -/
theorem get?_await (p : WireProducer) (i : SendId) (now timeout : Nat) (j : SendId) :
    (p.await i now timeout).sends.get? j =
      if i = j ∧ p.sends.get? j = some (.waiting none) then some (.waiting (some (now + timeout)))
      else p.sends.get? j := by
  unfold await
  rw [Registry.get?_update]
  by_cases hij : i = j
  · rw [if_pos hij]
    rcases p.sends.get? j with _ | _ | ⟨_ | _⟩ | _ <;> simp [hij]
  · rw [if_neg hij, if_neg fun h => hij h.1]

end WireProducer

namespace Window

section

variable {room : Nat} {w w' : Window} {l : Label} {n k : AttemptId} {i : SendId} {a b : Attempt}
  {tr : List (Label × Window)}

/-! ## 2. The balance -/

theorem holders_goTo (hn : w.attempts.get? n = some a) (p : WireProducer) (b : Attempt) :
    (w.goTo n p b).holders + (if a.send?.isSome then 1 else 0) =
      w.holders + if b.send?.isSome then 1 else 0 :=
  Registry.count_update hn (fun _ => b) _

theorem holders_add (w : Window) (a : Attempt) :
    (w.attempts.add a).count (fun a => a.send?.isSome) =
      w.holders + if a.send?.isSome then 1 else 0 := Registry.count_add _ _ _

/-- Two calls do not hold one permit. -/
theorem Exact.ne_of_ne (x : Exact room w) (hn : w.attempts.get? n = some a)
    (hk : w.attempts.get? k = some b) (hnk : n ≠ k) (ha : a.send? = some i) {j : SendId}
    (hb : b.send? = some j) : j ≠ i := by
  rintro rfl
  exact hnk (x.apart n k a b j hn hk ha hb)

theorem Exact.busy (x : Exact room w) (hn : w.attempts.get? n = some a) (ha : a.send? = some i) :
    ∃ y, w.producer.sends.get? i = some y ∧ y ≠ .finished := by
  cases a with
  | enqueuing j =>
    cases ha
    exact ⟨_, x.enqueuing n i hn, nofun⟩
  | waiting j =>
    cases ha
    obtain ⟨d, hd⟩ := x.waiting n i hn
    exact ⟨_, hd, nofun⟩
  | failed | resolved | dropped => cases ha

/-- A call with a permit is over: its permit is back. -/
theorem Exact.ended (x : Exact room w) (hn : w.attempts.get? n = some a) (ha : a.send? = some i)
    (hb : b.send? = none) : Exact room (w.goTo n (w.producer.finish i) b) := by
  obtain ⟨y, hy, hbusy⟩ := x.busy hn ha
  have hfinish := WireProducer.finish_eq hy hbusy
  have hother : ∀ {k : AttemptId} {c : Attempt} {j : SendId},
      (w.goTo n (w.producer.finish i) b).attempts.get? k = some c → c.send? = some j →
      w.attempts.get? k = some c ∧ n ≠ k := by
    intro k c j hk hc
    rcases Registry.get?_update_const hk with ⟨-, rfl⟩ | ⟨hnk, hk⟩
    · cases hb.symm.trans hc
    · exact ⟨hk, hnk⟩
  have hsame : ∀ {k : AttemptId} {c : Attempt} {j : SendId}, w.attempts.get? k = some c → n ≠ k →
      c.send? = some j → (w.producer.finish i).sends.get? j = w.producer.sends.get? j :=
    fun hk hnk hc => WireProducer.get?_finish_of_ne (x.ne_of_ne hn hk hnk ha hc)
  refine ⟨(WireProducer.maxPending_finish _ _).trans x.size, ?_, ?_, ?_, ?_⟩
  · have hcount := holders_goTo hn (w.producer.finish i) b
    rw [ha, hb] at hcount
    have hfree : (w.goTo n (w.producer.finish i) b).producer.free = w.producer.free + 1 := by
      show (w.producer.finish i).free = _
      rw [hfinish]
    have hbalance := x.balance
    simp only [Option.isSome_some, if_true, Option.isSome_none, Bool.false_eq_true, if_false] at hcount
    omega
  · intro k j hk
    obtain ⟨hk, hnk⟩ := hother hk rfl
    exact (hsame hk hnk rfl).trans (x.enqueuing k j hk)
  · intro k j hk
    obtain ⟨hk, hnk⟩ := hother hk rfl
    obtain ⟨d, hd⟩ := x.waiting k j hk
    exact ⟨d, (hsame hk hnk rfl).trans hd⟩
  · intro k k' c c' j hk hk' hc hc'
    exact x.apart k k' c c' j (hother hk hc).1 (hother hk' hc').1 hc hc'

/-- A producer whose sends are at the same points. -/
theorem Exact.same {p : WireProducer} (x : Exact room w) (hsize : p.maxPending = w.producer.maxPending)
    (hfree : p.free = w.producer.free)
    (henqueuing : ∀ j, w.producer.sends.get? j = some .enqueuing → p.sends.get? j = some .enqueuing)
    (hwaiting : ∀ j d, w.producer.sends.get? j = some (.waiting d) →
      ∃ d', p.sends.get? j = some (.waiting d')) : Exact room { w with producer := p } where
  size := hsize.trans x.size
  balance := by
    show p.free + w.holders = room
    rw [hfree]
    exact x.balance
  enqueuing n i hn := henqueuing i (x.enqueuing n i hn)
  waiting n i hn := by
    obtain ⟨d, hd⟩ := x.waiting n i hn
    exact hwaiting i d hd
  apart := x.apart

theorem Exact.await (x : Exact room w) (i : SendId) :
    Exact room { w with producer := w.producer.await i w.now w.timeout } := by
  refine x.same rfl rfl (fun j hj => ?_) fun j d hj => ?_
  · rw [WireProducer.get?_await, hj]
    simp
  · rw [WireProducer.get?_await, hj]
    split
    · exact ⟨_, rfl⟩
    · exact ⟨d, rfl⟩

/-- The message of a call was taken. -/
theorem Exact.queued (x : Exact room w) (hn : w.attempts.get? n = some (.enqueuing i)) :
    Exact room (w.goTo n (w.producer.enqueued i (.ok ())).1 (.waiting i)) := by
  have hi := x.enqueuing n i hn
  have hget : ∀ j, (w.producer.enqueued i (.ok ())).1.sends.get? j =
      if i = j then some (.waiting none) else w.producer.sends.get? j := by
    intro j
    show (w.producer.sends.update i fun _ => .waiting none).get? j = _
    rw [Registry.get?_update]
    split
    · next hij =>
      subst hij
      rw [hi]
      rfl
    · rfl
  refine ⟨x.size, ?_, ?_, ?_, ?_⟩
  · have hcount := holders_goTo hn (w.producer.enqueued i (.ok ())).1 (.waiting i)
    have hbalance := x.balance
    have hfree : (w.goTo n (w.producer.enqueued i (.ok ())).1 (.waiting i)).producer.free =
      w.producer.free := rfl
    simp only [Attempt.send?, Option.isSome_some, if_true] at hcount
    omega
  · intro k j hk
    rcases Registry.get?_update_const hk with ⟨-, he⟩ | ⟨hnk, hk⟩
    · cases he
    · refine (hget j).trans ((if_neg ?_).trans (x.enqueuing k j hk))
      exact (x.ne_of_ne hn hk hnk rfl rfl).symm
  · intro k j hk
    show ∃ d, (w.producer.enqueued i (.ok ())).1.sends.get? j = some (.waiting d)
    rw [hget]
    split
    · exact ⟨_, rfl⟩
    · next hij =>
      rcases Registry.get?_update_const hk with ⟨-, he⟩ | ⟨-, hk⟩
      · cases he
        exact absurd rfl hij
      · exact x.waiting k j hk
  · -- The call holds the permit that it held before.
    have hback : ∀ {k : AttemptId} {c : Attempt} {j : SendId},
        (w.goTo n (w.producer.enqueued i (.ok ())).1 (.waiting i)).attempts.get? k = some c →
        c.send? = some j → ∃ c', w.attempts.get? k = some c' ∧ c'.send? = some j := by
      intro k c j hk hc
      rcases Registry.get?_update_const hk with ⟨rfl, rfl⟩ | ⟨-, hk⟩
      · exact ⟨_, hn, hc⟩
      · exact ⟨c, hk, hc⟩
    intro k k' c c' j hk hk' hc hc'
    obtain ⟨b, hb, hbj⟩ := hback hk hc
    obtain ⟨b', hb', hbj'⟩ := hback hk' hc'
    exact x.apart k k' b b' j hb hb' hbj hbj'

/-- A call that failed at once. -/
theorem Exact.denied (x : Exact room w) (e : ClientError) :
    Exact room { w with attempts := w.attempts.add (.failed e) } := by
  have hold : ∀ {k : AttemptId} {c : Attempt} {j : SendId},
      (w.attempts.add (.failed e)).get? k = some c → c.send? = some j → w.attempts.get? k = some c := by
    intro k c j hk hc
    rw [Registry.get?_add] at hk
    split at hk
    · cases hk
      cases hc
    · exact hk
  refine ⟨x.size, ?_, ?_, ?_, ?_⟩
  · show w.producer.free + (w.attempts.add (.failed e)).count _ = room
    rw [holders_add]
    exact x.balance
  · exact fun k j hk => x.enqueuing k j (hold hk rfl)
  · exact fun k j hk => x.waiting k j (hold hk rfl)
  · exact fun k k' c c' j hk hk' hc hc' => x.apart k k' c c' j (hold hk hc) (hold hk' hc') hc hc'

/-- A call that got a permit: its send is a new one. -/
theorem Exact.begun (x : Exact room w) (hfree : w.producer.free ≠ 0)
    (offered : List (AttemptId × WireMessage)) :
    Exact room { w with
      producer := { w.producer with
        free := w.producer.free - 1
        sends := w.producer.sends.add .enqueuing }
      attempts := w.attempts.add (.enqueuing w.producer.sends.size)
      offered } := by
  have hkeep : ∀ {j : SendId} {y : SendStage}, w.producer.sends.get? j = some y →
      (w.producer.sends.add .enqueuing).get? j = some y := by
    intro j y hj
    rw [Registry.get?_add, if_neg (Nat.ne_of_lt (Registry.lt_size_of_get? hj))]
    exact hj
  have hnew : ∀ {k : AttemptId} {c : Attempt} {j : SendId},
      (w.attempts.add (.enqueuing w.producer.sends.size)).get? k = some c → c.send? = some j →
      (w.attempts.get? k = some c ∧ j ≠ w.producer.sends.size) ∨
        (k = w.attempts.size ∧ c = .enqueuing j ∧ j = w.producer.sends.size) := by
    intro k c j hk hc
    rw [Registry.get?_add] at hk
    split at hk
    · next hk' =>
      cases hk
      cases hc
      exact .inr ⟨hk', rfl, rfl⟩
    · obtain ⟨y, hy, -⟩ := x.busy hk hc
      exact .inl ⟨hk, Nat.ne_of_lt (Registry.lt_size_of_get? hy)⟩
  refine ⟨x.size, ?_, ?_, ?_, ?_⟩
  · show w.producer.free - 1 + (w.attempts.add (.enqueuing w.producer.sends.size)).count _ = room
    rw [holders_add]
    have hbalance := x.balance
    simp only [Attempt.send?, Option.isSome_some, if_true]
    omega
  · intro k j hk
    rcases hnew hk rfl with ⟨hk, -⟩ | ⟨-, -, rfl⟩
    · exact hkeep (x.enqueuing k j hk)
    · exact (Registry.get?_add _ _ _).trans (if_pos rfl)
  · intro k j hk
    rcases hnew hk rfl with ⟨hk, -⟩ | ⟨-, he, -⟩
    · obtain ⟨d, hd⟩ := x.waiting k j hk
      exact ⟨d, hkeep hd⟩
    · cases he
  · intro k k' c c' j hk hk' hc hc'
    rcases hnew hk hc with ⟨hk, hne⟩ | ⟨rfl, -, hj⟩ <;> rcases hnew hk' hc' with ⟨hk', hne'⟩ | ⟨rfl, -, hj'⟩
    · exact x.apart k k' c c' j hk hk' hc hc'
    · exact absurd hj' hne
    · exact absurd hj hne'
    · rfl

theorem Exact.start (x : Exact room w) (spec : MessageSpec) : Exact room (w.start spec) := by
  unfold Window.start
  rcases WireProducer.begin_cases w.producer w.now spec with ⟨-, h⟩ | ⟨-, text, h⟩ | ⟨hfree, m, h⟩
  · rw [h]
    exact x.denied _
  · rw [h]
    exact x.denied _
  · rw [h]
    exact x.begun hfree _

theorem Exact.step (x : Exact room w) (hs : Step w l w') : Exact room w' := by
  cases hs with
  | start => exact x.start _
  | @enqueued n i r hn =>
    cases r with
    | error f => exact x.ended hn rfl rfl
    | ok _ => exact x.queued hn
  | await => exact x.await _
  | receive hn => exact x.ended hn rfl rfl
  | expire hn => exact x.ended hn rfl rfl
  | drop hn ha => exact x.ended hn ha rfl
  | advance => exact ⟨x.size, x.balance, x.enqueuing, x.waiting, x.apart⟩

theorem exact_opened (topic : String) (room timeout : Nat) :
    Exact room (opened topic room timeout) where
  size := rfl
  balance := rfl
  enqueuing n i hn := by simp [opened] at hn
  waiting n i hn := by simp [opened] at hn
  apart n n' a a' i hn := by simp [opened] at hn

/-! ## 3. A full queue -/

theorem Exact.free_eq_zero_iff (x : Exact room w) : w.producer.free = 0 ↔ w.holders = room := by
  have hbalance := x.balance
  omega

/-- A call that stands otherwise before and after a step is not told that the queue is full. -/
theorem refused_goTo_iff (hn : w.attempts.get? n = some a) (ha : ∀ t, a ≠ .failed (.queueFull t))
    (p : WireProducer) (hb : ∀ t, b ≠ .failed (.queueFull t)) :
    (w.goTo n p b).Refused k ↔ w.Refused k := by
  refine exists_congr fun t => ?_
  show (w.attempts.update n fun _ => b).get? k = _ ↔ _
  rw [Registry.get?_update]
  split
  · next hnk =>
    subst hnk
    rw [hn]
    exact ⟨fun h => absurd (Option.some.inj h) (hb t), fun h => absurd (Option.some.inj h) (ha t)⟩
  · rfl

theorem refused_add_iff {p : WireProducer} {ms : List (AttemptId × WireMessage)} (a : Attempt)
    (hn : n ≠ w.attempts.size) :
    Refused { w with producer := p, attempts := w.attempts.add a, offered := ms } n ↔ w.Refused n := by
  refine exists_congr fun t => ?_
  show (w.attempts.add a).get? n = _ ↔ _
  rw [Registry.get?_add, if_neg hn]

/-- The call that begins is told so exactly when no permit is left, and then its message is not handed
on. -/
theorem start_refused (w : Window) (spec : MessageSpec) :
    (w.start spec).attempts.size = w.attempts.size + 1 ∧
      ((w.start spec).Refused w.attempts.size ↔ w.producer.free = 0) ∧
      (∀ k, k ≠ w.attempts.size → ((w.start spec).Refused k ↔ w.Refused k)) ∧
      ((w.start spec).offered = w.offered ∨ w.producer.free ≠ 0 ∧
        ∃ m, (w.start spec).offered = w.offered ++ [(w.attempts.size, m)]) := by
  have hnew : ∀ a : Attempt, (w.attempts.add a).get? w.attempts.size = some a := fun a =>
    (Registry.get?_add _ _ _).trans (if_pos rfl)
  unfold start
  rcases WireProducer.begin_cases w.producer w.now spec with ⟨hfree, h⟩ | ⟨hfree, t, h⟩ | ⟨hfree, m, h⟩ <;>
    rw [h]
  · exact ⟨Registry.size_add _ _, ⟨fun _ => hfree, fun _ => ⟨_, hnew _⟩⟩,
      fun k hk => refused_add_iff _ hk, .inl rfl⟩
  · refine ⟨Registry.size_add _ _, ⟨fun ⟨t', ht⟩ => ?_, fun h => absurd h hfree⟩,
      fun k hk => refused_add_iff _ hk, .inl rfl⟩
    cases (hnew _).symm.trans ht
  · refine ⟨Registry.size_add _ _, ⟨fun ⟨t', ht⟩ => ?_, fun h => absurd h hfree⟩,
      fun k hk => refused_add_iff _ hk, .inr ⟨hfree, m, rfl⟩⟩
    cases (hnew _).symm.trans ht

/-- After they began, calls are not told so any more. -/
theorem Step.refused_iff (hs : Step w l w') (hl : ∀ spec, l ≠ .start spec) :
    w'.Refused k ↔ w.Refused k := by
  cases hs with
  | start => exact absurd rfl (hl _)
  | enqueued hn =>
    unfold Window.enqueued WireProducer.enqueued
    rename_i r
    cases r with
    | error f =>
      refine refused_goTo_iff hn nofun _ fun t h => ?_
      exact f.toClientError_ne_queueFull t (Attempt.failed.inj h)
    | ok _ => exact refused_goTo_iff hn nofun _ nofun
  | await | advance => exact Iff.rfl
  | receive hn | expire hn => exact refused_goTo_iff hn nofun _ nofun
  | drop hn ha =>
    refine refused_goTo_iff hn ?_ _ nofun
    rintro t rfl
    cases ha

theorem Step.same (hs : Step w l w') (hl : ∀ spec, l ≠ .start spec) :
    w'.attempts.size = w.attempts.size ∧ w'.offered = w.offered := by
  cases hs with
  | start => exact absurd rfl (hl _)
  | enqueued =>
    unfold Window.enqueued
    split <;> exact ⟨Registry.size_update _ _ _, rfl⟩
  | await | advance => exact ⟨rfl, rfl⟩
  | receive | expire | drop => exact ⟨Registry.size_update _ _ _, rfl⟩

/-- A step by which no call begins. -/
theorem Full.other (f : Full room tr w) (hs : Step w l w') (hl : ∀ spec, l ≠ .start spec) :
    Full room ((l, w) :: tr) w' := by
  obtain ⟨hsize, hoffered⟩ := hs.same hl
  refine ⟨fun spec w₀ hm => ?_, fun n hn => ?_, fun n m hm => ?_, fun n m hr => ?_⟩
  · rcases List.mem_cons.1 hm with he | hm
    · cases he
      exact absurd rfl (hl spec)
    · obtain ⟨hlt, hiff⟩ := f.refused spec w₀ hm
      exact ⟨hsize ▸ hlt, (hs.refused_iff hl).trans hiff⟩
  · obtain ⟨spec, w₀, hm, h⟩ := f.begun n (hsize ▸ hn)
    exact ⟨spec, w₀, List.mem_cons_of_mem _ hm, h⟩
  · rw [hoffered] at hm
    exact hsize ▸ f.offered n m hm
  · rw [hoffered]
    exact f.unoffered n m ((hs.refused_iff hl).1 hr)

theorem Full.start (x : Exact room w) (f : Full room tr w) (spec : MessageSpec) :
    Full room ((.start spec, w) :: tr) (w.start spec) := by
  obtain ⟨hsize, hnew, hold, hoffered⟩ := start_refused w spec
  have hlast : ∀ n m, (n, m) ∈ (w.start spec).offered →
      (n, m) ∈ w.offered ∨ (n = w.attempts.size ∧ w.producer.free ≠ 0) := by
    intro n m hm
    rcases hoffered with h | ⟨hfree, m', h⟩
    · exact .inl (h ▸ hm)
    · rw [h, List.mem_append] at hm
      refine hm.imp_right fun hm => ?_
      cases List.mem_singleton.1 hm
      exact ⟨rfl, hfree⟩
  refine ⟨fun spec' w₀ hm => ?_, fun n hn => ?_, fun n m hm => ?_, fun n m hr hm => ?_⟩
  · rcases List.mem_cons.1 hm with he | hm
    · cases he
      exact ⟨hsize ▸ Nat.lt_succ_self _, hnew.trans x.free_eq_zero_iff⟩
    · obtain ⟨hlt, hiff⟩ := f.refused spec' w₀ hm
      exact ⟨hsize ▸ Nat.lt_succ_of_lt hlt, (hold _ (Nat.ne_of_lt hlt)).trans hiff⟩
  · rw [hsize] at hn
    rcases Nat.lt_succ_iff_lt_or_eq.1 hn with hlt | rfl
    · obtain ⟨spec', w₀, hm, h⟩ := f.begun n hlt
      exact ⟨spec', w₀, List.mem_cons_of_mem _ hm, h⟩
    · exact ⟨spec, w, List.mem_cons_self, rfl⟩
  · rw [hsize]
    rcases hlast n m hm with hm | ⟨rfl, -⟩
    · exact Nat.lt_succ_of_lt (f.offered n m hm)
    · exact Nat.lt_succ_self _
  · rcases hlast n m hm with hm | ⟨rfl, hfree⟩
    · have hne := Nat.ne_of_lt (f.offered n m hm)
      exact f.unoffered n m ((hold n hne).1 hr) hm
    · exact hfree (hnew.1 hr)

theorem Full.step (x : Exact room w) (f : Full room tr w) (hs : Step w l w') :
    Full room ((l, w) :: tr) w' := by
  cases l with
  | start spec =>
    cases hs
    exact f.start x spec
  | _ => exact f.other hs fun _ => nofun

theorem full_opened (topic : String) (room timeout : Nat) :
    Full room [] (opened topic room timeout) where
  refused _ _ hm := by cases hm
  begun _ hn := absurd hn (Nat.not_lt_zero _)
  offered _ _ hm := by cases hm
  unoffered _ _ _ hm := by cases hm

end

/-! ## 4. Runs -/

/-- In every run the window is kept to, and the queue is full for exactly those calls that begin when
every permit is held. -/
theorem Run.exact {topic : String} {room timeout : Nat} {tr : List (Label × Window)} {w : Window}
    (h : Run (opened topic room timeout) tr w) : Exact room w ∧ Full room tr w := by
  induction h with
  | new => exact ⟨exact_opened topic room timeout, full_opened topic room timeout⟩
  | step _ hs ih => exact ⟨ih.1.step hs, ih.2.step ih.1 hs⟩

end Window

end TopicPublisher
