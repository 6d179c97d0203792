import TopicPublisher.Proofs.Factory.Dispatch
import TopicPublisher.Proofs.Factory.Leases
import TopicPublisher.Proofs.Factory.SingleFlight

/-!
# What a failed send fails with

A send can fail in many places: before it has a producer, when the producer refuses to queue its message,
when the wire client has no receipt for it, and when the call that waits for the receipt on behalf of a
promised send dies. The error is made in the place where it happens, and it is the same in all of them:
the error of the client, with its kind, under the canonical text of the topic that the sender gave.

What is known of a call that is over and of a promise that is settled is known in all later states
(`Lasts`). So what an answer brings about is read off the moment at which it comes.

Results:
1. `Run.lasts`, `Run.since`: what stays known.
2. `Run.task_unique`: a call is begun to dispatch the message of one promise.
3. `Run.uncreated`, `Run.enqueue_refused`, `Run.receipt_told`, `Run.lost`: what a failure brings about.
4. `Run.abandoned`, `Fails.cause`: where an error came from.
5. `outcomes_classified`: all this for all senders, in every run.
-/

namespace TopicPublisher

/-- The call has got a lease to send through: it waits with it, or has left it to another call. -/
def Progress.leased : Progress → Bool
  | .sending _ _ => true
  | .enqueuing _ _ => true
  | .ended (.promised _) => true
  | _ => false

namespace Factory

/-! ## Definitions -/

section

variable (schema : Schema) (tr : List (Label × Factory)) (s : Factory)

/-- How a send turned out: its call ended with the result or, where the send was promised, the result can
be read from the promise. -/
inductive TurnsOut (c : CallId) : Delivery → Except Error MessageId → Prop
  | acknowledged {r : Except Error MessageId} : s.calls.get? c = some (.ended (endOf r)) →
      TurnsOut c .acknowledged r
  | promised {p : PendingId} {q : Pending} {r : Except Error MessageId} :
      s.calls.get? c = some (.ended (.promised p)) → s.pending.get? p = some q →
      q.outcome? = some r → TurnsOut c .promised r

/-- A send failed: its call did, or what it promised. -/
inductive Failed (c : CallId) (e : Error) : Prop
  | call : s.calls.get? c = some (.ended (.failed e)) → Failed c e
  | promise {p : PendingId} {q : Pending} : s.calls.get? c = some (.ended (.promised p)) →
      s.pending.get? p = some q → q.outcome? = some (.error e) → Failed c e

/-- A send has got a lease on a producer. -/
def Leased (c : CallId) : Prop :=
  ∃ s₁ q, (s₁ = s ∨ ∃ l, (l, s₁) ∈ tr) ∧ s₁.calls.get? c = some q ∧ q.leased = true

/-- The call that was to settle a promise is ended before its time. -/
def Dies (p : PendingId) : Prop :=
  ∃ l s₀ i, (l, s₀) ∈ tr ∧ (l = .abort i ∨ l = .crash i) ∧ Serves s₀ p i

/-- Where the error of a send came from that was made for a topic. -/
inductive Cause (c : CallId) (topic : String) : Error → Prop
  | closed : s.cache.closed = true → ¬ Leased tr s c → Cause c topic .factoryClosed
  | uncreated {u : Ticket} {x : ClientError} : .asked c u (.openProducer topic) ∈ s.events →
      Answered tr c u (.opened (.error x)) → ¬ Leased tr s c →
      Cause c topic (.producerCreation topic x)
  /-- The wire client failed the send's own request. -/
  | client {u : Ticket} {y : WireCall} {i : CallId} {x : ClientError} : Sends schema tr s c u y →
      Answered tr i u (.accepted (.error x)) ∨ Answered tr i u (.receipt (.error x)) →
      Cause c topic (.ofSend topic x)
  | lost {p : PendingId} : s.calls.get? c = some (.ended (.promised p)) → Dies tr p →
      Cause c topic (Pending.lost topic)

/-- The outcomes of senders.

* `uncreated`: a sender whose own request for a producer fails ends with the error of that.
* `rejected`: where a message is not taken into the queue, the promise fails with the error of that.
* `receipt`: the receipt of the message is the outcome, in both ways to deliver it.
* `lost`: a promise that nobody is left to settle has an outcome too.
* `awaited`: who waits for an outcome can go on as soon as it can be read, and gets it.
* `final`: there is one outcome, and it stays.
* `cause`: there are no other errors.
* `leased`: with a lease there are only classified errors of the send.
* `refused`: where no message could be made, there is no lease, and the error is the one of that. -/
structure OutcomesClassified : Prop where
  uncreated : ∀ c m d u e, Sender tr c m d → Answered tr c u (.opened (.error e)) →
    s.calls.get? c = some (.ended (.failed (.producerCreation (canonicalize m.topic) e)))
  rejected : ∀ c m d u y i e, Sender tr c m d → Sends schema tr s c u y →
    Answered tr i u (.accepted (.error e)) →
    TurnsOut s c d (.error (.ofSend (canonicalize m.topic) e))
  receipt : ∀ c m d u y i r, Sender tr c m d → Sends schema tr s c u y →
    Answered tr i u (.receipt r) → TurnsOut s c d (resultOf (canonicalize m.topic) r)
  lost : ∀ c m d p, Sender tr c m d → s.calls.get? c = some (.ended (.promised p)) → Dies tr p →
    TurnsOut s c d (.error (.publish (canonicalize m.topic) .other
      (.other "send task ended without an outcome")))
  awaited : ∀ p q r i, s.pending.get? p = some q → q.outcome? = some r →
    s.calls.get? i = some (.awaiting p) →
    ∃ s', s.step (.resume i) = some s' ∧ s'.calls.get? i = some (.ended (endOf r))
  final : ∀ l s₀ c d r r', (l, s₀) ∈ tr → TurnsOut s₀ c d r →
    TurnsOut s c d r ∧ (TurnsOut s c d r' → r' = r)
  cause : ∀ c m d e, Sender tr c m d → Failed s c e → Cause schema tr s c (canonicalize m.topic) e
  leased : ∀ c m d e, Sender tr c m d → Leased tr s c → Failed s c e →
    ∃ x, e = .publish (canonicalize m.topic) (PublishKind.ofClientError x) x
  refused : ∀ c (x : Template) form d e, x.outbound form = .error e →
    Made tr c (x.request form d) → (∀ e', Failed s c e' → e' = e) ∧ ¬ Leased tr s c
  queueFull : ∀ t x, (Error.ofSend t x).isQueueFull = true ↔ ∃ text, x = .queueFull text
  retriable : ∀ t x, (Error.ofSend t x).isRetriable = true ↔ ∀ text, x ≠ .rejected text

end

open SoundLemmas StoryLemmas

section

variable {tr : List (Label × Factory)} {s s' : Factory} {c i : CallId} {p : PendingId}

/-! ## 1. What stays known -/

theorem TurnsOut.lasts {d : Delivery} {r : Except Error MessageId} (h : TurnsOut s c d r)
    (hl : Lasts s s') : TurnsOut s' c d r := by
  cases h with
  | acknowledged hc => exact .acknowledged (hl.ended hc rfl)
  | promised hc hq hr =>
    obtain ⟨q', hq', hr'⟩ := hl.outcome hq hr
    exact .promised (hl.ended hc rfl) hq' hr'

theorem Made.mono {tr' : List (Label × Factory)} {r : Request} (h : Made tr c r)
    (hsub : ∀ x ∈ tr, x ∈ tr') : Made tr' c r := by
  obtain ⟨s', hm, hs⟩ := h
  exact ⟨s', hsub _ hm, hs⟩

theorem Tasked.mono {tr' : List (Label × Factory)} (h : Tasked tr p i) (hsub : ∀ x ∈ tr, x ∈ tr') :
    Tasked tr' p i := by
  obtain ⟨l', s', v, m, hm, hi⟩ := h
  exact ⟨l', s', v, m, hsub _ hm, hi⟩

end

section

variable {tr : List (Label × Factory)} {s s₀ : Factory} {c i : CallId} {l : Label} {p : PendingId}

/-! ## 2. Tasks -/

/-- A call that was begun to dispatch the message of a promise was begun for that promise only. -/
def TasksUnique (tr : List (Label × Factory)) (s : Factory) : Prop :=
  ∀ p i, Tasked tr p i → (∀ p', Tasked tr p' i → p' = p) ∧
    ∀ v m p', s.calls.get? i = some (.fresh (.dispatch v m p')) → p' = p

theorem Run.tasks_unique (h : Run PublicOnly tr s) : TasksUnique tr s := by
  have hall := (Run.induct_orderly (I := fun tr s _ => (∀ p i, Tasked tr p i → i < s.calls.size) ∧
    TasksUnique tr s) ⟨?_, ?_⟩ ?_ ?_ h).2
  · exact hall.2
  · rintro p i ⟨_, _, _, _, hm, -⟩
    cases hm
  · rintro p i ⟨_, _, _, _, hm, -⟩
    cases hm
  · rintro tr s s₁ l run o ⟨hlt, ih⟩ _ hb
    have hold : ∀ p i, Tasked ((l, s) :: tr) p i → Tasked tr p i ∨
        ∃ v m, s.calls.get? i = some (.fresh (.dispatch v m p)) := by
      rintro p i ⟨l', s', v, m, hm, hi⟩
      rcases List.mem_cons.1 hm with he | hm
      · cases he
        exact .inr ⟨v, m, hi⟩
      · exact .inl ⟨l', s', v, m, hm, hi⟩
    have hsize : ∀ p i, Tasked ((l, s) :: tr) p i → i < s.calls.size := by
      intro p i ht
      rcases hold p i ht with ht | ⟨v, m, hi⟩
      · exact hlt p i ht
      · exact Registry.lt_size_of_get? hi
    have hfresh : ∀ p i, Tasked ((l, s) :: tr) p i → ∀ v m p',
        s.calls.get? i = some (.fresh (.dispatch v m p')) → p' = p := by
      intro p i ht v m p' hi'
      rcases hold p i ht with ht | ⟨v', m', hi⟩
      · exact (ih p i ht).2 v m p' hi'
      · cases hi.symm.trans hi'
        rfl
    refine ⟨fun p i ht => Nat.lt_of_lt_of_le (hsize p i ht) hb.calls_size, fun p i ht => ⟨?_, ?_⟩⟩
    · intro p' ht'
      rcases hold p' i ht' with hold' | ⟨v, m, hi⟩
      · rcases hold p i ht with ht | ⟨v, m, hi⟩
        · exact (ih p i ht).1 p' hold'
        · exact ((ih p' i hold').2 v m p hi).symm
      · exact hfresh p i ht v m p' hi
    · intro v m p' hi
      rcases hb.moves hi with hi | he
      · exact hfresh p i ht v m p' hi
      · cases he with
        | fresh _ hi => exact (Nat.ne_of_lt (hsize p i ht) hi).elim
  · rintro tr s s₁ c a next o ⟨hlt, ih⟩ ht
    obtain ⟨owner, hs⟩ := o.sound
    refine ⟨fun p i hi => Nat.lt_of_lt_of_le (hlt p i hi) ht.calls_size, fun p i hi => ⟨(ih p i hi).1, ?_⟩⟩
    intro v m p' hi'
    cases ht.moves hs hi' with
    | stays hi' => exact (ih p i hi).2 v m p' hi'
    | gets _ _ hr => cases hr
    | begun hsize => exact (Nat.ne_of_lt (hlt p i hi) hsize).elim

/-- Who made the request of a send: the call of the send, or one that was begun to dispatch the message. -/
theorem Run.sender_of_request {schema : Schema} {w : Want} {u : Ticket} {y : WireCall} {j : CallId}
    {d : Demand} (h : Run PublicOnly tr s) (hmade : Made tr c (.want w)) (hsend : Sends schema tr s c u y)
    (hasked : .asked j u d ∈ s.events) :
    (j = c ∧ ∀ p, ¬ Tasked tr p j) ∨
      ∃ p, s.calls.get? c = some (.ended (.promised p)) ∧ Tasked tr p j ∧ ∀ r, ¬ Made tr j r := by
  obtain ⟨-, i, hacts, d', hd', -⟩ := hsend
  obtain ⟨rfl, -⟩ := h.ticket_unique hasked hd'
  rcases hacts with rfl | ⟨p, hc, ht⟩
  · exact .inl ⟨rfl, fun p ht => (h.once.begun p _ ht).2 _ hmade⟩
  · exact .inr ⟨p, hc, ht, (h.once.begun p _ ht).2⟩

/-! ## 3. What an answer brings about -/

theorem Run.uncreated {w : Want} {u : Ticket} {e : ClientError} (h : Run PublicOnly tr s)
    (hmade : Made tr c (.want w)) (ha : Answered tr c u (.opened (.error e))) :
    s.calls.get? c = some (.ended (.failed (.producerCreation w.topic e))) := by
  obtain ⟨⟨t, -, hc⟩, -⟩ := h.returned c u e ha
  obtain ⟨rfl, -⟩ := h.orderly.storied.uncreated hmade hc
  exact hc

/-- A promised send whose message is not taken into the queue. -/
theorem Run.enqueue_refused {schema : Schema} {w : Want} {u : Ticket} {y : WireCall} {e : ClientError}
    (h : Run PublicOnly tr s) (hmade : Made tr c (.want w)) (hsend : Sends schema tr s c u y)
    (ha : Answered tr i u (.accepted (.error e))) :
    ∃ m d, w.purpose = .send m d ∧ TurnsOut s c d (.error (.ofSend w.topic e)) := by
  obtain ⟨s₀, hm⟩ := ha
  obtain ⟨before, s₁, hrun, hsub, hstep, hlasts⟩ := h.since hm
  obtain ⟨s₁, run, hb, rfl⟩ := begins_of_step hstep
  cases hb with
  | stop hl => rcases hl with ⟨hl, -⟩ | ⟨hl, -⟩ <;> cases hl
  | rejected hi =>
    obtain ⟨w', m, hmade', hp, ht, hone⟩ := (hrun.orderly.storied.story i _ hi fun _ => nofun).of_enqueuing
    have hasked := (h.lasts hm).asked (mem_handed.1 (hone ▸ List.mem_singleton_self _)).1
    rcases h.sender_of_request hmade hsend hasked with ⟨rfl, -⟩ | ⟨_, -, -, hno⟩
    · cases h.orderly.storied.requested.once _ _ _ hmade (hmade'.mono hsub)
      rw [topicOf_eq ht] at hlasts
      exact ⟨m, .promised, hp, TurnsOut.lasts
        (.promised (get?_goTo hi) ((Registry.get?_add _ _ _).trans (if_pos rfl)) rfl) hlasts⟩
    · exact (hno _ (hmade'.mono hsub)).elim

/-- A call that waits for a receipt on behalf of a promise: the handle is one of the topic that was
promised, and the message was handed over by the one who promised it or by that call. -/
theorem Storied.request_of_settler {w : Want} {v : HandleId} {u : Ticket} (st : Storied tr s none)
    (hmade : Made tr c (.want w)) (hc : s.calls.get? c = some (.ended (.promised p)))
    (hi : s.calls.get? i = some (.completing v u p)) :
    s.topic? v = some w.topic ∧ ∃ m, handed s c = [(u, .enqueue v m)] ∨
      (Tasked tr p i ∧ handed s i = [(u, .send v m)]) := by
  obtain ⟨m, -, q, hq, -, pr⟩ := st.promised hmade hc
  have hserves : Serves s p i := ⟨_, hi, rfl⟩
  rw [st.assigned.unknown hq hserves] at pr
  have hwaits : ∀ {h : HandleId} {t : Ticket} {d : CallId}, Receives tr s w.topic h t d p .unknown →
      d = i ∧ t = u ∧ h = v := by
    intro h t d hr
    cases hr with
    | waiting hd =>
      cases st.assigned.unique p d i ⟨_, hd, rfl⟩ hserves
      cases hd.symm.trans hi
      exact ⟨rfl, rfl, rfl⟩
  cases pr with
  | enqueued hone ht _ _ hr =>
    obtain ⟨-, rfl, rfl⟩ := hwaits hr
    exact ⟨ht, m, .inl hone⟩
  | dispatched _ ht htask hone hr =>
    obtain ⟨rfl, rfl, rfl⟩ := hwaits hr
    exact ⟨ht, m, .inr ⟨htask, hone⟩⟩
  | begun _ _ hd =>
    cases st.assigned.unique p _ i ⟨_, hd, rfl⟩ hserves
    cases hd.symm.trans hi

/-- A receipt is for the call that waits for it on behalf of itself, or of a promise. -/
theorem Run.receipt_told {schema : Schema} {w : Want} {u : Ticket} {y : WireCall}
    {r : Except ClientError MessageId} (h : Run PublicOnly tr s) (hmade : Made tr c (.want w))
    (hsend : Sends schema tr s c u y) (ha : Answered tr i u (.receipt r)) :
    ∃ m d, w.purpose = .send m d ∧ TurnsOut s c d (resultOf w.topic r) := by
  obtain ⟨s₀, hm⟩ := ha
  obtain ⟨before, s₁, hrun, hsub, hstep, hlasts⟩ := h.since hm
  obtain ⟨s₁, run, hb, rfl⟩ := begins_of_step hstep
  have st := hrun.orderly.storied
  have hasked : ∀ {j : CallId} {d : Demand}, handed s₀ j = [(u, d)] → .asked j u d ∈ s.events :=
    fun hone => (h.lasts hm).asked (mem_handed.1 (hone ▸ List.mem_singleton_self _)).1
  cases hb with
  | stop hl => rcases hl with ⟨hl, -⟩ | ⟨hl, -⟩ <;> cases hl
  | receipt hi =>
    obtain ⟨w', m, hmade', hp, ht, hone⟩ := (st.story i _ hi fun _ => nofun).of_sending
    rcases h.sender_of_request hmade hsend (hasked hone) with ⟨rfl, -⟩ | ⟨_, -, -, hno⟩
    · cases h.orderly.storied.requested.once _ _ _ hmade (hmade'.mono hsub)
      refine ⟨m, .acknowledged, hp, TurnsOut.lasts (.acknowledged ?_) hlasts⟩
      rw [← resultOf_eq ht]
      exact get?_goTo hi
    · exact (hno _ (hmade'.mono hsub)).elim
  | @completed _ _ v p _ cs hi =>
    obtain ⟨c', w', m, hc', hmade', hp⟩ := hrun.promiser p i ⟨_, hi, rfl⟩
    obtain ⟨ht, m', hone⟩ := st.request_of_settler hmade' hc' hi
    obtain ⟨-, -, q, hq, htopic, -⟩ := st.promised hmade' hc'
    rw [resultOf_eq ht] at hlasts
    obtain ⟨q', hq', hstate, htopic'⟩ := hlasts.known (p := p)
      (q := { q with state := .settled (resultOf w'.topic r), awaiter := none })
      ((Registry.get?_update _ _ _ _).trans (by rw [if_pos rfl, hq]; rfl)) nofun
    have hout : q'.outcome? = some (resultOf w'.topic r) := by simp [Pending.outcome?, hstate]
    rcases hone with hone | ⟨htask, hone⟩
    · rcases h.sender_of_request hmade hsend (hasked hone) with ⟨rfl, -⟩ | ⟨_, -, -, hno⟩
      · cases h.orderly.storied.requested.once _ _ _ hmade (hmade'.mono hsub)
        exact ⟨m, .promised, hp, .promised ((h.lasts hm).ended hc' rfl) hq' hout⟩
      · exact (hno _ (hmade'.mono hsub)).elim
    · rcases h.sender_of_request hmade hsend (hasked hone) with ⟨-, hno⟩ | ⟨p', hc, htask', -⟩
      · exact (hno _ (htask.mono hsub)).elim
      · obtain rfl := (h.tasks_unique p i (htask.mono hsub)).1 p' htask'
        obtain ⟨m, hp, q₁, hq₁, htopic₁, -⟩ := h.orderly.storied.promised hmade hc
        cases hq'.symm.trans hq₁
        have hsame : w'.topic = w.topic := htopic.symm.trans (htopic'.symm.trans htopic₁)
        exact ⟨m, .promised, hp, .promised hc hq' (hsame ▸ hout)⟩

/-! ## 4. Promises that nobody is left to settle -/

/-- A call that is ended before its time abandons the promise that it was to settle. -/
theorem Begins.abandons {s' : Factory} {run : Option (CallId × Act)} {z : Progress} {q : Pending}
    (hb : Begins s l s' run) (hl : l = .abort i ∨ l = .crash i) (hz : s.calls.get? i = some z)
    (hp : z.pending? = some p) (hq : s.pending.get? p = some q) : run = none ∧
    ∃ q', s'.pending.get? p = some q' ∧ q'.state = .abandoned ∧ q'.topic = q.topic := by
  have hset : (s.pending.update p fun q => { q with state := .abandoned, awaiter := none }).get? p =
      some { q with state := .abandoned, awaiter := none } := by
    rw [Registry.get?_update, if_pos rfl, hq]
    rfl
  cases hb with
  | @stop c _ _ _ _ hl' hc hlets =>
    obtain rfl : c = i := by
      rcases hl' with ⟨rfl, -⟩ | ⟨rfl, -⟩ <;> rcases hl with hl | hl <;> cases hl <;> rfl
    cases hc.symm.trans hz
    cases hlets with
    | dispatch | completing =>
      cases hp
      exact ⟨rfl, _, hset, rfl, rfl⟩
    | @fresh r hno =>
      cases r with
      | dispatch => exact (hno _ _ _ rfl).elim
      | _ => cases hp
    | sending hor => rcases hor with rfl | rfl <;> cases hp
    | _ => cases hp
  | _ => rcases hl with hl | hl <;> cases hl

theorem Run.lost {w : Want} (h : Run PublicOnly tr s) (hmade : Made tr c (.want w))
    (hc : s.calls.get? c = some (.ended (.promised p))) (hdies : Dies tr p) :
    TurnsOut s c .promised (.error (Pending.lost w.topic)) := by
  obtain ⟨l, s₀, i, hm, hl, z, hz, hp⟩ := hdies
  obtain ⟨before, s₁, hrun, -, hstep, hlasts⟩ := h.since hm
  obtain ⟨s₁, run, hb, rfl⟩ := begins_of_step hstep
  obtain ⟨q, hq⟩ := Registry.exists_get?_of_lt
    (hrun.orderly.storied.assigned.serves p i ⟨z, hz, hp⟩)
  obtain ⟨rfl, q₁, hq₁, hstate₁, -⟩ := hb.abandons hl hz hp hq
  obtain ⟨q₂, hq₂, hstate₂, -⟩ := hlasts.known hq₁ (hstate₁ ▸ nofun)
  obtain ⟨-, -, q₃, hq₃, htopic, -⟩ := h.orderly.storied.promised hmade hc
  cases hq₂.symm.trans hq₃
  exact .promised hc hq₂ (by simp [Pending.outcome?, hstate₂, hstate₁, htopic])

theorem of_pending_add {a : Registry Pending} {x q : Pending} (hq : (a.add x).get? p = some q) :
    a.get? p = some q ∨ q = x := by
  rw [Registry.get?_add] at hq
  split at hq
  · exact .inr (Option.some.inj hq).symm
  · exact .inl hq

theorem of_pending_update {a : Registry Pending} {p' : PendingId} {f : Pending → Pending} {q : Pending}
    (hq : (a.update p' f).get? p = some q) :
    a.get? p = some q ∨ p' = p ∧ ∃ q₀, a.get? p = some q₀ ∧ f q₀ = q := by
  rw [Registry.get?_update] at hq
  split at hq
  · next he => exact .inr ⟨he, Option.map_eq_some_iff.1 hq⟩
  · exact .inl hq

/-- A promise is abandoned only when the call that was to settle it is ended before its time. -/
theorem Begins.abandoned_or {s' : Factory} {run : Option (CallId × Act)} {q : Pending}
    (hb : Begins s l s' run) (hq : s'.pending.get? p = some q) (hst : q.state = .abandoned) :
    (∃ q₀, s.pending.get? p = some q₀ ∧ q₀.state = .abandoned) ∨
      ∃ i, (l = .abort i ∨ l = .crash i) ∧ Serves s p i := by
  cases hb with
  | await =>
    rcases of_pending_update hq with hq | ⟨-, q₀, hq₀, rfl⟩
    · exact .inl ⟨q, hq, hst⟩
    · exact .inl ⟨q₀, hq₀, hst⟩
  | rejected | accepted =>
    rcases of_pending_add hq with hq | rfl
    · exact .inl ⟨q, hq, hst⟩
    · cases hst
  | completed =>
    rcases of_pending_update hq with hq | ⟨-, q₀, hq₀, rfl⟩
    · exact .inl ⟨q, hq, hst⟩
    · cases hst
  | @stop c _ _ _ _ hl hc hlets =>
    have hl : l = .abort c ∨ l = .crash c := hl.imp And.left And.left
    cases hlets with
    | dispatch | completing =>
      rcases of_pending_update hq with hq | ⟨rfl, -⟩
      · exact .inl ⟨q, hq, hst⟩
      · exact .inr ⟨c, hl, _, hc, rfl⟩
    | awaiting =>
      rcases of_pending_update hq with hq | ⟨-, q₀, hq₀, rfl⟩
      · exact .inl ⟨q, hq, hst⟩
      · exact .inl ⟨q₀, hq₀, hst⟩
    | _ => exact .inl ⟨q, hq, hst⟩
  | _ => exact .inl ⟨q, hq, hst⟩

theorem Turn.abandoned {s' : Factory} {a : Act} {next : Option Act} {q : Pending}
    (ht : Turn c s a s' next) (hq : s'.pending.get? p = some q) (hst : q.state = .abandoned) :
    s.pending.get? p = some q := by
  cases ht with
  | promise =>
    rcases of_pending_add hq with hq | rfl
    · exact hq
    · cases hst
  | _ => exact hq

theorem Run.abandoned {q : Pending} (h : Run PublicOnly tr s) (hq : s.pending.get? p = some q)
    (hst : q.state = .abandoned) : Dies tr p := by
  refine (Run.induct_orderly (I := fun tr s _ => ∀ p q, s.pending.get? p = some q →
    q.state = .abandoned → Dies tr p) ?_ ?_ ?_ h).2 p q hq hst
  · intro p q hq
    rw [show Factory.new.pending = .empty from rfl, Registry.get?_empty] at hq
    cases hq
  · intro tr s s₁ l run o ih _ hb p q hq hst
    rcases hb.abandoned_or hq hst with ⟨q₀, hq₀, hst₀⟩ | ⟨i, hl, hs⟩
    · obtain ⟨l', s₀, i, hm, hl, hs⟩ := ih p q₀ hq₀ hst₀
      exact ⟨l', s₀, i, List.mem_cons_of_mem _ hm, hl, hs⟩
    · exact ⟨l, s, i, List.mem_cons_self, hl, hs⟩
  · intro tr s s₁ c a next o ih ht p q hq hst
    exact ih p q (ht.abandoned hq hst) hst

/-! ## 5. Where errors come from -/

theorem Storied.made_of_promised (st : Storied tr s none)
    (hc : s.calls.get? c = some (.ended (.promised p))) : ∃ w, Made tr c (.want w) := by
  generalize ho : Outcome.promised p = o at hc
  cases st.story c _ hc (fun _ => nofun) with
  | ended hmade hends =>
    cases hends with
    | promised => exact ⟨_, hmade⟩
    | @receipt _ _ _ _ r => cases r <;> cases ho
    | @await _ _ r => cases r <;> cases ho
    | _ => cases ho
  | delivered => cases ho

/-- Only calls that were made to send get a lease to send through, and then they have handed the message
over or left that to another call. -/
theorem Run.leased (h : Run PublicOnly tr s) (hl : Leased tr s c) : (∃ w, Made tr c (.want w)) ∧
    (handed s c ≠ [] ∨ ∃ p, s.calls.get? c = some (.ended (.promised p))) := by
  obtain ⟨s₁, q, hor, hq, hlq⟩ := hl
  have hs₁ : ∃ before, Run PublicOnly before s₁ ∧ (∀ x ∈ before, x ∈ tr) ∧ Lasts s₁ s := by
    rcases hor with rfl | ⟨l, hm⟩
    · exact ⟨tr, h, fun _ hx => hx, .refl _⟩
    · obtain ⟨before, -, hrun, hsub, -⟩ := h.since hm
      exact ⟨before, hrun, hsub, h.lasts hm⟩
  obtain ⟨before, hrun, hsub, hlasts⟩ := hs₁
  have st := hrun.orderly.storied
  have hkept : ∀ {u : Ticket} {d : Demand}, handed s₁ c = [(u, d)] → handed s c ≠ [] := by
    intro u d hone hnone
    obtain ⟨hm, hd⟩ := mem_handed.1 (hone ▸ List.mem_singleton_self (u, d))
    have hmem := mem_handed.2 ⟨hlasts.asked hm, hd⟩
    rw [hnone] at hmem
    cases hmem
  cases q with
  | sending =>
    obtain ⟨w, _, hmade, -, -, hone⟩ := (st.story c _ hq fun _ => nofun).of_sending
    exact ⟨⟨w, hmade.mono hsub⟩, .inl (hkept hone)⟩
  | enqueuing =>
    obtain ⟨w, _, hmade, -, -, hone⟩ := (st.story c _ hq fun _ => nofun).of_enqueuing
    exact ⟨⟨w, hmade.mono hsub⟩, .inl (hkept hone)⟩
  | ended o =>
    cases o with
    | promised p =>
      obtain ⟨w, hmade⟩ := st.made_of_promised hq
      exact ⟨⟨w, hmade.mono hsub⟩, .inr ⟨p, hlasts.ended hq rfl⟩⟩
    | _ => cases hlq
  | _ => cases hlq

theorem Run.not_leased {e : Error} (h : Run PublicOnly tr s) (hnone : handed s c = [])
    (hc : s.calls.get? c = some (.ended (.failed e))) : ¬ Leased tr s c := by
  intro hl
  rcases (h.leased hl).2 with hne | ⟨p, hp⟩
  · exact hne hnone
  · cases hc.symm.trans hp

/-- Where the error of a promise came from. -/
theorem Run.cause_of_promise (schema : Schema) {w : Want} {q : Pending} {e : Error}
    (h : Run PublicOnly tr s) (hmade : Made tr c (.want w))
    (hc : s.calls.get? c = some (.ended (.promised p))) (hq : s.pending.get? p = some q)
    (hout : q.outcome? = some (.error e)) : Cause schema tr s c w.topic e := by
  obtain ⟨m, -, q', hq', htopic, pr⟩ := h.orderly.storied.promised hmade hc
  cases hq.symm.trans hq'
  have hdies : q.state = .abandoned → Cause schema tr s c w.topic e := by
    intro hst
    rw [Pending.outcome?, hst, htopic] at hout
    cases hout
    exact .lost hc (h.abandoned hq hst)
  have htold : ∀ {r : Except ClientError MessageId} {v : HandleId} {u : Ticket} {d i : CallId}
      {x : Demand}, q.state = .settled (resultOf w.topic r) → ActsFor tr s i c →
      handed s i = [(u, x)] → x.receiver? = some v → Answered tr d u (.receipt r) →
      Cause schema tr s c w.topic e := by
    intro r v u d i x hst hacts hone hx ha
    rw [Pending.outcome?, hst] at hout
    cases r with
    | ok => cases hout
    | error y =>
      cases hout
      exact .client (sends_iff.2 ⟨i, x, hacts, hone ▸ List.mem_singleton_self _, rfl⟩) (.inr ha)
  generalize hst : q.state = st at pr
  cases pr with
  | rejected hone _ ha =>
    rw [Pending.outcome?, hst] at hout
    cases hout
    exact .client (sends_iff.2 ⟨c, _, .inl rfl, hone ▸ List.mem_singleton_self _, rfl⟩) (.inl ha)
  | enqueued hone _ _ _ hr =>
    cases hr with
    | waiting => simp [Pending.outcome?, hst] at hout
    | settled ha => exact htold hst (.inl rfl) hone rfl ha
    | abandoned => exact hdies hst
  | begun => simp [Pending.outcome?, hst] at hout
  | dispatched _ _ htask hone hr =>
    cases hr with
    | waiting => simp [Pending.outcome?, hst] at hout
    | settled ha => exact htold hst (.inr ⟨p, hc, htask⟩) hone rfl ha
    | abandoned => exact hdies hst
  | lost => exact hdies hst

theorem Failed.cause (schema : Schema) {w : Want} {e : Error} (hf : Failed s c e)
    (h : Run PublicOnly tr s) (hmade : Made tr c (.want w)) : Cause schema tr s c w.topic e := by
  cases hf with
  | promise hc hq hout => exact h.cause_of_promise schema hmade hc hq hout
  | call hc =>
    generalize ho : Outcome.failed e = o at hc
    cases h.orderly.storied.ends_want hmade hc with
    | refused hcl hnone =>
      cases ho
      exact .closed hcl (h.not_leased hnone hc)
    | uncreated hnone hasked ha =>
      cases ho
      exact .uncreated hasked ha (h.not_leased hnone hc)
    | @receipt _ _ _ _ r _ _ hone ha =>
      cases r with
      | ok => cases ho
      | error x =>
        cases ho
        exact .client (sends_iff.2 ⟨c, _, .inl rfl, hone ▸ List.mem_singleton_self _, rfl⟩) (.inr ha)
    | _ => cases ho

/-- With a lease, an error is one of the send. -/
theorem Cause.of_leased {schema : Schema} {topic : String} {e : Error}
    (hcause : Cause schema tr s c topic e) (hl : Leased tr s c) : ∃ x, e = .ofSend topic x := by
  cases hcause with
  | closed _ hno | uncreated _ _ hno => exact (hno hl).elim
  | client => exact ⟨_, rfl⟩
  | lost => exact ⟨_, rfl⟩

/-- A send for which no message could be made. -/
theorem Run.refused {e : Error} (h : Run PublicOnly tr s) (hmade : Made tr c (.refuse e)) :
    (∀ e', Failed s c e' → e' = e) ∧ ¬ Leased tr s c := by
  have st := h.orderly.storied
  have hends : ∀ {o : Outcome}, s.calls.get? c = some (.ended o) → o = .failed e := by
    intro o hc
    cases st.story c _ hc (fun _ => nofun) with
    | ended hmade' hends =>
      cases st.requested.once _ _ _ hmade hmade'
      cases hends with
      | refuse => rfl
      | count hr => rcases hr with hr | hr <;> cases hr
    | delivered hno => exact (hno _ hmade).elim
  refine ⟨fun e' hf => ?_, fun hl => ?_⟩
  · cases hf with
    | call hc =>
      cases hends hc
      rfl
    | promise hc => cases hends hc
  · obtain ⟨w, hw⟩ := (h.leased hl).1
    cases st.requested.once _ _ _ hmade hw

end

theorem isQueueFull_ofSend (t : String) (x : ClientError) :
    (Error.ofSend t x).isQueueFull = true ↔ ∃ text, x = .queueFull text := by
  cases x <;> simp [Error.ofSend, Error.isQueueFull, PublishKind.ofClientError]

theorem isRetriable_ofSend (t : String) (x : ClientError) :
    (Error.ofSend t x).isRetriable = true ↔ ∀ text, x ≠ .rejected text := by
  cases x <;> simp [Error.ofSend, Error.isRetriable, PublishKind.ofClientError]

/-- A call that waits for an outcome that can be read goes on, and ends with it. -/
theorem step_awaiting {s : Factory} {i : CallId} {p : PendingId} {q : Pending}
    {r : Except Error MessageId} (hq : s.pending.get? p = some q) (hr : q.outcome? = some r)
    (hi : s.calls.get? i = some (.awaiting p)) : s.step (.resume i) = some (s.finish i (endOf r)) := by
  simp only [step, hi, Option.bind_some, resume, hq, hr]
  cases r <;> rfl

theorem TurnsOut.unique {s : Factory} {c : CallId} {d : Delivery} {r r' : Except Error MessageId}
    (h : TurnsOut s c d r) (h' : TurnsOut s c d r') : r' = r := by
  cases h with
  | acknowledged hc =>
    cases h' with
    | acknowledged hc' =>
      have heq := hc'.symm.trans hc
      cases r <;> cases r' <;> cases heq <;> rfl
  | promised hc hq hr =>
    cases h' with
    | promised hc' hq' hr' =>
      cases hc.symm.trans hc'
      cases hq.symm.trans hq'
      exact Option.some.inj (hr'.symm.trans hr)

/-- In every run every sender fails with the error of what failed, classified in the same way wherever
that was. -/
theorem outcomes_classified {tr : List (Label × Factory)} {s : Factory} (h : Run PublicOnly tr s)
    (schema : Schema) : OutcomesClassified schema tr s where
  uncreated c m d u e hs ha := h.uncreated hs.made ha
  rejected c m d u y i e hs hsend ha := by
    obtain ⟨_, _, hp, hout⟩ := h.enqueue_refused hs.made hsend ha
    cases hp
    exact hout
  receipt c m d u y i r hs hsend ha := by
    obtain ⟨_, _, hp, hout⟩ := h.receipt_told hs.made hsend ha
    cases hp
    exact hout
  lost c m d p hs hc hdies := by
    obtain ⟨_, hp, -⟩ := h.orderly.storied.promised hs.made hc
    cases hp
    exact h.lost hs.made hc hdies
  awaited p q r i hq hr hi := ⟨_, step_awaiting hq hr hi, get?_goTo hi⟩
  final l s₀ c d r r' hm hout := ⟨hout.lasts (h.lasts hm), (hout.lasts (h.lasts hm)).unique⟩
  cause c m d e hs hf := hf.cause schema h hs.made
  leased c m d e hs hl hf := (hf.cause schema h hs.made).of_leased hl
  refused c x form d e he hmade := by
    unfold Template.request at hmade
    rw [he] at hmade
    exact h.refused hmade
  queueFull := isQueueFull_ofSend
  retriable := isRetriable_ofSend

/-- Two promised sends: the producer's queue is full for the first, and the call that waits for the
receipt of the second dies. -/
theorem outcomes_classified_queue_full_and_lost : ∃ tr s, Run PublicOnly tr s ∧
    OutcomesClassified {} tr s ∧ Sender tr 0 ⟨"t", {}⟩ .promised ∧ Sender tr 1 ⟨"t", {}⟩ .promised ∧
    TurnsOut s 0 .promised (.error (.publish "persistent://public/default/t" .queueFull
      (.queueFull "1000 messages"))) ∧
    TurnsOut s 1 .promised (.error (.publish "persistent://public/default/t" .other
      (.other "send task ended without an outcome"))) := by
  have h : Run PublicOnly _ _ :=
    Run.new.play [.call (Template.request {} (.message "t" {}) .promised), .resume 0,
      .answer 0 0 (.opened (.ok .pipelined)), .answer 0 1 (.accepted (.error (.queueFull "1000 messages"))),
      .call (Template.request {} (.message "t" {}) .promised), .resume 1, .answer 1 2 (.accepted (.ok ())),
      .crash 2]
      (by simp [PublicOnly, Request.IsPublic, Template.request, Template.outbound, Request.send]) rfl
  exact ⟨_, _, h, outcomes_classified h {},
    ⟨{}, .message "t" {}, rfl, _, List.mem_of_getElem? (i := 7) rfl, rfl⟩,
    ⟨{}, .message "t" {}, rfl, _, List.mem_of_getElem? (i := 3) rfl, rfl⟩,
    .promised (p := 0) rfl rfl rfl, .promised (p := 1) rfl rfl rfl⟩

end Factory

end TopicPublisher
