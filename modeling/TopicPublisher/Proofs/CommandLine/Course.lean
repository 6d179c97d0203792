import TopicPublisher.CommandLine.Publication
import TopicPublisher.Proofs.Factory.Smooth
import TopicPublisher.Proofs.Text.Utf8

/-!
# The course of a publication

A publication makes its calls one after the other, and between them the factory's calls go on and the wire
client answers, in any order and in any way (`Course`). The client's producers are pipelined, and nothing is
aborted and nothing crashes.

All along, books are kept of the messages: those of which the client has told what became of them
(`Entry`), and those that are promised (`Pledge`). The list of the messages that producers were handed is
the one of the books, in order, and the message of the call that is under way.

Results:
1. `Course.kept`: which calls there are. `Course.round` is a call from its request to its outcome.
2. `turnout`, `Pledged.settlement`: what the outcome of a call says of its message.
3. `Standing.send`, `Standing.collect`: where the publication stands next.
4. `Course.books`: the books are right all along.
-/

namespace TopicPublisher

namespace CommandLine

open Factory

/-! ## Definitions -/

namespace Publication

/-- The topic that all messages go to, under its canonical text. -/
def target? (p : Publication) : Option String :=
  (p.topic.or p.template.defaultTopic).map canonicalize

end Publication

/-- A publication with the factory that it calls, and the call whose outcome it waits for. -/
structure Scene where
  publication : Publication
  factory : Factory := .new
  call : Option CallId := none

/-- `Course p tr x`: publication `p` comes to scene `x`. `tr` has what happened to the factory, the last
first, each with the state that it happened in. -/
inductive Course (p : Publication) : List (Label × Factory) → Scene → Prop
  | begin : Course p [] { publication := p }
  | call {tr : List (Label × Factory)} {q : Publication} {s s' : Factory} {r : Request} :
      Course p tr ⟨q, s, none⟩ → q.next? = some r → s.step (.call r) = some s' →
      Course p ((.call r, s) :: tr) ⟨q, s', some s.calls.size⟩
  /-- A call goes on, or the wire client answers. -/
  | step {tr : List (Label × Factory)} {q : Publication} {s s' : Factory} {call : Option CallId}
      {l : Label} : Course p tr ⟨q, s, call⟩ → (∀ r, l ≠ .call r) → Smooth s l → s.step l = some s' →
      Course p ((l, s) :: tr) ⟨q, s', call⟩
  | take {tr : List (Label × Factory)} {q : Publication} {s : Factory} {c : CallId} {o : Outcome} :
      Course p tr ⟨q, s, some c⟩ → s.calls.get? c = some (.ended o) → Course p tr ⟨q.take o, s, none⟩

/-- A message that a producer was handed, and what the wire client told of it. -/
structure Entry where
  message : String
  ticket : Ticket
  result : Except ClientError MessageId

/-- A message that a producer was handed, and what was promised of it. -/
structure Pledge where
  message : String
  ticket : Ticket
  promise : PendingId

/-- What is sent of a message: its bytes, and nothing else. -/
def specOf (message : String) : MessageSpec := { payload := message.toUTF8.data.toList }

/-- The request by which a message is handed to producer `v`, with its ticket. -/
def handover (v : HandleId) (d : Delivery) (message : String) (u : Ticket) : Ticket × Demand :=
  (u, .sending v (specOf message) d .pipelined)

def Entry.handover (v : HandleId) (d : Delivery) (e : Entry) : Ticket × Demand :=
  CommandLine.handover v d e.message e.ticket

def Pledge.handover (v : HandleId) (d : Delivery) (e : Pledge) : Ticket × Demand :=
  CommandLine.handover v d e.message e.ticket

def Entry.Succeeded (e : Entry) : Prop := ∃ id, e.result = .ok id

/-- The names of the messages that arrived. -/
def ids (es : List Entry) : List MessageId := es.filterMap fun e => e.result.toOption

/-- How many messages failed. -/
def failures (es : List Entry) : Nat := es.countP fun e => e.result.toOption.isNone

section

variable (target : Option String) (delivery : Delivery) (messages : List String)
  (tr : List (Label × Factory)) (s : Factory)

/-- Why a message to a topic is handed to no producer. -/
inductive Refusal : Error → Prop
  | noDefaultTopic : target = none → Refusal .noDefaultTopic
  | uncreated {c : CallId} {u : Ticket} {t : String} {x : ClientError} : target = some t →
      .asked c u (.openProducer t) ∈ s.events → Answered tr c u (.opened (.error x)) →
      Refusal (.producerCreation t x)

/-- How the publishing of messages to a topic ends: its fault, what was printed, and the entries for the
messages that producers were handed. -/
inductive Verdict (es : List Entry) : Option CommandFault → List MessageId → Prop
  /-- The first message was refused. -/
  | unsent {message : String} {left : List String} {e : Error} : messages = message :: left → es = [] →
      Refusal target tr s e → Verdict es (some (.send e)) []
  | delivered : delivery = .acknowledged → messages = es.map Entry.message →
      (∀ e ∈ es, e.Succeeded) → Verdict es none (ids es)
  /-- One message failed, and those before it did not. -/
  | failed {before : List Entry} {last : Entry} {left : List String} {t : String} {x : ClientError} :
      delivery = .acknowledged → es = before ++ [last] →
      messages = es.map Entry.message ++ left → (∀ e ∈ before, e.Succeeded) → last.result = .error x →
      target = some t → Verdict es (some (.send (.ofSend t x))) (ids before)
  | collected : delivery = .promised → messages = es.map Entry.message → failures es = 0 →
      Verdict es none (ids es)
  | undelivered : delivery = .promised → messages = es.map Entry.message → failures es ≠ 0 →
      Verdict es (some (.undelivered (failures es))) (ids es)

end

section

variable (p : Publication) (messages : List String) (tr : List (Label × Factory)) (s : Factory)

/-- A promise of a message that was handed over by the call that was made to send it. -/
def Pledged (e : Pledge) : Prop :=
  ∃ c w d, Made tr c (.want w) ∧ p.target? = some w.topic ∧
    s.calls.get? c = some (.ended (.promised e.promise)) ∧ handed s c = [(e.ticket, d)]

/-- What the outcome of a call that sends a message says of it. -/
inductive Turnout (c : CallId) (message : String) : Outcome → Prop
  | refused {e : Error} : handed s c = [] → Refusal p.target? tr s e →
      (p.target? = none ∨ ∃ u t, .asked c u (.openProducer t) ∈ s.deeds) → Turnout c message (.failed e)
  | receipt {v : HandleId} {u : Ticket} {t : String} {r : Except ClientError MessageId} :
      p.delivery = .acknowledged → p.target? = some t → s.topic? v = some t →
      handed s c = [handover v p.delivery message u] → Told tr u r →
      Turnout c message (endOf (resultOf t r))
  | promised {v : HandleId} {u : Ticket} {t : String} {q : PendingId} :
      p.delivery = .promised → p.target? = some t → s.topic? v = some t →
      handed s c = [handover v p.delivery message u] → Turnout c message (.promised q)

/-- Where a publication stands, by its books. -/
inductive Standing (es : List Entry) (pledges : List Pledge) : Phase → List MessageId → Prop
  | sending {message : String} {left : List String} :
      messages = es.map Entry.message ++ pledges.map Pledge.message ++ message :: left →
      (p.delivery = .acknowledged → pledges = [] ∧ ∀ e ∈ es, e.Succeeded) →
      (p.delivery = .promised → es = []) →
      Standing es pledges (.sending message left (pledges.map Pledge.promise)) (ids es)
  | collecting {e : Pledge} {left : List Pledge} : p.delivery = .promised → pledges = e :: left →
      messages = es.map Entry.message ++ pledges.map Pledge.message →
      Standing es pledges (.collecting e.promise (left.map Pledge.promise) (failures es)) (ids es)
  | closing {fault : Option CommandFault} {printed : List MessageId} : pledges = [] →
      Verdict p.target? p.delivery messages tr s es fault printed →
      Standing es pledges (.closing fault) printed
  | finished {fault : Option CommandFault} {printed : List MessageId} : pledges = [] →
      Verdict p.target? p.delivery messages tr s es fault printed →
      Standing es pledges (.finished fault) printed

end

def Phase.isSending : Phase → Bool
  | .sending _ _ _ => true
  | _ => false

/-- Which calls there are, and which of them is the one under way. -/
structure Kept (p : Publication) (tr : List (Label × Factory)) (x : Scene) : Prop where
  run : Run Smooth tr x.factory
  template : x.publication.template = p.template
  topic : x.publication.topic = p.topic
  delivery : x.publication.delivery = p.delivery
  current : ∀ c, x.call = some c → ∃ r, x.publication.next? = some r ∧ Made tr c r
  past : ∀ i r, Made tr i r → x.call ≠ some i → ∃ o, x.factory.calls.get? i = some (.ended o)
  shut : ∀ i, Made tr i .shutdown → ∃ f, x.publication.phase = .closing f ∨ x.publication.phase = .finished f
  closed : ∀ f, x.publication.phase = .finished f → x.factory.cache.closed = true

/-- The books are right. The producer of the messages is `v`. -/
structure Books (p : Publication) (messages : List String) (tr : List (Label × Factory)) (x : Scene)
    (v : HandleId) (es : List Entry) (pledges : List Pledge) : Prop where
  handings : handings x.factory = es.map (Entry.handover v p.delivery) ++
    pledges.map (Pledge.handover v p.delivery) ++ x.call.toList.flatMap (handed x.factory)
  told : ∀ e ∈ es, Told tr e.ticket e.result
  pledged : ∀ e ∈ pledges, Pledged p tr x.factory e
  topic : es ≠ [] ∨ pledges ≠ [] → ∃ t, p.target? = some t ∧ x.factory.topic? v = some t
  /-- After the first message its producer is in the map, and none is asked for any more. -/
  cached : es ≠ [] ∨ pledges ≠ [] → x.publication.phase.isSending = true → ∀ t, p.target? = some t →
    x.factory.cache.handle? t = some v ∧
      ∀ c, x.call = some c → ∀ u t', .asked c u (.openProducer t') ∉ x.factory.deeds
  standing : Standing p messages tr x.factory es pledges x.publication.phase x.publication.printed

section

variable {p : Publication} {messages : List String} {tr : List (Label × Factory)} {x : Scene}
  {q : Publication} {s s' : Factory} {l : Label} {c : CallId} {call : Option CallId} {o : Outcome}

/-! ## 1. The calls -/

theorem Publication.requestOf_eq (p : Publication) (message : String) :
    p.requestOf message = match p.target? with
      | some t => .want ⟨t, .send (specOf message) p.delivery⟩
      | none => .refuse .noDefaultTopic := by
  unfold requestOf target? specOf
  rw [← Utf8.encode_eq_toUTF8]
  cases p.topic with
  | some t => rfl
  | none =>
    dsimp only
    rw [Template.sendDefault_eq]
    cases p.template.defaultTopic <;> rfl

theorem Publication.next?_eq (q : Publication) {r : Request} (h : q.next? = some r) :
    (∃ message left pending, q.phase = .sending message left pending ∧ r = q.requestOf message) ∨
      (∃ e left n, q.phase = .collecting e left n ∧ r = .await e) ∨
      ∃ f, q.phase = .closing f ∧ r = .shutdown := by
  unfold Publication.next? at h
  split at h
  · next hphase => exact .inl ⟨_, _, _, hphase, (Option.some.inj h).symm⟩
  · next hphase => exact .inr (.inl ⟨_, _, _, hphase, (Option.some.inj h).symm⟩)
  · next hphase => exact .inr (.inr ⟨_, hphase, (Option.some.inj h).symm⟩)
  · cases h

theorem smooth_call (s : Factory) {r : Request} (h : q.next? = some r) : Smooth s (.call r) := by
  rcases q.next?_eq h with ⟨message, _, _, -, rfl⟩ | ⟨_, _, _, -, rfl⟩ | ⟨_, -, rfl⟩
  · rw [Publication.requestOf_eq]
    cases q.target? <;> exact ⟨trivial, nofun⟩
  · exact ⟨trivial, nofun⟩
  · exact ⟨trivial, nofun⟩

theorem take_template (q : Publication) (o : Outcome) : (q.take o).template = q.template ∧
    (q.take o).topic = q.topic ∧ (q.take o).delivery = q.delivery := by
  unfold Publication.take Publication.print
  split <;> exact ⟨rfl, rfl, rfl⟩

theorem take_finished {f : Option CommandFault} (h : (q.take o).phase = .finished f) :
    q.phase = .closing f ∨ q.phase = .finished f := by
  have hcollect : ∀ ps n, Phase.collect ps n ≠ .finished f := by
    intro ps n
    cases ps <;> exact nofun
  have hsend : ∀ ms ps, Phase.send ms ps ≠ .finished f := by
    intro ms ps
    cases ms with
    | nil => exact hcollect ps 0
    | cons => exact nofun
  unfold Publication.take Publication.print at h
  split at h
  · exact (hsend _ _ h).elim
  · exact (hsend _ _ h).elim
  · cases h
  · exact (hsend _ _ h).elim
  · exact (hcollect _ _ h).elim
  · exact (hcollect _ _ h).elim
  · next hphase =>
    cases h
    exact .inl hphase
  · next hphase =>
    cases h
    exact .inr hphase

theorem take_shut {f : Option CommandFault} (h : q.phase = .closing f ∨ q.phase = .finished f) :
    (q.take o).phase = .finished f := by
  unfold Publication.take
  rcases h with h | h <;> rw [h]

theorem Kept.called {r : Request} (k : Kept p tr ⟨q, s, none⟩) (hnext : q.next? = some r)
    (hs : s.step (.call r) = some s') : Kept p ((.call r, s) :: tr) ⟨q, s', some s.calls.size⟩ where
  run := .step k.run (smooth_call s hnext) hs
  template := k.template
  topic := k.topic
  delivery := k.delivery
  current c hc := by
    cases hc
    exact ⟨r, hnext, s, List.mem_cons_self, rfl⟩
  past i r' hm hi := by
    rcases hm.cons_or with ⟨-, rfl⟩ | hm
    · exact (hi rfl).elim
    · obtain ⟨o, ho⟩ := k.past i r' hm nofun
      have hrun := k.run.step (smooth_call s hnext) hs
      exact ⟨o, (hrun.of_smooth.lasts List.mem_cons_self).ended ho rfl⟩
  shut i hm := by
    rcases hm.cons_or with ⟨hl, -⟩ | hm
    · cases hl
      rcases q.next?_eq hnext with ⟨m, _, _, -, he⟩ | ⟨_, _, _, -, he⟩ | ⟨f, hphase, -⟩
      · rw [Publication.requestOf_eq] at he
        cases ht : q.target? <;> rw [ht] at he <;> cases he
      · cases he
      · exact ⟨f, .inl hphase⟩
    · exact k.shut i hm
  closed f hf := by
    have hnone : q.next? = none := by
      unfold Publication.next?
      rw [hf]
    cases hnone.symm.trans hnext

theorem Kept.stepped (k : Kept p tr ⟨q, s, call⟩) (hno : ∀ r, l ≠ .call r) (hl : Smooth s l)
    (hs : s.step l = some s') : Kept p ((l, s) :: tr) ⟨q, s', call⟩ where
  run := .step k.run hl hs
  template := k.template
  topic := k.topic
  delivery := k.delivery
  current c hc := by
    obtain ⟨r, hr, hm⟩ := k.current c hc
    exact ⟨r, hr, hm.cons _⟩
  past i r hm hi := by
    obtain ⟨o, ho⟩ := k.past i r (hm.cons_or.resolve_left fun h => hno r h.1) hi
    exact ⟨o, ((k.run.step hl hs).of_smooth.lasts List.mem_cons_self).ended ho rfl⟩
  shut i hm := k.shut i (hm.cons_or.resolve_left fun h => hno _ h.1)
  closed f hf := k.run.of_smooth.step_closed hl.publicOnly hs (k.closed f hf)

theorem Kept.taken (k : Kept p tr ⟨q, s, some c⟩) (hc : s.calls.get? c = some (.ended o)) :
    Kept p tr ⟨q.take o, s, none⟩ where
  run := k.run
  template := (take_template q o).1.trans k.template
  topic := (take_template q o).2.1.trans k.topic
  delivery := (take_template q o).2.2.trans k.delivery
  current := nofun
  past i r hm _ := by
    by_cases hi : i = c
    · exact ⟨o, hi ▸ hc⟩
    · exact k.past i r hm fun h => hi (Option.some.inj h).symm
  shut i hm := by
    obtain ⟨f, hf⟩ := k.shut i hm
    exact ⟨f, .inr (take_shut hf)⟩
  closed f hf := by
    rcases take_finished hf with hf | hf
    · -- The call that is over is the shutdown.
      obtain ⟨r, hr, hm⟩ := k.current c rfl
      have hshut : q.next? = some .shutdown := by
        unfold Publication.next?
        rw [hf]
      cases hshut.symm.trans hr
      rcases k.run.closed_of_shut hm with hfresh | hcl
      · cases hfresh.symm.trans hc
      · exact hcl
    · exact k.closed f hf

theorem Course.kept (h : Course p tr x) (hp : ∀ f, p.phase ≠ .finished f) : Kept p tr x := by
  induction h with
  | begin =>
    exact ⟨.new, rfl, rfl, rfl, nofun, fun _ _ ⟨_, hm, _⟩ => (nomatch hm),
      fun _ ⟨_, hm, _⟩ => (nomatch hm), fun f hf => (hp f hf).elim⟩
  | call _ hnext hs ih => exact ih.called hnext hs
  | step _ hno hl hs ih => exact ih.stepped hno hl hs
  | take _ hc ih => exact ih.taken hc

/-! ## 2. Outcomes -/

theorem turnout {message : String} (h : Run Smooth tr s) (hopen : s.cache.closed = false)
    (hmade : Made tr c (p.requestOf message)) (hc : s.calls.get? c = some (.ended o)) :
    Turnout p tr s c message o := by
  have st := h.of_smooth.orderly.storied
  rw [Publication.requestOf_eq] at hmade
  cases ht : p.target? with
  | none =>
    rw [ht] at hmade
    have hnone := h.hands_nothing fun w hw => by cases st.requested.once c _ _ hmade hw
    cases st.story c _ hc (fun _ => nofun) with
    | ended hmade' hends =>
      cases st.requested.once c _ _ hmade hmade'
      cases hends with
      | refuse => exact .refused hnone (.noDefaultTopic ht) (.inl ht)
      | count hr => rcases hr with hr | hr <;> cases hr
    | delivered hno => exact (hno _ hmade).elim
  | some t =>
    rw [ht] at hmade
    cases st.ends_want hmade hc with
    | handle hp => rcases hp with hp | hp <;> cases hp
    | lease hp => cases hp
    | refused hcl => cases hopen.symm.trans hcl
    | uncreated hnone hasked ha =>
      exact .refused hnone (.uncreated ht hasked ha) (.inr ⟨_, _, mem_deeds.2 ⟨hasked, rfl⟩⟩)
    | @receipt _ m v u r hp htopic hone ha =>
      injection hp with hm hd
      subst hm
      refine .receipt hd ht htopic ?_ (.receipt ha)
      rw [hone, hd]
      rfl
    | promised =>
      obtain ⟨u, m, hp, ⟨v, htopic, hone⟩, -⟩ := h.told_of_promise hmade hc
      injection hp with hm hd
      subst hm
      refine .promised (u := u) hd ht htopic ?_
      rw [hone, hd]
      rfl
    | count hr => rcases hr with hr | hr <;> cases hr

/-- A call that waited for a promise ended with what the wire client told of its message. -/
theorem Pledged.settlement {e : Pledge} (h : Run Smooth tr s) (hpl : Pledged p tr s e)
    (hmade : Made tr c (.await e.promise)) (hc : s.calls.get? c = some (.ended o)) :
    ∃ r t, Told tr e.ticket r ∧ p.target? = some t ∧ o = endOf (resultOf t r) := by
  have st := h.of_smooth.orderly.storied
  obtain ⟨i, w, d, hw, ht, hi, hone⟩ := hpl
  cases st.story c _ hc (fun _ => nofun) with
  | ended hmade' hends =>
    cases st.requested.once c _ _ hmade hmade'
    cases hends with
    | await hq hr =>
      obtain ⟨u, m, -, ⟨v, -, hone'⟩, htold⟩ := h.told_of_promise hw hi
      cases hone.symm.trans hone'
      obtain ⟨x, hx, rfl⟩ := htold _ _ hq hr
      exact ⟨x, w.topic, hx, ht, rfl⟩
    | count hr => rcases hr with hr | hr <;> cases hr
  | delivered hno => exact (hno _ hmade).elim

/-! ## 3. What comes next -/

theorem ids_append (es : List Entry) (e : Entry) :
    ids (es ++ [e]) = ids es ++ e.result.toOption.toList := by
  unfold ids
  rw [List.filterMap_append]
  cases hr : e.result <;> simp [hr, Except.toOption]

theorem failures_append (es : List Entry) (e : Entry) :
    failures (es ++ [e]) = failures es + if e.result.toOption.isNone then 1 else 0 := by
  unfold failures
  rw [List.countP_append, List.countP_singleton]

theorem Standing.collect {es : List Entry} {pledges : List Pledge} (hd : p.delivery = .promised)
    (hm : messages = es.map Entry.message ++ pledges.map Pledge.message) :
    Standing p messages tr s es pledges
      (Phase.collect (pledges.map Pledge.promise) (failures es)) (ids es) := by
  cases pledges with
  | nil =>
    refine .closing rfl ?_
    unfold Phase.faultOf
    split
    · next hn => exact .collected hd (hm.trans (List.append_nil _)) hn
    · next hn => exact .undelivered hd (hm.trans (List.append_nil _)) hn
  | cons e left => exact .collecting hd rfl hm

theorem Standing.send {es : List Entry} {pledges : List Pledge} {left : List String}
    (hm : messages = es.map Entry.message ++ pledges.map Pledge.message ++ left)
    (ha : p.delivery = .acknowledged → pledges = [] ∧ ∀ e ∈ es, e.Succeeded)
    (hp : p.delivery = .promised → es = []) :
    Standing p messages tr s es pledges
      (Phase.send left (pledges.map Pledge.promise)) (ids es) := by
  cases left with
  | cons message left => exact .sending hm ha hp
  | nil =>
    rw [List.append_nil] at hm
    cases hd : p.delivery with
    | acknowledged =>
      obtain ⟨rfl, hok⟩ := ha hd
      exact .closing rfl (.delivered hd (hm.trans (List.append_nil _)) hok)
    | promised =>
      obtain rfl := hp hd
      exact .collect hd hm

/-! ## 4. The books -/

section

variable {v : HandleId} {es : List Entry} {pledges : List Pledge}

theorem Kept.requestOf (k : Kept p tr x) (message : String) :
    x.publication.requestOf message = p.requestOf message := by
  unfold Publication.requestOf
  rw [k.template, k.topic, k.delivery]

/-- While messages are sent, the call under way is the one that sends the message. -/
theorem Kept.sending {message : String} {left : List String} {ps : List PendingId} (k : Kept p tr x)
    (hphase : x.publication.phase = .sending message left ps) (hc : x.call = some c) :
    Made tr c (p.requestOf message) := by
  obtain ⟨r, hr, hm⟩ := k.current c hc
  have hnext : x.publication.next? = some (x.publication.requestOf message) := by
    unfold Publication.next?
    rw [hphase]
  cases hnext.symm.trans hr
  exact k.requestOf message ▸ hm

/-- As long as messages are sent, nobody has shut the factory down. -/
theorem Kept.undrained (k : Kept p tr x) (h : x.publication.phase.isSending = true) :
    drainCount tr = 0 ∧ x.factory.cache.closed = false := by
  refine k.run.undrained_of_unshut fun i hm => ?_
  obtain ⟨f, hf⟩ := k.shut i hm
  rcases hf with hf | hf <;> rw [hf] at h <;> cases h

theorem Refusal.mono {target : Option String} {e : Error} (h : Refusal target tr s e) (hl : Lasts s s')
    (y : Label × Factory) : Refusal target (y :: tr) s' e := by
  cases h with
  | noDefaultTopic ht => exact .noDefaultTopic ht
  | uncreated ht hasked ha => exact .uncreated ht (hl.asked hasked) (ha.cons y)

theorem Verdict.mono {target : Option String} {delivery : Delivery} {fault : Option CommandFault}
    {printed : List MessageId} (h : Verdict target delivery messages tr s es fault printed)
    (hl : Lasts s s') (y : Label × Factory) :
    Verdict target delivery messages (y :: tr) s' es fault printed := by
  cases h with
  | unsent hm he hr => exact .unsent hm he (hr.mono hl y)
  | delivered hd hm hok => exact .delivered hd hm hok
  | failed hd he hm hok hx ht => exact .failed hd he hm hok hx ht
  | collected hd hm hn => exact .collected hd hm hn
  | undelivered hd hm hn => exact .undelivered hd hm hn

theorem Standing.mono {phase : Phase} {printed : List MessageId}
    (h : Standing p messages tr s es pledges phase printed) (hl : Lasts s s') (y : Label × Factory) :
    Standing p messages (y :: tr) s' es pledges phase printed := by
  cases h with
  | sending hm ha hp => exact .sending hm ha hp
  | collecting hd he hm => exact .collecting hd he hm
  | closing he hv => exact .closing he (hv.mono hl y)
  | finished he hv => exact .finished he (hv.mono hl y)

/-- A step adds nothing to the books, but it may add to the messages of the call under way. -/
theorem Books.grow {call' : Option CallId} (b : Books p messages tr ⟨q, s, call⟩ v es pledges)
    (h : Run Smooth tr s) (hl : Smooth s l) (hs : s.step l = some s')
    (hhandings : ∀ xs, Factory.handings s = xs ++ call.toList.flatMap (handed s) →
      Factory.handings s' = xs ++ call'.toList.flatMap (handed s'))
    (hcached : es ≠ [] ∨ pledges ≠ [] → q.phase.isSending = true → ∀ t, p.target? = some t →
      s'.cache.handle? t = some v ∧
        ∀ c, call' = some c → ∀ u t', .asked c u (.openProducer t') ∉ s'.deeds) :
    Books p messages ((l, s) :: tr) ⟨q, s', call'⟩ v es pledges where
  handings := hhandings _ b.handings
  told e he := (b.told e he).cons _
  pledged e he := by
    obtain ⟨c, w, d, hm, ht, hc, hone⟩ := b.pledged e he
    obtain ⟨xs, -, -, hsame, -⟩ := h.of_smooth.step_handings hl.publicOnly hs
    have hlasts := (h.step hl hs).of_smooth.lasts List.mem_cons_self
    exact ⟨c, w, d, hm.cons _, ht, hlasts.ended hc rfl,
      (hsame c (not_actor_of_ended hs hc)).trans hone⟩
  topic hne := by
    obtain ⟨t, ht, htopic⟩ := b.topic hne
    exact ⟨t, ht, topic?_later (h.of_smooth.step_later hl.publicOnly hs) htopic⟩
  cached := hcached
  standing := b.standing.mono ((h.step hl hs).of_smooth.lasts List.mem_cons_self) _

theorem Books.called {r : Request} (b : Books p messages tr ⟨q, s, none⟩ v es pledges)
    (k : Kept p tr ⟨q, s, none⟩) (hnext : q.next? = some r) (hs : s.step (.call r) = some s') :
    Books p messages ((.call r, s) :: tr) ⟨q, s', some s.calls.size⟩ v es pledges := by
  have hl := smooth_call s hnext
  have hrun := k.run.step hl hs
  have hnew : s'.calls.get? s.calls.size = some (.fresh r) := by
    cases hs
    exact (Registry.get?_add _ _ _).trans (if_pos rfl)
  refine b.grow k.run hl hs (fun xs hxs => ?_) fun hne hsend t ht => ⟨?_, ?_⟩
  · obtain ⟨ys, hys, -, hsame, hnone⟩ := k.run.of_smooth.step_handings hl.publicOnly hs
    have hsilent : handed s s.calls.size = [] :=
      k.run.of_smooth.orderly.storied.silent _ ((Registry.get?_eq_none_iff _ _).2 (Nat.le_refl _))
    have hcall : handed s' s.calls.size = [] := (hsame _ nofun).trans hsilent
    rw [hys, hxs, hnone rfl]
    simp [hcall]
  · exact k.run.of_smooth.step_cached hl.publicOnly hs rfl (b.cached hne hsend t ht).1
  · rintro c ⟨⟩ u t' hm
    obtain ⟨y, hy, hno⟩ := hrun.of_smooth.begun (mem_deeds.1 hm).1
    exact hno r (Option.some.inj (hy.symm.trans hnew))

theorem Books.stepped (b : Books p messages tr ⟨q, s, call⟩ v es pledges)
    (k : Kept p tr ⟨q, s, call⟩) (hno : ∀ r, l ≠ .call r) (hl : Smooth s l) (hs : s.step l = some s') :
    Books p messages ((l, s) :: tr) ⟨q, s', call⟩ v es pledges := by
  have hk := k.stepped hno hl hs
  refine b.grow k.run hl hs (fun xs hxs => ?_) fun hne hsend t ht => ?_
  · obtain ⟨ys, hys, hmine, hsame, hnone⟩ := k.run.of_smooth.step_handings hl.publicOnly hs
    have hother : (∀ c, call = some c → l.actor? ≠ some c) → ys = [] →
        Factory.handings s' = xs ++ call.toList.flatMap (handed s') := by
      intro hne hys'
      rw [hys, hxs, hys', List.append_nil]
      cases call with
      | none => rfl
      | some c => simp [hsame c (hne c rfl)]
    cases hact : l.actor? with
    | none => exact hother (fun c _ h => by cases hact.symm.trans h) (hnone hact)
    | some i =>
      by_cases hi : call = some i
      · subst hi
        rw [hys, hxs]
        simp [hmine i hact]
      · -- Another call than the one under way was not made by the publication, or it is over.
        have hnothing : handed s' i = [] := by
          refine hk.run.hands_nothing fun w hw => ?_
          obtain ⟨o, ho⟩ := k.past i _ (hw.cons_or.resolve_left fun h => hno _ h.1) hi
          exact not_actor_of_ended hs ho hact
        refine hother (fun c hc h => hi (hc.trans (h.symm.trans hact))) ?_
        exact (List.append_eq_nil_iff.1 ((hmine i hact).symm.trans hnothing)).2
  · have hd := (hk.undrained hsend).1
    obtain ⟨hcached, hun⟩ := b.cached hne hsend t ht
    have hl' := isDrain_of_undrained hd
    refine ⟨k.run.of_smooth.step_cached hl.publicOnly hs hl' hcached, fun c hc => ?_⟩
    obtain ⟨m, left, ps, hphase⟩ : ∃ m left ps, q.phase = .sending m left ps := by
      cases hq : q.phase with
      | sending => exact ⟨_, _, _, rfl⟩
      | _ =>
        rw [hq] at hsend
        cases hsend
    have hm := k.sending hphase hc
    rw [Publication.requestOf_eq, ht] at hm
    exact k.run.of_smooth.step_unasked hl.publicOnly hs (k.undrained hsend).1 hl' hcached hm (hun c hc)

theorem Standing.of_sending {message : String} {left : List String} {ps : List PendingId}
    {printed : List MessageId}
    (h : Standing p messages tr s es pledges (.sending message left ps) printed) :
    messages = es.map Entry.message ++ pledges.map Pledge.message ++ message :: left ∧
      (p.delivery = .acknowledged → pledges = [] ∧ ∀ e ∈ es, e.Succeeded) ∧
      (p.delivery = .promised → es = []) ∧ ps = pledges.map Pledge.promise ∧ printed = ids es := by
  cases h with
  | sending hm ha hp => exact ⟨hm, ha, hp, rfl, rfl⟩

/-- The producer in the books is the one that the message of the call under way goes to. -/
theorem Books.same_producer {v' : HandleId} {u : Ticket} {d : Delivery} {m : String} {w : Want}
    (b : Books p messages tr ⟨q, s, some c⟩ v es pledges) (k : Kept p tr ⟨q, s, some c⟩)
    (hsend : q.phase.isSending = true) (hmade : Made tr c (.want w)) (ht : p.target? = some w.topic)
    (hone : handed s c = [handover v' d m u]) :
    Books p messages tr ⟨q, s, some c⟩ v' es pledges ∧ s.cache.handle? w.topic = some v' := by
  have hcached : s.cache.handle? w.topic = some v' := by
    refine k.run.of_smooth.handed_cached (u := u) (k.undrained hsend).1 hmade
      (hone ▸ List.mem_singleton_self _) ?_
    cases d <;> rfl
  refine ⟨?_, hcached⟩
  by_cases hne : es ≠ [] ∨ pledges ≠ []
  · cases (b.cached hne hsend _ ht).1.symm.trans hcached
    exact b
  · obtain ⟨rfl, rfl⟩ : es = [] ∧ pledges = [] := by simpa using hne
    exact ⟨b.handings, b.told, b.pledged, fun h => (hne h).elim, fun h => (hne h).elim, b.standing⟩

/-- The message of the call under way is entered. -/
theorem Books.enter {q' : Publication} {e : Entry} {t : String}
    (b : Books p messages tr ⟨q, s, some c⟩ v es []) (hone : handed s c = [e.handover v p.delivery])
    (htold : Told tr e.ticket e.result) (ht : p.target? = some t) (htopic : s.topic? v = some t)
    (hcached : s.cache.handle? t = some v)
    (hst : Standing p messages tr s (es ++ [e]) [] q'.phase q'.printed) :
    Books p messages tr ⟨q', s, none⟩ v (es ++ [e]) [] where
  handings := by
    rw [b.handings]
    simp [hone]
  told e' he := by
    rcases List.mem_append.1 he with he | he
    · exact b.told e' he
    · cases List.mem_singleton.1 he
      exact htold
  pledged := nofun
  topic _ := ⟨t, ht, htopic⟩
  cached _ _ t' ht' := by
    cases ht.symm.trans ht'
    exact ⟨hcached, nofun⟩
  standing := hst

/-- A pledge is made for the message of the call under way. -/
theorem Books.pledge {q' : Publication} {e : Pledge} {w : Want}
    (b : Books p messages tr ⟨q, s, some c⟩ v [] pledges) (hmade : Made tr c (.want w))
    (hc : s.calls.get? c = some (.ended (.promised e.promise)))
    (hone : handed s c = [e.handover v p.delivery]) (ht : p.target? = some w.topic)
    (htopic : s.topic? v = some w.topic) (hcached : s.cache.handle? w.topic = some v)
    (hst : Standing p messages tr s [] (pledges ++ [e]) q'.phase q'.printed) :
    Books p messages tr ⟨q', s, none⟩ v [] (pledges ++ [e]) where
  handings := by
    rw [b.handings]
    simp [hone]
  told := nofun
  pledged e' he := by
    rcases List.mem_append.1 he with he | he
    · exact b.pledged e' he
    · cases List.mem_singleton.1 he
      exact ⟨c, w, _, hmade, ht, hc, hone⟩
  topic _ := ⟨_, ht, htopic⟩
  cached _ _ t' ht' := by
    cases ht.symm.trans ht'
    exact ⟨hcached, nofun⟩
  standing := hst

/-- Only the first message is refused: after it, the topic and its producer are there. -/
theorem Books.first {message : String} {left : List String} {ps : List PendingId}
    (b : Books p messages tr ⟨q, s, some c⟩ v es pledges) (hphase : q.phase = .sending message left ps)
    (hor : p.target? = none ∨ ∃ u t, .asked c u (.openProducer t) ∈ s.deeds) :
    es = [] ∧ pledges = [] := by
  by_contra hnot
  have hne : es ≠ [] ∨ pledges ≠ [] := by
    by_cases he : es = []
    · exact .inr fun hp => hnot ⟨he, hp⟩
    · exact .inl he
  obtain ⟨t, ht, -⟩ := b.topic hne
  rcases hor with hno | ⟨u, t', hasked⟩
  · cases hno.symm.trans ht
  · have hsend : q.phase.isSending = true := by rw [hphase]; rfl
    exact (b.cached hne hsend t ht).2 c rfl u t' hasked

/-- The outcome of a call that sent a message is taken. -/
theorem Books.sent {message : String} {left : List String} {ps : List PendingId}
    (b : Books p messages tr ⟨q, s, some c⟩ v es pledges) (k : Kept p tr ⟨q, s, some c⟩)
    (hphase : q.phase = .sending message left ps) (hc : s.calls.get? c = some (.ended o)) :
    ∃ v es pledges, Books p messages tr ⟨q.take o, s, none⟩ v es pledges := by
  have hmade := k.sending hphase rfl
  have hsend : q.phase.isSending = true := by rw [hphase]; rfl
  have hturnout := turnout k.run (k.undrained hsend).2 hmade hc
  obtain ⟨hm, hack, hprom, rfl, hprinted⟩ := Standing.of_sending (hphase ▸ b.standing)
  obtain ⟨template, topic, delivery, _, printed⟩ := q
  cases hphase
  cases hprinted
  cases hturnout with
  | refused hnone hr hor =>
    obtain ⟨rfl, rfl⟩ := b.first rfl hor
    refine ⟨v, [], [], ?_, fun _ => nofun, fun _ => nofun, fun h => (by simp at h), fun _ => nofun, ?_⟩
    · simpa [hnone] using b.handings
    · exact .closing rfl (.unsent hm rfl hr)
  | @receipt v' u t r hd ht htopic hone htold =>
    rw [Publication.requestOf_eq, ht] at hmade
    obtain ⟨b', hcached⟩ := b.same_producer k rfl hmade ht hone
    obtain ⟨rfl, hok⟩ := hack hd
    have hm' : messages = (es ++ [Entry.mk message u r]).map Entry.message ++ left := by simpa using hm
    refine ⟨v', es ++ [⟨message, u, r⟩], [],
      b'.enter (e := ⟨message, u, r⟩) hone htold ht htopic hcached ?_⟩
    cases r with
    | ok id =>
      have hprinted : ids es ++ [id] = ids (es ++ [⟨message, u, .ok id⟩]) :=
        (ids_append es ⟨message, u, .ok id⟩).symm
      show Standing p messages tr s _ _ (Phase.send left ([].map Pledge.promise)) (ids es ++ [id])
      rw [hprinted]
      refine .send (by simpa using hm') (fun _ => ⟨rfl, fun e he => ?_⟩)
        fun h => by cases hd.symm.trans h
      rcases List.mem_append.1 he with he | he
      · exact hok e he
      · cases List.mem_singleton.1 he
        exact ⟨id, rfl⟩
    | error x => exact .closing rfl (.failed hd rfl hm' hok rfl ht)
  | @promised v' u t q' hd ht htopic hone =>
    rw [Publication.requestOf_eq, ht] at hmade
    obtain ⟨b', hcached⟩ := b.same_producer k rfl hmade ht hone
    obtain rfl := hprom hd
    have hpending : pledges.map Pledge.promise ++ [q'] =
        (pledges ++ [Pledge.mk message u q']).map Pledge.promise := by simp
    refine ⟨v', [], pledges ++ [⟨message, u, q'⟩],
      b'.pledge (e := ⟨message, u, q'⟩) hmade hc hone ht htopic hcached ?_⟩
    show Standing p messages tr s _ _ (Phase.send left (pledges.map Pledge.promise ++ [q'])) (ids [])
    rw [hpending]
    exact .send (by simpa using hm) (fun h => by cases hd.symm.trans h) fun _ => rfl

/-- A call that sends no message has handed over none. -/
theorem Kept.hands_nothing {r : Request} (k : Kept p tr ⟨q, s, some c⟩) (hnext : q.next? = some r)
    (hr : ∀ w, r ≠ .want w) : handed s c = [] ∧ Made tr c r := by
  obtain ⟨r', hr', hm⟩ := k.current c rfl
  cases hnext.symm.trans hr'
  refine ⟨k.run.hands_nothing fun w hw => hr w ?_, hm⟩
  exact k.run.of_smooth.orderly.storied.requested.once c _ _ hm hw

/-- The outcome of a call that waited for a promise is taken. -/
theorem Books.collected {i : PendingId} {left : List PendingId} {n : Nat}
    (b : Books p messages tr ⟨q, s, some c⟩ v es pledges) (k : Kept p tr ⟨q, s, some c⟩)
    (hphase : q.phase = .collecting i left n) (hc : s.calls.get? c = some (.ended o)) :
    ∃ v es pledges, Books p messages tr ⟨q.take o, s, none⟩ v es pledges := by
  obtain ⟨template, topic, delivery, _, printed⟩ := q
  cases hphase
  obtain ⟨hnone, hmade⟩ := k.hands_nothing rfl fun _ => nofun
  have hbooks := b.handings
  have hst := b.standing
  cases hst with
  | @collecting e rest hd he hm =>
    subst he
    obtain ⟨r, t, htold, ht, rfl⟩ := (b.pledged e List.mem_cons_self).settlement k.run hmade hc
    have hsend : ∀ {o : Outcome}, (Publication.take ⟨template, topic, delivery,
        .collecting e.promise (rest.map Pledge.promise) (failures es), ids es⟩ o).phase.isSending ≠ true := by
      intro o
      cases o <;> cases rest <;> exact nofun
    refine ⟨v, es ++ [⟨e.message, e.ticket, r⟩], rest, ?_, ?_, ?_, ?_, fun _ h => (hsend h).elim, ?_⟩
    · simpa [hnone, Entry.handover, Pledge.handover] using hbooks
    · intro e' he'
      rcases List.mem_append.1 he' with he' | he'
      · exact b.told e' he'
      · cases List.mem_singleton.1 he'
        exact htold
    · exact fun e' he' => b.pledged e' (List.mem_cons_of_mem e he')
    · exact fun _ => b.topic (.inr (List.cons_ne_nil _ _))
    · have hm' : messages = (es ++ [Entry.mk e.message e.ticket r]).map Entry.message ++
          rest.map Pledge.message := by simpa using hm
      have hcollect : Standing p messages tr s _ _ _ _ := .collect hd hm'
      rw [failures_append, ids_append] at hcollect
      cases r with
      | ok id => exact hcollect
      | error x =>
        rw [show (Except.error x : Except ClientError MessageId).toOption.toList = [] from rfl,
          List.append_nil] at hcollect
        exact hcollect

/-- The outcome of the shutdown is taken. -/
theorem Books.shut {f : Option CommandFault} (b : Books p messages tr ⟨q, s, some c⟩ v es pledges)
    (k : Kept p tr ⟨q, s, some c⟩) (hphase : q.phase = .closing f) :
    Books p messages tr ⟨q.take o, s, none⟩ v es pledges := by
  obtain ⟨template, topic, delivery, _, printed⟩ := q
  cases hphase
  obtain ⟨hnone, -⟩ := k.hands_nothing rfl fun _ => nofun
  refine ⟨?_, b.told, b.pledged, b.topic, fun _ => nofun, ?_⟩
  · simpa [hnone] using b.handings
  · have hst := b.standing
    cases hst with
    | closing he hv => exact .finished he hv

end

end

/-- The books are right all along, whatever the wire client answers. -/
theorem Course.books {p : Publication} {messages : List String} {tr : List (Label × Factory)} {x : Scene}
    (h : Course p tr x) (hp : ∀ f, p.phase ≠ .finished f)
    (hbegin : Standing p messages [] .new [] [] p.phase p.printed) :
    ∃ v es pledges, Books p messages tr x v es pledges := by
  induction h with
  | begin => exact ⟨0, [], [], rfl, nofun, nofun, fun h => (by simp at h), nofun, hbegin⟩
  | call h hnext hs ih =>
    obtain ⟨v, es, pledges, b⟩ := ih
    exact ⟨v, es, pledges, b.called (h.kept hp) hnext hs⟩
  | step h hno hl hs ih =>
    obtain ⟨v, es, pledges, b⟩ := ih
    exact ⟨v, es, pledges, b.stepped (h.kept hp) hno hl hs⟩
  | @take tr q s c o h hc ih =>
    obtain ⟨v, es, pledges, b⟩ := ih
    have k := h.kept hp
    obtain ⟨r, hr, -⟩ := k.current c rfl
    rcases q.next?_eq hr with ⟨_, _, _, hphase, -⟩ | ⟨_, _, _, hphase, -⟩ | ⟨_, hphase, -⟩
    · exact b.sent k hphase hc
    · exact b.collected k hphase hc
    · exact ⟨v, es, pledges, b.shut k hphase⟩

end CommandLine

end TopicPublisher
