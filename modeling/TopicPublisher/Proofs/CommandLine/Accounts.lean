import TopicPublisher.Proofs.CommandLine.Input
import TopicPublisher.Proofs.CommandLine.Performance

/-!
# The command accounts for every message

The command sends what its arguments give it or, without any, the lines of the standard input that are not
empty. Whatever the wire client answers, it either waits for each message before the next one and ends with
the first that fails, or hands all of them over and counts those that fail. A pending send would be
forgotten where a later one is refused, but only the first send can be refused: after it the topic's
producer is in the cache, and nobody takes it out before the shutdown.

Results:
1. `publicationOf_given`, `publicationOf_unread`: what there is to publish.
2. `Books.in_order`, `Books.one_by_one`: what is so all along.
3. `Course.unread`: without a text nothing is sent.
4. `Course.closed`: what is left of the producers.
5. `publication_accounted`: all this, in every course of the command's publication.
6. `Performance.accounted`: so it is when the command runs.
-/

namespace TopicPublisher

namespace CommandLine

open Factory

/-! ## Definitions -/

/-- How the command is asked to send. -/
def Arguments.delivery (a : Arguments) : Delivery := if a.pipelined then .promised else .acknowledged

/-- The canonical text of the topic that the command is asked to send to. -/
def Arguments.target? (a : Arguments) (template : Template) : Option String :=
  (a.topic.or template.defaultTopic).map canonicalize

/-- The messages that the command is given. -/
inductive Given (a : Arguments) (input : Bytes) : List String → Prop
  | positional : a.messages ≠ [] → Given a input a.messages
  | piped {text : String} {ls : List (List Char)} : a.messages = [] →
      input = text.toUTF8.data.toList → Lines text.toList ls → Given a input (messagesIn ls)

/-- The accounts of the command, in a scene of its publication.

* `unread`: bytes that are no text are not sent.
* `inOrder`: all along, one producer of the topic has been handed the first messages, each of them once
  and in order.
* `oneByOne`: when the command waits for each message, a message is handed over only when those before
  it arrived.
* `goesOn`: before the end there is a call to make, and each outcome brings the end nearer.
* `verdict`: in the end there is an entry for each message that was handed over.
* `closed`: in the end every producer was closed once, and nobody borrows it. -/
structure Accounts (a : Arguments) (template : Template) (input : Bytes)
    (tr : List (Label × Factory)) (x : Scene) : Prop where
  unread : a.messages = [] → (∀ text : String, input ≠ text.toUTF8.data.toList) →
    x.factory.handings = [] ∧ x.publication.printed = [] ∧
      ∀ fault, x.publication.phase = .finished fault → ∃ f, fault = some (.input f)
  inOrder : ∀ messages, Given a input messages → ∃ v ms, ms <+: messages ∧
    (ms ≠ [] → ∃ t, a.target? template = some t ∧ x.factory.topic? v = some t) ∧
    x.factory.handings.map Prod.snd =
      ms.map fun m => Demand.sending v (specOf m) a.delivery .pipelined
  oneByOne : a.pipelined = false → ∀ before y, x.factory.handings = before ++ [y] →
    ∀ z ∈ before, ∃ id, Told tr z.1 (.ok id)
  goesOn : (∃ fault, x.publication.phase = .finished fault) ∨ ∃ r, x.publication.next? = some r ∧
    ∀ o, (x.publication.take o).phase.callsLeft < x.publication.phase.callsLeft
  verdict : ∀ messages fault, Given a input messages → x.publication.phase = .finished fault →
    ∃ v es, x.factory.handings = es.map (Entry.handover v a.delivery) ∧
      (∀ e ∈ es, Told tr e.ticket e.result) ∧
      (es ≠ [] → ∃ t, a.target? template = some t ∧ x.factory.topic? v = some t) ∧
      Verdict (a.target? template) a.delivery messages tr x.factory es fault x.publication.printed
  closed : ∀ fault v y, x.publication.phase = .finished fault → x.factory.handles.get? v = some y →
    x.factory.closeCount v = 1 ∧ y.borrows = 0

section

variable {a : Arguments} {template : Template} {input : Bytes} {p : Publication}
  {messages : List String} {tr : List (Label × Factory)} {x : Scene}

/-! ## 1. What there is to publish -/

theorem publicationOf_given (template : Template) (h : Given a input messages) :
    publicationOf a template input = .begin template a.topic a.delivery messages := by
  unfold publicationOf
  cases h with
  | positional hne =>
    rw [if_neg (by simpa using hne)]
    rfl
  | piped hnone htext hls =>
    rw [if_pos (by simpa using hnone), messagesOf_eq_ok_iff.2 ⟨_, _, htext, hls, rfl⟩]
    rfl

theorem publicationOf_unread (template : Template) (hnone : a.messages = [])
    (h : ∀ text : String, input ≠ text.toUTF8.data.toList) :
    ∃ f, publicationOf a template input = .failed template (.input f) := by
  unfold publicationOf
  rw [if_pos (by simpa using hnone)]
  cases hm : messagesOf input with
  | ok ms =>
    obtain ⟨text, -, htext, -⟩ := messagesOf_eq_ok_iff.1 hm
    exact (h text htext).elim
  | error f => exact ⟨f, rfl⟩

theorem Given.not_unread (h : Given a input messages) (hnone : a.messages = [])
    (htext : ∀ text : String, input ≠ text.toUTF8.data.toList) : False := by
  cases h with
  | positional hne => exact hne hnone
  | piped _ hin => exact htext _ hin

/-- The command is given one list of messages. -/
theorem Given.unique {messages' : List String} (h : Given a input messages)
    (h' : Given a input messages') : messages = messages' := by
  cases h with
  | positional hne =>
    cases h' with
    | positional => rfl
    | piped hnone => exact (hne hnone).elim
  | piped hnone htext hls =>
    cases h' with
    | positional hne => exact (hne hnone).elim
    | piped _ htext' hls' =>
      have hread := messagesOf_eq_ok_iff.2 ⟨_, _, htext, hls, rfl⟩
      exact Except.ok.inj (hread.symm.trans (messagesOf_eq_ok_iff.2 ⟨_, _, htext', hls', rfl⟩))

theorem given_or_unread (a : Arguments) (input : Bytes) : (∃ messages, Given a input messages) ∨
    a.messages = [] ∧ ∀ text : String, input ≠ text.toUTF8.data.toList := by
  by_cases hm : a.messages = []
  · by_cases ht : ∃ text : String, input = text.toUTF8.data.toList
    · obtain ⟨text, htext⟩ := ht
      obtain ⟨ls, hls⟩ := exists_lines text.toList
      exact .inl ⟨_, .piped hm htext hls⟩
    · exact .inr ⟨hm, fun text htext => ht ⟨text, htext⟩⟩
  · exact .inl ⟨_, .positional hm⟩

theorem begin_phase {topic : Option String} {d : Delivery} (f : Option CommandFault) :
    (Publication.begin template topic d messages).phase ≠ .finished f := by
  cases messages <;> exact nofun

/-! ## 2. All along -/

theorem Publication.goesOn (q : Publication) : (∃ fault, q.phase = .finished fault) ∨
    ∃ r, q.next? = some r ∧ ∀ o, (q.take o).phase.callsLeft < q.phase.callsLeft := by
  cases hnext : q.next? with
  | some r => exact .inr ⟨r, rfl, fun o => q.callsLeft_take_lt o (by rw [hnext]; exact nofun)⟩
  | none =>
    unfold Publication.next? at hnext
    split at hnext
    · cases hnext
    · cases hnext
    · cases hnext
    · next fault hphase => exact .inl ⟨fault, hphase⟩

section

variable {v : HandleId} {es : List Entry} {pledges : List Pledge}

/-- The messages in the books are the first ones. -/
theorem Standing.first {phase : Phase} {printed : List MessageId} {s : Factory}
    (h : Standing p messages tr s es pledges phase printed) :
    ∃ left, messages = es.map Entry.message ++ pledges.map Pledge.message ++ left := by
  cases h with
  | sending hm => exact ⟨_, hm⟩
  | collecting _ _ hm => exact ⟨[], hm.trans (List.append_nil _).symm⟩
  | closing hp hv | finished hp hv =>
    subst hp
    cases hv with
    | unsent _ he => exact ⟨messages, by simp [he]⟩
    | delivered _ hm | collected _ hm | undelivered _ hm => exact ⟨[], by simp [hm]⟩
    | failed _ _ hm => exact ⟨_, by simpa using hm⟩

/-- The call under way has handed over nothing, or the message after those in the books. -/
theorem Books.underway (b : Books p messages tr x v es pledges) (k : Kept p tr x) :
    x.call.toList.flatMap (handed x.factory) = [] ∨ ∃ v' message left u,
      Books p messages tr x v' es pledges ∧ x.publication.phase.isSending = true ∧
      messages = es.map Entry.message ++ pledges.map Pledge.message ++ message :: left ∧
      x.call.toList.flatMap (handed x.factory) = [handover v' p.delivery message u] ∧
      ∃ t, p.target? = some t ∧ x.factory.topic? v' = some t := by
  obtain ⟨q, s, call⟩ := x
  cases call with
  | none => exact .inl rfl
  | some c =>
    obtain ⟨r, hr, hmade⟩ := k.current c rfl
    have hone : (some c).toList.flatMap (handed s) = handed s c := List.append_nil _
    rcases q.next?_eq hr with ⟨m, left, ps, hphase, -⟩ | ⟨_, _, _, -, rfl⟩ | ⟨_, -, rfl⟩
    · have hsend : q.phase.isSending = true := by rw [hphase]; rfl
      have hreq := k.sending hphase rfl
      obtain ⟨hm, -⟩ := Standing.of_sending (hphase ▸ b.standing)
      rcases k.run.of_smooth.once.hand c with hnone | ⟨u, d, hmine, hand⟩
      · exact .inl (hone.trans hnone)
      · cases hand with
        | @own w spec d' v' y hw hp hy htopic =>
          have hwant := k.run.of_smooth.orderly.storied.requested.once c _ _ hreq hw
          rw [Publication.requestOf_eq] at hwant
          cases ht : p.target? with
          | none => rw [ht] at hwant; cases hwant
          | some t =>
            rw [ht] at hwant
            cases hwant
            cases hp
            rw [k.run.pipelined hy] at hmine
            exact .inr ⟨v', m, left, u, (b.same_producer k hsend hw ht hmine).1, hsend, hm,
              hone.trans hmine, t, rfl, topic?_eq_some_iff.2 ⟨y, hy, htopic⟩⟩
        | task htask => exact (k.run.untasked _ _ htask).elim
    · exact .inl (hone.trans (k.hands_nothing hr nofun).1)
    · exact .inl (hone.trans (k.hands_nothing hr nofun).1)

theorem Books.in_order (b : Books p messages tr x v es pledges) (k : Kept p tr x) :
    ∃ v ms, ms <+: messages ∧ (ms ≠ [] → ∃ t, p.target? = some t ∧ x.factory.topic? v = some t) ∧
      x.factory.handings.map Prod.snd =
        ms.map fun m => Demand.sending v (specOf m) p.delivery .pipelined := by
  rcases b.underway k with hnone | ⟨v', m, left, u, b', -, hm, hone, htopic⟩
  · obtain ⟨left, hm⟩ := b.standing.first
    refine ⟨v, _, ⟨left, hm.symm⟩, fun hne => b.topic ?_, ?_⟩
    · by_contra hnot
      obtain ⟨rfl, rfl⟩ : es = [] ∧ pledges = [] := by simpa using hnot
      exact hne rfl
    · rw [b.handings, hnone]
      simp [Entry.handover, Pledge.handover, handover, Function.comp_def]
  · refine ⟨v', es.map Entry.message ++ pledges.map Pledge.message ++ [m], ⟨left, by simp [hm]⟩,
      fun _ => htopic, ?_⟩
    rw [b'.handings, hone]
    simp [Entry.handover, Pledge.handover, handover, Function.comp_def]

/-- Where each message is waited for, all but the last of those in the books arrived. -/
theorem Standing.entered {phase : Phase} {printed : List MessageId} {s : Factory}
    (h : Standing p messages tr s es pledges phase printed) (hd : p.delivery = .acknowledged) :
    pledges = [] ∧ ∃ done last, es = done ++ last ∧ (∀ e ∈ done, e.Succeeded) ∧
      last.length ≤ if phase.isSending then 0 else 1 := by
  cases h with
  | sending _ hack => exact ⟨(hack hd).1, es, [], (List.append_nil _).symm, (hack hd).2, Nat.le_refl _⟩
  | collecting hd' => cases hd.symm.trans hd'
  | closing hp hv | finished hp hv =>
    refine ⟨hp, ?_⟩
    cases hv with
    | unsent _ he => exact ⟨[], [], he, nofun, Nat.zero_le _⟩
    | delivered _ _ hok => exact ⟨es, [], (List.append_nil _).symm, hok, Nat.zero_le _⟩
    | @failed before last _ _ _ _ he _ hok => exact ⟨before, [last], he, hok, Nat.le_refl _⟩
    | collected hd' | undelivered hd' => cases hd.symm.trans hd'

theorem Books.one_by_one (b : Books p messages tr x v es pledges) (k : Kept p tr x)
    (hd : p.delivery = .acknowledged) {before : List (Ticket × Demand)} {y : Ticket × Demand}
    (hy : x.factory.handings = before ++ [y]) : ∀ z ∈ before, ∃ id, Told tr z.1 (.ok id) := by
  obtain ⟨rfl, done, last, rfl, hok, hlast⟩ := b.standing.entered hd
  -- The last one may be the message of the call under way, or the one that failed.
  obtain ⟨v', rest, hsplit, hrest⟩ : ∃ v' rest, x.factory.handings =
      done.map (Entry.handover v' p.delivery) ++ rest ∧ rest.length ≤ 1 := by
    rcases b.underway k with hnone | ⟨v', m, left, u, b', hsend, -, hone, -⟩
    · refine ⟨v, last.map (Entry.handover v p.delivery), ?_, ?_⟩
      · rw [b.handings, hnone]
        simp
      · rw [List.length_map]
        exact Nat.le_trans hlast (by split <;> omega)
    · rw [if_pos hsend] at hlast
      obtain rfl := List.length_eq_zero_iff.1 (Nat.le_zero.1 hlast)
      refine ⟨v', [handover v' p.delivery m u], ?_, Nat.le_refl _⟩
      rw [b'.handings, hone]
      simp
  intro z hz
  have hmem : z ∈ done.map (Entry.handover v' p.delivery) := by
    have heq := hsplit.symm.trans hy
    match rest, hrest with
    | [], _ =>
      rw [List.append_nil] at heq
      exact heq ▸ List.mem_append_left _ hz
    | [y'], _ => exact (List.append_inj' heq rfl).1 ▸ hz
  obtain ⟨e, he, rfl⟩ := List.mem_map.1 hmem
  obtain ⟨id, hid⟩ := hok e he
  exact ⟨id, hid ▸ b.told e (List.mem_append_left _ he)⟩

end

/-! ## 3. No text -/

theorem mem_handings {s : Factory} {y : Ticket × Demand} (h : y ∈ s.handings) :
    ∃ i, y ∈ handed s i := by
  obtain ⟨e, he, hy⟩ := List.mem_filterMap.1 h
  cases e with
  | asked i t d =>
    refine ⟨i, List.mem_filterMap.2 ⟨_, he, ?_⟩⟩
    simpa [handing, Event.handing?] using hy
  | _ => cases hy

/-- A publication whose messages could not be read closes the factory, and sends nothing. -/
theorem Course.unread {f : CommandFault} (h : Course (.failed template f) tr x) :
    x.factory.handings = [] ∧ x.publication.printed = [] ∧
      (x.publication.phase = .closing (some f) ∨ x.publication.phase = .finished (some f)) := by
  have hall : x.publication.printed = [] ∧ (∀ i r, Made tr i r → r = .shutdown) ∧
      (x.publication.phase = .closing (some f) ∨ x.publication.phase = .finished (some f)) := by
    induction h with
    | begin => exact ⟨rfl, fun _ _ ⟨_, hm, _⟩ => (nomatch hm), .inl rfl⟩
    | @call tr q s s' r _ hnext _ ih =>
      obtain ⟨hprinted, hmade, hphase⟩ := ih
      refine ⟨hprinted, fun i r' hm => ?_, hphase⟩
      rcases hm.cons_or with ⟨hl, -⟩ | hm
      · cases hl
        rcases q.next?_eq hnext with ⟨_, _, _, hp, -⟩ | ⟨_, _, _, hp, -⟩ | ⟨_, -, rfl⟩
        · rcases hphase with h | h <;> cases h.symm.trans hp
        · rcases hphase with h | h <;> cases h.symm.trans hp
        · rfl
      · exact hmade i r' hm
    | step _ hno _ _ ih =>
      obtain ⟨hprinted, hmade, hphase⟩ := ih
      exact ⟨hprinted, fun i r hm => hmade i r (hm.cons_or.resolve_left fun h => hno r h.1), hphase⟩
    | @take tr q s c o _ _ ih =>
      obtain ⟨hprinted, hmade, hphase⟩ := ih
      refine ⟨?_, hmade, .inr (take_shut hphase)⟩
      unfold Publication.take
      rcases hphase with h | h <;> rw [h] <;> exact hprinted
  obtain ⟨hprinted, hmade, hphase⟩ := hall
  have k := h.kept fun _ => nofun
  refine ⟨List.eq_nil_iff_forall_not_mem.2 fun y hy => ?_, hprinted, hphase⟩
  obtain ⟨i, hi⟩ := mem_handings hy
  rw [k.run.hands_nothing fun w hw => by cases hmade i _ hw] at hi
  cases hi

/-! ## 4. The end -/

/-- In the end every producer was closed once, and nobody borrows it. -/
theorem Course.closed (h : Course p tr x) (hp : ∀ f, p.phase ≠ .finished f) {f : Option CommandFault}
    {v : HandleId} {y : Handle} (hphase : x.publication.phase = .finished f)
    (hy : x.factory.handles.get? v = some y) : x.factory.closeCount v = 1 ∧ y.borrows = 0 := by
  have k := h.kept hp
  refine k.run.all_closed (k.closed f hphase) (fun c rs hc => ?_) hy
  -- A call that still closes producers would be the one under way, and there is none.
  obtain ⟨r, hm, -⟩ := (k.run.of_smooth.orderly.storied.story c _ hc nofun).of_retiring
  by_cases hcall : x.call = some c
  · obtain ⟨r, hr, -⟩ := k.current c hcall
    unfold Publication.next? at hr
    rw [hphase] at hr
    cases hr
  · obtain ⟨o, ho⟩ := k.past c r hm hcall
    cases hc.symm.trans ho

end

/-- In the end all messages that were handed over are entered. -/
theorem Books.final {p : Publication} {messages : List String} {tr : List (Label × Factory)} {x : Scene}
    {v : HandleId} {es : List Entry} {pledges : List Pledge} {fault : Option CommandFault}
    (b : Books p messages tr x v es pledges) (k : Kept p tr x)
    (hphase : x.publication.phase = .finished fault) :
    x.factory.handings = es.map (Entry.handover v p.delivery) ∧
      Verdict p.target? p.delivery messages tr x.factory es fault x.publication.printed := by
  have hunder : x.call.toList.flatMap (handed x.factory) = [] := by
    rcases b.underway k with hnone | ⟨_, _, _, _, -, hsend, -⟩
    · exact hnone
    · rw [hphase] at hsend
      cases hsend
  have hst := b.standing
  rw [hphase] at hst
  cases hst with
  | finished he hv =>
    subst he
    refine ⟨?_, hv⟩
    rw [b.handings, hunder]
    simp

/-- A course of what the command has to publish keeps the accounts. -/
theorem Course.accounts {a : Arguments} {template : Template} {input : Bytes}
    {tr : List (Label × Factory)} {x : Scene} (h : Course (publicationOf a template input) tr x) :
    Accounts a template input tr x := by
  rcases given_or_unread a input with ⟨messages, hg⟩ | ⟨hnone, htext⟩
  · rw [publicationOf_given template hg] at h
    have k := h.kept begin_phase
    have hbegin : Standing (.begin template a.topic a.delivery messages) messages [] .new [] []
        (Phase.send messages ([].map Pledge.promise)) (ids []) :=
      .send rfl (fun _ => ⟨rfl, nofun⟩) fun _ => rfl
    obtain ⟨v, es, pledges, b⟩ := h.books begin_phase hbegin
    refine ⟨fun hnone htext => ?_, fun messages' hg' => ?_, fun hack before y hy => ?_,
      x.publication.goesOn, fun messages' fault hg' hphase => ?_,
      fun fault v y hphase hy => h.closed begin_phase hphase hy⟩
    · exact (hg.not_unread hnone htext).elim
    · obtain rfl := hg.unique hg'
      exact b.in_order k
    · refine b.one_by_one k ?_ hy
      simp [Publication.begin, Arguments.delivery, hack]
    · obtain rfl := hg.unique hg'
      obtain ⟨hhandings, hv⟩ := b.final k hphase
      exact ⟨v, es, hhandings, b.told, fun hne => b.topic (.inl hne), hv⟩
  · obtain ⟨f, hf⟩ := publicationOf_unread template hnone htext
    rw [hf] at h
    obtain ⟨hhandings, hprinted, hphase⟩ := h.unread
    refine ⟨fun _ _ => ⟨hhandings, hprinted, fun fault hfault => ⟨f, ?_⟩⟩, fun messages hg => ?_,
      fun _ before y hy => ?_, x.publication.goesOn, fun messages fault hg => ?_,
      fun fault v y hphase hy => h.closed (fun _ => nofun) hphase hy⟩
    · rcases hphase with hphase | hphase <;> cases hphase.symm.trans hfault
      rfl
    · exact (hg.not_unread hnone htext).elim
    · rw [hhandings] at hy
      simp at hy
    · exact (hg.not_unread hnone htext).elim

/-- So they are right of the command that runs, unless the wire client crashes under a call. -/
theorem Performance.accounted (a : Arguments) (template : Template) (input : Bytes) (schema : Schema)
    {client : Rehearsal.WireClient} (hnew : client.flights = [])
    (hcrash : ∀ c, (Performance.of (publicationOf a template input) schema client).scene.factory.calls.get? c
      ≠ some .crashed) :
    ∃ tr, Accounts a template input tr
      (Performance.of (publicationOf a template input) schema client).scene := by
  obtain ⟨tr, h⟩ := Performance.course_of _ schema hnew hcrash
  exact ⟨tr, h.accounts⟩

end CommandLine

end TopicPublisher
