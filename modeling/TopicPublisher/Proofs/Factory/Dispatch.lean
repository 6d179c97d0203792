import TopicPublisher.Proofs.Factory.Orderly
import TopicPublisher.Template

/-!
# One wire send for every send

From its topic to the wire, a send goes through the topic's canonical text, the cache with its cells, the
looking up again after a reset, the lease, and one of three ways to hand the message over. On every way it
hands the message over once at most, to a producer that was opened for its topic with the factory's schema;
and it did so once whenever it ended with the outcome of its message. A call that promises a send leaves
the message to another one where the producer is sequential; such a call acts for the one that promised.

Results:
1. `Turn.sends`, `Begins.sends`: where messages are handed over.
2. `Run.origins`, `Run.origin`: every handle is of a producer that was asked for under its topic.
3. `Run.once`: every call hands over one message at most.
4. `Once.sent`: so does a sender, by itself or through the call that acts for it.
5. `dispatched_once`: all this for senders, in every run.
-/

namespace TopicPublisher

/-- The request by which a message goes to a producer, by when the send is over for the one who sends and
by how the producer takes messages of those who do not wait. -/
def Demand.sending (v : HandleId) (m : MessageSpec) : Delivery → DispatchMode → Demand
  | .promised, .pipelined => .enqueue v m
  | _, _ => .send v m

theorem Demand.sending_eq_enqueue {v v' : HandleId} {m m' : MessageSpec} {d : Delivery}
    {mode : DispatchMode} (h : Demand.sending v m d mode = .enqueue v' m') :
    v' = v ∧ mode = .pipelined := by
  cases d with
  | acknowledged => cases h
  | promised =>
    cases mode with
    | sequential => cases h
    | pipelined =>
      cases h
      exact ⟨rfl, rfl⟩

/-- The producer that a call on the wire client hands a message to. -/
def WireCall.receiver? : WireCall → Option HandleId
  | .send v _ => some v
  | .sendAsync v _ => some v
  | _ => none

namespace Factory

/-! ## Definitions -/

section

variable (schema : Schema) (tr : List (Label × Factory)) (s : Factory)

/-- Call `c` was made to send message `m`, which a template made of what it was given. -/
def Sender (c : CallId) (m : OutboundMessage) (d : Delivery) : Prop :=
  ∃ (x : Template) (form : SendForm), x.outbound form = .ok m ∧ Made tr c (x.request form d)

/-- Call `i` called the wire client, under a ticket. -/
def Calls (i : CallId) (u : Ticket) (x : WireCall) : Prop :=
  ∃ d : Demand, .asked i u d ∈ s.events ∧ d.call schema = x

/-- Call `i` acts for call `c`: it is the same one, or it was begun to dispatch the message that call `c`
promised to send. -/
def ActsFor (i c : CallId) : Prop :=
  i = c ∨ ∃ p, s.calls.get? c = some (.ended (.promised p)) ∧ Tasked tr p i

/-- A wire send on behalf of call `c`. -/
def Sends (c : CallId) (u : Ticket) (x : WireCall) : Prop :=
  x.receiver?.isSome = true ∧ ∃ i, ActsFor tr s i c ∧ Calls schema s i u x

/-- Handle `v` is of a producer that was opened for a topic, and declared how it takes messages. -/
def Origin (v : HandleId) (topic : String) (mode : DispatchMode) : Prop :=
  ∃ i u s₀, Calls schema s i u (.newProducer topic schema) ∧
    (.answer i u (.opened (.ok mode)), s₀) ∈ tr ∧ s₀.handles.size = v

/-- Call `c` ended, or its pending send was settled, with the outcome of its message. -/
inductive Concluded (c : CallId) : Prop
  | acknowledged {id : MessageId} : s.calls.get? c = some (.ended (.acknowledged id)) → Concluded c
  | failed {t : String} {k : PublishKind} {e : ClientError} :
      s.calls.get? c = some (.ended (.failed (.publish t k e))) → Concluded c
  | settled {p : PendingId} {q : Pending} {r : Except Error MessageId} :
      s.calls.get? c = some (.ended (.promised p)) → s.pending.get? p = some q →
      q.state = .settled r → Concluded c

/-- The wire sends of senders.

* `given`: who sends a message to a topic is a sender of just that message.
* `tickets`: every call on the wire client has a ticket of its own.
* `sent`: a sender makes one wire send at most, with its message, to a producer of its topic.
* `concluded`: a sender with the outcome of its message made a wire send.
* `unsent`: a sender without a producer made none.
* `refused`: where no message could be made, there is no wire send.
* `declared`: a producer is of one topic, and declared one way to take messages.
* `pipelined`: only a producer that declared that it is pipelined has messages queued. -/
structure Dispatched : Prop where
  given : ∀ c (x : Template) topic spec d, Made tr c (x.sendMessage topic spec d) →
    Sender tr c ⟨topic, spec⟩ d
  tickets : (s.events.filterMap Event.ticket?).Nodup
  sent : ∀ c m d, Sender tr c m d → ∀ u x, Sends schema tr s c u x →
    (∀ u' x', Sends schema tr s c u' x' → u' = u ∧ x' = x) ∧
      ∃ v mode, x = (Demand.sending v m.spec d mode).call schema ∧
        Origin schema tr s v (canonicalize m.topic) mode
  concluded : ∀ c m d, Sender tr c m d → Concluded s c → ∃ u x, Sends schema tr s c u x
  unsent : ∀ c m d, Sender tr c m d → (s.calls.get? c = some (.ended (.failed .factoryClosed)) ∨
    ∃ t e, s.calls.get? c = some (.ended (.failed (.producerCreation t e)))) →
    ∀ u x, ¬ Sends schema tr s c u x
  refused : ∀ c (x : Template) form d e, x.outbound form = .error e → Made tr c (x.request form d) →
    ∀ u y, ¬ Sends schema tr s c u y
  declared : ∀ v t m t' m', Origin schema tr s v t m → Origin schema tr s v t' m' → t = t' ∧ m = m'
  pipelined : ∀ i u v m topic mode, Calls schema s i u (.sendAsync v m) →
    Origin schema tr s v topic mode → mode = .pipelined

/-- A message that call `i` handed over. -/
inductive Hand (i : CallId) : Demand → Prop
  | own {w : Want} {m : MessageSpec} {d : Delivery} {v : HandleId} {x : Handle} :
      Made tr i (.want w) → w.purpose = .send m d → s.handles.get? v = some x → x.topic = w.topic →
      Hand i (.sending v m d x.mode)
  | task {p : PendingId} {m : MessageSpec} {v : HandleId} {x : Handle} : Tasked tr p i →
      s.handles.get? v = some x → x.mode = .sequential → Hand i (.send v m)

/-- Every call hands over one message at most. -/
structure Once : Prop where
  hand : ∀ i, handed s i = [] ∨ ∃ u d, handed s i = [(u, d)] ∧ Hand tr s i d
  /-- Other calls are begun only to dispatch messages to sequential producers. -/
  tasks : ∀ i v m p, s.calls.get? i = some (.fresh (.dispatch v m p)) →
    ∃ x, s.handles.get? v = some x ∧ x.mode = .sequential
  begun : ∀ p i, Tasked tr p i → i < s.calls.size ∧ ∀ r, ¬ Made tr i r

end

open SoundLemmas StoryLemmas

section

variable {tr : List (Label × Factory)} {s s' : Factory} {c i : CallId} {l : Label}
  {run : Option (CallId × Act)}

/-! ## 1. Where messages are handed over -/

theorem mem_handed {u : Ticket} {d : Demand} :
    (u, d) ∈ handed s i ↔ .asked i u d ∈ s.events ∧ d.receiver?.isSome = true := by
  unfold handed
  rw [List.mem_filterMap]
  constructor
  · rintro ⟨e, he, heq⟩
    cases e with
    | asked j t x =>
      simp only [handing] at heq
      split at heq
      · next h =>
        cases heq
        exact ⟨h.1 ▸ he, h.2⟩
      · cases heq
    | _ => cases heq
  · rintro ⟨he, hd⟩
    exact ⟨_, he, by simp [handing, hd]⟩

/-- A turn hands over a message when a call that is to send it has a lease. -/
theorem Turn.sends {a : Act} {next : Option Act} (ht : Turn c s a s' next) :
    (∀ i, handed s' i = handed s i) ∨ ∃ w v x m d, a = .grant w v ∧ s.handles.get? v = some x ∧
      w.purpose = .send m d ∧ (∀ i, i ≠ c → handed s' i = handed s i) ∧
      handed s' c = handed s c ++ [(s.tickets, Demand.sending v m d x.mode)] := by
  have hsame : ∀ {d : Demand}, s'.deeds = s.deeds ++ [.asked c s.tickets d] → d.receiver? = none →
      ∀ i, handed s' i = handed s i := by
    intro d he hd i
    rw [handed_append he]
    simp [handing, hd]
  have hmore : ∀ {d : Demand}, s'.deeds = s.deeds ++ [.asked c s.tickets d] →
      d.receiver?.isSome = true → handed s' c = handed s c ++ [(s.tickets, d)] := by
    intro d he hd
    rw [handed_append he]
    simp [handing, hd]
  cases ht with
  | @create w => exact .inl (hsame (d := .openProducer w.topic) (by simp; rfl) rfl)
  | @close _ _ r => exact .inl (hsame (d := .close r.handle) (by simp) rfl)
  | @send w v x m hp hx =>
    refine .inr ⟨w, v, x, m, .acknowledged, rfl, hx, hp, ?_, ?_⟩
    · exact (Turn.send hp hx ‹_›).speaks.handed
    · exact hmore (d := .send v m) (by simp; rfl) rfl
  | @enqueue w v x m hp hx _ hmode =>
    refine .inr ⟨w, v, x, m, .promised, rfl, hx, hp, ?_, ?_⟩
    · exact (Turn.enqueue hp hx ‹_› hmode).speaks.handed
    · rw [hmode]
      exact hmore (d := .enqueue v m) (by simp; rfl) rfl
  | _ => exact .inl (handed_of_deeds_eq (by simp))

/-- At the beginning of a step a message is handed over by a call that was begun to dispatch it. -/
theorem Begins.sends (hb : Begins s l s' run) :
    (∀ i, handed s' i = handed s i) ∨ ∃ c v m p, l = .resume c ∧
      s.calls.get? c = some (.fresh (.dispatch v m p)) ∧ (∀ i, i ≠ c → handed s' i = handed s i) ∧
      handed s' c = handed s c ++ [(s.tickets, .send v m)] := by
  have hquiet : ∀ {e : Event}, s'.deeds = s.deeds ++ [e] → (∀ i, handing i e = none) →
      ∀ i, handed s' i = handed s i := by
    intro e he hno i
    rw [handed_append he]
    simp [hno]
  cases hb with
  | @drain c r taken => exact .inl (hquiet (e := .drained c taken.2) (by simp) fun _ => rfl)
  | @created c => exact .inl (hquiet (e := .opened c s.handles.size) (by simp) fun _ => rfl)
  | @create c w =>
    refine .inl (hquiet (e := .asked c s.tickets (.openProducer w.topic)) (by simp) fun i => ?_)
    simp [handing, Demand.receiver?]
  | @dispatch c v m p hc =>
    have he : Factory.deeds ((s.goTo c (.completing v s.tickets p)).ask c (.send v m)) =
        s.deeds ++ [.asked c s.tickets (.send v m)] := by
      simp
      rfl
    refine .inr ⟨c, v, m, p, rfl, hc, fun i hi => ?_, ?_⟩
    · rw [handed_append he]
      simp [handing, Ne.symm hi]
    · rw [handed_append he]
      simp [handing, Demand.receiver?]
  | stop _ _ hs => exact .inl (handed_of_deeds_eq (by simp [hs.deeds_eq]))
  | _ => exact .inl (handed_of_deeds_eq (by simp))

/-! ## 2. Where handles come from -/

/-- The producer of handle `v` was asked for under the handle's topic, and opened with its mode. -/
def Opened (tr : List (Label × Factory)) (s : Factory) (v : HandleId) (x : Handle) : Prop :=
  ∃ i u s₀, .asked i u (.openProducer x.topic) ∈ s.deeds ∧
    (.answer i u (.opened (.ok x.mode)), s₀) ∈ tr ∧ s₀.handles.size = v

theorem Opened.mono {tr' : List (Label × Factory)} {v : HandleId} {x y : Handle} {es : List Event}
    (h : Opened tr s v x) (htr : ∀ z, z ∈ tr → z ∈ tr') (he : s'.deeds = s.deeds ++ es)
    (hl : x.Later y) : Opened tr' s' v y := by
  obtain ⟨i, u, s₀, hm, ha, hv⟩ := h
  refine ⟨i, u, s₀, ?_, ?_, hv⟩
  · rw [he, hl.topic]
    exact List.mem_append_left _ hm
  · rw [hl.mode]
    exact htr _ ha

/-- The handles that there are, and what is known of their producers. -/
structure Origins (tr : List (Label × Factory)) (s : Factory) : Prop where
  opened : ∀ v, v < s.handles.size → ∃ x, s.handles.get? v = some x ∧ Opened tr s v x
  declared : ∀ i u m s₀, (.answer i u (.opened (.ok m)), s₀) ∈ tr →
    ∃ x, s.handles.get? s₀.handles.size = some x ∧ x.mode = m ∧
      .asked i u (.openProducer x.topic) ∈ s.deeds

theorem Origins.keep {tr' : List (Label × Factory)} {es : List Event} (h : Origins tr s)
    (htr : ∀ z, z ∈ tr → z ∈ tr')
    (hnew : ∀ i u m s₀, (.answer i u (.opened (.ok m)), s₀) ∈ tr' →
      (.answer i u (.opened (.ok m)), s₀) ∈ tr)
    (he : s'.deeds = s.deeds ++ es) (hl : HandlesLater s.handles s'.handles)
    (hsize : s'.handles.size = s.handles.size) : Origins tr' s' where
  opened v hv := by
    obtain ⟨x, hx, ho⟩ := h.opened v (hsize ▸ hv)
    obtain ⟨y, hy, hxy⟩ := hl v x hx
    exact ⟨y, hy, ho.mono htr he hxy⟩
  declared i u m s₀ hm := by
    obtain ⟨x, hx, hmode, hasked⟩ := h.declared i u m s₀ (hnew i u m s₀ hm)
    obtain ⟨y, hy, hxy⟩ := hl _ x hx
    refine ⟨y, hy, hxy.mode.trans hmode, ?_⟩
    rw [he, hxy.topic]
    exact List.mem_append_left _ hasked

theorem Origins.begins (o : Orderly tr s none) (h : Origins tr s) (hb : Begins s l s' run) :
    Origins ((l, s) :: tr) s' := by
  obtain ⟨es, he, -⟩ := hb.writes
  have htr : ∀ z, z ∈ tr → z ∈ (l, s) :: tr := fun z => List.mem_cons_of_mem _
  rcases hb.handles_size with hsize | ⟨c, u, m, w, k, rfl, -, hc, hadd⟩
  · refine h.keep htr (fun i u m s₀ hm => ?_) he hb.later hsize
    rcases List.mem_cons.1 hm with heq | hm
    · -- An answer that a producer was opened makes a handle.
      cases heq
      cases hb with
      | created =>
        have := (Registry.size_add s.handles _).symm.trans hsize
        omega
      | stop hl => rcases hl with ⟨h, -⟩ | ⟨h, -⟩ <;> cases h
    · exact hm
  · obtain ⟨-, -, hasked⟩ := (o.storied.story c _ hc fun _ => nofun).of_creating
    have hold : ∀ {e : Event}, e ∈ s.deeds → e ∈ s'.deeds := fun hm =>
      he ▸ List.mem_append_left es hm
    have hnew : s'.handles.get? s.handles.size = some { topic := w.topic, mode := m } := by
      rw [hadd]
      exact (Registry.get?_add _ _ _).trans (if_pos rfl)
    refine ⟨fun v hv => ?_, fun i u' m' s₀ hm => ?_⟩
    · by_cases hlt : v < s.handles.size
      · obtain ⟨x, hx, ho⟩ := h.opened v hlt
        obtain ⟨y, hy, hxy⟩ := hb.later v x hx
        exact ⟨y, hy, ho.mono htr he hxy⟩
      · rw [hadd, Registry.size_add] at hv
        obtain rfl : v = s.handles.size := by omega
        exact ⟨_, hnew, c, u, s, hold (mem_deeds.2 ⟨hasked, rfl⟩), List.mem_cons_self, rfl⟩
    · rcases List.mem_cons.1 hm with heq | hm
      · cases heq
        exact ⟨_, hnew, rfl, hold (mem_deeds.2 ⟨hasked, rfl⟩)⟩
      · obtain ⟨x, hx, hmode, hasked⟩ := h.declared i u' m' s₀ hm
        obtain ⟨y, hy, hxy⟩ := hb.later _ x hx
        exact ⟨y, hy, hxy.mode.trans hmode, hxy.topic ▸ hold hasked⟩

end

theorem Run.origins {tr : List (Label × Factory)} {s : Factory} (h : Run PublicOnly tr s) :
    Origins tr s := by
  refine (Run.induct_orderly (I := fun tr s _ => Origins tr s) ⟨nofun, nofun⟩ ?_ ?_ h).2
  · intro tr s s₁ l run o ih _ hb
    exact ih.begins o hb
  · intro tr s s₁ c a next o ih ht
    obtain ⟨owner, hs⟩ := o.sound
    obtain ⟨es, he, -⟩ := ht.writes hs
    exact ih.keep (fun _ h => h) (fun _ _ _ _ h => h) he ht.later ht.handles_size

/-- What a handle is for, and how its producer takes messages, is what its producer was opened with. -/
theorem Run.origin {tr : List (Label × Factory)} {s : Factory} {schema : Schema} {v : HandleId}
    {topic : String} {mode : DispatchMode} (h : Run PublicOnly tr s)
    (ho : Origin schema tr s v topic mode) :
    ∃ x, s.handles.get? v = some x ∧ x.topic = topic ∧ x.mode = mode := by
  obtain ⟨i, u, s₀, ⟨d, hasked, hd⟩, ha, rfl⟩ := ho
  obtain ⟨x, hx, hmode, hasked'⟩ := h.origins.declared i u mode s₀ ha
  obtain ⟨-, rfl⟩ := h.ticket_unique hasked (mem_deeds.1 hasked').1
  cases hd
  exact ⟨x, hx, rfl, hmode⟩

/-! ## 3. One message for each call -/

section

variable {tr tr' : List (Label × Factory)} {s s' : Factory} {c i : CallId} {l : Label}
  {run : Option (CallId × Act)}

theorem Tasked.cons {p : PendingId} (h : Tasked tr p i) (x : Label × Factory) :
    Tasked (x :: tr) p i := by
  obtain ⟨l, s₁, v, m, hm, hget⟩ := h
  exact ⟨l, s₁, v, m, List.mem_cons_of_mem x hm, hget⟩

theorem Hand.mono {d : Demand} (h : Hand tr s i d) (hl : HandlesLater s.handles s'.handles) :
    Hand tr s' i d := by
  cases h with
  | own hmade hp hx ht =>
    obtain ⟨y, hy, hxy⟩ := hl _ _ hx
    rw [← hxy.mode]
    exact .own hmade hp hy (hxy.topic.trans ht)
  | task htask hx hmode =>
    obtain ⟨y, hy, hxy⟩ := hl _ _ hx
    exact .task htask hy (hxy.mode.trans hmode)

theorem Hand.cons {d : Demand} (h : Hand tr s i d) (x : Label × Factory) : Hand (x :: tr) s i d := by
  cases h with
  | own hmade hp hx ht => exact .own (hmade.cons x) hp hx ht
  | task htask hx hmode => exact .task (htask.cons x) hx hmode

theorem Once.turn {a : Act} {next : Option Act} (o : Orderly tr s (some (c, a))) (h : Once tr s)
    (ht : Turn c s a s' next) : Once tr s' := by
  obtain ⟨owner, hs⟩ := o.sound
  have hl := ht.later
  have hold : ∀ i, handed s' i = handed s i →
      handed s' i = [] ∨ ∃ u d, handed s' i = [(u, d)] ∧ Hand tr s' i d := by
    intro i hsame
    rw [hsame]
    exact (h.hand i).imp_right fun ⟨u, d, hm, hd⟩ => ⟨u, d, hm, hd.mono hl⟩
  refine ⟨fun i => ?_, fun i v m p hi => ?_, fun p i hi => ?_⟩
  · rcases ht.sends with hsame | ⟨w, v, x, m, d, rfl, hx, hp, hsame, hmine⟩
    · exact hold i (hsame i)
    · by_cases hic : i = c
      · subst hic
        -- It has handed over nothing so far.
        obtain ⟨⟨r, hmade, rfl⟩, hnone, -⟩ := o.storied.act i _ rfl
        obtain ⟨y, hy, htopic⟩ := topic?_eq_some_iff.1 (hs.act i _ rfl).1
        cases hx.symm.trans hy
        rw [hnone] at hmine
        exact .inr ⟨_, _, hmine, (Hand.own hmade hp hx htopic).mono hl⟩
      · exact hold i (hsame i hic)
  · have hx : ∃ x, s.handles.get? v = some x ∧ x.mode = .sequential := by
      cases ht.moves hs hi with
      | stays hi => exact h.tasks i v m p hi
      | gets _ _ hr => cases hr
      | begun _ _ he hx hmode =>
        cases he
        exact ⟨_, hx, hmode⟩
    obtain ⟨x, hx, hmode⟩ := hx
    obtain ⟨y, hy, hxy⟩ := hl v x hx
    exact ⟨y, hy, hxy.mode.trans hmode⟩
  · obtain ⟨hlt, hno⟩ := h.begun p i hi
    exact ⟨Nat.lt_of_lt_of_le hlt ht.calls_size, hno⟩

theorem Once.begins (o : Orderly tr s none) (h : Once tr s) (hl : PublicOnly s l)
    (hb : Begins s l s' run) : Once ((l, s) :: tr) s' := by
  have hlater := hb.later
  have hold : ∀ i, handed s' i = handed s i →
      handed s' i = [] ∨ ∃ u d, handed s' i = [(u, d)] ∧ Hand ((l, s) :: tr) s' i d := by
    intro i hsame
    rw [hsame]
    exact (h.hand i).imp_right fun ⟨u, d, hm, hd⟩ => ⟨u, d, hm, (hd.mono hlater).cons _⟩
  refine ⟨fun i => ?_, fun i v m p hi => ?_, fun p i hi => ?_⟩
  · rcases hb.sends with hsame | ⟨c, v, m, p, rfl, hc, hsame, hmine⟩
    · exact hold i (hsame i)
    · by_cases hic : i = c
      · subst hic
        obtain ⟨-, hnone⟩ := (o.storied.story i _ hc fun _ => nofun).of_task
        obtain ⟨x, hx, hmode⟩ := h.tasks i v m p hc
        have htask : Tasked ((.resume i, s) :: tr) p i := ⟨_, s, v, m, List.mem_cons_self, hc⟩
        rw [hnone] at hmine
        exact .inr ⟨_, _, hmine, (Hand.task htask hx hmode).mono hlater⟩
      · exact hold i (hsame i hic)
  · have hx : ∃ x, s.handles.get? v = some x ∧ x.mode = .sequential := by
      rcases hb.moves hi with hi | he
      · exact h.tasks i v m p hi
      · cases he with
        | fresh hcall => exact (hl.of_call hcall).elim
    obtain ⟨x, hx, hmode⟩ := hx
    obtain ⟨y, hy, hxy⟩ := hlater v x hx
    exact ⟨y, hy, hxy.mode.trans hmode⟩
  · obtain ⟨hlt, hno⟩ : i < s.calls.size ∧ ∀ r, ¬ Made tr i r := by
      obtain ⟨l', s₁, v, m, hm, hget⟩ := hi
      rcases List.mem_cons.1 hm with he | hm
      · cases he
        exact ⟨Registry.lt_size_of_get? hget, (o.storied.story i _ hget fun _ => nofun).of_task.1⟩
      · exact h.begun p i ⟨l', s₁, v, m, hm, hget⟩
    refine ⟨Nat.lt_of_lt_of_le hlt hb.calls_size, ?_⟩
    rintro r ⟨s₀, hm, rfl⟩
    rcases List.mem_cons.1 hm with he | hm
    · cases he
      exact Nat.lt_irrefl _ hlt
    · exact hno r ⟨s₀, hm, rfl⟩

end

theorem once_new : Once [] new where
  hand _ := .inl rfl
  tasks i v m p hi := by simp [new] at hi
  begun p i hi := by
    obtain ⟨_, _, _, _, hm, -⟩ := hi
    cases hm

theorem Run.once {tr : List (Label × Factory)} {s : Factory} (h : Run PublicOnly tr s) :
    Once tr s := by
  refine (Run.induct_orderly (I := fun tr s _ => Once tr s) once_new ?_ ?_ h).2
  · intro tr s s₁ l run o ih hl hb
    exact ih.begins o hl hb
  · intro tr s s₁ c a next o ih ht
    exact ih.turn o ht

/-! ## 4. Senders -/

section

variable {tr : List (Label × Factory)} {s : Factory} {schema : Schema} {c i : CallId} {u : Ticket}
  {w : Want} {m : MessageSpec} {d : Delivery}

theorem receiver?_call (schema : Schema) (e : Demand) :
    (e.call schema).receiver? = e.receiver? := by cases e <;> rfl

theorem sends_iff {x : WireCall} : Sends schema tr s c u x ↔
    ∃ i e, ActsFor tr s i c ∧ (u, e) ∈ handed s i ∧ e.call schema = x := by
  constructor
  · rintro ⟨hx, i, hi, e, hm, rfl⟩
    exact ⟨i, e, hi, mem_handed.2 ⟨hm, receiver?_call schema e ▸ hx⟩, rfl⟩
  · rintro ⟨i, e, hi, hm, rfl⟩
    obtain ⟨hm, he⟩ := mem_handed.1 hm
    exact ⟨receiver?_call schema e ▸ he, i, hi, e, hm, rfl⟩

theorem Sender.made {m : OutboundMessage} (h : Sender tr c m d) :
    Made tr c (.want ⟨canonicalize m.topic, .send m.spec d⟩) := by
  obtain ⟨x, form, hm, hmade⟩ := h
  unfold Template.request at hmade
  rw [hm] at hmade
  exact hmade

theorem Once.hand_of_mem {e : Demand} (n : Once tr s) (hm : (u, e) ∈ handed s i) :
    handed s i = [(u, e)] ∧ Hand tr s i e := by
  rcases n.hand i with hnone | ⟨u', e', hone, hand⟩
  · rw [hnone] at hm
    cases hm
  · rw [hone] at hm
    cases List.mem_singleton.1 hm
    exact ⟨hone, hand⟩

/-- What a sender itself hands over is its message, and it is for a handle of its topic. -/
theorem Once.own {e : Demand} (n : Once tr s) (st : Storied tr s none) (hmade : Made tr c (.want w))
    (hp : w.purpose = .send m d) (hm : (u, e) ∈ handed s c) :
    ∃ v x, s.handles.get? v = some x ∧ x.topic = w.topic ∧ e = .sending v m d x.mode := by
  cases (n.hand_of_mem hm).2 with
  | own hmade' hp' hx ht =>
    cases st.requested.once c _ _ hmade hmade'
    cases hp.symm.trans hp'
    exact ⟨_, _, hx, ht, rfl⟩
  | task htask => exact ((n.begun _ c htask).2 _ hmade).elim

/-- What another call hands over for a sender is its message, and the sender itself hands over nothing. -/
theorem Once.other (n : Once tr s) (st : Storied tr s none) (hmade : Made tr c (.want w))
    (hp : w.purpose = .send m d) (hi : ActsFor tr s i c) (hne : i ≠ c) :
    handed s c = [] ∧ (∀ j, ActsFor tr s j c → j ≠ c → j = i) ∧ (handed s i = [] ∨
      ∃ u v x, handed s i = [(u, .sending v m d x.mode)] ∧ s.handles.get? v = some x ∧
        x.topic = w.topic) := by
  obtain ⟨p, hc, htask⟩ := hi.resolve_left hne
  have hone : ∀ j, ActsFor tr s j c → j ≠ c → j = i := by
    intro j hj hjc
    obtain ⟨p', hc', htask'⟩ := hj.resolve_left hjc
    cases hc.symm.trans hc'
    exact st.assigned.tasks p j i htask' (.inl htask)
  obtain ⟨m', hp', q, -, -, pr⟩ := st.promised hmade hc
  cases hp.symm.trans hp'
  generalize q.state = state at pr
  cases pr with
  | rejected _ _ _ hno | enqueued _ _ _ hno => exact (hno i htask).elim
  | @begun _ j hnone _ hj hjnone =>
    cases st.assigned.tasks p i j htask (.inr ⟨_, hj, rfl⟩)
    exact ⟨hnone, hone, .inl hjnone⟩
  | @dispatched v u j _ hnone ht hj hjone =>
    cases st.assigned.tasks p i j htask (.inl hj)
    refine ⟨hnone, hone, .inr ⟨u, v, ?_⟩⟩
    obtain ⟨x, hx, htopic⟩ := topic?_eq_some_iff.1 ht
    obtain ⟨-, hand⟩ := n.hand_of_mem (hjone ▸ List.mem_cons_self)
    generalize he : Demand.send v m = e at hand
    cases hand with
    | own hmade' => exact ((n.begun p i htask).2 _ hmade').elim
    | task _ hy hmode =>
      cases he
      cases hx.symm.trans hy
      refine ⟨x, ?_, hx, htopic⟩
      rw [hmode]
      exact hjone
  | lost hnone hj hjnone =>
    cases st.assigned.tasks p i _ htask (.inl hj)
    exact ⟨hnone, hone, .inl hjnone⟩

/-- The message of a sender is handed over once at most, by whichever call, for a handle of its topic. -/
theorem Once.sent {e : Demand} (n : Once tr s) (st : Storied tr s none)
    (hmade : Made tr c (.want w)) (hp : w.purpose = .send m d) (hi : ActsFor tr s i c)
    (hm : (u, e) ∈ handed s i) :
    (∀ j u' e', ActsFor tr s j c → (u', e') ∈ handed s j → u' = u ∧ e' = e) ∧
      ∃ v x, s.handles.get? v = some x ∧ x.topic = w.topic ∧ e = .sending v m d x.mode := by
  have hsame : ∀ u' e', (u', e') ∈ handed s i → u' = u ∧ e' = e := by
    intro u' e' hm'
    rw [(n.hand_of_mem hm).1] at hm'
    cases List.mem_singleton.1 hm'
    exact ⟨rfl, rfl⟩
  by_cases hic : i = c
  · subst hic
    refine ⟨fun j u' e' hj hm' => ?_, n.own st hmade hp hm⟩
    by_cases hji : j = i
    · exact hsame u' e' (hji ▸ hm')
    · rw [(n.other st hmade hp hj hji).1] at hm
      cases hm
  · obtain ⟨hnone, hall, hother⟩ := n.other st hmade hp hi hic
    refine ⟨fun j u' e' hj hm' => ?_, ?_⟩
    · by_cases hjc : j = c
      · rw [hjc, hnone] at hm'
        cases hm'
      · exact hsame u' e' (hall j hj hjc ▸ hm')
    · rcases hother with hinone | ⟨u₀, v, x, hone, hx, ht⟩
      · rw [hinone] at hm
        cases hm
      · rw [hone] at hm
        cases List.mem_singleton.1 hm
        exact ⟨v, x, hx, ht, rfl⟩

/-- A sender that ended without an outcome of its message handed over none. -/
theorem Storied.unsent (st : Storied tr s none) (hmade : Made tr c (.want w))
    (hc : s.calls.get? c = some (.ended (.failed .factoryClosed)) ∨
      ∃ t e, s.calls.get? c = some (.ended (.failed (.producerCreation t e))))
    (hi : ActsFor tr s i c) : handed s i = [] := by
  rcases hi with rfl | ⟨p, hp, -⟩
  · rcases hc with hc | ⟨t, e, hc⟩
    · exact st.refused hmade hc
    · exact (st.uncreated hmade hc).2.1
  · rcases hc with hc | ⟨t, e, hc⟩ <;> cases hc.symm.trans hp

/-- A sender that ended with the outcome of its message has handed it over, or another call has. -/
theorem Storied.concluded (st : Storied tr s none) (hmade : Made tr c (.want w))
    (hc : Concluded s c) :
    ∃ i u e, ActsFor tr s i c ∧ (u, e) ∈ handed s i := by
  have hself : ∀ {u : Ticket} {e : Demand}, handed s c = [(u, e)] →
      ∃ i u e, ActsFor tr s i c ∧ (u, e) ∈ handed s i := by
    intro u e h
    exact ⟨c, u, e, .inl rfl, h ▸ List.mem_cons_self⟩
  cases hc with
  | @acknowledged id hc =>
    obtain ⟨u, v, m, hone⟩ := st.delivered (r := .ok id) hmade hc fun _ => nofun
    exact hself hone
  | @failed t k e hc =>
    obtain ⟨u, v, m, hone⟩ := st.delivered (r := .error (.publish t k e)) hmade hc fun x hx => by
      cases hx
      exact ⟨t, k, e, rfl⟩
    exact hself hone
  | @settled p q r hc hq hstate =>
    obtain ⟨m, -, q', hq', -, pr⟩ := st.promised hmade hc
    cases hq.symm.trans hq'
    rw [hstate] at pr
    cases pr with
    | rejected hone | enqueued hone => exact hself hone
    | dispatched _ _ hj hone => exact ⟨_, _, _, .inr ⟨p, hc, hj⟩, hone ▸ List.mem_cons_self⟩

end

/-- In every run every sender makes one wire send at most, and one if it ended with the outcome of its
message: with that message, to a producer opened for its topic with the factory's schema. -/
theorem dispatched_once {tr : List (Label × Factory)} {s : Factory} (h : Run PublicOnly tr s)
    (schema : Schema) : Dispatched schema tr s where
  given _ x topic spec _ hmade := ⟨x, .message topic spec, rfl, hmade⟩
  tickets := by
    have hall : s.deeds.filterMap Event.ticket? = s.events.filterMap Event.ticket? := by
      unfold deeds
      rw [List.filterMap_filter]
      refine congrArg (List.filterMap · s.events) (funext fun e => ?_)
      cases e <;> rfl
    rw [← hall, h.numbered]
    exact List.nodup_range
  sent c m d hs u x hx := by
    obtain ⟨i, e, hi, hm, rfl⟩ := sends_iff.1 hx
    obtain ⟨hone, v, y, hy, ht, rfl⟩ := h.once.sent h.orderly.storied hs.made rfl hi hm
    refine ⟨fun u' x' hx' => ?_, v, y.mode, rfl, ?_⟩
    · obtain ⟨j, e', hj, hm', rfl⟩ := sends_iff.1 hx'
      obtain ⟨rfl, rfl⟩ := hone j u' e' hj hm'
      exact ⟨rfl, rfl⟩
    · obtain ⟨y', hy', j, u₀, s₀, hasked, ha, hsize⟩ :=
        h.origins.opened v (Registry.lt_size_of_get? hy)
      cases hy.symm.trans hy'
      rw [ht] at hasked
      exact ⟨j, u₀, s₀, ⟨_, (mem_deeds.1 hasked).1, rfl⟩, ha, hsize⟩
  concluded c m d hs hc := by
    obtain ⟨i, u, e, hi, hm⟩ := h.orderly.storied.concluded hs.made hc
    exact ⟨u, _, sends_iff.2 ⟨i, e, hi, hm, rfl⟩⟩
  unsent c m d hs hc u x hx := by
    obtain ⟨i, e, hi, hm, -⟩ := sends_iff.1 hx
    rw [h.orderly.storied.unsent hs.made hc hi] at hm
    cases hm
  refused c x form d e he hmade u y hy := by
    unfold Template.request at hmade
    rw [he] at hmade
    obtain ⟨i, e', hi, hm, -⟩ := sends_iff.1 hy
    have st := h.orderly.storied
    obtain rfl : i = c := by
      rcases hi with rfl | ⟨p, hc, -⟩
      · rfl
      · cases st.story c _ hc nofun with
        | ended hmade' hends =>
          cases st.requested.once c _ _ hmade hmade'
          cases hends
    cases (h.once.hand_of_mem hm).2 with
    | own hmade' => cases st.requested.once i _ _ hmade hmade'
    | task htask => exact (h.once.begun _ i htask).2 _ hmade
  declared v t m t' m' ho ho' := by
    obtain ⟨x, hx, rfl, rfl⟩ := h.origin ho
    obtain ⟨x', hx', rfl, rfl⟩ := h.origin ho'
    cases hx.symm.trans hx'
    exact ⟨rfl, rfl⟩
  pipelined i u v m topic mode hc ho := by
    obtain ⟨e, hm, he⟩ := hc
    obtain ⟨x, hx, -, rfl⟩ := h.origin ho
    cases e with
    | enqueue =>
      cases he
      obtain ⟨-, hand⟩ := h.once.hand_of_mem (mem_handed.2 ⟨hm, rfl⟩)
      generalize he : Demand.enqueue v m = e at hand
      cases hand with
      | own _ _ hy =>
        obtain ⟨rfl, hmode⟩ := Demand.sending_eq_enqueue he.symm
        cases hx.symm.trans hy
        exact hmode
      | task => cases he
    | _ => cases he

/-- A send whose caller waits, and one that is promised through the same sequential producer: another call
dispatches the message of the second. -/
theorem dispatched_once_by_another_call :
    ∃ tr s m, Run PublicOnly tr s ∧ Sender tr 1 ⟨"t", m⟩ .promised ∧ Concluded s 1 ∧
      handed s 1 = [] ∧ ∃ u v mode, Sends {} tr s 1 u ((Demand.sending v m .promised mode).call {}) ∧
        Origin {} tr s v "persistent://public/default/t" mode := by
  obtain ⟨tr, s, h, hs, hc, hnone⟩ : ∃ tr s, Run PublicOnly tr s ∧
      Sender tr 1 ⟨"t", {}⟩ .promised ∧ Concluded s 1 ∧ handed s 1 = [] := by
    have h : Run PublicOnly _ _ :=
      Run.new.play [.call (Template.request {} (.message "t" {}) .acknowledged), .resume 0,
        .answer 0 0 (.opened (.ok .sequential)), .call (Template.request {} (.message "t" {}) .promised),
        .resume 1, .resume 2, .answer 2 2 (.receipt (.ok { ledger := 7, entry := 1 }))]
        (by simp [PublicOnly, Request.IsPublic, Template.request, Template.outbound, Request.send]) rfl
    exact ⟨_, _, h, ⟨{}, .message "t" {}, rfl, _, List.mem_of_getElem? (i := 3) rfl, rfl⟩,
      .settled (p := 0) rfl rfl rfl, rfl⟩
  obtain ⟨u, x, hx⟩ := (dispatched_once h {}).concluded 1 _ _ hs hc
  obtain ⟨-, v, mode, rfl, ho⟩ := (dispatched_once h {}).sent 1 _ _ hs u x hx
  exact ⟨tr, s, {}, h, hs, hc, hnone, u, v, mode, hx, ho⟩

end Factory

end TopicPublisher
