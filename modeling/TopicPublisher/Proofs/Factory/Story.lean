import TopicPublisher.Proofs.Factory.Balance

/-!
# The story of every call

How a call came to the point where it is: which request it was made for, which messages it handed to
producers, and which answers of the wire client its outcome came from. The message of a promised send is
handed over by the call itself, or by the one call that was begun to dispatch it, and its receipt is waited
for by the one call that is to settle the pending send.

Results:
1. `Passes`: what a step of one call leaves to the others.
2. `Assigned.pass`: each pending send stays in the hands of one call at most.
3. `Story.mono`: the stories of the others are as they were.
4. `Storied.ends`, `Storied.goesOn`: a step tells the story of one call only.
-/

namespace TopicPublisher

/-- The producer that a request hands a message to. -/
def Demand.receiver? : Demand → Option HandleId
  | .send h _ => some h
  | .enqueue h _ => some h
  | _ => none

/-- The pending send that a call is to settle. -/
def Progress.pending? : Progress → Option PendingId
  | .fresh (.dispatch _ _ p) => some p
  | .completing _ _ p => some p
  | _ => none

namespace Factory

/-! ## Definitions -/

/-- A message that a call handed to a producer, with the ticket of the request. -/
def handing (c : CallId) : Event → Option (Ticket × Demand)
  | .asked i t d => if i = c ∧ d.receiver?.isSome = true then some (t, d) else none
  | _ => none

/-- The messages that a call handed to producers, in order. -/
def handed (s : Factory) (c : CallId) : List (Ticket × Demand) := s.events.filterMap (handing c)

/-- A caller made a call for a request. -/
def Made (tr : List (Label × Factory)) (c : CallId) (r : Request) : Prop :=
  ∃ s₀, (.call r, s₀) ∈ tr ∧ s₀.calls.size = c

/-- The wire client answered a call. -/
def Answered (tr : List (Label × Factory)) (c : CallId) (t : Ticket) (a : Answer) : Prop :=
  ∃ s₀, (.answer c t a, s₀) ∈ tr

/-- The outcome of a message by its receipt. -/
def resultOf (topic : String) : Except ClientError MessageId → Except Error MessageId
  | .ok id => .ok id
  | .error e => .error (.ofSend topic e)

/-- A call is to settle a pending send. -/
def Serves (s : Factory) (p : PendingId) (c : CallId) : Prop :=
  ∃ pr, s.calls.get? c = some pr ∧ pr.pending? = some p

/-- A call was begun to dispatch the message of a pending send. -/
def Tasked (tr : List (Label × Factory)) (p : PendingId) (c : CallId) : Prop :=
  ∃ l s₁ h m, (l, s₁) ∈ tr ∧ s₁.calls.get? c = some (.fresh (.dispatch h m p))

/-- A call is over, in whatever way. -/
def Over (s : Factory) (c : CallId) : Prop :=
  ∃ pr, s.calls.get? c = some pr ∧ Progress.isOver pr = true

section

variable (tr : List (Label × Factory)) (s : Factory)

/-- What is known of a pending send when call `d` waits for the receipt under ticket `t`, or did. -/
inductive Receives (topic : String) (h : HandleId) (t : Ticket) (d : CallId) (p : PendingId) :
    PendingState → Prop
  | waiting : s.calls.get? d = some (.completing h t p) → Receives topic h t d p .unknown
  | settled {r : Except ClientError MessageId} : Answered tr d t (.receipt r) → Over s d →
      Receives topic h t d p (.settled (resultOf topic r))
  | abandoned : Over s d → Receives topic h t d p .abandoned

/-- What is known of a pending send that call `c` promised for message `m`.

* `rejected`: the producer did not take the message into its queue.
* `begun`: another call was begun to dispatch the message.
* `lost`: that call ended before it could. -/
inductive Promise (c : CallId) (topic : String) (m : MessageSpec) (p : PendingId) :
    PendingState → Prop
  | rejected {h : HandleId} {t : Ticket} {e : ClientError} : handed s c = [(t, .enqueue h m)] →
      s.topic? h = some topic → Answered tr c t (.accepted (.error e)) → (∀ i, ¬ Tasked tr p i) →
      Promise c topic m p (.settled (.error (.ofSend topic e)))
  | enqueued {h : HandleId} {t : Ticket} {d : CallId} {q : PendingState} :
      handed s c = [(t, .enqueue h m)] → s.topic? h = some topic →
      Answered tr c t (.accepted (.ok ())) → (∀ i, ¬ Tasked tr p i) →
      Receives tr s topic h t d p q → Promise c topic m p q
  | begun {h : HandleId} {d : CallId} : handed s c = [] → s.topic? h = some topic →
      s.calls.get? d = some (.fresh (.dispatch h m p)) → handed s d = [] → Promise c topic m p .unknown
  | dispatched {h : HandleId} {t : Ticket} {d : CallId} {q : PendingState} : handed s c = [] →
      s.topic? h = some topic → Tasked tr p d → handed s d = [(t, .send h m)] →
      Receives tr s topic h t d p q → Promise c topic m p q
  | lost {d : CallId} : handed s c = [] → Tasked tr p d → handed s d = [] → Over s d →
      Promise c topic m p .abandoned

/-- A pending send that call `c` promised for message `m`. -/
def Promised (c : CallId) (topic : String) (m : MessageSpec) (p : PendingId) : Prop :=
  ∃ q, s.pending.get? p = some q ∧ q.topic = topic ∧ Promise tr s c topic m p q.state

/-- How a call that was made for a request came to its end. -/
inductive Ends (c : CallId) : Request → Outcome → Prop
  | handle {w : Want} {h : HandleId} : w.purpose = .peek ∨ w.purpose = .open → handed s c = [] →
      Ends c (.want w) (.handle h)
  | lease {w : Want} {l : LeaseId} : w.purpose = .lease → handed s c = [] → Ends c (.want w) (.lease l)
  | refused {w : Want} : s.cache.closed = true → handed s c = [] →
      Ends c (.want w) (.failed .factoryClosed)
  /-- The producer that the call itself asked for was not opened. -/
  | uncreated {w : Want} {t : Ticket} {e : ClientError} : handed s c = [] →
      .asked c t (.openProducer w.topic) ∈ s.events → Answered tr c t (.opened (.error e)) →
      Ends c (.want w) (.failed (.producerCreation w.topic e))
  | receipt {w : Want} {m : MessageSpec} {h : HandleId} {t : Ticket}
      {r : Except ClientError MessageId} : w.purpose = .send m .acknowledged →
      s.topic? h = some w.topic → handed s c = [(t, .send h m)] → Answered tr c t (.receipt r) →
      Ends c (.want w) (endOf (resultOf w.topic r))
  | promised {w : Want} {m : MessageSpec} {p : PendingId} : w.purpose = .send m .promised →
      Promised tr s c w.topic m p → Ends c (.want w) (.promised p)
  | refuse {e : Error} : Ends c (.refuse e) (.failed e)
  | count {r : Request} {n : Nat} : r = .reset ∨ r = .shutdown → Ends c r (.closed n)
  | await {p : PendingId} {q : Pending} {r : Except Error MessageId} : s.pending.get? p = some q →
      q.outcome? = some r → Ends c (.await p) (endOf r)

/-- How a call came to the point where it waits. -/
inductive Story (c : CallId) : Progress → Prop
  | fresh {r : Request} : r.IsPublic → Made tr c r → handed s c = [] → Story c (.fresh r)
  | task {h : HandleId} {m : MessageSpec} {p : PendingId} : (∀ r, ¬ Made tr c r) → handed s c = [] →
      Story c (.fresh (.dispatch h m p))
  | queued {w : Want} {k : CellId} : Made tr c (.want w) → handed s c = [] → Story c (.queued w k)
  | creating {w : Want} {k : CellId} {t : Ticket} : Made tr c (.want w) → handed s c = [] →
      .asked c t (.openProducer w.topic) ∈ s.events → Story c (.creating w k t)
  | giving {rs : List Retirement} {w : Want} {h : HandleId} : Made tr c (.want w) →
      handed s c = [] → Story c (.retiring rs (.give w h))
  | refusing {rs : List Retirement} {w : Want} : Made tr c (.want w) → s.cache.closed = true →
      handed s c = [] → Story c (.retiring rs .refuse)
  | counting {rs : List Retirement} {r : Request} : Made tr c r → r = .reset ∨ r = .shutdown →
      handed s c = [] → Story c (.retiring rs .count)
  | sending {w : Want} {m : MessageSpec} {h : HandleId} {t : Ticket} : Made tr c (.want w) →
      w.purpose = .send m .acknowledged → s.topic? h = some w.topic →
      handed s c = [(t, .send h m)] → Story c (.sending h t)
  | enqueuing {w : Want} {m : MessageSpec} {h : HandleId} {t : Ticket} : Made tr c (.want w) →
      w.purpose = .send m .promised → s.topic? h = some w.topic →
      handed s c = [(t, .enqueue h m)] → Story c (.enqueuing h t)
  | completing {h : HandleId} {t : Ticket} {p : PendingId} : (∀ r, ¬ Made tr c r) →
      Story c (.completing h t p)
  | awaiting {p : PendingId} : Made tr c (.await p) → Story c (.awaiting p)
  | spinning : Story c .spinning
  | ended {r : Request} {o : Outcome} : Made tr c r → Ends tr s c r o → Story c (.ended o)
  | delivered : (∀ r, ¬ Made tr c r) → Story c (.ended .delivered)
  | aborted : Story c .aborted
  | crashed : Story c .crashed

/-- What a call that retires handles was made for, by what comes after that. -/
def ForNext (next : AfterRetiring) (r : Request) : Prop :=
  match next with
  | .give w _ => r = .want w
  | .refuse => (∃ w, r = .want w) ∧ s.cache.closed = true
  | .count => r = .reset ∨ r = .shutdown

/-- What a call that runs was made for, by what it is about to do. -/
def For (a : Act) (r : Request) : Prop :=
  match a with
  | .look w => r = .want w
  | .give w _ => r = .want w
  | .grant w _ => r = .want w
  | .place w _ _ => r = .want w
  | .retire _ _ next => ForNext s next r

/-- How the call that runs came to what it is about to do: it handed no message to any producer yet. -/
structure ActStory (c : CallId) (a : Act) : Prop where
  made : ∃ r, Made tr c r ∧ For s a r
  handed : handed s c = []
  stale : ∃ pr, s.calls.get? c = some pr ∧ Progress.isOver pr = false ∧ pr.pending? = none

/-- A pending send is in the hands of at most one call, and of none when its outcome is known. -/
structure Assigned : Prop where
  serves : ∀ p i, Serves s p i → p < s.pending.size
  tasked : ∀ p i, Tasked tr p i → p < s.pending.size
  unique : ∀ p i j, Serves s p i → Serves s p j → i = j
  tasks : ∀ p i j, Tasked tr p i → Tasked tr p j ∨ Serves s p j → i = j
  known : ∀ p q i, s.pending.get? p = some q → q.state ≠ .unknown → ¬ Serves s p i

/-- A call that was made for a request is there, and it was made for that one. -/
structure Requested : Prop where
  there : ∀ i r, Made tr i r → ∃ q, s.calls.get? i = some q
  once : ∀ i r r', Made tr i r → Made tr i r' → r = r'

/-- Every call has its story. -/
structure Storied (run : Option (CallId × Act)) : Prop where
  assigned : Assigned tr s
  requested : Requested tr s
  story : ∀ i p, s.calls.get? i = some p → (∀ a, run ≠ some (i, a)) → Story tr s i p
  act : ∀ c a, run = some (c, a) → ActStory tr s c a
  silent : ∀ i, s.calls.get? i = none → handed s i = []

end

/-- No call was made meanwhile. -/
def Follows (tr tr' : List (Label × Factory)) (s : Factory) : Prop :=
  tr' = tr ∨ ∃ l, tr' = (l, s) :: tr ∧ ∀ r, l ≠ .call r

/-- What a step of call `c` leaves to the stories of the others. -/
structure Passes (tr tr' : List (Label × Factory)) (s s' : Factory) (c : CallId) : Prop where
  trace : tr' = tr ∨ ∃ l, tr' = (l, s) :: tr
  there : ∀ i r, Made tr' i r → Made tr i r ∨ (s.calls.get? i = none ∧ ∃ q, s'.calls.get? i = some q)
  asked : ∀ i t d, .asked i t d ∈ s.events → .asked i t d ∈ s'.events
  handed : ∀ i, i ≠ c → handed s' i = handed s i
  silent : ∀ i, s'.calls.get? i = none → s.calls.get? i = none ∧ Factory.handed s' i = Factory.handed s i
  calls : ∀ i q, i ≠ c → s.calls.get? i = some q → s'.calls.get? i = some q
  size : s.pending.size ≤ s'.pending.size
  pending : ∀ p q, s.pending.get? p = some q → (Serves s p c → Serves s' p c) →
    ∃ q', s'.pending.get? p = some q' ∧ q'.state = q.state ∧ q'.topic = q.topic
  served : ∀ p i, Serves s' p i → Serves s p i ∨
    (i = s.calls.size ∧ p = s.pending.size ∧ ∃ q, s'.pending.get? p = some q ∧ q.state = .unknown)
  handles : HandlesLater s.handles s'.handles
  closed : s.cache.closed = true → s'.cache.closed = true
  active : ∀ p, s.calls.get? c = some p → Progress.isOver p = false

namespace StoryLemmas

/-! ## 1. Messages -/

theorem handing_of_not_deed (c : CallId) {e : Event} (he : Deed e = false) : handing c e = none := by
  cases e with
  | asked | opened | drained => cases he
  | _ => rfl

theorem handed_eq (s : Factory) (c : CallId) : handed s c = s.deeds.filterMap (handing c) := by
  unfold handed deeds
  induction s.events with
  | nil => rfl
  | cons e es ih =>
    by_cases he : Deed e = true
    · rw [List.filter_cons_of_pos he, List.filterMap_cons, List.filterMap_cons, ih]
    · rw [List.filter_cons_of_neg he, List.filterMap_cons,
        handing_of_not_deed c (by simpa using he)]
      exact ih

theorem handed_append {s s' : Factory} {es : List Event} (he : s'.deeds = s.deeds ++ es) (c : CallId) :
    handed s' c = handed s c ++ es.filterMap (handing c) := by
  rw [handed_eq, handed_eq, he, List.filterMap_append]

/-- Entries by which no call other than `c` hands over a message. -/
def Mute (c : CallId) (es : List Event) : Prop := ∀ i, i ≠ c → es.filterMap (handing i) = []

theorem mute_nil (c : CallId) : Mute c [] := fun _ _ => rfl

theorem mute_asked (c : CallId) (t : Ticket) (d : Demand) : Mute c [.asked c t d] := by
  intro i hi
  simp [handing, Ne.symm hi]

theorem mute_opened (c i : CallId) (h : HandleId) : Mute c [.opened i h] := fun _ _ => rfl

theorem mute_drained (c i : CallId) (hs : List HandleId) : Mute c [.drained i hs] := fun _ _ => rfl

end StoryLemmas

open SoundLemmas StoryLemmas

/-! ## 2. What is passed on -/

section

variable {tr tr' : List (Label × Factory)} {s s' : Factory} {c i : CallId} {p : PendingId}

theorem Passes.mem (P : Passes tr tr' s s' c) {x : Label × Factory} (hx : x ∈ tr) : x ∈ tr' := by
  rcases P.trace with rfl | ⟨l, rfl⟩
  · exact hx
  · exact List.mem_cons_of_mem _ hx

theorem Passes.made (P : Passes tr tr' s s' c) {r : Request} (h : Made tr i r) : Made tr' i r := by
  obtain ⟨s₀, hm, hsize⟩ := h
  exact ⟨s₀, P.mem hm, hsize⟩

theorem Passes.answered (P : Passes tr tr' s s' c) {t : Ticket} {a : Answer}
    (h : Answered tr i t a) : Answered tr' i t a := by
  obtain ⟨s₀, hm⟩ := h
  exact ⟨s₀, P.mem hm⟩

theorem Passes.over (P : Passes tr tr' s s' c) (h : Over s i) : Over s' i ∧ i ≠ c := by
  obtain ⟨q, hq, ho⟩ := h
  have hi : i ≠ c := by
    rintro rfl
    exact absurd (ho.symm.trans (P.active q hq)) nofun
  exact ⟨⟨q, P.calls i q hi hq, ho⟩, hi⟩

theorem Passes.tasked (P : Passes tr tr' s s' c) (h : Tasked tr p i) : Tasked tr' p i := by
  obtain ⟨l, s₁, v, m, hm, hget⟩ := h
  exact ⟨l, s₁, v, m, P.mem hm, hget⟩

theorem Passes.tasked_or (P : Passes tr tr' s s' c) (h : Tasked tr' p i) :
    Tasked tr p i ∨ ∃ v m, s.calls.get? i = some (.fresh (.dispatch v m p)) := by
  obtain ⟨l, s₁, v, m, hm, hget⟩ := h
  rcases P.trace with rfl | ⟨l', rfl⟩
  · exact .inl ⟨l, s₁, v, m, hm, hget⟩
  · rcases List.mem_cons.1 hm with he | hm
    · cases he
      exact .inr ⟨v, m, hget⟩
    · exact .inl ⟨l, s₁, v, m, hm, hget⟩

theorem Passes.topic? (P : Passes tr tr' s s' c) {h : HandleId} {topic : String}
    (ht : s.topic? h = some topic) : s'.topic? h = some topic := topic?_later P.handles ht

theorem serves_of_dispatch {h : HandleId} {m : MessageSpec}
    (hc : s.calls.get? c = some (.fresh (.dispatch h m p))) : Serves s p c := ⟨_, hc, rfl⟩

theorem serves_of_completing {h : HandleId} {t : Ticket}
    (hc : s.calls.get? c = some (.completing h t p)) : Serves s p c := ⟨_, hc, rfl⟩

theorem not_serves_of_get? {q : Progress} (hc : s.calls.get? c = some q) (hq : q.pending? = none)
    (p : PendingId) : ¬ Serves s p c := by
  rintro ⟨q₁, hq₁, hp⟩
  cases hc.symm.trans hq₁
  cases hq.symm.trans hp

theorem not_serves_size (s : Factory) (p : PendingId) : ¬ Serves s p s.calls.size := by
  rintro ⟨q, hq, -⟩
  exact Nat.lt_irrefl _ (Registry.lt_size_of_get? hq)

/-- Nothing is known of a pending send that is in the hands of a call. -/
theorem Assigned.unknown (A : Assigned tr s) {q : Pending} (hq : s.pending.get? p = some q)
    (hs : Serves s p i) : q.state = .unknown := by
  cases hst : q.state with
  | unknown => rfl
  | settled | abandoned => exact (A.known p q i hq (by simp [hst]) hs).elim

theorem Assigned.pass (A : Assigned tr s) (P : Passes tr tr' s s' c) : Assigned tr' s' where
  serves p i h := by
    rcases P.served p i h with h | ⟨-, -, q, hq, -⟩
    · exact Nat.lt_of_lt_of_le (A.serves p i h) P.size
    · exact Registry.lt_size_of_get? hq
  tasked p i h := by
    refine Nat.lt_of_lt_of_le ?_ P.size
    rcases P.tasked_or h with h | ⟨v, m, h⟩
    · exact A.tasked p i h
    · exact A.serves p i (serves_of_dispatch h)
  unique p i j hi hj := by
    rcases P.served p i hi with hi | ⟨hi, hp, -⟩ <;> rcases P.served p j hj with hj | ⟨hj, hp', -⟩
    · exact A.unique p i j hi hj
    · exact absurd (A.serves p i hi) (Nat.not_lt.2 (Nat.le_of_eq hp'.symm))
    · exact absurd (A.serves p j hj) (Nat.not_lt.2 (Nat.le_of_eq hp.symm))
    · exact hi.trans hj.symm
  tasks p i j hi hj := by
    -- A task that this step began was in the hands of the call already.
    have hi : Tasked tr p i ∨ Serves s p i := by
      rcases P.tasked_or hi with hi | ⟨v, m, hi⟩
      · exact .inl hi
      · exact .inr (serves_of_dispatch hi)
    have hlt : p < s.pending.size := hi.elim (A.tasked p i) (A.serves p i)
    have hj : Tasked tr p j ∨ Serves s p j := by
      rcases hj with hj | hj
      · rcases P.tasked_or hj with hj | ⟨v, m, hj⟩
        · exact .inl hj
        · exact .inr (serves_of_dispatch hj)
      · rcases P.served p j hj with hj | ⟨-, hp, -⟩
        · exact .inr hj
        · exact absurd hlt (Nat.not_lt.2 (Nat.le_of_eq hp.symm))
    rcases hi with hi | hi
    · exact A.tasks p i j hi hj
    · rcases hj with hj | hj
      · exact (A.tasks p j i hj (.inr hi)).symm
      · exact A.unique p i j hi hj
  known p q' i hq' hst h := by
    rcases P.served p i h with hs | ⟨-, -, q, hq, hu⟩
    · have hlt := A.serves p i hs
      obtain ⟨q, hq⟩ : ∃ q, s.pending.get? p = some q := by
        cases hq : s.pending.get? p with
        | none => exact absurd hlt (Nat.not_lt.2 ((Registry.get?_eq_none_iff _ _).1 hq))
        | some q => exact ⟨q, rfl⟩
      -- Had the step settled it, no call would have it in its hands any more.
      obtain ⟨q₁, hq₁, hsame, -⟩ := P.pending p q hq fun hc => A.unique p i c hs hc ▸ h
      cases hq'.symm.trans hq₁
      exact hst (hsame.trans (A.unknown hq hs))
    · cases hq'.symm.trans hq
      exact hst hu

theorem Passes.made_or (P : Passes tr tr' s s' c) {r : Request} (h : Made tr' i r) :
    Made tr i r ∨ ∃ l, tr' = (l, s) :: tr ∧ l = .call r ∧ s.calls.size = i := by
  obtain ⟨s₀, hm, hsize⟩ := h
  rcases P.trace with rfl | ⟨l, rfl⟩
  · exact .inl ⟨s₀, hm, hsize⟩
  · rcases List.mem_cons.1 hm with he | hm
    · cases he
      exact .inr ⟨_, rfl, rfl, hsize⟩
    · exact .inl ⟨s₀, hm, hsize⟩

theorem Passes.unmade (P : Passes tr tr' s s' c) {q : Progress} (hq : s.calls.get? i = some q)
    (hno : ∀ r, ¬ Made tr i r) (r : Request) : ¬ Made tr' i r := by
  intro h
  rcases P.there i r h with h | ⟨hnone, -⟩
  · exact hno r h
  · cases hq.symm.trans hnone

theorem Requested.pass (R : Requested tr s) (P : Passes tr tr' s s' c) : Requested tr' s' where
  there i r h := by
    rcases P.there i r h with h | ⟨-, hq⟩
    · obtain ⟨q, hq⟩ := R.there i r h
      cases hq' : s'.calls.get? i with
      | none => cases hq.symm.trans (P.silent i hq').1
      | some q' => exact ⟨q', rfl⟩
    · exact hq
  once i r r' h h' := by
    have hold : ∀ r, Made tr i r → s.calls.size ≠ i := by
      rintro r h rfl
      obtain ⟨q, hq⟩ := R.there _ r h
      exact Nat.lt_irrefl _ (Registry.lt_size_of_get? hq)
    rcases P.made_or h with h | ⟨l, htr, hl, hi⟩ <;> rcases P.made_or h' with h' | ⟨l', htr', hl', hi'⟩
    · exact R.once i r r' h h'
    · exact absurd hi' (hold r h)
    · exact absurd hi (hold r' h')
    · cases htr.symm.trans htr'
      cases hl.symm.trans hl'
      rfl

/-! ## 3. The stories of the others -/

theorem Receives.not_fresh (A : Assigned tr s) {topic : String} {h : HandleId} {t : Ticket} {d : CallId}
    {q : Pending} (hq : s.pending.get? p = some q) (r : Receives tr s topic h t d p q.state)
    (i : CallId) (v : HandleId) (m : MessageSpec) :
    s.calls.get? i ≠ some (.fresh (.dispatch v m p)) := by
  intro hi
  have hs := serves_of_dispatch hi
  rw [A.unknown hq hs] at r
  cases r with
  | waiting hd =>
    cases A.unique p i d hs (serves_of_completing hd)
    exact absurd (hi.symm.trans hd) nofun

theorem Passes.not_tasked (P : Passes tr tr' s s' c) (hno : ∀ i, ¬ Tasked tr p i)
    (hf : ∀ i v m, s.calls.get? i ≠ some (.fresh (.dispatch v m p))) (i : CallId) :
    ¬ Tasked tr' p i := by
  intro h
  rcases P.tasked_or h with h | ⟨v, m, h⟩
  · exact hno i h
  · exact hf i v m h

theorem Receives.mono {topic : String} {h : HandleId} {t : Ticket} {d : CallId} {q : PendingState}
    (r : Receives tr s topic h t d p q) (P : Passes tr tr' s s' c) (hn : ¬ Serves s p c) :
    Receives tr' s' topic h t d p q ∧ d ≠ c := by
  cases r with
  | waiting hd =>
    have hdc : d ≠ c := by
      rintro rfl
      exact hn (serves_of_completing hd)
    exact ⟨.waiting (P.calls d _ hdc hd), hdc⟩
  | settled ha ho => exact ⟨.settled (P.answered ha) (P.over ho).1, (P.over ho).2⟩
  | abandoned ho => exact ⟨.abandoned (P.over ho).1, (P.over ho).2⟩

theorem Promised.mono {topic : String} {m : MessageSpec} (h : Promised tr s i topic m p)
    (A : Assigned tr s) (P : Passes tr tr' s s' c) (hi : i ≠ c) (hn : ¬ Serves s p c) :
    Promised tr' s' i topic m p := by
  obtain ⟨q, hq, htopic, pr⟩ := h
  obtain ⟨q', hq', hstate, htopic'⟩ := P.pending p q hq fun h => (hn h).elim
  refine ⟨q', hq', htopic'.trans htopic, ?_⟩
  rw [hstate]
  have hh : handed s' i = handed s i := P.handed i hi
  generalize hst : q.state = st at pr
  cases pr with
  | rejected hm ht ha hno =>
    refine .rejected (hh.trans hm) (P.topic? ht) (P.answered ha) (P.not_tasked hno fun j v m hj => ?_)
    exact A.known p q j hq (by simp [hst]) (serves_of_dispatch hj)
  | enqueued hm ht ha hno r =>
    have hf := (hst.symm ▸ r : Receives tr s topic _ _ _ p q.state).not_fresh A hq
    exact .enqueued (hh.trans hm) (P.topic? ht) (P.answered ha) (P.not_tasked hno hf) (r.mono P hn).1
  | @begun v d hm ht hd hd' =>
    have hdc : d ≠ c := by
      rintro rfl
      exact hn (serves_of_dispatch hd)
    exact .begun (hh.trans hm) (P.topic? ht) (P.calls d _ hdc hd) ((P.handed d hdc).trans hd')
  | dispatched hm ht hd hd' r =>
    obtain ⟨r', hdc⟩ := r.mono P hn
    exact .dispatched (hh.trans hm) (P.topic? ht) (P.tasked hd) ((P.handed _ hdc).trans hd') r'
  | lost hm hd hd' ho =>
    obtain ⟨ho', hdc⟩ := P.over ho
    exact .lost (hh.trans hm) (P.tasked hd) ((P.handed _ hdc).trans hd') ho'

/-- What is promised stays so when the call that runs keeps the promises that are in its hands. -/
def KeepsPromises (tr tr' : List (Label × Factory)) (s s' : Factory) (c : CallId) : Prop :=
  ∀ i p topic m, i ≠ c → Serves s p c → Promised tr s i topic m p → Promised tr' s' i topic m p

theorem keepsPromises_of_not_serves (hn : ∀ p, ¬ Serves s p c) : KeepsPromises tr tr' s s' c :=
  fun _ p _ _ _ hs _ => (hn p hs).elim

theorem Promised.pass {topic : String} {m : MessageSpec} (h : Promised tr s i topic m p)
    (A : Assigned tr s) (P : Passes tr tr' s s' c) (K : KeepsPromises tr tr' s s' c) (hi : i ≠ c) :
    Promised tr' s' i topic m p := by
  by_cases hs : Serves s p c
  · exact K i p topic m hi hs h
  · exact h.mono A P hi hs

theorem Ends.mono {r : Request} {o : Outcome} (h : Ends tr s i r o) (A : Assigned tr s)
    (P : Passes tr tr' s s' c) (K : KeepsPromises tr tr' s s' c) (hi : i ≠ c) :
    Ends tr' s' i r o := by
  have hh : handed s' i = handed s i := P.handed i hi
  cases h with
  | handle hp hm => exact .handle hp (hh.trans hm)
  | lease hp hm => exact .lease hp (hh.trans hm)
  | refused hc hm => exact .refused (P.closed hc) (hh.trans hm)
  | uncreated hm ha hans => exact .uncreated (hh.trans hm) (P.asked _ _ _ ha) (P.answered hans)
  | receipt hp ht hm hans => exact .receipt hp (P.topic? ht) (hh.trans hm) (P.answered hans)
  | promised hp hpr => exact .promised hp (hpr.pass A P K hi)
  | refuse => exact .refuse
  | count hr => exact .count hr
  | await hq ho =>
    -- An outcome that is known is in nobody's hands any more.
    obtain ⟨q', hq', hstate, htopic⟩ := P.pending _ _ hq fun hs => by
      have hu := A.unknown hq hs
      simp [Pending.outcome?, hu] at ho
    refine .await hq' ?_
    unfold Pending.outcome? at ho ⊢
    rw [hstate, htopic]
    exact ho

theorem Story.mono {pr : Progress} (h : Story tr s i pr) (A : Assigned tr s)
    (P : Passes tr tr' s s' c) (K : KeepsPromises tr tr' s s' c) (hi : i ≠ c)
    (hq : s.calls.get? i = some pr) : Story tr' s' i pr := by
  have hh : handed s' i = handed s i := P.handed i hi
  cases h with
  | fresh hr hmade hm => exact .fresh hr (P.made hmade) (hh.trans hm)
  | task hno hm => exact .task (P.unmade hq hno) (hh.trans hm)
  | queued hmade hm => exact .queued (P.made hmade) (hh.trans hm)
  | creating hmade hm ha => exact .creating (P.made hmade) (hh.trans hm) (P.asked _ _ _ ha)
  | giving hmade hm => exact .giving (P.made hmade) (hh.trans hm)
  | refusing hmade hc hm => exact .refusing (P.made hmade) (P.closed hc) (hh.trans hm)
  | counting hmade hr hm => exact .counting (P.made hmade) hr (hh.trans hm)
  | sending hmade hp ht hm => exact .sending (P.made hmade) hp (P.topic? ht) (hh.trans hm)
  | enqueuing hmade hp ht hm => exact .enqueuing (P.made hmade) hp (P.topic? ht) (hh.trans hm)
  | completing hno => exact .completing (P.unmade hq hno)
  | awaiting hmade => exact .awaiting (P.made hmade)
  | spinning => exact .spinning
  | ended hmade he => exact .ended (P.made hmade) (he.mono A P K hi)
  | delivered hno => exact .delivered (P.unmade hq hno)
  | aborted => exact .aborted
  | crashed => exact .crashed

/-! ### What a story tells -/

theorem Story.of_fresh {r : Request} (h : Story tr s c (.fresh r)) (hr : r.IsPublic) :
    Made tr c r ∧ handed s c = [] := by
  cases h with
  | fresh _ hmade hm => exact ⟨hmade, hm⟩
  | task => exact hr.elim

theorem Story.of_task {v : HandleId} {m : MessageSpec} (h : Story tr s c (.fresh (.dispatch v m p))) :
    (∀ r, ¬ Made tr c r) ∧ handed s c = [] := by
  cases h with
  | fresh hr => exact hr.elim
  | task hno hm => exact ⟨hno, hm⟩

theorem Story.of_queued {w : Want} {k : CellId} (h : Story tr s c (.queued w k)) :
    Made tr c (.want w) ∧ handed s c = [] := by
  cases h with
  | queued hmade hm => exact ⟨hmade, hm⟩

theorem Story.of_creating {w : Want} {k : CellId} {t : Ticket} (h : Story tr s c (.creating w k t)) :
    Made tr c (.want w) ∧ handed s c = [] ∧ .asked c t (.openProducer w.topic) ∈ s.events := by
  cases h with
  | creating hmade hm ha => exact ⟨hmade, hm, ha⟩

/-- A call that retires handles was made for what comes after that. -/
theorem Story.of_retiring {rs : List Retirement} {next : AfterRetiring}
    (h : Story tr s c (.retiring rs next)) : ∃ r, Made tr c r ∧ ForNext s next r ∧ handed s c = [] := by
  cases h with
  | giving hmade hm => exact ⟨_, hmade, rfl, hm⟩
  | refusing hmade hcl hm => exact ⟨_, hmade, ⟨⟨_, rfl⟩, hcl⟩, hm⟩
  | counting hmade hr hm => exact ⟨_, hmade, hr, hm⟩

theorem Story.of_sending {v : HandleId} {t : Ticket} (h : Story tr s c (.sending v t)) :
    ∃ w m, Made tr c (.want w) ∧ w.purpose = .send m .acknowledged ∧ s.topic? v = some w.topic ∧
      handed s c = [(t, .send v m)] := by
  cases h with
  | sending hmade hp ht hm => exact ⟨_, _, hmade, hp, ht, hm⟩

theorem Story.of_enqueuing {v : HandleId} {t : Ticket} (h : Story tr s c (.enqueuing v t)) :
    ∃ w m, Made tr c (.want w) ∧ w.purpose = .send m .promised ∧ s.topic? v = some w.topic ∧
      handed s c = [(t, .enqueue v m)] := by
  cases h with
  | enqueuing hmade hp ht hm => exact ⟨_, _, hmade, hp, ht, hm⟩

theorem Story.of_completing {v : HandleId} {t : Ticket} (h : Story tr s c (.completing v t p)) :
    ∀ r, ¬ Made tr c r := by
  cases h with
  | completing hno => exact hno

theorem Story.of_awaiting (h : Story tr s c (.awaiting p)) : Made tr c (.await p) := by
  cases h with
  | awaiting hmade => exact hmade

/-! ### All stories -/

/-- A call that got to its next point. -/
theorem Storied.ends {run : Option (CallId × Act)} (h : Storied tr s run)
    (hrun : ∀ i a, run = some (i, a) → i = c) (P : Passes tr tr' s s' c)
    (K : KeepsPromises tr tr' s s' c)
    (hcalls : ∀ i q, s'.calls.get? i = some q →
      Story tr' s' i q ∨ (i ≠ c ∧ s.calls.get? i = some q)) : Storied tr' s' none where
  assigned := h.assigned.pass P
  requested := h.requested.pass P
  story i q hq _ := by
    rcases hcalls i q hq with hq | ⟨hi, hq⟩
    · exact hq
    · exact (h.story i q hq fun a ha => hi (hrun i a ha)).mono h.assigned P K hi hq
  act := fun _ _ => nofun
  silent i hi := by
    obtain ⟨hi, hh⟩ := P.silent i hi
    exact hh.trans (h.silent i hi)

/-- A call that runs on. -/
theorem Storied.goesOn {run : Option (CallId × Act)} {a : Act} (h : Storied tr s run)
    (hrun : ∀ i a, run = some (i, a) → i = c) (P : Passes tr tr' s s' c)
    (K : KeepsPromises tr tr' s s' c) (hcalls : s'.calls = s.calls) (ha : ActStory tr' s' c a) :
    Storied tr' s' (some (c, a)) where
  assigned := h.assigned.pass P
  requested := h.requested.pass P
  story i q hq hi := by
    have hic : i ≠ c := fun e => hi a (e ▸ rfl)
    rw [hcalls] at hq
    exact (h.story i q hq fun b hb => hic (hrun i b hb)).mono h.assigned P K hic hq
  act i b hb := by
    cases hb
    exact ha
  silent i hi := by
    obtain ⟨hi, hh⟩ := P.silent i hi
    exact hh.trans (h.silent i hi)

end

end Factory

end TopicPublisher
