import TopicPublisher.Proofs.Factory.Orderly
import TopicPublisher.Template

/-!
# After a shutdown

A shutdown closes the cache in its first step, for good. Calls that begin later fail at once and ask nothing
of the wire client. Calls that waited for a handle at that moment never get one: they fail as well, or with
the error of their own creation. A producer that is opened for one of them is closed again, once.

A call looks at the closed flag when it looks its topic up and when it places a handle, and nowhere between.
So one that waits in line may still ask for a producer: when the creation that it waits for fails, or is
given up, it has the turn at its cell. Exactly these producers are asked for after a shutdown.

Results:
1. `Run.induct_shut`: what a shutdown leaves behind, by what one moment leaves to the next.
2. `Run.late`: calls that begin later. `Run.waning`: calls that waited.
3. `Run.expiring`: producers that are opened later.
4. `shutdown_terminal`: all this, in every run.
5. `late_openings`: who asks for a producer later, and when nobody does.
-/

namespace TopicPublisher

namespace Factory

/-! ## Definitions -/

/-- A shutdown closed the cache in state `s₀`, and `after` is what happened since, the last first. -/
def ShutDown (tr : List (Label × Factory)) (s₀ : Factory) (after : List (Label × Factory)) : Prop :=
  ∃ c before, tr = after ++ (.resume c, s₀) :: before ∧ s₀.calls.get? c = some (.fresh .shutdown)

/-- What a request fails with when the factory is closed. A message that cannot be made fails first. -/
inductive Rebuff : Request → Error → Prop
  | createProducer (raw : String) : Rebuff (.createProducer raw) .factoryClosed
  | acquire (raw : String) : Rebuff (.acquire raw) .factoryClosed
  | send {x : Template} {form : SendForm} {m : OutboundMessage} (d : Delivery) :
      x.outbound form = .ok m → Rebuff (x.request form d) .factoryClosed
  | unsent {x : Template} {form : SendForm} {e : Error} (d : Delivery) :
      x.outbound form = .error e → Rebuff (x.request form d) e

/-- A call has not begun: it was not made yet, or it did not run yet. -/
def Unbegun (s : Factory) (i : CallId) : Prop :=
  ∀ p, s.calls.get? i = some p → ∃ r, p = .fresh r

/-- A call can only fail with an error, unless it is stopped. -/
inductive Fails (s : Factory) (i : CallId) (e : Error) : Prop
  /-- It has not run yet, and its first step is its last one. -/
  | next {s' : Factory} : s.step (.resume i) = some s' →
      s'.calls.get? i = some (.ended (.failed e)) → Fails s i e
  | failed : s.calls.get? i = some (.ended (.failed e)) → Fails s i e
  | stopped : s.calls.get? i = some .aborted ∨ s.calls.get? i = some .crashed → Fails s i e

/-- What there is to say of a state `s` after a shutdown in state `s₀`.

* `late`: a call that begins later asks nothing of the wire client and fails.
* `pending`: a call for a handle that was not over and had no lease ends with an error: that the factory
  is closed, or the one of its own creation.
* `opened`: a producer that was opened since was closed, once. -/
structure Terminal (tr : List (Label × Factory)) (s₀ s : Factory) : Prop where
  closed : s.cache.closed = true
  empty : s.cache.entries = []
  late : ∀ i r e, Rebuff r e → Made tr i r → Unbegun s₀ i →
    (∀ u d, .asked i u d ∉ s.events) ∧ Fails s i e
  pending : ∀ i w p o, Made tr i (.want w) → w.purpose ≠ .peek → s₀.calls.get? i = some p →
    Progress.isOver p = false → p.held? = none → s.calls.get? i = some (.ended o) →
    o = .failed .factoryClosed ∨ ∃ u e, o = .failed (.producerCreation w.topic e) ∧
      .asked i u (.openProducer w.topic) ∈ s.events ∧ Answered tr i u (.opened (.error e))
  opened : ∀ v, s₀.handles.size ≤ v → v < s.handles.size → s.closeCount v = 1

/-- A creation comes to nothing in a step: it fails, or its call is stopped. -/
def Thwarts : Label × Factory → Prop
  | (.answer _ _ (.opened (.error _)), _) => True
  | (.abort c, s) => ∃ w k u, s.calls.get? c = some (.creating w k u)
  | (.crash c, s) => ∃ w k u, s.calls.get? c = some (.creating w k u)
  | _ => False

/-- A call in line for a topic's producer has the turn at its cell. -/
def IsNext (s : Factory) (i : CallId) (t : String) : Prop :=
  ∃ w k, w.topic = t ∧ s.calls.get? i = some (.queued w k) ∧ s.cache.HasTurn i k

/-- A call asked for a producer after a shutdown in state `s₀`: requests have their tickets in the order
in which they are made. -/
def AskedSince (s₀ s : Factory) (i : CallId) (u : Ticket) (t : String) : Prop :=
  s₀.tickets ≤ u ∧ .asked i u (.openProducer t) ∈ s.events

/-- The producers that are asked for after a shutdown in state `s₀`.

* `exactly`: they are asked for by the calls in line that went on with the turn at their cell, and no
  others.
* `waited`: these calls were in line at the shutdown.
* `unthwarted`: where no call in line had the turn at the shutdown, and no creation came to nothing
  since, no producer was asked for. -/
structure LateOpenings (s₀ : Factory) (after : List (Label × Factory)) (s : Factory) : Prop where
  exactly : ∀ i t, (∃ u, AskedSince s₀ s i u t) ↔ ∃ s₁, (.resume i, s₁) ∈ after ∧ IsNext s₁ i t
  waited : ∀ i u t, AskedSince s₀ s i u t →
    ∃ w k, w.topic = t ∧ s₀.calls.get? i = some (.queued w k)
  once : ∀ i u t u' t', AskedSince s₀ s i u t → AskedSince s₀ s i u' t' → u = u' ∧ t = t'
  unthwarted : (∀ i t, ¬ IsNext s₀ i t) → (∀ x ∈ after, ¬ Thwarts x) → ∀ i u t, ¬ AskedSince s₀ s i u t

/-- How a state comes after a shutdown in state `s₀`. -/
structure After (s₀ s : Factory) : Prop where
  closed : s.cache.closed = true
  calls : s₀.calls.size ≤ s.calls.size
  tickets : s₀.tickets ≤ s.tickets

/-- The cache is closed in state `s₀`, and its handles are to be retired. -/
structure Shuts (s₀ : Factory) (c : CallId) (s : Factory) (run : Option (CallId × Act)) : Prop where
  calls : s.calls = s₀.calls
  deeds : s.deeds = s₀.deeds ++ [.drained c s₀.cache.handles]
  handles : s.handles = stopAll s₀.handles s₀.cache.handles
  cells : s.cache.cells = s₀.cache.cells
  after : After s₀ s
  runs : ∃ rs, run = some (c, .retire [] rs .count)

/-- Where a call is that had not begun at the shutdown, and is to fail with an error. -/
inductive Late (s : Factory) (run : Option (CallId × Act)) (i : CallId) (r : Request) (e : Error) : Prop
  | fresh : s.calls.get? i = some (.fresh r) → (∀ a, run ≠ some (i, a)) → Late s run i r e
  | looks {w : Want} : run = some (i, .look w) → e = .factoryClosed → Late s run i r e
  | ended {p : Progress} : s.calls.get? i = some p →
      p = .ended (.failed e) ∨ p = .aborted ∨ p = .crashed → Late s run i r e

/-- A call asked nothing of the wire client. -/
def Quiet (s : Factory) (i : CallId) : Prop := ∀ u d, .asked i u d ∉ s.deeds

/-- The points of a call that waited for a handle at the shutdown. -/
inductive Wanes : Progress → Prop
  | fresh {w : Want} : Wanes (.fresh (.want w))
  | queued {w : Want} {k : CellId} : Wanes (.queued w k)
  | creating {w : Want} {k : CellId} {u : Ticket} : Wanes (.creating w k u)
  | retiring {rs : List Retirement} {next : AfterRetiring} : next ≠ .count →
      Wanes (.retiring rs next)
  | spinning : Wanes .spinning
  | refused : Wanes (.ended (.failed .factoryClosed))
  | uncreated {t : String} {e : ClientError} : Wanes (.ended (.failed (.producerCreation t e)))
  | aborted : Wanes .aborted
  | crashed : Wanes .crashed

/-- What such a call is about to do when it runs. -/
inductive WanesAt : Act → Prop
  | look {w : Want} : WanesAt (.look w)
  | give {w : Want} {v : HandleId} : WanesAt (.give w v)
  | place {w : Want} {k : CellId} {v : HandleId} : WanesAt (.place w k v)
  | retire {done todo : List Retirement} {next : AfterRetiring} : next ≠ .count →
      WanesAt (.retire done todo next)

/-- A call that waited for a handle at the shutdown has not got one. -/
inductive Waning (s : Factory) (run : Option (CallId × Act)) (i : CallId) : Prop
  | waits {p : Progress} : (∀ a, run ≠ some (i, a)) → s.calls.get? i = some p → Wanes p →
      Waning s run i
  | runs {a : Act} : run = some (i, a) → WanesAt a → Waning s run i

/-- What is so of the producers that are asked for after a shutdown, at every moment. -/
structure Reopens (s₀ : Factory) (after : List (Label × Factory)) (s : Factory) : Prop where
  queued : ∀ i w k, s.calls.get? i = some (.queued w k) → s₀.calls.get? i = some (.queued w k)
  asked : ∀ i u t, AskedSince s₀ s i u t → (∃ s₁, (.resume i, s₁) ∈ after ∧ IsNext s₁ i t) ∧
    (∃ w k, w.topic = t ∧ s₀.calls.get? i = some (.queued w k)) ∧
    ∀ w k, s.calls.get? i ≠ some (.queued w k)
  asks : ∀ i s₁ t, (.resume i, s₁) ∈ after → IsNext s₁ i t → ∃ u, AskedSince s₀ s i u t
  once : ∀ i u t u' t', AskedSince s₀ s i u t → AskedSince s₀ s i u' t' → u = u' ∧ t = t'

/-- A handle whose producer was opened after the shutdown is closed, or about to be closed by the call
that opened it. -/
def Expiring (run : Option (CallId × Act)) (v : HandleId) (x : Handle) : Prop :=
  x.closed = true ∨ ∃ c a, run = some (c, a) ∧ Charges a v x.retiring ∧ x.closed = false ∧ x.borrows = 0

open SoundLemmas StoryLemmas OrderlyLemmas

section

variable {tr : List (Label × Factory)} {s s' s₀ : Factory} {c i : CallId} {l : Label}
  {run : Option (CallId × Act)} {owner : CellId → String}

/-! ## 1. Every moment after a shutdown -/

theorem After.begins (h : After s₀ s) (hb : Begins s l s' run) : After s₀ s' := by
  obtain ⟨es, -, hn, -⟩ := hb.writes
  refine ⟨?_, Nat.le_trans h.calls hb.calls_size, ?_⟩
  · rcases hb.closed_or with he | ⟨he, -⟩
    · exact he.trans h.closed
    · exact he
  · have := h.tickets
    rcases hn with ⟨-, ht⟩ | ⟨-, ht⟩ <;> omega

theorem After.turn {a : Act} {next : Option Act} (h : After s₀ s)
    (hs : Sound owner s (some (c, a))) (ht : Turn c s a s' next) : After s₀ s' := by
  obtain ⟨es, -, hn, -⟩ := ht.writes hs
  refine ⟨ht.closed_eq.trans h.closed, Nat.le_trans h.calls ht.calls_size, ?_⟩
  have := h.tickets
  rcases hn with ⟨-, ht⟩ | ⟨-, ht⟩ <;> omega

theorem Begins.shuts (hb : Begins s (.resume c) s' run)
    (hc : s.calls.get? c = some (.fresh .shutdown)) : Shuts s c s' run := by
  cases hb with
  | drain hc' htaken =>
    cases hc.symm.trans hc'
    rcases htaken with ⟨h, -⟩ | ⟨-, rfl⟩
    · cases h
    · exact ⟨rfl, by simp; rfl, rfl, rfl, ⟨rfl, Nat.le_refl _, Nat.le_refl _⟩, _, rfl⟩
  | want hc' | refuse hc' | await hc' | dispatch hc' | filled hc' | create hc' | retire hc'
  | settled hc' => cases hc.symm.trans hc'
  | stop hl => rcases hl with ⟨h, -⟩ | ⟨h, -⟩ <;> cases h

end

/-- What a shutdown brings about, and what each moment after it leaves to the next, is so in every state
after it. -/
theorem Run.induct_shut {J : Factory → List (Label × Factory) → List (Label × Factory) → Factory →
      Option (CallId × Act) → Prop}
    (shut : ∀ {tr : List (Label × Factory)} {s₀ s₁ : Factory} {c : CallId}
      {run : Option (CallId × Act)}, Run PublicOnly tr s₀ →
      s₀.calls.get? c = some (.fresh .shutdown) → Shuts s₀ c s₁ run →
      J s₀ [] ((.resume c, s₀) :: tr) s₁ run)
    (begins : ∀ {tr after : List (Label × Factory)} {s₀ s s₁ : Factory} {l : Label}
      {run : Option (CallId × Act)}, Run PublicOnly tr s → After s₀ s → J s₀ after tr s none →
      Begins s l s₁ run → J s₀ ((l, s) :: after) ((l, s) :: tr) s₁ run)
    (turn : ∀ {tr after : List (Label × Factory)} {s₀ s s₁ : Factory} {c : CallId} {a : Act}
      {next : Option Act}, Orderly tr s (some (c, a)) → After s₀ s → J s₀ after tr s (some (c, a)) →
      Turn c s a s₁ next → J s₀ after tr s₁ (next.map fun a => (c, a)))
    {tr after : List (Label × Factory)} {s₀ s : Factory} (h : Run PublicOnly tr s)
    (hs : ShutDown tr s₀ after) : After s₀ s ∧ J s₀ after tr s none := by
  refine (h.induct (I := fun tr s run => Orderly tr s run ∧
    ∀ s₀ after, ShutDown tr s₀ after → After s₀ s ∧ J s₀ after tr s run)
    ⟨orderly_new, ?_⟩ ?_ ?_).2 s₀ after hs
  · rintro s₀ after ⟨c, before, htr, -⟩
    cases after <;> cases htr
  · rintro tr s s₁ l run hrun hl ⟨o, ih⟩ hb
    refine ⟨o.begins hl hb, ?_⟩
    rintro s₀ after ⟨c, before, htr, hc⟩
    cases after with
    | nil =>
      cases htr
      exact ⟨(hb.shuts hc).after, shut hrun hc (hb.shuts hc)⟩
    | cons x after =>
      cases htr
      obtain ⟨ha, hj⟩ := ih s₀ after ⟨c, before, rfl, hc⟩
      exact ⟨ha.begins hb, begins hrun ha hj hb⟩
  · rintro tr s s₁ s₂ l c a next - - ⟨o, ih⟩ ht
    obtain ⟨owner, hsound⟩ := o.sound
    refine ⟨o.turn ht, fun s₀ after hsh => ?_⟩
    obtain ⟨ha, hj⟩ := ih s₀ after hsh
    exact ⟨ha.turn hsound ht, turn o ha hj ht⟩

theorem Run.after {tr after : List (Label × Factory)} {s₀ s : Factory} (h : Run PublicOnly tr s)
    (hs : ShutDown tr s₀ after) : After s₀ s :=
  (Run.induct_shut (J := fun _ _ _ _ _ => True) (fun _ _ _ => trivial) (fun _ _ _ _ => trivial)
    (fun _ _ _ _ => trivial) h hs).1

/-! ## 2. Calls -/

section

variable {tr : List (Label × Factory)} {s s' s₀ : Factory} {c i : CallId} {l : Label}
  {run : Option (CallId × Act)} {owner : CellId → String} {r : Request} {e : Error}

theorem Rebuff.cases (h : Rebuff r e) : (∃ w, r = .want w ∧ e = .factoryClosed) ∨ r = .refuse e := by
  cases h with
  | createProducer | acquire => exact .inl ⟨_, rfl, rfl⟩
  | send d hm =>
    unfold Template.request
    rw [hm]
    exact .inl ⟨_, rfl, rfl⟩
  | unsent d he =>
    unfold Template.request
    rw [he]
    exact .inr rfl

/-- The step of a call that has not run yet. -/
theorem Late.acts (h : Late s none i r e) (hr : Rebuff r e) (hb : Begins s l s' run)
    (hi : l.actor? = some i) : s'.deeds = s.deeds ∧ Late s' run i r e := by
  cases h with
  | ended hp hover =>
    obtain ⟨q, hq, hno⟩ := hb.active hi
    cases hp.symm.trans hq
    rcases hover with rfl | rfl | rfl <;> cases hno
  | looks hrun => cases hrun
  | fresh hf =>
    cases hb with
    | stop hl hc hs =>
      have hcall : ∀ {p : Progress}, ((Factory.goTo _ i p).note (.finished i)).calls.get? i = some p :=
        fun {p} => get?_goTo ((LetsGo.calls_eq hs).symm ▸ hf)
      refine ⟨by simp [hs.deeds_eq], ?_⟩
      rcases hl with ⟨rfl, rfl⟩ | ⟨rfl, rfl⟩ <;> cases hi
      · exact .ended hcall (.inr (.inl rfl))
      · exact .ended hcall (.inr (.inr rfl))
    | want hc =>
      cases hi
      cases hf.symm.trans hc
      rcases hr.cases with ⟨w, -, rfl⟩ | h
      · exact ⟨rfl, .looks rfl rfl⟩
      · cases h
    | refuse hc =>
      cases hi
      cases hf.symm.trans hc
      rcases hr.cases with ⟨w, h, -⟩ | h
      · cases h
      · cases h
        exact ⟨by simp, .ended (get?_goTo hc) (.inl rfl)⟩
    | drain hc htaken =>
      cases hi
      cases hf.symm.trans hc
      rcases hr.cases with ⟨w, rfl, -⟩ | rfl <;> rcases htaken with ⟨h, -⟩ | ⟨h, -⟩ <;> cases h
    | await hc | dispatch hc =>
      cases hi
      cases hf.symm.trans hc
      rcases hr.cases with ⟨w, h, -⟩ | h <;> cases h
    | call | leased | denied | released => cases hi
    | filled hc | create hc | retire hc | settled hc | created hc | failed hc | receipt hc
    | rejected hc | accepted hc | completed hc | closed hc =>
      cases hi
      cases hf.symm.trans hc

/-- A call that looks its topic up in a closed cache fails. -/
theorem Turn.rebuffs {w : Want} {next : Option Act} {q : Progress}
    (hs : Sound owner s (some (i, .look w))) (hcl : s.cache.closed = true)
    (hq : s.calls.get? i = some q) (ht : Turn i s (.look w) s' next) :
    s'.deeds = s.deeds ∧ s'.calls.get? i = some (.ended (.failed .factoryClosed)) := by
  cases ht with
  | refused => exact ⟨by simp, get?_goTo hq⟩
  | found ho | spin ho | create ho | queue ho => cases ho.symm.trans hcl
  | lost hcell hx => exact (Sound.not_lost hs hcell hx).elim

theorem Quiet.begins (h : Quiet s i) (hb : Begins s l s' run) (hi : l.actor? ≠ some i) :
    Quiet s' i := by
  intro u d hm
  obtain ⟨es, he, -, hby, -⟩ := hb.writes
  rw [he] at hm
  rcases List.mem_append.1 hm with hm | hm
  · exact h u d hm
  · exact hi (hby i u d hm).1

theorem Quiet.turn {a : Act} {next : Option Act} (h : Quiet s i) (hs : Sound owner s (some (c, a)))
    (ht : Turn c s a s' next) (hi : i ≠ c) : Quiet s' i := by
  intro u d hm
  obtain ⟨es, he, -, hby, -⟩ := ht.writes hs
  rw [he] at hm
  rcases List.mem_append.1 hm with hm | hm
  · exact h u d hm
  · exact hi (hby i u d hm)

theorem Late.begins (h : Late s none i r e) (hquiet : Quiet s i) (hr : Rebuff r e)
    (hb : Begins s l s' run) : Quiet s' i ∧ Late s' run i r e := by
  by_cases hi : l.actor? = some i
  · obtain ⟨he, hlate⟩ := h.acts hr hb hi
    exact ⟨fun u d hm => hquiet u d (he ▸ hm), hlate⟩
  · refine ⟨hquiet.begins hb hi, ?_⟩
    cases h with
    | fresh hf =>
      refine .fresh (hb.others hi hf) ?_
      rintro a rfl
      exact hi hb.runs
    | looks hrun => cases hrun
    | ended hp hover => exact .ended (hb.others hi hp) hover

theorem Late.turn {a : Act} {next : Option Act} (h : Late s (some (c, a)) i r e) (hquiet : Quiet s i)
    (o : Orderly tr s (some (c, a))) (hcl : s.cache.closed = true) (ht : Turn c s a s' next) :
    Quiet s' i ∧ Late s' (next.map fun a => (c, a)) i r e := by
  obtain ⟨owner, hs⟩ := o.sound
  obtain ⟨q, hq, hno, -⟩ := (o.storied.act c a rfl).stale
  cases h with
  | fresh hf hidle =>
    have hi : i ≠ c := by
      rintro rfl
      exact hidle a rfl
    exact ⟨hquiet.turn hs ht hi, .fresh (ht.others hi hf) (idle_of_ne hi)⟩
  | looks hrun he =>
    cases hrun
    subst he
    obtain ⟨hd, hend⟩ := ht.rebuffs hs hcl hq
    exact ⟨fun u d hm => hquiet u d (hd ▸ hm), .ended hend (.inl rfl)⟩
  | ended hp hover =>
    have hi : i ≠ c := by
      rintro rfl
      cases hp.symm.trans hq
      rcases hover with rfl | rfl | rfl <;> cases hno
    exact ⟨hquiet.turn hs ht hi, .ended (ht.others hi hp) hover⟩

/-- A call that was made before a shutdown, and did not run before it. -/
theorem Shuts.late (hsh : Shuts s₀ c s run) (hrun : Run PublicOnly tr s₀)
    (hc : s₀.calls.get? c = some (.fresh .shutdown)) (hr : Rebuff r e) (hmade : Made tr i r)
    (hi : Unbegun s₀ i) : Quiet s i ∧ Late s run i r e := by
  have st := hrun.orderly.storied
  obtain ⟨q, hq⟩ := st.requested.there i r hmade
  obtain ⟨r', rfl⟩ := hi q hq
  obtain rfl : r' = r := by
    cases st.story i _ hq (fun _ => nofun) with
    | fresh _ hmade' => exact st.requested.once i _ _ hmade' hmade
    | task hno => exact (hno r hmade).elim
  refine ⟨fun u d ha => ?_, .fresh (hsh.calls ▸ hq) fun a ha => ?_⟩
  · rw [hsh.deeds] at ha
    have ha : Event.asked i u d ∈ s₀.deeds := by simpa using ha
    obtain ⟨p, hp, hno⟩ := hrun.begun (mem_deeds.1 ha).1
    exact hno r' (Option.some.inj (hp.symm.trans hq))
  · obtain ⟨rs, hrs⟩ := hsh.runs
    cases hrs.symm.trans ha
    cases hc.symm.trans hq
    rcases hr.cases with ⟨w, h, -⟩ | h <;> cases h

/-- A call that is made just now. -/
theorem Begins.late (hb : Begins s (.call r) s' run) (hrun : Run PublicOnly tr s)
    (hi : s.calls.size = i) : Quiet s' i ∧ Late s' run i r e := by
  subst hi
  cases hb with
  | call =>
    refine ⟨fun u d ha => ?_, .fresh ((Registry.get?_add _ _ _).trans (if_pos rfl)) (fun _ => nofun)⟩
    rw [deeds_start] at ha
    obtain ⟨p, hp, -⟩ := hrun.begun (mem_deeds.1 ha).1
    exact Nat.lt_irrefl _ (Registry.lt_size_of_get? hp)
  | stop hl => rcases hl with ⟨h, -⟩ | ⟨h, -⟩ <;> cases h

end

/-- A call that begins after a shutdown asks nothing of the wire client, and fails. -/
theorem Run.late {tr after : List (Label × Factory)} {s₀ s : Factory} (h : Run PublicOnly tr s)
    (hs : ShutDown tr s₀ after) {i : CallId} {r : Request} {e : Error} (hr : Rebuff r e)
    (hmade : Made tr i r) (hi : Unbegun s₀ i) : Quiet s i ∧ Late s none i r e := by
  refine (Run.induct_shut (J := fun s₀ _ tr s run => Made tr i r → Unbegun s₀ i →
    Quiet s i ∧ Late s run i r e) ?_ ?_ ?_ h hs).2 hmade hi
  · rintro tr s₀ s₁ c run hrun hc hsh ⟨s₂, hm, hsize⟩ hi
    exact hsh.late hrun hc hr ⟨s₂, by simpa using hm, hsize⟩ hi
  · rintro tr after s₀ s s₁ l run hrun - ih hb ⟨s₂, hm, hsize⟩ hi
    rcases List.mem_cons.1 hm with heq | hm
    · cases heq
      exact hb.late hrun hsize
    · obtain ⟨hquiet, hlate⟩ := ih ⟨s₂, hm, hsize⟩ hi
      exact hlate.begins hquiet hr hb
  · intro tr after s₀ s s₁ c a next o ha ih ht hmade hi
    obtain ⟨hquiet, hlate⟩ := ih hmade hi
    exact hlate.turn hquiet o ha.closed ht

theorem Late.fails {s : Factory} {i : CallId} {r : Request} {e : Error} (h : Late s none i r e)
    (hr : Rebuff r e) (hcl : s.cache.closed = true) : Fails s i e := by
  cases h with
  | fresh hf =>
    rcases hr.cases with ⟨w, rfl, rfl⟩ | rfl
    · have hstep : s.step (.resume i) =
          some ((s.note (.lookedUp i w.topic)).finish i (.failed .factoryClosed)) := by
        simp [step, hf, resume, begin, look, note, hcl]
      exact .next hstep (get?_goTo hf)
    · have hstep : s.step (.resume i) = some (s.finish i (.failed e)) := by
        simp [step, hf, resume, begin]
      exact .next hstep (get?_goTo hf)
  | looks hrun => cases hrun
  | ended hp hover =>
    rcases hover with rfl | rfl | rfl
    · exact .failed hp
    · exact .stopped (.inl hp)
    · exact .stopped (.inr hp)

section

variable {tr : List (Label × Factory)} {s s' s₀ : Factory} {c i : CallId} {l : Label}
  {run : Option (CallId × Act)} {owner : CellId → String}

/-- The step of a call that waits for a handle. -/
theorem Wanes.begins {p : Progress} (h : Wanes p) (hp : s.calls.get? i = some p)
    (hb : Begins s l s' run) (hi : l.actor? = some i) : Waning s' run i := by
  cases hb with
  | @stop _ _ _ final _ hl hc hs =>
    have hcall : ((Factory.goTo _ i final).note (.finished i)).calls.get? i = some final :=
      get?_goTo ((LetsGo.calls_eq hs).symm ▸ hp)
    rcases hl with ⟨rfl, rfl⟩ | ⟨rfl, rfl⟩ <;> cases hi
    · exact .waits (fun _ => nofun) hcall .aborted
    · exact .waits (fun _ => nofun) hcall .crashed
  | call | leased | denied | released => cases hi
  | want hc =>
    cases hi
    exact .runs rfl .look
  | filled hc =>
    cases hi
    exact .runs rfl .place
  | create hc =>
    cases hi
    exact .waits (fun _ => nofun) (get?_goTo hc) .creating
  | created hc =>
    cases hi
    exact .runs rfl .place
  | failed hc =>
    cases hi
    exact .waits (fun _ => nofun) (get?_goTo hc) .uncreated
  | retire hc | closed hc =>
    cases hi
    cases hc.symm.trans hp
    cases h with
    | retiring hnext => exact .runs rfl (.retire hnext)
  | drain hc htaken =>
    cases hi
    cases hc.symm.trans hp
    cases h
    rcases htaken with ⟨h, -⟩ | ⟨h, -⟩ <;> cases h
  | refuse hc | await hc | dispatch hc | settled hc | receipt hc | rejected hc | accepted hc
  | completed hc =>
    cases hi
    cases hc.symm.trans hp
    cases h

/-- A call that waits for a handle gets none while the map has none for its topic. -/
theorem WanesAt.turn {a : Act} {next : Option Act} {w : Want} (o : Orderly tr s (some (c, a)))
    (hcl : s.cache.closed = true) (hmade : Made tr c (.want w)) (hp : w.purpose ≠ .peek)
    (h : WanesAt a) (ht : Turn c s a s' next) : Waning s' (next.map fun a => (c, a)) c := by
  obtain ⟨owner, hs⟩ := o.sound
  obtain ⟨⟨r, hmade', hfor⟩, -, q, hq, -⟩ := o.storied.act c a rfl
  cases o.storied.requested.once c _ _ hmade hmade'
  cases ht with
  | found ho | spin ho | create ho | queue ho => cases ho.symm.trans hcl
  | lost hcell hx => exact (Sound.not_lost hs hcell hx).elim
  | handle | denied | lease | send | enqueue | promise => cases h
  | refused => exact .waits (by simp) (get?_goTo hq) .refused
  | keep hkeep =>
    cases hfor
    rcases o.inUse.mapped _ _ (hs.act c _ rfl) (hkeep.resolve_left hp) with hin | ⟨_, _, _, he⟩
    · cases (hs.tidy.handle?_of_closed hcl _).symm.trans hin
    · cases he
  | again => exact .runs rfl .look
  | placed => exact .runs rfl .give
  | superseded | shut => exact .runs rfl (.retire (by simp))
  | skip | elsewhere | close | park =>
    cases h with
    | retire hnext => exact .runs rfl (.retire hnext)
  | goOn => exact .runs rfl .give
  | fail => exact .waits (by simp) (get?_goTo hq) .refused
  | count =>
    cases h with
    | retire hnext => exact (hnext rfl).elim
  | wait =>
    cases h with
    | retire hnext => exact .waits (by simp) (get?_goTo hq) (.retiring hnext)

theorem Shuts.waning {w : Want} {p : Progress} (hsh : Shuts s₀ c s run) (hrun : Run PublicOnly tr s₀)
    (hc : s₀.calls.get? c = some (.fresh .shutdown)) (hmade : Made tr i (.want w))
    (hp : s₀.calls.get? i = some p) (ho : Progress.isOver p = false) (hh : p.held? = none) :
    Waning s run i := by
  have st := hrun.orderly.storied
  obtain ⟨rs, rfl⟩ := hsh.runs
  refine .waits ?_ (hsh.calls ▸ hp) ?_
  · rintro a ha
    cases ha
    cases hc.symm.trans hp
    cases st.requested.once _ _ _ hmade ((st.story _ _ hc fun _ => nofun).of_fresh trivial).1
  · cases st.story i p hp (fun _ => nofun) with
    | @fresh r _ hmade' =>
      cases st.requested.once i _ _ hmade hmade'
      exact .fresh
    | queued => exact .queued
    | creating => exact .creating
    | giving | refusing => exact .retiring nofun
    | counting hmade' hr =>
      cases st.requested.once i _ _ hmade hmade'
      rcases hr with hr | hr <;> cases hr
    | awaiting hmade' => cases st.requested.once i _ _ hmade hmade'
    | spinning => exact .spinning
    | task | sending | enqueuing | completing => cases hh
    | ended | delivered | aborted | crashed => cases ho

end

/-- A call that waited for a handle at a shutdown has not got one. -/
theorem Run.waning {tr after : List (Label × Factory)} {s₀ s : Factory} (h : Run PublicOnly tr s)
    (hs : ShutDown tr s₀ after) {i : CallId} {w : Want} {p : Progress} (hmade : Made tr i (.want w))
    (hw : w.purpose ≠ .peek) (hp : s₀.calls.get? i = some p) (ho : Progress.isOver p = false)
    (hh : p.held? = none) : Waning s none i := by
  refine (Run.induct_shut (J := fun s₀ _ tr s run => Made tr i (.want w) →
    s₀.calls.get? i = some p → Waning s run i) ?_ ?_ ?_ h hs).2 hmade hp
  · rintro tr s₀ s₁ c run hrun hc hsh ⟨s₂, hm, hsize⟩ hp
    exact hsh.waning hrun hc ⟨s₂, by simpa using hm, hsize⟩ hp ho hh
  · rintro tr after s₀ s s₁ l run hrun ha ih hb ⟨s₂, hm, hsize⟩ hp
    have hmade : Made tr i (.want w) := by
      rcases List.mem_cons.1 hm with heq | hm
      · -- The call was there before.
        cases heq
        have hlt := Nat.lt_of_lt_of_le (Registry.lt_size_of_get? hp) ha.calls
        exact absurd hlt (Nat.not_lt.2 (Nat.le_of_eq hsize))
      · exact ⟨s₂, hm, hsize⟩
    cases ih hmade hp with
    | waits _ hq hwanes =>
      by_cases hact : l.actor? = some i
      · exact hwanes.begins hq hb hact
      · refine .waits ?_ (hb.others hact hq) hwanes
        rintro a rfl
        exact hact hb.runs
    | runs hrun => cases hrun
  · intro tr after s₀ s s₁ c a next o ha ih ht hmade hp
    cases ih hmade hp with
    | waits hidle hq hwanes =>
      have hic : i ≠ c := by
        rintro rfl
        exact hidle a rfl
      exact .waits (idle_of_ne hic) (ht.others hic hq) hwanes
    | runs hrun hat =>
      cases hrun
      exact hat.turn o ha.closed hmade hw ht

/-! ## 3. Producers -/

section

variable {tr : List (Label × Factory)} {s s' : Factory} {c : CallId} {l : Label} {v : HandleId}
  {x : Handle}

/-- A closed cache has every handle that is placed retired. -/
theorem place_of_closed {b : Cache} (hcl : b.closed = true) (retiring : Bool) (t : String)
    (k : CellId) (v : HandleId) : b.place retiring t k v = (.closed v, b) := by
  unfold Cache.place
  rw [if_pos hcl]

/-- What the call that runs is about to close is closed at its last turn. -/
theorem Charges.turn {a : Act} {next : Option Act} (hch : Charges a v x.retiring)
    (hcl : s.cache.closed = true) (hx : s.handles.get? v = some x) (hopen : x.closed = false)
    (hb : x.borrows = 0) (ht : Turn c s a s' next) :
    ∃ y, s'.handles.get? v = some y ∧ Expiring (next.map fun a => (c, a)) v y := by
  generalize hr : x.retiring = retiring at hch
  cases hch with
  | place =>
    cases ht with
    | placed hp hout =>
      cases (place_of_closed hcl _ _ _ _).symm.trans hp
      rcases hout with h | h <;> cases h
    | superseded hp => cases (place_of_closed hcl _ _ _ _).symm.trans hp
    | shut hp =>
      cases (place_of_closed hcl _ _ _ _).symm.trans hp
      refine ⟨x.stopLeasing, ?_, .inr ⟨c, _, rfl, .retire nofun, hopen, hb⟩⟩
      rw [get?_stopAll, hx]
      simp
  | retire hnext =>
    cases ht with
    | skip h =>
      rcases h with h | h
      · exact (h rfl).elim
      · cases h.symm.trans hx
    | elsewhere _ hx' _ hclosed =>
      cases hx.symm.trans hx'
      cases hopen.symm.trans hclosed
    | close _ hx' =>
      cases hx.symm.trans hx'
      refine ⟨{ x.claimClose.2 with closes := x.closes + 1 }, ?_, .inl rfl⟩
      show (s.handles.update v _).get? v = _
      rw [Registry.get?_update, if_pos rfl, hx]
      rfl
    | park _ hx' hborrowed =>
      cases hx.symm.trans hx'
      exact (hborrowed hb).elim

end

/-- A producer that was opened after a shutdown is closed, or about to be. -/
theorem Run.expiring {tr after : List (Label × Factory)} {s₀ s : Factory} (h : Run PublicOnly tr s)
    (hs : ShutDown tr s₀ after) :
    ∀ v x, s₀.handles.size ≤ v → s.handles.get? v = some x → Expiring none v x := by
  refine (Run.induct_shut (J := fun s₀ _ _ s run => ∀ v x, s₀.handles.size ≤ v →
    s.handles.get? v = some x → Expiring run v x) ?_ ?_ ?_ h hs).2
  · intro tr s₀ s₁ c run _ _ hsh v x hv hx
    rw [hsh.handles] at hx
    have hlt := Registry.lt_size_of_get? hx
    rw [size_stopAll] at hlt
    omega
  · intro tr after s₀ s s₁ l run _ _ ih hb v y hv hy
    by_cases hlt : v < s.handles.size
    · -- It was closed before.
      obtain ⟨x, hx⟩ := Registry.exists_get?_of_lt hlt
      obtain ⟨y', hy', hl⟩ := hb.later v x hx
      cases hy.symm.trans hy'
      rcases ih v x hv hx with hclosed | ⟨_, _, hrun, -⟩
      · exact .inl (hl.closed hclosed)
      · cases hrun
    · have hsize := Registry.lt_size_of_get? hy
      rcases hb.handles_size with heq | ⟨c, u, m, w, k, rfl, rfl, hc, hadd⟩
      · omega
      · rw [hadd, Registry.size_add] at hsize
        obtain rfl : v = s.handles.size := by omega
        rw [hadd, Registry.get?_add, if_pos rfl] at hy
        cases hy
        exact .inr ⟨c, _, rfl, .place, rfl, rfl⟩
  · intro tr after s₀ s s₁ c a next o ha ih ht v y hv hy
    have hlt := Registry.lt_size_of_get? hy
    rw [ht.handles_size] at hlt
    obtain ⟨x, hx⟩ := Registry.exists_get?_of_lt hlt
    rcases ih v x hv hx with hclosed | ⟨c', a', hrun, hch, hopen, hb⟩
    · obtain ⟨y', hy', hl⟩ := ht.later v x hx
      cases hy.symm.trans hy'
      exact .inl (hl.closed hclosed)
    · cases hrun
      obtain ⟨y', hy', hexp⟩ := hch.turn ha.closed hx hopen hb ht
      cases hy.symm.trans hy'
      exact hexp

/-! ## 4. The end of a factory -/

/-- A shutdown is final in every run: no call gets a handle or a lease any more, and no producer stays
open. -/
theorem shutdown_terminal {tr after : List (Label × Factory)} {s₀ s : Factory}
    (h : Run PublicOnly tr s) (hs : ShutDown tr s₀ after) : Terminal tr s₀ s := by
  have hclosed := (h.after hs).closed
  obtain ⟨owner, hsound⟩ := h.orderly.sound
  refine ⟨hclosed, hsound.tidy.closed hclosed, fun i r e hr hmade hi => ?_,
    fun i w p o hmade hw hp ho hh hend => ?_, fun v hv hlt => ?_⟩
  · obtain ⟨hquiet, hlate⟩ := h.late hs hr hmade hi
    exact ⟨fun u d hm => hquiet u d (mem_deeds.2 ⟨hm, rfl⟩), hlate.fails hr hclosed⟩
  · cases h.waning hs hmade hw hp ho hh with
    | waits _ hq hwanes =>
      cases hend.symm.trans hq
      cases hwanes with
      | refused => exact .inl rfl
      | uncreated =>
        obtain ⟨rfl, -, u, hasked, ha⟩ := h.orderly.storied.uncreated hmade hend
        exact .inr ⟨u, _, rfl, hasked, ha⟩
    | runs hrun => cases hrun
  · obtain ⟨x, hx⟩ := Registry.exists_get?_of_lt hlt
    have hx' : x.closed = true := by
      rcases h.expiring hs v x hv hx with hx' | ⟨_, _, hrun, -⟩
      · exact hx'
      · cases hrun
    have b := h.orderly.balanced
    rw [b.closes v]
    unfold closesOf
    rw [hx, Option.map_some, Option.getD_some, (b.settled v x hx).closes, if_pos hx']

/-- A creation that is under way when the factory is shut down gives a producer that is closed again; the
caller, the one that waits for it and one that comes later fail. -/
theorem shutdown_terminal_during_creation :
    ∃ tr s₀ after s, Run PublicOnly tr s ∧ ShutDown tr s₀ after ∧
      s₀.calls.get? 0 = some (.creating ⟨"persistent://public/default/t", .open⟩ 0 0) ∧
      s.calls.get? 0 = some (.ended (.failed .factoryClosed)) ∧
      s.calls.get? 1 = some (.ended (.failed .factoryClosed)) ∧
      s.calls.get? 3 = some (.ended (.failed .factoryClosed)) ∧
      s.handles.size = 1 ∧ s.closeCount 0 = 1 ∧ ∀ u d, .asked 3 u d ∉ s.events := by
  have h : Run PublicOnly _ _ :=
    Run.new.play [.call (.createProducer "t"), .call (.createProducer "public/default/t"), .resume 0,
      .resume 1, .call .shutdown, .resume 2, .answer 0 0 (.opened (.ok .sequential)), .call (.acquire "t"),
      .resume 3, .answer 0 1 (.closed (.ok ())), .resume 1]
      (by simp [PublicOnly, Request.IsPublic, Request.createProducer, Request.acquire]) rfl
  have hend := shutdown_terminal h (⟨2, _, rfl, rfl⟩ : ShutDown _ _ [_, _, _, _, _])
  refine ⟨_, _, [_, _, _, _, _], _, h, ⟨2, _, rfl, rfl⟩, ?_⟩
  exact ⟨rfl, rfl, rfl, rfl, rfl, hend.opened 0 (Nat.le_refl _) (by decide),
    (hend.late 3 _ _ (.acquire "t") ⟨_, List.mem_of_getElem? (i := 3) rfl, rfl⟩ fun _ h => by cases h).1⟩

/-! ## 5. Producers that are asked for later -/

section

variable {tr after : List (Label × Factory)} {s s' s₀ : Factory} {c i : CallId} {l : Label}
  {run : Option (CallId × Act)} {owner : CellId → String} {u : Ticket} {t : String} {k : CellId}

theorem AskedSince.mono {es : List Event} (h : AskedSince s₀ s i u t)
    (he : s'.deeds = s.deeds ++ es) : AskedSince s₀ s' i u t := by
  refine ⟨h.1, ?_⟩
  have hm : Event.asked i u (.openProducer t) ∈ s'.deeds := by
    rw [he]
    exact List.mem_append_left _ (mem_deeds.2 ⟨h.2, rfl⟩)
  exact (mem_deeds.1 hm).1

/-- A request for a producer was made before a change, or is one of those that it adds. -/
theorem AskedSince.old_or {es : List Event} (h : AskedSince s₀ s' i u t)
    (he : s'.deeds = s.deeds ++ es) :
    AskedSince s₀ s i u t ∨ .asked i u (.openProducer t) ∈ es := by
  have hm : Event.asked i u (.openProducer t) ∈ s'.deeds := mem_deeds.2 ⟨h.2, rfl⟩
  rw [he] at hm
  rcases List.mem_append.1 hm with hm | hm
  · exact .inl ⟨h.1, (mem_deeds.1 hm).1⟩
  · exact .inr hm

theorem hasTurn_setCell {b : Cache} {j : CellId} {f : Cell → Cell} (h : (b.setCell j f).HasTurn i k) :
    b.HasTurn i k ∨ (j = k ∧ ∃ x, b.cells.get? k = some x ∧ (f x).turn = some i ∧ (f x).value = none) := by
  obtain ⟨y, hy, hturn, hv⟩ := h
  have hy : (b.cells.update j f).get? k = some y := hy
  rw [Registry.get?_update] at hy
  split at hy
  · next hj =>
    obtain ⟨x, hx, rfl⟩ := Option.map_eq_some_iff.1 hy
    exact .inr ⟨hj, x, hx, hturn, hv⟩
  · exact .inl ⟨y, hy, hturn, hv⟩

/-- A call in line gets the turn only when a creation comes to nothing. -/
theorem Begins.hasTurn (hb : Begins s l s' run) (hl : ¬ Thwarts (l, s)) (hno : ∀ i t, ¬ IsNext s i t)
    (h : s'.cache.HasTurn i k) : s.cache.HasTurn i k := by
  cases hb with
  | drain _ htaken => rcases htaken with ⟨-, rfl⟩ | ⟨-, rfl⟩ <;> exact h
  | created =>
    rcases hasTurn_setCell h with h | ⟨-, x, -, -, hv⟩
    · exact h
    · cases hv
  | failed => exact (hl trivial).elim
  | @stop c _ _ _ s₁ hfinal hc hs =>
    cases hs with
    | creating => rcases hfinal with ⟨rfl, -⟩ | ⟨rfl, -⟩ <;> exact (hl ⟨_, _, _, hc⟩).elim
    | @queued w j =>
      have h : (s.cache.setCell j fun x => (x.leave c).1).HasTurn i k := h
      rcases hasTurn_setCell h with h | ⟨rfl, x, hx, hturn, hv⟩
      · exact h
      · rw [Cache.value_leave] at hv
        by_cases hc' : x.turn = some c
        · exact (hno c w.topic ⟨w, j, rfl, hc, x, hx, hc', hv⟩).elim
        · rw [Cell.leave, if_neg hc'] at hturn
          exact ⟨x, hx, hturn, hv⟩
    | _ => exact h
  | _ => exact h

/-- In a closed cache no call gets the turn when another one runs. -/
theorem Turn.hasTurn {a : Act} {next : Option Act} (hs : Sound owner s (some (c, a)))
    (hcl : s.cache.closed = true) (ht : Turn c s a s' next) (h : s'.cache.HasTurn i k) :
    s.cache.HasTurn i k := by
  cases ht with
  | create ho | queue ho => cases ho.symm.trans hcl
  | lost hcell hx => exact (Sound.not_lost hs hcell hx).elim
  | superseded hp => cases (place_of_closed hcl _ _ _ _).symm.trans hp
  | placed hp | shut hp =>
    cases (place_of_closed hcl _ _ _ _).symm.trans hp
    exact h
  | _ => exact h

/-- After a shutdown no call gets in line. -/
theorem Begins.queued {w : Want} (hb : Begins s l s' run)
    (hq : s'.calls.get? i = some (.queued w k)) : s.calls.get? i = some (.queued w k) := by
  rcases hb.moves hq with hq | hq
  · exact hq
  · cases hq

theorem Turn.queued {a : Act} {next : Option Act} {w : Want} (hs : Sound owner s (some (c, a)))
    (hcl : s.cache.closed = true) (ht : Turn c s a s' next)
    (hq : s'.calls.get? i = some (.queued w k)) : s.calls.get? i = some (.queued w k) := by
  cases ht.moves hs hq with
  | stays hq => exact hq
  | gets _ _ hr =>
    cases hr with
    | queued ho => cases ho.symm.trans hcl
  | begun _ _ he => cases he

/-- A call in line that goes on with the turn at its cell asks for a producer. -/
theorem IsNext.asks (h : IsNext s i t) (ha : s₀.tickets ≤ s.tickets)
    (hb : Begins s (.resume i) s' run) : AskedSince s₀ s' i s.tickets t := by
  obtain ⟨w, k, rfl, hq, x, hx, hturn, hv⟩ := h
  cases hb with
  | create hc =>
    cases hc.symm.trans hq
    exact ⟨ha, asked_of_deeds_eq (s := s) (t := s.tickets) (d := .openProducer w.topic) (by simp)⟩
  | filled hc hfilled =>
    cases hc.symm.trans hq
    simp [Cache.value?, hx, hv] at hfilled
  | want hc | refuse hc | drain hc | await hc | dispatch hc | retire hc | settled hc =>
    cases hc.symm.trans hq
  | stop hl => rcases hl with ⟨h, -⟩ | ⟨h, -⟩ <;> cases h

theorem Reopens.begins (h : Reopens s₀ after s) (ha : After s₀ s) (hb : Begins s l s' run) :
    Reopens s₀ ((l, s) :: after) s' := by
  obtain ⟨es, he, -, -, hopen⟩ := hb.writes
  -- Who asks just now was in line until now, and so asked for nothing before.
  have hnew : ∀ i u t u' t', .asked i u (.openProducer t) ∈ es → AskedSince s₀ s i u' t' → False := by
    intro i u t u' t' hm hold
    obtain ⟨-, -, -, w, k, -, hq, -⟩ := hopen i u t hm
    exact (h.asked i u' t' hold).2.2 w k hq
  refine ⟨fun i w k hq => h.queued i w k (hb.queued hq), fun i u t hu => ?_,
    fun i s₁ t hm hnext => ?_, fun i u t u' t' hu hu' => ?_⟩
  · rcases hu.old_or he with hold | hm
    · obtain ⟨⟨s₁, hm, hnext⟩, hwaited, hno⟩ := h.asked i u t hold
      exact ⟨⟨s₁, List.mem_cons_of_mem _ hm, hnext⟩, hwaited, fun w k hq => hno w k (hb.queued hq)⟩
    · obtain ⟨hasks, rfl, -, w, k, rfl, hq, hturn⟩ := hopen i u t hm
      refine ⟨⟨s, List.mem_cons_self, w, k, rfl, hq, hturn⟩, ⟨w, k, rfl, h.queued i w k hq⟩, ?_⟩
      intro w' k' hq'
      obtain ⟨w₁, k₁, -, hcalls⟩ := hasks.waits
      rw [hcalls, get?_goTo hq] at hq'
      cases hq'
  · rcases List.mem_cons.1 hm with heq | hm
    · cases heq
      exact ⟨_, hnext.asks ha.tickets hb⟩
    · obtain ⟨u, hu⟩ := h.asks i s₁ t hm hnext
      exact ⟨u, hu.mono he⟩
  · rcases hu.old_or he with hold | hm <;> rcases hu'.old_or he with hold' | hm'
    · exact h.once i u t u' t' hold hold'
    · exact (hnew i u' t' u t hm' hold).elim
    · exact (hnew i u t u' t' hm hold').elim
    · obtain ⟨hasks, -, -, w, k, rfl, hq, -⟩ := hopen i u t hm
      obtain ⟨hasks', -, -, w', k', rfl, hq', -⟩ := hopen i u' t' hm'
      cases hq.symm.trans hq'
      exact ⟨hasks.ticket.trans hasks'.ticket.symm, rfl⟩

/-- In a closed cache nobody asks for a producer but calls in line. -/
theorem Turn.unopened {a : Act} {next : Option Act} (hs : Sound owner s (some (c, a)))
    (hcl : s.cache.closed = true) (ht : Turn c s a s' next) (hu : AskedSince s₀ s' i u t) :
    AskedSince s₀ s i u t := by
  obtain ⟨es, he, -, -, hopen⟩ := ht.writes hs
  rcases hu.old_or he with hold | hm
  · exact hold
  · obtain ⟨-, -, -, ho, -⟩ := hopen i u t hm
    cases ho.symm.trans hcl

theorem Reopens.turn {a : Act} {next : Option Act} (h : Reopens s₀ after s)
    (hs : Sound owner s (some (c, a))) (hcl : s.cache.closed = true) (ht : Turn c s a s' next) :
    Reopens s₀ after s' := by
  have hold : ∀ {i u t}, AskedSince s₀ s' i u t → AskedSince s₀ s i u t := fun hu =>
    ht.unopened hs hcl hu
  refine ⟨fun i w k hq => h.queued i w k (ht.queued hs hcl hq), fun i u t hu => ?_,
    fun i s₁ t hm hnext => ?_, fun i u t u' t' hu hu' => h.once i u t u' t' (hold hu) (hold hu')⟩
  · obtain ⟨hsince, hwaited, hno⟩ := h.asked i u t (hold hu)
    exact ⟨hsince, hwaited, fun w k hq => hno w k (ht.queued hs hcl hq)⟩
  · obtain ⟨u, hu⟩ := h.asks i s₁ t hm hnext
    obtain ⟨es, he, -⟩ := ht.writes hs
    exact ⟨u, hu.mono he⟩

end

theorem Run.reopens {tr after : List (Label × Factory)} {s₀ s : Factory} (h : Run PublicOnly tr s)
    (hs : ShutDown tr s₀ after) : Reopens s₀ after s := by
  refine (Run.induct_shut (J := fun s₀ after _ s _ => Reopens s₀ after s) ?_ ?_ ?_ h hs).2
  · intro tr s₀ s₁ c run hrun _ hsh
    have hnone : ∀ i u t, ¬ AskedSince s₀ s₁ i u t := by
      intro i u t hu
      rcases hu.old_or hsh.deeds with ⟨hle, hm⟩ | hm
      · -- The ticket of a request that was made before is a smaller one.
        have hm : u ∈ s₀.deeds.filterMap Event.ticket? :=
          List.mem_filterMap.2 ⟨_, mem_deeds.2 ⟨hm, rfl⟩, rfl⟩
        rw [hrun.numbered, List.mem_range] at hm
        exact Nat.not_le.2 hm hle
      · cases List.mem_singleton.1 hm
    exact ⟨fun i w k hq => hsh.calls ▸ hq, fun i u t hu => (hnone i u t hu).elim, nofun,
      fun i u t _ _ hu => (hnone i u t hu).elim⟩
  · intro tr after s₀ s s₁ l run _ ha ih hb
    exact ih.begins ha hb
  · intro tr after s₀ s s₁ c a next o ha ih ht
    obtain ⟨owner, hsound⟩ := o.sound
    exact ih.turn hsound ha.closed ht

/-- While no creation comes to nothing after a shutdown, no call in line gets the turn. -/
theorem Run.unthwarted {tr after : List (Label × Factory)} {s₀ s : Factory} (h : Run PublicOnly tr s)
    (hs : ShutDown tr s₀ after) (hno : ∀ i t, ¬ IsNext s₀ i t) (hafter : ∀ x ∈ after, ¬ Thwarts x) :
    ∀ x ∈ after, ∀ i t, ¬ IsNext x.2 i t := by
  refine (Run.induct_shut (J := fun s₀ after _ s _ => (∀ i t, ¬ IsNext s₀ i t) →
    (∀ x ∈ after, ¬ Thwarts x) → (∀ i t, ¬ IsNext s i t) ∧ ∀ x ∈ after, ∀ i t, ¬ IsNext x.2 i t)
    ?_ ?_ ?_ h hs).2 hno hafter |>.2
  · rintro tr s₀ s₁ c run _ _ hsh hno -
    refine ⟨?_, fun _ => nofun⟩
    rintro i t ⟨w, k, ht, hq, x, hx, hturn⟩
    exact hno i t ⟨w, k, ht, hsh.calls ▸ hq, x, hsh.cells ▸ hx, hturn⟩
  · intro tr after s₀ s s₁ l run _ _ ih hb hno hafter
    obtain ⟨hnow, hpast⟩ := ih hno fun x hx => hafter x (List.mem_cons_of_mem _ hx)
    refine ⟨?_, fun x hx => ?_⟩
    · rintro i t ⟨w, k, ht, hq, hturn⟩
      have hturn := hb.hasTurn (hafter _ List.mem_cons_self) hnow hturn
      exact hnow i t ⟨w, k, ht, hb.queued hq, hturn⟩
    · rcases List.mem_cons.1 hx with rfl | hx
      · exact hnow
      · exact hpast x hx
  · intro tr after s₀ s s₁ c a next o ha ih ht hno hafter
    obtain ⟨hnow, hpast⟩ := ih hno hafter
    obtain ⟨owner, hsound⟩ := o.sound
    refine ⟨?_, hpast⟩
    rintro i t ⟨w, k, htopic, hq, hturn⟩
    exact hnow i t ⟨w, k, htopic, ht.queued hsound ha.closed hq, ht.hasTurn hsound ha.closed hturn⟩

/-- After a shutdown producers are asked for in every run by those calls, and only those, that were in line
for one and get the turn at their cell; so by none, where no creation comes to nothing. -/
theorem late_openings {tr after : List (Label × Factory)} {s₀ s : Factory} (h : Run PublicOnly tr s)
    (hs : ShutDown tr s₀ after) : LateOpenings s₀ after s where
  exactly i t := by
    constructor
    · rintro ⟨u, hu⟩
      exact ((h.reopens hs).asked i u t hu).1
    · rintro ⟨s₁, hm, hnext⟩
      exact (h.reopens hs).asks i s₁ t hm hnext
  waited i u t hu := ((h.reopens hs).asked i u t hu).2.1
  once := (h.reopens hs).once
  unthwarted hno hafter i u t hu := by
    obtain ⟨s₁, hm, hnext⟩ := ((h.reopens hs).asked i u t hu).1
    exact h.unthwarted hs hno hafter _ hm i t hnext

/-- A caller gives up a creation after the shutdown, and the next one in line opens a producer. -/
theorem late_openings_after_abort :
    ∃ tr s₀ after s, Run PublicOnly tr s ∧ ShutDown tr s₀ after ∧
      (∃ u, AskedSince s₀ s 1 u "persistent://public/default/t") ∧
      s.calls.get? 1 = some (.ended (.failed .factoryClosed)) := by
  have h : Run PublicOnly _ _ :=
    Run.new.play [.call (.createProducer "t"), .call (.acquire "public/default/t"), .resume 0,
      .resume 1, .call .shutdown, .resume 2, .abort 0, .resume 1, .answer 1 1 (.opened (.ok .pipelined)),
      .answer 1 2 (.closed (.ok ()))]
      (by simp [PublicOnly, Request.IsPublic, Request.createProducer, Request.acquire]) rfl
  have hlate := late_openings h (⟨2, _, rfl, rfl⟩ : ShutDown _ _ [_, _, _, _])
  refine ⟨_, _, [_, _, _, _], _, h, ⟨2, _, rfl, rfl⟩, ?_, rfl⟩
  exact (hlate.exactly 1 _).2 ⟨_, List.mem_of_getElem? (i := 2) rfl, ⟨_, .lease⟩, 0, rfl, rfl, _, rfl,
    rfl, rfl⟩

/-- Two calls for one topic come, the factory is shut down, and then the creation of the first one fails. The
second one goes on and opens a producer. -/
theorem opened_after_shutdown :
    ∃ tr s₀ after s, Run PublicOnly tr s ∧ ShutDown tr s₀ after ∧
      tr.map Prod.fst = [.resume 1, .answer 0 0 (.opened (.error .closed)), .resume 2, .call .shutdown,
        .resume 1, .resume 0, .call (.createProducer "orders"), .call (.createProducer "orders")] ∧
      after.map Prod.fst = [.resume 1, .answer 0 0 (.opened (.error .closed))] ∧
      AskedSince s₀ s 1 1 "persistent://public/default/orders" := by
  have h : Run PublicOnly _ _ :=
    Run.new.play [.call (.createProducer "orders"), .call (.createProducer "orders"), .resume 0,
      .resume 1, .call .shutdown, .resume 2, .answer 0 0 (.opened (.error .closed)), .resume 1]
      (by simp [PublicOnly, Request.IsPublic, Request.createProducer]) rfl
  refine ⟨_, _, [_, _], _, h, ⟨2, _, rfl, rfl⟩, rfl, rfl, ?_⟩
  exact ⟨by decide, List.mem_of_getElem? (i := 10) rfl⟩

end Factory

end TopicPublisher
