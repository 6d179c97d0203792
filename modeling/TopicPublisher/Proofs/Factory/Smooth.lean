import Mathlib.Data.List.Basic
import TopicPublisher.Proofs.Factory.Fate
import TopicPublisher.Proofs.Factory.Outcomes

/-!
# Runs in which nothing is given up

The calls go on, the wire client answers, and its producers are pipelined. Nothing is aborted, nothing
crashes, and no caller resets the factory. In such a run a message is handed over by the call that was made
to send it, and what is known of its promise comes from an answer of the wire client.

The messages that producers got are listed over all calls (`handings`). Each step adds to the list what its
call adds to its own messages.

Results:
1. `Run.pipelined`, `Run.untasked`: the call of a send hands its message over itself.
2. `Run.told_of_promise`: the outcome of a promise was told by the wire client.
3. `Run.undrained_of_unshut`, `Run.closed_of_shut`: the cache before and after the shutdown.
4. `Run.step_later`, `Run.step_handings`, `Run.step_cached`, `Run.step_unasked`: what one step does.
5. `Run.handed_cached`: before the shutdown, messages go to the producer in the map.
6. `Run.all_closed`: after the shutdown, when no call is left that retires, every producer was closed.
-/

namespace TopicPublisher

/-- The message that a producer is handed by a request, with the ticket. -/
def Event.handing? : Event → Option (Ticket × Demand)
  | .asked _ t d => if d.receiver?.isSome = true then some (t, d) else none
  | _ => none

namespace Factory

/-! ## Definitions -/

/-- Calls go on and are answered, and all producers are pipelined. -/
def Smooth (_ : Factory) : Label → Prop
  | .call r => r.IsPublic ∧ r ≠ .reset
  | .resume _ => True
  | .answer _ _ (.opened (.ok mode)) => mode = .pipelined
  | .answer _ _ _ => True
  | _ => False

/-- The messages that producers were handed, in order. -/
def handings (s : Factory) : List (Ticket × Demand) := s.events.filterMap Event.handing?

/-- The wire client said what became of the message under a ticket: it did not take it, or it had a receipt
for it. -/
inductive Told (tr : List (Label × Factory)) (u : Ticket) : Except ClientError MessageId → Prop
  | refused {i : CallId} {e : ClientError} : Answered tr i u (.accepted (.error e)) → Told tr u (.error e)
  | receipt {i : CallId} {r : Except ClientError MessageId} : Answered tr i u (.receipt r) → Told tr u r

open SoundLemmas StoryLemmas

section

variable {tr : List (Label × Factory)} {s s' : Factory} {c i : CallId} {l : Label} {p : PendingId}
  {v : HandleId} {t : String}

/-! ## 1. Smooth runs -/

theorem Told.cons {u : Ticket} {r : Except ClientError MessageId} (h : Told tr u r)
    (y : Label × Factory) : Told (y :: tr) u r := by
  cases h with
  | refused ha => exact .refused (ha.cons y)
  | receipt ha => exact .receipt (ha.cons y)

theorem Smooth.publicOnly (h : Smooth s l) : PublicOnly s l := by
  cases l with
  | call => exact h.1
  | _ => trivial

theorem Smooth.undisturbed (h : Smooth s l) : Undisturbed s l := by
  cases l with
  | call => exact h.1
  | abort | crash => exact h.elim
  | _ => trivial

theorem Run.of_smooth (h : Run Smooth tr s) : Run PublicOnly tr s := h.mono fun _ _ => Smooth.publicOnly

theorem Made.cons_or {r : Request} (h : Made ((l, s) :: tr) i r) :
    (l = .call r ∧ s.calls.size = i) ∨ Made tr i r := by
  obtain ⟨s₀, hm, hsize⟩ := h
  rcases List.mem_cons.1 hm with heq | hm
  · cases heq
    exact .inl ⟨rfl, hsize⟩
  · exact .inr ⟨s₀, hm, hsize⟩

theorem Run.pipelined {x : Handle} (h : Run Smooth tr s) (hx : s.handles.get? v = some x) :
    x.mode = .pipelined := by
  obtain ⟨y, hy, i, u, s₀, -, ha, -⟩ := h.of_smooth.origins.opened v (Registry.lt_size_of_get? hx)
  cases hx.symm.trans hy
  exact h.ok_of_mem ha

/-- No call is begun to dispatch a message for another one. -/
theorem Run.untasked (h : Run Smooth tr s) (p : PendingId) (i : CallId) : ¬ Tasked tr p i := by
  rintro ⟨l, s₀, v, m, hm, hi⟩
  obtain ⟨before, hrun⟩ := h.before hm
  obtain ⟨x, hx, hmode⟩ := hrun.of_smooth.once.tasks i v m p hi
  cases (hrun.pipelined hx).symm.trans hmode

theorem Run.no_task {m : MessageSpec} (h : Run Smooth tr s) :
    s.calls.get? i ≠ some (.fresh (.dispatch v m p)) := by
  intro hi
  obtain ⟨x, hx, hmode⟩ := h.of_smooth.once.tasks i v m p hi
  cases (h.pipelined hx).symm.trans hmode

theorem Run.undying (h : Run Smooth tr s) : ¬ Dies tr p := by
  rintro ⟨l, s₀, i, hm, hl, -⟩
  have hok := h.ok_of_mem hm
  rcases hl with rfl | rfl <;> exact hok

/-- Only calls that were made to send hand over messages. -/
theorem Run.hands_nothing (h : Run Smooth tr s) (hno : ∀ w, ¬ Made tr c (.want w)) :
    handed s c = [] := by
  rcases h.of_smooth.once.hand c with hnone | ⟨u, d, -, hand⟩
  · exact hnone
  · cases hand with
    | own hmade => exact (hno _ hmade).elim
    | task htask => exact (h.untasked _ _ htask).elim

/-! ## 2. Promises -/

/-- A call that promised a send handed the message over, and the outcome of the promise, once there is one,
is what the wire client told. -/
theorem Run.told_of_promise {w : Want} (h : Run Smooth tr s) (hmade : Made tr c (.want w))
    (hc : s.calls.get? c = some (.ended (.promised p))) :
    ∃ u m, w.purpose = .send m .promised ∧ (∃ v, s.topic? v = some w.topic ∧
      handed s c = [(u, .enqueue v m)]) ∧ ∀ q r, s.pending.get? p = some q → q.outcome? = some r →
      ∃ x, Told tr u x ∧ r = resultOf w.topic x := by
  obtain ⟨m, hp, q, hq, htopic, pr⟩ := h.of_smooth.orderly.storied.promised hmade hc
  have hlost : q.state ≠ .abandoned := fun hst => h.undying (h.of_smooth.abandoned hq hst)
  generalize hst : q.state = st at pr
  cases pr with
  | @rejected v u e hone ht ha =>
    refine ⟨u, m, hp, ⟨v, ht, hone⟩, fun q' r hq' hr => ⟨.error e, .refused ha, ?_⟩⟩
    cases hq.symm.trans hq'
    rw [Pending.outcome?, hst] at hr
    exact (Option.some.inj hr).symm
  | @enqueued v u d _ hone ht _ _ hreceives =>
    refine ⟨u, m, hp, ⟨v, ht, hone⟩, fun q' r hq' hr => ?_⟩
    cases hq.symm.trans hq'
    rw [Pending.outcome?, hst] at hr
    cases hreceives with
    | waiting => cases hr
    | settled ha => exact ⟨_, .receipt ha, (Option.some.inj hr).symm⟩
    | abandoned => exact (hlost hst).elim
  | begun _ _ hd => exact (h.no_task hd).elim
  | dispatched _ _ htask | lost _ htask => exact (h.untasked _ _ htask).elim

/-! ## 3. The shutdown -/

/-- A factory that nobody asked to shut down is open, and its map was never emptied. -/
theorem Run.undrained_of_unshut (h : Run Smooth tr s) (hno : ∀ i, ¬ Made tr i .shutdown) :
    drainCount tr = 0 ∧ s.cache.closed = false := by
  have hboth : (∀ i, ¬ Made tr i .shutdown) → drainCount tr = 0 ∧ s.cache.closed = false := by
    refine h.induct (I := fun tr s _ => (∀ i, ¬ Made tr i .shutdown) →
      drainCount tr = 0 ∧ s.cache.closed = false) (fun _ => ⟨rfl, rfl⟩) ?_ ?_
    · intro tr s s₁ l run hrun hl ih hb hno
      have hold : ∀ i, ¬ Made tr i .shutdown := fun i hm => hno i (hm.cons (l, s))
      obtain ⟨hd, hcl⟩ := ih hold
      -- Who empties the map was made to reset the factory or to shut it down.
      have hdrain : ∀ {i r}, s.calls.get? i = some (.fresh r) → r ≠ .reset ∧ r ≠ .shutdown := by
        intro i r hi
        cases hrun.of_smooth.orderly.storied.story i _ hi (fun _ => nofun) with
        | fresh _ hmade =>
          obtain ⟨s₀, hm, hsize⟩ := hmade
          refine ⟨(hrun.ok_of_mem hm).2, ?_⟩
          rintro rfl
          exact hold i ⟨s₀, hm, hsize⟩
        | task => exact ⟨nofun, nofun⟩
      have hl' : IsDrain (l, s) = false := by
        cases l with
        | resume i =>
          unfold IsDrain
          cases hi : s.calls.get? i with
          | none => simp [hi]
          | some q =>
            cases q with
            | fresh r =>
              obtain ⟨hreset, hshut⟩ := hdrain hi
              cases r <;> simp_all
            | _ => simp [hi]
        | _ => rfl
      refine ⟨(drainCount_cons hl').trans hd, ?_⟩
      rcases hb.closed_or with he | ⟨-, i, hi⟩
      · exact he.trans hcl
      · exact ((hdrain hi).2 rfl).elim
    · intro tr s s₁ s₂ l c a next _ _ ih ht hno
      obtain ⟨hd, hcl⟩ := ih hno
      exact ⟨hd, ht.closed_eq.trans hcl⟩
  exact hboth hno

theorem isDrain_of_undrained (h : drainCount ((l, s) :: tr) = 0) : IsDrain (l, s) = false := by
  refine Bool.eq_false_iff.2 fun hd => ?_
  have hpos : drainCount ((l, s) :: tr) = drainCount tr + 1 := List.countP_cons_of_pos hd
  omega

/-- A shutdown has not run yet, or it has closed the cache. -/
theorem Run.closed_of_shut (h : Run Smooth tr s) (hmade : Made tr i .shutdown) :
    s.calls.get? i = some (.fresh .shutdown) ∨ s.cache.closed = true := by
  have hall := h.induct (I := fun tr s run => ∀ i, Made tr i .shutdown →
    (s.calls.get? i = some (.fresh .shutdown) ∧ ∀ a, run ≠ some (i, a)) ∨ s.cache.closed = true)
    (fun i ⟨_, hm, _⟩ => nomatch hm) ?_ ?_
  · exact (hall i hmade).imp_left And.left
  · intro tr s s₁ l run hrun hl ih hb i hm
    rcases hm.cons_or with ⟨rfl, rfl⟩ | hm
    · cases hb with
      | call => exact .inl ⟨(Registry.get?_add _ _ _).trans (if_pos rfl), fun _ => nofun⟩
      | stop hor => rcases hor with ⟨h, -⟩ | ⟨h, -⟩ <;> cases h
    · rcases ih i hm with ⟨hi, -⟩ | hcl
      · by_cases hact : l.actor? = some i
        · -- Its own step is the one that closes the cache.
          cases hb with
          | drain hc htaken =>
            cases hact
            cases hi.symm.trans hc
            rcases htaken with ⟨h, -⟩ | ⟨-, rfl⟩
            · cases h
            · exact .inr rfl
          | stop hor => rcases hor with ⟨rfl, -⟩ | ⟨rfl, -⟩ <;> exact hl.elim
          | call | leased | denied | released => cases hact
          | want hc | refuse hc | await hc | dispatch hc | filled hc | create hc | retire hc
          | settled hc | created hc | failed hc | receipt hc | rejected hc | accepted hc
          | completed hc | closed hc =>
            cases hact
            cases hi.symm.trans hc
        · refine .inl ⟨hb.others hact hi, fun a ha => hact ?_⟩
          subst ha
          exact hb.runs
      · rcases hb.closed_or with he | ⟨he, -⟩
        · exact .inr (he.trans hcl)
        · exact .inr he
  · rintro tr s s₁ s₂ l c a next - - ih ht i hm
    rcases ih i hm with ⟨hi, hrun⟩ | hcl
    · have hic : i ≠ c := by
        rintro rfl
        exact hrun a rfl
      exact .inl ⟨ht.others hic hi, idle_of_ne hic⟩
    · exact .inr (ht.closed_eq.trans hcl)

/-- When the cache is closed and no call closes producers any more, every producer was closed, once. -/
theorem Run.all_closed {x : Handle} (h : Run Smooth tr s) (hcl : s.cache.closed = true)
    (hno : ∀ c rs, s.calls.get? c ≠ some (.retiring rs .count)) (hx : s.handles.get? v = some x) :
    s.closeCount v = 1 ∧ x.borrows = 0 := by
  obtain ⟨owner, hsound⟩ := h.sound
  have hb := h.of_smooth.orderly.balanced
  have hclosed : x.closed = true := by
    cases (h.mono fun _ _ => Smooth.undisturbed).fated.fate v x hx with
    | kept hcur =>
      cases (hsound.tidy.handle?_of_closed hcl x.topic).symm.trans hcur
    | doomed _ _ _ _ hw =>
      rcases hw with ⟨-, rs, hrs, -⟩ | ⟨_, _, hrun, -⟩
      · exact (hno _ rs hrs).elim
      · cases hrun
    | shut _ _ hclosed => exact hclosed
    | loose hrun => cases hrun
  have hsettled := hb.settled v x hx
  refine ⟨?_, (hsettled.closed hclosed).2⟩
  rw [hb.closes v, closesOf, hx]
  exact hsettled.closes.trans (if_pos hclosed)

/-! ## 4. One step -/

/-- A call that is over makes no step. -/
theorem not_actor_of_ended {o : Outcome} (hs : s.step l = some s')
    (hi : s.calls.get? i = some (.ended o)) : l.actor? ≠ some i := by
  intro hact
  obtain ⟨s₁, run, hb, -⟩ := begins_of_step hs
  obtain ⟨q, hq, hno⟩ := hb.active hact
  cases hq.symm.trans hi
  cases hno

/-- A handle stays one of the same producer. -/
theorem Run.step_later (h : Run PublicOnly tr s) (hl : PublicOnly s l) (hs : s.step l = some s') :
    HandlesLater s.handles s'.handles :=
  h.step_induct (J := fun s₁ _ => HandlesLater s.handles s₁.handles) hl hs
    (fun _ hb => hb.later) fun _ ih ht => ih.trans ht.later

theorem Run.step_closed (h : Run PublicOnly tr s) (hl : PublicOnly s l) (hs : s.step l = some s')
    (hcl : s.cache.closed = true) : s'.cache.closed = true := by
  refine h.step_induct (J := fun s₁ _ => s₁.cache.closed = true) hl hs ?_ ?_
  · intro s₁ run _ hb
    rcases hb.closed_or with he | ⟨he, -⟩
    · exact he.trans hcl
    · exact he
  · intro s₁ s₂ c a next _ ih ht
    exact ht.closed_eq.trans ih

/-- What a step adds to the entries about producers comes from the call that it is about. -/
theorem Run.step_deeds (h : Run PublicOnly tr s) (hl : PublicOnly s l) (hs : s.step l = some s') :
    ∃ es, s'.deeds = s.deeds ++ es ∧ ∀ i u d, .asked i u d ∈ es → l.actor? = some i := by
  refine (h.step_induct (J := fun s₁ run => (∃ es, s₁.deeds = s.deeds ++ es ∧
    ∀ i u d, .asked i u d ∈ es → l.actor? = some i) ∧ ∀ c a, run = some (c, a) → l.actor? = some c)
    hl hs ?_ ?_).1
  · intro s₁ run o hb
    obtain ⟨es, he, -, hby, -⟩ := hb.writes
    refine ⟨⟨es, he, fun i u d hm => (hby i u d hm).1⟩, ?_⟩
    rintro c a rfl
    exact hb.runs
  · rintro s₁ s₂ c a next o ⟨⟨es, he, hby⟩, hruns⟩ ht
    obtain ⟨owner, hsound⟩ := o.sound
    obtain ⟨es', he', -, hby', -⟩ := ht.writes hsound
    have hc := hruns c a rfl
    refine ⟨⟨es ++ es', by rw [he', he, List.append_assoc], fun i u d hm => ?_⟩, ?_⟩
    · rcases List.mem_append.1 hm with hm | hm
      · exact hby i u d hm
      · exact hby' i u d hm ▸ hc
    · intro c' a' hrun
      obtain ⟨_, -, heq⟩ := Option.map_eq_some_iff.1 hrun
      cases heq
      exact hc

theorem handings_append {es : List Event} (he : s'.deeds = s.deeds ++ es) :
    handings s' = handings s ++ es.filterMap Event.handing? := by
  have hdeeds : ∀ s : Factory, handings s = s.deeds.filterMap Event.handing? := by
    intro s
    unfold handings deeds
    rw [List.filterMap_filter]
    refine congrArg (List.filterMap · s.events) (funext fun e => ?_)
    cases e <;> rfl
  rw [hdeeds, hdeeds, he, List.filterMap_append]

/-- A step adds to the messages of its call what it adds to all of them, and nothing to those of others. -/
theorem Run.step_handings (h : Run PublicOnly tr s) (hl : PublicOnly s l) (hs : s.step l = some s') :
    ∃ xs, handings s' = handings s ++ xs ∧ (∀ i, l.actor? = some i → handed s' i = handed s i ++ xs) ∧
      (∀ i, l.actor? ≠ some i → handed s' i = handed s i) ∧ (l.actor? = none → xs = []) := by
  obtain ⟨es, he, hby⟩ := h.step_deeds hl hs
  refine ⟨_, handings_append he, fun i hi => ?_, fun i hi => ?_, fun hnone => ?_⟩
  · rw [handed_append he]
    refine congrArg (handed s i ++ ·) (List.filterMap_congr fun e hm => ?_)
    cases e with
    | asked j u d =>
      cases hi.symm.trans (hby j u d hm)
      simp [handing, Event.handing?]
    | _ => rfl
  · have hnone : es.filterMap (handing i) = [] := by
      refine List.filterMap_eq_nil_iff.2 fun e hm => ?_
      cases e with
      | asked j u d =>
        have hj : j ≠ i := fun hji => hi (hji ▸ hby j u d hm)
        simp [handing, hj]
      | _ => rfl
    rw [handed_append he, hnone, List.append_nil]
  · refine List.filterMap_eq_nil_iff.2 fun e hm => ?_
    cases e with
    | asked j u d => cases hnone.symm.trans (hby j u d hm)
    | _ => rfl

/-- Only a reset or a shutdown takes a topic's handle out of the map. -/
theorem Run.step_cached (h : Run PublicOnly tr s) (hl : PublicOnly s l) (hs : s.step l = some s')
    (hd : IsDrain (l, s) = false) (hv : s.cache.handle? t = some v) : s'.cache.handle? t = some v := by
  refine h.step_induct (J := fun s₁ _ => s₁.cache.handle? t = some v) hl hs ?_ ?_
  · intro s₁ run o hb
    obtain ⟨owner, hsound⟩ := o.sound
    exact hb.cached hsound hd hv
  · intro s₁ s₂ c a next o ih ht
    obtain ⟨owner, hsound⟩ := o.sound
    exact (o.inUse.remap hsound ht).cached ih

/-- A call for a topic whose handle is in the map asks for no producer. -/
theorem Run.step_unasked {w : Want} (h : Run PublicOnly tr s) (hl : PublicOnly s l)
    (hs : s.step l = some s') (hcount : drainCount tr = 0) (hd : IsDrain (l, s) = false)
    (hv : s.cache.handle? w.topic = some v) (hmade : Made tr c (.want w))
    (hno : ∀ u t, .asked c u (.openProducer t) ∉ s.deeds) :
    ∀ u t, .asked c u (.openProducer t) ∉ s'.deeds := by
  refine (h.step_induct (J := fun s₁ _ => s₁.cache.handle? w.topic = some v ∧
    ∀ u t, .asked c u (.openProducer t) ∉ s₁.deeds) hl hs ?_ ?_).2
  · intro s₁ run o hb
    obtain ⟨owner, hsound⟩ := o.sound
    obtain ⟨es, he, -, -, hopen⟩ := hb.writes
    refine ⟨hb.cached hsound hd hv, fun u t hm => ?_⟩
    rw [he] at hm
    rcases List.mem_append.1 hm with hm | hm
    · exact hno u t hm
    · obtain ⟨-, -, -, w', k, -, hq, hturn⟩ := hopen c u t hm
      cases o.storied.requested.once c _ _ hmade (o.storied.story c _ hq fun _ => nofun).of_queued.1
      cases ((h.undrained hcount).attached.handle? hq hturn).symm.trans hv
  · rintro s₁ s₂ i a next o ⟨hcached, ih⟩ ht
    obtain ⟨owner, hsound⟩ := o.sound
    obtain ⟨es, he, -, -, hopen⟩ := ht.writes hsound
    refine ⟨(o.inUse.remap hsound ht).cached hcached, fun u t hm => ?_⟩
    rw [he] at hm
    rcases List.mem_append.1 hm with hm | hm
    · exact ih u t hm
    · obtain ⟨rfl, hask, rfl, -, hnone⟩ := hopen c u t hm
      obtain ⟨w', k, rfl, hcalls⟩ := hask.waits
      obtain ⟨q, hq, -⟩ := (o.storied.act c a rfl).stale
      have hnew : s₂.calls.get? c = some (.creating w' k u) := by
        rw [hcalls]
        exact get?_goTo hq
      have st := (o.turn ht).storied
      cases st.requested.once c _ _ (hmade.cons _) (st.story c _ hnew fun _ => nofun).of_creating.1
      cases hnone.symm.trans hcached

/-! ## 5. Before the shutdown -/

/-- As long as the map was never emptied, messages go to the producer that it has for their topic. -/
theorem Run.handed_cached {w : Want} {u : Ticket} {d : Demand} (h : Run PublicOnly tr s)
    (hcount : drainCount tr = 0) (hmade : Made tr c (.want w)) (hm : (u, d) ∈ handed s c)
    (hd : d.receiver? = some v) : s.cache.handle? w.topic = some v := by
  refine (Run.induct_orderly (I := fun tr s _ => drainCount tr = 0 → ∀ c w u d v,
    Made tr c (.want w) → (u, d) ∈ handed s c → d.receiver? = some v →
    s.cache.handle? w.topic = some v) ?_ ?_ ?_ h).2 hcount c w u d v hmade hm hd
  · rintro - c w u d v ⟨_, hm, -⟩
    cases hm
  · intro tr s s₁ l run o ih _ hb hcount c w u d v hmade hm hd
    obtain ⟨owner, hsound⟩ := o.sound
    cases hl : IsDrain (l, s) with
    | true =>
      have hpos : drainCount ((l, s) :: tr) = drainCount tr + 1 := List.countP_cons_of_pos hl
      omega
    | false =>
      have st := o.storied
      have hsame : handed s₁ c = handed s c := by
        rcases hb.sends with hsame | ⟨i, v', m, p, rfl, hi, hsame, -⟩
        · exact hsame c
        · refine hsame c ?_
          rintro rfl
          rcases hmade.cons_or with ⟨hl, -⟩ | hmade
          · cases hl
          · exact (st.story c _ hi fun _ => nofun).of_task.1 _ hmade
      rw [hsame] at hm
      have hold : Made tr c (.want w) := by
        rcases hmade.cons_or with ⟨-, hsize⟩ | hmade
        · rw [st.silent c (hsize ▸ (Registry.get?_eq_none_iff _ _).2 (Nat.le_refl _))] at hm
          cases hm
        · exact hmade
      exact hb.cached hsound hl (ih ((drainCount_cons hl).symm.trans hcount) c w u d v hold hm hd)
  · intro tr s s₁ i a next o ih ht hcount c w u d v hmade hm hd
    obtain ⟨owner, hsound⟩ := o.sound
    refine (o.inUse.remap hsound ht).cached ?_
    rcases ht.sends with hsame | ⟨w', v', x, m, d', rfl, hx, hp, hsame, hmine⟩
    · exact ih hcount c w u d v hmade (hsame c ▸ hm) hd
    · by_cases hci : c = i
      · subst hci
        obtain ⟨⟨r, hmade', rfl⟩, hnone, -⟩ := o.storied.act c _ rfl
        cases o.storied.requested.once c _ _ hmade hmade'
        rw [hmine, hnone] at hm
        cases List.mem_singleton.1 hm
        have hv : (Demand.sending v' m d' x.mode).receiver? = some v' := by
          cases d' <;> cases x.mode <;> rfl
        cases hv.symm.trans hd
        exact o.inUse.granted hsound (by simp [hp])
      · exact ih hcount c w u d v hmade (hsame c hci ▸ hm) hd

end

end Factory

end TopicPublisher
