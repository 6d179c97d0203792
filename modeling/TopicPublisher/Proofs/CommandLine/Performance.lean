import TopicPublisher.CommandLine.Run
import TopicPublisher.Proofs.CommandLine.Course

/-!
# What the command does is a course

`Performance.of` is the publication as the command carries it out: one task at a time, over a broker that
follows a script. Whatever the script is, the factory and the publication come to a scene of a course,
unless the wire client crashes under a call.

Results:
1. `flightOf_fair`, `fair_take`, `fair_poll`: the wire client opens pipelined producers only.
2. `Played.happen`, `Played.advance`, `Played.stageRun`: what the stage does is in the course.
3. `Performance.course_of`: so is what the command does.
-/

namespace TopicPublisher

namespace CommandLine

open Factory Rehearsal

/-! ## Definitions -/

/-- A reply that opens no producer but a pipelined one. -/
def Fair : Reply → Prop
  | .answer (.opened (.ok mode)) => mode = .pipelined
  | _ => True

/-- All replies that are under way are fair. -/
def FairClient (x : WireClient) : Prop := ∀ t r, (t, WireFlight.replies r) ∈ x.flights → Fair r

/-- Publication `p` came to `q` on a stage, or the wire client crashed under a call. -/
structure Played (p q : Publication) (call : Option CallId) (s : Stage WireClient) : Prop where
  fair : FairClient s.client
  run : ∃ tr, Run PublicOnly tr s.factory
  course : (∃ c, s.factory.calls.get? c = some .crashed) ∨ ∃ tr, Course p tr ⟨q, s.factory, call⟩

/-- The scene that a performance is at. -/
def Performance.scene (x : Performance) : Scene := ⟨x.publication, x.stage.factory, x.call⟩

/-! ## 1. The wire client -/

section

variable {x : WireClient} {t : Ticket} {w : WireCall} {task : TaskId}

theorem flights_enqueue (x : WireClient) (i : Nat) (m : MessageSpec) :
    (x.enqueue i m).2.flights = x.flights := by
  unfold WireClient.enqueue
  split
  · rfl
  · split
    · rfl
    · dsimp only
      split
      · split <;> rfl
      · rfl

theorem flights_forget (x : WireClient) (a : Awaited) : (x.forget a).flights = x.flights := by
  unfold WireClient.forget
  dsimp only
  split <;> rfl

theorem flights_pollReceipt (x : WireClient) (task : TaskId) (a : Awaited) :
    (x.pollReceipt task a).2.flights = x.flights := by
  unfold WireClient.pollReceipt
  split
  · dsimp only
    split
    · exact flights_forget _ a
    · split
      · rfl
      · split
        · exact flights_forget _ a
        · rfl
  · rfl

theorem fair_setFlight (h : FairClient x) {f : Option WireFlight}
    (hf : ∀ r, f = some (.replies r) → Fair r) : FairClient (x.setFlight t f) := by
  intro u r hm
  rcases List.mem_append.1 hm with hm | hm
  · cases f with
    | none => cases hm
    | some f =>
      cases List.mem_singleton.1 hm
      exact hf r rfl
  · exact h u r (List.mem_filter.1 hm).1

theorem fair_of_flights {y : WireClient} (h : FairClient x) (hf : y.flights = x.flights) :
    FairClient y := by
  unfold FairClient
  rw [hf]
  exact h

/-- A request is answered fairly, or later. -/
theorem flightOf_fair (x : WireClient) (w : WireCall) :
    (x.flightOf w).2.flights = x.flights ∧ ∀ r, (x.flightOf w).1 = .replies r → Fair r := by
  cases w with
  | newProducer topic schema =>
    unfold WireClient.flightOf WireClient.openProducer
    dsimp only
    split
    · next heq =>
      split at heq
      · cases heq
      · split at heq
        · cases heq
        · cases heq
          exact ⟨rfl, fun r hr => by cases hr; rfl⟩
    · next heq =>
      split at heq
      · cases heq
        exact ⟨rfl, fun r hr => by cases hr; trivial⟩
      · split at heq <;> cases heq
    · next heq =>
      split at heq
      · cases heq
      · split at heq
        · cases heq
          exact ⟨rfl, fun r hr => by cases hr; trivial⟩
        · cases heq
  | send h m =>
    have hflights := flights_enqueue x (x.producerOf h) m
    unfold WireClient.flightOf
    dsimp only
    split
    · next heq =>
      rw [heq] at hflights
      exact ⟨hflights, fun _ => nofun⟩
    · next heq =>
      rw [heq] at hflights
      exact ⟨hflights, fun r hr => by cases hr; trivial⟩
  | sendAsync h m =>
    have hflights := flights_enqueue x (x.producerOf h) m
    unfold WireClient.flightOf
    dsimp only
    split
    · next heq =>
      rw [heq] at hflights
      exact ⟨hflights, fun _ => nofun⟩
    · next heq =>
      rw [heq] at hflights
      exact ⟨hflights, fun r hr => by cases hr; trivial⟩
  | close h =>
    have hflights : (x.close (x.producerOf h)).2.flights = x.flights := by
      unfold WireClient.close
      split
      · rfl
      · split <;> rfl
    unfold WireClient.flightOf
    dsimp only
    split
    · next heq =>
      rw [heq] at hflights
      exact ⟨hflights, fun r hr => by cases hr; trivial⟩
    · next heq =>
      rw [heq] at hflights
      exact ⟨hflights, fun r hr => by cases hr; trivial⟩

theorem fair_take (h : FairClient x) (t : Ticket) (w : WireCall) : FairClient (x.take t w) := by
  obtain ⟨hflights, hfair⟩ := flightOf_fair x w
  exact fair_setFlight (fair_of_flights h hflights) fun r hr => hfair r (Option.some.inj hr)

theorem fair_poll (h : FairClient x) (t : Ticket) (task : TaskId) :
    FairClient (x.poll t task).1 ∧ Fair (x.poll t task).2 := by
  unfold WireClient.poll
  split
  · exact ⟨h, trivial⟩
  · next r heq =>
    refine ⟨fair_setFlight h (fun _ => nofun), ?_⟩
    exact h _ r (List.mem_of_find?_eq_some heq)
  · exact ⟨fair_setFlight h fun r hr => (nomatch hr), trivial⟩
  · next a heq =>
    have hflights := flights_pollReceipt x task a
    split
    · next hpoll =>
      rw [hpoll] at hflights
      exact ⟨fair_of_flights h hflights, trivial⟩
    · next hpoll =>
      rw [hpoll] at hflights
      exact ⟨fair_setFlight (fair_of_flights h hflights) (fun _ => nofun), trivial⟩

theorem fair_drop (h : FairClient x) (t : Ticket) : FairClient (x.drop t) := by
  unfold WireClient.drop
  split
  · exact fair_setFlight (fair_of_flights h (flights_forget x _)) fun _ => nofun
  · exact fair_setFlight (fair_of_flights h (flights_forget x _)) fun _ => nofun
  · exact fair_setFlight h fun _ => nofun

end

/-! ## 2. The stage -/

section

variable {p q : Publication} {call : Option CallId} {s : Stage WireClient} {c : CallId} {l : Label}
  {task : TaskId}

theorem push_same (s : Stage WireClient) (t : TaskId) :
    (s.push t).factory = s.factory ∧ (s.push t).client = s.client := by
  unfold Stage.push
  split <;> exact ⟨rfl, rfl⟩

theorem pushAll_same (s : Stage WireClient) (ts : List TaskId) :
    (s.pushAll ts).factory = s.factory ∧ (s.pushAll ts).client = s.client := by
  unfold Stage.pushAll
  induction ts generalizing s with
  | nil => exact ⟨rfl, rfl⟩
  | cons t ts ih =>
    obtain ⟨hfactory, hclient⟩ := ih (s.push t)
    exact ⟨hfactory.trans (push_same s t).1, hclient.trans (push_same s t).2⟩

theorem hear_fair (h : FairClient s.client) (e : Event) :
    (s.hear WireClient.part e).factory = s.factory ∧ FairClient (s.hear WireClient.part e).client := by
  unfold Stage.hear
  split
  · exact ⟨rfl, fair_take h _ _⟩
  · exact ⟨rfl, fair_drop h _⟩
  · exact ⟨(push_same s _).1, (push_same s _).2 ▸ h⟩
  · exact ⟨(push_same s _).1, (push_same s _).2 ▸ h⟩
  · exact ⟨rfl, h⟩

theorem follow_fair (h : FairClient s.client) (f : Factory) :
    (s.follow WireClient.part f).factory = f ∧
      FairClient (s.follow WireClient.part f).client := by
  unfold Stage.follow
  generalize (f.journal.extract s.heard f.journal.size).toList = news
  have hstart : ({ s with factory := f, heard := f.journal.size } : Stage WireClient).factory = f ∧
      FairClient ({ s with factory := f, heard := f.journal.size } : Stage WireClient).client :=
    ⟨rfl, h⟩
  generalize ({ s with factory := f, heard := f.journal.size } : Stage WireClient) = z at hstart
  dsimp only
  induction news generalizing z with
  | nil => exact hstart
  | cons e news ih =>
    obtain ⟨hfactory, hfair⟩ := hear_fair hstart.2 e
    exact ih _ ⟨hfactory.trans hstart.1, hfair⟩

/-- A change of anything else. -/
theorem Played.of_eq {z : Stage WireClient} (h : Played p q call s) (hf : z.factory = s.factory)
    (hc : FairClient z.client) : Played p q call z where
  fair := hc
  run := hf ▸ h.run
  course := hf ▸ h.course

theorem crashed_of_step {s f : Factory} (hs : s.step (.crash c) = some f) :
    f.calls.get? c = some .crashed := by
  obtain ⟨p, hc, hs⟩ := Option.bind_eq_some_iff.1 hs
  unfold stop at hs
  split at hs
  · cases hs
  · next hover =>
    cases hs
    show ((s.relinquish c p).calls.update c fun _ => .crashed).get? c = some .crashed
    rw [LetsGo.calls_eq (MomentLemmas.letsGo_relinquish (by simpa using hover)), Registry.get?_update,
      if_pos rfl, hc]
    rfl

/-- What happens to the factory is in the course, or it is a crash. -/
theorem Played.happen (h : Played p q call s)
    (hl : (Smooth s.factory l ∧ ∀ r, l ≠ .call r) ∨ l = .crash c) :
    Played p q call (s.happen WireClient.part l) := by
  unfold Stage.happen
  cases hs : s.factory.step l with
  | none => exact h
  | some f =>
    obtain ⟨hfactory, hfair⟩ := follow_fair h.fair f
    obtain ⟨tr, hrun⟩ := h.run
    have hpublic : PublicOnly s.factory l := by
      rcases hl with ⟨hl, -⟩ | rfl
      · exact hl.publicOnly
      · trivial
    have hrun' := hrun.step hpublic hs
    refine ⟨hfair, ⟨_, hfactory.symm ▸ hrun'⟩, ?_⟩
    dsimp only
    rw [hfactory]
    rcases h.course with ⟨i, hi⟩ | ⟨tr', hcourse⟩
    · exact .inl ⟨i, (hrun'.lasts List.mem_cons_self).ended hi rfl⟩
    · rcases hl with ⟨hl, hno⟩ | rfl
      · exact .inr ⟨_, hcourse.step hno hl hs⟩
      · exact .inl ⟨c, crashed_of_step hs⟩

theorem pollAll_fair {x : WireClient} (h : FairClient x) (task : TaskId) (ts : List Ticket) :
    FairClient (Stage.pollAll WireClient.part task ts x).1 ∧
      ∀ t r, (Stage.pollAll WireClient.part task ts x).2 = some (t, r) → Fair r := by
  induction ts generalizing x with
  | nil => exact ⟨h, fun _ _ => nofun⟩
  | cons t ts ih =>
    obtain ⟨hclient, hreply⟩ := fair_poll h t task
    unfold Stage.pollAll
    split
    · next heq =>
      have heq : x.poll t task = _ := heq
      rw [heq] at hclient
      exact ih hclient
    · next heq =>
      have heq : x.poll t task = _ := heq
      rw [heq] at hclient hreply
      refine ⟨hclient, fun t' r hr => ?_⟩
      cases hr
      exact hreply

theorem Played.advance (h : Played p q call s) (task : TaskId) (c : CallId) :
    Played p q call (s.advance WireClient.part task c).2 := by
  unfold Stage.advance
  split
  · next f hs =>
    have hstep := h.happen (l := .resume c) (c := c) (.inl ⟨trivial, fun _ => nofun⟩)
    unfold Stage.happen at hstep
    rw [hs] at hstep
    exact hstep
  · obtain ⟨hclient, hreply⟩ := pollAll_fair h.fair task (Stage.ticketsOf (s.progress c))
    split
    · next heq =>
      rw [heq] at hclient
      exact h.of_eq rfl hclient
    · next client t a heq =>
      rw [heq] at hclient hreply
      have hz : Played p q call { s with client := client } := h.of_eq rfl hclient
      refine hz.happen (c := c) (.inl ⟨?_, fun r hr => by cases hr⟩)
      have hfair := hreply _ _ rfl
      cases a with
      | opened r =>
        cases r with
        | error => trivial
        | ok => exact hfair
      | _ => trivial
    · next client _ _ _ heq =>
      rw [heq] at hclient
      have hz : Played p q call { s with client := client } := h.of_eq rfl hclient
      exact hz.happen (.inr rfl)

theorem Played.stageRun (h : Played p q call s) (task : TaskId) (c : CallId) :
    Played p q call (s.run WireClient.part task c) :=
  runFor_induct (fun _ h => h.advance task c) h _

/-- The publication takes the outcome of its call. -/
theorem Played.taken {o : Outcome} (h : Played p q (some c) s)
    (hc : s.factory.calls.get? c = some (.ended o)) : Played p (q.take o) none s where
  fair := h.fair
  run := h.run
  course := h.course.imp id fun ⟨tr, hcourse⟩ => ⟨tr, hcourse.take hc⟩

/-- The publication makes its next call. -/
theorem Played.callWithin (h : Played p q none s) {r : Request} (hr : q.next? = some r) (task : TaskId) :
    Played p q (some (s.callWithin WireClient.part task r).2)
      (s.callWithin WireClient.part task r).1 := by
  unfold Stage.callWithin Stage.happen
  dsimp only
  have hs : s.factory.step (.call r) = some (s.factory.start (.fresh r)) := rfl
  rw [hs]
  dsimp only
  obtain ⟨hfactory, hfair⟩ := follow_fair (s := { s with owners := (s.factory.calls.size, task) :: s.owners })
    h.fair (s.factory.start (.fresh r))
  obtain ⟨tr, hrun⟩ := h.run
  have hsmooth := smooth_call s.factory hr
  have hrun' := hrun.step hsmooth.publicOnly hs
  refine ⟨hfair, ⟨_, hfactory.symm ▸ hrun'⟩, ?_⟩
  dsimp only
  rw [hfactory]
  rcases h.course with ⟨i, hi⟩ | ⟨tr', hcourse⟩
  · exact .inl ⟨i, (hrun'.lasts List.mem_cons_self).ended hi rfl⟩
  · exact .inr ⟨_, hcourse.call hr hs⟩

end

/-! ## 3. The command -/

namespace Performance

variable {p : Publication} {x : Performance}

/-- What `Played` says of a performance. -/
def Follows (p : Publication) (x : Performance) : Prop := Played p x.publication x.call x.stage

theorem Follows.advance (h : Follows p x) : Follows p x.advance.2 := by
  unfold Performance.advance
  split
  · next hcall =>
    split
    · exact h
    · next request hr =>
      unfold Follows at h
      rw [hcall] at h
      exact h.callWithin hr publisher
  · next c hcall =>
    have hrun := Played.stageRun h publisher c
    dsimp only
    split
    · next o ho =>
      rw [hcall] at hrun
      refine hrun.taken ?_
      unfold Stage.progress at ho
      cases hc : (x.stage.run WireClient.part publisher c).factory.calls.get? c with
      | none =>
        rw [hc] at ho
        cases ho
      | some z =>
        rw [hc] at ho
        exact congrArg some ho
    · exact hrun
    · exact hrun

theorem Follows.run (h : Follows p x) (task : TaskId) : Follows p (x.run task) := by
  cases task with
  | own => exact runFor_induct (fun _ h => Follows.advance h) h _
  | call c => exact Played.stageRun h (.call c) c

theorem Follows.settle (h : Follows p x) : Follows p x.settle := by
  refine runReady_induct (motive := Follows p) (fun y ts hy => ?_) (fun y t hy => hy.run t) h _
  exact Played.of_eq hy rfl hy.fair

theorem Follows.elapse (h : Follows p x) {y : Performance} (hy : x.elapse = some y) : Follows p y := by
  unfold Performance.elapse at hy
  dsimp only at hy
  split at hy
  · cases hy
  · next d _ =>
    cases hy
    have hadvance : FairClient (x.stage.client.advance (d - x.stage.client.now)).2 :=
      fair_of_flights h.fair rfl
    obtain ⟨hfactory, hclient⟩ := pushAll_same
      { x.stage with client := (x.stage.client.advance (d - x.stage.client.now)).2 }
      (x.stage.client.advance (d - x.stage.client.now)).1
    exact Played.of_eq h hfactory (hclient.symm ▸ hadvance)

theorem Follows.finish (h : Follows p x) (fuel : Nat) : Follows p (x.finish fuel) := by
  induction fuel generalizing x with
  | zero => exact h.settle
  | succ fuel ih =>
    have hready := h.settle
    unfold Performance.finish
    dsimp only
    split
    · exact hready
    · split
      · exact hready
      · next hy => exact ih (hready.elapse hy)

/-- What the command does is a course of its publication, unless the wire client crashes under a call. -/
theorem course_of (p : Publication) (schema : Schema) {client : WireClient}
    (hnew : client.flights = [])
    (hcrash : ∀ c, (Performance.of p schema client).stage.factory.calls.get? c ≠ some .crashed) :
    ∃ tr, Course p tr (Performance.of p schema client).scene := by
  have hstart : Played p p none ({ schema, client } : Stage WireClient) := by
    refine ⟨?_, ⟨[], .new⟩, .inr ⟨[], .begin⟩⟩
    intro t r hm
    rw [show ({ schema, client } : Stage WireClient).client.flights = [] from hnew] at hm
    cases hm
  have hpush := push_same ({ schema, client } : Stage WireClient) publisher
  have hfollows : Follows p (Performance.of p schema client) := by
    unfold Performance.of
    refine Follows.finish ?_ _
    exact hstart.of_eq hpush.1 (hpush.2 ▸ hstart.fair)
  rcases hfollows.course with ⟨c, hc⟩ | hcourse
  · exact (hcrash c hc).elim
  · exact hcourse

end Performance

end CommandLine

end TopicPublisher
