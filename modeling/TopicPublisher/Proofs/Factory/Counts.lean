import Mathlib.Algebra.BigOperators.Group.Finset.Basic
import TopicPublisher.Proofs.Factory.Smooth
import TopicPublisher.Proofs.Factory.Tally

/-!
# The counts of resets

A reset tells how many producers it closed. In a run without a shutdown these numbers add up: every
producer that was taken out of the map is closed by the one reset that took it, when its last lease is
gone, and it counts for that reset if the close went well. A close that fails counts for nobody, is not
tried again, and keeps no other producer from being closed.

Results:
1. `Run.taken_or_mapped`: what was in the map is there, or a reset took it.
2. `Run.unleased`: a close is asked for in a step that begins with no lease on the handle.
3. `Run.closes_free`: a reset can ask for the close of every handle that nobody leases.
4. `Run.empty_reset`: a reset that finds nothing returns at once and asks for nothing.
5. `sum_takenBy`: what all calls took, call by call.
6. `resets_add_up`: the counts, in every run without a shutdown.
7. `shutdown_overtaken`: why a shutdown is another matter.
-/

namespace TopicPublisher

/-- The handles that were taken out of the map, by an entry of the journal. -/
def Event.taken : Event → List HandleId
  | .drained _ hs => hs
  | _ => []

namespace Factory

/-! ## Definitions -/

/-- The handles that were taken out of the map, by whichever call. -/
def taken (s : Factory) : List HandleId := s.events.flatMap Event.taken

/-- The number that a reset or a shutdown returned, and zero for every other call. -/
def returned (s : Factory) (c : CallId) : Nat :=
  match s.calls.get? c with
  | some (.ended (.closed n)) => n
  | _ => 0

/-- A call that retires handles is about to look at one that it can close. -/
def Closable (s : Factory) (c : CallId) (v : HandleId) (run : Option (CallId × Act)) : Prop :=
  ∃ done todo next x, run = some (c, .retire done todo next) ∧ { handle := v } ∈ todo ∧
    s.handles.get? v = some x ∧ x.borrows = 0 ∧ x.closed = false

section

variable (tr : List (Label × Factory)) (s : Factory)

/-- Call `c` found a handle in the map when it began with its request. -/
def Finds (c : CallId) (r : Request) (v : HandleId) : Prop :=
  ∃ s₀, (.resume c, s₀) ∈ tr ∧ s₀.calls.get? c = some (.fresh r) ∧ v ∈ s₀.cache.handles

/-- Call `c` closed a producer.

* `once`: its close was asked for once.
* `ended`: this call asked for it, and the wire client has answered.
* `unleased`: the step in which it was asked for began with no lease on the handle. -/
structure SeesOff (c : CallId) (v : HandleId) : Prop where
  once : s.closeCount v = 1
  ended : ∃ t r, .asked c t (.close v) ∈ s.events ∧ Answered tr c t (.closed r) ∧
    (closedOk tr v = true ↔ r = .ok ())
  unleased : ∀ l s₀ s₁ t, (l, s₀) ∈ tr → s₀.step l = some s₁ → .asked c t (.close v) ∈ s₁.events →
    s₀.leaseCount v = 0

/-- What resets took, closed and counted in a run.

* `drained`: what was in the map and is not there any more was taken.
* `nodup`: no handle was taken twice.
* `taker`: one reset found it in the map and took it, and nobody else did.
* `closed`: when a reset returns it has closed all that it took, however the closes went.
* `unblocked`: until then nothing but a lease keeps it from asking for a close, whatever became of the
  others.
* `counted`: it returns how many of the closes went well.
* `total`: when all resets that took handles have returned, the numbers sum up to the successful closes.
* `empty`: a reset that finds no handle returns zero and asks the wire client for nothing. -/
structure AddsUp : Prop where
  drained : ∀ l s₀ t v, (l, s₀) ∈ tr → s₀.cache.handle? t = some v → s.cache.handle? t ≠ some v →
    v ∈ taken s
  nodup : (taken s).Nodup
  taker : ∀ v ∈ taken s, ∃ c, Made tr c .reset ∧ Finds tr c .reset v ∧ ∀ i, v ∈ takenBy s i ↔ i = c
  closed : ∀ c n, s.calls.get? c = some (.ended (.closed n)) → ∀ v ∈ takenBy s c, SeesOff tr s c v
  unblocked : ∀ c rs, s.calls.get? c = some (.retiring rs .count) → ∀ v ∈ takenBy s c,
    s.leaseCount v = 0 → ∃ t, .asked c t (.close v) ∈ s.events ∨
      ∃ s', s.step (.resume c) = some s' ∧ .asked c t (.close v) ∈ s'.events
  counted : ∀ c n, s.calls.get? c = some (.ended (.closed n)) →
    n = (takenBy s c).countP (closedOk tr)
  total : (∀ c, takenBy s c ≠ [] → ∃ n, s.calls.get? c = some (.ended (.closed n))) →
    ∑ c ∈ Finset.range s.calls.size, returned s c = (taken s).countP (closedOk tr)
  empty : ∀ c s₀, (.resume c, s₀) ∈ tr → s₀.calls.get? c = some (.fresh .reset) →
    s₀.cache.handles = [] →
    s.calls.get? c = some (.ended (.closed 0)) ∧ ∀ t d, .asked c t d ∉ s.events

end

open SoundLemmas StoryLemmas FateLemmas TallyLemmas

section

variable {tr : List (Label × Factory)} {s s' s₀ s₁ : Factory} {c i : CallId} {l : Label}
  {v : HandleId} {t : String} {u : Ticket}

/-! ## 1. What is taken out of the map -/

/-- Whoever takes the handles out of the map writes down which. -/
theorem Run.step_drained (h : Run PublicOnly tr s) (hl : PublicOnly s l) (hs : s.step l = some s')
    (hd : IsDrain (l, s) = true) : ∃ c, .drained c s.cache.handles ∈ s'.deeds := by
  refine h.step_induct (J := fun s₁ _ => ∃ c, .drained c s.cache.handles ∈ s₁.deeds) hl hs ?_ ?_
  · intro s₁ run _ hb
    cases hb with
    | @drain c r taken hc htaken =>
      have hhandles : taken.2 = s.cache.handles := by
        rcases htaken with ⟨-, rfl⟩ | ⟨-, rfl⟩ <;> rfl
      exact ⟨c, by simp [hhandles]⟩
    | stop hor => rcases hor with ⟨rfl, -⟩ | ⟨rfl, -⟩ <;> cases hd
    | want hc | refuse hc | await hc | dispatch hc | filled hc | create hc | retire hc | settled hc =>
      simp [IsDrain, hc] at hd
    | _ => cases hd
  · rintro s₁ s₂ c a next o ⟨i, hi⟩ ht
    obtain ⟨es, he, -⟩ := ht.closes
    exact ⟨i, he ▸ List.mem_append_left _ hi⟩

/-- What was taken stays taken. -/
theorem Run.step_takenBy (h : Run PublicOnly tr s) (hl : PublicOnly s l) (hs : s.step l = some s')
    (hv : v ∈ takenBy s c) : v ∈ takenBy s' c := by
  obtain ⟨es, he, -⟩ := h.step_deeds hl hs
  rw [takenBy_append he]
  exact List.mem_append_left _ hv

/-- A handle that the map had for a topic is still there, or somebody took it. -/
theorem Run.taken_or_mapped (h : Run PublicOnly tr s) (hm : (l, s₀) ∈ tr)
    (hv : s₀.cache.handle? t = some v) : s.cache.handle? t = some v ∨ ∃ c, v ∈ takenBy s c := by
  induction h with
  | new => cases hm
  | @step tr s s' l' hrun hl hs ih =>
    have hnow : s.cache.handle? t = some v ∨ ∃ c, v ∈ takenBy s c := by
      rcases List.mem_cons.1 hm with he | hm
      · cases he
        exact .inl hv
      · exact ih hm
    rcases hnow with hin | ⟨c, hc⟩
    · cases hd : IsDrain (l', s) with
      | false => exact .inl (hrun.step_cached hl hs hd hin)
      | true =>
        obtain ⟨c, hc⟩ := hrun.step_drained hl hs hd
        exact .inr ⟨c, mem_takenBy.2 (took_iff.2 ⟨_, hc, Cache.mem_handles_of_handle? hin⟩)⟩
    · exact .inr ⟨c, hrun.step_takenBy hl hs hc⟩

/-- Whoever took a handle found it in the map when it began a reset or a shutdown. -/
theorem Run.found_by_taker (h : Run PublicOnly tr s) (hv : v ∈ takenBy s c) :
    ∃ r, (r = .reset ∨ r = .shutdown) ∧ Made tr c r ∧ Finds tr c r v := by
  refine (Run.induct_orderly (I := fun tr s _ => ∀ c v, v ∈ takenBy s c →
    ∃ r, (r = .reset ∨ r = .shutdown) ∧ Made tr c r ∧ Finds tr c r v) ?_ ?_ ?_ h).2 c v hv
  · intro c v hv
    cases hv
  · intro tr s s₁ l run o ih _ hb c v hv
    have hold : v ∈ takenBy s c →
        ∃ r, (r = .reset ∨ r = .shutdown) ∧ Made ((l, s) :: tr) c r ∧ Finds ((l, s) :: tr) c r v := by
      intro hv
      obtain ⟨r, hor, hmade, s₀, hm, hc, hin⟩ := ih c v hv
      exact ⟨r, hor, hmade.cons _, s₀, List.mem_cons_of_mem _ hm, hc, hin⟩
    obtain ⟨es, he, -, hno | ⟨i, r, rfl, hc, hor, rfl, -⟩⟩ := hb.closes
    · rw [takenBy_keep he hno] at hv
      exact hold hv
    · rw [takenBy_append he, List.flatMap_singleton, List.mem_append] at hv
      rcases hv with hv | hv
      · exact hold hv
      · by_cases hi : i = c
        · subst hi
          rw [Event.takenBy, if_pos rfl] at hv
          have hmade : Made tr i r := by
            cases o.storied.story i _ hc nobody_runs with
            | fresh _ hmade => exact hmade
            | _ => rcases hor with h | h <;> cases h
          exact ⟨r, hor, hmade.cons _, s, List.mem_cons_self, hc, hv⟩
        · rw [Event.takenBy, if_neg hi] at hv
          cases hv
  · intro tr s s₁ i a next _ ih ht c v hv
    obtain ⟨es, he, hno, -⟩ := ht.closes
    rw [takenBy_keep he hno] at hv
    exact ih c v hv

/-! ## 2. When a producer is closed -/

/-- The call that runs has not changed what anybody holds. -/
theorem Turn.holds_same {a : Act} {next : Option Act} (ht : Turn c s a s' next) (hnext : next ≠ none) :
    s'.calls = s.calls ∧ s'.leases = s.leases := by
  cases ht <;> first | exact ⟨rfl, rfl⟩ | exact (hnext rfl).elim

theorem Begins.holds_same {run : Option (CallId × Act)} (hb : Begins s l s' run)
    (hrun : run ≠ none) : s'.calls = s.calls ∧ s'.leases = s.leases := by
  cases hb <;> first | exact ⟨rfl, rfl⟩ | exact (hrun rfl).elim

/-- A producer is closed that nobody leases. -/
theorem leaseCount_of_asked {run : Option (CallId × Act)} (b : Balanced s run)
    (hm : .asked c u (.close v) ∈ s.events) : s.leaseCount v = 0 := by
  obtain ⟨x, hx, hcl⟩ := closed_of_asked b hm
  rw [b.balance v, borrowsOf, hx]
  exact ((b.settled v x hx).closed hcl).2

/-- When a close has been asked for by the end of a step, nobody held a lease on the handle when the step
began. -/
theorem Run.unleased (h : Run PublicOnly tr s) (hl : PublicOnly s l) (hs : s.step l = some s')
    (hm : .asked c u (.close v) ∈ s'.events) : s.leaseCount v = 0 := by
  -- Whoever asks for a close within the step has changed nothing that is held.
  refine (h.step_induct (J := fun s₁ run =>
    (∀ c u v, .asked c u (.close v) ∈ s₁.deeds → s.leaseCount v = 0) ∧
      (run ≠ none → s₁.calls = s.calls ∧ s₁.leases = s.leases)) hl hs ?_ ?_).1 c u v
    (mem_deeds.2 ⟨hm, rfl⟩)
  · intro s₁ run o hb
    obtain ⟨es, he, hes, -⟩ := hb.closes
    refine ⟨fun c u v hm => ?_, hb.holds_same⟩
    rw [he] at hm
    rcases List.mem_append.1 hm with hm | hm
    · exact leaseCount_of_asked o.balanced (mem_deeds.1 hm).1
    · exact (hes c u v hm).elim
  · rintro s₁ s₂ c a next o ⟨hfree, hsame⟩ ht
    obtain ⟨hcalls, hleases⟩ := hsame (Option.some_ne_none _)
    refine ⟨fun i u v hm => ?_, fun hnext => ?_⟩
    · obtain ⟨es, he, -, hes⟩ := ht.closes
      rw [he] at hm
      rcases List.mem_append.1 hm with hm | hm
      · exact hfree i u v hm
      · obtain ⟨-, -, x, hx, hb⟩ := hes i u v hm
        have hsame : s.leaseCount v = s₁.leaseCount v := by
          unfold leaseCount
          rw [hcalls, hleases]
        rw [hsame, o.balanced.balance, borrowsOf, hx]
        exact hb
    · have hnext : next ≠ none := by
        rintro rfl
        exact hnext rfl
      obtain ⟨hcalls', hleases'⟩ := ht.holds_same hnext
      exact ⟨hcalls'.trans hcalls, hleases'.trans hleases⟩

/-- A handle that can be closed is closed when its turn comes. -/
theorem Turn.closable {a : Act} {next : Option Act} (ht : Turn c s a s' next)
    (hv : Closable s c v (some (c, a))) :
    (∃ t, .asked c t (.close v) ∈ s'.deeds) ∨ Closable s' c v (next.map fun a => (c, a)) := by
  obtain ⟨done, todo, after, x, hrun, hm, hx, hb, hcl⟩ := hv
  cases hrun
  cases ht with
  | goOn | fail | count | wait => cases hm
  | skip hskip =>
    rcases List.mem_cons.1 hm with rfl | hm
    · rcases hskip with hst | hnone
      · exact (hst rfl).elim
      · exact nomatch hx.symm.trans hnone
    · exact .inr ⟨_, _, _, x, rfl, hm, hx, hb, hcl⟩
  | elsewhere _ hx' _ hcl' =>
    rcases List.mem_cons.1 hm with rfl | hm
    · cases hx.symm.trans hx'
      exact nomatch hcl.symm.trans hcl'
    · exact .inr ⟨_, _, _, x, rfl, hm, hx, hb, hcl⟩
  | @close _ _ r =>
    by_cases hv : r.handle = v
    · exact .inl ⟨s.tickets, by simp [hv]⟩
    · rcases List.mem_cons.1 hm with rfl | hm
      · exact (hv rfl).elim
      · exact .inr ⟨_, _, _, x, rfl, hm, (Registry.get?_update _ _ _ _).trans ((if_neg hv).trans hx),
          hb, hcl⟩
  | @park _ _ r _ _ _ hx' hb' =>
    by_cases hv : r.handle = v
    · rw [hv] at hx'
      cases hx.symm.trans hx'
      exact (hb' hb).elim
    · rcases List.mem_cons.1 hm with rfl | hm
      · exact (hv rfl).elim
      · exact .inr ⟨_, _, _, x, rfl, hm, (Registry.get?_update _ _ _ _).trans ((if_neg hv).trans hx),
          hb, hcl⟩

/-- A call at its retirements goes on when one of the handles can be closed, and asks for its close. -/
theorem Run.closes_free {rs : List Retirement} {next : AfterRetiring} {x : Handle}
    (h : Run PublicOnly tr s) (hc : s.calls.get? c = some (.retiring rs next))
    (hm : { handle := v } ∈ rs) (hx : s.handles.get? v = some x) (hb : x.borrows = 0)
    (hcl : x.closed = false) :
    ∃ s' t, s.step (.resume c) = some s' ∧ .asked c t (.close v) ∈ s'.events := by
  have hfree : (rs.any fun r => r.stage = .waiting &&
      ((s.handles.get? r.handle).map Handle.borrows) = some 0) = true :=
    List.any_eq_true.2 ⟨_, hm, by simp [hx, hb]⟩
  have hs : s.step (.resume c) = some (s.retire c rs next) := by
    show (s.calls.get? c).bind (s.resume c) = _
    rw [hc]
    exact if_pos hfree
  have hl : PublicOnly s (.resume c) := trivial
  have hstep := h.step_induct (J := fun s₁ run => (∃ t, .asked c t (.close v) ∈ s₁.deeds) ∨
    Closable s₁ c v run) hl hs ?_ ?_
  · rcases hstep with ⟨t, hm⟩ | ⟨_, _, _, _, hrun, -⟩
    · exact ⟨_, t, hs, (mem_deeds.1 hm).1⟩
    · cases hrun
  · intro s₁ run _ hbegin
    cases hbegin with
    | retire hc' =>
      cases hc.symm.trans hc'
      exact .inr ⟨_, _, _, x, rfl, hm, hx, hb, hcl⟩
    | stop hl => rcases hl with ⟨h, -⟩ | ⟨h, -⟩ <;> cases h
    | want hc' | refuse hc' | drain hc' | await hc' | dispatch hc' | filled hc' | create hc'
    | settled hc' => cases hc.symm.trans hc'
  · rintro s₁ s₂ i a next _ (⟨t, hasked⟩ | hcan) ht
    · obtain ⟨es, he, -⟩ := ht.closes
      exact .inl ⟨t, he ▸ List.mem_append_left _ hasked⟩
    · obtain ⟨_, _, _, _, hrun, -⟩ := id hcan
      cases hrun
      exact ht.closable hcan

/-! ## 3. Resets that find nothing -/

/-- A reset that finds no handle in the map ends in the same step and asks for nothing. -/
theorem Run.step_empty (h : Run PublicOnly tr s) (hc : s.calls.get? c = some (.fresh .reset))
    (hempty : s.cache.handles = []) (hs : s.step (.resume c) = some s') :
    s'.calls.get? c = some (.ended (.closed 0)) ∧ ∀ u d, .asked c u d ∉ s'.deeds := by
  have hnever : ∀ u d, .asked c u d ∉ s.deeds := by
    intro u d hm
    obtain ⟨p, hp, hno⟩ := h.begun (mem_deeds.1 hm).1
    cases hp.symm.trans hc
    exact hno _ rfl
  have hl : PublicOnly s (.resume c) := trivial
  have hstep := h.step_induct (J := fun s₁ run => (∀ u d, .asked c u d ∉ s₁.deeds) ∧
    ((run = none ∧ s₁.calls.get? c = some (.ended (.closed 0))) ∨
      (run = some (c, .retire [] [] .count) ∧ ∃ p, s₁.calls.get? c = some p))) hl hs ?_ ?_
  · obtain ⟨hnone, ⟨-, hend⟩ | ⟨h, -⟩⟩ := hstep
    · exact ⟨hend, hnone⟩
    · cases h
  · intro s₁ run _ hb
    cases hb with
    | @drain _ r taken hc' htaken =>
      cases hc.symm.trans hc'
      have hnil : taken.2 = [] := by
        rcases htaken with ⟨-, rfl⟩ | ⟨h, -⟩
        · exact hempty
        · cases h
      refine ⟨fun u d hm => ?_, .inr ⟨by simp [hnil], _, hc⟩⟩
      have hm : Event.asked c u d ∈ s.deeds ++ [.drained c taken.2] := by simpa using hm
      rcases List.mem_append.1 hm with hm | hm
      · exact hnever u d hm
      · cases List.mem_singleton.1 hm
    | stop hl => rcases hl with ⟨h, -⟩ | ⟨h, -⟩ <;> cases h
    | want hc' | refuse hc' | await hc' | dispatch hc' | filled hc' | create hc' | retire hc'
    | settled hc' => cases hc.symm.trans hc'
  · rintro s₁ s₂ i a next - ⟨hno, ⟨h, -⟩ | ⟨h, p, hp⟩⟩ ht
    · cases h
    · cases h
      cases ht with
      | count => exact ⟨by simpa using hno, .inl ⟨rfl, get?_goTo hp⟩⟩
      | wait hover => cases hover

/-- What has ended asks for nothing more. So a reset that finds nothing asks for nothing at all. -/
theorem Run.empty_reset (h : Run PublicOnly tr s) (hm : (.resume c, s₀) ∈ tr)
    (hc : s₀.calls.get? c = some (.fresh .reset)) (hempty : s₀.cache.handles = []) :
    s.calls.get? c = some (.ended (.closed 0)) ∧ ∀ u d, .asked c u d ∉ s.events := by
  suffices hdeeds : s.calls.get? c = some (.ended (.closed 0)) ∧ ∀ u d, .asked c u d ∉ s.deeds from
    ⟨hdeeds.1, fun u d hm => hdeeds.2 u d (mem_deeds.2 ⟨hm, rfl⟩)⟩
  induction h with
  | new => cases hm
  | @step tr s s' l hrun hl hs ih =>
    rcases List.mem_cons.1 hm with he | hm
    · cases he
      exact hrun.step_empty hc hempty hs
    · obtain ⟨hend, hnone⟩ := ih hm
      obtain ⟨es, he, hby⟩ := hrun.step_deeds hl hs
      refine ⟨((hrun.step hl hs).lasts List.mem_cons_self).ended hend rfl, fun u d hm => ?_⟩
      rw [he] at hm
      rcases List.mem_append.1 hm with hm | hm
      · exact hnone u d hm
      · exact not_actor_of_ended hs hend (hby c u d hm)

/-! ## 4. What all calls took -/

/-- What an entry of the journal says was taken counts for one call. -/
theorem sum_entry {n : Nat} {e : Event} (p : HandleId → Bool) (he : ∀ c, n ≤ c → e.takenBy c = []) :
    ∑ c ∈ Finset.range n, (e.takenBy c).countP p = e.taken.countP p := by
  cases e with
  | drained i hs =>
    have hother : ∀ c ∈ Finset.range n, c ≠ i → ((Event.drained i hs).takenBy c).countP p = 0 := by
      intro c _ hne
      rw [Event.takenBy, if_neg (Ne.symm hne), List.countP_nil]
    have hmine : ((Event.drained i hs).takenBy i).countP p = hs.countP p := by
      rw [Event.takenBy, if_pos rfl]
    refine (Finset.sum_eq_single i hother fun hout => ?_).trans hmine
    rw [he i (Nat.le_of_not_lt fun hlt => hout (Finset.mem_range.2 hlt)), List.countP_nil]
  | _ => exact Finset.sum_const_zero

/-- What was taken is what each of the calls took. -/
theorem sum_takenBy {n : Nat} (p : HandleId → Bool) (hn : ∀ c, n ≤ c → takenBy s c = []) :
    ∑ c ∈ Finset.range n, (takenBy s c).countP p = (taken s).countP p := by
  unfold takenBy at hn ⊢
  unfold taken
  revert hn
  induction s.events with
  | nil => exact fun _ => Finset.sum_const_zero
  | cons e es ih =>
    intro hn
    simp only [List.flatMap_cons, List.append_eq_nil_iff] at hn
    simp only [List.flatMap_cons, List.countP_append, Finset.sum_add_distrib]
    rw [sum_entry p fun c hc => (hn c hc).1, ih fun c hc => (hn c hc).2]

theorem mem_taken : v ∈ taken s ↔ ∃ c, v ∈ takenBy s c := by
  unfold taken takenBy
  simp only [List.mem_flatMap]
  constructor
  · rintro ⟨e, he, hv⟩
    cases e with
    | drained c hs =>
      refine ⟨c, _, he, ?_⟩
      rw [Event.takenBy, if_pos rfl]
      exact hv
    | _ => cases hv
  · rintro ⟨c, e, he, hv⟩
    cases e with
    | drained i hs =>
      by_cases hi : i = c
      · rw [Event.takenBy, if_pos hi] at hv
        exact ⟨_, he, hv⟩
      · rw [Event.takenBy, if_neg hi] at hv
        cases hv
    | _ => cases hv

/-! ## 5. The counts -/

/-- A call that there is not took nothing. -/
theorem Tallied.none_beyond (T : Tallied tr s none) (c : CallId) (hc : s.calls.size ≤ c) :
    takenBy s c = [] := T.idle c ((Registry.get?_eq_none_iff _ _).2 hc)

/-- No call takes a handle twice, and no two calls take the same. -/
theorem Tallied.taken_nodup (T : Tallied tr s none) : (taken s).Nodup := by
  refine List.nodup_iff_count_le_one.2 fun v => ?_
  have hsum : ∑ c ∈ Finset.range s.calls.size, (takenBy s c).count v = (taken s).count v :=
    sum_takenBy (· == v) T.none_beyond
  by_cases hv : ∃ c, v ∈ takenBy s c
  · obtain ⟨c, hc⟩ := hv
    have hother : ∀ i ∈ Finset.range s.calls.size, i ≠ c → (takenBy s i).count v = 0 :=
      fun i _ hne => List.count_eq_zero.2 fun hi => hne (T.taker c i v hc hi)
    calc
      (taken s).count v = ∑ i ∈ Finset.range s.calls.size, (takenBy s i).count v := hsum.symm
      _ ≤ (takenBy s c).count v := by
        by_cases hlt : c ∈ Finset.range s.calls.size
        · exact (Finset.sum_eq_single_of_mem c hlt hother).le
        · refine (Finset.sum_eq_zero fun i hi => hother i hi ?_).le.trans (Nat.zero_le _)
          rintro rfl
          exact hlt hi
      _ ≤ 1 := List.nodup_iff_count_le_one.1 (T.nodup c) v
  · rw [List.count_eq_zero.2 (mt mem_taken.1 hv)]
    exact Nat.zero_le 1

/-- A call that returned a number returned how many of the producers that it took were closed. -/
theorem Tallied.counted {n : Nat} (T : Tallied tr s none)
    (hc : s.calls.get? c = some (.ended (.closed n))) : n = (takenBy s c).countP (closedOk tr) := by
  cases T.calls c _ hc nobody_runs with
  | returned _ hn => exact hn
  | other _ hno => exact (hno n rfl).elim

theorem Tallied.returned_eq (T : Tallied tr s none)
    (hdone : takenBy s c ≠ [] → ∃ n, s.calls.get? c = some (.ended (.closed n))) :
    returned s c = (takenBy s c).countP (closedOk tr) := by
  by_cases hnone : takenBy s c = []
  · rw [hnone, List.countP_nil]
    unfold returned
    split
    · next n hc => rw [T.counted hc, hnone, List.countP_nil]
    · rfl
  · obtain ⟨n, hc⟩ := hdone hnone
    unfold returned
    rw [hc]
    exact T.counted hc

/-- A call that returned a number closed all that it took. -/
theorem Run.sees_off {n : Nat} (h : Run Unshut tr s)
    (hc : s.calls.get? c = some (.ended (.closed n))) (hv : v ∈ takenBy s c) : SeesOff tr s c v := by
  have b := h.public.orderly.balanced
  have hclosed : ∃ q, ClosedBy tr s c v q := by
    cases h.tallied.calls c _ hc nobody_runs with
    | returned hall => exact hall v hv
    | other _ hno => exact (hno n rfl).elim
  obtain ⟨q, t, r, hasked, hans, hq, htold⟩ := hclosed
  refine ⟨?_, ⟨t, r, hasked, hans, ?_⟩, fun l s₀ s₁ t hm hs hm' => ?_⟩
  · obtain ⟨x, hx, hcl⟩ := closed_of_asked b hasked
    rw [b.closes v, closesOf, hx, Option.map_some, Option.getD_some, (b.settled v x hx).closes, hcl,
      if_pos rfl]
  · unfold closedOk
    rw [decide_eq_true_eq, htold, hq]
    cases r with
    | ok u => exact ⟨fun _ => rfl, fun _ => rfl⟩
    | error e =>
      constructor
      · intro hok
        cases hok
      · intro hok
        cases hok
  · obtain ⟨before, hrun⟩ := h.public.before hm
    exact hrun.unleased (h.public.ok_of_mem hm) hs hm'

end

/-- The counts of resets add up in every run without a shutdown in which no reset is ended at its work,
whatever the order of steps. -/
theorem resets_add_up {tr : List (Label × Factory)} {s : Factory} (h : Run Unshut tr s) :
    AddsUp tr s := by
  have T := h.tallied
  exact {
    drained := by
      intro l s₀ t v hm hv hgone
      rcases h.public.taken_or_mapped hm hv with hin | hout
      · exact (hgone hin).elim
      · exact mem_taken.2 hout
    nodup := T.taken_nodup
    taker := by
      intro v hv
      obtain ⟨c, hc⟩ := mem_taken.1 hv
      obtain ⟨r, rfl | rfl, hmade, hfinds⟩ := h.public.found_by_taker hc
      · refine ⟨c, hmade, hfinds, fun i => ⟨fun hi => T.taker c i v hc hi, ?_⟩⟩
        rintro rfl
        exact hc
      · exact (h.unmade c hmade).elim
    closed := fun c n hc v hv => h.sees_off hc hv
    unblocked := by
      intro c rs hc v hv hunleased
      have b := h.public.orderly.balanced
      cases T.calls c _ hc nobody_runs with
      | counting hmine hall =>
        rw [hmine] at hv
        obtain ⟨r, hr, rfl⟩ := List.mem_map.1 hv
        cases hall r hr with
        | @waiting v x hx hcl =>
          have hb : x.borrows = 0 := by
            rw [b.balance v, borrowsOf, hx] at hunleased
            exact hunleased
          obtain ⟨s', t, hs, hasked⟩ := h.public.closes_free hc hr hx hb hcl
          exact ⟨t, .inr ⟨s', hs, hasked⟩⟩
        | closing hasked => exact ⟨_, .inl hasked⟩
        | finished hclosed =>
          obtain ⟨t, _, hasked, -⟩ := hclosed
          exact ⟨t, .inl hasked⟩
      | retiring hnext => exact (hnext rfl).elim
      | other hno => exact (hno _ _ rfl).elim
    counted := fun c n hc => T.counted hc
    total := by
      intro hdone
      calc
        ∑ c ∈ Finset.range s.calls.size, returned s c
          = ∑ c ∈ Finset.range s.calls.size, (takenBy s c).countP (closedOk tr) :=
            Finset.sum_congr rfl fun c _ => T.returned_eq (hdone c)
        _ = (taken s).countP (closedOk tr) := sum_takenBy (closedOk tr) T.none_beyond
    empty := fun c s₀ hm hc hempty => h.public.empty_reset hm hc hempty }

/-- Two resets that overlap, and one that finds nothing. The first takes two handles: one close fails,
and the other handle is leased for longer than the second reset takes. -/
theorem resets_add_up_overlapping :
    ∃ tr s, Run Unshut tr s ∧ AddsUp tr s ∧ takenBy s 2 = [0, 1] ∧ takenBy s 4 = [2] ∧
      s.calls.get? 2 = some (.ended (.closed 1)) ∧ s.calls.get? 4 = some (.ended (.closed 1)) ∧
      s.calls.get? 5 = some (.ended (.closed 0)) ∧
      ∑ c ∈ Finset.range s.calls.size, returned s c = 2 := by
  have h : Run Unshut _ _ :=
    Run.new.play [.call (.want ⟨"t", .lease⟩), .resume 0, .answer 0 0 (.opened (.ok .sequential)),
      .call (.want ⟨"u", .open⟩), .resume 1, .answer 1 1 (.opened (.ok .sequential)), .call .reset,
      .resume 2, .call (.want ⟨"t", .open⟩), .resume 3, .answer 3 3 (.opened (.ok .sequential)),
      .call .reset, .resume 4, .answer 4 4 (.closed (.ok ())), .answer 2 2 (.closed (.error .closed)),
      .release 0, .resume 2, .answer 2 5 (.closed (.ok ())), .call .reset, .resume 5]
      (by simp [Unshut, Undisturbed, Request.IsPublic]) rfl
  exact ⟨_, _, h, resets_add_up h, rfl, rfl, rfl, rfl, rfl, rfl⟩

/-- A shutdown need not wait for what it took. A call that stood at the cell when the map was taken finds
the factory closed and retires the handle too. Where it runs first once the lease is gone, the close is
its own: the shutdown returns while the close is under way, and does not count it. -/
theorem shutdown_overtaken :
    ∃ tr s, Run Undisturbed tr s ∧ takenBy s 2 = [0] ∧
      s.calls.get? 2 = some (.ended (.closed 0)) ∧
      s.calls.get? 1 = some (.retiring [{ handle := 0, stage := .closing 1 }] .refuse) ∧
      closings tr = [] := by
  have h : Run Undisturbed _ _ :=
    Run.new.play [.call (.want ⟨"t", .lease⟩), .resume 0, .call (.want ⟨"t", .open⟩), .resume 1,
      .answer 0 0 (.opened (.ok .sequential)), .call .shutdown, .resume 2, .release 0, .resume 1,
      .resume 2] (by simp [Undisturbed, Request.IsPublic]) rfl
  exact ⟨_, _, h, rfl, rfl, rfl, rfl⟩

end Factory

end TopicPublisher
