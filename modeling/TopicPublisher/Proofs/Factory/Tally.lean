import Mathlib.Data.List.Nodup
import TopicPublisher.Proofs.Factory.Fate
import TopicPublisher.Proofs.Factory.Orderly

/-!
# What resets take and close

In a run without a shutdown, every handle that was taken out of the map is the business of the one reset
that took it. That reset asks for its close when the last lease is gone, and nobody else does: a call
that lost a topic to another handle closes the one that it opened itself, which was never in the map and
which nobody leases, so that it closes it at once.

A call that retires handles is followed through the points of each retirement (`Followed`), and the
closings that the wire client tells of are read off the run (`closings`).

Results:
1. `mem_takenBy`, `takenBy_append`, `closings_cons`: what is taken, and what the wire client tells.
2. `Turn.closes`, `Turn.unclosed`, `Begins.unclosed`: a close is asked for at one kind of turn only.
3. `Tallied.turn`, `Tallied.drain`, `Tallied.answered`, `Tallied.begins`: what a moment leaves of the
   tally.
4. `Run.tallied`: it is right in every run without a shutdown.
-/

namespace TopicPublisher

/-- The handles that call `c` took out of the map, by an entry of the journal. -/
def Event.takenBy (c : CallId) : Event → List HandleId
  | .drained i hs => if i = c then hs else []
  | _ => []

/-- The producer whose close call `c` asked for under ticket `t`, by an entry of the journal. -/
def Event.closeUnder? (c : CallId) (t : Ticket) : Event → Option HandleId
  | .asked i u (.close v) => if i = c ∧ u = t then some v else none
  | _ => none

namespace Factory

/-! ## Definitions -/

/-- The handles that a call took out of the map. -/
def takenBy (s : Factory) (c : CallId) : List HandleId := s.events.flatMap (Event.takenBy c)

/-- What the wire client tells of closings with one thing that happens. -/
def closingsAt : Label × Factory → List (HandleId × Closing)
  | (.answer c t (.closed r), s) =>
    (s.events.filterMap (Event.closeUnder? c t)).map fun v => (v, closingOf r)
  | _ => []

/-- The closings that the wire client told of, each with the producer. -/
def closings (tr : List (Label × Factory)) : List (HandleId × Closing) := tr.flatMap closingsAt

/-- Whether a producer was closed successfully. -/
def closedOk (tr : List (Label × Factory)) (v : HandleId) : Bool := (v, .done) ∈ closings tr

/-- Callers make requests of their own, but none to shut the factory down, and no reset is ended at its
work. -/
def Unshut (s : Factory) (l : Label) : Prop := Undisturbed s l ∧ l ≠ .call .shutdown

/-- Call `i` can ask for the close of a handle when call `c` is at an act: it is that call and retires
the handle, and nobody leases it. -/
def MayClose (s : Factory) (c : CallId) (a : Act) (i : CallId) (v : HandleId) : Prop :=
  i = c ∧ (∃ done r todo after, a = .retire done (r :: todo) after ∧ r.handle = v ∧ r.stage = .waiting) ∧
    ∃ x, s.handles.get? v = some x ∧ x.borrows = 0

section

variable (tr : List (Label × Factory)) (s : Factory)

/-- Call `c` asked for the close of a producer, and the close ended so and in no other way. -/
def ClosedBy (c : CallId) (v : HandleId) (q : Closing) : Prop :=
  ∃ t r, .asked c t (.close v) ∈ s.events ∧ Answered tr c t (.closed r) ∧ q = closingOf r ∧
    ∀ q', (v, q') ∈ closings tr ↔ q' = q

/-- How far a reset is with one of the handles that it took. -/
inductive Followed (c : CallId) : Retirement → Prop
  | waiting {v : HandleId} {x : Handle} : s.handles.get? v = some x → x.closed = false →
      Followed c { handle := v }
  | closing {v : HandleId} {t : Ticket} : .asked c t (.close v) ∈ s.events →
      (∀ q, (v, q) ∉ closings tr) → Followed c { handle := v, stage := .closing t }
  | finished {v : HandleId} {q : Closing} : ClosedBy tr s c v q →
      Followed c { handle := v, stage := .finished q }

/-- What a call at one of its points took and closed. -/
inductive Tally (c : CallId) : Progress → Prop
  | counting {rs : List Retirement} : takenBy s c = rs.map Retirement.handle →
      (∀ r ∈ rs, Followed tr s c r) → Tally c (.retiring rs .count)
  | returned {n : Nat} : (∀ v ∈ takenBy s c, ∃ q, ClosedBy tr s c v q) →
      n = (takenBy s c).countP (closedOk tr) → Tally c (.ended (.closed n))
  /-- What it retires was not taken, and is being closed or was. -/
  | retiring {rs : List Retirement} {next : AfterRetiring} : next ≠ .count → takenBy s c = [] →
      (∀ r ∈ rs, r.stage ≠ .waiting) → Tally c (.retiring rs next)
  | other {p : Progress} : (∀ rs next, p ≠ .retiring rs next) → (∀ n, p ≠ .ended (.closed n)) →
      takenBy s c = [] → Tally c p

/-- What the call that runs took and closed. -/
inductive ActTally (c : CallId) : Act → Prop
  | counting {done todo : List Retirement} : takenBy s c = (done ++ todo).map Retirement.handle →
      (∀ r ∈ done ++ todo, Followed tr s c r) → ActTally c (.retire done todo .count)
  /-- What it is to close yet was not taken, and nobody leases it. -/
  | retiring {done todo : List Retirement} {next : AfterRetiring} : next ≠ .count →
      takenBy s c = [] → (∀ r ∈ done, r.stage ≠ .waiting) →
      (∀ r ∈ todo, r.stage = .waiting → (∀ i, r.handle ∉ takenBy s i) ∧
        ∃ x, s.handles.get? r.handle = some x ∧ x.borrows = 0) →
      ActTally c (.retire done todo next)
  | other {a : Act} : (∀ done todo next, a ≠ .retire done todo next) → takenBy s c = [] → ActTally c a

/-- What was taken was taken once, and is closed by who took it. -/
structure Tallied (run : Option (CallId × Act)) : Prop where
  unclosed : s.cache.closed = false
  nodup : ∀ c, (takenBy s c).Nodup
  taker : ∀ c i v, v ∈ takenBy s c → v ∈ takenBy s i → i = c
  closer : ∀ c i t v, .asked i t (.close v) ∈ s.events → v ∈ takenBy s c → i = c
  closed : ∀ v q, (v, q) ∈ closings tr → ∃ x, s.handles.get? v = some x ∧ x.closed = true
  idle : ∀ i, s.calls.get? i = none → takenBy s i = []
  calls : ∀ i p, s.calls.get? i = some p → (∀ a, run ≠ some (i, a)) → Tally tr s i p
  act : ∀ c a, run = some (c, a) → ActTally tr s c a

end

open SoundLemmas StoryLemmas FateLemmas

section

variable {tr tr' : List (Label × Factory)} {s s' : Factory} {c i : CallId} {l : Label} {v : HandleId}
  {run : Option (CallId × Act)} {owner : CellId → String} {q : Closing}

/-! ## 1. What is taken, and what is told -/

namespace TallyLemmas

theorem takenBy_eq (s : Factory) (c : CallId) :
    takenBy s c = s.deeds.flatMap (Event.takenBy c) := by
  unfold takenBy deeds
  induction s.events with
  | nil => rfl
  | cons e es ih =>
    rw [List.flatMap_cons, ih, List.filter_cons]
    cases e <;> rfl

theorem takenBy_append {es : List Event} (he : s'.deeds = s.deeds ++ es) (c : CallId) :
    takenBy s' c = takenBy s c ++ es.flatMap (Event.takenBy c) := by
  rw [takenBy_eq, takenBy_eq, he, List.flatMap_append]

theorem mem_takenBy : v ∈ takenBy s c ↔ Took s c v := by
  unfold takenBy Took
  rw [List.mem_flatMap]
  constructor
  · rintro ⟨e, he, hv⟩
    cases e with
    | drained i hs =>
      by_cases hi : i = c
      · exact ⟨hs, hi ▸ he, by simpa [Event.takenBy, hi] using hv⟩
      · simp [Event.takenBy, hi] at hv
    | _ => cases hv
  · rintro ⟨hs, he, hv⟩
    exact ⟨_, he, by simpa [Event.takenBy] using hv⟩

/-- Entries that say nothing of handles taken out of the map. -/
theorem takenBy_keep {es : List Event} (he : s'.deeds = s.deeds ++ es)
    (hes : ∀ i hs, .drained i hs ∉ es) (c : CallId) : takenBy s' c = takenBy s c := by
  rw [takenBy_append he, List.flatMap_eq_nil_iff.2, List.append_nil]
  intro e hm
  cases e with
  | drained i hs => exact (hes i hs hm).elim
  | _ => rfl

theorem mem_closingsAt {y : Label × Factory} :
    (v, q) ∈ closingsAt y ↔ ∃ c t r, y.1 = .answer c t (.closed r) ∧
      .asked c t (.close v) ∈ y.2.events ∧ q = closingOf r := by
  obtain ⟨l, s⟩ := y
  constructor
  · intro hm
    cases l with
    | answer c t a =>
      cases a with
      | closed r =>
        obtain ⟨u, hu, he⟩ := List.mem_map.1 hm
        cases he
        obtain ⟨e, he, hv⟩ := List.mem_filterMap.1 hu
        refine ⟨c, t, r, rfl, ?_, rfl⟩
        cases e with
        | asked i u d =>
          cases d with
          | close w =>
            simp only [Event.closeUnder?, Option.ite_none_right_eq_some, Option.some.injEq] at hv
            obtain ⟨⟨rfl, rfl⟩, rfl⟩ := hv
            exact he
          | _ => cases hv
        | _ => cases hv
      | _ => cases hm
    | _ => cases hm
  · rintro ⟨c, t, r, rfl, he, rfl⟩
    exact List.mem_map.2 ⟨v, List.mem_filterMap.2 ⟨_, he, by simp [Event.closeUnder?]⟩, rfl⟩

theorem mem_closingsAt_answer {t : Ticket} {r : Except ClientError Unit} :
    (v, q) ∈ closingsAt (.answer c t (.closed r), s) ↔
      .asked c t (.close v) ∈ s.events ∧ q = closingOf r := by
  rw [mem_closingsAt]
  constructor
  · rintro ⟨_, _, _, h, hm, hq⟩
    cases h
    exact ⟨hm, hq⟩
  · rintro ⟨hm, hq⟩
    exact ⟨c, t, r, rfl, hm, hq⟩

theorem closings_cons (y : Label × Factory) (tr : List (Label × Factory)) :
    (v, q) ∈ closings (y :: tr) ↔ (v, q) ∈ closingsAt y ∨ (v, q) ∈ closings tr := by
  unfold closings
  rw [List.flatMap_cons, List.mem_append]

/-- What a change of one handle leaves as it is of another one or of itself. -/
theorem kept_update {a : Registry Handle} {w : HandleId} {f : Handle → Handle} {P : Handle → Prop}
    {x : Handle} (hf : ∀ x, P x → P (f x)) (hx : a.get? v = some x) (hP : P x) :
    ∃ y, (a.update w f).get? v = some y ∧ P y := by
  rw [Registry.get?_update]
  split
  · exact ⟨_, congrArg (Option.map f) hx, hf x hP⟩
  · exact ⟨x, hx, hP⟩

theorem park_frame (x : Handle) (c : CallId) :
    (x.park c).borrows = x.borrows ∧ (x.park c).closed = x.closed := by
  unfold Handle.park
  split <;> exact ⟨rfl, rfl⟩

theorem closeOver_handle (t : Ticket) (r : Except ClientError Unit) (x : Retirement) :
    (closeOver t r x).handle = x.handle := by
  unfold closeOver
  split <;> rfl

theorem closeOver_stage (t : Ticket) (r : Except ClientError Unit) {x : Retirement}
    (hx : x.stage ≠ .waiting) : (closeOver t r x).stage ≠ .waiting := by
  unfold closeOver
  split
  · exact nofun
  · exact hx

/-- A producer whose close was asked for says so. -/
theorem closed_of_asked {t : Ticket} (b : Balanced s run) (hm : .asked c t (.close v) ∈ s.events) :
    ∃ x, s.handles.get? v = some x ∧ x.closed = true := by
  have hpos : 0 < s.closeCount v :=
    List.countP_pos_iff.2 ⟨_, hm, by simp [Closes]⟩
  rw [b.closes v] at hpos
  unfold closesOf at hpos
  cases hx : s.handles.get? v with
  | none =>
    rw [hx] at hpos
    cases hpos
  | some x =>
    refine ⟨x, rfl, ?_⟩
    have hpos : 0 < x.closes := by simpa [hx] using hpos
    rw [(b.settled v x hx).closes] at hpos
    cases hcl : x.closed with
    | true => rfl
    | false =>
      rw [hcl] at hpos
      cases hpos

/-- No handle is in the map twice. -/
theorem Sound.nodup_handles (h : Sound owner s run) : s.cache.handles.Nodup := by
  have htopics : s.cache.entries.Pairwise fun e e' => e.1 ≠ e'.1 := List.pairwise_map.1 h.tidy.nodup
  unfold Cache.handles
  refine List.pairwise_filterMap.2 (htopics.imp_of_mem ?_)
  rintro ⟨t, k⟩ ⟨t', k'⟩ he he' hne v hv v' hv' rfl
  have ht := topic?_of_cell h (h.tidy.entry t k he) hv
  have ht' := topic?_of_cell h (h.tidy.entry t' k' he') hv'
  exact hne (Option.some.inj (ht.symm.trans ht'))

/-- A handle in the map is unclosed, and nobody took it. -/
theorem Fated.of_mapped (f : Fated s run) (hs : Sound owner s run) (hv : v ∈ s.cache.handles) :
    ∃ x, s.handles.get? v = some x ∧ x.closed = false ∧ ∀ i, v ∉ takenBy s i := by
  obtain ⟨t, ht⟩ := hs.tidy.mem_handles_iff.1 hv
  obtain ⟨x, hx, -⟩ := topic?_eq_some_iff.1 (topic?_of_handle? hs ht)
  rcases (f.fate v x hx).kept_or_out with ⟨-, -, hcl, hno⟩ | hout
  · exact ⟨x, hx, hcl, fun i hi => hno i (mem_takenBy.1 hi)⟩
  · exact (hout t ht).elim

end TallyLemmas

open TallyLemmas

/-! ## 2. Closes -/

/-- A turn takes nothing out of the map, and asks for the close of the handle that it looks at, if any:
one that nobody leases. -/
theorem Turn.closes {a : Act} {next : Option Act} (ht : Turn c s a s' next) :
    ∃ es, s'.deeds = s.deeds ++ es ∧ (∀ i hs, .drained i hs ∉ es) ∧
      ∀ i t v, .asked i t (.close v) ∈ es → MayClose s c a i v := by
  have hnone : s'.deeds = s.deeds → ∃ es, s'.deeds = s.deeds ++ es ∧ (∀ i hs, .drained i hs ∉ es) ∧
      ∀ i t v, .asked i t (.close v) ∈ es → MayClose s c a i v := fun he =>
    ⟨[], he.trans (List.append_nil _).symm, fun _ _ => List.not_mem_nil,
      fun _ _ _ hm => (List.not_mem_nil hm).elim⟩
  have hone : ∀ {d : Demand}, s'.deeds = s.deeds ++ [.asked c s.tickets d] →
      (∀ v, d = .close v → MayClose s c a c v) →
      ∃ es, s'.deeds = s.deeds ++ es ∧ (∀ i hs, .drained i hs ∉ es) ∧
        ∀ i t v, .asked i t (.close v) ∈ es → MayClose s c a i v := by
    intro d he hd
    refine ⟨_, he, fun i hs hm => ?_, fun i t v hm => ?_⟩
    · cases List.mem_singleton.1 hm
    · cases List.mem_singleton.1 hm
      exact hd v rfl
  cases ht with
  | @create w => exact hone (d := .openProducer w.topic) (by simp; rfl) nofun
  | @send w h x m => exact hone (d := .send h m) (by simp; rfl) nofun
  | @enqueue w h x m => exact hone (d := .enqueue h m) (by simp; rfl) nofun
  | @close done todo r next x hw hx hb =>
    refine hone (d := .close r.handle) (by simp) fun v hv => ?_
    cases hv
    exact ⟨rfl, ⟨done, r, todo, next, rfl, rfl, hw⟩, x, hx, hb⟩
  | _ => exact hnone (by simp)

/-- A turn leaves a producer unclosed that it does not look at. -/
theorem Turn.unclosed {a : Act} {next : Option Act} {x : Handle} (ht : Turn c s a s' next)
    (hx : s.handles.get? v = some x) (hcl : x.closed = false) :
    (∃ y, s'.handles.get? v = some y ∧ y.closed = false) ∨ ∃ done r todo after,
      a = .retire done (r :: todo) after ∧ r.handle = v ∧ r.stage = .waiting := by
  have hflags : SameFlags s.handles s'.handles → ∃ y, s'.handles.get? v = some y ∧ y.closed = false := by
    intro hf
    obtain ⟨y, hy, -⟩ := ht.later v x hx
    obtain ⟨x', hx', -, -, hcl'⟩ := hf v y hy
    cases hx.symm.trans hx'
    exact ⟨y, hy, hcl'.trans hcl⟩
  have hstop : ∀ hs, ∃ y, (stopAll s.handles hs).get? v = some y ∧ y.closed = false := by
    intro hs
    rw [get?_stopAll, hx]
    refine ⟨_, rfl, ?_⟩
    split <;> exact hcl
  cases ht with
  | denied => exact .inl (hflags (sameFlags_refused s.handles _))
  | lease | send | enqueue | promise => exact .inl (hflags (sameFlags_beginBorrow s.handles _))
  | superseded | shut => exact .inl (hstop _)
  | park =>
    refine .inl (hflags (sameFlags_update s.handles _ fun x => ?_))
    unfold Handle.park
    split <;> exact ⟨rfl, rfl, rfl⟩
  | @close done todo r next _ hw =>
    by_cases hv : r.handle = v
    · exact .inr ⟨done, r, todo, next, rfl, hv, hw⟩
    · exact .inl ⟨x, (Registry.get?_update _ _ _ _).trans ((if_neg hv).trans hx), hcl⟩
  | _ => exact .inl ⟨x, hx, hcl⟩

/-- The beginning of a step closes no producer. -/
theorem Begins.unclosed {x : Handle} (hb : Begins s l s' run) (hx : s.handles.get? v = some x)
    (hcl : x.closed = false) : ∃ y, s'.handles.get? v = some y ∧ y.closed = false := by
  have hflags : SameFlags s.handles s'.handles → ∃ y, s'.handles.get? v = some y ∧ y.closed = false := by
    intro hf
    obtain ⟨y, hy, -⟩ := hb.later v x hx
    obtain ⟨x', hx', -, -, hcl'⟩ := hf v y hy
    cases hx.symm.trans hx'
    exact ⟨y, hy, hcl'.trans hcl⟩
  cases hb with
  | @drain c r taken =>
    refine ⟨_, (get?_stopAll s.handles taken.2 v).trans (congrArg _ hx), ?_⟩
    split <;> exact hcl
  | created =>
    refine ⟨x, (Registry.get?_add _ _ _).trans ?_, hcl⟩
    rw [if_neg (Nat.ne_of_lt (Registry.lt_size_of_get? hx))]
    exact hx
  | receipt | rejected | completed | released => exact hflags (sameFlags_endBorrow s.handles _)
  | stop _ _ hs =>
    cases hs with
    | dispatch | sending | completing => exact hflags (sameFlags_endBorrow s.handles _)
    | retiring hget => exact hflags (sameFlags_parked hget)
    | _ => exact ⟨x, hx, hcl⟩
  | leased => exact hflags (sameFlags_beginBorrow s.handles _)
  | denied => exact hflags (sameFlags_refused s.handles _)
  | _ => exact ⟨x, hx, hcl⟩

/-- The beginning of a step asks for no close, and only a reset or a shutdown takes handles out of the
map. -/
theorem Begins.closes (hb : Begins s l s' run) :
    ∃ es, s'.deeds = s.deeds ++ es ∧ (∀ i t v, .asked i t (.close v) ∉ es) ∧
      ((∀ i hs, .drained i hs ∉ es) ∨ ∃ c r, l = .resume c ∧ s.calls.get? c = some (.fresh r) ∧
        (r = .reset ∨ r = .shutdown) ∧ es = [.drained c s.cache.handles] ∧
        run = some (c, .retire [] (s.cache.handles.map fun v => { handle := v }) .count)) := by
  have hone : ∀ {c : CallId} {d : Demand}, (∀ v, d ≠ .close v) → (∀ i t v, .asked i t (.close v) ∉
      [Event.asked c s.tickets d]) ∧ ∀ i hs, .drained i hs ∉ [Event.asked c s.tickets d] := by
    refine fun hd => ⟨fun i t v hm => ?_, fun i hs hm => nomatch List.mem_singleton.1 hm⟩
    cases List.mem_singleton.1 hm
    exact hd v rfl
  cases hb with
  | @drain c r taken hc htaken =>
    have hor : (r = .reset ∨ r = .shutdown) ∧ taken.2 = s.cache.handles := by
      rcases htaken with ⟨rfl, rfl⟩ | ⟨rfl, rfl⟩
      · exact ⟨.inl rfl, rfl⟩
      · exact ⟨.inr rfl, rfl⟩
    refine ⟨[.drained c taken.2], by simp, fun i t v hm => ?_,
      .inr ⟨c, r, rfl, hc, hor.1, by rw [hor.2], by rw [hor.2]⟩⟩
    cases List.mem_singleton.1 hm
  | @created c =>
    refine ⟨[.opened c s.handles.size], by simp, fun i t v hm => ?_, .inl fun i hs hm => ?_⟩ <;>
      cases List.mem_singleton.1 hm
  | @dispatch c h m =>
    have hm := hone (c := c) (d := .send h m) nofun
    exact ⟨[.asked c s.tickets (.send h m)], by simp; rfl, hm.1, .inl hm.2⟩
  | @create c w =>
    have hm := hone (c := c) (d := .openProducer w.topic) nofun
    exact ⟨[.asked c s.tickets (.openProducer w.topic)], by simp, hm.1, .inl hm.2⟩
  | stop _ _ hs => exact ⟨[], by simp [hs.deeds_eq], by simp, .inl (by simp)⟩
  | _ => exact ⟨[], by simp, by simp, .inl (by simp)⟩

/-! ## 3. What is left to the others -/

/-- What a moment leaves of what call `i` knows of a handle. -/
structure Untouched (tr tr' : List (Label × Factory)) (s s' : Factory) (i : CallId) (v : HandleId) :
    Prop where
  unclosed : ∀ x, s.handles.get? v = some x → x.closed = false →
    ∃ y, s'.handles.get? v = some y ∧ y.closed = false
  asked : ∀ t, .asked i t (.close v) ∈ s.events → .asked i t (.close v) ∈ s'.events
  answered : ∀ t a, Answered tr i t a → Answered tr' i t a
  told : ∀ q, (v, q) ∈ closings tr' ↔ (v, q) ∈ closings tr

theorem untouched_same (hh : s'.handles = s.handles)
    (hm : ∀ t, .asked i t (.close v) ∈ s.events → .asked i t (.close v) ∈ s'.events) :
    Untouched tr tr s s' i v :=
  ⟨fun x hx hcl => ⟨x, hh ▸ hx, hcl⟩, hm, fun _ _ h => h, fun _ => Iff.rfl⟩

theorem ClosedBy.mono (h : ClosedBy tr s i v q) (k : Untouched tr tr' s s' i v) :
    ClosedBy tr' s' i v q := by
  obtain ⟨t, r, hasked, hans, hq, htold⟩ := h
  exact ⟨t, r, k.asked t hasked, k.answered t _ hans, hq, fun q' => (k.told q').trans (htold q')⟩

theorem Followed.mono {r : Retirement} (h : Followed tr s i r) (k : Untouched tr tr' s s' i r.handle) :
    Followed tr' s' i r := by
  cases h with
  | waiting hx hcl =>
    obtain ⟨y, hy, hcl'⟩ := k.unclosed _ hx hcl
    exact .waiting hy hcl'
  | closing hasked hno => exact .closing (k.asked _ hasked) fun q hq => hno q ((k.told q).1 hq)
  | finished hc => exact .finished (hc.mono k)

/-- A handle that a reset is to close yet is unclosed. -/
theorem Followed.unclosed {r : Retirement} (h : Followed tr s i r) (hw : r.stage = .waiting) :
    ∃ x, s.handles.get? r.handle = some x ∧ x.closed = false := by
  cases h with
  | waiting hx hcl => exact ⟨_, hx, hcl⟩
  | closing | finished => cases hw

theorem Tally.mono {p : Progress} (h : Tally tr s i p) (ht : takenBy s' i = takenBy s i)
    (k : ∀ v ∈ takenBy s i, Untouched tr tr' s s' i v) : Tally tr' s' i p := by
  cases h with
  | counting htaken hall =>
    refine .counting (ht.trans htaken) fun r hr => (hall r hr).mono (k _ ?_)
    rw [htaken]
    exact List.mem_map_of_mem hr
  | returned hall hn =>
    refine .returned (fun v hv => ?_) ?_
    · rw [ht] at hv
      obtain ⟨q, hq⟩ := hall v hv
      exact ⟨q, hq.mono (k v hv)⟩
    · rw [ht, hn]
      refine List.countP_congr fun v hv => ?_
      simp only [closedOk, decide_eq_true_eq]
      exact ((k v hv).told .done).symm
  | retiring hnext hnone hall => exact .retiring hnext (ht.trans hnone) hall
  | other hno hno' hnone => exact .other hno hno' (ht.trans hnone)

/-- A turn spares every handle that it does not look at. -/
theorem Turn.untouched {a : Act} {next : Option Act} (ht : Turn c s a s' next)
    (hno : ∀ done r todo after, a = .retire done (r :: todo) after → r.stage = .waiting →
      r.handle ≠ v) (tr : List (Label × Factory)) (i : CallId) : Untouched tr tr s s' i v where
  unclosed x hx hcl := by
    rcases ht.unclosed hx hcl with h | ⟨done, r, todo, after, ha, hv, hw⟩
    · exact h
    · exact (hno done r todo after ha hw hv).elim
  asked t hm := by
    obtain ⟨es, he, -⟩ := ht.closes
    exact asked_mono he hm
  answered _ _ h := h
  told _ := Iff.rfl

/-- The wire client tells of a closing to a call that retires handles, which goes on with it. -/
theorem Begins.tells (hb : Begins s l s' run) (hm : (v, q) ∈ closingsAt (l, s)) :
    ∃ c t r rs next, l = .answer c t (.closed r) ∧ .asked c t (.close v) ∈ s.events ∧
      q = closingOf r ∧ s.calls.get? c = some (.retiring rs next) ∧
      run = some (c, .retire [] (rs.map (closeOver t r)) next) := by
  obtain ⟨c, t, r, hl, hasked, hq⟩ := mem_closingsAt.1 hm
  dsimp only at hl hasked
  subst hl
  cases hb with
  | closed hc => exact ⟨c, t, r, _, _, rfl, hasked, hq, hc, rfl⟩
  | stop hl => rcases hl with ⟨h, -⟩ | ⟨h, -⟩ <;> cases h

/-- The beginning of a step spares every handle that it tells nothing of. -/
theorem Begins.untouched (hb : Begins s l s' run) (hno : ∀ q, (v, q) ∉ closingsAt (l, s))
    (tr : List (Label × Factory)) (i : CallId) : Untouched tr ((l, s) :: tr) s s' i v where
  unclosed _ hx hcl := hb.unclosed hx hcl
  asked t hm := by
    obtain ⟨es, he, -⟩ := hb.closes
    exact asked_mono he hm
  answered _ _ h := by
    obtain ⟨s₀, hm⟩ := h
    exact ⟨s₀, List.mem_cons_of_mem _ hm⟩
  told q := (closings_cons _ _).trans (or_iff_right (hno q))

/-- A turn of one call spares what another one took. -/
theorem Tallied.untouched {a : Act} {next : Option Act} (T : Tallied tr s (some (c, a)))
    (ht : Turn c s a s' next) (hi : i ≠ c) (hv : v ∈ takenBy s i) : Untouched tr tr s s' i v := by
  refine ht.untouched (fun done r todo after ha hw he => ?_) tr i
  subst ha he
  cases T.act c _ rfl with
  | counting htaken =>
    refine hi (T.taker c i r.handle ?_ hv)
    rw [htaken]
    exact List.mem_map_of_mem (List.mem_append_right _ List.mem_cons_self)
  | retiring _ _ _ hfree => exact (hfree r List.mem_cons_self hw).1 i hv
  | other hno => exact hno _ _ _ rfl

/-- The beginning of a step of one call spares what another one took. -/
theorem Tallied.untouched_begin (T : Tallied tr s none) (hb : Begins s l s' run)
    (hi : ∀ a, run ≠ some (i, a)) (hv : v ∈ takenBy s i) : Untouched tr ((l, s) :: tr) s s' i v := by
  refine hb.untouched (fun q hm => ?_) tr i
  obtain ⟨c, t, r, rs, next, -, hasked, -, -, hrun⟩ := hb.tells hm
  cases T.closer i c t v hasked hv
  exact hi _ hrun

/-! ## 4. Turns -/

/-- A call that does not retire handles gets to no point at which it does. -/
theorem Reaches.plain {a : Act} {p : Progress} (hr : Reaches s s' a p)
    (ha : ∀ done todo next, a ≠ .retire done todo next) :
    (∀ rs next, p ≠ .retiring rs next) ∧ ∀ n, p ≠ .ended (.closed n) := by
  cases hr with
  | retiring => exact (ha _ _ _ rfl).elim
  | ended hy =>
    cases hy with
    | failed | closed => exact (ha _ _ _ rfl).elim
    | _ => exact ⟨fun _ _ => nofun, fun _ => nofun⟩
  | _ => exact ⟨fun _ _ => nofun, fun _ => nofun⟩

/-- What a turn leaves of the tally, but for the call that runs. -/
theorem Tallied.passes {a : Act} {next : Option Act} (hs : Sound owner s (some (c, a)))
    (T : Tallied tr s (some (c, a))) (ht : Turn c s a s' next)
    (hown : next = none → ∀ p, s'.calls.get? c = some p → Tally tr s' c p)
    (hact : ∀ a', next = some a' → ActTally tr s' c a') :
    Tallied tr s' (next.map fun a => (c, a)) := by
  obtain ⟨es, he, hdrained, hcloses⟩ := ht.closes
  have htaken := takenBy_keep he hdrained
  exact {
    unclosed := ht.closed_eq.trans T.unclosed
    nodup := fun i => htaken i ▸ T.nodup i
    taker := by
      intro j i v hj hi
      rw [htaken] at hj hi
      exact T.taker j i v hj hi
    closer := by
      intro j i t v hm hv
      rw [htaken] at hv
      have hm : Event.asked i t (.close v) ∈ s.deeds ++ es := he ▸ mem_deeds.2 ⟨hm, rfl⟩
      rcases List.mem_append.1 hm with hm | hm
      · exact T.closer j i t v (mem_deeds.1 hm).1 hv
      · -- The handle that is closed now was taken by the call that runs, if by any.
        obtain ⟨rfl, ⟨done, r, todo, after, rfl, rfl, hw⟩, -⟩ := hcloses i t v hm
        cases T.act i _ rfl with
        | counting hmine =>
          refine T.taker j i r.handle hv ?_
          rw [hmine]
          exact List.mem_map_of_mem (List.mem_append_right _ List.mem_cons_self)
        | retiring _ _ _ hfree => exact ((hfree r List.mem_cons_self hw).1 j hv).elim
        | other hno => exact (hno _ _ _ rfl).elim
    closed := by
      intro v q hm
      obtain ⟨x, hx, hcl⟩ := T.closed v q hm
      obtain ⟨y, hy, hxy⟩ := ht.later v x hx
      exact ⟨y, hy, hxy.closed hcl⟩
    idle := by
      intro i hnone
      refine (htaken i).trans (T.idle i ?_)
      rw [Registry.get?_eq_none_iff] at hnone ⊢
      exact Nat.le_trans ht.calls_size hnone
    calls := by
      intro i p hp hrun
      cases ht.moves hs hp with
      | stays hp₀ hnext =>
        have hi : i ≠ c := by
          intro hi
          obtain ⟨a', ha'⟩ := Option.ne_none_iff_exists'.1 (hnext hi)
          refine hrun a' ?_
          rw [hi, ha']
          rfl
        refine (T.calls i p hp₀ fun b hb => hi (eq_of_run i b hb)).mono (htaken i) fun v hv => ?_
        exact T.untouched ht hi hv
      | gets hi hnext =>
        subst hi
        exact hown hnext p hp
      | begun hi _ hp₀ =>
        refine .other (hp₀ ▸ fun _ _ => nofun) (hp₀ ▸ fun _ => nofun) ((htaken i).trans (T.idle i ?_))
        rw [hi]
        exact get?_size _
    act := by
      intro i b hb
      obtain ⟨_, ha', heq⟩ := Option.map_eq_some_iff.1 hb
      cases heq
      exact hact b ha' }

/-- A turn of a call that does not retire handles. -/
theorem Tallied.turn_other {a : Act} {next : Option Act} (hs : Sound owner s (some (c, a)))
    (f : Fated s (some (c, a))) (T : Tallied tr s (some (c, a))) (ht : Turn c s a s' next)
    (ha : ∀ done todo next, a ≠ .retire done todo next) :
    Tallied tr s' (next.map fun a => (c, a)) := by
  obtain ⟨es, he, hdrained, -⟩ := ht.closes
  have htaken := takenBy_keep he hdrained
  have hnone : takenBy s' c = [] := by
    rw [htaken]
    cases T.act c a rfl with
    | counting | retiring => exact (ha _ _ _ rfl).elim
    | other _ hnone => exact hnone
  refine T.passes hs ht (fun hnext p hp => ?_) fun a' ha' => ?_
  · cases ht.moves hs hp with
    | stays _ hne => exact (hne rfl hnext).elim
    | gets _ _ hr => exact .other (hr.plain ha).1 (hr.plain ha).2 hnone
    | begun _ _ hp₀ => exact .other (hp₀ ▸ fun _ _ => nofun) (hp₀ ▸ fun _ => nofun) hnone
  · cases ht with
    | @superseded w k v winner loser cache hp =>
      cases ha'
      obtain ⟨hk, hv⟩ := hs.act c _ rfl
      have hplaced := Cache.place_placed s.cache (s.isRetiring v) w.topic k v
      rw [hp] at hplaced
      cases hplaced with
      | superseded _ hr _ hother hne =>
        -- Nobody but this call knows of the handle that lost.
        obtain ⟨x, hx, htopic⟩ := topic?_eq_some_iff.1 (topic?_of_cell hs hk hv)
        have hret : x.retiring = false := (isRetiring_eq hx).symm.trans hr
        refine .retiring nofun hnone nofun fun r hm _ => ?_
        cases List.mem_singleton.1 hm
        cases f.fate v x hx with
        | kept hcur =>
          rw [htopic] at hcur
          exact (hne (Option.some.inj (hother.symm.trans hcur))).elim
        | doomed _ hret' | shut _ hret' => exact nomatch hret.symm.trans hret'
        | loose _ _ _ _ hb hno =>
          refine ⟨fun i hi => hno i (mem_takenBy.1 (htaken i ▸ hi)), x.stopLeasing, ?_, hb⟩
          show (stopAll s.handles [v]).get? v = _
          rw [get?_stopAll, hx, Option.map_some, if_pos (List.mem_singleton.2 rfl)]
    | @shut w k v _ cache hp =>
      have hplaced := Cache.place_placed s.cache (s.isRetiring v) w.topic k v
      rw [hp] at hplaced
      cases hplaced with
      | closed hcl => exact nomatch T.unclosed.symm.trans hcl
    | skip | elsewhere | close | park | goOn => exact (ha _ _ _ rfl).elim
    | _ =>
      cases ha'
      all_goals exact .other (fun _ _ _ => nofun) hnone

/-- All retirements of a call that counts are over: it tells how many of them closed their producer. -/
theorem Tally.of_over {done : List Retirement} (htaken : takenBy s c = done.map Retirement.handle)
    (hall : ∀ r ∈ done, Followed tr s c r) (hover : allOver done = true) :
    Tally tr s c (.ended (.closed (closedCount done))) := by
  have hdone : ∀ r ∈ done, ∃ q, r.stage = .finished q ∧ ClosedBy tr s c r.handle q := by
    intro r hr
    have hres := List.all_eq_true.1 hover r hr
    cases hall r hr with
    | waiting | closing => cases hres
    | finished hc => exact ⟨_, rfl, hc⟩
  refine .returned (fun v hv => ?_) ?_
  · rw [htaken] at hv
    obtain ⟨r, hr, rfl⟩ := List.mem_map.1 hv
    obtain ⟨q, -, hq⟩ := hdone r hr
    exact ⟨q, hq⟩
  · rw [htaken, List.countP_map]
    refine List.countP_congr fun r hr => ?_
    obtain ⟨q, hst, _, _, _, _, _, htold⟩ := hdone r hr
    simp only [Retirement.result?, hst, closedOk, Function.comp, decide_eq_true_eq, htold,
      Option.some.injEq]
    exact eq_comm

/-- The call that runs closes a producer. -/
theorem Tallied.turn_close {done todo : List Retirement} {r : Retirement} {after : AfterRetiring}
    {x : Handle} (hs : Sound owner s (some (c, .retire done (r :: todo) after)))
    (T : Tallied tr s (some (c, .retire done (r :: todo) after))) (hw : r.stage = .waiting)
    (hx : s.handles.get? r.handle = some x) (hb : x.borrows = 0) (hcl : x.closed = false) :
    Tallied tr
      ({ s with
        handles := s.handles.update r.handle fun x =>
          { x.claimClose.2 with closes := x.closes + 1 } }.ask c (.close r.handle))
      (some (c, .retire (done ++ [{ r with stage := .closing s.tickets }]) todo after)) := by
  have ht : Turn c s (.retire done (r :: todo) after) _ _ := .close hw hx hb hcl
  have hasked : ∀ {s₁ : Factory}, s₁.deeds = s.deeds ++ [.asked c s.tickets (.close r.handle)] →
      .asked c s.tickets (.close r.handle) ∈ s₁.events := fun he => asked_of_deeds_eq he
  refine T.passes hs ht (fun h => (Option.some_ne_none _ h).elim) fun a' ha' => ?_
  cases ha'
  obtain ⟨es, he, hdrained, -⟩ := ht.closes
  have htaken := takenBy_keep he hdrained
  cases T.act c _ rfl with
  | counting hmine hall =>
    have hnodup : ((done ++ r :: todo).map Retirement.handle).Nodup := hmine ▸ T.nodup c
    rw [List.map_append, List.map_cons] at hnodup
    have hne : ∀ r' ∈ done ++ todo, r.handle ≠ r'.handle := by
      have := (List.nodup_middle.1 hnodup)
      rw [List.nodup_cons, ← List.map_append] at this
      intro r' hr' he
      exact this.1 (he ▸ List.mem_map_of_mem hr')
    refine .counting ?_ fun r' hr' => ?_
    · rw [htaken, hmine]
      simp
    · have hspared : r' ∈ done ++ todo → Followed tr _ c r' := fun hm => by
        refine (hall r' ?_).mono (ht.untouched (fun done₁ r₁ todo₁ after₁ he₁ _ => ?_) tr c)
        · rcases List.mem_append.1 hm with hm | hm
          · exact List.mem_append_left _ hm
          · exact List.mem_append_right _ (List.mem_cons_of_mem _ hm)
        · cases he₁
          exact hne r' hm
      rcases List.mem_append.1 hr' with hr' | hr'
      · rcases List.mem_append.1 hr' with hr' | hr'
        · exact hspared (List.mem_append_left _ hr')
        · -- Nothing was told of this closing, since the producer was unclosed.
          cases List.mem_singleton.1 hr'
          refine .closing (hasked (by simp)) fun q hq => ?_
          obtain ⟨y, hy, hycl⟩ := T.closed _ q hq
          cases hx.symm.trans hy
          exact nomatch hcl.symm.trans hycl
      · exact hspared (List.mem_append_right _ hr')
  | retiring hafter hnone hdone hfree =>
    refine .retiring hafter ((htaken c).trans hnone) (fun r' hr' => ?_) fun r' hr' hw' => ?_
    · rcases List.mem_append.1 hr' with hr' | hr'
      · exact hdone r' hr'
      · cases List.mem_singleton.1 hr'
        exact nofun
    · obtain ⟨hno, y, hy, hyb⟩ := hfree r' (List.mem_cons_of_mem _ hr') hw'
      exact ⟨fun i => htaken i ▸ hno i,
        kept_update (P := fun x => x.borrows = 0) (fun _ h => h) hy hyb⟩
  | other hno => exact (hno _ _ _ rfl).elim

/-- The call that runs looks at a retirement and leaves it as it is. -/
theorem ActTally.looked {done todo : List Retirement} {r : Retirement} {after : AfterRetiring}
    (h : ActTally tr s c (.retire done (r :: todo) after)) (htaken : ∀ i, takenBy s' i = takenBy s i)
    (k : ∀ v, Untouched tr tr s s' c v) (hr : after ≠ .count → r.stage ≠ .waiting)
    (hb : ∀ v x, s.handles.get? v = some x → x.borrows = 0 →
      ∃ y, s'.handles.get? v = some y ∧ y.borrows = 0) :
    ActTally tr s' c (.retire (done ++ [r]) todo after) := by
  cases h with
  | counting hmine hall =>
    refine .counting ?_ fun r' hr' => ?_
    · rw [htaken, hmine, List.append_assoc, List.singleton_append]
    · rw [List.append_assoc, List.singleton_append] at hr'
      exact (hall r' hr').mono (k r'.handle)
  | retiring hafter hnone hdone hfree =>
    refine .retiring hafter ((htaken c).trans hnone) (fun r' hr' => ?_) fun r' hr' hw' => ?_
    · rcases List.mem_append.1 hr' with hr' | hr'
      · exact hdone r' hr'
      · cases List.mem_singleton.1 hr'
        exact hr hafter
    · obtain ⟨hno, y, hy, hyb⟩ := hfree r' (List.mem_cons_of_mem _ hr') hw'
      exact ⟨fun i => htaken i ▸ hno i, hb _ y hy hyb⟩
  | other hno => exact (hno _ _ _ rfl).elim

/-- A turn of a call that looks at a handle that it retires. -/
theorem Tallied.turn_look {done todo : List Retirement} {r : Retirement} {after : AfterRetiring}
    {next : Option Act} (hs : Sound owner s (some (c, .retire done (r :: todo) after)))
    (T : Tallied tr s (some (c, .retire done (r :: todo) after)))
    (ht : Turn c s (.retire done (r :: todo) after) s' next) :
    Tallied tr s' (next.map fun a => (c, a)) := by
  have hact := T.act c _ rfl
  have hpasses := T.passes hs ht
  obtain ⟨es, he, hdrained, -⟩ := ht.closes
  have htaken := takenBy_keep he hdrained
  cases ht with
  | skip hskip =>
    refine hpasses (fun h => (Option.some_ne_none _ h).elim) fun a' ha' => ?_
    cases ha'
    refine hact.looked (fun _ => rfl) (fun v => untouched_same rfl fun _ h => h) (fun hafter hw => ?_)
      fun v x hx hb => ⟨x, hx, hb⟩
    cases hact with
    | counting => exact hafter rfl
    | retiring _ _ _ hfree =>
      obtain ⟨-, x, hx, -⟩ := hfree r List.mem_cons_self hw
      rcases hskip with hst | hnone
      · exact hst hw
      · exact nomatch hx.symm.trans hnone
    | other hno => exact hno _ _ _ rfl
  | elsewhere hw hx _ hcl =>
    refine hpasses (fun h => (Option.some_ne_none _ h).elim) fun a' ha' => ?_
    cases ha'
    cases hact with
    | counting _ hall =>
      -- Nobody closes a handle that a reset took and is to close yet.
      obtain ⟨y, hy, hycl⟩ :=
        (hall r (List.mem_append_right _ List.mem_cons_self)).unclosed hw
      cases hx.symm.trans hy
      exact nomatch hcl.symm.trans hycl
    | retiring hafter hnone hdone hfree =>
      refine .retiring hafter hnone (fun r' hr' => ?_) fun r' hr' =>
        hfree r' (List.mem_cons_of_mem _ hr')
      rcases List.mem_append.1 hr' with hr' | hr'
      · exact hdone r' hr'
      · cases List.mem_singleton.1 hr'
        exact nofun
    | other hno => exact (hno _ _ _ rfl).elim
  | close hw hx hb hcl => exact T.turn_close hs hw hx hb hcl
  | park hw hx hb =>
    refine hpasses (fun h => (Option.some_ne_none _ h).elim) fun a' ha' => ?_
    cases ha'
    refine hact.looked htaken (fun v => ?_) (fun hafter hw => ?_) fun v y hy hyb => ?_
    · exact ⟨fun y hy hcl => kept_update (P := fun x => x.closed = false)
        (fun x => (park_frame x c).2.trans) hy hcl, fun t hm => asked_mono he hm,
        fun _ _ h => h, fun _ => Iff.rfl⟩
    · cases hact with
      | counting => exact hafter rfl
      | retiring _ _ _ hfree =>
        obtain ⟨-, y, hy, hyb⟩ := hfree r List.mem_cons_self hw
        cases hx.symm.trans hy
        exact hb hyb
      | other hno => exact hno _ _ _ rfl
    · exact kept_update (P := fun x => x.borrows = 0) (fun x => (park_frame x c).1.trans) hy hyb

/-- A turn of a call that has looked at all handles that it retires. -/
theorem Tallied.turn_looked {done : List Retirement} {after : AfterRetiring} {next : Option Act}
    (hs : Sound owner s (some (c, .retire done [] after)))
    (T : Tallied tr s (some (c, .retire done [] after)))
    (ht : Turn c s (.retire done [] after) s' next) : Tallied tr s' (next.map fun a => (c, a)) := by
  have hact := T.act c _ rfl
  have hpasses := T.passes hs ht
  obtain ⟨es, he, hdrained, -⟩ := ht.closes
  have htaken := takenBy_keep he hdrained
  have hgot : ∀ {p p' : Progress}, (s.calls.update c fun _ => p').get? c = some p → p = p' := by
    intro p p' hp
    rcases Registry.get?_update_const hp with ⟨-, h⟩ | ⟨h, -⟩
    · exact h
    · exact (h rfl).elim
  cases ht with
  | goOn =>
    refine hpasses (fun h => (Option.some_ne_none _ h).elim) fun a' ha' => ?_
    cases ha'
    cases hact with
    | retiring _ hnone => exact .other (fun _ _ _ => nofun) hnone
    | other hno => exact (hno _ _ _ rfl).elim
  | fail =>
    refine hpasses (fun _ p hp => ?_) fun _ h => (Option.some_ne_none _ h.symm).elim
    obtain rfl := hgot hp
    cases hact with
    | retiring _ hnone => exact .other (fun _ _ => nofun) (fun _ => nofun) ((htaken c).trans hnone)
    | other hno => exact (hno _ _ _ rfl).elim
  | count hover =>
    refine hpasses (fun _ p hp => ?_) fun _ h => (Option.some_ne_none _ h.symm).elim
    obtain rfl := hgot hp
    cases hact with
    | counting hmine hall =>
      rw [List.append_nil] at hmine hall
      exact (Tally.of_over hmine hall hover).mono (htaken c) fun v _ =>
        untouched_same rfl fun _ => asked_mono he
    | retiring hno => exact (hno rfl).elim
    | other hno => exact (hno _ _ _ rfl).elim
  | wait =>
    refine hpasses (fun _ p hp => ?_) fun _ h => (Option.some_ne_none _ h.symm).elim
    obtain rfl := hgot hp
    cases hact with
    | counting hmine hall =>
      rw [List.append_nil] at hmine hall
      exact .counting hmine fun r hr => (hall r hr).mono (untouched_same rfl fun _ h => h)
    | retiring hafter hnone hdone => exact .retiring hafter hnone hdone
    | other hno => exact (hno _ _ _ rfl).elim

theorem Tallied.turn {a : Act} {next : Option Act} (hs : Sound owner s (some (c, a)))
    (f : Fated s (some (c, a))) (T : Tallied tr s (some (c, a))) (ht : Turn c s a s' next) :
    Tallied tr s' (next.map fun a => (c, a)) := by
  cases a with
  | retire done todo after =>
    cases todo with
    | nil => exact T.turn_looked hs ht
    | cons r todo => exact T.turn_look hs ht
  | look | give | grant | place => exact T.turn_other hs f ht fun _ _ _ => nofun

/-! ## 5. Beginnings -/

/-- A point that a call gets to at the beginning of a step is none at which it retires handles, or has
counted them. -/
theorem Begins.plain {p : Progress} (hb : Begins s l s' run) (hp : s'.calls.get? i = some p) :
    s.calls.get? i = some p ∨ ((∀ rs next, p ≠ .retiring rs next) ∧ ∀ n, p ≠ .ended (.closed n)) := by
  have hgo : ∀ {r : Registry Progress} {c : CallId} {p' : Progress},
      (r.update c fun _ => p').get? i = some p →
      (∀ rs next, p' ≠ .retiring rs next) ∧ (∀ n, p' ≠ .ended (.closed n)) →
      r.get? i = some p ∨ ((∀ rs next, p ≠ .retiring rs next) ∧ ∀ n, p ≠ .ended (.closed n)) := by
    intro r c p' h hp'
    rcases Registry.get?_update_const h with ⟨-, rfl⟩ | ⟨-, h⟩
    · exact .inr hp'
    · exact .inl h
  have hadd : ∀ {p' : Progress}, (s.calls.add p').get? i = some p →
      (∀ rs next, p' ≠ .retiring rs next) ∧ (∀ n, p' ≠ .ended (.closed n)) →
      s.calls.get? i = some p ∨ ((∀ rs next, p ≠ .retiring rs next) ∧ ∀ n, p ≠ .ended (.closed n)) := by
    intro p' h hp'
    rw [Registry.get?_add] at h
    split at h
    · cases h
      exact .inr hp'
    · exact .inl h
  cases hb with
  | call => exact hadd hp ⟨fun _ _ => nofun, fun _ => nofun⟩
  | refuse | await | dispatch | create | failed | rejected | completed =>
    exact hgo hp ⟨fun _ _ => nofun, fun _ => nofun⟩
  | @settled _ _ _ r => exact hgo hp (by cases r <;> exact ⟨fun _ _ => nofun, fun _ => nofun⟩)
  | @receipt _ _ v r => exact hgo hp (by cases s.outcomeOf v r <;> exact ⟨fun _ _ => nofun, fun _ => nofun⟩)
  | accepted =>
    rcases hgo hp ⟨fun _ _ => nofun, fun _ => nofun⟩ with hp | hplain
    · exact hadd hp ⟨fun _ _ => nofun, fun _ => nofun⟩
    · exact .inr hplain
  | @stop c _ _ final s₁ hl _ hs =>
    have hp : (s₁.calls.update c fun _ => final).get? i = some p := hp
    rw [LetsGo.calls_eq hs] at hp
    rcases hl with ⟨-, rfl⟩ | ⟨-, rfl⟩ <;> exact hgo hp ⟨fun _ _ => nofun, fun _ => nofun⟩
  | _ => exact .inl hp

/-- The beginning of a step leaves a reset at its work. -/
theorem Begins.counting {rs : List Retirement} (hb : Begins s l s' run) (hu : Undisturbed s l)
    (hi : s.calls.get? i = some (.retiring rs .count)) :
    s'.calls.get? i = some (.retiring rs .count) := by
  by_cases hact : l.actor? = some i
  · cases hb with
    | retire | closed => exact hi
    | stop hl =>
      rcases hl with ⟨rfl, -⟩ | ⟨rfl, -⟩ <;> cases hact <;> exact (hu rs hi).elim
    | call | leased | denied | released => cases hact
    | want hc | refuse hc | drain hc | await hc | dispatch hc | filled hc | create hc
    | settled hc | created hc | failed hc | receipt hc | rejected hc | accepted hc | completed hc =>
      cases hact
      cases hi.symm.trans hc
  · exact hb.others hact hi

/-- A call that gets to a point at the beginning of a step has taken nothing. -/
theorem Tallied.untaken {p : Progress} (T : Tallied tr s none) (hu : Undisturbed s l)
    (hb : Begins s l s' run) (hp : s'.calls.get? i = some p)
    (hplain : (∀ rs next, p ≠ .retiring rs next) ∧ ∀ n, p ≠ .ended (.closed n)) :
    takenBy s i = [] := by
  cases hi : s.calls.get? i with
  | none => exact T.idle i hi
  | some p₀ =>
    cases T.calls i p₀ hi nobody_runs with
    | counting => exact (hplain.1 _ _ (Option.some.inj (hp.symm.trans (hb.counting hu hi)))).elim
    | returned => exact (hplain.2 _ (Option.some.inj (hp.symm.trans (hb.over hi rfl)))).elim
    | retiring _ hnone => exact hnone
    | other _ _ hnone => exact hnone

/-- A producer of whose closing the wire client told says that it is closed. -/
theorem Tallied.told_closed (b : Balanced s none) (T : Tallied tr s none) (hb : Begins s l s' run)
    (hm : (v, q) ∈ closings ((l, s) :: tr)) : ∃ y, s'.handles.get? v = some y ∧ y.closed = true := by
  have hx : ∃ x, s.handles.get? v = some x ∧ x.closed = true := by
    rcases (closings_cons _ _).1 hm with hm | hm
    · obtain ⟨c, t, r, -, hasked, -⟩ := mem_closingsAt.1 hm
      exact closed_of_asked b hasked
    · exact T.closed v q hm
  obtain ⟨x, hx, hcl⟩ := hx
  obtain ⟨y, hy, hxy⟩ := hb.later v x hx
  exact ⟨y, hy, hxy.closed hcl⟩

/-- What the beginning of a step leaves of the tally that takes nothing out of the map, but for the call
that runs. -/
theorem Tallied.begun (b : Balanced s none) (T : Tallied tr s none) (hu : Undisturbed s l)
    (hshut : ∀ c, s.calls.get? c ≠ some (.fresh .shutdown)) (hb : Begins s l s' run)
    (htaken : ∀ i, takenBy s' i = takenBy s i)
    (hact : ∀ c a, run = some (c, a) → ActTally ((l, s) :: tr) s' c a) :
    Tallied ((l, s) :: tr) s' run := by
  obtain ⟨es, he, hcloses, -⟩ := hb.closes
  exact {
    unclosed := by
      rcases hb.closed_or with h | ⟨-, c, hc⟩
      · exact h.trans T.unclosed
      · exact (hshut c hc).elim
    nodup := fun i => htaken i ▸ T.nodup i
    taker := by
      intro j i v hj hi
      rw [htaken] at hj hi
      exact T.taker j i v hj hi
    closer := by
      intro j i t v hm hv
      rw [htaken] at hv
      have hm : Event.asked i t (.close v) ∈ s.deeds ++ es := he ▸ mem_deeds.2 ⟨hm, rfl⟩
      rcases List.mem_append.1 hm with hm | hm
      · exact T.closer j i t v (mem_deeds.1 hm).1 hv
      · exact (hcloses i t v hm).elim
    closed := fun v q hm => T.told_closed b hb hm
    idle := by
      intro i hnone
      refine (htaken i).trans (T.idle i ?_)
      rw [Registry.get?_eq_none_iff] at hnone ⊢
      exact Nat.le_trans hb.calls_size hnone
    calls := by
      intro i p hp hrun
      rcases hb.plain hp with hp₀ | hplain
      · exact (T.calls i p hp₀ nobody_runs).mono (htaken i) fun v hv =>
          T.untouched_begin hb hrun hv
      · exact .other hplain.1 hplain.2 ((htaken i).trans (T.untaken hu hb hp hplain))
    act := hact }

/-- A reset takes all handles out of the map. They were in use, so no reset had taken them. -/
theorem Tallied.drain {taken : Cache × List HandleId} (hs : Sound owner s none) (b : Balanced s none)
    (f : Fated s none) (T : Tallied tr s none) (hc : s.calls.get? c = some (.fresh .reset))
    (htaken : taken = s.cache.take) :
    Tallied ((.resume c, s) :: tr)
      ({ s with cache := taken.1, handles := stopAll s.handles taken.2 }.note (.drained c taken.2))
      (some (c, .retire [] (taken.2.map fun h => { handle := h }) .count)) := by
  have hb : Begins s (.resume c) _ _ := .drain hc (.inl ⟨rfl, htaken⟩)
  have hhandles : taken.2 = s.cache.handles := by rw [htaken]; rfl
  generalize hs' : ({ s with cache := taken.1, handles := stopAll s.handles taken.2 }.note
    (.drained c taken.2)) = s' at hb ⊢
  have he : s'.deeds = s.deeds ++ [.drained c taken.2] := by
    rw [← hs']
    simp
  have hcalls : s'.calls = s.calls := by rw [← hs']; rfl
  have hadd : ∀ i, takenBy s' i = takenBy s i ++ if i = c then taken.2 else [] := by
    intro i
    rw [takenBy_append he, List.flatMap_singleton]
    by_cases hi : i = c
    · simp [Event.takenBy, hi]
    · simp [Event.takenBy, hi, Ne.symm hi]
  have hother : ∀ i, i ≠ c → takenBy s' i = takenBy s i := fun i hi => by
    rw [hadd, if_neg hi, List.append_nil]
  have hmine : takenBy s' c = taken.2 := by
    rw [hadd, if_pos rfl]
    cases T.calls c _ hc nobody_runs with
    | other _ _ hnone => rw [hnone, List.nil_append]
  have hfresh : ∀ v ∈ taken.2, ∃ x, s.handles.get? v = some x ∧ x.closed = false ∧
      ∀ i, v ∉ takenBy s i := fun v hv => Fated.of_mapped f hs (hhandles ▸ hv)
  have hold : ∀ i, i ≠ c → ∀ v ∈ takenBy s' i, v ∈ takenBy s i ∧ v ∉ taken.2 := by
    intro i hi v hv
    rw [hother i hi] at hv
    refine ⟨hv, fun hm => ?_⟩
    obtain ⟨_, -, -, hno⟩ := hfresh v hm
    exact hno i hv
  exact {
    unclosed := by
      rw [← hs', htaken]
      exact T.unclosed
    nodup := by
      intro i
      by_cases hi : i = c
      · rw [hi, hmine, hhandles]
        exact Sound.nodup_handles hs
      · rw [hother i hi]
        exact T.nodup i
    taker := by
      intro j i v hj hi
      by_cases hjc : j = c
      · subst hjc
        refine Decidable.byContradiction fun hij => ?_
        exact (hold i hij v hi).2 (hmine ▸ hj)
      · obtain ⟨hj, hout⟩ := hold j hjc v hj
        by_cases hic : i = c
        · subst hic
          exact (hout (hmine ▸ hi)).elim
        · exact T.taker j i v hj (hold i hic v hi).1
    closer := by
      intro j i t v hm hv
      have hasked : Event.asked i t (.close v) ∈ s.events := by
        have hm : Event.asked i t (.close v) ∈ s.deeds ++ [.drained c taken.2] :=
          he ▸ mem_deeds.2 ⟨hm, rfl⟩
        rcases List.mem_append.1 hm with hm | hm
        · exact (mem_deeds.1 hm).1
        · cases List.mem_singleton.1 hm
      by_cases hjc : j = c
      · -- What is taken now is unclosed.
        subst hjc
        rw [hmine] at hv
        obtain ⟨x, hx, hcl, -⟩ := hfresh v hv
        obtain ⟨y, hy, hycl⟩ := closed_of_asked b hasked
        cases hx.symm.trans hy
        exact nomatch hcl.symm.trans hycl
      · exact T.closer j i t v hasked (hold j hjc v hv).1
    closed := fun v q hm => T.told_closed b hb hm
    idle := by
      intro i hnone
      have hi : i ≠ c := by
        rintro rfl
        rw [hcalls] at hnone
        cases hnone.symm.trans hc
      exact (hother i hi).trans (T.idle i (hcalls ▸ hnone))
    calls := by
      intro i p hp hrun
      have hi : i ≠ c := by
        rintro rfl
        exact hrun _ rfl
      exact (T.calls i p (hcalls ▸ hp) nobody_runs).mono (hother i hi) fun v hv =>
        T.untouched_begin hb hrun hv
    act := by
      intro i a ha
      cases ha
      refine .counting ?_ fun r hr => ?_
      · rw [hmine, List.nil_append, List.map_map]
        exact (List.map_id _).symm
      · obtain ⟨v, hv, rfl⟩ := List.mem_map.1 hr
        obtain ⟨x, hx, hcl, -⟩ := hfresh v hv
        obtain ⟨y, hy, hycl⟩ := hb.unclosed hx hcl
        exact .waiting hy hycl }

/-- The wire client answers a call that retires handles: the closing under that ticket is over. -/
theorem Tallied.answered {t : Ticket} {rs : List Retirement} {next : AfterRetiring}
    {r : Except ClientError Unit} (T : Tallied tr s none)
    (huniq : ∀ {v v'}, .asked c t (.close v) ∈ s.events → .asked c t (.close v') ∈ s.events → v = v')
    (hc : s.calls.get? c = some (.retiring rs next)) (ht : ∃ x ∈ rs, x.stage = .closing t)
    (hb : Begins s (.answer c t (.closed r)) s (some (c, .retire [] (rs.map (closeOver t r)) next))) :
    ActTally ((.answer c t (.closed r), s) :: tr) s c (.retire [] (rs.map (closeOver t r)) next) := by
  cases T.calls c _ hc nobody_runs with
  | retiring hnext hnone hall =>
    refine .retiring hnext hnone (fun _ => nofun) fun x hx hw => ?_
    obtain ⟨y, hy, rfl⟩ := List.mem_map.1 hx
    exact (closeOver_stage _ _ (hall y hy) hw).elim
  | counting hmine hall =>
    have hnodup : (rs.map Retirement.handle).Nodup := hmine ▸ T.nodup c
    obtain ⟨z, hz, hzt⟩ := ht
    have hzasked : .asked c t (.close z.handle) ∈ s.events := by
      cases hall z hz with
      | waiting | finished => cases hzt
      | closing hasked =>
        cases hzt
        exact hasked
    refine .counting ?_ fun x hx => ?_
    · rw [hmine, List.nil_append, List.map_map]
      exact List.map_congr_left fun x _ => (closeOver_handle _ _ x).symm
    · obtain ⟨y, hy, rfl⟩ := List.mem_map.1 hx
      by_cases hyt : y.stage = .closing t
      · have heq : closeOver t r y = { y with stage := .finished (closingOf r) } := if_pos hyt
        rw [heq]
        cases hall y hy with
        | waiting | finished => cases hyt
        | closing hasked hno =>
          cases hyt
          refine .finished ⟨t, r, hasked, ⟨s, List.mem_cons_self⟩, rfl, fun q => ?_⟩
          rw [closings_cons, mem_closingsAt_answer]
          exact ⟨fun h => (h.resolve_right (hno q)).2, fun h => .inl ⟨hasked, h⟩⟩
      · -- What the client tells is of the closing under its ticket, and of no other handle.
        have heq : closeOver t r y = y := if_neg hyt
        rw [heq]
        refine (hall y hy).mono (hb.untouched (fun q hq => ?_) tr c)
        have hyz := List.inj_on_of_nodup_map hnodup hy hz
          (huniq (mem_closingsAt_answer.1 hq).1 hzasked)
        exact hyt (hyz ▸ hzt)
  | other hno => exact (hno _ _ rfl).elim

theorem Tallied.begins (h : Run PublicOnly tr s) (hs : Sound owner s none) (b : Balanced s none)
    (f : Fated s none) (T : Tallied tr s none) (hu : Undisturbed s l)
    (hshut : ∀ c, s.calls.get? c ≠ some (.fresh .shutdown)) (hb : Begins s l s' run) :
    Tallied ((l, s) :: tr) s' run := by
  have hbegun := T.begun b hu hshut hb
  obtain ⟨es, he, -, hdrained⟩ := hb.closes
  have htaken : (∀ c todo, run ≠ some (c, .retire [] todo .count)) →
      ∀ i, takenBy s' i = takenBy s i := by
    intro hrun
    rcases hdrained with hno | ⟨c, _, -, -, -, -, hr⟩
    · exact takenBy_keep he hno
    · exact (hrun c _ hr).elim
  -- A call that has not come to retire handles has taken nothing.
  have hidle : ∀ {c : CallId} {p : Progress}, s.calls.get? c = some p →
      (∀ rs next, p ≠ .retiring rs next) → (∀ n, p ≠ .ended (.closed n)) → takenBy s c = [] := by
    intro c p hc hno hno'
    cases T.calls c p hc nobody_runs with
    | counting | retiring => exact (hno _ _ rfl).elim
    | returned => exact (hno' _ rfl).elim
    | other _ _ hnone => exact hnone
  have hnone : run = none → Tallied ((l, s) :: tr) s' run := by
    rintro rfl
    exact hbegun (htaken fun _ _ => nofun) fun _ _ => nofun
  have hother : ∀ {c : CallId} {a : Act} {p : Progress}, run = some (c, a) →
      (∀ done todo next, a ≠ .retire done todo next) → s.calls.get? c = some p →
      (∀ rs next, p ≠ .retiring rs next) → (∀ n, p ≠ .ended (.closed n)) →
      Tallied ((l, s) :: tr) s' run := by
    intro c a p hrun ha hc hno hno'
    have hkeep := htaken fun c' todo h =>
      ha _ _ _ (congrArg Prod.snd (Option.some.inj (hrun.symm.trans h)))
    refine hbegun hkeep fun i b hb => ?_
    cases hrun.symm.trans hb
    exact .other ha ((hkeep c).trans (hidle hc hno hno'))
  cases hb with
  | drain hc hor =>
    rcases hor with ⟨rfl, rfl⟩ | ⟨rfl, -⟩
    · exact T.drain hs b f hc rfl
    · exact (hshut _ hc).elim
  | want hc | filled hc | created hc =>
    exact hother rfl (fun _ _ _ => nofun) hc (fun _ _ => nofun) fun _ => nofun
  | @retire c rs next hc =>
    have hb : Begins s (.resume c) s _ := .retire hc
    refine hbegun (fun _ => rfl) fun i a ha => ?_
    cases ha
    cases T.calls c _ hc nobody_runs with
    | counting hmine hall =>
      refine .counting ?_ fun r hr => ?_
      · exact hmine
      · exact (hall r hr).mono (hb.untouched (fun _ => nofun) tr c)
    | retiring hnext hnone hall =>
      exact .retiring hnext hnone (fun _ => nofun) fun r hr hw => (hall r hr hw).elim
    | other hno => exact (hno _ _ rfl).elim
  | @closed c t rs next r hc ht =>
    have hb : Begins s (.answer c t (.closed r)) s _ := .closed hc ht
    refine hbegun (fun _ => rfl) fun i a ha => ?_
    cases ha
    refine T.answered (fun hm hm' => ?_) hc ht hb
    cases (h.ticket_unique hm hm').2
    rfl
  | _ => exact hnone rfl

theorem tallied_new : Tallied [] new none where
  unclosed := rfl
  nodup _ := List.nodup_nil
  taker _ _ _ hm := by cases hm
  closer _ _ _ _ hm := by cases hm
  closed _ _ hm := by cases hm
  idle _ _ := rfl
  calls i p hp := by simp [new] at hp
  act _ _ hrun := by cases hrun

/-! ## 6. Runs -/

theorem Undisturbed.publicOnly (h : Undisturbed s l) : PublicOnly s l := by
  cases l with
  | call => exact h
  | _ => trivial

theorem Run.public (h : Run Unshut tr s) : Run PublicOnly tr s :=
  h.mono fun _ _ hl => hl.1.publicOnly

/-- Nobody was asked to shut the factory down. -/
theorem Run.unmade (h : Run Unshut tr s) (c : CallId) : ¬ Made tr c .shutdown := by
  rintro ⟨s₀, hm, -⟩
  exact (h.ok_of_mem hm).2 rfl

theorem Run.no_shutdown (h : Run Unshut tr s) (c : CallId) :
    s.calls.get? c ≠ some (.fresh .shutdown) := by
  intro hc
  cases h.public.orderly.storied.story c _ hc nobody_runs with
  | fresh _ hmade => exact h.unmade c hmade

/-- In every run without a shutdown in which no reset is ended at its work, the tally is right. -/
theorem Run.tallied (h : Run Unshut tr s) : Tallied tr s none := by
  have hall : (∃ owner, Sound owner s none) ∧ Balanced s none ∧ Fated s none ∧ Tallied tr s none := by
    refine h.induct (I := fun tr s run => (∃ owner, Sound owner s run) ∧ Balanced s run ∧
      Fated s run ∧ Tallied tr s run) ⟨⟨_, sound_new⟩, balanced_new, fated_new, tallied_new⟩ ?_ ?_
    · rintro tr s s₁ l run hrun hl ⟨⟨owner, hs⟩, b, f, T⟩ hb
      refine ⟨⟨owner, hs.begins hb⟩, b.begins (fun r hr => ?_) hb, f.begins hs hl.1 hb,
        T.begins hrun.public hs b f hl.1 hrun.no_shutdown hb⟩
      subst hr
      exact hl.1
    · rintro tr s s₁ s₂ l c a next - - ⟨⟨owner, hs⟩, b, f, T⟩ ht
      exact ⟨hs.turn ht, b.turn hs ht, f.turn hs b ht, T.turn hs f ht⟩
  exact hall.2.2.2

end

end Factory

end TopicPublisher
