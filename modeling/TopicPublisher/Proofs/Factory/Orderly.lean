import TopicPublisher.Proofs.Factory.InUse
import TopicPublisher.Proofs.Factory.Storied

/-!
# Runs with requests of callers only

What is known of every moment of a run in which callers make requests of their own, in one place, and
the induction over such runs with all of it at hand. Beyond that such runs may go any way: calls may be
aborted at every point, and the wire client may fail or crash.

Results:
1. `Turn.others`, `Begins.others`: a moment changes one call; a call that is over stays as it is.
2. `Turn.moves`, `Begins.moves`: how each call came to its point.
3. `Storied.ends_want`: what the end of a call says of what it did.
4. `Turn.writes`, `Begins.writes`: a moment makes one request to the wire client at most, and producers
   are opened in two places only.
5. `Run.induct_orderly`, `Run.orderly`: the induction.
6. `Run.numbered`: every request to the wire client has a ticket of its own.
7. `Run.begun`: only calls that have begun make requests.
8. `Run.lasts`: what is known of a call that is over and of a promise that is settled stays known.
-/

namespace TopicPublisher

/-- The ticket of a request to the wire client. -/
def Event.ticket? : Event → Option Ticket
  | .asked _ t _ => some t
  | _ => none

namespace Factory

/-! ## Definitions -/

/-- Callers make requests of their own. -/
def PublicOnly (_ : Factory) : Label → Prop
  | .call r => r.IsPublic
  | _ => True

/-- What is known of every moment. -/
structure Orderly (tr : List (Label × Factory)) (s : Factory) (run : Option (CallId × Act)) : Prop where
  sound : ∃ owner, Sound owner s run
  balanced : Balanced s run
  inUse : InUse s run
  storied : Storied tr s run

/-- What is added to the entries about producers has the next ticket, or none. -/
def Numbers (s s' : Factory) (es : List Event) : Prop :=
  (es.filterMap Event.ticket? = [] ∧ s'.tickets = s.tickets) ∨
    (es.filterMap Event.ticket? = [s.tickets] ∧ s'.tickets = s.tickets + 1)

/-- What is known in one state and stays known in another. -/
structure Lasts (s s' : Factory) : Prop where
  asked : ∀ {i u d}, .asked i u d ∈ s.events → .asked i u d ∈ s'.events
  ended : ∀ {i q}, s.calls.get? i = some q → Progress.isOver q = true → s'.calls.get? i = some q
  known : ∀ {p q}, s.pending.get? p = some q → q.state ≠ .unknown →
    ∃ q', s'.pending.get? p = some q' ∧ q'.state = q.state ∧ q'.topic = q.topic

/-- What a call can end with at a turn from `s` to `s'`. -/
inductive Yields (s s' : Factory) : Act → Outcome → Prop
  | handle {w : Want} {v : HandleId} : w.purpose = .peek ∨ w.purpose = .open →
      Yields s s' (.grant w v) (.handle v)
  | lease {w : Want} {v : HandleId} : w.purpose = .lease →
      s'.leases = s.leases.add { handle := v } → Yields s s' (.grant w v) (.lease s.leases.size)
  | promised {w : Want} {v : HandleId} {m : MessageSpec} : w.purpose = .send m .promised →
      Yields s s' (.grant w v) (.promised s.pending.size)
  | refused {w : Want} : s.cache.closed = true → Yields s s' (.look w) (.failed .factoryClosed)
  | failed {done : List Retirement} : Yields s s' (.retire done [] .refuse) (.failed .factoryClosed)
  | closed {done : List Retirement} {n : Nat} : Yields s s' (.retire done [] .count) (.closed n)

/-- A point at which the call that runs waits, or ends, after its last turn. -/
inductive Reaches (s s' : Factory) : Act → Progress → Prop
  | spinning {a : Act} : Reaches s s' a .spinning
  | queued {w : Want} {k : CellId} : s.cache.closed = false → s'.cache.current? w.topic = some k →
      Reaches s s' (.look w) (.queued w k)
  | creating {w : Want} {k : CellId} : s.cache.closed = false → s'.cache.current? w.topic = some k →
      Reaches s s' (.look w) (.creating w k s.tickets)
  | sending {w : Want} {v : HandleId} : Reaches s s' (.grant w v) (.sending v s.tickets)
  | enqueuing {w : Want} {v : HandleId} : Reaches s s' (.grant w v) (.enqueuing v s.tickets)
  | retiring {done : List Retirement} {after : AfterRetiring} :
      Reaches s s' (.retire done [] after) (.retiring done after)
  | ended {a : Act} {o : Outcome} : Yields s s' a o → Reaches s s' a (.ended o)

/-- How call `i` came to a point after a turn of call `c`. -/
inductive Moves (s s' : Factory) (c i : CallId) (a : Act) (next : Option Act) (q : Progress) : Prop
  | stays : s.calls.get? i = some q → (i = c → next ≠ none) → Moves s s' c i a next q
  | gets : i = c → next = none → Reaches s s' a q → Moves s s' c i a next q
  /-- It is begun to dispatch a message through a sequential producer. -/
  | begun {w : Want} {v : HandleId} {m : MessageSpec} {x : Handle} : i = s.calls.size →
      a = .grant w v → q = .fresh (.dispatch v m s.pending.size) → s.handles.get? v = some x →
      x.mode = .sequential → Moves s s' c i a next q

/-- A point that call `i` can get to at the beginning of a step. -/
inductive Enters (s : Factory) (l : Label) (i : CallId) : Progress → Prop
  | fresh {r : Request} : l = .call r → i = s.calls.size → Enters s l i (.fresh r)
  | awaiting {p : PendingId} : Enters s l i (.awaiting p)
  | completing {v : HandleId} {t : Ticket} {p : PendingId} : Enters s l i (.completing v t p)
  | creating {w : Want} {k : CellId} : s.calls.get? i = some (.queued w k) → s.cache.HasTurn i k →
      Enters s l i (.creating w k s.tickets)
  | ended {o : Outcome} : (∀ v, o ≠ .handle v) → (∀ n, o ≠ .lease n) → Enters s l i (.ended o)
  | aborted : Enters s l i .aborted
  | crashed : Enters s l i .crashed

open SoundLemmas StoryLemmas

section

variable {tr : List (Label × Factory)} {s s' : Factory} {c i : CallId} {l : Label} {q : Progress}
  {run : Option (CallId × Act)} {owner : CellId → String}

/-! ## 1. The other calls -/

theorem get?_goTo {calls : Registry Progress} {p : Progress} (hq : calls.get? c = some q) :
    (calls.update c fun _ => p).get? c = some p := by
  rw [Registry.get?_update, if_pos rfl, hq]
  rfl

theorem idle_of_ne {next : Option Act} (hi : i ≠ c) (a : Act) :
    (next.map fun a => (c, a)) ≠ some (i, a) := by
  intro h
  obtain ⟨a', -, he⟩ := Option.map_eq_some_iff.1 h
  cases he
  exact hi rfl

theorem Turn.others {a : Act} {next : Option Act} (ht : Turn c s a s' next) (hi : i ≠ c)
    (hq : s.calls.get? i = some q) : s'.calls.get? i = some q := by
  cases ht with
  | promise => exact calls_start_goTo i q hi hq
  | refused | spin | create | queue | handle | denied | lease | send | enqueue | fail | count | wait =>
    exact calls_goTo i q hi hq
  | _ => exact hq

theorem LetsGo.calls_eq {p : Progress} (hs : LetsGo s c p s') : s'.calls = s.calls := by
  cases hs <;> rfl

theorem Begins.others (hb : Begins s l s' run) (hi : l.actor? ≠ some i)
    (hq : s.calls.get? i = some q) : s'.calls.get? i = some q := by
  have hne : ∀ c, l.actor? = some c → i ≠ c := by
    rintro c hc rfl
    exact hi hc
  cases hb with
  | call => exact calls_start hq
  | accepted => exact calls_start_goTo i q (hne _ rfl) hq
  | refuse | await | dispatch | create | settled | failed | receipt | rejected | completed =>
    exact calls_goTo i q (hne _ rfl) hq
  | @stop c _ _ final s₁ hl _ hs =>
    have hc : i ≠ c := by rcases hl with ⟨rfl, -⟩ | ⟨rfl, -⟩ <;> exact hne c rfl
    show (s₁.calls.update c fun _ => final).get? i = some q
    rw [LetsGo.calls_eq hs]
    exact calls_goTo i q hc hq
  | _ => exact hq

theorem Begins.active (hb : Begins s l s' run) (hi : l.actor? = some i) :
    ∃ p, s.calls.get? i = some p ∧ Progress.isOver p = false := by
  cases hb with
  | stop hl hc hs =>
    rcases hl with ⟨rfl, -⟩ | ⟨rfl, -⟩ <;> cases hi <;> exact ⟨_, hc, hs.active⟩
  | call | leased | denied | released => cases hi
  | want hc | refuse hc | drain hc | await hc | dispatch hc | filled hc | create hc | retire hc
  | settled hc | created hc | failed hc | receipt hc | rejected hc | accepted hc | completed hc
  | closed hc =>
    cases hi
    exact ⟨_, hc, rfl⟩

/-- A call that is over stays as it is. -/
theorem Begins.over (hb : Begins s l s' run) (hq : s.calls.get? i = some q)
    (ho : Progress.isOver q = true) : s'.calls.get? i = some q := by
  refine hb.others (fun hi => ?_) hq
  obtain ⟨p, hp, hno⟩ := hb.active hi
  cases hp.symm.trans hq
  exact absurd (ho.symm.trans hno) nofun

theorem Orderly.over {a : Act} {next : Option Act} (o : Orderly tr s (some (c, a)))
    (ht : Turn c s a s' next) (hq : s.calls.get? i = some q) (ho : Progress.isOver q = true) :
    s'.calls.get? i = some q := by
  refine ht.others ?_ hq
  rintro rfl
  obtain ⟨p, hp, hno, -⟩ := (o.storied.act i a rfl).stale
  cases hp.symm.trans hq
  exact absurd (ho.symm.trans hno) nofun

/-- No call is ever forgotten. -/
theorem Turn.calls_size {a : Act} {next : Option Act} (ht : Turn c s a s' next) :
    s.calls.size ≤ s'.calls.size := by
  cases ht with
  | promise =>
    refine Nat.le_trans (Nat.le_succ _) (Nat.le_of_eq ?_)
    exact ((Registry.size_update _ _ _).trans (Registry.size_add _ _)).symm
  | refused | spin | create | queue | handle | denied | lease | send | enqueue | fail | count | wait =>
    exact Nat.le_of_eq (Registry.size_update _ _ _).symm
  | _ => exact Nat.le_refl _

theorem Begins.calls_size (hb : Begins s l s' run) : s.calls.size ≤ s'.calls.size := by
  cases hb with
  | call => exact Nat.le_trans (Nat.le_succ _) (Nat.le_of_eq (Registry.size_add _ _).symm)
  | accepted =>
    refine Nat.le_trans (Nat.le_succ _) (Nat.le_of_eq ?_)
    exact ((Registry.size_update _ _ _).trans (Registry.size_add _ _)).symm
  | refuse | await | dispatch | create | settled | failed | receipt | rejected | completed =>
    exact Nat.le_of_eq (Registry.size_update _ _ _).symm
  | @stop c _ _ final s₁ _ _ hs =>
    show s.calls.size ≤ (s₁.calls.update c fun _ => final).size
    rw [LetsGo.calls_eq hs]
    exact Nat.le_of_eq (Registry.size_update _ _ _).symm
  | _ => exact Nat.le_refl _

theorem size_stopAll (r : Registry Handle) (hs : List HandleId) :
    (stopAll r hs).size = r.size := by
  unfold stopAll
  induction hs generalizing r with
  | nil => rfl
  | cons h hs ih =>
    rw [List.foldl_cons, ih]
    exact Registry.size_update r h Handle.stopLeasing

/-- No turn makes a handle. -/
theorem Turn.handles_size {a : Act} {next : Option Act} (ht : Turn c s a s' next) :
    s'.handles.size = s.handles.size := by
  cases ht with
  | denied | lease | send | enqueue | promise | close | park => exact Registry.size_update _ _ _
  | superseded | shut => exact size_stopAll _ _
  | _ => rfl

/-- A new handle is one for a producer that was opened just now, and its call is about to place it. -/
theorem Begins.handles_size (hb : Begins s l s' run) : s'.handles.size = s.handles.size ∨
    ∃ c u m w k, l = .answer c u (.opened (.ok m)) ∧ run = some (c, .place w k s.handles.size) ∧
      s.calls.get? c = some (.creating w k u) ∧
      s'.handles = s.handles.add { topic := w.topic, mode := m } := by
  cases hb with
  | drain => exact .inl (size_stopAll _ _)
  | created hc => exact .inr ⟨_, _, _, _, _, rfl, rfl, hc, rfl⟩
  | receipt | rejected | completed | leased | denied | released =>
    exact .inl (Registry.size_update _ _ _)
  | stop _ _ hs =>
    cases hs with
    | dispatch | sending | completing => exact .inl (Registry.size_update _ _ _)
    | retiring _ hsize => exact .inl hsize
    | _ => exact .inl rfl
  | _ => exact .inl rfl

/-- A step is run by the call that its label is about. -/
theorem Begins.runs {a : Act} (hb : Begins s l s' (some (c, a))) : l.actor? = some c := by
  cases hb <;> rfl

theorem current?_of_cellFor {a b : Cache} {t : String} {k : CellId} (h : a.CellFor t (b, k)) :
    b.current? t = some k := by
  cases h with
  | found h => exact h
  | added => exact (Cache.current?_addCell a t t {}).trans (if_pos rfl)

theorem Turn.moves {a : Act} {next : Option Act} (hs : Sound owner s (some (c, a)))
    (ht : Turn c s a s' next) (hq : s'.calls.get? i = some q) : Moves s s' c i a next q := by
  have hgo : ∀ {p : Progress}, next = none → (s.calls.update c fun _ => p).get? i = some q →
      Reaches s s' a p → Moves s s' c i a next q := by
    intro p hnext h hp
    rcases Registry.get?_update_const h with ⟨hic, rfl⟩ | ⟨hic, h⟩
    · exact .gets hic.symm hnext hp
    · exact .stays h fun he => (hic he.symm).elim
  cases ht with
  | refused hcl => exact hgo rfl hq (.ended (.refused hcl))
  | create hopen hcell =>
    have hcur := current?_of_cellFor hcell
    exact hgo rfl hq (.creating hopen hcur)
  | queue hopen hcell =>
    have hcur := current?_of_cellFor hcell
    exact hgo rfl hq (.queued hopen hcur)
  | lost hcell hx => exact (Sound.not_lost hs hcell hx).elim
  | handle hp => exact hgo rfl hq (.ended (.handle hp))
  | spin | denied => exact hgo rfl hq .spinning
  | lease hp => exact hgo rfl hq (.ended (.lease hp rfl))
  | send => exact hgo rfl hq .sending
  | enqueue => exact hgo rfl hq .enqueuing
  | promise hp hx _ hmode =>
    rcases Registry.get?_update_const hq with ⟨hic, rfl⟩ | ⟨hic, hq⟩
    · exact .gets hic.symm rfl (.ended (.promised hp))
    · have hq := (Registry.get?_add _ _ _).symm.trans hq
      split at hq
      · next hi => exact .begun hi rfl (Option.some.inj hq).symm hx hmode
      · exact .stays hq fun he => (hic he.symm).elim
  | fail => exact hgo rfl hq (.ended .failed)
  | count => exact hgo rfl hq (.ended .closed)
  | wait => exact hgo rfl hq .retiring
  | _ => exact .stays hq nofun

theorem Begins.moves (hb : Begins s l s' run) (hq : s'.calls.get? i = some q) :
    s.calls.get? i = some q ∨ Enters s l i q := by
  have hgo : ∀ {c : CallId} {p : Progress}, (s.calls.update c fun _ => p).get? i = some q →
      (i = c → Enters s l i p) → s.calls.get? i = some q ∨ Enters s l i q := by
    intro c p h hp
    rcases Registry.get?_update_const h with ⟨hic, rfl⟩ | ⟨-, h⟩
    · exact .inr (hp hic.symm)
    · exact .inl h
  cases hb with
  | call =>
    have hq := (Registry.get?_add _ _ _).symm.trans hq
    split at hq
    · next hi =>
      cases hq
      exact .inr (.fresh rfl hi)
    · exact .inl hq
  | refuse | failed | rejected | completed => exact hgo hq fun _ => .ended nofun nofun
  | await => exact hgo hq fun _ => .awaiting
  | dispatch => exact hgo hq fun _ => .completing
  | @create c w k hc hturn =>
    refine hgo hq fun hic => ?_
    rw [hic]
    exact .creating hc hturn
  | @settled _ _ _ r =>
    exact hgo hq fun _ => .ended (by cases r <;> exact nofun) (by cases r <;> exact nofun)
  | @receipt _ _ v r =>
    refine hgo hq fun _ => ?_
    cases s.outcomeOf v r <;> exact .ended nofun nofun
  | accepted =>
    rcases Registry.get?_update_const hq with ⟨-, rfl⟩ | ⟨-, hq⟩
    · exact .inr (.ended nofun nofun)
    · have hq := (Registry.get?_add _ _ _).symm.trans hq
      split at hq
      · cases hq
        exact .inr .completing
      · exact .inl hq
  | @stop c _ _ final s₁ hl _ hs =>
    have hq : (s₁.calls.update c fun _ => final).get? i = some q := hq
    rw [LetsGo.calls_eq hs] at hq
    refine hgo hq fun _ => ?_
    rcases hl with ⟨-, rfl⟩ | ⟨-, rfl⟩
    · exact .aborted
    · exact .crashed
  | _ => exact .inl hq

/-- The call that runs ends with what its act yields, if it ends. -/
theorem Turn.yields {a : Act} {next : Option Act} {o : Outcome} (hs : Sound owner s (some (c, a)))
    (ht : Turn c s a s' next) (hi : s'.calls.get? i = some (.ended o)) :
    s.calls.get? i = some (.ended o) ∨ (i = c ∧ Yields s s' a o) := by
  cases ht.moves hs hi with
  | stays hi => exact .inl hi
  | gets hic _ hr =>
    cases hr with
    | ended hy => exact .inr ⟨hic, hy⟩
  | begun _ _ he => cases he

/-- A lease stays one on the same handle. -/
theorem Turn.leases {a : Act} {next : Option Act} {n : LeaseId} {y : Lease} (ht : Turn c s a s' next)
    (hy : s.leases.get? n = some y) : s'.leases.get? n = some y := by
  cases ht with
  | lease =>
    refine (Registry.get?_add _ _ _).trans ?_
    rw [if_neg (Nat.ne_of_lt (Registry.lt_size_of_get? hy))]
    exact hy
  | _ => exact hy

theorem Begins.leases {n : LeaseId} {y : Lease} (hb : Begins s l s' run)
    (hy : s.leases.get? n = some y) : ∃ y', s'.leases.get? n = some y' ∧ y'.handle = y.handle := by
  cases hb with
  | leased =>
    refine ⟨y, (Registry.get?_add _ _ _).trans ?_, rfl⟩
    rw [if_neg (Nat.ne_of_lt (Registry.lt_size_of_get? hy))]
    exact hy
  | @released m =>
    show ∃ y', (s.leases.update m fun y => { y with released := true }).get? n = some y' ∧ _
    rw [Registry.get?_update]
    split
    · exact ⟨_, congrArg (Option.map _) hy, rfl⟩
    · exact ⟨y, hy, rfl⟩
  | stop _ _ hs => cases hs <;> exact ⟨y, hy, rfl⟩
  | _ => exact ⟨y, hy, rfl⟩

/-! ## 2. How calls end -/

/-- How a call that was made for a want ended. -/
theorem Storied.ends_want {w : Want} {o : Outcome} (st : Storied tr s none)
    (hmade : Made tr c (.want w)) (hc : s.calls.get? c = some (.ended o)) :
    Ends tr s c (.want w) o := by
  cases st.story c _ hc (fun _ => nofun) with
  | ended hmade' he =>
    cases st.requested.once c _ _ hmade hmade'
    exact he
  | delivered hno => exact (hno _ hmade).elim

theorem Storied.refused {w : Want} (st : Storied tr s none) (hmade : Made tr c (.want w))
    (hc : s.calls.get? c = some (.ended (.failed .factoryClosed))) : handed s c = [] := by
  generalize ho : Outcome.failed .factoryClosed = o at hc
  cases st.ends_want hmade hc with
  | refused _ hnone => exact hnone
  | @receipt _ _ _ _ r => cases r <;> cases ho
  | _ => cases ho

/-- A call that ended with the error of a creation asked for the producer itself. -/
theorem Storied.uncreated {w : Want} {t : String} {e : ClientError} (st : Storied tr s none)
    (hmade : Made tr c (.want w))
    (hc : s.calls.get? c = some (.ended (.failed (.producerCreation t e)))) :
    t = w.topic ∧ handed s c = [] ∧ ∃ u, .asked c u (.openProducer t) ∈ s.events ∧
      Answered tr c u (.opened (.error e)) := by
  generalize ho : Outcome.failed (.producerCreation t e) = o at hc
  cases st.ends_want hmade hc with
  | uncreated hnone hasked ha =>
    cases ho
    exact ⟨rfl, hnone, _, hasked, ha⟩
  | @receipt _ _ _ _ r => cases r <;> cases ho
  | _ => cases ho

theorem Storied.promised {w : Want} {p : PendingId} (st : Storied tr s none)
    (hmade : Made tr c (.want w)) (hc : s.calls.get? c = some (.ended (.promised p))) :
    ∃ m, w.purpose = .send m .promised ∧ Promised tr s c w.topic m p := by
  generalize ho : Outcome.promised p = o at hc
  cases st.ends_want hmade hc with
  | promised hp hpr =>
    cases ho
    exact ⟨_, hp, hpr⟩
  | @receipt _ _ _ _ r => cases r <;> cases ho
  | _ => cases ho

/-- A call that ended with the outcome of a message handed it over. -/
theorem Storied.delivered {w : Want} {r : Except Error MessageId} (st : Storied tr s none)
    (hmade : Made tr c (.want w)) (hc : s.calls.get? c = some (.ended (endOf r)))
    (hr : ∀ e, r = .error e → ∃ t k x, e = .publish t k x) :
    ∃ u v m, handed s c = [(u, .send v m)] := by
  generalize ho : endOf r = o at hc
  cases st.ends_want hmade hc with
  | receipt _ _ hone => exact ⟨_, _, _, hone⟩
  | _ =>
    cases r with
    | ok => cases ho
    | error e =>
      obtain ⟨t, k, x, rfl⟩ := hr e rfl
      cases ho

/-! ## 3. Requests to the wire client -/

namespace OrderlyLemmas

theorem numbers_nil (h : s'.tickets = s.tickets) : Numbers s s' [] := .inl ⟨rfl, h⟩

theorem numbers_asked {d : Demand} (h : s'.tickets = s.tickets + 1) :
    Numbers s s' [.asked c s.tickets d] := .inr ⟨rfl, h⟩

theorem asked_by {d : Demand} :
    ∀ i u d', Event.asked i u d' ∈ [Event.asked c s.tickets d] → i = c := by
  intro i u d' hm
  cases List.mem_singleton.1 hm
  rfl

theorem LetsGo.tickets_eq {p : Progress} (hs : LetsGo s c p s') : s'.tickets = s.tickets := by
  cases hs <;> rfl

end OrderlyLemmas

open OrderlyLemmas

/-- A call asks for a producer of a topic, and waits for it. -/
structure Asks (s s' : Factory) (i : CallId) (u : Ticket) (t : String) : Prop where
  ticket : u = s.tickets
  waits : ∃ w k, w.topic = t ∧ s'.calls = s.calls.update i fun _ => .creating w k u

/-- A turn makes one request at most. A producer is asked for by a look-up that finds the cache open and
no handle of the topic in the map. -/
theorem Turn.writes {a : Act} {next : Option Act} (hs : Sound owner s (some (c, a)))
    (ht : Turn c s a s' next) :
    ∃ es, s'.deeds = s.deeds ++ es ∧ Numbers s s' es ∧ (∀ i u d, .asked i u d ∈ es → i = c) ∧
      ∀ i u t, .asked i u (.openProducer t) ∈ es →
        i = c ∧ Asks s s' c u t ∧ next = none ∧ s.cache.closed = false ∧ s.cache.handle? t = none := by
  have hmute : ∀ d : Demand, (∀ t, d ≠ .openProducer t) → ∀ i u t,
      Event.asked i u (.openProducer t) ∉ [Event.asked c s.tickets d] := by
    intro d hd i u t hm
    cases List.mem_singleton.1 hm
    exact hd t rfl
  cases ht with
  | @create w _ _ x hopen hcell hx hv =>
    refine ⟨[.asked c s.tickets (.openProducer w.topic)], by simp; rfl, numbers_asked rfl, asked_by, ?_⟩
    intro i u t hm
    cases List.mem_singleton.1 hm
    refine ⟨rfl, ⟨rfl, w, _, rfl, rfl⟩, rfl, hopen, (hcell.handle? hs.tidy w.topic).symm.trans ?_⟩
    have hval : Cache.value? _ _ = none := Option.bind_eq_none_iff.2 fun y hy => by
      cases hx.symm.trans hy
      exact hv
    cases hcell with
    | found hk => simp [Cache.handle?, hk, hval]
    | added => simp [Cache.handle?, Cache.current?_addCell, hval]
  | @send w h x m =>
    exact ⟨[.asked c s.tickets (.send h m)], by simp; rfl, numbers_asked rfl, asked_by,
      fun i u t hm => (hmute (.send h m) (by simp) i u t hm).elim⟩
  | @enqueue w h x m =>
    exact ⟨[.asked c s.tickets (.enqueue h m)], by simp; rfl, numbers_asked rfl, asked_by,
      fun i u t hm => (hmute (.enqueue h m) (by simp) i u t hm).elim⟩
  | @close _ _ r =>
    exact ⟨[.asked c s.tickets (.close r.handle)], by simp, numbers_asked rfl, asked_by,
      fun i u t hm => (hmute (.close r.handle) (by simp) i u t hm).elim⟩
  | _ => exact ⟨[], by simp, numbers_nil rfl, by simp, by simp⟩

/-- The beginning of a step makes one request at most. A producer is asked for by a call in line at a cell
that gets the turn there. -/
theorem Begins.writes (hb : Begins s l s' run) :
    ∃ es, s'.deeds = s.deeds ++ es ∧ Numbers s s' es ∧
      (∀ i u d, .asked i u d ∈ es → l.actor? = some i ∧ ∀ r, s'.calls.get? i ≠ some (.fresh r)) ∧
      ∀ i u t, .asked i u (.openProducer t) ∈ es → Asks s s' i u t ∧ l = .resume i ∧ run = none ∧
        ∃ w k, w.topic = t ∧ s.calls.get? i = some (.queued w k) ∧ s.cache.HasTurn i k := by
  have hfresh : ∀ {i : CallId} {p : Progress} {r : Request}, (∀ r, p ≠ .fresh r) →
      (s.calls.update i fun _ => p).get? i ≠ some (.fresh r) := by
    intro i p r hp h
    rcases Registry.get?_update_const h with ⟨-, he⟩ | ⟨hne, -⟩
    · exact hp r he.symm
    · exact hne rfl
  cases hb with
  | @drain c r taken =>
    refine ⟨[.drained c taken.2], by simp, .inl ⟨rfl, rfl⟩, fun i u d hm => ?_, fun i u t hm => ?_⟩ <;>
      cases List.mem_singleton.1 hm
  | @created c =>
    refine ⟨[.opened c s.handles.size], by simp, .inl ⟨rfl, rfl⟩, fun i u d hm => ?_,
      fun i u t hm => ?_⟩ <;> cases List.mem_singleton.1 hm
  | @dispatch c v m =>
    refine ⟨[.asked c s.tickets (.send v m)], by simp; rfl, numbers_asked rfl, fun i u d hm => ?_,
      fun i u t hm => ?_⟩ <;> cases List.mem_singleton.1 hm
    exact ⟨rfl, fun r => hfresh (fun _ => nofun)⟩
  | @create c w k hc hturn =>
    refine ⟨[.asked c s.tickets (.openProducer w.topic)], by simp, numbers_asked rfl,
      fun i u d hm => ?_, fun i u t hm => ?_⟩ <;> cases List.mem_singleton.1 hm
    · exact ⟨rfl, fun r => hfresh (fun _ => nofun)⟩
    · exact ⟨⟨rfl, w, k, rfl, rfl⟩, rfl, rfl, w, k, rfl, hc, hturn⟩
  | stop _ _ hs =>
    have ht := LetsGo.tickets_eq hs
    exact ⟨[], by simp [hs.deeds_eq], numbers_nil ht, fun _ _ _ => nofun, fun _ _ => nofun⟩
  | _ => exact ⟨[], by simp, numbers_nil rfl, fun _ _ _ => nofun, fun _ _ => nofun⟩

/-! ## 4. The induction -/

theorem orderly_new : Orderly [] new none :=
  ⟨⟨_, sound_new⟩, balanced_new, inUse_new, storied_new⟩

theorem PublicOnly.of_call {r : Request} (hl : PublicOnly s l) (hr : l = .call r) : r.IsPublic := by
  subst hr
  exact hl

theorem Orderly.begins (o : Orderly tr s none) (hl : PublicOnly s l) (hb : Begins s l s' run) :
    Orderly ((l, s) :: tr) s' run := by
  obtain ⟨owner, hs⟩ := o.sound
  exact ⟨⟨owner, hs.begins hb⟩, o.balanced.begins (fun _ => hl.of_call) hb, o.inUse.begins hs hb,
    o.storied.begins (fun _ => hl.of_call) hb⟩

theorem Orderly.turn {a : Act} {next : Option Act} (o : Orderly tr s (some (c, a)))
    (ht : Turn c s a s' next) : Orderly tr s' (next.map fun a => (c, a)) := by
  obtain ⟨owner, hs⟩ := o.sound
  exact ⟨hs.turn ht, o.balanced.turn hs ht, o.inUse.turn hs ht, o.storied.turn hs ht⟩

end

/-- What is so in a new factory and what each moment leaves to the next is so in every run; at each moment
all that is known of it can be used. -/
theorem Run.induct_orderly {I : List (Label × Factory) → Factory → Option (CallId × Act) → Prop}
    (new : I [] Factory.new none)
    (begins : ∀ {tr : List (Label × Factory)} {s s₁ : Factory} {l : Label}
      {run : Option (CallId × Act)}, Orderly tr s none → I tr s none → PublicOnly s l →
      Begins s l s₁ run → I ((l, s) :: tr) s₁ run)
    (turn : ∀ {tr : List (Label × Factory)} {s s₁ : Factory} {c : CallId} {a : Act}
      {next : Option Act}, Orderly tr s (some (c, a)) → I tr s (some (c, a)) →
      Turn c s a s₁ next → I tr s₁ (next.map fun a => (c, a)))
    {tr : List (Label × Factory)} {s : Factory} (h : Run PublicOnly tr s) :
    Orderly tr s none ∧ I tr s none := by
  refine h.induct (I := fun tr s run => Orderly tr s run ∧ I tr s run) ⟨orderly_new, new⟩ ?_ ?_
  · rintro tr s s₁ l run - hl ⟨o, hi⟩ hb
    exact ⟨o.begins hl hb, begins o hi hl hb⟩
  · rintro tr s s₁ s₂ l c a next - - ⟨o, hi⟩ ht
    exact ⟨o.turn ht, turn o hi ht⟩

theorem Run.orderly {tr : List (Label × Factory)} {s : Factory} (h : Run PublicOnly tr s) :
    Orderly tr s none :=
  (Run.induct_orderly (I := fun _ _ _ => True) trivial (fun _ _ _ _ => trivial)
    (fun _ _ _ => trivial) h).1

/-- An induction over the moments of one step of a run. -/
theorem Run.step_induct {tr : List (Label × Factory)} {s s' : Factory} {l : Label}
    {J : Factory → Option (CallId × Act) → Prop} (h : Run PublicOnly tr s) (hl : PublicOnly s l)
    (hs : s.step l = some s')
    (begins : ∀ {s₁ : Factory} {run : Option (CallId × Act)}, Orderly tr s none →
      Begins s l s₁ run → J s₁ run)
    (turn : ∀ {s₁ s₂ : Factory} {c : CallId} {a : Act} {next : Option Act},
      Orderly ((l, s) :: tr) s₁ (some (c, a)) → J s₁ (some (c, a)) → Turn c s₁ a s₂ next →
      J s₂ (next.map fun a => (c, a))) : J s' none := by
  have hboth : ∀ {s₁ : Factory} {run : Option (CallId × Act)}, Path s l s₁ run →
      Orderly ((l, s) :: tr) s₁ run ∧ J s₁ run := by
    intro s₁ run hpath
    induction hpath with
    | begin hb => exact ⟨h.orderly.begins hl hb, begins h.orderly hb⟩
    | turn _ ht ih => exact ⟨ih.1.turn ht, turn ih.1 ih.2 ht⟩
  exact (hboth (path_of_step hs)).2

/-- The requests to the wire client have the tickets `0`, `1`, `2`, … in the order they were made. -/
theorem Run.numbered {tr : List (Label × Factory)} {s : Factory} (h : Run PublicOnly tr s) :
    s.deeds.filterMap Event.ticket? = List.range s.tickets := by
  have hstep : ∀ {s s' : Factory} {es : List Event}, s'.deeds = s.deeds ++ es → Numbers s s' es →
      s.deeds.filterMap Event.ticket? = List.range s.tickets →
      s'.deeds.filterMap Event.ticket? = List.range s'.tickets := by
    intro s s' es he hn ih
    rw [he, List.filterMap_append, ih]
    rcases hn with ⟨hes, ht⟩ | ⟨hes, ht⟩
    · rw [hes, ht, List.append_nil]
    · rw [hes, ht, List.range_succ]
  refine (Run.induct_orderly
    (I := fun _ s _ => s.deeds.filterMap Event.ticket? = List.range s.tickets) rfl ?_ ?_ h).2
  · intro tr s s₁ l run _ ih _ hb
    obtain ⟨es, he, hn, -⟩ := hb.writes
    exact hstep he hn ih
  · intro tr s s₁ c a next o ih ht
    obtain ⟨owner, hs⟩ := o.sound
    obtain ⟨es, he, hn, -⟩ := ht.writes hs
    exact hstep he hn ih

/-- No two requests have one ticket. -/
theorem Run.ticket_unique {tr : List (Label × Factory)} {s : Factory} (h : Run PublicOnly tr s)
    {c c' : CallId} {u : Ticket} {d d' : Demand} (hm : .asked c u d ∈ s.events)
    (hm' : .asked c' u d' ∈ s.events) : c = c' ∧ d = d' := by
  have hnodup : (s.deeds.filterMap Event.ticket?).Nodup := h.numbered ▸ List.nodup_range
  have hne := List.pairwise_filterMap.1 hnodup
  have heq : Event.asked c u d = .asked c' u d' :=
    List.Pairwise.forall_of_forall_of_flip
      (R := fun e e' => e.ticket? = some u → e'.ticket? = some u → e = e') (fun _ _ _ _ => rfl)
      (hne.imp fun hab ha hb => (hab u ha u hb rfl).elim)
      (hne.imp fun hab ha hb => (hab u hb u ha rfl).elim)
      (mem_deeds.2 ⟨hm, rfl⟩) (mem_deeds.2 ⟨hm', rfl⟩) rfl rfl
  cases heq
  exact ⟨rfl, rfl⟩

/-- A call that asked something of the wire client has begun. -/
theorem Run.begun {tr : List (Label × Factory)} {s : Factory} (h : Run PublicOnly tr s) {i : CallId}
    {u : Ticket} {d : Demand} (hm : .asked i u d ∈ s.events) :
    ∃ p, s.calls.get? i = some p ∧ ∀ r, p ≠ .fresh r := by
  -- Within a step, a call that runs has begun.
  have hall : ∀ i u d, .asked i u d ∈ s.deeds → i < s.calls.size ∧
      ∀ r, s.calls.get? i = some (.fresh r) → ∃ a : Act, none = some (i, a) := by
    refine (Run.induct_orderly (I := fun _ s run => ∀ i u d, .asked i u d ∈ s.deeds →
      i < s.calls.size ∧ ∀ r, s.calls.get? i = some (.fresh r) → ∃ a, run = some (i, a))
      nofun ?_ ?_ h).2
    · intro tr s s₁ l run o ih _ hb i u d hm
      obtain ⟨es, he, -, hby, -⟩ := hb.writes
      rw [he] at hm
      rcases List.mem_append.1 hm with hm | hm
      · obtain ⟨hlt, hno⟩ := ih i u d hm
        refine ⟨Nat.lt_of_lt_of_le hlt hb.calls_size, fun r hr => ?_⟩
        rcases hb.moves hr with hr | he
        · obtain ⟨a, ha⟩ := hno r hr
          cases ha
        · cases he with
          | fresh _ hi => exact (Nat.ne_of_lt hlt hi).elim
      · obtain ⟨hi, hno⟩ := hby i u d hm
        obtain ⟨p, hp, -⟩ := hb.active hi
        refine ⟨Nat.lt_of_lt_of_le (Registry.lt_size_of_get? hp) hb.calls_size, fun r hr => ?_⟩
        exact (hno r hr).elim
    · intro tr s s₁ c a next o ih ht i u d hm
      obtain ⟨owner, hs⟩ := o.sound
      obtain ⟨es, he, -, hby, -⟩ := ht.writes hs
      obtain ⟨hlt, hold⟩ : i < s.calls.size ∧
          ∀ r, s.calls.get? i = some (.fresh r) → i = c := by
        rw [he] at hm
        rcases List.mem_append.1 hm with hm | hm
        · obtain ⟨hlt, hno⟩ := ih i u d hm
          refine ⟨hlt, fun r hr => ?_⟩
          obtain ⟨a', ha'⟩ := hno r hr
          cases ha'
          rfl
        · obtain rfl := hby i u d hm
          obtain ⟨p, hp, -⟩ := (o.storied.act i a rfl).stale
          exact ⟨Registry.lt_size_of_get? hp, fun _ _ => rfl⟩
      refine ⟨Nat.lt_of_lt_of_le hlt ht.calls_size, fun r hr => ?_⟩
      cases ht.moves hs hr with
      | stays hr hnext =>
        obtain rfl := hold r hr
        obtain ⟨a', ha'⟩ := Option.ne_none_iff_exists'.1 (hnext rfl)
        exact ⟨a', ha' ▸ rfl⟩
      | gets _ _ hreach => cases hreach
      | begun hi => exact (Nat.ne_of_lt hlt hi).elim
  obtain ⟨hlt, hno⟩ := hall i u d (mem_deeds.2 ⟨hm, rfl⟩)
  obtain ⟨p, hp⟩ := Registry.exists_get?_of_lt hlt
  refine ⟨p, hp, ?_⟩
  rintro r rfl
  obtain ⟨a, ha⟩ := hno r hp
  cases ha

/-! ## 5. What stays known -/

section

variable {tr : List (Label × Factory)} {s s' s₀ : Factory} {c i : CallId} {l : Label} {p : PendingId}
  {run : Option (CallId × Act)}

theorem Lasts.refl (s : Factory) : Lasts s s := ⟨id, fun hq _ => hq, fun hq _ => ⟨_, hq, rfl, rfl⟩⟩

theorem Lasts.trans {a b c : Factory} (h : Lasts a b) (h' : Lasts b c) : Lasts a c where
  asked hm := h'.asked (h.asked hm)
  ended hq ho := h'.ended (h.ended hq ho) ho
  known hq hst := by
    obtain ⟨q', hq', hstate, htopic⟩ := h.known hq hst
    obtain ⟨q'', hq'', hstate', htopic'⟩ := h'.known hq' (hstate ▸ hst)
    exact ⟨q'', hq'', hstate'.trans hstate, htopic'.trans htopic⟩

theorem Lasts.outcome {q : Pending} {r : Except Error MessageId} (h : Lasts s s')
    (hq : s.pending.get? p = some q) (hr : q.outcome? = some r) :
    ∃ q', s'.pending.get? p = some q' ∧ q'.outcome? = some r := by
  have hst : q.state ≠ .unknown := by
    intro he
    simp [Pending.outcome?, he] at hr
  obtain ⟨q', hq', hstate, htopic⟩ := h.known hq hst
  refine ⟨q', hq', ?_⟩
  unfold Pending.outcome? at hr ⊢
  rw [hstate, htopic]
  exact hr

/-- Entries that are added to those about producers. -/
theorem asked_mono {es : List Event} (he : s'.deeds = s.deeds ++ es) {u : Ticket} {d : Demand}
    (hm : .asked i u d ∈ s.events) : .asked i u d ∈ s'.events := by
  have hm : Event.asked i u d ∈ s'.deeds := he ▸ List.mem_append_left es (mem_deeds.2 ⟨hm, rfl⟩)
  exact (mem_deeds.1 hm).1

theorem pending_add {a : Registry Pending} {q : Pending} (hq : a.get? p = some q) (x : Pending) :
    (a.add x).get? p = some q := by
  rw [Registry.get?_add, if_neg (Nat.ne_of_lt (Registry.lt_size_of_get? hq))]
  exact hq

theorem pending_update {a : Registry Pending} {q : Pending} (hq : a.get? p = some q) {p' : PendingId}
    {f : Pending → Pending} (hf : p' = p → (f q).state = q.state ∧ (f q).topic = q.topic) :
    ∃ q', (a.update p' f).get? p = some q' ∧ q'.state = q.state ∧ q'.topic = q.topic := by
  rw [Registry.get?_update]
  split
  · next he => exact ⟨f q, by rw [hq]; rfl, hf he⟩
  · exact ⟨q, hq, rfl, rfl⟩

/-- A turn adds promises, and changes none. -/
theorem Turn.pending {a : Act} {next : Option Act} {q : Pending} (ht : Turn c s a s' next)
    (hq : s.pending.get? p = some q) : s'.pending.get? p = some q := by
  cases ht with
  | promise => exact pending_add hq _
  | _ => exact hq

theorem Turn.lasts {a : Act} {next : Option Act} (o : Orderly tr s (some (c, a)))
    (ht : Turn c s a s' next) : Lasts s s' := by
  obtain ⟨owner, hs⟩ := o.sound
  obtain ⟨es, he, -⟩ := ht.writes hs
  exact ⟨asked_mono he, fun hq ho => o.over ht hq ho, fun hq _ => ⟨_, ht.pending hq, rfl, rfl⟩⟩

/-- A promise that is settled is in no call's hands, so the beginning of a step leaves it as it is, but
for the call that waits for it. -/
theorem Begins.lasts (o : Orderly tr s none) (hb : Begins s l s' run) : Lasts s s' := by
  obtain ⟨es, he, -⟩ := hb.writes
  refine ⟨asked_mono he, fun hq ho => hb.over hq ho, fun {p q} hq hst => ?_⟩
  have hfree : ∀ {i : CallId} {z : Progress} {p' : PendingId}, s.calls.get? i = some z →
      z.pending? = some p' → p' ≠ p := by
    rintro i z p' hz hp rfl
    exact hst (o.storied.assigned.unknown hq ⟨z, hz, hp⟩)
  cases hb with
  | await => exact pending_update hq fun _ => ⟨rfl, rfl⟩
  | rejected | accepted => exact ⟨q, pending_add hq _, rfl, rfl⟩
  | completed hc => exact pending_update hq fun h => (hfree hc rfl h).elim
  | stop _ hc hlets =>
    cases hlets with
    | dispatch | completing => exact pending_update hq fun h => (hfree hc rfl h).elim
    | awaiting => exact pending_update hq fun _ => ⟨rfl, rfl⟩
    | _ => exact ⟨q, hq, rfl, rfl⟩
  | _ => exact ⟨q, hq, rfl, rfl⟩

theorem Run.lasts (h : Run PublicOnly tr s) (hm : (l, s₀) ∈ tr) : Lasts s₀ s := by
  refine (Run.induct_orderly (I := fun tr s _ => ∀ l s₀, (l, s₀) ∈ tr → Lasts s₀ s) (fun _ => nofun)
    ?_ ?_ h).2 l s₀ hm
  · intro tr s s₁ l run o ih _ hb l' s₀ hm
    rcases List.mem_cons.1 hm with he | hm
    · cases he
      exact hb.lasts o
    · exact (ih l' s₀ hm).trans (hb.lasts o)
  · intro tr s s₁ c a next o ih ht l' s₀ hm
    exact (ih l' s₀ hm).trans (ht.lasts o)

/-- What was before a step that was taken, and what stays known since. -/
theorem Run.since (h : Run PublicOnly tr s) (hm : (l, s₀) ∈ tr) :
    ∃ before s₁, Run PublicOnly before s₀ ∧ (∀ x ∈ before, x ∈ tr) ∧ s₀.step l = some s₁ ∧
      Lasts s₁ s := by
  have hall : ∃ before s₁, Run PublicOnly before s₀ ∧ (∀ x ∈ before, x ∈ tr) ∧
      s₀.step l = some s₁ ∧ (s₁ = s ∨ ∃ l', (l', s₁) ∈ tr) := by
    induction h with
    | new => cases hm
    | @step tr s s' l' hrun _ hs ih =>
      rcases List.mem_cons.1 hm with he | hm
      · cases he
        exact ⟨tr, s', hrun, fun x hx => List.mem_cons_of_mem _ hx, hs, .inl rfl⟩
      · obtain ⟨before, s₁, hbefore, hsub, hs₁, hor⟩ := ih hm
        refine ⟨before, s₁, hbefore, fun x hx => List.mem_cons_of_mem _ (hsub x hx), hs₁, .inr ?_⟩
        rcases hor with rfl | ⟨l'', hm⟩
        · exact ⟨l', List.mem_cons_self⟩
        · exact ⟨l'', List.mem_cons_of_mem _ hm⟩
  obtain ⟨before, s₁, hbefore, hsub, hs₁, hor⟩ := hall
  refine ⟨before, s₁, hbefore, hsub, hs₁, ?_⟩
  rcases hor with rfl | ⟨l', hm⟩
  · exact .refl _
  · exact h.lasts hm

end

end Factory

end TopicPublisher
