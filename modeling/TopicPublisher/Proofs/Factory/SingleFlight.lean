import TopicPublisher.Proofs.Factory.Orderly

/-!
# One creation at a time

Callers that want the producer of one topic share one creation. The first of them has the turn at the
topic's cell and asks for the producer, the others wait in line; when the creation fails, or its caller is
aborted, the first in line has the turn. Resets and shutdowns detach cells with all who wait there, so each
of them allows one more producer of the topic, and no more.

A cell that a producer may still fill counts as one that may be opened (`Budgeted`): a cell is in the map
under its topic, or calls wait at it, and it is empty.

Results:
1. `Run.budgeted`: how many producers of a topic are opened, at most.
2. `Run.flights`, `Run.returned`: what becomes of the request for a producer, and who gets its error.
3. `Run.undrained`: before the first reset or shutdown, all who wait for a topic wait at one cell.
4. `single_flight`: all this, in every run.
-/

namespace TopicPublisher

/-- A topic and the cell at which a call waits for its producer. -/
def Progress.cell? : Progress → Option (String × CellId)
  | .queued w k => some (w.topic, k)
  | .creating w k _ => some (w.topic, k)
  | _ => none

namespace Factory

/-! ## Definitions -/

/-- The wire client opens a producer of a topic, for a call that asked for it. -/
def IsOpening (t : String) : Label × Factory → Bool
  | (.answer c _ (.opened (.ok _)), s) => match s.calls.get? c with
    | some (.creating w _ _) => w.topic = t
    | _ => false
  | _ => false

section

variable (tr : List (Label × Factory)) (s : Factory)

/-- How many producers of a topic were opened. -/
def openCount (t : String) : Nat := tr.countP (IsOpening t)

/-- How often a reset or a shutdown emptied the map. -/
def drainCount : Nat := tr.countP IsDrain

/-- A call was ended before its time. -/
def Stopped (c : CallId) : Prop := ∃ s₀, (.abort c, s₀) ∈ tr ∨ (.crash c, s₀) ∈ tr

/-- A call made a request for a producer, and waits for the answer. -/
structure InFlight (c : CallId) (u : Ticket) (t : String) : Prop where
  asked : .asked c u (.openProducer t) ∈ s.events
  unanswered : ∀ r, ¬ Answered tr c u (.opened r)
  unstopped : ¬ Stopped tr c

/-- The creations of producers, and what callers get of them.

* `budget`: of each topic one producer is opened, and one more for each drain, at most.
* `alone`: without a drain, creations for a topic do not overlap.
* `once`: without a drain, none is asked for after one was opened.
* `returned`: the error of a creation is what the call ended with that asked for it.
* `own`: who ended with the error of a creation asked for it, and nobody else did.
* `handles`: without a drain, whoever got a handle got the one in the map.
* `leases`: without a drain, whoever got a lease got one on the handle in the map. -/
structure SingleFlight : Prop where
  budget : ∀ raw, openCount tr (canonicalize raw) ≤ drainCount tr + 1
  alone : drainCount tr = 0 → ∀ t c u c' u', InFlight tr s c u t → InFlight tr s c' u' t →
    c = c' ∧ u = u'
  once : drainCount tr = 0 → ∀ t l s₀, (l, s₀) ∈ tr → IsOpening t (l, s₀) = true →
    ∃ later, s.deeds = s₀.deeds ++ later ∧ ∀ c u, .asked c u (.openProducer t) ∉ later
  returned : ∀ c u e, Answered tr c u (.opened (.error e)) → ∃ t,
    .asked c u (.openProducer t) ∈ s.events ∧
      s.calls.get? c = some (.ended (.failed (.producerCreation t e)))
  own : ∀ c raw t e, Made tr c (.createProducer raw) ∨ Made tr c (.acquire raw) →
    s.calls.get? c = some (.ended (.failed (.producerCreation t e))) →
    t = canonicalize raw ∧ ∃ u, .asked c u (.openProducer t) ∈ s.events ∧
      Answered tr c u (.opened (.error e)) ∧
      (∀ u' e', Answered tr c u' (.opened (.error e')) → u' = u ∧ e' = e) ∧
      ∀ c' d, .asked c' u d ∈ s.events → c' = c
  handles : drainCount tr = 0 → ∀ c raw v, Made tr c (.createProducer raw) →
    s.calls.get? c = some (.ended (.handle v)) → s.cache.handle? (canonicalize raw) = some v
  leases : drainCount tr = 0 → ∀ c raw l, Made tr c (.acquire raw) →
    s.calls.get? c = some (.ended (.lease l)) →
    ∃ y, s.leases.get? l = some y ∧ s.cache.handle? (canonicalize raw) = some y.handle

/-- A cell that may still be filled with a handle of a topic. -/
def Fillable (t : String) (k : CellId) : Prop :=
  s.cache.value? k = none ∧ (s.cache.current? t = some k ∨
    ∃ i p, s.calls.get? i = some p ∧ p.cell? = some (t, k))

/-- The cells that may still be filled with handles of a topic are within its budget. -/
def Budgeted (t : String) : Prop :=
  ∃ ks : List CellId, (∀ k, Fillable s t k → k ∈ ks) ∧
    openCount tr t + ks.length ≤ drainCount tr + if s.cache.current? t = none then 0 else 1

/-- What became of the request of a call for a producer. -/
inductive Flight (run : Option (CallId × Act)) (c : CallId) (u : Ticket) (t : String) : Prop
  | waiting {w : Want} {k : CellId} : (∀ a, run ≠ some (c, a)) →
      s.calls.get? c = some (.creating w k u) → w.topic = t → Flight run c u t
  | answered {r : Except ClientError DispatchMode} : Answered tr c u (.opened r) → Flight run c u t
  | stopped : Stopped tr c → Flight run c u t

/-- All who wait for a topic's producer wait at the cell that the map has. -/
structure Attached (run : Option (CallId × Act)) : Prop where
  calls : ∀ i p t k, s.calls.get? i = some p → p.cell? = some (t, k) → s.cache.current? t = some k
  place : ∀ c w k v, run = some (c, .place w k v) → s.cache.current? w.topic = some k

end

open SoundLemmas StoryLemmas

section

variable {tr : List (Label × Factory)} {s s' : Factory} {c i : CallId} {l : Label} {p : Progress}
  {run : Option (CallId × Act)} {owner : CellId → String} {t : String} {k : CellId}

/-! ## 1. The budget of a topic -/

/-- A call gets to a cell of its topic that the map has. -/
theorem Turn.arrives {a : Act} {next : Option Act} (hs : Sound owner s (some (c, a)))
    (ht : Turn c s a s' next) (hp : s'.calls.get? i = some p) (hk : p.cell? = some (t, k)) :
    s'.cache.current? t = some k ∨ s.calls.get? i = some p := by
  cases ht.moves hs hp with
  | stays hp => exact .inr hp
  | gets _ _ hr =>
    cases hr with
    | queued _ hcur | creating _ hcur =>
      cases hk
      exact .inl hcur
    | _ => cases hk
  | begun _ _ he =>
    subst he
    cases hk

/-- The beginning of a step brings no call to a cell. -/
theorem Begins.arrives (hb : Begins s l s' run) (hp : s'.calls.get? i = some p)
    (hk : p.cell? = some (t, k)) : ∃ q, s.calls.get? i = some q ∧ q.cell? = some (t, k) := by
  rcases hb.moves hp with hp | he
  · exact ⟨p, hp, hk⟩
  · cases he with
    | creating hc => exact ⟨_, hc, hk⟩
    | _ => cases hk

/-- A cell that is empty after the beginning of a step was empty before. -/
theorem Begins.unfilled (hs : Sound owner s none) (hb : Begins s l s' run)
    (hk : s'.cache.value? k = none) : s.cache.value? k = none := by
  cases hb with
  | drain _ htaken => rcases htaken with ⟨-, rfl⟩ | ⟨-, rfl⟩ <;> exact hk
  | @created c _ w j _ _ hc =>
    have hturn : s.cache.HasTurn c j := (hs.fits c _ hc fun _ => nofun).2
    have hk := (Cache.value?_fill hturn s.handles.size k).symm.trans hk
    split at hk
    · cases hk
    · exact hk
  | failed => exact (Cache.value?_setCell_of_eq (fun x _ => Cache.value_pass x) k).symm.trans hk
  | @stop c _ _ _ _ _ _ hstop =>
    cases hstop with
    | queued | creating =>
      exact (Cache.value?_setCell_of_eq (fun x _ => Cache.value_leave x c) k).symm.trans hk
    | _ => exact hk
  | _ => exact hk

/-- Only a reset or a shutdown changes the map at the beginning of a step. -/
theorem Begins.map_eq (hb : Begins s l s' run) (hl : IsDrain (l, s) = false) :
    s'.cache.entries = s.cache.entries := by
  cases hb with
  | drain hc htaken => rcases htaken with ⟨rfl, -⟩ | ⟨rfl, -⟩ <;> simp [IsDrain, hc] at hl
  | stop _ _ hs => cases hs <;> rfl
  | _ => rfl

theorem Begins.map_emptied (hb : Begins s l s' run) (hl : IsDrain (l, s) = true) :
    s'.cache.entries = [] := by
  cases hb with
  | drain _ htaken => rcases htaken with ⟨-, rfl⟩ | ⟨-, rfl⟩ <;> rfl
  | want hc | refuse hc | await hc | dispatch hc | filled hc | create hc | retire hc | settled hc =>
    simp [IsDrain, hc] at hl
  | stop hfinal => rcases hfinal with ⟨rfl, -⟩ | ⟨rfl, -⟩ <;> cases hl
  | _ => cases hl

theorem Fillable.before (hs : Sound owner s none) (hb : Begins s l s' run)
    (hf : Fillable s' t k) : Fillable s t k := by
  refine ⟨hb.unfilled hs hf.1, ?_⟩
  rcases hf.2 with hcur | ⟨i, p, hp, hk⟩
  · cases hl : IsDrain (l, s) with
    | false => exact .inl ((congrArg (Entries.find? t ·) (hb.map_eq hl)).symm.trans hcur)
    | true =>
      have hnone := congrArg (Entries.find? t ·) (hb.map_emptied hl)
      cases hnone.symm.trans hcur
  · obtain ⟨q, hq, hqk⟩ := hb.arrives hp hk
    exact .inr ⟨i, q, hq, hqk⟩

theorem Budgeted.keep {tr' : List (Label × Factory)} (b : Budgeted tr s t)
    (ho : openCount tr' t = openCount tr t) (hd : drainCount tr' = drainCount tr)
    (hf : ∀ k, Fillable s' t k → Fillable s t k)
    (hc : s.cache.current? t ≠ none → s'.cache.current? t ≠ none) : Budgeted tr' s' t := by
  obtain ⟨ks, hks, hle⟩ := b
  refine ⟨ks, fun k hk => hks k (hf k hk), ?_⟩
  rw [ho, hd]
  by_cases hcur : s.cache.current? t = none
  · rw [if_pos hcur] at hle
    exact Nat.le_trans hle (Nat.add_le_add_left (Nat.zero_le _) _)
  · rw [if_neg hcur] at hle
    rw [if_neg (hc hcur)]
    exact hle

theorem isOpening_inv (h : IsOpening t (l, s) = true) :
    ∃ c u m w k u', l = .answer c u (.opened (.ok m)) ∧
      s.calls.get? c = some (.creating w k u') ∧ w.topic = t := by
  unfold IsOpening at h
  split at h
  · next heq =>
    cases heq
    split at h
    · next hc => exact ⟨_, _, _, _, _, _, rfl, hc, of_decide_eq_true h⟩
    · cases h
  · cases h

theorem isOpening_of_isDrain (h : IsDrain (l, s) = true) : IsOpening t (l, s) = false := by
  cases l with
  | answer => cases h
  | _ => rfl

theorem drainCount_cons (h : IsDrain (l, s) = false) :
    drainCount ((l, s) :: tr) = drainCount tr := List.countP_cons_of_neg (by simp [h])

theorem openCount_cons (h : IsOpening t (l, s) = false) :
    openCount ((l, s) :: tr) t = openCount tr t := List.countP_cons_of_neg (by simp [h])

theorem Budgeted.begins (hs : Sound owner s none) (b : Budgeted tr s t) (hb : Begins s l s' run) :
    Budgeted ((l, s) :: tr) s' t := by
  have hf : ∀ k, Fillable s' t k → Fillable s t k := fun k => Fillable.before hs hb
  cases hd : IsDrain (l, s) with
  | true =>
    -- The map is empty afterwards, and there is one more drain.
    obtain ⟨ks, hks, hle⟩ := b
    refine ⟨ks, fun k hk => hks k (hf k hk), ?_⟩
    rw [openCount_cons (isOpening_of_isDrain hd)]
    have hcount : drainCount ((l, s) :: tr) = drainCount tr + 1 := List.countP_cons_of_pos hd
    split at hle <;> omega
  | false =>
    have hmap : ∀ t, s'.cache.current? t = s.cache.current? t := fun t =>
      congrArg (Entries.find? t ·) (hb.map_eq hd)
    cases ho : IsOpening t (l, s) with
    | false =>
      refine b.keep (openCount_cons ho) (drainCount_cons hd) hf fun h => ?_
      rw [hmap]
      exact h
    | true =>
      -- The cell that is filled is one of those that could be.
      obtain ⟨c, u, m, w, k, u', rfl, hc, rfl⟩ := isOpening_inv ho
      obtain ⟨ks, hks, hle⟩ := b
      have hturn : s.cache.HasTurn c k := (hs.fits c _ hc fun _ => nofun).2
      have hempty : s.cache.value? k = none := by
        obtain ⟨x, hx, -, hv⟩ := hturn
        simp [Cache.value?, hx, hv]
      have hmem : k ∈ ks := hks k ⟨hempty, .inr ⟨c, _, hc, rfl⟩⟩
      refine ⟨ks.erase k, fun j hj => ?_, ?_⟩
      · refine (List.mem_erase_of_ne ?_).2 (hks j (hf j hj))
        rintro rfl
        cases hb with
        | created hc' =>
          cases hc.symm.trans hc'
          cases ((Cache.value?_fill hturn s.handles.size j).trans (if_pos rfl)).symm.trans hj.1
        | stop hl => rcases hl with ⟨h, -⟩ | ⟨h, -⟩ <;> cases h
      · rw [hmap, drainCount_cons hd, List.length_erase_of_mem hmem]
        have hcount : openCount ((.answer c u (.opened (.ok m)), s) :: tr) w.topic =
            openCount tr w.topic + 1 := List.countP_cons_of_pos ho
        have := List.length_pos_of_mem hmem
        omega

/-- With a new cell, the others are as empty as before. -/
theorem unfilled_of_new {b b' : Cache} {o : Option HandleId}
    (hval : b'.value? = fun k => if k = b.cells.size then o else b.value? k)
    (hk : b'.value? k = none) : b.value? k = none := by
  rw [hval] at hk
  by_cases hnew : k = b.cells.size
  · refine Option.eq_none_iff_forall_ne_some.2 fun v hv => ?_
    exact Nat.lt_irrefl _ (hnew ▸ Cache.value?_lt hv)
  · exact (if_neg hnew).symm.trans hk

theorem Budgeted.turn {a : Act} {next : Option Act} (hs : Sound owner s (some (c, a)))
    (u : InUse s (some (c, a))) (b : Budgeted tr s t) (ht : Turn c s a s' next) :
    Budgeted tr s' t := by
  have hcalls : ∀ k, Fillable s' t k → s'.cache.current? t = some k ∨
      ∃ i p, s.calls.get? i = some p ∧ p.cell? = some (t, k) := by
    rintro k ⟨-, hcur | ⟨i, p, hp, hk⟩⟩
    · exact .inl hcur
    · rcases ht.arrives hs hp hk with h | h
      · exact .inl h
      · exact .inr ⟨i, p, h, hk⟩
  -- A new cell of another topic changes nothing.
  have hother : ∀ {t₀ : String} {o : Option HandleId}, t ≠ t₀ →
      (s'.cache.value? = fun k => if k = s.cache.cells.size then o else s.cache.value? k) →
      (s'.cache.current? = fun t => if t = t₀ then some s.cache.cells.size else s.cache.current? t) →
      Budgeted tr s' t := by
    intro t₀ o hne hval hcur
    have hsame : s'.cache.current? t = s.cache.current? t := by
      rw [hcur]
      exact if_neg hne
    exact b.keep rfl rfl (fun k hk => ⟨unfilled_of_new hval hk.1, hsame ▸ hcalls k hk⟩) fun h => hsame ▸ h
  cases u.remap hs ht with
  | same hval hcur =>
    refine b.keep rfl rfl (fun k hk => ⟨hval ▸ hk.1, ?_⟩) fun h => hcur ▸ h
    exact hcur ▸ hcalls k hk
  | @added _ _ t₀ hnone hval hcur =>
    by_cases ht₀ : t = t₀
    · -- The new cell is one more that can be filled, and the topic has a cell now.
      subst ht₀
      obtain ⟨ks, hks, hle⟩ := b
      refine ⟨s.cache.cells.size :: ks, fun k hk => ?_, ?_⟩
      · by_cases hnew : k = s.cache.cells.size
        · exact hnew ▸ List.mem_cons_self
        · refine List.mem_cons_of_mem _ (hks k ⟨unfilled_of_new hval hk.1, ?_⟩)
          · rcases hcalls k hk with h | h
            · rw [hcur] at h
              exact absurd (Option.some.inj ((if_pos rfl).symm.trans h)).symm hnew
            · exact .inr h
      · rw [if_pos hnone] at hle
        rw [hcur, List.length_cons, if_neg (by simp)]
        omega
    · exact hother ht₀ hval hcur
  | @adopted _ w _ v _ _ hval hcur =>
    by_cases ht₀ : t = w.topic
    · -- The new cell is filled, and the topic has a cell now.
      subst ht₀
      refine b.keep rfl rfl (fun k hk => ⟨unfilled_of_new hval hk.1, .inr ?_⟩) fun _ => by simp [hcur]
      rcases hcalls k hk with h | h
      · rw [hcur] at h
        have hk' : k = s.cache.cells.size := (Option.some.inj ((if_pos rfl).symm.trans h)).symm
        have hv := hk.1
        rw [hval] at hv
        cases (if_pos hk').symm.trans hv
      · exact h
    · exact hother ht₀ hval hcur

theorem budgeted_new (t : String) : Budgeted [] new t := by
  refine ⟨[], fun k hk => ?_, Nat.zero_le _⟩
  rcases hk.2 with h | ⟨i, p, h, -⟩
  · cases h
  · simp [new] at h

end

/-- In every run, the producers of a topic that were opened and the cells that may still be filled with one
are as many as the drains, and one more, at most. -/
theorem Run.budgeted {tr : List (Label × Factory)} {s : Factory} (h : Run PublicOnly tr s)
    (t : String) : Budgeted tr s t := by
  refine (Run.induct_orderly (I := fun tr s _ => Budgeted tr s t) (budgeted_new t) ?_ ?_ h).2
  · intro tr s s₁ l run o b _ hb
    obtain ⟨owner, hs⟩ := o.sound
    exact b.begins hs hb
  · intro tr s s₁ c a next o b ht
    obtain ⟨owner, hs⟩ := o.sound
    exact b.turn hs o.inUse ht

/-! ## 2. Requests and their answers -/

section

variable {tr : List (Label × Factory)} {s s' : Factory} {c i : CallId} {l : Label}
  {run run' : Option (CallId × Act)} {u : Ticket} {t : String}

theorem Answered.cons {a : Answer} (h : Answered tr c u a) (x : Label × Factory) :
    Answered (x :: tr) c u a := by
  obtain ⟨s₀, hm⟩ := h
  exact ⟨s₀, List.mem_cons_of_mem x hm⟩

theorem Stopped.cons (h : Stopped tr c) (x : Label × Factory) : Stopped (x :: tr) c := by
  obtain ⟨s₀, hm⟩ := h
  exact ⟨s₀, hm.imp (List.mem_cons_of_mem x) (List.mem_cons_of_mem x)⟩

/-- What becomes of a request of a call that stays where it is. -/
theorem Flight.keep (f : Flight tr s run i u t) (hrun : ∀ a, run' ≠ some (i, a))
    (hcalls : ∀ q, (∀ a, run ≠ some (i, a)) → s.calls.get? i = some q → s'.calls.get? i = some q) :
    Flight tr s' run' i u t := by
  cases f with
  | waiting hi hq ht => exact .waiting hrun (hcalls _ hi hq) ht
  | answered ha => exact .answered ha
  | stopped hs => exact .stopped hs

theorem Flight.cons (f : Flight tr s run i u t) (x : Label × Factory) :
    Flight (x :: tr) s run i u t := by
  cases f with
  | waiting hi hq ht => exact .waiting hi hq ht
  | answered ha => exact .answered (ha.cons x)
  | stopped hs => exact .stopped (hs.cons x)

/-- The request of a call for a producer, right after it was made. -/
theorem Asks.flight (h : Asks s s' i u t) (hc : ∃ q, s.calls.get? i = some q) :
    Flight tr s' none i u t := by
  obtain ⟨w, k, ht, hcalls⟩ := h.waits
  obtain ⟨q, hq⟩ := hc
  have hnew : s'.calls.get? i = some (.creating w k u) := by
    rw [hcalls]
    exact get?_goTo hq
  exact .waiting (fun _ => nofun) hnew ht

/-- Its own step, if a call waits for the producer, is an answer or its end. -/
theorem Flight.begins (f : Flight tr s none i u t) (hb : Begins s l s' run) :
    Flight ((l, s) :: tr) s' run i u t := by
  by_cases hi : l.actor? = some i
  · cases f with
    | answered ha => exact .answered (ha.cons _)
    | stopped hst => exact .stopped (hst.cons _)
    | @waiting w k _ hq =>
      cases hb with
      | created hc | failed hc =>
        cases hi
        cases hc.symm.trans hq
        exact .answered ⟨s, List.mem_cons_self⟩
      | stop hl =>
        refine .stopped ⟨s, ?_⟩
        rcases hl with ⟨rfl, -⟩ | ⟨rfl, -⟩ <;> cases hi
        · exact .inl List.mem_cons_self
        · exact .inr List.mem_cons_self
      | call | leased | denied | released => cases hi
      | want hc | refuse hc | drain hc | await hc | dispatch hc | filled hc | create hc
      | retire hc | settled hc | receipt hc | rejected hc | accepted hc | completed hc
      | closed hc =>
        cases hi
        cases hc.symm.trans hq
  · refine (f.cons (l, s)).keep (fun a ha => hi ?_) fun q _ hq => hb.others hi hq
    subst ha
    exact hb.runs

theorem Flight.turn {a : Act} {next : Option Act} (f : Flight tr s (some (c, a)) i u t)
    (ht : Turn c s a s' next) : Flight tr s' (next.map fun a => (c, a)) i u t := by
  cases f with
  | answered ha => exact .answered ha
  | stopped hst => exact .stopped hst
  | waiting hi hq htopic =>
    have hic : i ≠ c := by
      rintro rfl
      exact hi a rfl
    exact .waiting (idle_of_ne hic) (ht.others hic hq) htopic

end

/-- The request of a call for a producer is answered, or the call was ended, or it waits. -/
theorem Run.flights {tr : List (Label × Factory)} {s : Factory} (h : Run PublicOnly tr s) :
    ∀ c u t, .asked c u (.openProducer t) ∈ s.deeds → Flight tr s none c u t := by
  refine (Run.induct_orderly (I := fun tr s run => ∀ c u t,
    .asked c u (.openProducer t) ∈ s.deeds → Flight tr s run c u t) nofun ?_ ?_ h).2
  · intro tr s s₁ l run o ih _ hb i u t hm
    obtain ⟨es, he, -, -, hopen⟩ := hb.writes
    rw [he] at hm
    rcases List.mem_append.1 hm with hm | hm
    · exact (ih i u t hm).begins hb
    · obtain ⟨hask, -, rfl, w, k, -, hq, -⟩ := hopen i u t hm
      exact hask.flight ⟨_, hq⟩
  · intro tr s s₁ c a next o ih ht i u t hm
    obtain ⟨owner, hs⟩ := o.sound
    obtain ⟨es, he, -, -, hopen⟩ := ht.writes hs
    rw [he] at hm
    rcases List.mem_append.1 hm with hm | hm
    · exact (ih i u t hm).turn ht
    · obtain ⟨rfl, hask, rfl, -⟩ := hopen i u t hm
      obtain ⟨q, hq, -⟩ := (o.storied.act i a rfl).stale
      exact hask.flight ⟨q, hq⟩

/-- The error of a creation is what the one call that asked for the producer ended with. -/
theorem Run.returned {tr : List (Label × Factory)} {s : Factory} (h : Run PublicOnly tr s) :
    ∀ c u e, Answered tr c u (.opened (.error e)) →
      (∃ t, .asked c u (.openProducer t) ∈ s.deeds ∧
        s.calls.get? c = some (.ended (.failed (.producerCreation t e)))) ∧
      ∀ u' e', Answered tr c u' (.opened (.error e')) → u' = u ∧ e' = e := by
  refine (Run.induct_orderly (I := fun tr s _ => ∀ c u e, Answered tr c u (.opened (.error e)) →
      (∃ t, .asked c u (.openProducer t) ∈ s.deeds ∧
        s.calls.get? c = some (.ended (.failed (.producerCreation t e)))) ∧
      ∀ u' e', Answered tr c u' (.opened (.error e')) → u' = u ∧ e' = e)
    (fun _ _ _ ⟨_, hm⟩ => nomatch hm) ?_ ?_ h).2
  · intro tr s s₁ l run o ih _ hb
    obtain ⟨es, he, -⟩ := hb.writes
    -- A call that got its error is over and gets no other answer.
    have hlate : ∀ {c : CallId} {u u' : Ticket} {e : ClientError} {x : Answer} {s₀ : Factory},
        Answered tr c u (.opened (.error e)) → (Label.answer c u' x, s₀) ≠ (l, s) := by
      rintro c u u' e x s₀ ha heq
      cases heq
      obtain ⟨⟨t, -, hover⟩, -⟩ := ih c u e ha
      obtain ⟨p, hp, hno⟩ := hb.active rfl
      cases hp.symm.trans hover
      cases hno
    rintro c u e ⟨s₀, hm⟩
    rcases List.mem_cons.1 hm with heq | hm
    · cases heq
      cases hb with
      | @failed _ _ w k _ _ hc =>
        obtain ⟨-, -, hasked⟩ := (o.storied.story c _ hc fun _ => nofun).of_creating
        refine ⟨⟨w.topic, ?_, ?_⟩, ?_⟩
        · rw [he]
          exact List.mem_append_left _ (mem_deeds.2 ⟨hasked, rfl⟩)
        · exact get?_goTo hc
        · rintro u' e' ⟨s₁, hm⟩
          rcases List.mem_cons.1 hm with heq | hm
          · cases heq
            exact ⟨rfl, rfl⟩
          · exact (hlate ⟨s₁, hm⟩ rfl).elim
      | stop hl => rcases hl with ⟨h, -⟩ | ⟨h, -⟩ <;> cases h
    · obtain ⟨⟨t, hasked, hover⟩, huniq⟩ := ih c u e ⟨s₀, hm⟩
      refine ⟨⟨t, ?_, hb.over hover rfl⟩, ?_⟩
      · rw [he]
        exact List.mem_append_left _ hasked
      · rintro u' e' ⟨s₁, hm'⟩
        rcases List.mem_cons.1 hm' with heq | hm'
        · exact (hlate ⟨s₀, hm⟩ heq).elim
        · exact huniq u' e' ⟨s₁, hm'⟩
  · intro tr s s₁ c a next o ih ht i u e ha
    obtain ⟨owner, hs⟩ := o.sound
    obtain ⟨es, he, -⟩ := ht.writes hs
    obtain ⟨⟨t, hasked, hover⟩, huniq⟩ := ih i u e ha
    refine ⟨⟨t, ?_, o.over ht hover rfl⟩, huniq⟩
    rw [he]
    exact List.mem_append_left _ hasked

/-! ## 3. Before the first drain -/

section

variable {tr : List (Label × Factory)} {s s' : Factory} {c : CallId} {l : Label}
  {run : Option (CallId × Act)} {owner : CellId → String}

theorem Attached.turn {a : Act} {next : Option Act} (hs : Sound owner s (some (c, a)))
    (u : InUse s (some (c, a))) (h : Attached s (some (c, a))) (ht : Turn c s a s' next) :
    Attached s' (next.map fun a => (c, a)) where
  calls i p t k hp hk := by
    rcases ht.arrives hs hp hk with hcur | hp
    · exact hcur
    · have hold := h.calls i p t k hp hk
      cases u.remap hs ht with
      | same _ hcur =>
        rw [hcur]
        exact hold
      | added hnone _ hcur =>
        rw [hcur]
        refine (if_neg ?_).trans hold
        rintro rfl
        cases hnone.symm.trans hold
      | adopted hne =>
        -- The handle that is placed is in the cell that the map has.
        exact (hne (h.place c _ _ _ rfl)).elim
  place c w k v hrun := by cases ht <;> cases hrun

theorem Attached.begins (h : Attached s none) (hb : Begins s l s' run)
    (hl : IsDrain (l, s) = false) : Attached s' run := by
  have hmap : ∀ t, s'.cache.current? t = s.cache.current? t := fun t =>
    congrArg (Entries.find? t ·) (hb.map_eq hl)
  refine ⟨fun i p t k hp hk => ?_, fun c w k v hrun => ?_⟩
  · obtain ⟨q, hq, hqk⟩ := hb.arrives hp hk
    exact (hmap t).trans (h.calls i q t k hq hqk)
  · refine (hmap _).trans ?_
    subst hrun
    cases hb with
    | filled hc | created hc => exact h.calls c _ _ _ hc rfl

/-- What is so as long as the map was never emptied. -/
structure Undrained (tr : List (Label × Factory)) (s : Factory) (run : Option (CallId × Act)) :
    Prop where
  attached : Attached s run
  /-- A topic with a producer has its handle in the map, and no other producer was asked for. -/
  once : ∀ t l s₀, (l, s₀) ∈ tr → IsOpening t (l, s₀) = true → (∃ v, s.cache.handle? t = some v) ∧
    ∃ later, s.deeds = s₀.deeds ++ later ∧ ∀ c u, .asked c u (.openProducer t) ∉ later
  handles : ∀ c w v, Made tr c (.want w) → w.purpose ≠ .peek →
    s.calls.get? c = some (.ended (.handle v)) → s.cache.handle? w.topic = some v
  leases : ∀ c w n, Made tr c (.want w) → s.calls.get? c = some (.ended (.lease n)) →
    ∃ y, s.leases.get? n = some y ∧ s.cache.handle? w.topic = some y.handle

theorem undrained_new : Undrained [] new none where
  attached := by
    refine ⟨fun i p t k hp => ?_, fun _ _ => nofun⟩
    simp [new] at hp
  once _ _ _ hm := nomatch hm
  handles := fun _ _ _ ⟨_, hm, _⟩ => nomatch hm
  leases := fun _ _ _ ⟨_, hm, _⟩ => nomatch hm

/-- At a cell that the map has for its topic, a call has the turn only while the map has no handle. -/
theorem Attached.handle? {w : Want} {k : CellId} (h : Attached s none)
    (hc : s.calls.get? c = some (.queued w k)) (hturn : s.cache.HasTurn c k) :
    s.cache.handle? w.topic = none :=
  hturn.handle? (h.calls c _ _ _ hc rfl)

theorem Undrained.turn {a : Act} {next : Option Act} (o : Orderly tr s (some (c, a)))
    (h : Undrained tr s (some (c, a))) (ht : Turn c s a s' next) :
    Undrained tr s' (next.map fun a => (c, a)) := by
  obtain ⟨owner, hs⟩ := o.sound
  have hcached : ∀ {t v}, s.cache.handle? t = some v → s'.cache.handle? t = some v :=
    (o.inUse.remap hs ht).cached
  -- What the call that runs ends with is what it is granted, and that is in the map.
  have hgranted : ∀ {w w' : Want} {v : HandleId}, Made tr c (.want w) → a = .grant w' v →
      w.purpose ≠ .peek ∨ w'.purpose ≠ .peek → w' = w ∧ s'.cache.handle? w.topic = some v := by
    rintro w w' v hmade rfl hp
    obtain ⟨r, hmade', hfor⟩ := (o.storied.act c _ rfl).made
    cases (o.storied.requested.once c _ _ hmade hmade').trans hfor
    exact ⟨rfl, hcached (o.inUse.granted hs (hp.elim id id))⟩
  refine ⟨h.attached.turn hs o.inUse ht, fun t l s₀ hm ho => ?_, fun i w v hmade hp hi => ?_,
    fun i w n hmade hi => ?_⟩
  · obtain ⟨⟨v, hv⟩, later, heq, hno⟩ := h.once t l s₀ hm ho
    obtain ⟨es, he, -, -, hopen⟩ := ht.writes hs
    refine ⟨⟨v, hcached hv⟩, later ++ es, by rw [he, heq, List.append_assoc], fun i u hmem => ?_⟩
    rcases List.mem_append.1 hmem with hmem | hmem
    · exact hno i u hmem
    · obtain ⟨-, -, -, -, hnone⟩ := hopen i u t hmem
      cases hnone.symm.trans hv
  · rcases ht.yields hs hi with hi | ⟨rfl, hy⟩
    · exact hcached (h.handles i w v hmade hp hi)
    · cases hy
      exact (hgranted hmade rfl (.inl hp)).2
  · rcases ht.yields hs hi with hi | ⟨rfl, hy⟩
    · obtain ⟨y, hy, hv⟩ := h.leases i w n hmade hi
      exact ⟨y, ht.leases hy, hcached hv⟩
    · cases hy with
      | @lease w' v hp hadd =>
        refine ⟨{ handle := v }, ?_, (hgranted hmade rfl (.inr (by simp [hp]))).2⟩
        rw [hadd]
        exact (Registry.get?_add _ _ _).trans (if_pos rfl)

theorem Undrained.begins (o : Orderly tr s none) (h : Undrained tr s none) (hb : Begins s l s' run)
    (hl : IsDrain (l, s) = false) : Undrained ((l, s) :: tr) s' run := by
  obtain ⟨owner, hs⟩ := o.sound
  have hcached : ∀ {t v}, s.cache.handle? t = some v → s'.cache.handle? t = some v :=
    fun hv => hb.cached hs hl hv
  -- A call that was made just now has not ended.
  have hmade : ∀ {i r o'}, Made ((l, s) :: tr) i r → s.calls.get? i = some (.ended o') →
      Made tr i r := by
    rintro i r o' ⟨s₀, hm, hsize⟩ hi
    rcases List.mem_cons.1 hm with heq | hm
    · cases heq
      exact absurd (Registry.lt_size_of_get? hi) (Nat.not_lt.2 (Nat.le_of_eq hsize))
    · exact ⟨s₀, hm, hsize⟩
  refine ⟨h.attached.begins hb hl, fun t l₀ s₀ hm ho => ?_, fun i w v hmade' hp hi => ?_,
    fun i w n hmade' hi => ?_⟩
  · obtain ⟨es, he, -, -, hopen⟩ := hb.writes
    rcases List.mem_cons.1 hm with heq | hm
    · cases heq
      obtain ⟨c, u, m, w, k, u', rfl, hc, rfl⟩ := isOpening_inv ho
      cases hb with
      | created hc' =>
        cases hc.symm.trans hc'
        have hturn : s.cache.HasTurn c k := (hs.fits c _ hc fun _ => nofun).2
        refine ⟨⟨s.handles.size, (Cache.handle?_fill hturn s.handles.size w.topic).trans ?_⟩,
          es, he, fun i u hmem => ?_⟩
        · exact if_pos (h.attached.calls c _ _ _ hc rfl)
        · obtain ⟨-, h, -⟩ := hopen i u _ hmem
          cases h
      | stop hfinal => rcases hfinal with ⟨h, -⟩ | ⟨h, -⟩ <;> cases h
    · obtain ⟨⟨v, hv⟩, later, heq, hno⟩ := h.once t l₀ s₀ hm ho
      refine ⟨⟨v, hcached hv⟩, later ++ es, by rw [he, heq, List.append_assoc], fun i u hmem => ?_⟩
      rcases List.mem_append.1 hmem with hmem | hmem
      · exact hno i u hmem
      · obtain ⟨-, -, -, w, k, rfl, hq, hturn⟩ := hopen i u t hmem
        cases (h.attached.handle? hq hturn).symm.trans hv
  · rcases hb.moves hi with hi | he
    · exact hcached (h.handles i w v (hmade hmade' hi) hp hi)
    · cases he with
      | ended hno => exact (hno v rfl).elim
  · rcases hb.moves hi with hi | he
    · obtain ⟨y, hy, hv⟩ := h.leases i w n (hmade hmade' hi) hi
      obtain ⟨y', hy', heq⟩ := hb.leases hy
      exact ⟨y', hy', heq ▸ hcached hv⟩
    · cases he with
      | ended _ hno => exact (hno n rfl).elim

end

theorem Run.undrained {tr : List (Label × Factory)} {s : Factory} (h : Run PublicOnly tr s) :
    drainCount tr = 0 → Undrained tr s none := by
  refine (Run.induct_orderly (I := fun tr s run => drainCount tr = 0 → Undrained tr s run)
    (fun _ => undrained_new) ?_ ?_ h).2
  · intro tr s s₁ l run o ih _ hb hcount
    cases hl : IsDrain (l, s) with
    | true =>
      have hpos : drainCount ((l, s) :: tr) = drainCount tr + 1 := List.countP_cons_of_pos hl
      omega
    | false => exact (ih ((drainCount_cons hl).symm.trans hcount)).begins o hb hl
  · intro tr s s₁ c a next o ih ht hcount
    exact (ih hcount).turn o ht

/-! ## 4. Single flight -/

/-- A request in flight is one that its call waits for. -/
theorem InFlight.creating {tr : List (Label × Factory)} {s : Factory} (h : Run PublicOnly tr s)
    {c : CallId} {u : Ticket} {t : String} (f : InFlight tr s c u t) :
    ∃ w k, s.calls.get? c = some (.creating w k u) ∧ w.topic = t := by
  cases h.flights c u t (mem_deeds.2 ⟨f.asked, rfl⟩) with
  | waiting _ hc ht => exact ⟨_, _, hc, ht⟩
  | answered ha => exact (f.unanswered _ ha).elim
  | stopped hs => exact (f.unstopped hs).elim

/-- Creations are single-flight in every run: whatever callers want, whichever creations fail, and whichever
calls are aborted. -/
theorem single_flight {tr : List (Label × Factory)} {s : Factory} (h : Run PublicOnly tr s) :
    SingleFlight tr s where
  budget raw := by
    obtain ⟨ks, -, hle⟩ := h.budgeted (canonicalize raw)
    split at hle <;> omega
  alone hd t c u c' u' f f' := by
    obtain ⟨w, k, hc, rfl⟩ := f.creating h
    obtain ⟨w', k', hc', ht⟩ := f'.creating h
    obtain ⟨owner, hs⟩ := h.orderly.sound
    have hat := (h.undrained hd).attached
    -- Both have the turn at the one cell that the map has.
    have hk := hat.calls c _ _ _ hc rfl
    have hk' := hat.calls c' _ _ _ hc' rfl
    rw [ht, hk] at hk'
    cases hk'
    obtain ⟨x, hx, hturn, -⟩ := (hs.fits c _ hc nofun).2
    obtain ⟨x', hx', hturn', -⟩ := (hs.fits c' _ hc' nofun).2
    cases hx.symm.trans hx'
    cases hturn.symm.trans hturn'
    cases hc.symm.trans hc'
    exact ⟨rfl, rfl⟩
  once hd t l s₀ hm ho := ((h.undrained hd).once t l s₀ hm ho).2
  returned c u e ha := by
    obtain ⟨⟨t, hasked, hc⟩, -⟩ := h.returned c u e ha
    exact ⟨t, (mem_deeds.1 hasked).1, hc⟩
  own c raw t e hmade hc := by
    have st := h.orderly.storied
    obtain ⟨p, hp⟩ : ∃ p, Made tr c (.want ⟨canonicalize raw, p⟩) := hmade.elim (⟨_, ·⟩) (⟨_, ·⟩)
    obtain ⟨rfl, -, u, hasked, ha⟩ := st.uncreated hp hc
    exact ⟨rfl, u, hasked, ha, (h.returned c u e ha).2, fun c' d hm => (h.ticket_unique hm hasked).1⟩
  handles hd c raw v hmade hc := (h.undrained hd).handles c _ v hmade nofun hc
  leases hd c raw n hmade hc := (h.undrained hd).leases c _ n hmade hc

/-- Three callers of one topic in three spellings: the creation of the first fails, which gets the error,
and the second opens the producer for itself and the third. -/
theorem single_flight_handed_on :
    ∃ tr s, Run PublicOnly tr s ∧ SingleFlight tr s ∧ drainCount tr = 0 ∧
      s.calls.get? 0 = some (.ended (.failed
        (.producerCreation "persistent://public/default/t" .closed))) ∧
      s.calls.get? 1 = some (.ended (.handle 0)) ∧ s.calls.get? 2 = some (.ended (.lease 0)) := by
  have h : Run PublicOnly _ _ :=
    Run.new.play [.call (.createProducer "t"), .call (.createProducer "public/default/t"),
      .call (.acquire "persistent://public/default/t"), .resume 0, .resume 1, .resume 2,
      .answer 0 0 (.opened (.error .closed)), .resume 1, .answer 1 1 (.opened (.ok .sequential)),
      .resume 2]
      (by simp [PublicOnly, Request.IsPublic, Request.createProducer, Request.acquire]) rfl
  exact ⟨_, _, h, single_flight h, rfl, rfl, rfl, rfl⟩

end Factory

end TopicPublisher
