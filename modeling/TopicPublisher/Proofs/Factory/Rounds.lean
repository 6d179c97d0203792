import Mathlib.Data.List.Perm.Subperm
import TopicPublisher.Proofs.Factory.SingleFlight

/-!
# How often a topic is looked up

A call looks its topic up in rounds. Most calls have one: they find a handle, create one, or wait for the
one that another call creates. A call whose handle grants no leases any more when it is given looks the
topic up again. That takes a reset or a shutdown since it looked the topic up, or a takeover: while it
waits at the cell that the map has for the topic, a call at a cell that the map has no more opens its
producer, and the map takes a new cell with that one. Both are scarce. A cell leaves the map by a drain or
a takeover, and between two drains there is one takeover of a topic, at most.

Results:
1. `Turn.looks`, `Begins.looks`: only a look-up counts as one.
2. `Run.rounds`: every round but the last one of a call saw a drain or a takeover.
3. `Run.stranded`: who takes over was at its cell when the map was emptied.
4. `Run.scarce`: there are no more takeovers of a topic than drains.
5. `look_ups_bounded`: all this, in every run. `takeover_asked_later`: the producer that takes over may
   have been asked for after the drain, where a creation failed and the next call in line went on.
-/

namespace TopicPublisher

namespace Factory

/-! ## Definitions -/

def IsLookUp (c : CallId) : Event → Bool
  | .lookedUp i _ => i = c
  | _ => false

/-- The request for a producer that the wire client grants. -/
def Label.opens? : Label → Option Ticket
  | .answer _ u (.opened (.ok _)) => some u
  | _ => none

def Act.isLook : Act → Bool
  | .look _ => true
  | _ => false

/-- How often a call looked its topic up; the round that it is in. -/
def lookCount (s : Factory) (c : CallId) : Nat := s.events.countP (IsLookUp c)

/-- A call waits at a cell: in line, or for the producer that it asked for. -/
def WaitsAtCell (s : Factory) (c : CallId) (t : String) (k : CellId) : Prop :=
  ∃ p, s.calls.get? c = some p ∧ p.cell? = some (t, k)

/-- The wire client opens a producer of a topic for a call at a cell that the map has no more, and the
cell that the map has is empty. -/
def IsTakeover (t : String) : Label × Factory → Bool
  | (.answer c _ (.opened (.ok _)), s) => match s.calls.get? c, s.cache.current? t with
    | some (.creating w k _), some now => w.topic = t ∧ now ≠ k ∧ s.cache.value? now = none
    | _, _ => false
  | _ => false

/-- How often a producer of a topic took over. -/
def takeoverCount (tr : List (Label × Factory)) (t : String) : Nat := tr.countP (IsTakeover t)

/-- A step before which call `c` waits at the cell that the map has for its topic, and by which the map
has a new cell with a new handle instead. The handle is that of call `j`, of which `Early j u t` is
known, `u` being the ticket under which it asked for the producer. -/
inductive Supplants (Early : CallId → Ticket → String → Prop) (c : CallId) (s : Factory) : Label → Prop
  | mk {w : Want} {k k' : CellId} {j : CallId} {u : Ticket} {m : DispatchMode} {s' : Factory} :
      s.WaitsAtCell c w.topic k → s.cache.current? w.topic = some k → s.cache.value? k = none →
      s.calls.get? j = some (.creating w k' u) → Early j u w.topic →
      s.step (.answer j u (.opened (.ok m))) = some s' → s'.cache.current? w.topic ≠ some k →
      s'.cache.handle? w.topic = some s.handles.size →
      Supplants Early c s (.answer j u (.opened (.ok m)))

/-- In every round after which a call looked its topic up again, the map was emptied, or the call's cell
was supplanted by a producer of which `Early` is known from what happened before. The steps of a round
are those that begin when the call has looked its topic up so often. -/
def RoundsExplained (Early : List (Label × Factory) → CallId → Ticket → String → Prop)
    (tr : List (Label × Factory)) (s : Factory) : Prop :=
  ∀ c n, 0 < n → n < lookCount s c → ∃ later l s₀ before, tr = later ++ (l, s₀) :: before ∧
    lookCount s₀ c = n ∧ (IsDrain (l, s₀) = true ∨ Supplants (Early before) c s₀ l)

/-- Call `j` waited at a cell of the topic when a reset or a shutdown emptied the map. -/
def WaitedBefore (tr : List (Label × Factory)) (j : CallId) (_ : Ticket) (t : String) : Prop :=
  ∃ l s₀ k, (l, s₀) ∈ tr ∧ IsDrain (l, s₀) = true ∧ s₀.WaitsAtCell j t k

/-- Call `j` had asked for its producer when a reset or a shutdown emptied the map. -/
def AskedBefore (tr : List (Label × Factory)) (j : CallId) (u : Ticket) (t : String) : Prop :=
  ∃ l s₀, (l, s₀) ∈ tr ∧ IsDrain (l, s₀) = true ∧ .asked j u (.openProducer t) ∈ s₀.events

/-- How often calls look their topics up.

* `bound`: with each drain there may be two more rounds of a call.
* `found`: what a look-up finds in the map grants leases.
* `unspun`: no call looks a handle up over and over, or is refused a lease by the handle it was given. -/
structure LookUpsBounded (tr : List (Label × Factory)) (s : Factory) : Prop where
  explained : RoundsExplained WaitedBefore tr s
  bound : ∀ c, lookCount s c ≤ 1 + 2 * drainCount tr
  found : ∀ t v, s.cache.handle? t = some v → s.isRetiring v = false
  unspun : ∀ c, s.calls.get? c ≠ some .spinning

/-- In round `n` of call `c` the map was emptied, or the cell at which the call waited was taken over. -/
def Barred (tr : List (Label × Factory)) (c : CallId) (n : Nat) : Prop :=
  ∃ later e before, tr = later ++ e :: before ∧ lookCount e.2 c = n ∧ (IsDrain e = true ∨
    ∃ t k, e.2.WaitsAtCell c t k ∧ e.2.cache.current? t = some k ∧ IsTakeover t e = true)

/-- The map has the handle that a call goes on with after retiring others. -/
def NextMapped (s : Factory) : AfterRetiring → Prop
  | .give w v => s.cache.handle? w.topic = some v
  | _ => True

/-- The map has what the call waits for. A call that was not begun waits for nothing. -/
def Mapped (s : Factory) : Progress → Prop
  | .fresh _ => False
  | .queued w k => s.cache.current? w.topic = some k
  | .creating w k _ => s.cache.current? w.topic = some k
  | .retiring _ next => NextMapped s next
  | _ => True

/-- The call that runs will not look its topic up again. -/
def ActMapped (s : Factory) : Act → Prop
  | .look _ => False
  | .give _ v => s.isRetiring v = false
  | .grant _ _ => True
  | .place w k _ => s.cache.current? w.topic = some k
  | .retire _ _ next => NextMapped s next

/-- A call is about to place the handle that it has just created. -/
inductive Placing (s : Factory) (c : CallId) (w : Want) (k : CellId) :
    List (Label × Factory) → Prop
  | mk {tr : List (Label × Factory)} {s₀ : Factory} {u : Ticket} {m : DispatchMode} :
      s₀.calls.get? c = some (.creating w k u) → s₀.calls = s.calls →
      s₀.cache.entries = s.cache.entries → (∀ k', s.cache.value? k' = none → s₀.cache.value? k' = none) →
      (∀ i, lookCount s₀ i = lookCount s i) →
      Placing s c w k ((.answer c u (.opened (.ok m)), s₀) :: tr)

/-- The rounds of all calls, as far as they are. -/
structure Rounds (tr : List (Label × Factory)) (s : Factory) (run : Option (CallId × Act)) : Prop where
  unmade : ∀ c, s.calls.size ≤ c → lookCount s c = 0
  past : ∀ c n, 0 < n → n < lookCount s c → Barred tr c n
  calls : ∀ c p, s.calls.get? c = some p → (∀ a, run ≠ some (c, a)) → 0 < lookCount s c →
    Mapped s p ∨ Barred tr c (lookCount s c)
  act : ∀ c a, run = some (c, a) → 0 < lookCount s c → ActMapped s a ∨ Barred tr c (lookCount s c)
  placing : ∀ c w k v, run = some (c, .place w k v) → s.isRetiring v = false →
    s.cache.handle? w.topic = some v ∨ Placing s c w k tr
  unspun : ∀ c, s.calls.get? c ≠ some .spinning

/-- A call at a cell that the map has no more, while the map has no handle for the topic, was at that cell
when the map was emptied. -/
def Stranded (tr : List (Label × Factory)) (s : Factory) : Prop :=
  ∀ i t k, s.WaitsAtCell i t k → s.cache.current? t = some k ∨ (∃ v, s.cache.handle? t = some v) ∨
    ∃ l s₀, (l, s₀) ∈ tr ∧ IsDrain (l, s₀) = true ∧ s₀.WaitsAtCell i t k

/-- No producer of the topic can take over before the map is emptied again. -/
inductive Settled (s : Factory) (t : String) (run : Option (CallId × Act)) : Prop
  | handle {v : HandleId} : s.cache.handle? t = some v → Settled s t run
  | closed : s.cache.closed = true → Settled s t run
  | attached : (∀ i k, s.WaitsAtCell i t k → s.cache.current? t = some k) → Settled s t run
  /-- A handle of the topic is about to be placed. -/
  | placing {c : CallId} {w : Want} {k : CellId} {v : HandleId} : run = some (c, .place w k v) →
      w.topic = t → s.isRetiring v = false → Settled s t run

/-- There are no more takeovers of a topic than drains, and where there are as many, there is none before
the next drain. -/
structure Scarce (tr : List (Label × Factory)) (s : Factory) (t : String)
    (run : Option (CallId × Act)) : Prop where
  le : takeoverCount tr t ≤ drainCount tr
  settled : takeoverCount tr t = drainCount tr → Settled s t run

open SoundLemmas StoryLemmas

section

variable {tr : List (Label × Factory)} {s s' : Factory} {c i : CallId} {l : Label} {p : Progress}
  {run : Option (CallId × Act)} {owner : CellId → String} {t : String} {k : CellId}

/-! ## 1. Look-ups -/

theorem lookCount_write (s : Factory) (es : List Event) (c : CallId) :
    lookCount (s.write es) c = lookCount s c + es.countP (IsLookUp c) := by
  simp [lookCount, events, write]

theorem lookCount_note (s : Factory) (e : Event) (c : CallId) :
    lookCount (s.note e) c = lookCount s c + if IsLookUp c e = true then 1 else 0 := by
  simp [lookCount, events, note, List.countP_append, List.countP_singleton]

theorem lookCount_rouse (s : Factory) (cs : List CallId) (c : CallId) :
    lookCount (s.rouse cs) c = lookCount s c := by
  unfold rouse
  rw [lookCount_write, List.countP_eq_zero.2, Nat.add_zero]
  intro e he
  obtain ⟨i, -, rfl⟩ := List.mem_map.1 he
  exact Bool.false_ne_true

theorem lookCount_withdraw (s : Factory) (ts : List Ticket) (c : CallId) :
    lookCount (s.write (ts.map .withdrawn)) c = lookCount s c := by
  rw [lookCount_write, List.countP_eq_zero.2, Nat.add_zero]
  intro e he
  obtain ⟨t, -, rfl⟩ := List.mem_map.1 he
  exact Bool.false_ne_true

/-- An entry that is no look-up counts for nothing. -/
theorem lookCount_other (s : Factory) {e : Event} {c : CallId} (he : IsLookUp c e = false) :
    lookCount (s.note e) c = lookCount s c := by
  rw [lookCount_note, he, if_neg Bool.false_ne_true, Nat.add_zero]

theorem lookCount_lookedUp (s : Factory) (i : CallId) (t : String) (c : CallId) :
    lookCount (s.note (.lookedUp i t)) c = lookCount s c + if i = c then 1 else 0 := by
  rw [lookCount_note]
  simp [IsLookUp]

theorem lookCount_finish (s : Factory) (i : CallId) (o : Outcome) (c : CallId) :
    lookCount (s.finish i o) c = lookCount s c := lookCount_other (s.goTo i (.ended o)) rfl

theorem lookCount_start (s : Factory) (p : Progress) (c : CallId) :
    lookCount (s.start p) c = lookCount s c := lookCount_other { s with calls := s.calls.add p } rfl

theorem lookCount_ask (s : Factory) (i : CallId) (d : Demand) (c : CallId) :
    lookCount (s.ask i d) c = lookCount s c :=
  lookCount_other { s with tickets := s.tickets + 1 } rfl

/-- A turn that looks a topic up counts for the call that runs. -/
theorem Turn.looks {a : Act} {next : Option Act} (ht : Turn c s a s' next) (i : CallId) :
    lookCount s' i = lookCount s i + if a.isLook = true ∧ c = i then 1 else 0 := by
  cases ht with
  | @refused w =>
    rw [lookCount_finish, lookCount_lookedUp]
    simp [Act.isLook]
  | @found w =>
    rw [lookCount_lookedUp]
    simp [Act.isLook]
  | @spin w | @queue w | @lost w =>
    refine (lookCount_lookedUp s c w.topic i).trans ?_
    simp [Act.isLook]
  | @create w =>
    refine (lookCount_ask _ _ _ i).trans ((lookCount_lookedUp s c w.topic i).trans ?_)
    simp [Act.isLook]
  | handle | lease | fail | count => exact lookCount_finish _ _ _ i
  | @denied w v cs => exact lookCount_rouse _ cs i
  | send | enqueue | close => exact lookCount_ask _ _ _ i
  | promise => exact (lookCount_finish _ _ _ i).trans (lookCount_start _ _ i)
  | _ => rfl

theorem LetsGo.looks (hs : LetsGo s c p s') (i : CallId) : lookCount s' i = lookCount s i := by
  cases hs with
  | @dispatch _ _ _ cs | @queued _ _ cs => exact lookCount_rouse _ cs i
  | @creating _ _ _ cs | @sending _ _ _ cs | @completing _ _ _ cs =>
    exact (lookCount_rouse _ cs i).trans (lookCount_other _ rfl)
  | @retiring _ _ _ ts => exact lookCount_withdraw _ ts i
  | _ => rfl

theorem Begins.looks (hb : Begins s l s' run) (i : CallId) : lookCount s' i = lookCount s i := by
  cases hb with
  | call => exact lookCount_start _ _ i
  | refuse | settled => exact lookCount_finish _ _ _ i
  | drain => exact lookCount_other _ rfl
  | dispatch | create => exact lookCount_ask _ _ _ i
  | @created _ _ _ _ _ cs => exact (lookCount_rouse _ cs i).trans (lookCount_other _ rfl)
  | @failed _ _ _ _ _ cs | @receipt _ _ _ _ cs | @rejected _ _ _ _ cs | @completed _ _ _ _ _ cs =>
    exact (lookCount_finish _ _ _ i).trans (lookCount_rouse _ cs i)
  | accepted => exact (lookCount_finish _ _ _ i).trans (lookCount_start _ _ i)
  | stop _ _ hs => exact (lookCount_other _ rfl).trans (hs.looks i)
  | @denied _ cs | @released _ _ cs => exact lookCount_rouse _ cs i
  | _ => rfl

/-! ## 2. What becomes of the map -/

/-- A cell leaves the map at a turn only if the call that runs places a handle of its topic, which has
none, from another cell. -/
theorem Remap.kept {a : Act} {b b' : Cache} (m : Remap b a b') (hk : b.current? t = some k) :
    b'.current? t = some k ∨ ∃ w k' v, a = .place w k' v ∧ w.topic = t ∧ k ≠ k' ∧
      b.value? k = none ∧ b'.handle? t = some v := by
  cases m with
  | same _ hcur => exact .inl ((congrFun hcur t).trans hk)
  | @added _ _ t₀ hnone _ hcur =>
    refine .inl ((congrFun hcur t).trans ((if_neg ?_).trans hk))
    rintro rfl
    cases hnone.symm.trans hk
  | @adopted _ w k' v hne hnone hval hcur =>
    by_cases ht : t = w.topic
    · subst ht
      refine .inr ⟨w, k', v, rfl, rfl, fun he => hne (he ▸ hk), ?_, ?_⟩
      · unfold Cache.handle? at hnone
        rw [hk] at hnone
        exact hnone
      · exact Cache.handle?_eq_some_iff.2 ⟨_, (congrFun hcur _).trans (if_pos rfl),
          (congrFun hval _).trans (if_pos rfl)⟩
    · exact .inl ((congrFun hcur t).trans ((if_neg ht).trans hk))

theorem Begins.current?_eq (hb : Begins s l s' run) (hl : IsDrain (l, s) = false) (t : String) :
    s'.cache.current? t = s.cache.current? t := congrArg (Entries.find? t ·) (hb.map_eq hl)

theorem isTakeover_of {w : Want} {k' : CellId} {u u' : Ticket} {m : DispatchMode}
    (hc : s.calls.get? c = some (.creating w k' u')) (hk : s.cache.current? w.topic = some k)
    (hne : k ≠ k') (hv : s.cache.value? k = none) :
    IsTakeover w.topic (.answer c u (.opened (.ok m)), s) = true := by
  simp [IsTakeover, hc, hk, hne, hv]

theorem isTakeover_inv (h : IsTakeover t (l, s) = true) :
    ∃ c u m w k k' u', l = .answer c u (.opened (.ok m)) ∧
      s.calls.get? c = some (.creating w k' u') ∧ w.topic = t ∧ s.cache.current? t = some k ∧
      k ≠ k' ∧ s.cache.value? k = none := by
  unfold IsTakeover at h
  split at h
  · next heq =>
    cases heq
    split at h
    · next hc hk =>
      obtain ⟨ht, hne, hv⟩ := of_decide_eq_true h
      exact ⟨_, _, _, _, _, _, _, rfl, hc, ht, hk, hne, hv⟩
    · cases h
  · cases h

/-! ## 3. Rounds -/

theorem Barred.cons {n : Nat} (h : Barred tr c n) (x : Label × Factory) : Barred (x :: tr) c n := by
  obtain ⟨later, e, before, rfl, hn, hb⟩ := h
  exact ⟨x :: later, e, before, rfl, hn, hb⟩

theorem NextMapped.mono {after : AfterRetiring} (h : NextMapped s after)
    (hkeep : ∀ {t v}, s.cache.handle? t = some v → s'.cache.handle? t = some v) :
    NextMapped s' after := by
  cases after with
  | give => exact hkeep h
  | refuse | count => trivial

/-- What a call waits for stays in the map at a turn of another one, unless it is taken over. -/
theorem Rounds.keep {a : Act} {next : Option Act} (o : Orderly tr s (some (c, a)))
    (h : Rounds tr s (some (c, a))) (ht : Turn c s a s' next) (hp : s.calls.get? i = some p)
    (hm : Mapped s p) : Mapped s' p ∨ Barred tr i (lookCount s i) := by
  obtain ⟨owner, hs⟩ := o.sound
  have hmap := o.inUse.remap hs ht
  have hcell : ∀ {w : Want} {k : CellId}, p.cell? = some (w.topic, k) →
      s.cache.current? w.topic = some k →
      s'.cache.current? w.topic = some k ∨ Barred tr i (lookCount s i) := by
    intro w k hcell hk
    rcases hmap.kept hk with hk' | ⟨w', k', v, rfl, ht', hne, hv, hin⟩
    · exact .inl hk'
    · have hr : s.isRetiring v = false := by
        refine Bool.eq_false_iff.2 fun hr => ?_
        have hleasing := (o.inUse.turn hs ht).leasing _ _ hin
        exact absurd ((isRetiring_later ht.later hr).symm.trans hleasing) nofun
      rcases h.placing c w' k' v rfl hr with hold | hplacing
      · rw [ht'] at hold
        obtain ⟨j, hj, hjv⟩ := Cache.handle?_eq_some_iff.1 hold
        cases hj.symm.trans hk
        cases hjv.symm.trans hv
      · -- The step began with the producer of the call that places it.
        cases hplacing with
        | mk hc hcalls hentries hvalue hlooks =>
          have hcur : ∀ t, Cache.current? _ t = s.cache.current? t := fun t =>
            congrArg (Entries.find? t ·) hentries
          refine .inr ⟨[], _, _, rfl, hlooks i, .inr ⟨w.topic, k, ⟨p, ?_, hcell⟩, ?_, ?_⟩⟩
          · exact (congrArg (Registry.get? · i) hcalls).trans hp
          · exact (hcur _).trans hk
          · rw [← ht']
            exact isTakeover_of hc ((hcur _).trans (ht' ▸ hk)) hne (hvalue k hv)
  cases p with
  | fresh => exact hm.elim
  | queued w k => exact hcell (w := w) rfl hm
  | creating w k => exact hcell (w := w) rfl hm
  | retiring rs after => exact .inl (NextMapped.mono hm hmap.cached)
  | _ => exact .inl trivial

/-- No call gets to look the same handle up over and over. -/
theorem Turn.unspun {a : Act} {next : Option Act} (o : Orderly tr s (some (c, a)))
    (h : ∀ i, s.calls.get? i ≠ some .spinning) (ht : Turn c s a s' next) (i : CallId) :
    s'.calls.get? i ≠ some .spinning := by
  obtain ⟨owner, hs⟩ := o.sound
  have hgo : ∀ {p : Progress}, p ≠ .spinning →
      (s.calls.update c fun _ => p).get? i ≠ some .spinning := by
    intro p hp hi
    rcases Registry.get?_update_const hi with ⟨-, he⟩ | ⟨-, hi⟩
    · exact hp he.symm
    · exact h i hi
  cases ht with
  | spin _ hin _ hr => exact absurd (hr.symm.trans (o.inUse.leasing _ _ hin)) nofun
  | denied hp hr =>
    obtain ⟨htopic, hleasing⟩ := hs.act c _ rfl
    obtain ⟨x, hx, -⟩ := topic?_eq_some_iff.1 htopic
    have hretiring := isRetiring_iff.2 ⟨x, hx, hr x hx⟩
    exact absurd (hretiring.symm.trans (hleasing.resolve_left hp)) nofun
  | refused | create | queue | handle | lease | send | enqueue | fail | count | wait =>
    exact hgo nofun
  | promise =>
    intro hi
    rcases Registry.get?_update_const hi with ⟨-, he⟩ | ⟨-, hi⟩
    · cases he
    · have hi := (Registry.get?_add _ _ _).symm.trans hi
      split at hi
      · cases hi
      · exact h i hi
  | _ => exact h i

/-- A call that goes on without looking its topic up goes on with what the map has. -/
theorem Rounds.act_turn {a a' : Act} (o : Orderly tr s (some (c, a))) (h : Rounds tr s (some (c, a)))
    (ht : Turn c s a s' (some a')) (hpos : 0 < lookCount s' c) :
    ActMapped s' a' ∨ Barred tr c (lookCount s' c) := by
  obtain ⟨owner, hs⟩ := o.sound
  have hact : a.isLook = false → ActMapped s a ∨ Barred tr c (lookCount s' c) := by
    intro ha
    have hcount : lookCount s' c = lookCount s c := by
      rw [ht.looks, ha, if_neg nofun, Nat.add_zero]
    rw [hcount] at hpos ⊢
    exact h.act c a rfl hpos
  cases ht with
  | found | keep | shut => exact .inl trivial
  | @placed w k v v' x cache hp hout =>
    have hplaced := Cache.place_placed s.cache (s.isRetiring v) w.topic k v
    rw [hp] at hplaced
    refine (hact rfl).imp (fun hk => ?_) id
    -- The call's cell is the one that the map has, so the handle in it grants leases.
    have hin := Cache.handle?_eq_some_iff.2 ⟨k, hk, (hs.act c _ rfl).2⟩
    have hr := o.inUse.leasing _ _ hin
    rcases hout with rfl | rfl <;> cases hplaced <;> exact hr
  | @superseded w k v winner loser cache hp =>
    have hplaced := Cache.place_placed s.cache (s.isRetiring v) w.topic k v
    rw [hp] at hplaced
    cases hplaced with
    | superseded _ _ _ hwin => exact .inl hwin
  | again _ hr =>
    refine .inr ((hact rfl).resolve_left fun hm => ?_)
    exact absurd (hr.symm.trans hm) nofun
  | skip | elsewhere => exact hact rfl
  | close | park => exact (hact rfl).imp (fun hm => NextMapped.mono hm fun hin => hin) id
  | goOn => exact (hact rfl).imp (fun hin => o.inUse.leasing _ _ hin) id

theorem Rounds.turn {a : Act} {next : Option Act} (o : Orderly tr s (some (c, a)))
    (h : Rounds tr s (some (c, a))) (ht : Turn c s a s' next) :
    Rounds tr s' (next.map fun a => (c, a)) where
  unmade i hi := by
    obtain ⟨q, hq, -⟩ := (o.storied.act c a rfl).stale
    have hi := Nat.le_trans ht.calls_size hi
    have hne : c ≠ i := Nat.ne_of_lt (Nat.lt_of_lt_of_le (Registry.lt_size_of_get? hq) hi)
    rw [ht.looks, h.unmade i hi, if_neg fun he => hne he.2]
  past i n hpos hn := by
    rw [ht.looks] at hn
    by_cases hlt : n < lookCount s i
    · exact h.past i n hpos hlt
    · -- The call that runs looks its topic up once more.
      split at hn
      · next hlook =>
        obtain ⟨ha, rfl⟩ := hlook
        obtain rfl : n = lookCount s c := by omega
        cases a with
        | look => exact (h.act c _ rfl hpos).resolve_left id
        | _ => cases ha
      · exact (hlt hn).elim
  calls i p hp hrun hpos := by
    obtain ⟨owner, hs⟩ := o.sound
    have hcount : i ≠ c → lookCount s' i = lookCount s i := by
      intro hi
      rw [ht.looks, if_neg fun he => hi he.2.symm, Nat.add_zero]
    cases ht.moves hs hp with
    | stays hp hnext =>
      have hi : i ≠ c := by
        rintro rfl
        obtain ⟨a', ha'⟩ := Option.ne_none_iff_exists'.1 (hnext rfl)
        exact hrun a' (ha' ▸ rfl)
      rw [hcount hi] at hpos ⊢
      rcases h.calls i p hp (fun a' ha' => hi (eq_of_run i a' ha')) hpos with hm | hbar
      · exact h.keep o ht hp hm
      · exact .inr hbar
    | gets hi _ hr =>
      subst hi
      cases hr with
      | queued _ hcur | creating _ hcur => exact .inl hcur
      | retiring =>
        have hcount : lookCount s' i = lookCount s i := ht.looks i
        rw [hcount] at hpos ⊢
        exact (h.act i _ rfl hpos).imp
          (fun hm => NextMapped.mono hm (o.inUse.remap hs ht).cached) id
      | _ => exact .inl trivial
    | begun hi =>
      subst hi
      obtain ⟨q, hq, -⟩ := (o.storied.act c a rfl).stale
      rw [hcount (Nat.ne_of_gt (Registry.lt_size_of_get? hq)), h.unmade _ (Nat.le_refl _)] at hpos
      exact (Nat.lt_irrefl 0 hpos).elim
  act i a' hrun hpos := by
    obtain ⟨a'', rfl, he⟩ := Option.map_eq_some_iff.1 hrun
    cases he
    exact h.act_turn o ht hpos
  placing i w k v hrun := by cases ht <;> cases hrun
  unspun := ht.unspun o h.unspun

/-- What a call waits for stays in the map at the beginning of a step, unless all is taken out. -/
theorem Mapped.begins (o : Orderly tr s none) (hb : Begins s l s' run)
    (hl : IsDrain (l, s) = false) (hm : Mapped s p) : Mapped s' p := by
  obtain ⟨owner, hs⟩ := o.sound
  cases p with
  | queued | creating => exact (hb.current?_eq hl _).trans hm
  | retiring => exact NextMapped.mono hm (hb.cached hs hl)
  | fresh => exact hm
  | _ => trivial

theorem Rounds.begins (o : Orderly tr s none) (h : Rounds tr s none) (hb : Begins s l s' run) :
    Rounds ((l, s) :: tr) s' run where
  unmade i hi := (hb.looks i).trans (h.unmade i (Nat.le_trans hb.calls_size hi))
  past i n hpos hn := (h.past i n hpos (hb.looks i ▸ hn)).cons _
  calls i p hp _ hpos := by
    rw [hb.looks] at hpos ⊢
    cases hl : IsDrain (l, s) with
    | true => exact .inr ⟨[], (l, s), tr, rfl, rfl, .inl hl⟩
    | false =>
      have hkeep : ∀ {q : Progress}, s.calls.get? i = some q →
          Mapped s' q ∨ Barred ((l, s) :: tr) i (lookCount s i) := fun hq =>
        (h.calls i _ hq (fun _ => nofun) hpos).imp (Mapped.begins o hb hl) (·.cons _)
      rcases hb.moves hp with hp | he
      · exact hkeep hp
      · cases he with
        | fresh _ hi =>
          rw [h.unmade i (Nat.le_of_eq hi.symm)] at hpos
          exact (Nat.lt_irrefl 0 hpos).elim
        | creating hc =>
          have hq := hkeep hc
          exact hq
        | _ => exact .inl trivial
  act i a hrun hpos := by
    rw [hb.looks] at hpos ⊢
    cases hl : IsDrain (l, s) with
    | true => exact .inr ⟨[], (l, s), tr, rfl, rfl, .inl hl⟩
    | false =>
      have hkeep : ∀ {q : Progress}, s.calls.get? i = some q →
          Mapped s' q ∨ Barred ((l, s) :: tr) i (lookCount s i) := fun hq =>
        (h.calls i _ hq (fun _ => nofun) hpos).imp (Mapped.begins o hb hl) (·.cons _)
      subst hrun
      cases hb with
      | want hc | filled hc | retire hc | created hc | closed hc => exact hkeep hc
      | drain => exact .inl trivial
  placing i w k v hrun hr := by
    obtain ⟨owner, hs⟩ := o.sound
    subst hrun
    cases hb with
    | filled hc hv =>
      have htopic := topic?_of_cell hs (hs.fits i _ hc fun _ => nofun) hv
      rcases o.inUse.mapped v w.topic htopic hr with hin | ⟨_, _, _, he⟩
      · exact .inl hin
      · cases he
    | @created _ u _ _ m cs hc =>
      have hb := @Begins.created s i u w k m cs hc
      exact .inr (.mk hc rfl rfl (fun k' hk => hb.unfilled hs hk) fun j => (hb.looks j).symm)
  unspun i hi := by
    rcases hb.moves hi with hi | he
    · exact h.unspun i hi
    · cases he

theorem rounds_new : Rounds [] new none where
  unmade _ _ := rfl
  past _ _ hpos hn := absurd hn (Nat.not_lt.2 (Nat.le_of_lt hpos))
  calls _ _ _ _ hpos := (Nat.lt_irrefl 0 hpos).elim
  act := fun _ _ => nofun
  placing := fun _ _ => nofun
  unspun i hi := by simp [new] at hi

end

theorem Run.rounds {tr : List (Label × Factory)} {s : Factory} (h : Run PublicOnly tr s) :
    Rounds tr s none :=
  (Run.induct_orderly (I := Rounds) rounds_new (fun o r _ hb => r.begins o hb)
    (fun o r ht => r.turn o ht) h).2

/-! ## 4. Takeovers -/

section

variable {tr : List (Label × Factory)} {s s' : Factory} {c : CallId} {l : Label}
  {run : Option (CallId × Act)} {owner : CellId → String} {t : String} {k : CellId}

theorem Stranded.turn {a : Act} {next : Option Act} (o : Orderly tr s (some (c, a)))
    (h : Stranded tr s) (ht : Turn c s a s' next) : Stranded tr s' := by
  obtain ⟨owner, hs⟩ := o.sound
  have hmap := o.inUse.remap hs ht
  rintro i t k ⟨p, hp, hk⟩
  rcases ht.arrives hs hp hk with hcur | hp
  · exact .inl hcur
  · rcases h i t k ⟨p, hp, hk⟩ with hcur | ⟨v, hv⟩ | hdrain
    · rcases hmap.kept hcur with hcur | ⟨_, _, v, -, -, -, -, hv⟩
      · exact .inl hcur
      · exact .inr (.inl ⟨v, hv⟩)
    · exact .inr (.inl ⟨v, hmap.cached hv⟩)
    · exact .inr (.inr hdrain)

theorem Stranded.begins (o : Orderly tr s none) (h : Stranded tr s) (hb : Begins s l s' run) :
    Stranded ((l, s) :: tr) s' := by
  obtain ⟨owner, hs⟩ := o.sound
  rintro i t k ⟨p, hp, hk⟩
  have hwaits : s.WaitsAtCell i t k := hb.arrives hp hk
  cases hl : IsDrain (l, s) with
  | true => exact .inr (.inr ⟨l, s, List.mem_cons_self, hl, hwaits⟩)
  | false =>
    rcases h i t k hwaits with hcur | ⟨v, hv⟩ | ⟨l', s₀, hm, hd, hwaits⟩
    · exact .inl ((hb.current?_eq hl t).trans hcur)
    · exact .inr (.inl ⟨v, hb.cached hs hl hv⟩)
    · exact .inr (.inr ⟨l', s₀, List.mem_cons_of_mem _ hm, hd, hwaits⟩)

theorem Settled.turn {a : Act} {next : Option Act} (o : Orderly tr s (some (c, a)))
    (h : Settled s t (some (c, a))) (ht : Turn c s a s' next) :
    Settled s' t (next.map fun a => (c, a)) := by
  obtain ⟨owner, hs⟩ := o.sound
  have hmap := o.inUse.remap hs ht
  cases h with
  | handle hv => exact .handle (hmap.cached hv)
  | closed hcl => exact .closed (ht.closed_eq.trans hcl)
  | attached hall =>
    by_cases hin : ∃ v, s'.cache.handle? t = some v
    · exact .handle hin.choose_spec
    · refine .attached fun i k => ?_
      rintro ⟨p, hp, hk⟩
      rcases ht.arrives hs hp hk with hcur | hp
      · exact hcur
      · rcases hmap.kept (hall i k ⟨p, hp, hk⟩) with hcur | ⟨_, _, v, -, -, -, -, hv⟩
        · exact hcur
        · exact (hin ⟨v, hv⟩).elim
  | @placing _ w k v he htopic hr =>
    cases he
    subst htopic
    have hplaced := Cache.place_placed s.cache (s.isRetiring v) w.topic k v
    cases ht with
    | @placed _ _ _ v' p cache hp hout =>
      rw [hp] at hplaced
      cases hplaced with
      | dropped _ hr' | retired _ hr' => exact absurd (hr'.symm.trans hr) nofun
      | kept _ _ hin =>
        rcases hin with hk | hin
        · exact .handle (Cache.handle?_eq_some_iff.2 ⟨k, hk, (hs.act c _ rfl).2⟩)
        · exact .handle hin
      | adopted =>
        exact .handle ((Cache.handle?_addCell hs.tidy w.topic w.topic _).trans (if_pos rfl))
      | closed | superseded => rcases hout with h | h <;> cases h
    | superseded hp =>
      rw [hp] at hplaced
      cases hplaced with
      | superseded _ _ _ hin => exact .handle hin
    | shut hp =>
      rw [hp] at hplaced
      cases hplaced with
      | closed hcl => exact .closed hcl

/-- A takeover is no drain. -/
theorem isDrain_of_isTakeover (h : IsTakeover t (l, s) = true) : IsDrain (l, s) = false := by
  obtain ⟨c, u, m, w, k, k', u', rfl, -⟩ := isTakeover_inv h
  rfl

/-- Where a producer takes over, the topic was not settled; it is now. -/
theorem Settled.taken (hs : Sound owner s none) (hb : Begins s l s' run)
    (h : IsTakeover t (l, s) = true) : ¬ Settled s t none ∧ Settled s' t run := by
  obtain ⟨c, u, m, w, k, k', u', rfl, hc, rfl, hk, hne, hv⟩ := isTakeover_inv h
  constructor
  · intro hset
    cases hset with
    | handle hin =>
      obtain ⟨j, hj, hjv⟩ := Cache.handle?_eq_some_iff.1 hin
      cases hj.symm.trans hk
      cases hjv.symm.trans hv
    | closed hcl =>
      unfold Cache.current? at hk
      rw [hs.tidy.closed hcl] at hk
      cases hk
    | attached hall => exact hne (Option.some.inj (hk.symm.trans (hall c k' ⟨_, hc, rfl⟩)))
    | placing he => cases he
  · cases hb with
    | created hc' =>
      cases hc'.symm.trans hc
      refine .placing rfl rfl ?_
      show (((s.handles.add { topic := w.topic, mode := m }).get? s.handles.size).map
        Handle.retiring).getD false = false
      rw [Registry.get?_add, if_pos rfl]
      rfl
    | stop hfinal => rcases hfinal with ⟨h, -⟩ | ⟨h, -⟩ <;> cases h

theorem Settled.begins (hs : Sound owner s none) (h : Settled s t none) (hb : Begins s l s' run)
    (hl : IsDrain (l, s) = false) : Settled s' t run := by
  cases h with
  | handle hv => exact .handle (hb.cached hs hl hv)
  | closed hcl =>
    rcases hb.closed_or with heq | ⟨hcl', -⟩
    · exact .closed (heq.trans hcl)
    · exact .closed hcl'
  | attached hall =>
    refine .attached fun i k => ?_
    rintro ⟨p, hp, hk⟩
    exact (hb.current?_eq hl t).trans (hall i k (hb.arrives hp hk))
  | placing he => cases he

theorem Scarce.begins (o : Orderly tr s none) (h : Scarce tr s t none) (hb : Begins s l s' run) :
    Scarce ((l, s) :: tr) s' t run := by
  obtain ⟨owner, hs⟩ := o.sound
  cases hd : IsDrain (l, s) with
  | true =>
    have ht : IsTakeover t (l, s) = false :=
      Bool.eq_false_iff.2 fun ht => absurd ((isDrain_of_isTakeover ht).symm.trans hd) nofun
    have htakeovers : takeoverCount ((l, s) :: tr) t = takeoverCount tr t :=
      List.countP_cons_of_neg (by simp [ht])
    have hdrains : drainCount ((l, s) :: tr) = drainCount tr + 1 := List.countP_cons_of_pos hd
    have hle := h.le
    exact ⟨by omega, fun heq => by omega⟩
  | false =>
    have hdrains : drainCount ((l, s) :: tr) = drainCount tr := drainCount_cons hd
    cases ht : IsTakeover t (l, s) with
    | true =>
      obtain ⟨hnot, hset⟩ := Settled.taken hs hb ht
      have htakeovers : takeoverCount ((l, s) :: tr) t = takeoverCount tr t + 1 :=
        List.countP_cons_of_pos ht
      have hlt := Nat.lt_of_le_of_ne h.le fun heq => hnot (h.settled heq)
      exact ⟨by omega, fun _ => hset⟩
    | false =>
      have htakeovers : takeoverCount ((l, s) :: tr) t = takeoverCount tr t :=
        List.countP_cons_of_neg (by simp [ht])
      have hset : takeoverCount ((l, s) :: tr) t = drainCount ((l, s) :: tr) →
          Settled s t none := fun heq => h.settled (by rwa [htakeovers, hdrains] at heq)
      have hle := h.le
      exact ⟨by omega, fun heq => (hset heq).begins hs hb hd⟩

theorem not_waits_new : ¬ new.WaitsAtCell c t k := by
  rintro ⟨p, hp, -⟩
  rw [show new.calls = .empty from rfl, Registry.get?_empty] at hp
  cases hp

end

theorem Run.stranded {tr : List (Label × Factory)} {s : Factory} (h : Run PublicOnly tr s) :
    Stranded tr s := by
  refine (Run.induct_orderly (I := fun tr s _ => Stranded tr s) ?_ (fun o r _ hb => r.begins o hb)
    (fun o r ht => r.turn o ht) h).2
  exact fun i t k hwaits => (not_waits_new hwaits).elim

theorem Run.scarce {tr : List (Label × Factory)} {s : Factory} (h : Run PublicOnly tr s)
    (t : String) : Scarce tr s t none := by
  refine (Run.induct_orderly (I := fun tr s run => Scarce tr s t run) ?_
    (fun o r _ hb => r.begins o hb) (fun o r ht => ⟨r.le, fun heq => (r.settled heq).turn o ht⟩) h).2
  exact ⟨Nat.le_refl _, fun _ => .attached fun i k hwaits => (not_waits_new hwaits).elim⟩

/-! ## 5. Rounds and drains -/

section

variable {tr : List (Label × Factory)} {s s' : Factory} {c : CallId}

/-- A run up to one of its steps. -/
theorem Run.cut {ok : Factory → Label → Prop} (h : Run ok tr s) {later before : List (Label × Factory)}
    {l : Label} {s₀ : Factory} (htr : tr = later ++ (l, s₀) :: before) :
    Run ok before s₀ ∧ ∃ s₁, s₀.step l = some s₁ := by
  induction h generalizing later with
  | new => cases later <;> cases htr
  | step hrun _ hs ih =>
    cases later with
    | nil =>
      cases htr
      exact ⟨hrun, _, hs⟩
    | cons e later =>
      cases htr
      exact ih rfl

theorem Run.ticket_lt (h : Run PublicOnly tr s) {u : Ticket} {d : Demand}
    (hm : .asked c u d ∈ s.events) : u < s.tickets := by
  have hmem : u ∈ s.deeds.filterMap Event.ticket? :=
    List.mem_filterMap.2 ⟨_, mem_deeds.2 ⟨hm, rfl⟩, rfl⟩
  rw [h.numbered] at hmem
  exact List.mem_range.1 hmem

theorem cache_grant (s : Factory) (c : CallId) (w : Want) (v : HandleId) :
    (s.grant c w v).cache = s.cache := by
  obtain ⟨s₁, next, ht, he, -⟩ := turn_of_act c s (.grant w v)
  have he : s.grant c w v = s₁.conclude c next := he
  rw [he]
  cases ht <;> rfl

/-- A handle that grants leases is given without a change of the map. -/
theorem cache_give {w : Want} {v : HandleId} (hr : s.isRetiring v = false) :
    (s.give c w v).cache = s.cache := by
  unfold give
  split
  · rfl
  · rw [hr]
    exact cache_grant s c w v

/-- By a takeover the map gets a new cell with the new producer's handle. -/
theorem takeover_effect {w : Want} {k k' : CellId} {u u' : Ticket} {m : DispatchMode}
    (h : Run PublicOnly tr s) (hc : s.calls.get? c = some (.creating w k' u'))
    (hk : s.cache.current? w.topic = some k) (hne : k ≠ k') (hv : s.cache.value? k = none)
    (hstep : s.step (.answer c u (.opened (.ok m))) = some s') :
    u' = u ∧ s'.cache.current? w.topic ≠ some k ∧
      s'.cache.handle? w.topic = some s.handles.size := by
  obtain ⟨owner, hs⟩ := h.orderly.sound
  have hu : u' = u := by
    simp only [step, hc, Option.bind_some, answer] at hstep
    split at hstep
    · next hu => exact hu.symm
    · cases hstep
  refine ⟨hu, ?_⟩
  obtain ⟨s₁, run, hb, rfl⟩ := begins_of_step hstep
  have hs₁ := hs.begins hb
  cases hb with
  | stop hfinal => rcases hfinal with ⟨h, -⟩ | ⟨h, -⟩ <;> cases h
  | @created _ _ _ _ _ cs hc' =>
    cases hc'.symm.trans hc
    generalize hs₂ : (Factory.note _ (.opened c s.handles.size)).rouse cs = s₂ at hs₁ ⊢
    have hcache : s₂.cache = s.cache.setCell k' fun x => (x.fill s.handles.size).1 := hs₂ ▸ rfl
    have hcur : s₂.cache.current? w.topic = some k := (congrArg (Cache.current? · _) hcache).trans hk
    have hval : s₂.cache.value? k = none := by
      rw [hcache, Cache.value?_setCell, if_neg (Ne.symm hne)]
      exact hv
    have hleasing : s₂.isRetiring s.handles.size = false := by
      rw [← hs₂]
      show (((s.handles.add { topic := w.topic, mode := m }).get? s.handles.size).map
        Handle.retiring).getD false = false
      rw [Registry.get?_add, if_pos rfl]
      rfl
    have hopen : s₂.cache.closed = false := by
      refine Bool.eq_false_iff.2 fun hcl => ?_
      unfold Cache.current? at hcur
      rw [hs₁.tidy.closed hcl] at hcur
      cases hcur
    have hplace : s₂.cache.place (s₂.isRetiring s.handles.size) w.topic k' s.handles.size =
        (.cached s.handles.size, s₂.cache.addCell w.topic { value := some s.handles.size }) := by
      rw [hleasing]
      simp only [Cache.place, hopen, Bool.false_eq_true, if_false, hcur, hne, hval]
      rfl
    show (s₂.place c w k' s.handles.size).cache.current? w.topic ≠ some k ∧
      (s₂.place c w k' s.handles.size).cache.handle? w.topic = some s.handles.size
    have heq : (s₂.place c w k' s.handles.size).cache =
        s₂.cache.addCell w.topic { value := some s.handles.size } := by
      simp only [Factory.place, hplace]
      exact cache_give hleasing
    rw [heq]
    refine ⟨fun hcell => ?_, ?_⟩
    · rw [Cache.current?_addCell, if_pos rfl] at hcell
      exact Nat.ne_of_lt (hs₁.tidy.current? hcur).1 (Option.some.inj hcell).symm
    · exact (Cache.handle?_addCell hs₁.tidy w.topic w.topic _).trans (if_pos rfl)

/-- Who takes over, and what it does to those who wait. -/
theorem Barred.explained {n : Nat} (h : Run PublicOnly tr s) (hbar : Barred tr c n) :
    ∃ later l s₀ before, tr = later ++ (l, s₀) :: before ∧ lookCount s₀ c = n ∧
      (IsDrain (l, s₀) = true ∨ Supplants (WaitedBefore before) c s₀ l) := by
  obtain ⟨later, ⟨l, s₀⟩, before, htr, hn, hd | ⟨t, k, hwaits, hcur, htake⟩⟩ := hbar
  · exact ⟨later, l, s₀, before, htr, hn, .inl hd⟩
  · obtain ⟨hrun, s₁, hstep⟩ := h.cut htr
    obtain ⟨j, u, m, w, k₁, k', u', rfl, hj, rfl, hcur', hne, hv⟩ := isTakeover_inv htake
    cases hcur'.symm.trans hcur
    obtain ⟨rfl, hout, hin⟩ := takeover_effect hrun hj hcur' hne hv hstep
    refine ⟨later, _, s₀, before, htr, hn, .inr (.mk hwaits hcur hv hj ?_ hstep hout hin)⟩
    rcases hrun.stranded j w.topic k' ⟨_, hj, rfl⟩ with hmap | ⟨v, hmap⟩ | ⟨l', s₂, hm, hd, hwaits'⟩
    · exact (hne (Option.some.inj (hcur'.symm.trans hmap))).elim
    · obtain ⟨j', hj', hjv⟩ := Cache.handle?_eq_some_iff.1 hmap
      cases hj'.symm.trans hcur'
      cases hjv.symm.trans hv
    · exact ⟨l', s₂, k', hm, hd, hwaits'⟩

/-- A call at a cell was made for the topic of the cell. -/
theorem Storied.made_of_cell {t : String} {k : CellId} (st : Storied tr s none)
    (hwaits : s.WaitsAtCell c t k) : ∃ w, Made tr c (.want w) ∧ w.topic = t := by
  obtain ⟨p, hp, hk⟩ := hwaits
  cases p with
  | queued w =>
    cases hk
    exact ⟨w, (st.story c _ hp fun _ => nofun).of_queued.1, rfl⟩
  | creating w =>
    cases hk
    exact ⟨w, (st.story c _ hp fun _ => nofun).of_creating.1, rfl⟩
  | _ => cases hk

/-- What bars a call from the handle it waits for is a drain, or a takeover of one topic: the call's. -/
theorem Run.barred_by (h : Run PublicOnly tr s) (c : CallId) : ∃ t, ∀ n, Barred tr c n →
    ∃ e ∈ tr, lookCount e.2 c = n ∧ (IsDrain e = true ∨ IsTakeover t e = true) := by
  have hof : ∀ n, Barred tr c n → ∃ e ∈ tr, lookCount e.2 c = n ∧ (IsDrain e = true ∨
      ∃ w, Made tr c (.want w) ∧ IsTakeover w.topic e = true) := by
    rintro n ⟨later, e, before, rfl, hn, hd | ⟨t, k, hwaits, -, htake⟩⟩
    · exact ⟨e, by simp, hn, .inl hd⟩
    · obtain ⟨w, ⟨s₀, hm, hc⟩, rfl⟩ := (h.cut rfl).1.orderly.storied.made_of_cell hwaits
      exact ⟨e, by simp, hn, .inr ⟨w, ⟨s₀, by simp [hm], hc⟩, htake⟩⟩
  by_cases hmade : ∃ w, Made tr c (.want w)
  · obtain ⟨w, hw⟩ := hmade
    refine ⟨w.topic, fun n hn => ?_⟩
    obtain ⟨e, he, hn, hd | ⟨w', hw', htake⟩⟩ := hof n hn
    · exact ⟨e, he, hn, .inl hd⟩
    · cases h.orderly.storied.requested.once c _ _ hw hw'
      exact ⟨e, he, hn, .inr htake⟩
  · refine ⟨"", fun n hn => ?_⟩
    obtain ⟨e, he, hn, hd | ⟨w', hw', -⟩⟩ := hof n hn
    · exact ⟨e, he, hn, .inl hd⟩
    · exact (hmade ⟨w', hw'⟩).elim

theorem countP_or_le {α : Type} (p q : α → Bool) (xs : List α) :
    xs.countP (fun x => p x || q x) ≤ xs.countP p + xs.countP q := by
  induction xs with
  | nil => exact Nat.le_refl 0
  | cons x xs ih =>
    simp only [List.countP_cons]
    cases p x <;> cases q x <;> simp <;> omega

/-- Steps in different rounds of a call are different steps. -/
theorem rounds_le {N : Nat} {p : Label × Factory → Bool} (hall : ∀ n, 0 < n → n < N →
    ∃ e ∈ tr, lookCount e.2 c = n ∧ p e = true) : N ≤ 1 + tr.countP p := by
  have hsub : List.range' 1 (N - 1) ⊆ (tr.filter p).map (lookCount ·.2 c) := by
    intro n hn
    obtain ⟨i, hi, rfl⟩ := List.mem_range'.1 hn
    obtain ⟨e, he, hn, hp⟩ := hall (1 + 1 * i) (by omega) (by omega)
    exact List.mem_map.2 ⟨e, List.mem_filter.2 ⟨he, hp⟩, hn⟩
  have hle := (List.Nodup.subperm List.nodup_range' hsub).length_le
  rw [List.length_range', List.length_map, ← List.countP_eq_length_filter] at hle
  omega

theorem Run.lookCount_le (h : Run PublicOnly tr s) (c : CallId) :
    lookCount s c ≤ 1 + 2 * drainCount tr := by
  obtain ⟨t, hbar⟩ := h.barred_by c
  have hle : lookCount s c ≤ 1 + tr.countP fun e => IsDrain e || IsTakeover t e := by
    refine rounds_le (c := c) fun n hpos hn => ?_
    obtain ⟨e, he, hn, hor⟩ := hbar n (h.rounds.past c n hpos hn)
    exact ⟨e, he, hn, by simpa using hor⟩
  have hcount : (tr.countP fun e => IsDrain e || IsTakeover t e) ≤
      drainCount tr + takeoverCount tr t := countP_or_le IsDrain (IsTakeover t) tr
  have hscarce := (h.scarce t).le
  omega

/-- A call looks its topic up again only after a reset or a shutdown has emptied the map, or after a
producer for which another call waited when that happened has taken its cell's place. The calls look
their topics up twice for each drain more than once, at most, and none spins. -/
theorem look_ups_bounded (h : Run PublicOnly tr s) : LookUpsBounded tr s where
  explained c n hpos hn := (h.rounds.past c n hpos hn).explained h
  bound := h.lookCount_le
  found := h.orderly.inUse.leasing
  unspun := h.rounds.unspun

end

/-- Five callers of one topic, and a reset after the second of them. The first creation fails after the
reset, and the call that waited behind it opens a producer, which takes over from the one that the fourth
call has asked for. The fifth, which waited for that one, looks its topic up a second time. -/
theorem run_handed_on : ∃ tr s, Run PublicOnly tr s ∧ drainCount tr = 1 ∧ lookCount s 4 = 2 ∧
    s.calls.get? 4 = some (.ended (.handle 0)) ∧
    (tr.all fun e => lookCount e.2 4 != 1 || (!IsDrain e && e.1.opens? != some 0)) = true ∧
    (tr.all fun e => !IsDrain e || e.2.tickets == 1) = true := by
  have h : Run PublicOnly _ _ :=
    Run.new.play [.call (.createProducer "t"), .resume 0, .call (.createProducer "t"), .resume 1,
      .call .reset, .resume 2, .call (.createProducer "t"), .resume 3, .call (.createProducer "t"),
      .resume 4, .answer 0 0 (.opened (.error .closed)), .resume 1, .answer 1 2 (.opened (.ok .sequential)),
      .answer 3 1 (.opened (.ok .sequential)), .resume 4]
      (by simp [PublicOnly, Request.IsPublic, Request.createProducer]) rfl
  exact ⟨_, _, h, rfl, rfl, rfl, rfl, rfl⟩

/-- With one drain a call may look its topic up twice, and one does. -/
theorem look_ups_bounded_handed_on : ∃ tr s, Run PublicOnly tr s ∧ LookUpsBounded tr s ∧
    drainCount tr = 1 ∧ lookCount s 4 = 2 := by
  obtain ⟨tr, s, h, hdrains, hcount, -⟩ := run_handed_on
  exact ⟨tr, s, h, look_ups_bounded h, hdrains, hcount⟩

/-- A producer that takes over need not have been asked for before the drain: where the creation that was
under way then fails, the next call in line asks for one. -/
theorem takeover_asked_later :
    ¬ ∀ tr s, Run PublicOnly tr s → RoundsExplained AskedBefore tr s := by
  intro hall
  obtain ⟨tr, s, h, -, hcount, -, hround, hdrain⟩ := run_handed_on
  obtain ⟨later, l, s₀, before, rfl, hn, hexp⟩ := hall tr s h 4 1 Nat.one_pos (by omega)
  have hmine := List.all_eq_true.1 hround (l, s₀) (by simp)
  simp only [hn, bne_self_eq_false, Bool.false_or, Bool.and_eq_true, Bool.not_eq_true'] at hmine
  rcases hexp with hd | hs
  · cases hmine.1.symm.trans hd
  · cases hs with
    | @mk w k k' j u m s' _ _ _ _ hearly =>
      obtain ⟨l₁, s₁, hm, hd, hasked⟩ := hearly
      -- One request was made before the reset, number 0, and it was not granted.
      have hone : s₁.tickets = 1 := by
        have hone := List.all_eq_true.1 hdrain (l₁, s₁) (by simp [hm])
        simpa [hd] using hone
      obtain ⟨between, first, rfl⟩ := List.append_of_mem hm
      have hrun : Run PublicOnly first s₁ := ((h.cut rfl).1.cut rfl).1
      have hne : u ≠ 0 := by simpa [Label.opens?] using hmine.2
      exact hne (Nat.lt_one_iff.1 (hone ▸ hrun.ticket_lt hasked))

end Factory

end TopicPublisher
