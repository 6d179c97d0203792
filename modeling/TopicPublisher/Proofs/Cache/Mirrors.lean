import Mathlib.Data.List.Forall2
import TopicPublisher.Proofs.Cache.Traffic

/-!
# Runs that mirror one another for a topic

A run and its mirror: one with look-ups of all topics, and one with those of a single topic `u`. Calls
and cells have other numbers in the mirror, so its calls are found by name, and a relation `R` says which
cell of the one is which of the other. What is kept of the other topics is that they stay with cells and
handles of their own.

Results:
1. `Mirrors.goTo`, `Mirrors.setCell`, `Mirrors.setHandle`, `Mirrors.addCell`, `Mirrors.erase`,
   `Mirrors.take`, `Mirrors.enlist`: a change made for the topic in both runs leaves the mirror one.
2. `Mirrors.handles_eq`: of the handles in the map, the mirror has those of the topic.
3. `Mirrors.goTo_other` to `Mirrors.enlist_other`: a change made for another topic is made in the run
   alone.
-/

namespace TopicPublisher

namespace Traffic

/-! ## Definitions -/

/-- Two calls that go by the name of one look-up of topic `u`, in two runs. -/
def Twins (u : String) (names names' : Caller → Option CallId) (c c' : CallId) : Prop :=
  ∃ m : Caller, m.topic = u ∧ names m = some c ∧ names' m = some c'

/-- A handle without the calls that are parked on it. -/
def bare (v : Handle) : Handle := { v with parked := [] }

/-- Every name is that of a call, and of one that has no other name. -/
structure Roll (names : Caller → Option CallId) (calls : Registry Progress) : Prop where
  there : ∀ {m c}, names m = some c → ∃ p, calls.get? c = some p
  apart : ∀ {m n c}, names m = some c → names n = some c → m = n

/-- Cells of two runs with the same handle in them and the same look-ups at them. -/
structure Match (twins : CallId → CallId → Prop) (mine : HandleId → Bool) (a b : Cell) : Prop where
  value : b.value = a.value
  mine : ∀ h, a.value = some h → mine h = true
  turn : Option.Rel twins a.turn b.turn
  queue : List.Forall₂ twins a.queue b.queue

/-- A look-up of topic `u` at the same point in two runs. -/
inductive Abreast (u : String) (mine : HandleId → Bool) (R : CellId → CellId → Prop) :
    Progress → Progress → Prop
  | fresh : Abreast u mine R (.fresh (.want ⟨u, .peek⟩)) (.fresh (.want ⟨u, .peek⟩))
  | queued {k k' : CellId} : R k k' → Abreast u mine R (.queued ⟨u, .peek⟩ k) (.queued ⟨u, .peek⟩ k')
  | creating {k k' : CellId} {n n' : Ticket} : R k k' →
      Abreast u mine R (.creating ⟨u, .peek⟩ k n) (.creating ⟨u, .peek⟩ k' n')
  | waiting {h : HandleId} {next : AfterRetiring} {o : Outcome} : mine h = true → After u next o →
      Abreast u mine R (.retiring [{ handle := h }] next) (.retiring [{ handle := h }] next)
  | closing {h : HandleId} {n n' : Ticket} {next : AfterRetiring} {o : Outcome} : mine h = true →
      After u next o →
      Abreast u mine R (.retiring [⟨h, .closing n⟩] next) (.retiring [⟨h, .closing n'⟩] next)
  | ended (o : Outcome) : Abreast u mine R (.ended o) (.ended o)
  | aborted : Abreast u mine R .aborted .aborted

/-- A look-up of another topic `t`, which has to do with cells `F` alone and with none of the handles
of topic `u`. -/
inductive Aside (t : String) (mine : HandleId → Bool) (F : CellId → Prop) : Progress → Prop
  | fresh : Aside t mine F (.fresh (.want ⟨t, .peek⟩))
  | queued {k : CellId} : F k → Aside t mine F (.queued ⟨t, .peek⟩ k)
  | creating {k : CellId} {n : Ticket} : F k → Aside t mine F (.creating ⟨t, .peek⟩ k n)
  | waiting {h : HandleId} {next : AfterRetiring} {o : Outcome} : mine h = false → After t next o →
      Aside t mine F (.retiring [{ handle := h }] next)
  | closing {h : HandleId} {n : Ticket} {next : AfterRetiring} {o : Outcome} : mine h = false →
      After t next o → Aside t mine F (.retiring [⟨h, .closing n⟩] next)
  | ended (o : Outcome) : Aside t mine F (.ended o)
  | aborted : Aside t mine F .aborted

/-- A run `y` mirrors a run `x` as far as topic `u` is concerned. The handles of the topic are those
that `mine` holds of, `R` relates its cells in the two runs, and `F` holds of the cells of other topics
in `x`; in `y` there are none. -/
structure Mirrors (u : String) (mine : HandleId → Bool) (R : CellId → CellId → Prop)
    (F : CellId → Prop) (x y : Core) : Prop where
  roll : Roll x.callers x.calls
  roll' : Roll y.callers y.calls
  calls : ∀ m : Caller, m.topic = u → Option.Rel (Abreast u mine R) (x.progress? m) (y.progress? m)
  closed : y.cache.closed = x.cache.closed
  nodup : (x.cache.entries.map Prod.fst).Nodup
  nodup' : (y.cache.entries.map Prod.fst).Nodup
  entry : Option.Rel R (x.cache.current? u) (y.cache.current? u)
  cells : ∀ {k k'}, R k k' → ∃ a b, x.cache.cells.get? k = some a ∧
    y.cache.cells.get? k' = some b ∧ Match (Twins u x.callers y.callers) mine a b
  unique : ∀ {k k' j j'}, R k k' → R j j' → (k = j ↔ k' = j')
  handles : ∀ h, mine h = true → (y.handles.get? h).map bare = (x.handles.get? h).map bare
  taken : y.taken = x.taken.map fun hs => hs.filter mine
  alone : ∀ {t k}, (t, k) ∈ y.cache.entries → t = u
  others : ∀ {m p}, m.topic ≠ u → x.progress? m = some p → Aside m.topic mine F p
  strange : ∀ {k}, F k → k < x.cache.cells.size ∧ ∀ k', ¬ R k k'
  foreign : ∀ {t k}, (t, k) ∈ x.cache.entries → t ≠ u → F k
  value : ∀ {k h}, F k → x.cache.value? k = some h → mine h = false

/-- Some run `y` mirrors a run `x`. -/
def Mirror (u : String) (mine : HandleId → Bool) (x y : Traffic) : Prop :=
  ∃ R F, Mirrors u mine R F x.core y.core

variable {u : String} {mine : HandleId → Bool} {R : CellId → CellId → Prop} {F : CellId → Prop}
  {x y : Core} {m : Caller} {c c' : CallId} {p p' : Progress} {k k' : CellId} {a b : Cell}
  {h : HandleId} {t : String}

/-! ## 1. Names -/

theorem Roll.goTo (hx : Roll x.callers x.calls) : Roll (x.goTo c p).callers (x.goTo c p).calls where
  there {m d} hm := by
    obtain ⟨q, hq⟩ := hx.there hm
    show ∃ q, (x.calls.update c fun _ => p).get? d = some q
    rw [Registry.get?_update, hq]
    split
    · exact ⟨p, rfl⟩
    · exact ⟨q, rfl⟩
  apart := hx.apart

/-- When a look-up gets to a point, the others stay where they are. -/
theorem Roll.progress?_goTo (hx : Roll x.callers x.calls) (hc : x.callers m = some c) (p : Progress) (n : Caller) :
    (x.goTo c p).progress? n = if n = m then some p else x.progress? n := by
  show (x.callers n).bind (x.calls.update c fun _ => p).get? = _
  by_cases hn : n = m
  · subst hn
    obtain ⟨q, hq⟩ := hx.there hc
    rw [if_pos rfl, hc, Option.bind_some, Registry.get?_update, if_pos rfl, hq]
    rfl
  · rw [if_neg hn]
    unfold Core.progress?
    cases hd : x.callers n with
    | none => rfl
    | some d =>
      have hne : c ≠ d := fun e => hn (hx.apart (e ▸ hd) hc)
      rw [Option.bind_some, Option.bind_some, Registry.get?_update, if_neg hne]

theorem Roll.lt (hx : Roll x.callers x.calls) (hc : x.callers m = some c) : c < x.calls.size := by
  obtain ⟨p, hp⟩ := hx.there hc
  exact Registry.lt_size_of_get? hp

theorem Roll.enlist (hx : Roll x.callers x.calls) : Roll (x.enlist m).callers (x.enlist m).calls where
  there {n c} hn := by
    have hn : (if n = m then some x.calls.size else x.callers n) = some c := hn
    show ∃ p, (x.calls.add _).get? c = some p
    rw [Registry.get?_add]
    split at hn
    · cases hn
      exact ⟨_, if_pos rfl⟩
    · obtain ⟨p, hp⟩ := hx.there hn
      exact ⟨p, by rw [if_neg (Nat.ne_of_lt (hx.lt hn)), hp]⟩
  apart {n l c} hn hl := by
    have hn : (if n = m then some x.calls.size else x.callers n) = some c := hn
    have hl : (if l = m then some x.calls.size else x.callers l) = some c := hl
    split at hn
    · next hnm =>
      split at hl
      · next hlm => exact hnm.trans hlm.symm
      · cases hn
        exact absurd (hx.lt hl) (Nat.lt_irrefl _)
    · split at hl
      · cases hl
        exact absurd (hx.lt hn) (Nat.lt_irrefl _)
      · exact hx.apart hn hl

theorem Roll.progress?_enlist (hx : Roll x.callers x.calls) (m n : Caller) :
    (x.enlist m).progress? n =
      if n = m then some (.fresh (.want ⟨m.topic, .peek⟩)) else x.progress? n := by
  show (if n = m then some x.calls.size else x.callers n).bind (x.calls.add _).get? = _
  by_cases hn : n = m
  · rw [if_pos hn, if_pos hn, Option.bind_some, Registry.get?_add, if_pos rfl]
  · rw [if_neg hn, if_neg hn]
    unfold Core.progress?
    cases hd : x.callers n with
    | none => rfl
    | some d =>
      rw [Option.bind_some, Option.bind_some, Registry.get?_add, if_neg (Nat.ne_of_lt (hx.lt hd))]

/-- A look-up without a name has got nowhere. -/
theorem Roll.progress?_eq_none_iff (hx : Roll x.callers x.calls) : x.progress? m = none ↔ x.callers m = none := by
  unfold Core.progress?
  constructor
  · intro h
    cases hc : x.callers m with
    | none => rfl
    | some c =>
      obtain ⟨p, hp⟩ := hx.there hc
      rw [hc, Option.bind_some, hp] at h
      cases h
  · intro h
    rw [h]
    rfl

/-- Twins are told apart alike in both runs. -/
theorem Mirrors.twins_iff (hm : Mirrors u mine R F x y) {d d' : CallId} (hc : Twins u x.callers y.callers c c')
    (hd : Twins u x.callers y.callers d d') : c = d ↔ c' = d' := by
  obtain ⟨m, -, hx, hy⟩ := hc
  obtain ⟨n, -, hx', hy'⟩ := hd
  constructor
  · rintro rfl
    obtain rfl := hm.roll.apart hx hx'
    exact Option.some.inj (hy.symm.trans hy')
  · rintro rfl
    obtain rfl := hm.roll'.apart hy hy'
    exact Option.some.inj (hx.symm.trans hx')

theorem bare_cases {v? w? : Option Handle} (h : w?.map bare = v?.map bare) :
    (v? = none ∧ w? = none) ∨ ∃ v w, v? = some v ∧ w? = some w ∧ bare w = bare v := by
  cases v? with
  | none => exact .inl ⟨rfl, Option.map_eq_none_iff.1 h⟩
  | some v =>
    obtain ⟨w, hw, hvw⟩ := Option.map_eq_some_iff.1 h
    exact .inr ⟨v, w, rfl, hw, hvw⟩

/-! ## 2. Changes in both runs -/

/-- A look-up of the topic gets to the same point in both runs. -/
theorem Mirrors.goTo (hm : Mirrors u mine R F x y) (hc : Twins u x.callers y.callers c c')
    (hp : Abreast u mine R p p') : Mirrors u mine R F (x.goTo c p) (y.goTo c' p') := by
  obtain ⟨m, hu, hx, hy⟩ := hc
  refine { hm with
    roll := hm.roll.goTo
    roll' := hm.roll'.goTo
    calls := fun n hn => ?_
    others := fun {n q} hn hq => ?_ }
  · rw [hm.roll.progress?_goTo hx, hm.roll'.progress?_goTo hy]
    split
    · exact .some hp
    · exact hm.calls n hn
  · rw [hm.roll.progress?_goTo hx, if_neg fun e : n = m => hn (e ▸ hu)] at hq
    exact hm.others hn hq

/-- A cell of the topic changes alike in both runs. -/
theorem Mirrors.setCell (hm : Mirrors u mine R F x y) (hk : R k k') {f g : Cell → Cell}
    (hf : ∀ a b, Match (Twins u x.callers y.callers) mine a b → Match (Twins u x.callers y.callers) mine (f a) (g b)) :
    Mirrors u mine R F (x.setCache (x.cache.setCell k f)) (y.setCache (y.cache.setCell k' g)) := by
  refine { hm with
    cells := fun {j j'} hj => ?_
    strange := fun {j} hj => ⟨?_, (hm.strange hj).2⟩
    value := fun {j h} hj hv => ?_ }
  · obtain ⟨a, b, ha, hb, hab⟩ := hm.cells hj
    show ∃ a b, (x.cache.cells.update k f).get? j = some a ∧
      (y.cache.cells.update k' g).get? j' = some b ∧ Match (Twins u x.callers y.callers) mine a b
    rw [Registry.get?_update, Registry.get?_update, ha, hb]
    by_cases hkj : k = j
    · rw [if_pos hkj, if_pos ((hm.unique hk hj).1 hkj)]
      exact ⟨f a, g b, rfl, rfl, hf a b hab⟩
    · rw [if_neg hkj, if_neg fun e => hkj ((hm.unique hk hj).2 e)]
      exact ⟨a, b, rfl, rfl, hab⟩
  · show j < (x.cache.cells.update k f).size
    rw [Registry.size_update]
    exact (hm.strange hj).1
  · have hv : (x.cache.setCell k f).value? j = some h := hv
    rw [Cache.value?_setCell, if_neg] at hv
    · exact hm.value hj hv
    · rintro rfl
      exact (hm.strange hj).2 k' hk

/-- A handle of the topic changes alike in both runs. -/
theorem Mirrors.setHandle (hm : Mirrors u mine R F x y) {f g : Handle → Handle}
    (hf : ∀ v w, bare w = bare v → bare (g w) = bare (f v)) :
    Mirrors u mine R F (x.setHandle h f) (y.setHandle h g) := by
  refine { hm with handles := fun i hi => ?_ }
  show ((y.handles.update h g).get? i).map bare = ((x.handles.update h f).get? i).map bare
  rw [Registry.get?_update, Registry.get?_update]
  split
  · rcases bare_cases (hm.handles i hi) with ⟨hv, hw⟩ | ⟨v, w, hv, hw, hvw⟩
    · rw [hv, hw]
      rfl
    · rw [hv, hw]
      exact congrArg some (hf v w hvw)
  · exact hm.handles i hi

/-- A handle of the topic is in the same condition in both runs. -/
theorem Mirrors.map_eq (hm : Mirrors u mine R F x y) (hh : mine h = true) {α : Type} {f : Handle → α}
    (hf : ∀ v, f (bare v) = f v) : (y.handles.get? h).map f = (x.handles.get? h).map f := by
  have hsame := congrArg (Option.map f) (hm.handles h hh)
  rw [Option.map_map, Option.map_map, show f ∘ bare = f from funext hf] at hsame
  exact hsame

theorem Mirrors.lt (hm : Mirrors u mine R F x y) (hk : R k k') :
    k < x.cache.cells.size ∧ k' < y.cache.cells.size := by
  obtain ⟨a, b, ha, hb, -⟩ := hm.cells hk
  exact ⟨Registry.lt_size_of_get? ha, Registry.lt_size_of_get? hb⟩

theorem Abreast.mono {R' : CellId → CellId → Prop} (hR : ∀ {k k'}, R k k' → R' k k')
    (hp : Abreast u mine R p p') : Abreast u mine R' p p' := by
  cases hp with
  | fresh => exact .fresh
  | queued hk => exact .queued (hR hk)
  | creating hk => exact .creating (hR hk)
  | waiting hh hn => exact .waiting hh hn
  | closing hh hn => exact .closing hh hn
  | ended o => exact .ended o
  | aborted => exact .aborted

theorem rel_mono {α β : Type} {r r' : α → β → Prop} (hr : ∀ {a b}, r a b → r' a b) {a : Option α}
    {b : Option β} (h : Option.Rel r a b) : Option.Rel r' a b := by
  cases h with
  | some h => exact .some (hr h)
  | none => exact .none

theorem rel_cases {α β : Type} {r : α → β → Prop} {a : Option α} {b : Option β}
    (h : Option.Rel r a b) : (a = none ∧ b = none) ∨ ∃ v w, a = some v ∧ b = some w ∧ r v w := by
  cases h with
  | some h => exact .inr ⟨_, _, rfl, rfl, h⟩
  | none => exact .inl ⟨rfl, rfl⟩

theorem Match.mono {T T' : CallId → CallId → Prop} (hT : ∀ {c c'}, T c c' → T' c c')
    (hab : Match T mine a b) : Match T' mine a b where
  value := hab.value
  mine := hab.mine
  turn := rel_mono hT hab.turn
  queue := hab.queue.imp fun _ _ => hT

/-- The cells of the topic, and the newest cells of the two runs. -/
def withNew (R : CellId → CellId → Prop) (x y : Core) (k k' : CellId) : Prop :=
  R k k' ∨ (k = x.cache.cells.size ∧ k' = y.cache.cells.size)

/-- The topic gets a new cell in both runs. -/
theorem Mirrors.addCell (hm : Mirrors u mine R F x y)
    (hab : Match (Twins u x.callers y.callers) mine a b) :
    Mirrors u mine (withNew R x y) F (x.setCache (x.cache.addCell u a))
      (y.setCache (y.cache.addCell u b)) := by
  have hne : ∀ {k}, F k → k ≠ x.cache.cells.size := fun hk => Nat.ne_of_lt (hm.strange hk).1
  refine { hm with
    calls := fun n hn => rel_mono (Abreast.mono .inl) (hm.calls n hn)
    nodup := Entries.nodup_putLast u _ hm.nodup
    nodup' := Entries.nodup_putLast u _ hm.nodup'
    entry := ?_
    cells := fun {k k'} hk => ?_
    unique := fun {k k' j j'} hk hj => ?_
    alone := fun {t k} h => ?_
    strange := fun {k} hk => ⟨?_, fun k' h => ?_⟩
    foreign := fun {t k} h ht => ?_
    value := fun {k h} hk hv => ?_ }
  · show Option.Rel _ ((x.cache.addCell u a).current? u) ((y.cache.addCell u b).current? u)
    rw [Cache.current?_addCell, Cache.current?_addCell, if_pos rfl, if_pos rfl]
    exact .some (.inr ⟨rfl, rfl⟩)
  · show ∃ v w, (x.cache.cells.add a).get? k = some v ∧ (y.cache.cells.add b).get? k' = some w ∧
      Match _ mine v w
    rw [Registry.get?_add, Registry.get?_add]
    rcases hk with hk | ⟨hk, hk'⟩
    · rw [if_neg (Nat.ne_of_lt (hm.lt hk).1), if_neg (Nat.ne_of_lt (hm.lt hk).2)]
      exact hm.cells hk
    · rw [if_pos hk, if_pos hk']
      exact ⟨a, b, rfl, rfl, hab⟩
  · rcases hk with hk | ⟨rfl, rfl⟩
    · rcases hj with hj | ⟨rfl, rfl⟩
      · exact hm.unique hk hj
      · exact iff_of_false (Nat.ne_of_lt (hm.lt hk).1) (Nat.ne_of_lt (hm.lt hk).2)
    · rcases hj with hj | ⟨rfl, rfl⟩
      · exact iff_of_false (Nat.ne_of_gt (hm.lt hj).1) (Nat.ne_of_gt (hm.lt hj).2)
      · exact iff_of_true rfl rfl
  · rcases Entries.mem_putLast h with h | h
    · exact congrArg Prod.fst h
    · exact hm.alone h
  · show k < (x.cache.cells.add a).size
    rw [Registry.size_add]
    exact Nat.lt_succ_of_lt (hm.strange hk).1
  · rcases h with h | h
    · exact (hm.strange hk).2 k' h
    · exact hne hk h.1
  · rcases Entries.mem_putLast h with h | h
    · exact absurd (congrArg Prod.fst h) ht
    · exact hm.foreign h ht
  · have hv : (x.cache.addCell u a).value? k = some h := hv
    rw [Cache.value?_addCell, if_neg (hne hk)] at hv
    exact hm.value hk hv

/-- The topic's entry leaves the map in both runs. -/
theorem Mirrors.erase (hm : Mirrors u mine R F x y) :
    Mirrors u mine R F
      (x.setCache { x.cache with entries := Entries.erase u x.cache.entries })
      (y.setCache { y.cache with entries := Entries.erase u y.cache.entries }) := by
  refine { hm with
    nodup := Entries.nodup_erase u hm.nodup
    nodup' := Entries.nodup_erase u hm.nodup'
    entry := ?_
    alone := fun h => hm.alone (List.mem_filter.1 h).1
    foreign := fun h ht => hm.foreign (List.mem_filter.1 h).1 ht }
  show Option.Rel _ (Entries.find? u (Entries.erase u x.cache.entries))
    (Entries.find? u (Entries.erase u y.cache.entries))
  rw [Entries.find?_erase, Entries.find?_erase, if_pos rfl, if_pos rfl]
  exact .none

/-- The topic's handle is the same in both runs, and one of its own. -/
theorem Mirrors.handle?_eq (hm : Mirrors u mine R F x y) :
    y.cache.handle? u = x.cache.handle? u ∧ ∀ v, x.cache.handle? u = some v → mine v = true := by
  unfold Cache.handle?
  rcases rel_cases hm.entry with ⟨hx, hy⟩ | ⟨k, k', hx, hy, hk⟩
  · rw [hx, hy]
    exact ⟨rfl, nofun⟩
  · obtain ⟨a, b, ha, hb, hab⟩ := hm.cells hk
    rw [hx, hy, Option.bind_some, Option.bind_some]
    unfold Cache.value?
    rw [ha, hb]
    exact ⟨hab.value, hab.mine⟩

/-- Of the handles that a map gives, those of one topic are in the topic's cell. -/
theorem filter_handles {value : CellId → Option HandleId} {entries : List (String × CellId)}
    (hn : (entries.map Prod.fst).Nodup)
    (hothers : ∀ t k, (t, k) ∈ entries → t ≠ u → ∀ h, value k = some h → mine h = false)
    (hown : ∀ k, (u, k) ∈ entries → ∀ h, value k = some h → mine h = true) :
    (entries.filterMap fun e => value e.2).filter mine =
      ((Entries.find? u entries).bind value).toList := by
  induction entries with
  | nil => rfl
  | cons e entries ih =>
    obtain ⟨t, k⟩ := e
    rw [List.map_cons, List.nodup_cons] at hn
    have hrest := ih hn.2 (fun t k h => hothers t k (List.mem_cons_of_mem _ h))
      (fun k h => hown k (List.mem_cons_of_mem _ h))
    rw [List.filterMap_cons, Entries.find?]
    by_cases ht : t = u
    · subst ht
      -- The topic has no other entry, so no other handle is one of its own.
      have hnone : Entries.find? t entries = none := by
        cases hl : Entries.find? t entries with
        | none => rfl
        | some j => exact absurd (List.mem_map_of_mem (Entries.mem_of_find? hl)) hn.1
      rw [hnone] at hrest
      rw [if_pos rfl, Option.bind_some]
      dsimp only
      cases hv : value k with
      | none => exact hrest
      | some h =>
        rw [List.filter_cons_of_pos (hown k List.mem_cons_self h hv), hrest]
        rfl
    · rw [if_neg ht]
      dsimp only
      cases hv : value k with
      | none => exact hrest
      | some h =>
        dsimp only
        rw [List.filter_cons_of_neg, hrest]
        rw [hothers t k List.mem_cons_self ht h hv]
        exact Bool.false_ne_true

/-- Of the handles in the map, those of the topic are the ones that the map has in the mirror. -/
theorem Mirrors.handles_eq (hm : Mirrors u mine R F x y) :
    y.cache.handles = x.cache.handles.filter mine := by
  obtain ⟨hsame, hmine⟩ := hm.handle?_eq
  have hx : x.cache.handles.filter mine = (x.cache.handle? u).toList := by
    refine filter_handles hm.nodup (fun t k h ht v hv => hm.value (hm.foreign h ht) hv)
      fun k h v hv => hmine v (Cache.handle?_eq_some_iff.2 ⟨k, Entries.find?_of_mem hm.nodup h, hv⟩)
  have hown : ∀ k, (u, k) ∈ y.cache.entries → ∀ v, y.cache.value? k = some v → mine v = true :=
    fun k h v hv => hmine v
      (hsame ▸ Cache.handle?_eq_some_iff.2 ⟨k, Entries.find?_of_mem hm.nodup' h, hv⟩)
  have hy : y.cache.handles.filter mine = (y.cache.handle? u).toList :=
    filter_handles hm.nodup' (fun t k h ht => absurd (hm.alone h) ht) hown
  have hall : ∀ v ∈ y.cache.handles, mine v = true := by
    intro v hv
    obtain ⟨t, k, he, hv⟩ := Cache.mem_handles.1 hv
    obtain rfl := hm.alone he
    exact hown k he v hv
  rw [hx, ← hsame, ← hy]
  exact (List.filter_eq_self.2 hall).symm

theorem bare_stopLeasing {v w : Handle} (h : bare w = bare v) :
    bare w.stopLeasing = bare v.stopLeasing := by
  unfold bare Handle.stopLeasing at *
  simp_all

/-- All handles leave the map in both runs. -/
theorem Mirrors.take (hm : Mirrors u mine R F x y) {b : Bool} :
    Mirrors u mine R F (x.take b) (y.take b) := by
  refine { hm with
    closed := rfl
    nodup := List.nodup_nil
    nodup' := List.nodup_nil
    entry := .none
    handles := fun h hh => ?_
    taken := ?_
    alone := nofun
    foreign := nofun }
  · have hiff : h ∈ y.cache.handles ↔ h ∈ x.cache.handles := by
      rw [hm.handles_eq, List.mem_filter]
      exact ⟨fun h => h.1, fun h => ⟨h, hh⟩⟩
    show ((Factory.stopAll y.handles y.cache.handles).get? h).map bare =
      ((Factory.stopAll x.handles x.cache.handles).get? h).map bare
    rw [Factory.get?_stopAll, Factory.get?_stopAll]
    rcases bare_cases (hm.handles h hh) with ⟨hv, hw⟩ | ⟨v, w, hv, hw, hvw⟩
    · rw [hv, hw]
      rfl
    · rw [hv, hw]
      by_cases hin : h ∈ x.cache.handles
      · simp [hiff, hin, bare_stopLeasing hvw]
      · simp [hiff, hin, hvw]
  · show y.cache.handles :: y.taken = (x.cache.handles :: x.taken).map _
    rw [List.map_cons, ← hm.handles_eq, ← hm.taken]

/-- A look-up of the topic is made in both runs. -/
theorem Mirrors.enlist (hm : Mirrors u mine R F x y) (hu : m.topic = u)
    (hx : x.callers m = none) (hy : y.callers m = none) :
    Mirrors u mine R F (x.enlist m) (y.enlist m) := by
  refine { hm with
    roll := hm.roll.enlist
    roll' := hm.roll'.enlist
    calls := fun n hn => ?_
    cells := fun {k k'} hk => ?_
    others := fun {n q} hn hq => ?_ }
  · rw [hm.roll.progress?_enlist, hm.roll'.progress?_enlist]
    split
    · subst hu
      exact .some .fresh
    · exact hm.calls n hn
  · obtain ⟨a, b, ha, hb, hab⟩ := hm.cells hk
    refine ⟨a, b, ha, hb, hab.mono ?_⟩
    rintro c c' ⟨n, hn, hc, hc'⟩
    have hne : n ≠ m := by
      rintro rfl
      cases hx.symm.trans hc
    exact ⟨n, hn, (if_neg hne).trans hc, (if_neg hne).trans hc'⟩
  · rw [hm.roll.progress?_enlist, if_neg fun e : n = m => hn (e ▸ hu)] at hq
    exact hm.others hn hq

/-! ## 3. Changes in the run alone -/

theorem Aside.mono {F' : CellId → Prop} (hF : ∀ {k}, F k → F' k) (hp : Aside t mine F p) :
    Aside t mine F' p := by
  cases hp with
  | fresh => exact .fresh
  | queued hk => exact .queued (hF hk)
  | creating hk => exact .creating (hF hk)
  | waiting hh hn => exact .waiting hh hn
  | closing hh hn => exact .closing hh hn
  | ended o => exact .ended o
  | aborted => exact .aborted

/-- A look-up of another topic gets to a point. -/
theorem Mirrors.goTo_other (hm : Mirrors u mine R F x y) (hc : x.callers m = some c)
    (hu : m.topic ≠ u) (hp : Aside m.topic mine F p) : Mirrors u mine R F (x.goTo c p) y := by
  refine { hm with
    roll := hm.roll.goTo
    calls := fun n hn => ?_
    others := fun {n q} hn hq => ?_ }
  · rw [hm.roll.progress?_goTo hc, if_neg fun e : n = m => hu (e ▸ hn)]
    exact hm.calls n hn
  · rw [hm.roll.progress?_goTo hc] at hq
    split at hq
    · next hnm =>
      cases hq
      exact hnm ▸ hp
    · exact hm.others hn hq

/-- A cell of another topic changes. -/
theorem Mirrors.setCell_other (hm : Mirrors u mine R F x y) (hk : F k) {f : Cell → Cell}
    (hf : ∀ a, x.cache.cells.get? k = some a → ∀ h, (f a).value = some h → mine h = false) :
    Mirrors u mine R F (x.setCache (x.cache.setCell k f)) y := by
  refine { hm with
    cells := fun {j j'} hj => ?_
    strange := fun {j} hj => ⟨?_, (hm.strange hj).2⟩
    value := fun {j h} hj hv => ?_ }
  · have hkj : k ≠ j := by
      rintro rfl
      exact (hm.strange hk).2 j' hj
    show ∃ a b, (x.cache.cells.update k f).get? j = some a ∧ y.cache.cells.get? j' = some b ∧ _
    rw [Registry.get?_update, if_neg hkj]
    exact hm.cells hj
  · show j < (x.cache.cells.update k f).size
    rw [Registry.size_update]
    exact (hm.strange hj).1
  · have hv : (x.cache.setCell k f).value? j = some h := hv
    rw [Cache.value?_setCell] at hv
    split at hv
    · next hkj =>
      subst hkj
      obtain ⟨a, ha, hv⟩ := Option.bind_eq_some_iff.1 hv
      exact hf a ha h hv
    · exact hm.value hj hv

/-- A handle of another topic changes. -/
theorem Mirrors.setHandle_other (hm : Mirrors u mine R F x y) (hh : mine h = false)
    (f : Handle → Handle) : Mirrors u mine R F (x.setHandle h f) y := by
  refine { hm with handles := fun i hi => ?_ }
  show _ = ((x.handles.update h f).get? i).map bare
  rw [Registry.get?_update, if_neg]
  · exact hm.handles i hi
  · rintro rfl
    rw [hh] at hi
    cases hi

/-- Another topic gets a new cell. -/
theorem Mirrors.addCell_other (hm : Mirrors u mine R F x y) (ht : t ≠ u)
    (ha : ∀ h, a.value = some h → mine h = false) :
    Mirrors u mine R (fun k => F k ∨ k = x.cache.cells.size)
      (x.setCache (x.cache.addCell t a)) y := by
  refine { hm with
    nodup := Entries.nodup_putLast t _ hm.nodup
    entry := ?_
    cells := fun {k k'} hk => ?_
    others := fun hn hq => (hm.others hn hq).mono .inl
    strange := fun {k} hk => ?_
    foreign := fun {t' k} h ht' => ?_
    value := fun {k h} hk hv => ?_ }
  · show Option.Rel _ ((x.cache.addCell t a).current? u) _
    rw [Cache.current?_addCell, if_neg ht.symm]
    exact hm.entry
  · show ∃ v w, (x.cache.cells.add a).get? k = some v ∧ y.cache.cells.get? k' = some w ∧ _
    rw [Registry.get?_add, if_neg (Nat.ne_of_lt (hm.lt hk).1)]
    exact hm.cells hk
  · show k < (x.cache.cells.add a).size ∧ _
    rw [Registry.size_add]
    rcases hk with hk | rfl
    · exact ⟨Nat.lt_succ_of_lt (hm.strange hk).1, (hm.strange hk).2⟩
    · exact ⟨Nat.lt_succ_self _, fun k' hk => Nat.lt_irrefl _ (hm.lt hk).1⟩
  · rcases Entries.mem_putLast h with h | h
    · exact .inr (congrArg Prod.snd h)
    · exact .inl (hm.foreign h ht')
  · have hv : (x.cache.addCell t a).value? k = some h := hv
    rw [Cache.value?_addCell] at hv
    split at hv
    · exact ha h hv
    · next hne => exact hm.value (hk.resolve_right hne) hv

/-- The entry of another topic leaves the map. -/
theorem Mirrors.erase_other (hm : Mirrors u mine R F x y) (ht : t ≠ u) :
    Mirrors u mine R F
      (x.setCache { x.cache with entries := Entries.erase t x.cache.entries }) y := by
  refine { hm with
    nodup := Entries.nodup_erase t hm.nodup
    entry := ?_
    foreign := fun h ht => hm.foreign (List.mem_filter.1 h).1 ht }
  show Option.Rel _ (Entries.find? u (Entries.erase t x.cache.entries)) _
  rw [Entries.find?_erase, if_neg ht.symm]
  exact hm.entry

/-- A look-up of another topic is made. -/
theorem Mirrors.enlist_other (hm : Mirrors u mine R F x y) (hu : m.topic ≠ u) :
    Mirrors u mine R F (x.enlist m) y := by
  have hne : ∀ {n : Caller}, n.topic = u → n ≠ m := fun hn e => hu (e ▸ hn)
  refine { hm with
    roll := hm.roll.enlist
    calls := fun n hn => ?_
    cells := fun {k k'} hk => ?_
    others := fun {n q} hn hq => ?_ }
  · rw [hm.roll.progress?_enlist, if_neg (hne hn)]
    exact hm.calls n hn
  · obtain ⟨a, b, ha, hb, hab⟩ := hm.cells hk
    refine ⟨a, b, ha, hb, hab.mono ?_⟩
    rintro c c' ⟨n, hn, hc, hc'⟩
    exact ⟨n, hn, (if_neg (hne hn)).trans hc, hc'⟩
  · rw [hm.roll.progress?_enlist] at hq
    split at hq
    · next hnm =>
      cases hq
      rw [hnm]
      exact .fresh
    · exact hm.others hn hq

end Traffic

end TopicPublisher
