import TopicPublisher.Proofs.Factory.Balance

/-!
# The fate of every producer

No producer is leaked, lost or closed twice. A producer that was opened is in the map under its topic and
in use; or a reset or shutdown took it out of the map and waits for its last lease to go; or it was closed,
once. Calls may be aborted at any point, and the wire client may crash under them, as long as it is not a
reset or a shutdown at work that is ended this way.

Between two moments of a step there are two more fates. The call that runs may be about to place a handle
that it has just opened, and when that handle is superseded, or the cache was closed, it is about to close
it; nobody has had a lease on such a handle.

Results:
1. `Fate.out`, `Fate.keep`: what becomes of the fates when a step does not concern them.
2. `Fated.turn_place`, `Fated.turn_retire`, `Fated.drain`, `Fated.created`: the steps that do.
3. `producer_fate`: every producer has exactly one of the three fates.
-/

namespace TopicPublisher

namespace Factory

/-! ## Definitions -/

/-- A call took a handle out of the cache. -/
def Took (s : Factory) (c : CallId) (h : HandleId) : Prop :=
  ∃ hs, .drained c hs ∈ s.events ∧ h ∈ hs

/-- A reset or a shutdown waits to close a handle. -/
def Waits (s : Factory) (c : CallId) (h : HandleId) : Prop :=
  ∃ rs, s.calls.get? c = some (.retiring rs .count) ∧ { handle := h } ∈ rs

/-- A handle in use: the map has it under its topic. -/
structure Kept (s : Factory) (h : HandleId) : Prop where
  cached : ∃ x, s.handles.get? h = some x ∧ s.cache.handle? x.topic = some h
  leasing : s.isRetiring h = false
  unclosed : s.closeCount h = 0

/-- A handle that the one call that took it out of the map waits to close. -/
structure Doomed (s : Factory) (h : HandleId) : Prop where
  uncached : h ∉ s.cache.handles
  retiring : s.isRetiring h = true
  unclosed : s.closeCount h = 0
  taken : ∃ c, Took s c h ∧ Waits s c h ∧ ∀ c', Took s c' h → c' = c

/-- A handle whose producer was closed. -/
structure Shut (s : Factory) (h : HandleId) : Prop where
  uncached : h ∉ s.cache.handles
  retiring : s.isRetiring h = true
  closed : s.closeCount h = 1

/-- Callers make requests of their own, and no reset or shutdown is ended at its work. -/
def Undisturbed (s : Factory) : Label → Prop
  | .call r => r.IsPublic
  | .abort c => ∀ rs, s.calls.get? c ≠ some (.retiring rs .count)
  | .crash c => ∀ rs, s.calls.get? c ≠ some (.retiring rs .count)
  | _ => True

/-! ## 1. Fates at a moment -/

/-- A call waits to close a handle that it took, or is about to look whether it can. -/
def WaitsAt (s : Factory) (run : Option (CallId × Act)) (c : CallId) (h : HandleId) : Prop :=
  ((∀ a, run ≠ some (c, a)) ∧ Waits s c h) ∨
    ∃ done todo, run = some (c, .retire done todo .count) ∧ { handle := h } ∈ done ++ todo

/-- What the call that runs is about to do with a handle of which nobody else knows. -/
inductive Charges : Act → HandleId → Bool → Prop
  | place {w : Want} {k : CellId} {h : HandleId} : Charges (.place w k h) h false
  | retire {h : HandleId} {next : AfterRetiring} : next ≠ .count →
      Charges (.retire [] [{ handle := h }] next) h true

/-- The fate of a handle at a moment. -/
inductive Fate (s : Factory) (run : Option (CallId × Act)) (h : HandleId) (x : Handle) : Prop
  | kept : s.cache.handle? x.topic = some h → x.retiring = false → x.closed = false →
      (∀ c, ¬ Took s c h) → Fate s run h x
  | doomed {c : CallId} : (∀ t, s.cache.handle? t ≠ some h) → x.retiring = true → x.closed = false →
      Took s c h → WaitsAt s run c h → (∀ c', Took s c' h → c' = c) → Fate s run h x
  | shut : (∀ t, s.cache.handle? t ≠ some h) → x.retiring = true → x.closed = true → Fate s run h x
  /-- It is with the call that runs. -/
  | loose {c : CallId} {a : Act} : run = some (c, a) → Charges a h x.retiring →
      (∀ t, s.cache.handle? t ≠ some h) → x.closed = false → x.borrows = 0 → (∀ c, ¬ Took s c h) →
      Fate s run h x

/-- Every handle has a fate, and only handles were opened or taken. -/
structure Fated (s : Factory) (run : Option (CallId × Act)) : Prop where
  fate : ∀ h x, s.handles.get? h = some x → Fate s run h x
  took : ∀ c h, Took s c h → ∃ x, s.handles.get? h = some x
  opened : ∀ c h, .opened c h ∈ s.events → ∃ x, s.handles.get? h = some x

/-- The flags of the handles are as they were, and there are no new handles. -/
def SameFlags (a b : Registry Handle) : Prop :=
  ∀ h y, b.get? h = some y →
    ∃ x, a.get? h = some x ∧ y.topic = x.topic ∧ y.retiring = x.retiring ∧ y.closed = x.closed

namespace FateLemmas

theorem sameFlags_of_eq {a b : Registry Handle} (h : b = a) : SameFlags a b := by
  intro v y hy
  rw [h] at hy
  exact ⟨y, hy, rfl, rfl, rfl⟩

theorem sameFlags_update (a : Registry Handle) (v : HandleId) {f : Handle → Handle}
    (hf : ∀ x, (f x).topic = x.topic ∧ (f x).retiring = x.retiring ∧ (f x).closed = x.closed) :
    SameFlags a (a.update v f) := by
  intro h y hy
  rw [Registry.get?_update] at hy
  split at hy
  · obtain ⟨x, hx, rfl⟩ := Option.map_eq_some_iff.1 hy
    exact ⟨x, hx, hf x⟩
  · exact ⟨y, hy, rfl, rfl, rfl⟩

theorem sameFlags_beginBorrow (a : Registry Handle) (v : HandleId) :
    SameFlags a (a.update v Handle.beginBorrow) :=
  sameFlags_update a v fun _ => ⟨rfl, rfl, rfl⟩

theorem sameFlags_endBorrow (a : Registry Handle) (v : HandleId) :
    SameFlags a (a.update v fun x => x.endBorrow.1) := by
  refine sameFlags_update a v fun x => ?_
  unfold Handle.endBorrow
  split <;> exact ⟨rfl, rfl, rfl⟩

theorem sameFlags_refused (a : Registry Handle) (v : HandleId) :
    SameFlags a (a.update v fun x => x.beginBorrow.endBorrow.1) := by
  refine sameFlags_update a v fun x => ?_
  obtain ⟨ps, heq⟩ := x.refused_eq
  rw [heq]
  exact ⟨rfl, rfl, rfl⟩

theorem sameFlags_parked {a b : Registry Handle}
    (hg : ∀ h, ∃ ps, b.get? h = (a.get? h).map fun x => { x with parked := ps }) : SameFlags a b := by
  intro h y hy
  obtain ⟨ps, hps⟩ := hg h
  rw [hy] at hps
  obtain ⟨x, hx, rfl⟩ := Option.map_eq_some_iff.1 hps.symm
  exact ⟨x, hx, rfl, rfl, rfl⟩

theorem took_iff {s : Factory} {c : CallId} {h : HandleId} :
    Took s c h ↔ ∃ hs, .drained c hs ∈ s.deeds ∧ h ∈ hs := by
  unfold Took
  simp only [mem_deeds, Deed, and_true]

/-- The wire client is asked for something, and no handle is opened or taken. -/
def Asks (es : List Event) : Prop := ∀ e ∈ es, ∃ c t d, e = .asked c t d

theorem asks_nil : Asks [] := fun _ he => nomatch he

theorem asks_one (c : CallId) (t : Ticket) (d : Demand) : Asks [.asked c t d] :=
  fun _ he => ⟨c, t, d, List.mem_singleton.1 he⟩

theorem took_keep {s s' : Factory} {es : List Event} (he : s'.deeds = s.deeds ++ es)
    (hes : ∀ c hs, .drained c hs ∉ es) (c : CallId) (h : HandleId) : Took s' c h ↔ Took s c h := by
  rw [took_iff, took_iff, he]
  refine exists_congr fun hs => and_congr_left fun _ => ?_
  rw [List.mem_append]
  exact ⟨fun hm => hm.resolve_right (hes c hs), .inl⟩

theorem took_drained {s s' : Factory} {c : CallId} {hs : List HandleId}
    (he : s'.deeds = s.deeds ++ [.drained c hs]) (i : CallId) (h : HandleId) :
    Took s' i h ↔ Took s i h ∨ (i = c ∧ h ∈ hs) := by
  rw [took_iff, took_iff, he]
  constructor
  · rintro ⟨hs', hm, hh⟩
    rcases List.mem_append.1 hm with hm | hm
    · exact .inl ⟨hs', hm, hh⟩
    · cases List.mem_singleton.1 hm
      exact .inr ⟨rfl, hh⟩
  · rintro (⟨hs', hm, hh⟩ | ⟨rfl, hh⟩)
    · exact ⟨hs', List.mem_append_left _ hm, hh⟩
    · exact ⟨_, List.mem_append_right _ (List.mem_singleton.2 rfl), hh⟩

theorem opened_keep {s s' : Factory} {es : List Event} (he : s'.deeds = s.deeds ++ es)
    (hes : ∀ c h, .opened c h ∉ es) {c : CallId} {h : HandleId} (ho : .opened c h ∈ s'.events) :
    .opened c h ∈ s.events := by
  have hm : Event.opened c h ∈ s'.deeds := mem_deeds.2 ⟨ho, rfl⟩
  rw [he, List.mem_append] at hm
  exact (mem_deeds.1 (hm.resolve_right (hes c h))).1

/-! ## 2. Who waits -/

theorem not_waitsAt_of_run {s : Factory} {c : CallId} {a : Act}
    (ha : ∀ done todo, a ≠ .retire done todo .count) (h : HandleId) :
    ¬ WaitsAt s (some (c, a)) c h := by
  rintro (⟨hrun, -⟩ | ⟨done, todo, hrun, -⟩)
  · exact hrun a rfl
  · cases hrun
    exact ha done todo rfl

theorem not_waitsAt_of_get? {s : Factory} {c : CallId} {p : Progress} (hc : s.calls.get? c = some p)
    (hp : ∀ rs, p ≠ .retiring rs .count) (h : HandleId) : ¬ WaitsAt s none c h := by
  rintro (⟨-, rs, hrs, -⟩ | ⟨done, todo, hrun, -⟩)
  · exact hp rs (Option.some.inj (hc.symm.trans hrs))
  · cases hrun

theorem not_waitsAt_size {s : Factory} (h : HandleId) : ¬ WaitsAt s none s.calls.size h := by
  rintro (⟨-, rs, hrs, -⟩ | ⟨done, todo, hrun, -⟩)
  · exact Nat.lt_irrefl _ (Registry.lt_size_of_get? hrs)
  · cases hrun

/-- Calls other than the one that a step is about wait as before. -/
theorem waitsAt_keep {s s' : Factory} {run run' : Option (CallId × Act)} {c : CallId}
    (hrun : ∀ i a, run = some (i, a) → i = c) (hrun' : ∀ i a, run' = some (i, a) → i = c)
    (hcalls : ∀ i p, i ≠ c → s.calls.get? i = some p → s'.calls.get? i = some p) {h : HandleId}
    (hnot : ¬ WaitsAt s run c h) (i : CallId) (hw : WaitsAt s run i h) : WaitsAt s' run' i h := by
  have hi : i ≠ c := fun e => hnot (e ▸ hw)
  rcases hw with ⟨-, rs, hrs, hm⟩ | ⟨done, todo, hr, -⟩
  · exact .inl ⟨fun a ha => hi (hrun' i a ha), rs, hcalls i _ hi hrs, hm⟩
  · exact absurd (hrun i _ hr) hi

theorem charges_place {w : Want} {k : CellId} {v h : HandleId} {r : Bool}
    (hch : Charges (.place w k v) h r) : h = v ∧ r = false := by
  cases hch
  exact ⟨rfl, rfl⟩

theorem charges_retire {done todo : List Retirement} {q : Retirement} {next : AfterRetiring}
    {h : HandleId} {r : Bool} (hch : Charges (.retire done (q :: todo) next) h r) :
    q = { handle := h } := by
  cases hch
  rfl

end FateLemmas

open SoundLemmas FateLemmas

/-! ## 3. Steps that do not concern a handle -/

theorem Fate.kept_or_out {s : Factory} {run : Option (CallId × Act)} {h : HandleId} {x : Handle}
    (f : Fate s run h x) :
    (s.cache.handle? x.topic = some h ∧ x.retiring = false ∧ x.closed = false ∧ ∀ c, ¬ Took s c h) ∨
      ∀ t, s.cache.handle? t ≠ some h := by
  cases f with
  | kept hk hret hcl hno => exact .inl ⟨hk, hret, hcl, hno⟩
  | doomed hout | shut hout => exact .inr hout
  | loose _ _ hout => exact .inr hout

/-- A handle that is not in the map, and does not get there. -/
theorem Fate.out {s s' : Factory} {run run' : Option (CallId × Act)} {h : HandleId} {x y : Handle}
    (f : Fate s run h x) (hout : ∀ t, s.cache.handle? t ≠ some h)
    (hout' : ∀ t, s'.cache.handle? t ≠ some h)
    (hx : y.topic = x.topic ∧ y.retiring = x.retiring ∧ y.closed = x.closed)
    (htook : ∀ c, Took s' c h ↔ Took s c h)
    (hwait : x.closed = false → ∀ c, WaitsAt s run c h → WaitsAt s' run' c h)
    (hloose : ∀ c a, run = some (c, a) → Charges a h x.retiring → x.closed = false → x.borrows = 0 →
      False) : Fate s' run' h y := by
  obtain ⟨-, hr, hc⟩ := hx
  cases f with
  | kept hk => exact absurd hk (hout x.topic)
  | doomed _ hret hcl hm hw hone =>
    exact .doomed hout' (hr.trans hret) (hc.trans hcl) ((htook _).2 hm) (hwait hcl _ hw)
      fun c' hm' => hone c' ((htook c').1 hm')
  | shut _ hret hcl => exact .shut hout' (hr.trans hret) (hc.trans hcl)
  | loose hrun hch _ hcl hb _ => exact (hloose _ _ hrun hch hcl hb).elim

theorem Fate.keep {s s' : Factory} {run run' : Option (CallId × Act)} {h : HandleId} {x y : Handle}
    (f : Fate s run h x) (hcache : ∀ t, s'.cache.handle? t = s.cache.handle? t)
    (hx : y.topic = x.topic ∧ y.retiring = x.retiring ∧ y.closed = x.closed)
    (htook : ∀ c, Took s' c h ↔ Took s c h)
    (hwait : x.closed = false → ∀ c, WaitsAt s run c h → WaitsAt s' run' c h)
    (hloose : ∀ c a, run = some (c, a) → Charges a h x.retiring →
      (∀ t, s.cache.handle? t ≠ some h) → x.closed = false → x.borrows = 0 → False) :
    Fate s' run' h y := by
  rcases f.kept_or_out with ⟨hk, hret, hcl, hno⟩ | hout
  · obtain ⟨ht, hr, hc⟩ := hx
    exact .kept (by rw [hcache, ht, hk]) (hr.trans hret) (hc.trans hcl) fun c hm => hno c ((htook c).1 hm)
  · exact f.out hout (fun t => hcache t ▸ hout t) hx htook hwait fun c a hrun hch =>
      hloose c a hrun hch hout

/-- A step that opens, places, drains and closes nothing. -/
theorem Fated.keep {s s' : Factory} {run run' : Option (CallId × Act)} {c : CallId}
    (f : Fated s run) (hcache : ∀ t, s'.cache.handle? t = s.cache.handle? t)
    (hflags : SameFlags s.handles s'.handles) (hl : HandlesLater s.handles s'.handles)
    {es : List Event} (he : s'.deeds = s.deeds ++ es) (hes : Asks es)
    (hrun : ∀ i a, run = some (i, a) → i = c)
    (hrun' : ∀ i a, run' = some (i, a) → i = c)
    (hcalls : ∀ i p, i ≠ c → s.calls.get? i = some p → s'.calls.get? i = some p)
    (hnot : ∀ h, ¬ WaitsAt s run c h)
    (hloose : ∀ h x c a, s.handles.get? h = some x → run = some (c, a) → Charges a h x.retiring →
      (∀ t, s.cache.handle? t ≠ some h) → False) : Fated s' run' := by
  have hdrained : ∀ c hs, .drained c hs ∉ es := by
    intro c hs hm
    obtain ⟨_, _, _, he⟩ := hes _ hm
    cases he
  have hopened : ∀ c h, .opened c h ∉ es := by
    intro c h hm
    obtain ⟨_, _, _, he⟩ := hes _ hm
    cases he
  refine ⟨fun h y hy => ?_, fun i h hm => ?_, fun i h ho => ?_⟩
  · obtain ⟨x, hx, hxy⟩ := hflags h y hy
    exact (f.fate h x hx).keep hcache hxy (fun i => took_keep he hdrained i h)
      (fun _ => waitsAt_keep hrun hrun' hcalls (hnot h))
      fun c a hr hch hout _ _ => hloose h x c a hx hr hch hout
  · exact known_later hl (f.took i h ((took_keep he hdrained i h).1 hm))
  · exact known_later hl (f.opened i h (opened_keep he hopened ho))

/-- An act that has to do with no handle's fate. -/
def Plain (a : Act) : Prop :=
  (∀ done todo, a ≠ .retire done todo .count) ∧ ∀ h r, ¬ Charges a h r

/-- A turn that opens, places, drains and closes nothing. -/
theorem Fated.plain {s s' : Factory} {c : CallId} {a : Act} {next : Option Act}
    (f : Fated s (some (c, a))) (ha : Plain a)
    (hcache : ∀ t, s'.cache.handle? t = s.cache.handle? t)
    (hflags : SameFlags s.handles s'.handles) (hl : HandlesLater s.handles s'.handles)
    {es : List Event} (he : s'.deeds = s.deeds ++ es) (hes : Asks es)
    (hcalls : ∀ i p, i ≠ c → s.calls.get? i = some p → s'.calls.get? i = some p) :
    Fated s' (next.map fun a => (c, a)) := by
  refine f.keep hcache hflags hl he hes ?_ ?_ hcalls (not_waitsAt_of_run ha.1) ?_
  · intro i b hb
    cases hb
    rfl
  · intro i b hb
    cases next <;> cases hb
    rfl
  · intro h x i b _ hb hch
    cases hb
    exact absurd hch (ha.2 h x.retiring)

/-- A beginning that opens and drains nothing. -/
theorem Fated.begun {s s' : Factory} {c : CallId} {run : Option (CallId × Act)}
    (f : Fated s none) (hcache : ∀ t, s'.cache.handle? t = s.cache.handle? t)
    (hflags : SameFlags s.handles s'.handles) (hl : HandlesLater s.handles s'.handles)
    {es : List Event} (he : s'.deeds = s.deeds ++ es) (hes : Asks es)
    (hrun : ∀ i a, run = some (i, a) → i = c)
    (hcalls : ∀ i p, i ≠ c → s.calls.get? i = some p → s'.calls.get? i = some p)
    (hnot : ∀ h, ¬ WaitsAt s none c h) : Fated s' run :=
  f.keep hcache hflags hl he hes (fun _ _ => nofun) hrun hcalls hnot fun _ _ _ _ _ hb => nomatch hb

/-! ## 4. Turns -/

theorem Fated.turn_look {owner : CellId → String} {s s₁ : Factory} {c : CallId} {w : Want}
    {next : Option Act} (h : Sound owner s (some (c, .look w))) (f : Fated s (some (c, .look w)))
    (ht : Turn c s (.look w) s₁ next) : Fated s₁ (next.map fun a => (c, a)) := by
  have ha : Plain (.look w) := ⟨nofun, nofun⟩
  have hsame : SameFlags s.handles s.handles := sameFlags_of_eq rfl
  have hl := ht.later
  cases ht with
  | refused | spin =>
    exact f.plain ha (fun _ => rfl) hsame hl (by simp) asks_nil calls_goTo
  | found => exact f.plain ha (fun _ => rfl) hsame hl (by simp) asks_nil fun _ _ _ hq => hq
  | create _ hcell =>
    refine f.plain ha (fun t => ?_) hsame hl (by simp; rfl)
      (asks_one c s.tickets (.openProducer w.topic)) calls_goTo
    exact (Cache.handle?_setCell_of_eq (fun x _ => Cache.value_enter x c) t).trans
      (hcell.handle? h.tidy t)
  | queue _ hcell =>
    refine f.plain ha (fun t => ?_) hsame hl (by simp) asks_nil calls_goTo
    exact (Cache.handle?_setCell_of_eq (fun x _ => Cache.value_enter x c) t).trans
      (hcell.handle? h.tidy t)
  | lost hcell =>
    exact f.plain ha (hcell.handle? h.tidy) hsame hl (by simp) asks_nil fun _ _ _ hq => hq

theorem Fated.turn_grant {s s₁ : Factory} {c : CallId} {w : Want} {v : HandleId}
    {next : Option Act} (f : Fated s (some (c, .grant w v))) (ht : Turn c s (.grant w v) s₁ next) :
    Fated s₁ (next.map fun a => (c, a)) := by
  have ha : Plain (.grant w v) := ⟨nofun, nofun⟩
  have hflags := sameFlags_beginBorrow s.handles v
  have hl := ht.later
  cases ht with
  | handle => exact f.plain ha (fun _ => rfl) (sameFlags_of_eq rfl) hl (by simp) asks_nil calls_goTo
  | denied =>
    exact f.plain ha (fun _ => rfl) (sameFlags_refused s.handles v) hl (by simp) asks_nil calls_goTo
  | lease => exact f.plain ha (fun _ => rfl) hflags hl (by simp) asks_nil calls_goTo
  | @send _ _ _ m =>
    exact f.plain ha (fun _ => rfl) hflags hl (by simp; rfl) (asks_one c s.tickets (.send v m)) calls_goTo
  | @enqueue _ _ _ m =>
    exact f.plain ha (fun _ => rfl) hflags hl (by simp; rfl) (asks_one c s.tickets (.enqueue v m))
      calls_goTo
  | promise => exact f.plain ha (fun _ => rfl) hflags hl (by simp) asks_nil calls_start_goTo

/-- A handle that is not in the map is to be closed by the call that was to place it. -/
theorem Fated.lose {s : Factory} {c : CallId} {w : Want} {k : CellId} {v : HandleId}
    {next : AfterRetiring} (f : Fated s (some (c, .place w k v)))
    (hout : ∀ t, s.cache.handle? t ≠ some v) (hnext : next ≠ .count) :
    Fated { s with handles := stopAll s.handles [v] } (some (c, .retire [] [{ handle := v }] next)) := by
  have htook : ∀ i h, Took { s with handles := stopAll s.handles [v] } i h ↔ Took s i h :=
    fun i h => took_keep (List.append_nil _).symm (fun _ _ hm => nomatch hm) i h
  have hwait : ∀ h i, WaitsAt s (some (c, .place w k v)) i h →
      WaitsAt { s with handles := stopAll s.handles [v] }
        (some (c, .retire [] [{ handle := v }] next)) i h := fun h =>
    waitsAt_keep (c := c) eq_of_run eq_of_run
      (fun _ _ _ hq => hq) (not_waitsAt_of_run (a := .place w k v) nofun h)
  have hl := handlesLater_stopAll s.handles [v]
  refine ⟨fun h y hy => ?_, fun i h hm => ?_, fun i h ho => ?_⟩
  · obtain ⟨x, hx, rfl⟩ := Option.map_eq_some_iff.1 ((get?_stopAll s.handles [v] h).symm.trans hy)
    by_cases hv : h = v
    · subst hv
      rw [if_pos (List.mem_singleton.2 rfl)]
      cases f.fate h x hx with
      | kept hk => exact absurd hk (hout x.topic)
      | doomed _ hret | shut _ hret =>
        refine (f.fate h x hx).out hout hout ⟨rfl, hret.symm, rfl⟩ (fun i => htook i h)
          (fun _ => hwait h) fun i a hr hch _ _ => ?_
        cases hr
        exact absurd (hret.symm.trans (charges_place hch).2) nofun
      | loose _ _ _ hcl hb hno =>
        exact .loose rfl (.retire hnext) hout hcl hb fun i hm => hno i ((htook i h).1 hm)
    · rw [if_neg (by simpa using hv)]
      refine (f.fate h x hx).keep (fun _ => rfl) ⟨rfl, rfl, rfl⟩ (fun i => htook i h)
        (fun _ => hwait h) fun i a hr hch _ _ _ => ?_
      cases hr
      exact hv (charges_place hch).1
  · exact known_later hl (f.took i h ((htook i h).1 hm))
  · exact known_later hl (f.opened i h ho)

/-- The map adopts the handle that is placed. -/
theorem Fated.adopt {owner : CellId → String} {s : Factory} {c : CallId} {w : Want} {k : CellId}
    {v : HandleId} (h : Sound owner s (some (c, .place w k v))) (f : Fated s (some (c, .place w k v)))
    (hr : s.isRetiring v = false) (hnone : s.cache.handle? w.topic = none) (a : Act) :
    Fated { s with cache := s.cache.addCell w.topic { value := some v } } (some (c, a)) := by
  obtain ⟨hk, hv⟩ := h.act c _ rfl
  have htopic := topic?_of_cell h hk hv
  have hadd := fun t => Cache.handle?_addCell h.tidy w.topic t { value := some v }
  -- The handle that is adopted is not retiring, so that those which are stay out of the map.
  have htook : ∀ i u, Took { s with cache := s.cache.addCell w.topic { value := some v } } i u ↔
      Took s i u := fun i u => took_keep (List.append_nil _).symm (fun _ _ hm => nomatch hm) i u
  have hout : ∀ u x, s.handles.get? u = some x → x.retiring = true →
      (∀ t, s.cache.handle? t ≠ some u) →
      ∀ t, (s.cache.addCell w.topic { value := some v }).handle? t ≠ some u := by
    intro u x hx hret hout t ht
    rw [hadd] at ht
    split at ht
    · cases ht
      rw [isRetiring_eq hx, hret] at hr
      cases hr
    · exact hout t ht
  refine ⟨fun u x hx => ?_, fun i u hm => f.took i u ((htook i u).1 hm), fun i u ho => f.opened i u ho⟩
  cases f.fate u x hx with
  | kept hcur hret hcl hno =>
    refine .kept ((hadd x.topic).trans ?_) hret hcl fun i hm => hno i ((htook i u).1 hm)
    split
    · next ht => exact absurd ((ht ▸ hcur).symm.trans hnone) nofun
    · exact hcur
  | doomed ho hret | shut ho hret =>
    refine (f.fate u x hx).out ho (hout u x hx hret ho) ⟨rfl, rfl, rfl⟩ (fun i => htook i u)
      (fun _ => ?_) fun i b hrun hch _ _ => ?_
    · exact waitsAt_keep (c := c) eq_of_run eq_of_run
        (fun _ _ _ hq => hq) (not_waitsAt_of_run (a := .place w k v) nofun u)
    · cases hrun
      exact absurd (hret.symm.trans (charges_place hch).2) nofun
  | loose hrun hch _ hcl _ hno =>
    cases hrun
    obtain ⟨rfl, hret⟩ := charges_place hch
    refine .kept ((hadd x.topic).trans (if_pos ?_)) hret hcl fun i hm => hno i ((htook i _).1 hm)
    obtain ⟨y, hy, hyt⟩ := topic?_eq_some_iff.1 htopic
    cases hx.symm.trans hy
    exact hyt

theorem Fated.turn_place {owner : CellId → String} {s s₁ : Factory} {c : CallId} {w : Want}
    {k : CellId} {v : HandleId} {next : Option Act} (h : Sound owner s (some (c, .place w k v)))
    (f : Fated s (some (c, .place w k v))) (ht : Turn c s (.place w k v) s₁ next) :
    Fated s₁ (next.map fun a => (c, a)) := by
  obtain ⟨hk, hv⟩ := h.act c _ rfl
  have htopic := topic?_of_cell h hk hv
  have hplaced := Cache.place_placed s.cache (s.isRetiring v) w.topic k v
  -- Where the map stays as it is, the handle was in it, or retiring, and so it is not loose.
  have hstays : ∀ a, ((∃ t, s.cache.handle? t = some v) ∨ s.isRetiring v = true) →
      Fated s (some (c, a)) := by
    intro a hin
    refine f.keep (c := c) (fun _ => rfl) (sameFlags_of_eq rfl) (handlesLater_refl _)
      (List.append_nil _).symm asks_nil eq_of_run
      eq_of_run (fun _ _ _ hq => hq) (not_waitsAt_of_run nofun) ?_
    intro u x i b hx hb hch hout
    cases hb
    obtain ⟨rfl, hret⟩ := charges_place hch
    rcases hin with ⟨t, ht⟩ | hr
    · exact hout t ht
    · rw [isRetiring_eq hx, hret] at hr
      cases hr
  cases ht with
  | placed hp hout =>
    rw [hp] at hplaced
    rcases hout with rfl | rfl
    · cases hplaced with
      | kept _ _ hcur =>
        refine hstays _ (.inl ⟨w.topic, ?_⟩)
        rcases hcur with hcur | hcur
        · exact Cache.handle?_eq_some_iff.2 ⟨k, hcur, hv⟩
        · exact hcur
      | adopted _ hr _ hnone => exact f.adopt h hr hnone _
    · cases hplaced with
      | retired _ hr _ => exact hstays _ (.inr hr)
      | dropped _ hr hcur =>
        -- No handle in the map is retiring.
        have hin : s.cache.handle? w.topic = some v := Cache.handle?_eq_some_iff.2 ⟨k, hcur, hv⟩
        obtain ⟨x, hx, -⟩ := topic?_eq_some_iff.1 htopic
        rw [isRetiring_eq hx] at hr
        exfalso
        cases f.fate v x hx with
        | kept _ hret => exact absurd (hr.symm.trans hret) nofun
        | doomed hout | shut hout => exact hout _ hin
        | loose _ _ hout => exact hout _ hin
  | superseded hp =>
    rw [hp] at hplaced
    cases hplaced with
    | superseded _ _ _ hother hne =>
      refine f.lose (fun t ht => hne ?_) nofun
      have := topic?_of_handle? h ht
      rw [htopic] at this
      cases this
      exact Option.some.inj (hother.symm.trans ht)
  | shut hp =>
    rw [hp] at hplaced
    cases hplaced with
    | closed hcl =>
      refine f.lose (fun t ht => ?_) nofun
      have hmem := Cache.mem_handles_of_handle? ht
      unfold Cache.handles at hmem
      rw [h.tidy.closed hcl] at hmem
      cases hmem

theorem waitsAt_looked {s s' : Factory} {c : CallId} {done todo : List Retirement}
    {r r' : Retirement} {next : AfterRetiring} (hcalls : s'.calls = s.calls) {h : HandleId}
    (hr : r = { handle := h } → r' = r) {i : CallId}
    (hw : WaitsAt s (some (c, .retire done (r :: todo) next)) i h) :
    WaitsAt s' (some (c, .retire (done ++ [r']) todo next)) i h := by
  rcases hw with ⟨hi, rs, hrs, hm⟩ | ⟨done, todo, hrun, hm⟩
  · refine .inl ⟨fun a ha => ?_, rs, hcalls ▸ hrs, hm⟩
    cases ha
    exact hi _ rfl
  · cases hrun
    refine .inr ⟨_, _, rfl, ?_⟩
    rw [List.append_assoc, List.mem_append]
    rcases List.mem_append.1 hm with hm | hm
    · exact .inl hm
    · rcases List.mem_cons.1 hm with heq | hm
      · exact .inr (List.mem_cons.2 (.inl ((hr heq.symm).trans heq.symm).symm))
      · exact .inr (List.mem_cons_of_mem _ hm)

/-- A look at one more retirement that closes nothing. -/
theorem Fated.looked {s s' : Factory} {c : CallId} {done todo : List Retirement}
    {r r' : Retirement} {next : AfterRetiring}
    (f : Fated s (some (c, .retire done (r :: todo) next))) (hcache : s'.cache = s.cache)
    (hcalls : s'.calls = s.calls) (hflags : SameFlags s.handles s'.handles)
    (hl : HandlesLater s.handles s'.handles) (hd : s'.deeds = s.deeds)
    (hr : ∀ h x, s.handles.get? h = some x → x.closed = false → r = { handle := h } → r' = r)
    (hloose : ∀ h x, s.handles.get? h = some x → r = { handle := h } → x.closed = false →
      x.borrows = 0 → False) : Fated s' (some (c, .retire (done ++ [r']) todo next)) := by
  have htook : ∀ i h, Took s' i h ↔ Took s i h :=
    fun i h => took_keep (hd.trans (List.append_nil _).symm) (fun _ _ hm => nomatch hm) i h
  refine ⟨fun h y hy => ?_, fun i h hm => ?_, fun i h ho => ?_⟩
  · obtain ⟨x, hx, hxy⟩ := hflags h y hy
    refine (f.fate h x hx).keep (fun t => by rw [hcache]) hxy (fun i => htook i h)
      (fun hcl i => waitsAt_looked hcalls (hr h x hx hcl)) fun i a hrun hch _ hcl hb => ?_
    cases hrun
    exact hloose h x hx (charges_retire hch) hcl hb
  · exact known_later hl (f.took i h ((htook i h).1 hm))
  · exact known_later hl (f.opened i h
      (opened_keep (hd.trans (List.append_nil _).symm) (fun _ _ hm => nomatch hm) ho))

/-- A producer is closed that nobody borrows. -/
theorem Fated.close {s s' : Factory} {c : CallId} {done todo : List Retirement}
    {r : Retirement} {next : AfterRetiring} {x : Handle} {t : Ticket}
    (f : Fated s (some (c, .retire done (r :: todo) next)))
    (hx : s.handles.get? r.handle = some x) (hret : x.retiring = true) (hcl : x.closed = false)
    (hcache : s'.cache = s.cache) (hcalls : s'.calls = s.calls)
    (hh : s'.handles = s.handles.update r.handle fun x =>
      { x.claimClose.2 with closes := x.closes + 1 })
    (hd : s'.deeds = s.deeds ++ [.asked c t (.close r.handle)]) :
    Fated s' (some (c, .retire (done ++ [{ r with stage := .closing t }]) todo next)) := by
  have hdrained : ∀ i hs, .drained i hs ∉ [Event.asked c t (.close r.handle)] := by
    intro i hs hm
    cases List.mem_singleton.1 hm
  have htook := took_keep hd hdrained
  have hl : HandlesLater s.handles s'.handles := by
    rw [hh]
    exact handlesLater_update _ _ fun x _ => ⟨rfl, rfl, fun h => h, fun _ => rfl⟩
  refine ⟨fun h y hy => ?_, fun i h hm => ?_, fun i h ho => ?_⟩
  · rw [hh, Registry.get?_update] at hy
    split at hy
    · next hv =>
      subst hv
      rw [hx] at hy
      cases hy
      cases f.fate r.handle x hx with
      | kept _ hret' => exact absurd (hret.symm.trans hret') nofun
      | shut _ _ hcl' => exact absurd (hcl'.symm.trans hcl) nofun
      | doomed hout => exact .shut (fun t => hcache ▸ hout t) hret rfl
      | loose _ _ hout => exact .shut (fun t => hcache ▸ hout t) hret rfl
    · next hv =>
      have hne : r ≠ { handle := h } := fun e => hv (congrArg Retirement.handle e)
      refine (f.fate h y hy).keep (fun t => by rw [hcache]) ⟨rfl, rfl, rfl⟩ (fun i => htook i h)
        (fun _ i => waitsAt_looked hcalls fun e => absurd e hne) fun i a hrun hch _ _ _ => ?_
      cases hrun
      exact hne (charges_retire hch)
  · exact known_later hl (f.took i h ((htook i h).1 hm))
  · exact known_later hl (f.opened i h (opened_keep hd (fun _ _ hm => nomatch List.mem_singleton.1 hm) ho))

/-- When all was looked at, a call waits for what could not be closed yet. -/
theorem Fated.wait {s : Factory} {c : CallId} {done : List Retirement} {next : AfterRetiring}
    {p : Progress} (f : Fated s (some (c, .retire done [] next))) (hc : s.calls.get? c = some p) :
    Fated (s.goTo c (.retiring done next)) none := by
  have hwait : ∀ h i, WaitsAt s (some (c, .retire done [] next)) i h →
      WaitsAt (s.goTo c (.retiring done next)) none i h := by
    rintro h i (⟨hi, rs, hrs, hm⟩ | ⟨done, todo, hrun, hm⟩)
    · refine .inl ⟨fun _ => nofun, rs, calls_goTo i _ (fun e => ?_) hrs, hm⟩
      exact hi (.retire done [] next) (e ▸ rfl)
    · cases hrun
      rw [List.append_nil] at hm
      refine .inl ⟨fun _ => nofun, done, ?_, hm⟩
      show (s.calls.update c fun _ => .retiring done .count).get? c = _
      rw [Registry.get?_update, if_pos rfl, hc]
      rfl
  refine ⟨fun h x hx => ?_, f.took, f.opened⟩
  refine (f.fate h x hx).keep (fun _ => rfl) ⟨rfl, rfl, rfl⟩ (fun _ => Iff.rfl) (fun _ => hwait h)
    fun i a hrun hch _ _ _ => ?_
  cases hrun
  cases hch

theorem Fated.turn_retire {owner : CellId → String} {s s₁ : Factory} {c : CallId}
    {done todo : List Retirement} {after : AfterRetiring} {next : Option Act}
    (h : Sound owner s (some (c, .retire done todo after)))
    (b : Balanced s (some (c, .retire done todo after)))
    (f : Fated s (some (c, .retire done todo after)))
    (ht : Turn c s (.retire done todo after) s₁ next) : Fated s₁ (next.map fun a => (c, a)) := by
  have hsame : SameFlags s.handles s.handles := sameFlags_of_eq rfl
  have hl := ht.later
  cases ht with
  | skip hskip =>
    refine f.looked rfl rfl hsame hl rfl (fun _ _ _ _ _ => rfl) fun v x hx hr _ _ => ?_
    subst hr
    rcases hskip with hst | hnone
    · exact hst rfl
    · exact absurd (hx.symm.trans hnone) nofun
  | elsewhere _ hx _ hcl =>
    refine f.looked rfl rfl hsame hl rfl (fun v y hy hcl' hr => ?_) fun v y hy hr hcl' _ => ?_
    · subst hr
      cases hx.symm.trans hy
      exact absurd (hcl.symm.trans hcl') nofun
    · subst hr
      cases hx.symm.trans hy
      exact absurd (hcl.symm.trans hcl') nofun
  | @close _ _ r _ x _ hx _ hcl =>
    have hret := (h.act c _ rfl).1 r (List.mem_append_right _ List.mem_cons_self)
    rw [isRetiring_eq hx] at hret
    exact f.close hx hret hcl rfl rfl rfl (by simp)
  | @park _ _ r _ x _ hx hb =>
    refine f.looked rfl rfl (sameFlags_update s.handles r.handle fun x => ?_) hl rfl
      (fun _ _ _ _ _ => rfl) fun v y hy hr _ hb' => ?_
    · unfold Handle.park
      split <;> exact ⟨rfl, rfl, rfl⟩
    · subst hr
      cases hx.symm.trans hy
      exact hb hb'
  | goOn =>
    exact f.plain ⟨fun _ _ => nofun, fun _ _ => nofun⟩ (fun _ => rfl) hsame hl (List.append_nil _).symm
      asks_nil fun _ _ _ hq => hq
  | fail =>
    exact f.plain ⟨fun _ _ => nofun, fun _ _ => nofun⟩ (fun _ => rfl) hsame hl (by simp) asks_nil
      calls_goTo
  | count hover =>
    -- A call that counts has nothing left to close.
    refine f.keep (c := c) (fun _ => rfl) hsame hl (by simp) asks_nil eq_of_run (fun _ _ => nofun) calls_goTo
      ?_ ?_
    · rintro v (⟨hi, -⟩ | ⟨done, todo, hrun, hm⟩)
      · exact hi _ rfl
      · cases hrun
        rw [List.append_nil] at hm
        exact absurd (List.all_eq_true.1 hover _ hm) nofun
    · intro v x i a _ hrun hch
      cases hrun
      cases hch
  | wait =>
    obtain ⟨p, hc, -⟩ := b.runs c _ rfl
    exact f.wait hc

theorem Fated.turn {owner : CellId → String} {s s₁ : Factory} {c : CallId} {a : Act}
    {next : Option Act} (h : Sound owner s (some (c, a))) (b : Balanced s (some (c, a)))
    (f : Fated s (some (c, a))) (ht : Turn c s a s₁ next) : Fated s₁ (next.map fun a => (c, a)) := by
  cases a with
  | look w => exact f.turn_look h ht
  | grant w v => exact f.turn_grant ht
  | place w k v => exact f.turn_place h ht
  | retire done todo after => exact f.turn_retire h b ht
  | give w v =>
    have hl := ht.later
    cases ht <;> exact f.plain ⟨nofun, nofun⟩ (fun _ => rfl) (sameFlags_of_eq rfl) hl
      (List.append_nil _).symm asks_nil fun _ _ _ hq => hq

/-! ## 5. Beginnings -/

/-- A reset or a shutdown takes all handles out of the map. -/
theorem Fated.drain {owner : CellId → String} {s : Factory} {c : CallId} {p : Progress}
    {taken : Cache × List HandleId} (h : Sound owner s none) (f : Fated s none)
    (hc : s.calls.get? c = some p) (hp : ∀ rs, p ≠ .retiring rs .count)
    (hempty : taken.1.entries = []) (htaken : taken.2 = s.cache.handles) :
    Fated
      ({ s with cache := taken.1, handles := stopAll s.handles taken.2 }.note (.drained c taken.2))
      (some (c, .retire [] (taken.2.map fun h => { handle := h }) .count)) := by
  generalize hs' : ({ s with cache := taken.1, handles := stopAll s.handles taken.2 }.note
    (.drained c taken.2)) = s'
  have hd : s'.deeds = s.deeds ++ [.drained c taken.2] := by
    rw [← hs']
    simp
  have hh : s'.handles = stopAll s.handles taken.2 := by rw [← hs']; rfl
  have hcalls : s'.calls = s.calls := by rw [← hs']; rfl
  have hnone : ∀ t, s'.cache.handle? t = none := by
    intro t
    rw [← hs']
    show (Entries.find? t taken.1.entries).bind _ = none
    rw [hempty]
    rfl
  have hl : HandlesLater s.handles s'.handles := hh ▸ handlesLater_stopAll s.handles taken.2
  have htook := took_drained hd
  have hout : ∀ v, (∀ t, s.cache.handle? t ≠ some v) → v ∉ taken.2 := by
    intro v hv hm
    rw [htaken] at hm
    obtain ⟨t, ht⟩ := h.tidy.mem_handles_iff.1 hm
    exact hv t ht
  have hgone : ∀ v t, s'.cache.handle? t ≠ some v := fun v t => hnone t ▸ nofun
  refine ⟨fun v y hy => ?_, fun i v hm => ?_, fun i v ho => ?_⟩
  · rw [hh, get?_stopAll] at hy
    obtain ⟨x, hx, rfl⟩ := Option.map_eq_some_iff.1 hy
    rcases (f.fate v x hx).kept_or_out with ⟨hcur, -, hcl, hno⟩ | ho
    · -- What was in use is taken now, and by this call only.
      have hm : v ∈ taken.2 := htaken ▸ Cache.mem_handles_of_handle? hcur
      rw [if_pos hm]
      refine .doomed (c := c) (hgone v) rfl hcl ((htook c v).2 (.inr ⟨rfl, hm⟩)) ?_ fun i hi => ?_
      · exact .inr ⟨[], _, rfl, List.mem_map.2 ⟨v, hm, rfl⟩⟩
      · rcases (htook i v).1 hi with hi | ⟨rfl, -⟩
        · exact absurd hi (hno i)
        · rfl
    · have hm := hout v ho
      rw [if_neg hm]
      refine (f.fate v x hx).out ho (hgone v) ⟨rfl, rfl, rfl⟩ (fun i => ?_) (fun _ => ?_) fun _ _ => nofun
      · exact (htook i v).trans ⟨fun hi => hi.resolve_right fun hi => hm hi.2, .inl⟩
      · exact waitsAt_keep (c := c) eq_of_none eq_of_run (fun i q _ hq => hcalls ▸ hq)
          (not_waitsAt_of_get? hc hp v)
  · have hx : ∃ x, s.handles.get? v = some x := by
      rcases (htook i v).1 hm with hm | ⟨-, hm⟩
      · exact f.took i v hm
      · rw [htaken] at hm
        obtain ⟨t, ht⟩ := h.tidy.mem_handles_iff.1 hm
        obtain ⟨x, hx, -⟩ := topic?_eq_some_iff.1 (topic?_of_handle? h ht)
        exact ⟨x, hx⟩
    exact known_later hl hx
  · exact known_later hl (f.opened i v (opened_keep hd (fun _ _ hm => nomatch List.mem_singleton.1 hm) ho))

/-- A producer is opened. If its cell is still in the map, its handle is in use; if not, it is with the
call that opened it. -/
theorem Fated.created {owner : CellId → String} {s : Factory} {c : CallId} {w : Want} {k : CellId}
    {t : Ticket} (h : Sound owner s none) (f : Fated s none)
    (hc : s.calls.get? c = some (.creating w k t)) (m : DispatchMode) (cs : List CallId) :
    Fated
      (({ s with
          handles := s.handles.add { topic := w.topic, mode := m }
          cache := s.cache.setCell k fun x => (x.fill s.handles.size).1 }.note
        (.opened c s.handles.size)).rouse cs) (some (c, .place w k s.handles.size)) := by
  obtain ⟨hk, hturn⟩ : s.cache.IsCell owner w.topic k ∧ s.cache.HasTurn c k := h.fits c _ hc fun _ => nofun
  generalize hs' : (({ s with
    handles := s.handles.add { topic := w.topic, mode := m }
    cache := s.cache.setCell k fun x => (x.fill s.handles.size).1 }.note
      (.opened c s.handles.size)).rouse cs) = s'
  have hd : s'.deeds = s.deeds ++ [.opened c s.handles.size] := by
    rw [← hs']
    simp
  have hh : s'.handles = s.handles.add { topic := w.topic, mode := m } := by rw [← hs']; rfl
  have hcalls : s'.calls = s.calls := by rw [← hs']; rfl
  have hcache : ∀ t', s'.cache.handle? t' =
      if s.cache.current? t' = some k then some s.handles.size else s.cache.handle? t' := by
    intro t'
    rw [← hs']
    exact Cache.handle?_fill hturn s.handles.size t'
  have htook := took_keep hd fun _ _ hm => nomatch List.mem_singleton.1 hm
  have hl : HandlesLater s.handles s'.handles := hh ▸ handlesLater_add s.handles _
  have hfresh : s.handles.get? s.handles.size = none :=
    (Registry.get?_eq_none_iff _ _).2 (Nat.le_refl _)
  have hold : ∀ v x, s.handles.get? v = some x → v ≠ s.handles.size := by
    rintro v x hx rfl
    exact absurd (hx.symm.trans hfresh) nofun
  have hout : ∀ v x, s.handles.get? v = some x → (∀ t, s.cache.handle? t ≠ some v) →
      ∀ t, s'.cache.handle? t ≠ some v := by
    intro v x hx ho t ht
    rw [hcache] at ht
    split at ht
    · exact hold v x hx (Option.some.inj ht).symm
    · exact ho t ht
  have hno : ∀ i, ¬ Took s' i s.handles.size := by
    intro i hm
    obtain ⟨x, hx⟩ := f.took i _ ((htook i _).1 hm)
    exact hold _ x hx rfl
  refine ⟨fun v y hy => ?_, fun i v hm => ?_, fun i v ho => ?_⟩
  · rw [hh, Registry.get?_add] at hy
    split at hy
    · next hv =>
      cases hy
      subst hv
      -- A drain may have taken the cell out of the map while the producer was being opened.
      by_cases hcur : s.cache.current? w.topic = some k
      · exact .kept ((hcache w.topic).trans (if_pos hcur)) rfl rfl hno
      · refine .loose rfl .place (fun t' ht' => ?_) rfl rfl hno
        rw [hcache] at ht'
        split at ht'
        · next hk' =>
          have := (h.tidy.current? hk').2
          rw [hk.2] at this
          exact hcur (this ▸ hk')
        · obtain ⟨x, hx, -⟩ := topic?_eq_some_iff.1 (topic?_of_handle? h ht')
          exact hold _ x hx rfl
    · next hv =>
      rcases (f.fate v y hy).kept_or_out with ⟨hcur, hret, hcl, hnot⟩ | ho
      · refine .kept ((hcache y.topic).trans ?_) hret hcl fun i hm => hnot i ((htook i v).1 hm)
        rw [if_neg]
        · exact hcur
        · intro hk'
          rw [hturn.handle? hk'] at hcur
          cases hcur
      · exact (f.fate v y hy).out ho (hout v y hy ho) ⟨rfl, rfl, rfl⟩ (fun i => htook i v)
          (fun _ => waitsAt_keep (c := c) eq_of_none eq_of_run (fun i q _ hq => hcalls ▸ hq)
            (not_waitsAt_of_get? hc (fun _ => nofun) v)) fun _ _ => nofun
  · exact known_later hl (f.took i v ((htook i v).1 hm))
  · have hm : Event.opened i v ∈ s'.deeds := mem_deeds.2 ⟨ho, rfl⟩
    rw [hd, List.mem_append] at hm
    rcases hm with hm | hm
    · exact known_later hl (f.opened i v (mem_deeds.1 hm).1)
    · cases List.mem_singleton.1 hm
      rw [hh]
      exact ⟨_, (Registry.get?_add _ _ _).trans (if_pos rfl)⟩

/-- A call goes on with retiring what it was retiring. -/
theorem Fated.resume {s : Factory} {c : CallId} {rs rs' : List Retirement} {next : AfterRetiring}
    (f : Fated s none) (hc : s.calls.get? c = some (.retiring rs next))
    (hrs : ∀ v, { handle := v } ∈ rs → { handle := v } ∈ rs') :
    Fated s (some (c, .retire [] rs' next)) := by
  refine ⟨fun v x hx => ?_, f.took, f.opened⟩
  refine (f.fate v x hx).keep (fun _ => rfl) ⟨rfl, rfl, rfl⟩ (fun _ => Iff.rfl) (fun _ i hw => ?_)
    fun _ _ => nofun
  rcases hw with ⟨-, rs₀, hrs₀, hm⟩ | ⟨_, _, hrun, -⟩
  · by_cases hi : i = c
    · subst hi
      cases hc.symm.trans hrs₀
      exact .inr ⟨[], rs', rfl, hrs v hm⟩
    · exact .inl ⟨fun a ha => hi (eq_of_run i a ha), rs₀, hrs₀, hm⟩
  · cases hrun

theorem Fated.stop {s s₁ : Factory} {c : CallId} {p final : Progress} (f : Fated s none)
    (hc : s.calls.get? c = some p) (hp : ∀ rs, p ≠ .retiring rs .count) (hs : LetsGo s c p s₁) :
    Fated ((s₁.goTo c final).note (.finished c)) none := by
  have hnot := not_waitsAt_of_get? hc hp
  have hsame : SameFlags s.handles s.handles := sameFlags_of_eq rfl
  have hl := hs.later
  have he : ((s₁.goTo c final).note (.finished c)).deeds = s.deeds ++ [] := by simp [hs.deeds_eq]
  cases hs with
  | fresh | awaiting | spinning =>
    exact f.begun (fun _ => rfl) hsame hl he asks_nil eq_of_none calls_goTo hnot
  | queued | creating =>
    exact f.begun (Cache.handle?_setCell_of_eq fun x _ => Cache.value_leave x c) hsame hl he asks_nil
      eq_of_none calls_goTo hnot
  | retiring hget =>
    exact f.begun (fun _ => rfl) (sameFlags_parked hget) hl he asks_nil eq_of_none calls_goTo hnot
  | dispatch | sending | completing =>
    exact f.begun (fun _ => rfl) (sameFlags_endBorrow s.handles _) hl he asks_nil eq_of_none calls_goTo
      hnot

theorem Fated.begins {owner : CellId → String} {s s₁ : Factory} {l : Label}
    {run : Option (CallId × Act)} (h : Sound owner s none) (f : Fated s none) (hu : Undisturbed s l)
    (hb : Begins s l s₁ run) : Fated s₁ run := by
  have hsame : SameFlags s.handles s.handles := sameFlags_of_eq rfl
  have hl := hb.later
  have hcalls : ∀ c i (q : Progress), i ≠ c → s.calls.get? i = some q → s.calls.get? i = some q :=
    fun _ _ _ _ hq => hq
  cases hb with
  | call =>
    exact f.begun (c := s.calls.size) (fun _ => rfl) hsame hl (by simp) asks_nil eq_of_none
      (fun _ _ _ hq => calls_start hq) not_waitsAt_size
  | want hc | filled hc =>
    exact f.begun (fun _ => rfl) hsame hl (List.append_nil _).symm asks_nil eq_of_run (hcalls _)
      (not_waitsAt_of_get? hc nofun)
  | refuse hc | await hc | settled hc =>
    exact f.begun (fun _ => rfl) hsame hl (by simp) asks_nil eq_of_none calls_goTo
      (not_waitsAt_of_get? hc nofun)
  | drain hc htaken =>
    rcases htaken with ⟨rfl, rfl⟩ | ⟨rfl, rfl⟩ <;> exact f.drain h hc nofun rfl rfl
  | @dispatch c v m _ hc =>
    exact f.begun (fun _ => rfl) hsame hl (by simp; rfl) (asks_one c s.tickets (.send v m))
      eq_of_none calls_goTo (not_waitsAt_of_get? hc nofun)
  | @create c w k hc =>
    exact f.begun (fun _ => rfl) hsame hl (by simp) (asks_one c s.tickets (.openProducer w.topic))
      eq_of_none calls_goTo (not_waitsAt_of_get? hc nofun)
  | retire hc => exact f.resume hc fun _ hm => hm
  | @closed c t rs next r hc _ =>
    refine f.resume hc fun v hm => List.mem_map.2 ⟨_, hm, ?_⟩
    unfold closeOver
    rw [if_neg nofun]
  | created hc => exact f.created h hc _ _
  | failed hc =>
    exact f.begun (Cache.handle?_setCell_of_eq fun x _ => Cache.value_pass x) hsame hl (by simp)
      asks_nil eq_of_none calls_goTo (not_waitsAt_of_get? hc nofun)
  | receipt hc | rejected hc | completed hc =>
    exact f.begun (fun _ => rfl) (sameFlags_endBorrow s.handles _) hl (by simp) asks_nil eq_of_none
      calls_goTo (not_waitsAt_of_get? hc nofun)
  | accepted hc =>
    exact f.begun (fun _ => rfl) hsame hl (by simp) asks_nil eq_of_none calls_start_goTo
      (not_waitsAt_of_get? hc nofun)
  | @stop c l p final _ hfinal hc hs =>
    refine f.stop hc (fun rs hp => ?_) hs
    subst hp
    rcases hfinal with ⟨rfl, -⟩ | ⟨rfl, -⟩ <;> exact hu rs hc
  | @leased v =>
    exact f.begun (fun _ => rfl) (sameFlags_beginBorrow s.handles v) hl (by simp) asks_nil eq_of_none
      (hcalls _) not_waitsAt_size
  | @denied v =>
    exact f.begun (fun _ => rfl) (sameFlags_refused s.handles v) hl (by simp) asks_nil eq_of_none
      (hcalls _) not_waitsAt_size
  | released =>
    exact f.begun (fun _ => rfl) (sameFlags_endBorrow s.handles _) hl (by simp) asks_nil eq_of_none
      (hcalls _) not_waitsAt_size

theorem fated_new : Fated new none where
  fate h x hx := by simp [new] at hx
  took c h hm := by
    obtain ⟨hs, hm, -⟩ := hm
    cases hm
  opened c h hm := by cases hm

/-! ## 6. Runs -/

theorem Run.fated {tr : List (Label × Factory)} {s : Factory} (h : Run Undisturbed tr s) :
    Fated s none := by
  have hall : (∃ owner, Sound owner s none) ∧ Balanced s none ∧ Fated s none := by
    refine h.induct (I := fun _ s run => (∃ owner, Sound owner s run) ∧ Balanced s run ∧ Fated s run)
      ⟨⟨_, sound_new⟩, balanced_new, fated_new⟩ ?_ ?_
    · rintro tr s s₁ l run - hl ⟨⟨owner, hs⟩, b, f⟩ hb
      refine ⟨⟨owner, hs.begins hb⟩, b.begins (fun r hr => ?_) hb, f.begins hs hl hb⟩
      subst hr
      exact hl
    · rintro tr s s₁ s₂ l c a next - - ⟨⟨owner, hs⟩, b, f⟩ ht
      exact ⟨hs.turn ht, b.turn hs ht, f.turn hs b ht⟩
  exact hall.2.2

/-- In every run in which no reset or shutdown is ended at its work, every producer that was opened is
either in use, or waits to be closed by the one call that took it out of the map, or was closed once; and
it is in no two of these conditions. -/
theorem producer_fate {tr : List (Label × Factory)} {s : Factory} (h : Run Undisturbed tr s)
    {c : CallId} {v : HandleId} (ho : .opened c v ∈ s.events) :
    (Kept s v ∨ Doomed s v ∨ Shut s v) ∧
      ¬ (Kept s v ∧ Doomed s v) ∧ ¬ (Kept s v ∧ Shut s v) ∧ ¬ (Doomed s v ∧ Shut s v) := by
  obtain ⟨owner, hs⟩ := h.sound
  have b := h.balanced fun s r hr => hr
  have f := h.fated
  obtain ⟨x, hx⟩ := f.opened c v ho
  have hclosed : s.closeCount v = if x.closed then 1 else 0 := by
    rw [b.closes v, ← (b.settled v x hx).closes]
    unfold closesOf
    rw [hx]
    rfl
  have hmem : (∀ t, s.cache.handle? t ≠ some v) → v ∉ s.cache.handles := by
    intro hout hm
    obtain ⟨t, ht⟩ := hs.tidy.mem_handles_iff.1 hm
    exact hout t ht
  refine ⟨?_, fun ⟨k, d⟩ => ?_, fun ⟨k, d⟩ => ?_, fun ⟨k, d⟩ => ?_⟩
  · cases f.fate v x hx with
    | kept hcur hret hcl _ =>
      refine .inl ⟨⟨x, hx, hcur⟩, (isRetiring_eq hx).trans hret, ?_⟩
      rw [hclosed, hcl]
      rfl
    | @doomed c ho hret hcl hm hw hone =>
      refine .inr (.inl ⟨hmem ho, (isRetiring_eq hx).trans hret, ?_, c, hm, ?_, hone⟩)
      · rw [hclosed, hcl]
        rfl
      · rcases hw with ⟨-, hw⟩ | ⟨_, _, hrun, -⟩
        · exact hw
        · cases hrun
    | shut ho hret hcl =>
      refine .inr (.inr ⟨hmem ho, (isRetiring_eq hx).trans hret, ?_⟩)
      rw [hclosed, hcl]
      rfl
    | loose hrun => cases hrun
  · exact absurd (k.leasing.symm.trans d.retiring) nofun
  · exact absurd (k.leasing.symm.trans d.retiring) nofun
  · exact absurd (k.unclosed.symm.trans d.closed) nofun

/-- While a reset waits for a lease: one producer was closed, one is to be closed, and a new one is in
use. -/
theorem producer_fate_during_reset :
    ∃ tr s, Run Undisturbed tr s ∧ Shut s 0 ∧ Doomed s 1 ∧ Kept s 2 := by
  have h : Run Undisturbed _ _ :=
    Run.new.play [.call (.want ⟨"u", .open⟩), .resume 0, .answer 0 0 (.opened (.ok .sequential)),
      .call (.want ⟨"t", .lease⟩), .resume 1, .answer 1 1 (.opened (.ok .sequential)), .call .reset,
      .resume 2, .call (.want ⟨"t", .open⟩), .resume 3, .answer 3 3 (.opened (.ok .sequential))]
      (by simp [Undisturbed, Request.IsPublic]) rfl
  refine ⟨_, _, h, ?_, ?_, ?_⟩
  · rcases (producer_fate h (c := 0) (v := 0) (List.mem_of_getElem? (i := 3) rfl)).1 with hk | hd | hs
    · exact absurd hk.unclosed nofun
    · exact absurd hd.unclosed nofun
    · exact hs
  · rcases (producer_fate h (c := 1) (v := 1) (List.mem_of_getElem? (i := 8) rfl)).1 with hk | hd | hs
    · exact absurd hk.leasing nofun
    · exact hd
    · exact absurd hs.closed nofun
  · rcases (producer_fate h (c := 3) (v := 2) (List.mem_of_getElem? (i := 16) rfl)).1 with hk | hd | hs
    · exact hk
    · exact absurd hd.retiring nofun
    · exact absurd hs.retiring nofun

end Factory

end TopicPublisher
