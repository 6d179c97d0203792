import TopicPublisher.Proofs.Factory.Moment
import TopicPublisher.Proofs.Handle.Later

/-!
# Calls, cells and retired handles

What every call of a factory can rely on at each of its points, whatever the other calls do. A call that
waits at a cell is at a cell of its topic; the one that creates a handle has the turn there; a call that
retires handles retires such as grant no leases any more; and what a call is about to do with a handle
fits the handle.

Results:
1. `Turn.later`, `Begins.later`: handles keep their topics and their flags. `Begins.closed_or`: only a
   shutdown closes the cache.
2. `Keeps`: what a change made by one call leaves to the others.
3. `Sound.turn`, `Sound.begins`: every moment of a step leaves all this as it is.
4. `Run.sound`: so it holds in every run.
-/

namespace TopicPublisher

namespace Factory

/-! ## Definitions -/

/-- What holds of the handle that a call goes on with after retiring others. -/
def NextFits (s : Factory) : AfterRetiring → Prop
  | .give w h => s.topic? h = some w.topic
  | _ => True

/-- What holds of a call while it waits at one of its points. -/
def Fits (owner : CellId → String) (s : Factory) (c : CallId) : Progress → Prop
  | .queued w k => s.cache.IsCell owner w.topic k
  | .creating w k _ => s.cache.IsCell owner w.topic k ∧ s.cache.HasTurn c k
  | .retiring rs next => (∀ r ∈ rs, s.isRetiring r.handle = true) ∧ NextFits s next
  | _ => True

/-- What holds of the call that runs. -/
def ActFits (owner : CellId → String) (s : Factory) : Act → Prop
  | .look _ => True
  | .give w h => s.topic? h = some w.topic
  | .grant w h => s.topic? h = some w.topic ∧ (w.purpose = .peek ∨ s.isRetiring h = false)
  | .place w k h => s.cache.IsCell owner w.topic k ∧ s.cache.value? k = some h
  | .retire done todo next => (∀ r ∈ done ++ todo, s.isRetiring r.handle = true) ∧ NextFits s next

/-- The cache is in order, its handles are of their cells' topics, and every call fits. -/
structure Sound (owner : CellId → String) (s : Factory) (run : Option (CallId × Act)) : Prop where
  tidy : s.cache.Tidy owner
  stocked : s.cache.Stocked s.topic? owner
  fits : ∀ i p, s.calls.get? i = some p → (∀ a, run ≠ some (i, a)) → Fits owner s i p
  act : ∀ c a, run = some (c, a) → ActFits owner s a

/-- What a change by call `c` leaves to the others. -/
structure Keeps (owner owner' : CellId → String) (c : CallId) (s s' : Factory) : Prop where
  cache : s.cache.Keeps s'.topic? owner owner' c s'.cache
  handles : HandlesLater s.handles s'.handles

/-! ## 1. Handles and the flag of the cache -/

theorem later_endBorrow_update (a : Registry Handle) (h : HandleId) :
    HandlesLater a (a.update h fun x => x.endBorrow.1) :=
  handlesLater_update a h fun x _ => Handle.later_endBorrow x

theorem later_refused_update (a : Registry Handle) (h : HandleId) :
    HandlesLater a (a.update h fun x => x.beginBorrow.endBorrow.1) :=
  handlesLater_update a h fun x _ => (Handle.later_beginBorrow x).trans (Handle.later_endBorrow _)

theorem later_beginBorrow_update (a : Registry Handle) (h : HandleId) :
    HandlesLater a (a.update h Handle.beginBorrow) :=
  handlesLater_update a h fun x _ => Handle.later_beginBorrow x

theorem Turn.later {c : CallId} {s s₁ : Factory} {a : Act} {next : Option Act}
    (ht : Turn c s a s₁ next) : HandlesLater s.handles s₁.handles := by
  cases ht with
  | denied => exact later_refused_update s.handles _
  | lease | send | enqueue | promise => exact later_beginBorrow_update s.handles _
  | superseded | shut => exact handlesLater_stopAll s.handles _
  | close => exact handlesLater_update s.handles _ fun x _ => ⟨rfl, rfl, fun h => h, fun _ => rfl⟩
  | park => exact handlesLater_update s.handles _ fun x _ => Handle.later_park x c
  | _ => exact handlesLater_refl s.handles

theorem LetsGo.later {c : CallId} {s s₁ : Factory} {p : Progress} (hs : LetsGo s c p s₁) :
    HandlesLater s.handles s₁.handles := by
  cases hs with
  | dispatch | sending | completing => exact later_endBorrow_update s.handles _
  | retiring hget => exact handlesLater_parked hget
  | _ => exact handlesLater_refl s.handles

theorem LetsGo.deeds_eq {c : CallId} {s s₁ : Factory} {p : Progress} (hs : LetsGo s c p s₁) :
    s₁.deeds = s.deeds := by
  cases hs with
  | retiring => exact deeds_withdraw _ _
  | _ => simp

theorem Begins.later {s s₁ : Factory} {l : Label} {run : Option (CallId × Act)}
    (hb : Begins s l s₁ run) : HandlesLater s.handles s₁.handles := by
  cases hb with
  | drain => exact handlesLater_stopAll s.handles _
  | created => exact handlesLater_add s.handles _
  | receipt | rejected | completed | released => exact later_endBorrow_update s.handles _
  | stop _ _ hs => exact hs.later
  | leased => exact later_beginBorrow_update s.handles _
  | denied => exact later_refused_update s.handles _
  | _ => exact handlesLater_refl s.handles

/-- No turn opens or closes the cache. -/
theorem Turn.closed_eq {c : CallId} {s s₁ : Factory} {a : Act} {next : Option Act}
    (ht : Turn c s a s₁ next) : s₁.cache.closed = s.cache.closed := by
  cases ht with
  | create _ hcell | queue _ hcell => exact hcell.closed_eq
  | lost hcell => exact hcell.closed_eq
  | placed hp | superseded hp | shut hp => exact Cache.closed_of_place hp
  | _ => rfl

/-- Only a shutdown closes the cache. -/
theorem Begins.closed_or {s s₁ : Factory} {l : Label} {run : Option (CallId × Act)}
    (hb : Begins s l s₁ run) : s₁.cache.closed = s.cache.closed ∨
      (s₁.cache.closed = true ∧ ∃ c, s.calls.get? c = some (.fresh .shutdown)) := by
  cases hb with
  | drain hc htaken =>
    rcases htaken with ⟨rfl, rfl⟩ | ⟨rfl, rfl⟩
    · exact .inl rfl
    · exact .inr ⟨rfl, _, hc⟩
  | stop _ _ hs => cases hs <;> exact .inl rfl
  | _ => exact .inl rfl

namespace SoundLemmas

/-! ## 2. Changes -/

theorem NextFits.mono {s s' : Factory} {next : AfterRetiring} (h : NextFits s next)
    (hl : HandlesLater s.handles s'.handles) : NextFits s' next := by
  cases next with
  | give => exact topic?_later hl h
  | refuse | count => trivial

theorem Fits.mono {owner owner' : CellId → String} {s s' : Factory} {c i : CallId} {p : Progress}
    (h : Fits owner s i p) (k : Keeps owner owner' c s s') (hi : i ≠ c) : Fits owner' s' i p := by
  cases p with
  | queued => exact k.cache.grows.isCell h
  | creating => exact ⟨k.cache.grows.isCell h.1, k.cache.grows.turn i _ hi h.2⟩
  | retiring =>
    exact ⟨fun r hr => isRetiring_later k.handles (h.1 r hr), NextFits.mono h.2 k.handles⟩
  | _ => trivial

/-- A change of handles, or of nothing that matters here. -/
theorem keeps_of_cache_eq {owner : CellId → String} {s s' : Factory} {run : Option (CallId × Act)}
    (h : Sound owner s run) (c : CallId) (hc : s'.cache = s.cache)
    (hl : HandlesLater s.handles s'.handles) : Keeps owner owner c s s' where
  cache := by
    rw [hc]
    exact Cache.keeps_refl h.tidy (h.stocked.mono fun _ _ => topic?_later hl) c
  handles := hl

theorem keeps_refl {owner : CellId → String} {s s' : Factory} {run : Option (CallId × Act)}
    (h : Sound owner s run) (c : CallId) (hc : s'.cache = s.cache) (hh : s'.handles = s.handles) :
    Keeps owner owner c s s' :=
  keeps_of_cache_eq h c hc (hh ▸ handlesLater_refl s.handles)

/-- A change of the cache alone. -/
theorem keeps_of_handles_eq {owner owner' : CellId → String} {s s' : Factory} {c : CallId}
    (hh : s'.handles = s.handles) (k : s.cache.Keeps s.topic? owner owner' c s'.cache) :
    Keeps owner owner' c s s' where
  cache := by
    have htopic : s'.topic? = s.topic? := by
      unfold topic?
      rw [hh]
    rw [htopic]
    exact k
  handles := hh ▸ handlesLater_refl s.handles

/-- A call that got to its next point. -/
theorem Sound.ends {owner owner' : CellId → String} {s s' : Factory} {run : Option (CallId × Act)}
    {c : CallId} (h : Sound owner s run) (hrun : ∀ i a, run = some (i, a) → i = c)
    (k : Keeps owner owner' c s s')
    (hcalls : ∀ i p, s'.calls.get? i = some p →
      Fits owner' s' i p ∨ (i ≠ c ∧ s.calls.get? i = some p)) : Sound owner' s' none where
  tidy := k.cache.tidy
  stocked := k.cache.stocked
  fits i p hp _ := by
    rcases hcalls i p hp with hp | ⟨hi, hp⟩
    · exact hp
    · exact Fits.mono (h.fits i p hp fun a ha => hi (hrun i a ha)) k hi
  act _ _ ha := by cases ha

/-- A call that runs on. -/
theorem Sound.goesOn {owner owner' : CellId → String} {s s' : Factory} {run : Option (CallId × Act)}
    {c : CallId} {a : Act} (h : Sound owner s run) (hrun : ∀ i a, run = some (i, a) → i = c)
    (k : Keeps owner owner' c s s') (hcalls : s'.calls = s.calls) (ha : ActFits owner' s' a) :
    Sound owner' s' (some (c, a)) where
  tidy := k.cache.tidy
  stocked := k.cache.stocked
  fits i p hp hi := by
    have hic : i ≠ c := fun e => hi a (e ▸ rfl)
    rw [hcalls] at hp
    exact Fits.mono (h.fits i p hp fun b hb => hic (hrun i b hb)) k hic
  act i b hb := by
    cases hb
    exact ha

/-- A call that got to another point: what holds of that point, or of the calls that there were. -/
theorem fits_goTo {Q : CallId → Progress → Prop} {r : Registry Progress} {c : CallId} {p : Progress}
    (hp : Q c p) : ∀ i q, (r.update c fun _ => p).get? i = some q →
      Q i q ∨ (i ≠ c ∧ r.get? i = some q) := by
  intro i q hq
  rcases Registry.get?_update_const hq with ⟨rfl, rfl⟩ | ⟨hi, hq⟩
  · exact .inl hp
  · exact .inr ⟨Ne.symm hi, hq⟩

/-- A new call. -/
theorem fits_start {Q : CallId → Progress → Prop} {r : Registry Progress} {p : Progress}
    (hp : Q r.size p) : ∀ i q, (r.add p).get? i = some q →
      Q i q ∨ (i ≠ r.size ∧ r.get? i = some q) := by
  intro i q hq
  rw [Registry.get?_add] at hq
  split at hq
  · next hi =>
    cases hq
    exact .inl (hi ▸ hp)
  · next hi => exact .inr ⟨hi, hq⟩

/-- No call gets anywhere. -/
theorem fits_same {Q : CallId → Progress → Prop} {r : Registry Progress} :
    ∀ i q, r.get? i = some q → Q i q ∨ (i ≠ r.size ∧ r.get? i = some q) :=
  fun _ _ hq => .inr ⟨Nat.ne_of_lt (Registry.lt_size_of_get? hq), hq⟩

/-- A call that ended, and another one that it left behind. -/
theorem fits_start_goTo {Q : CallId → Progress → Prop} {r : Registry Progress} {c : CallId}
    {p p' : Progress} (hp : Q c p) (hp' : Q r.size p') :
    ∀ i q, ((r.add p').update c fun _ => p).get? i = some q →
      Q i q ∨ (i ≠ c ∧ r.get? i = some q) := by
  intro i q hq
  rcases fits_goTo hp i q hq with hq | ⟨hi, hq⟩
  · exact .inl hq
  · rcases fits_start hp' i q hq with hq | ⟨-, hq⟩
    · exact .inl hq
    · exact .inr ⟨hi, hq⟩

theorem calls_goTo {r : Registry Progress} {c : CallId} {p : Progress} :
    ∀ i q, i ≠ c → r.get? i = some q → (r.update c fun _ => p).get? i = some q := by
  intro i q hi hq
  rw [Registry.get?_update, if_neg (Ne.symm hi)]
  exact hq

theorem calls_start {r : Registry Progress} {p : Progress} {i : CallId} {q : Progress}
    (hq : r.get? i = some q) : (r.add p).get? i = some q := by
  rw [Registry.get?_add, if_neg (Nat.ne_of_lt (Registry.lt_size_of_get? hq))]
  exact hq

theorem calls_start_goTo {r : Registry Progress} {c : CallId} {p p' : Progress} :
    ∀ i q, i ≠ c → r.get? i = some q → ((r.add p').update c fun _ => p).get? i = some q :=
  fun i q hi hq => calls_goTo i q hi (calls_start hq)

theorem eq_of_run {c : CallId} {a : Act} : ∀ i b, some (c, a) = some (i, b) → i = c := by
  intro i b hb
  cases hb
  rfl

theorem eq_of_none {c : CallId} : ∀ i (b : Act), none = some (i, b) → i = c := fun _ _ => nofun

theorem nobody_runs {c : CallId} : ∀ a : Act, none ≠ some (c, a) := fun _ => nofun

theorem topic?_of_cell {owner : CellId → String} {s : Factory} {run : Option (CallId × Act)}
    (h : Sound owner s run) {t : String} {k : CellId} {v : HandleId} (hk : s.cache.IsCell owner t k)
    (hv : s.cache.value? k = some v) : s.topic? v = some t :=
  hk.2 ▸ h.stocked k v hv

theorem topic?_of_handle? {owner : CellId → String} {s : Factory} {run : Option (CallId × Act)}
    (h : Sound owner s run) {t : String} {v : HandleId} (hv : s.cache.handle? t = some v) :
    s.topic? v = some t := by
  obtain ⟨k, hk, hval⟩ := Cache.handle?_eq_some_iff.1 hv
  exact topic?_of_cell h (h.tidy.current? hk) hval

theorem isRetiring_stopAll {s s' : Factory} {hs : List HandleId}
    (hh : s'.handles = stopAll s.handles hs) {v : HandleId} {t : String} (hv : s.topic? v = some t)
    (hm : v ∈ hs) : s'.isRetiring v = true := by
  obtain ⟨x, hx, -⟩ := topic?_eq_some_iff.1 hv
  refine isRetiring_iff.2 ⟨x.stopLeasing, ?_, rfl⟩
  rw [hh, get?_stopAll, hx, Option.map_some, if_pos hm]

/-- A cell that the map has is one of the cells there are, and so is a new one. -/
theorem Sound.not_lost {owner : CellId → String} {s : Factory} {run : Option (CallId × Act)}
    (h : Sound owner s run) {t : String} {cache : Cache} {k : CellId}
    (hcell : s.cache.CellFor t (cache, k)) (hx : cache.cells.get? k = none) : False := by
  rw [Registry.get?_eq_none_iff] at hx
  cases hcell with
  | found hk => exact Nat.not_lt.2 hx (h.tidy.current? hk).1
  | added => exact Nat.not_lt.2 hx (Cache.isCell_addCell owner s.cache t {}).1

/-! ## 3. Turns -/

theorem Sound.turn_look {owner : CellId → String} {s s₁ : Factory} {c : CallId} {w : Want}
    {next : Option Act} (h : Sound owner s (some (c, .look w))) (ht : Turn c s (.look w) s₁ next) :
    ∃ owner', Sound owner' s₁ (next.map fun a => (c, a)) := by
  cases ht with
  | refused | spin =>
    exact ⟨owner, Sound.ends h eq_of_run (keeps_refl h c rfl rfl) (fits_goTo trivial)⟩
  | found _ hv hp =>
    refine ⟨owner, Sound.goesOn h eq_of_run (keeps_refl h c rfl rfl) rfl ?_⟩
    exact ⟨topic?_of_handle? h hv, hp⟩
  | @create _ _ j _ ho hcell hx hv hturn =>
    -- The cell may be a new one, and then it is only now that it has a topic.
    obtain ⟨owner', k, hk⟩ := Cache.keeps_cellFor h.tidy h.stocked ho hcell c
    have ke := Cache.keeps_enter k.tidy k.stocked c j
    refine ⟨owner', Sound.ends h eq_of_run (keeps_of_handles_eq rfl (k.trans ke)) (fits_goTo ?_)⟩
    exact ⟨ke.grows.isCell hk, Cache.hasTurn_enter hx hv hturn⟩
  | @queue _ _ j _ ho hcell =>
    obtain ⟨owner', k, hk⟩ := Cache.keeps_cellFor h.tidy h.stocked ho hcell c
    have ke := Cache.keeps_enter k.tidy k.stocked c j
    refine ⟨owner', Sound.ends h eq_of_run (keeps_of_handles_eq rfl (k.trans ke)) (fits_goTo ?_)⟩
    exact ke.grows.isCell hk
  | lost hcell hx =>
    exact (Sound.not_lost h hcell hx).elim

theorem Sound.turn_place {owner : CellId → String} {s s₁ : Factory} {c : CallId} {w : Want}
    {k : CellId} {v : HandleId} {next : Option Act} (h : Sound owner s (some (c, .place w k v)))
    (ht : Turn c s (.place w k v) s₁ next) : ∃ owner', Sound owner' s₁ (next.map fun a => (c, a)) := by
  obtain ⟨hk, hv⟩ := h.act c _ rfl
  have htopic := topic?_of_cell h hk hv
  have hplaced := Cache.place_placed s.cache (s.isRetiring v) w.topic k v
  cases ht with
  | placed hp hout =>
    rw [hp] at hplaced
    obtain ⟨owner', keeps⟩ := Cache.keeps_place h.tidy h.stocked hk hv hplaced c
    refine ⟨owner', Sound.goesOn h eq_of_run (keeps_of_handles_eq rfl keeps) rfl ?_⟩
    rcases hout with rfl | rfl <;> cases hplaced <;> exact htopic
  | superseded hp =>
    rw [hp] at hplaced
    cases hplaced with
    | superseded _ _ _ hother _ =>
      have hl := handlesLater_stopAll s.handles [v]
      refine ⟨owner, Sound.goesOn h eq_of_run (keeps_of_cache_eq h c rfl hl) rfl ⟨?_, ?_⟩⟩
      · intro r hr
        rw [List.mem_singleton.1 hr]
        exact isRetiring_stopAll rfl htopic (List.mem_singleton.2 rfl)
      · exact topic?_later hl (topic?_of_handle? h hother)
  | shut hp =>
    rw [hp] at hplaced
    cases hplaced with
    | closed =>
      have hl := handlesLater_stopAll s.handles [v]
      refine ⟨owner, Sound.goesOn h eq_of_run (keeps_of_cache_eq h c rfl hl) rfl ⟨?_, trivial⟩⟩
      intro r hr
      rw [List.mem_singleton.1 hr]
      exact isRetiring_stopAll rfl htopic (List.mem_singleton.2 rfl)

/-- Looking at one more retirement, which stays one of the same handle. -/
theorem Sound.turn_retire {owner : CellId → String} {s s₁ : Factory} {c : CallId}
    {done todo : List Retirement} {r r' : Retirement} {next : AfterRetiring}
    (h : Sound owner s (some (c, .retire done (r :: todo) next))) (hr : r'.handle = r.handle)
    (hcache : s₁.cache = s.cache) (hcalls : s₁.calls = s.calls)
    (hl : HandlesLater s.handles s₁.handles) :
    Sound owner s₁ (some (c, .retire (done ++ [r']) todo next)) := by
  obtain ⟨hrs, hnext⟩ := h.act c _ rfl
  refine Sound.goesOn h eq_of_run (keeps_of_cache_eq h c hcache hl) hcalls ⟨?_, ?_⟩
  · intro q hq
    refine isRetiring_later hl ?_
    rw [List.append_assoc, List.mem_append] at hq
    rcases hq with hq | hq
    · exact hrs q (List.mem_append_left _ hq)
    · rcases List.mem_cons.1 hq with rfl | hq
      · rw [hr]
        exact hrs r (List.mem_append_right _ List.mem_cons_self)
      · exact hrs q (List.mem_append_right _ (List.mem_cons_of_mem _ hq))
  · exact NextFits.mono hnext hl

end SoundLemmas

open SoundLemmas

theorem Sound.turn {owner : CellId → String} {s s₁ : Factory} {c : CallId} {a : Act}
    {next : Option Act} (h : Sound owner s (some (c, a))) (ht : Turn c s a s₁ next) :
    ∃ owner', Sound owner' s₁ (next.map fun a => (c, a)) := by
  cases a with
  | look w => exact Sound.turn_look h ht
  | place w k v => exact Sound.turn_place h ht
  | give w v =>
    have htopic := h.act c _ rfl
    cases ht with
    | keep hp => exact ⟨owner, Sound.goesOn h eq_of_run (keeps_refl h c rfl rfl) rfl ⟨htopic, hp⟩⟩
    | again => exact ⟨owner, Sound.goesOn h eq_of_run (keeps_refl h c rfl rfl) rfl trivial⟩
  | grant w v =>
    have hl := ht.later
    cases ht with
    | handle => exact ⟨owner, Sound.ends h eq_of_run (keeps_refl h c rfl rfl) (fits_goTo trivial)⟩
    | denied | lease | send | enqueue =>
      exact ⟨owner, Sound.ends h eq_of_run (keeps_of_cache_eq h c rfl hl) (fits_goTo trivial)⟩
    | promise =>
      exact ⟨owner, Sound.ends h eq_of_run (keeps_of_cache_eq h c rfl hl)
        (fits_start_goTo trivial trivial)⟩
  | retire done todo after =>
    obtain ⟨hrs, hnext⟩ := h.act c _ rfl
    have hl := ht.later
    cases ht with
    | skip | elsewhere | close | park => exact ⟨owner, Sound.turn_retire h rfl rfl rfl hl⟩
    | goOn => exact ⟨owner, Sound.goesOn h eq_of_run (keeps_refl h c rfl rfl) rfl hnext⟩
    | fail | count =>
      exact ⟨owner, Sound.ends h eq_of_run (keeps_refl h c rfl rfl) (fits_goTo trivial)⟩
    | wait =>
      rw [List.append_nil] at hrs
      have k : Keeps owner owner c s (s.goTo c (.retiring done after)) := keeps_refl h c rfl rfl
      exact ⟨owner, Sound.ends h eq_of_run k (fits_goTo ⟨hrs, hnext⟩)⟩

namespace SoundLemmas

/-! ## 4. Beginnings -/

theorem Sound.drain {owner : CellId → String} {s : Factory} (h : Sound owner s none) (c : CallId)
    {taken : Cache × List HandleId} (hcells : taken.1.cells = s.cache.cells)
    (hempty : taken.1.entries = []) (hclosed : s.cache.closed = true → taken.1.closed = true)
    (htaken : taken.2 = s.cache.handles) :
    Sound owner
      ({ s with cache := taken.1, handles := stopAll s.handles taken.2 }.note (.drained c taken.2))
      (some (c, .retire [] (taken.2.map fun h => { handle := h }) .count)) := by
  have hl := handlesLater_stopAll s.handles taken.2
  have k : Keeps owner owner c s
      ({ s with cache := taken.1, handles := stopAll s.handles taken.2 }.note (.drained c taken.2)) :=
    ⟨Cache.keeps_emptied (h.stocked.mono fun _ _ => topic?_later hl) hcells hempty hclosed c, hl⟩
  refine Sound.goesOn h eq_of_none k rfl ⟨?_, trivial⟩
  intro r hr
  obtain ⟨v, hv, rfl⟩ := List.mem_map.1 hr
  obtain ⟨t, j, hj, hval⟩ := Cache.mem_handles.1 (htaken ▸ hv)
  exact isRetiring_stopAll rfl (h.stocked j v hval) hv

theorem Sound.created {owner : CellId → String} {s : Factory} (h : Sound owner s none) {c : CallId}
    {w : Want} {k : CellId} {t : Ticket} (hc : s.calls.get? c = some (.creating w k t))
    (m : DispatchMode) (cs : List CallId) :
    Sound owner
      (({ s with
          handles := s.handles.add { topic := w.topic, mode := m }
          cache := s.cache.setCell k fun x => (x.fill s.handles.size).1 }.note
        (.opened c s.handles.size)).rouse cs) (some (c, .place w k s.handles.size)) := by
  obtain ⟨hk, hturn⟩ : s.cache.IsCell owner w.topic k ∧ s.cache.HasTurn c k :=
    h.fits c _ hc fun _ => nofun
  have hl := handlesLater_add s.handles { topic := w.topic, mode := m }
  have hown : topic? { s with handles := s.handles.add { topic := w.topic, mode := m } }
      s.handles.size = some (owner k) := by
    rw [hk.2]
    exact topic?_eq_some_iff.2 ⟨_, (Registry.get?_add _ _ _).trans (if_pos rfl), rfl⟩
  have keeps := Cache.keeps_fill h.tidy
    (h.stocked.mono fun _ _ ht => topic?_later (s := s) hl ht) hturn hown
  have hfilled := (Cache.value?_fill hturn s.handles.size k).trans (if_pos rfl)
  have kf : Keeps owner owner c s
      (({ s with
          handles := s.handles.add { topic := w.topic, mode := m }
          cache := s.cache.setCell k fun x => (x.fill s.handles.size).1 }.note
        (.opened c s.handles.size)).rouse cs) := ⟨keeps, hl⟩
  exact Sound.goesOn h eq_of_none kf rfl ⟨keeps.grows.isCell hk, hfilled⟩

theorem Sound.stop {owner : CellId → String} {s s₁ : Factory} {c : CallId} {p : Progress}
    (h : Sound owner s none) (hs : LetsGo s c p s₁) (final : Progress)
    (hfinal : ∀ s, Fits owner s c final) :
    Sound owner ((s₁.goTo c final).note (.finished c)) none := by
  have hcalls : s₁.calls = s.calls := by cases hs <;> rfl
  have hl := hs.later
  have k : Keeps owner owner c s ((s₁.goTo c final).note (.finished c)) := by
    cases hs with
    | dispatch | sending | completing | retiring => exact keeps_of_cache_eq h c rfl hl
    | fresh | awaiting | spinning => exact keeps_refl h c rfl rfl
    | @queued _ j | @creating _ j =>
      exact keeps_of_handles_eq rfl (Cache.keeps_leave h.tidy h.stocked c j)
  refine Sound.ends h eq_of_none k ?_
  show ∀ i q, (s₁.calls.update c fun _ => final).get? i = some q → _
  rw [hcalls]
  exact fits_goTo (hfinal _)

end SoundLemmas

theorem Sound.begins {owner : CellId → String} {s s₁ : Factory} {l : Label}
    {run : Option (CallId × Act)} (h : Sound owner s none) (hb : Begins s l s₁ run) :
    Sound owner s₁ run := by
  have hl := hb.later
  cases hb with
  | @call r => exact Sound.ends h eq_of_none (keeps_refl h s.calls.size rfl rfl) (fits_start trivial)
  | want => exact Sound.goesOn h eq_of_none (keeps_refl h _ rfl rfl) rfl trivial
  | refuse | await | dispatch | settled =>
    exact Sound.ends h eq_of_none (keeps_refl h _ rfl rfl) (fits_goTo trivial)
  | drain _ htaken =>
    rcases htaken with ⟨rfl, rfl⟩ | ⟨rfl, rfl⟩
    · exact Sound.drain h _ rfl rfl (fun h => h) rfl
    · exact Sound.drain h _ rfl rfl (fun _ => rfl) rfl
  | filled hc hv =>
    have hk : s.cache.IsCell owner _ _ := h.fits _ _ hc fun _ => nofun
    exact Sound.goesOn h eq_of_none (keeps_refl h _ rfl rfl) rfl ⟨hk, hv⟩
  | @create c w k hc hturn =>
    have hk : s.cache.IsCell owner _ _ := h.fits _ _ hc fun _ => nofun
    have keeps : Keeps owner owner c s (s.create c w k) := keeps_refl h c rfl rfl
    exact Sound.ends h eq_of_none keeps (fits_goTo ⟨hk, hturn⟩)
  | retire hc => exact Sound.goesOn h eq_of_none (keeps_refl h _ rfl rfl) rfl (h.fits _ _ hc fun _ => nofun)
  | created hc => exact Sound.created h hc _ _
  | @failed c t w k e cs hc =>
    have hturn : s.cache.HasTurn c k := (h.fits _ _ hc fun _ => nofun).2
    exact Sound.ends h eq_of_none
      (keeps_of_handles_eq rfl (Cache.keeps_pass h.tidy h.stocked hturn)) (fits_goTo trivial)
  | receipt | rejected | completed =>
    exact Sound.ends h eq_of_none (keeps_of_cache_eq h _ rfl hl) (fits_goTo trivial)
  | accepted =>
    exact Sound.ends h eq_of_none (keeps_refl h _ rfl rfl) (fits_start_goTo trivial trivial)
  | @closed c t rs next r hc _ =>
    obtain ⟨hrs, hnext⟩ : (∀ r ∈ rs, s.isRetiring r.handle = true) ∧ NextFits s next :=
      h.fits _ _ hc fun _ => nofun
    refine Sound.goesOn h eq_of_none (keeps_refl h c rfl rfl) rfl ⟨?_, hnext⟩
    intro q hq
    obtain ⟨q₀, hq₀, rfl⟩ := List.mem_map.1 hq
    unfold closeOver
    split <;> exact hrs q₀ hq₀
  | stop hlabel hc hs =>
    refine Sound.stop h hs _ fun s => ?_
    rcases hlabel with ⟨-, rfl⟩ | ⟨-, rfl⟩ <;> trivial
  | leased | denied | released =>
    exact Sound.ends h eq_of_none (keeps_of_cache_eq h _ rfl hl) fits_same

theorem sound_new : Sound (fun _ => "") new none where
  tidy := Cache.tidy_empty _
  stocked k h hv := by simp [new, Cache.value?] at hv
  fits c p hp := by simp [new] at hp
  act c a ha := by cases ha

theorem Run.sound {ok : Factory → Label → Prop} {tr : List (Label × Factory)} {s : Factory}
    (h : Run ok tr s) : ∃ owner, Sound owner s none := by
  refine h.induct (I := fun _ s run => ∃ owner, Sound owner s run) ⟨_, sound_new⟩ ?_ ?_
  · rintro tr s s₁ l run - - ⟨owner, h⟩ hb
    exact ⟨owner, h.begins hb⟩
  · rintro tr s s₁ s₂ l c a next - - ⟨owner, h⟩ ht
    exact h.turn ht

end Factory

end TopicPublisher
