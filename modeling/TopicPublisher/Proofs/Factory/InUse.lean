import TopicPublisher.Proofs.Factory.Fate

/-!
# Handles in use

Between two steps of a factory the handles that grant leases are those that the map has for their topics.
Within a step there is at most one more: the one that the call that runs is about to place. No handle can
get into the map and lose its flag, or keep it and be left out, whichever calls are aborted and however
creations, resets and shutdowns come together.

Results:
1. `InUse.turn_place`, `InUse.drain`, `InUse.created`: the steps that change the map or raise a flag.
2. `InUse.begins`, `InUse.turn`: at every moment the handles that grant leases are in the map.
3. `InUse.granted`: what a call is granted is the handle that the map has for its topic.
4. `InUse.remap`, `Remap.cached`, `Begins.cached`: what becomes of the map; only a reset or a shutdown
   takes a topic's handle out of it.
-/

namespace TopicPublisher

namespace Factory

/-! ## Definitions -/

/-- The handles that the map has and the handles that grant leases are the same ones. -/
structure InUse (s : Factory) (run : Option (CallId × Act)) : Prop where
  leasing : ∀ t v, s.cache.handle? t = some v → s.isRetiring v = false
  mapped : ∀ v t, s.topic? v = some t → s.isRetiring v = false →
    s.cache.handle? t = some v ∨ ∃ c w k, run = some (c, .place w k v)

/-- A reset or a shutdown takes all handles out of the map. -/
def IsDrain : Label × Factory → Bool
  | (.resume c, s) => match s.calls.get? c with
    | some (.fresh .reset) => true
    | some (.fresh .shutdown) => true
    | _ => false
  | _ => false

/-- What an act leaves of the map, and of the handles in the cells. -/
inductive Remap (b : Cache) : Act → Cache → Prop
  | same {a : Act} {b' : Cache} : b'.value? = b.value? → b'.current? = b.current? → Remap b a b'
  /-- A topic without a cell has a new and empty one. -/
  | added {a : Act} {b' : Cache} {t : String} : b.current? t = none →
      (b'.value? = fun k => if k = b.cells.size then none else b.value? k) →
      (b'.current? = fun t' => if t' = t then some b.cells.size else b.current? t') → Remap b a b'
  /-- A topic without a handle has a new cell with the one that is placed. -/
  | adopted {b' : Cache} {w : Want} {k : CellId} {v : HandleId} : b.current? w.topic ≠ some k →
      b.handle? w.topic = none →
      (b'.value? = fun k' => if k' = b.cells.size then some v else b.value? k') →
      (b'.current? = fun t' => if t' = w.topic then some b.cells.size else b.current? t') →
      Remap b (.place w k v) b'

/-- The same handles as before grant leases, and there are no new ones. -/
def SameLeasing (a b : Registry Handle) : Prop :=
  ∀ v y, b.get? v = some y → ∃ x, a.get? v = some x ∧ y.topic = x.topic ∧ y.retiring = x.retiring

namespace InUseLemmas

open SoundLemmas FateLemmas

variable {s s' : Factory} {c : CallId} {v : HandleId} {run : Option (CallId × Act)}

/-! ## 1. Flags -/

theorem sameLeasing_of_flags {a b : Registry Handle} (h : SameFlags a b) : SameLeasing a b := by
  intro v y hy
  obtain ⟨x, hx, ht, hr, -⟩ := h v y hy
  exact ⟨x, hx, ht, hr⟩

theorem sameLeasing_refl (a : Registry Handle) : SameLeasing a a :=
  sameLeasing_of_flags (sameFlags_of_eq rfl)

theorem sameLeasing_close (a : Registry Handle) (v : HandleId) :
    SameLeasing a (a.update v fun x => { x.claimClose.2 with closes := x.closes + 1 }) := by
  intro h y hy
  rw [Registry.get?_update] at hy
  split at hy
  · obtain ⟨x, hx, rfl⟩ := Option.map_eq_some_iff.1 hy
    exact ⟨x, hx, rfl, rfl⟩
  · exact ⟨y, hy, rfl, rfl⟩

theorem sameLeasing_park (a : Registry Handle) (v : HandleId) (c : CallId) :
    SameLeasing a (a.update v fun x => x.park c) := by
  refine sameLeasing_of_flags (sameFlags_update a v fun x => ?_)
  unfold Handle.park
  split <;> exact ⟨rfl, rfl, rfl⟩

/-- No flag goes up at a turn, except that of a handle that is placed. -/
theorem Turn.sameLeasing {a : Act} {next : Option Act} (ha : ∀ w k v, a ≠ .place w k v)
    (ht : Turn c s a s' next) : SameLeasing s.handles s'.handles := by
  cases ht with
  | placed | superseded | shut => exact (ha _ _ _ rfl).elim
  | denied => exact sameLeasing_of_flags (sameFlags_refused s.handles _)
  | lease | send | enqueue | promise =>
    exact sameLeasing_of_flags (sameFlags_beginBorrow s.handles _)
  | close => exact sameLeasing_close s.handles _
  | park => exact sameLeasing_park s.handles _ c
  | _ => exact sameLeasing_refl s.handles

theorem LetsGo.sameLeasing {p : Progress} (hs : LetsGo s c p s') :
    SameLeasing s.handles s'.handles := by
  cases hs with
  | dispatch | sending | completing => exact sameLeasing_of_flags (sameFlags_endBorrow s.handles _)
  | retiring hget => exact sameLeasing_of_flags (sameFlags_parked hget)
  | _ => exact sameLeasing_refl s.handles

theorem isRetiring_stopAll_of_not_mem {hs : List HandleId} (hh : s'.handles = stopAll s.handles hs)
    (hv : v ∉ hs) : s'.isRetiring v = s.isRetiring v := by
  unfold isRetiring
  rw [hh, get?_stopAll]
  simp [hv]

theorem topic?_stopAll {hs : List HandleId} (hh : s'.handles = stopAll s.handles hs) :
    s'.topic? v = s.topic? v := by
  unfold topic?
  rw [hh, get?_stopAll]
  cases s.handles.get? v with
  | none => rfl
  | some x =>
    by_cases hv : v ∈ hs
    · simp [hv, Handle.stopLeasing]
    · simp [hv]

/-- A handle that grants leases after flags went up did so before, and its flag did not go up. -/
theorem leasing_of_stopAll {hs : List HandleId} {t : String}
    (hh : s'.handles = stopAll s.handles hs) (ht : s'.topic? v = some t)
    (hr : s'.isRetiring v = false) : v ∉ hs ∧ s.topic? v = some t ∧ s.isRetiring v = false := by
  have ht' : s.topic? v = some t := (topic?_stopAll hh).symm.trans ht
  have hnot : v ∉ hs := fun hm =>
    absurd ((isRetiring_stopAll hh ht' hm).symm.trans hr) nofun
  exact ⟨hnot, ht', (isRetiring_stopAll_of_not_mem hh hnot).symm.trans hr⟩

theorem isRetiring_add {x : Handle} (hh : s'.handles = s.handles.add x) (hv : v ≠ s.handles.size) :
    s'.isRetiring v = s.isRetiring v := by
  unfold isRetiring
  rw [hh, Registry.get?_add, if_neg hv]

theorem topic?_add {x : Handle} (hh : s'.handles = s.handles.add x) (hv : v ≠ s.handles.size) :
    s'.topic? v = s.topic? v := by
  unfold topic?
  rw [hh, Registry.get?_add, if_neg hv]

/-! ## 2. Moments -/

/-- A step that changes neither the map nor any flag, and begins or ends with no placement. -/
theorem InUse.keep {run' : Option (CallId × Act)} (u : InUse s run)
    (hrun : ∀ c w k v, run ≠ some (c, .place w k v)) (hh : SameLeasing s.handles s'.handles)
    (hc : ∀ t, s'.cache.handle? t = s.cache.handle? t) (hl : HandlesLater s.handles s'.handles) :
    InUse s' run' where
  leasing t v hv := by
    rw [hc] at hv
    refine Bool.eq_false_iff.2 fun hr => ?_
    obtain ⟨y, hy, hyr⟩ := isRetiring_iff.1 hr
    obtain ⟨x, hx, -, hsame⟩ := hh v y hy
    exact absurd ((isRetiring_iff.2 ⟨x, hx, hsame ▸ hyr⟩).symm.trans (u.leasing t v hv)) nofun
  mapped v t ht hr := by
    obtain ⟨y, hy, rfl⟩ := topic?_eq_some_iff.1 ht
    obtain ⟨x, hx, htopic, -⟩ := hh v y hy
    have hr' : s.isRetiring v = false := by
      refine Bool.eq_false_iff.2 fun hr' => ?_
      exact absurd ((isRetiring_later hl hr').symm.trans hr) nofun
    rcases u.mapped v y.topic (topic?_eq_some_iff.2 ⟨x, hx, htopic.symm⟩) hr' with h | ⟨c, w, k, h⟩
    · exact .inl ((hc _).trans h)
    · exact (hrun c w k v h).elim

/-- While a call is about to place a handle, all others that grant leases are in the map. -/
theorem InUse.mapped_of_ne {w : Want} {k : CellId} {h : HandleId} {t : String}
    (u : InUse s (some (c, .place w k v))) (hne : h ≠ v) (ht : s.topic? h = some t)
    (hr : s.isRetiring h = false) : s.cache.handle? t = some h := by
  rcases u.mapped h t ht hr with hm | ⟨c', w', k', he⟩
  · exact hm
  · cases he
    exact (hne rfl).elim

/-- A handle is placed in a new cell of its topic, which has no handle in the map. -/
theorem InUse.adopt {owner : CellId → String} {w : Want} {k : CellId} (hs : s.cache.Tidy owner)
    (u : InUse s (some (c, .place w k v))) (htopic : s.topic? v = some w.topic)
    (hr : s.isRetiring v = false) (hnone : s.cache.handle? w.topic = none) :
    InUse { s with cache := s.cache.addCell w.topic { value := some v } } run := by
  have hget := Cache.handle?_addCell hs w.topic
  refine ⟨fun t h hh => ?_, fun h t ht hrh => .inl ?_⟩
  · have hh : (s.cache.addCell w.topic { value := some v }).handle? t = some h := hh
    rw [hget] at hh
    split at hh
    · cases hh
      exact hr
    · exact u.leasing t h hh
  · show (s.cache.addCell w.topic { value := some v }).handle? t = some h
    have ht : s.topic? h = some t := ht
    rw [hget]
    by_cases hne : h = v
    · subst hne
      cases htopic.symm.trans ht
      exact if_pos rfl
    · have hin := InUse.mapped_of_ne u hne ht hrh
      rw [if_neg]
      · exact hin
      · rintro rfl
        cases hnone.symm.trans hin

/-- A handle that is not in the map is retired instead of placed. -/
theorem InUse.stop {w : Want} {k : CellId} (u : InUse s (some (c, .place w k v)))
    (hout : ∀ t, s.cache.handle? t ≠ some v) :
    InUse { s with handles := stopAll s.handles [v] } run := by
  refine ⟨fun t h hh => ?_, fun h t ht hrh => .inl ?_⟩
  · have hne : h ≠ v := by
      rintro rfl
      exact hout t hh
    exact (isRetiring_stopAll_of_not_mem rfl (by simpa using hne)).trans (u.leasing t h hh)
  · obtain ⟨hnot, ht', hr'⟩ := leasing_of_stopAll rfl ht hrh
    have hin : s.cache.handle? t = some h := InUse.mapped_of_ne u (by simpa using hnot) ht' hr'
    exact hin

/-- The call that runs places a handle: those of other topics stay as they are. -/
theorem InUse.turn_place {owner : CellId → String} {w : Want} {k : CellId} {next : Option Act}
    (hs : Sound owner s (some (c, .place w k v))) (u : InUse s (some (c, .place w k v)))
    (ht : Turn c s (.place w k v) s' next) : InUse s' (next.map fun a => (c, a)) := by
  obtain ⟨hk, hv⟩ := hs.act c _ rfl
  have htopic := topic?_of_cell hs hk hv
  have hplaced := Cache.place_placed s.cache (s.isRetiring v) w.topic k v
  cases ht with
  | @placed _ _ _ _ _ cache hp hout =>
    rw [hp] at hplaced
    cases hplaced with
    | dropped _ hr hcur =>
      have hin := Cache.handle?_eq_some_iff.2 ⟨k, hcur, hv⟩
      exact absurd (hr.symm.trans (u.leasing _ _ hin)) nofun
    | retired _ hr _ =>
      refine ⟨u.leasing, fun h t ht hrh => .inl (InUse.mapped_of_ne u ?_ ht hrh)⟩
      rintro rfl
      exact absurd (hr.symm.trans hrh) nofun
    | kept _ _ hin =>
      have hin : s.cache.handle? w.topic = some v := by
        rcases hin with hcur | hin
        · exact Cache.handle?_eq_some_iff.2 ⟨k, hcur, hv⟩
        · exact hin
      refine ⟨u.leasing, fun h t ht hrh => .inl ?_⟩
      have ht : s.topic? h = some t := ht
      by_cases hne : h = v
      · subst hne
        cases htopic.symm.trans ht
        exact hin
      · exact InUse.mapped_of_ne u hne ht hrh
    | adopted _ hr _ hnone => exact InUse.adopt hs.tidy u htopic hr hnone
    | closed | superseded => rcases hout with h | h <;> cases h
  | @superseded _ _ _ winner loser cache hp =>
    rw [hp] at hplaced
    cases hplaced with
    | superseded _ _ _ hwin hne =>
      refine InUse.stop u fun t hh => ?_
      cases htopic.symm.trans (topic?_of_handle? hs hh)
      exact hne (Option.some.inj (hwin.symm.trans hh))
  | @shut _ _ _ _ cache hp =>
    rw [hp] at hplaced
    cases hplaced with
    | closed hcl =>
      refine InUse.stop u fun t hh => ?_
      cases (hs.tidy.handle?_of_closed hcl t).symm.trans hh

theorem InUse.drain {taken : Cache × List HandleId} {run' : Option (CallId × Act)}
    (u : InUse s none) (hempty : taken.1.entries = []) (htaken : taken.2 = s.cache.handles) :
    InUse ({ s with cache := taken.1, handles := stopAll s.handles taken.2 }.note
      (.drained c taken.2)) run' := by
  refine ⟨fun t h hh => ?_, fun h t ht hrh => ?_⟩
  · have hh : taken.1.handle? t = some h := hh
    simp [Cache.handle?, Cache.current?, hempty, Entries.find?] at hh
  · obtain ⟨hnot, ht', hr'⟩ := leasing_of_stopAll (s := s) rfl ht hrh
    rcases u.mapped h t ht' hr' with hin | ⟨_, _, _, he⟩
    · exact (hnot (htaken ▸ Cache.mem_handles_of_handle? hin)).elim
    · cases he

theorem InUse.created {owner : CellId → String} {w : Want} {k : CellId} {t : Ticket}
    (hs : Sound owner s none) (u : InUse s none) (hc : s.calls.get? c = some (.creating w k t))
    (m : DispatchMode) (cs : List CallId) :
    InUse (({ s with
        handles := s.handles.add { topic := w.topic, mode := m }
        cache := s.cache.setCell k fun x => (x.fill s.handles.size).1 }.note
      (.opened c s.handles.size)).rouse cs) (some (c, .place w k s.handles.size)) := by
  have hturn : s.cache.HasTurn c k := (hs.fits c _ hc fun _ => nofun).2
  generalize hs' : (Factory.note _ (.opened c s.handles.size)).rouse cs = s'
  have hh : s'.handles = s.handles.add { topic := w.topic, mode := m } := by rw [← hs']; rfl
  have hget : ∀ t, s'.cache.handle? t =
      if s.cache.current? t = some k then some s.handles.size else s.cache.handle? t := by
    rw [← hs']
    exact Cache.handle?_fill hturn s.handles.size
  have hnew : s'.isRetiring s.handles.size = false := by
    unfold isRetiring
    rw [hh, Registry.get?_add, if_pos rfl]
    rfl
  refine ⟨fun t h hin => ?_, fun h t ht hrh => ?_⟩
  · rw [hget] at hin
    split at hin
    · cases hin
      exact hnew
    · obtain ⟨x, hx, -⟩ := topic?_eq_some_iff.1 (topic?_of_handle? hs hin)
      exact (isRetiring_add hh (Nat.ne_of_lt (Registry.lt_size_of_get? hx))).trans (u.leasing t h hin)
  · by_cases hne : h = s.handles.size
    · exact .inr ⟨c, w, k, by rw [hne]⟩
    · rw [topic?_add hh hne] at ht
      rw [isRetiring_add hh hne] at hrh
      rcases u.mapped h t ht hrh with hin | ⟨_, _, _, he⟩
      · refine .inl ((hget t).trans ?_)
        rw [if_neg]
        · exact hin
        · intro hcur
          cases (hturn.handle? hcur).symm.trans hin
      · cases he

end InUseLemmas

open SoundLemmas InUseLemmas

variable {s s' : Factory} {c : CallId} {run : Option (CallId × Act)} {owner : CellId → String}

theorem InUse.turn {a : Act} {next : Option Act} (hs : Sound owner s (some (c, a)))
    (u : InUse s (some (c, a))) (ht : Turn c s a s' next) : InUse s' (next.map fun a => (c, a)) := by
  by_cases ha : ∃ w k v, a = .place w k v
  · obtain ⟨w, k, v, rfl⟩ := ha
    exact InUse.turn_place hs u ht
  · have ha : ∀ w k v, a ≠ .place w k v := fun w k v h => ha ⟨w, k, v, h⟩
    refine InUse.keep u ?_ (Turn.sameLeasing ha ht) ?_ ht.later
    · rintro c' w k v he
      cases he
      exact ha w k v rfl
    · intro t
      cases ht with
      | create _ hcell | queue _ hcell =>
        exact (Cache.handle?_setCell_of_eq (fun x _ => Cache.value_enter x c) t).trans
          (hcell.handle? hs.tidy t)
      | lost hcell => exact hcell.handle? hs.tidy t
      | placed | superseded | shut => exact (ha _ _ _ rfl).elim
      | _ => rfl

theorem InUse.begins {l : Label} (hs : Sound owner s none) (u : InUse s none)
    (hb : Begins s l s' run) : InUse s' run := by
  have hl := hb.later
  have hno : ∀ c w k v, (none : Option (CallId × Act)) ≠ some (c, .place w k v) := fun _ _ => nofun
  cases hb with
  | drain _ htaken =>
    rcases htaken with ⟨rfl, rfl⟩ | ⟨rfl, rfl⟩
    · exact InUse.drain u rfl rfl
    · exact InUse.drain u rfl rfl
  | created hc => exact InUse.created hs u hc _ _
  | failed =>
    exact InUse.keep u hno (sameLeasing_refl _)
      (fun t => Cache.handle?_setCell_of_eq (fun x _ => Cache.value_pass x) t) hl
  | receipt | rejected | completed | released =>
    exact InUse.keep u hno (sameLeasing_of_flags (FateLemmas.sameFlags_endBorrow _ _))
      (fun _ => rfl) hl
  | @stop c _ _ _ s₁ _ _ hstop =>
    have hh : SameLeasing s.handles s₁.handles := LetsGo.sameLeasing hstop
    refine InUse.keep u hno hh (fun t => ?_) hl
    cases hstop with
    | queued | creating => exact Cache.handle?_setCell_of_eq (fun x _ => Cache.value_leave x c) t
    | _ => rfl
  | leased =>
    exact InUse.keep u hno (sameLeasing_of_flags (FateLemmas.sameFlags_beginBorrow _ _))
      (fun _ => rfl) hl
  | denied =>
    exact InUse.keep u hno (sameLeasing_of_flags (FateLemmas.sameFlags_refused _ _)) (fun _ => rfl) hl
  | _ => exact InUse.keep u hno (sameLeasing_refl _) (fun _ => rfl) hl

theorem inUse_new : InUse new none where
  leasing _ _ hv := by cases hv
  mapped v t ht := by
    obtain ⟨x, hx, -⟩ := topic?_eq_some_iff.1 ht
    simp [new] at hx

/-! ## 3. The handle of a topic -/

/-- A call that is granted a handle to open or lease it is granted the one in the map. -/
theorem InUse.granted {w : Want} {v : HandleId} (hs : Sound owner s (some (c, .grant w v)))
    (u : InUse s (some (c, .grant w v))) (hp : w.purpose ≠ .peek) :
    s.cache.handle? w.topic = some v := by
  obtain ⟨htopic, hr⟩ := hs.act c _ rfl
  rcases u.mapped v w.topic htopic (hr.resolve_left hp) with hin | ⟨_, _, _, he⟩
  · exact hin
  · cases he

/-- A turn leaves the map as it is, or gives a topic without a handle a new cell. -/
theorem InUse.remap {a : Act} {next : Option Act} (hs : Sound owner s (some (c, a)))
    (u : InUse s (some (c, a))) (ht : Turn c s a s' next) : Remap s.cache a s'.cache := by
  have hadd : ∀ t x, Cache.current? (s.cache.addCell t x) =
      fun t' => if t' = t then some s.cache.cells.size else s.cache.current? t' := fun t x =>
    funext fun t' => Cache.current?_addCell s.cache t t' x
  have hval : ∀ t x, Cache.value? (s.cache.addCell t x) =
      fun k => if k = s.cache.cells.size then x.value else s.cache.value? k := fun t x =>
    funext fun k => Cache.value?_addCell s.cache t x k
  cases ht with
  | @create w cache k _ _ hcell | @queue w cache k _ _ hcell =>
    have hv : Cache.value? (cache.setCell k fun x => (x.enter c).2) = cache.value? :=
      funext (Cache.value?_setCell_of_eq fun x _ => Cache.value_enter x c)
    cases hcell with
    | found => exact .same hv rfl
    | added hnone => exact .added hnone (hv.trans (hval _ {})) (hadd _ {})
  | lost hcell hx => exact (Sound.not_lost hs hcell hx).elim
  | @placed w k h _ _ _ hp =>
    have hplaced := Cache.place_placed s.cache (s.isRetiring h) w.topic k h
    rw [hp] at hplaced
    cases hplaced with
    | dropped _ hr hcur =>
      have hin := Cache.handle?_eq_some_iff.2 ⟨k, hcur, (hs.act c _ rfl).2⟩
      exact absurd (hr.symm.trans (u.leasing _ _ hin)) nofun
    | adopted _ _ hne hnone => exact .adopted hne hnone (hval _ _) (hadd _ _)
    | closed | retired | kept | superseded => exact .same rfl rfl
  | @superseded w k h _ _ _ hp | @shut w k h _ _ hp =>
    have hplaced := Cache.place_placed s.cache (s.isRetiring h) w.topic k h
    rw [hp] at hplaced
    cases hplaced
    exact .same rfl rfl
  | _ => exact .same rfl rfl

/-- No turn takes a topic's handle out of the map. -/
theorem Remap.cached {a : Act} {b b' : Cache} {t : String} {v : HandleId} (m : Remap b a b')
    (hv : b.handle? t = some v) : b'.handle? t = some v := by
  obtain ⟨k, hk, hkv⟩ := Cache.handle?_eq_some_iff.1 hv
  have hold : ∀ {t' : String} {o : Option HandleId}, t ≠ t' →
      (b'.value? = fun k => if k = b.cells.size then o else b.value? k) →
      (b'.current? = fun t => if t = t' then some b.cells.size else b.current? t) →
      b'.handle? t = some v := by
    intro t' o ht hval hcur
    refine Cache.handle?_eq_some_iff.2 ⟨k, ?_, ?_⟩
    · rw [hcur]
      exact (if_neg ht).trans hk
    · rw [hval]
      exact (if_neg (Nat.ne_of_lt (Cache.value?_lt hkv))).trans hkv
  cases m with
  | same hval hcur => exact Cache.handle?_eq_some_iff.2 ⟨k, hcur ▸ hk, hval ▸ hkv⟩
  | added hnone hval hcur =>
    refine hold ?_ hval hcur
    rintro rfl
    cases hnone.symm.trans hk
  | adopted _ hnone hval hcur =>
    refine hold ?_ hval hcur
    rintro rfl
    cases hnone.symm.trans hv

/-- Only a reset or a shutdown takes a topic's handle out of the map. -/
theorem Begins.cached {l : Label} {t : String} {v : HandleId} (hs : Sound owner s none)
    (hb : Begins s l s' run) (hl : IsDrain (l, s) = false) (hv : s.cache.handle? t = some v) :
    s'.cache.handle? t = some v := by
  cases hb with
  | drain hc htaken =>
    rcases htaken with ⟨rfl, -⟩ | ⟨rfl, -⟩ <;> simp [IsDrain, hc] at hl
  | @created c _ w k _ _ hc =>
    have hturn : s.cache.HasTurn c k := (hs.fits c _ hc fun _ => nofun).2
    refine (Cache.handle?_fill hturn s.handles.size t).trans ?_
    rw [if_neg]
    · exact hv
    · intro hcur
      cases (hturn.handle? hcur).symm.trans hv
  | failed => exact (Cache.handle?_setCell_of_eq (fun x _ => Cache.value_pass x) t).trans hv
  | @stop c _ _ _ s₁ _ _ hstop =>
    cases hstop with
    | queued | creating =>
      exact (Cache.handle?_setCell_of_eq (fun x _ => Cache.value_leave x c) t).trans hv
    | _ => exact hv
  | _ => exact hv

end Factory

end TopicPublisher
