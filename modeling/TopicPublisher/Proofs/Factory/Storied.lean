import TopicPublisher.Proofs.Factory.Story

/-!
# Every call has its story

Each moment of a step goes on with the story of the call that it is about. A message is handed over once:
when the call that is to send it has the handle, or by the call that was begun to dispatch it. The stories
hold in every run: whichever calls are aborted, and wherever the wire client crashes.

Results:
1. `passes_update`, `passes_start`, `passes_promise`: the ways in which calls get on.
2. `Storied.turn`, `Storied.begins`: a call's own story goes on with each moment.
3. `Run.storied`: every call of every run has its story.
-/

namespace TopicPublisher

namespace Factory

open SoundLemmas StoryLemmas

section

variable {tr tr' : List (Label × Factory)} {s s' : Factory} {c i : CallId} {p : PendingId}

/-! ## 1. Steps that pass the stories on -/

/-- A step by which no call other than `c` hands over a message. -/
structure Speaks (s s' : Factory) (c : CallId) : Prop where
  deeds : ∃ es, s'.deeds = s.deeds ++ es ∧ Mute c es
  handles : HandlesLater s.handles s'.handles
  closed : s.cache.closed = true → s'.cache.closed = true

/-- A call gets from point `q` to point `q'`: the pending sends stay as they are, but for one that it lets
go of. -/
structure KeepsPending (q q' : Progress) (a b : Registry Pending) : Prop where
  size : a.size ≤ b.size
  state : ∀ p x, a.get? p = some x → (q.pending? = some p → q'.pending? = some p) →
    ∃ y, b.get? p = some y ∧ y.state = x.state ∧ y.topic = x.topic
  served : ∀ p, q'.pending? = some p → q.pending? = some p

theorem Speaks.asked (w : Speaks s s' c) (i : CallId) (t : Ticket) (d : Demand)
    (hm : .asked i t d ∈ s.events) : .asked i t d ∈ s'.events := by
  obtain ⟨es, he, -⟩ := w.deeds
  have hd : .asked i t d ∈ s'.deeds := by
    rw [he]
    exact List.mem_append_left _ (mem_deeds.2 ⟨hm, rfl⟩)
  exact (mem_deeds.1 hd).1

theorem Speaks.handed (w : Speaks s s' c) (i : CallId) (hi : i ≠ c) : handed s' i = handed s i := by
  obtain ⟨es, he, hes⟩ := w.deeds
  rw [handed_append he, hes i hi, List.append_nil]

theorem Follows.trace (h : Follows tr tr' s) : tr' = tr ∨ ∃ l, tr' = (l, s) :: tr :=
  h.imp_right fun ⟨l, hl, _⟩ => ⟨l, hl⟩

theorem Follows.made (h : Follows tr tr' s) {r : Request} (hm : Made tr' i r) : Made tr i r := by
  rcases h with rfl | ⟨l, rfl, hl⟩
  · exact hm
  · obtain ⟨s₀, hm, hsize⟩ := hm
    rcases List.mem_cons.1 hm with he | hm
    · cases he
      exact (hl r rfl).elim
    · exact ⟨s₀, hm, hsize⟩

theorem passes_update {q q' : Progress} (w : Speaks s s' c) (htr : Follows tr tr' s)
    (hc : s.calls.get? c = some q) (ho : Progress.isOver q = false)
    (hcalls : s'.calls = s.calls.update c fun _ => q') (k : KeepsPending q q' s.pending s'.pending) :
    Passes tr tr' s s' c where
  trace := htr.trace
  there _ _ h := .inl (htr.made h)
  asked := w.asked
  handed := w.handed
  silent i hi := by
    have hic : i ≠ c := by
      rintro rfl
      rw [hcalls, Registry.get?_update, if_pos rfl, hc] at hi
      cases hi
    rw [hcalls, Registry.get?_update, if_neg (Ne.symm hic)] at hi
    exact ⟨hi, w.handed i hic⟩
  calls := by
    rw [hcalls]
    exact calls_goTo
  size := k.size
  pending p x hx hs := by
    refine k.state p x hx fun hp => ?_
    obtain ⟨q₁, hq₁, hp₁⟩ := hs ⟨q, hc, hp⟩
    rw [hcalls, Registry.get?_update, if_pos rfl, hc] at hq₁
    cases hq₁
    exact hp₁
  served p i hs := by
    obtain ⟨x, hx, hp⟩ := hs
    rw [hcalls] at hx
    rcases Registry.get?_update_const hx with ⟨rfl, rfl⟩ | ⟨-, hx⟩
    · exact .inl ⟨q, hc, k.served p hp⟩
    · exact .inl ⟨x, hx, hp⟩
  handles := w.handles
  closed := w.closed
  active q₁ hq₁ := by
    cases hc.symm.trans hq₁
    exact ho

/-- No call gets anywhere. -/
theorem passes_same (w : Speaks s s' c) (htr : Follows tr tr' s)
    (hc : ∀ q, s.calls.get? c = some q → Progress.isOver q = false)
    (hh : s.calls.get? c = none → handed s' c = handed s c) (hcalls : s'.calls = s.calls)
    (hpend : s'.pending = s.pending) : Passes tr tr' s s' c where
  trace := htr.trace
  there _ _ h := .inl (htr.made h)
  asked := w.asked
  handed := w.handed
  silent i hi := by
    rw [hcalls] at hi
    by_cases hic : i = c
    · subst hic
      exact ⟨hi, hh hi⟩
    · exact ⟨hi, w.handed i hic⟩
  calls i q _ hq := hcalls ▸ hq
  size := Nat.le_of_eq (congrArg Registry.size hpend.symm)
  pending p x hx _ := ⟨x, hpend ▸ hx, rfl, rfl⟩
  served p i hs := by
    obtain ⟨x, hx, hp⟩ := hs
    exact .inl ⟨x, hcalls ▸ hx, hp⟩
  handles := w.handles
  closed := w.closed
  active := hc

/-- A new call. -/
theorem passes_start {q : Progress} {l : Label} (w : Speaks s s' s.calls.size)
    (hcalls : s'.calls = s.calls.add q) (hq : q.pending? = none) (hpend : s'.pending = s.pending) :
    Passes tr ((l, s) :: tr) s s' s.calls.size where
  trace := .inr ⟨l, rfl⟩
  there i r h := by
    obtain ⟨s₀, hm, hsize⟩ := h
    rcases List.mem_cons.1 hm with he | hm
    · cases he
      subst hsize
      refine .inr ⟨(Registry.get?_eq_none_iff _ _).2 (Nat.le_refl _), q, ?_⟩
      rw [hcalls]
      exact (Registry.get?_add _ _ _).trans (if_pos rfl)
    · exact .inl ⟨s₀, hm, hsize⟩
  asked := w.asked
  handed := w.handed
  silent i hi := by
    rw [hcalls, Registry.get?_add] at hi
    split at hi
    · cases hi
    · next hic => exact ⟨hi, w.handed i hic⟩
  calls i q _ hq := hcalls ▸ calls_start hq
  size := Nat.le_of_eq (congrArg Registry.size hpend.symm)
  pending p x hx _ := ⟨x, hpend ▸ hx, rfl, rfl⟩
  served p i hs := by
    obtain ⟨x, hx, hp⟩ := hs
    rw [hcalls, Registry.get?_add] at hx
    split at hx
    · cases hx
      rw [hq] at hp
      cases hp
    · exact .inl ⟨x, hx, hp⟩
  handles := w.handles
  closed := w.closed
  active q hq := absurd (Registry.lt_size_of_get? hq) (Nat.lt_irrefl _)

/-- A call promises a new pending send, which another call is to settle. -/
theorem passes_promise {q q' r : Progress} {x : Pending} (w : Speaks s s' c)
    (htr : Follows tr tr' s) (hc : s.calls.get? c = some q)
    (ho : Progress.isOver q = false) (hcalls : s'.calls = (s.calls.add r).update c fun _ => q')
    (hr : r.pending? = some s.pending.size) (hq' : q'.pending? = none)
    (hpend : s'.pending = s.pending.add x) (hx : x.state = .unknown) : Passes tr tr' s s' c where
  trace := htr.trace
  there _ _ h := .inl (htr.made h)
  asked := w.asked
  handed := w.handed
  silent i hi := by
    have hic : i ≠ c := by
      rintro rfl
      rw [hcalls, Registry.get?_update, if_pos rfl, calls_start hc] at hi
      cases hi
    rw [hcalls, Registry.get?_update, if_neg (Ne.symm hic), Registry.get?_add] at hi
    split at hi
    · cases hi
    · exact ⟨hi, w.handed i hic⟩
  calls := by
    rw [hcalls]
    exact calls_start_goTo
  size := by
    rw [hpend, Registry.size_add]
    exact Nat.le_succ _
  pending p y hy _ := by
    refine ⟨y, ?_, rfl, rfl⟩
    rw [hpend, Registry.get?_add, if_neg (Nat.ne_of_lt (Registry.lt_size_of_get? hy))]
    exact hy
  served p i hs := by
    obtain ⟨y, hy, hp⟩ := hs
    rw [hcalls] at hy
    rcases Registry.get?_update_const hy with ⟨-, rfl⟩ | ⟨-, hy⟩
    · rw [hq'] at hp
      cases hp
    · rw [Registry.get?_add] at hy
      split at hy
      · next hi =>
        cases hy
        cases hr.symm.trans hp
        refine .inr ⟨hi, rfl, x, ?_, hx⟩
        rw [hpend, Registry.get?_add, if_pos rfl]
      · exact .inl ⟨y, hy, hp⟩
  handles := w.handles
  closed := w.closed
  active q₁ hq₁ := by
    cases hc.symm.trans hq₁
    exact ho

theorem keepsPending_refl {q q' : Progress} (hq : q'.pending? = none ∨ q'.pending? = q.pending?)
    (a : Registry Pending) : KeepsPending q q' a a where
  size := Nat.le_refl _
  state _ x hx _ := ⟨x, hx, rfl, rfl⟩
  served p hp := by
    rcases hq with hq | hq
    · cases hq.symm.trans hp
    · exact hq.symm.trans hp

theorem keepsPending_add {q q' : Progress} (hq' : q'.pending? = none) (a : Registry Pending)
    (x : Pending) : KeepsPending q q' a (a.add x) where
  size := by
    rw [Registry.size_add]
    exact Nat.le_succ _
  state p y hy _ := by
    refine ⟨y, ?_, rfl, rfl⟩
    rw [Registry.get?_add, if_neg (Nat.ne_of_lt (Registry.lt_size_of_get? hy))]
    exact hy
  served p hp := by cases hq'.symm.trans hp

/-- Another call waits for the outcome, or none any more. -/
theorem keepsPending_awaiter {q q' : Progress} (hq' : q'.pending? = none) (a : Registry Pending)
    (p : PendingId) (o : Option CallId) :
    KeepsPending q q' a (a.update p fun x => { x with awaiter := o }) where
  size := Nat.le_of_eq (Registry.size_update _ _ _).symm
  state p' x hx _ := by
    rw [Registry.get?_update]
    split
    · exact ⟨{ x with awaiter := o }, by rw [hx]; rfl, rfl, rfl⟩
    · exact ⟨x, hx, rfl, rfl⟩
  served p hp := by cases hq'.symm.trans hp

/-- The call lets go of a pending send. -/
theorem keepsPending_settle {q q' : Progress} (hq : q.pending? = some p) (hq' : q'.pending? = none)
    (a : Registry Pending) (f : Pending → Pending) : KeepsPending q q' a (a.update p f) where
  size := Nat.le_of_eq (Registry.size_update _ _ _).symm
  state p' x hx hp := by
    have hne : p ≠ p' := by
      rintro rfl
      exact absurd ((hp hq).symm.trans hq') nofun
    refine ⟨x, ?_, rfl, rfl⟩
    rw [Registry.get?_update, if_neg hne]
    exact hx
  served p hp := by cases hq'.symm.trans hp

theorem handed_of_deeds_eq (he : s'.deeds = s.deeds) (c : CallId) : handed s' c = handed s c := by
  rw [handed_eq, handed_eq, he]

theorem Turn.speaks {a : Act} {next : Option Act} (ht : Turn c s a s' next) : Speaks s s' c := by
  refine ⟨?_, ht.later, fun h => ht.closed_eq.trans h⟩
  cases ht with
  | @create w => exact ⟨_, by simp; rfl, mute_asked c s.tickets (.openProducer w.topic)⟩
  | @send w h x m => exact ⟨_, by simp; rfl, mute_asked c s.tickets (.send h m)⟩
  | @enqueue w h x m => exact ⟨_, by simp; rfl, mute_asked c s.tickets (.enqueue h m)⟩
  | @close _ _ r => exact ⟨_, by simp, mute_asked c s.tickets (.close r.handle)⟩
  | _ => exact ⟨[], by simp, mute_nil c⟩

/-- A call that waits no longer, or for something else, and settles no pending send. -/
theorem Storied.moves {run : Option (CallId × Act)} {q q' : Progress} (h : Storied tr s run)
    (hrun : ∀ i a, run = some (i, a) → i = c) (w : Speaks s s' c)
    (htr : Follows tr tr' s) (hc : s.calls.get? c = some q)
    (ho : Progress.isOver q = false) (hq : q.pending? = none)
    (hcalls : s'.calls = s.calls.update c fun _ => q') (k : KeepsPending q q' s.pending s'.pending)
    (st : Story tr' s' c q') : Storied tr' s' none := by
  refine h.ends hrun (passes_update w htr hc ho hcalls k)
    (keepsPromises_of_not_serves (not_serves_of_get? hc hq)) ?_
  rw [hcalls]
  exact fits_goTo st

/-- A call that runs, or goes on running. -/
theorem Storied.runs {run : Option (CallId × Act)} {q : Progress} {a : Act} (h : Storied tr s run)
    (hrun : ∀ i a, run = some (i, a) → i = c) (w : Speaks s s' c)
    (htr : Follows tr tr' s) (hc : s.calls.get? c = some q)
    (ho : Progress.isOver q = false) (hq : q.pending? = none) (hcalls : s'.calls = s.calls)
    (hpend : s'.pending = s.pending) (hmade : ∃ r, Made tr' c r ∧ For s' a r)
    (hh : handed s' c = []) : Storied tr' s' (some (c, a)) := by
  refine h.goesOn hrun (passes_same w htr (fun q₁ hq₁ => ?_) (fun hnone => ?_) hcalls hpend)
    (keepsPromises_of_not_serves (not_serves_of_get? hc hq)) hcalls
    ⟨hmade, hh, q, hcalls ▸ hc, ho, hq⟩
  · cases hc.symm.trans hq₁
    exact ho
  · cases hc.symm.trans hnone

theorem ForNext.mono {next : AfterRetiring} {r : Request} (h : ForNext s next r)
    (hc : s.cache.closed = true → s'.cache.closed = true) : ForNext s' next r := by
  cases next with
  | refuse => exact ⟨h.1, hc h.2⟩
  | give | count => exact h

theorem handed_asked {t : Ticket} {d : Demand} (he : s'.deeds = s.deeds ++ [.asked c t d])
    (hd : d.receiver?.isSome = true) (hh : handed s c = []) : handed s' c = [(t, d)] := by
  rw [handed_append he, hh]
  simp [handing, hd]

theorem handed_opened {i : CallId} {v : HandleId} (he : s'.deeds = s.deeds ++ [.opened i v])
    (hh : handed s c = []) : handed s' c = [] := by
  rw [handed_append he, hh]
  rfl

theorem handed_drained {i : CallId} {hs : List HandleId} (he : s'.deeds = s.deeds ++ [.drained i hs])
    (hh : handed s c = []) : handed s' c = [] := by
  rw [handed_append he, hh]
  rfl

theorem handed_unsent {t : Ticket} {d : Demand} (he : s'.deeds = s.deeds ++ [.asked c t d])
    (hd : d.receiver? = none) (hh : handed s c = []) : handed s' c = [] := by
  rw [handed_append he, hh]
  simp [handing, hd]

/-! ## 2. Turns -/

theorem get?_size {α : Type} (r : Registry α) : r.get? r.size = none :=
  (Registry.get?_eq_none_iff _ _).2 (Nat.le_refl _)

/-- The next call was not made yet. -/
theorem Requested.unmade (R : Requested tr s) (r : Request) : ¬ Made tr s.calls.size r := by
  intro h
  obtain ⟨q, hq⟩ := R.there _ r h
  exact Nat.lt_irrefl _ (Registry.lt_size_of_get? hq)

/-- The call that runs promises a pending send, and another call is begun to dispatch its message. -/
theorem Storied.promises {w : Want} {v : HandleId} {m : MessageSpec} {a : Act} {q : Progress}
    (h : Storied tr s (some (c, a))) (hspeaks : Speaks s s' c) (hc : s.calls.get? c = some q)
    (ho : Progress.isOver q = false) (hq : q.pending? = none) (hmade : Made tr c (.want w))
    (hh : handed s c = []) (hp : w.purpose = .send m .promised) (htopic : s'.topic? v = some w.topic)
    (hcalls : s'.calls = (s.calls.add (.fresh (.dispatch v m s.pending.size))).update c fun _ =>
      .ended (.promised s.pending.size))
    (hpend : s'.pending = s.pending.add { topic := w.topic }) (he : s'.deeds = s.deeds) :
    Storied tr s' none := by
  have hnew : handed s' s.calls.size = [] :=
    (handed_of_deeds_eq he _).trans (h.silent _ (get?_size s.calls))
  have hne : s.calls.size ≠ c := Nat.ne_of_gt (Registry.lt_size_of_get? hc)
  refine h.ends eq_of_run (passes_promise hspeaks (.inl rfl) hc ho hcalls rfl rfl hpend rfl)
    (keepsPromises_of_not_serves (not_serves_of_get? hc hq)) ?_
  rw [hcalls]
  refine fits_start_goTo ?_ (.task h.requested.unmade hnew)
  refine .ended hmade (.promised hp ⟨{ topic := w.topic }, ?_, rfl, ?_⟩)
  · rw [hpend]
    exact (Registry.get?_add _ _ _).trans (if_pos rfl)
  · refine .begun ((handed_of_deeds_eq he c).trans hh) htopic ?_ hnew
    rw [hcalls]
    exact calls_goTo _ _ hne ((Registry.get?_add _ _ _).trans (if_pos rfl))

theorem Storied.turn_grant {owner : CellId → String} {w : Want} {v : HandleId} {next : Option Act}
    (hs : Sound owner s (some (c, .grant w v))) (h : Storied tr s (some (c, .grant w v)))
    (ht : Turn c s (.grant w v) s' next) : Storied tr s' (next.map fun a => (c, a)) := by
  obtain ⟨⟨r, hmade, rfl⟩, hh, q, hc, ho, hq⟩ := h.act c _ rfl
  have hspeaks := ht.speaks
  have htopic := topic?_later ht.later (hs.act c _ rfl).1
  cases ht with
  | handle hp =>
    refine h.moves eq_of_run hspeaks (.inl rfl) hc ho hq rfl (keepsPending_refl (.inl rfl) _) ?_
    exact .ended hmade (.handle hp ((handed_of_deeds_eq (by simp) c).trans hh))
  | denied =>
    exact h.moves eq_of_run hspeaks (.inl rfl) hc ho hq rfl (keepsPending_refl (.inl rfl) _) .spinning
  | lease hp =>
    refine h.moves eq_of_run hspeaks (.inl rfl) hc ho hq rfl (keepsPending_refl (.inl rfl) _) ?_
    exact .ended hmade (.lease hp ((handed_of_deeds_eq (by simp) c).trans hh))
  | send hp =>
    refine h.moves eq_of_run hspeaks (.inl rfl) hc ho hq rfl (keepsPending_refl (.inl rfl) _) ?_
    exact .sending hmade hp htopic (handed_asked (by simp; rfl) rfl hh)
  | enqueue hp =>
    refine h.moves eq_of_run hspeaks (.inl rfl) hc ho hq rfl (keepsPending_refl (.inl rfl) _) ?_
    exact .enqueuing hmade hp htopic (handed_asked (by simp; rfl) rfl hh)
  | @promise _ _ x m hp hx =>
    obtain ⟨y, hy, hyt⟩ := topic?_eq_some_iff.1 (hs.act c _ rfl).1
    cases hx.symm.trans hy
    exact h.promises hspeaks hc ho hq hmade hh hp htopic rfl (by rw [← hyt]; rfl) (by simp)

theorem asked_of_deeds_eq {t : Ticket} {d : Demand} (he : s'.deeds = s.deeds ++ [.asked c t d]) :
    .asked c t d ∈ s'.events :=
  (mem_deeds.1 (he ▸ List.mem_append_right _ List.mem_cons_self)).1

/-- A call waits with handles that it retires. -/
theorem story_retiring {rs : List Retirement} {next : AfterRetiring} {r : Request}
    (hmade : Made tr c r) (hfor : ForNext s next r) (hh : handed s c = []) :
    Story tr s c (.retiring rs next) := by
  cases next with
  | give w v =>
    cases hfor
    exact .giving hmade hh
  | refuse =>
    obtain ⟨⟨w, rfl⟩, hclosed⟩ := hfor
    exact .refusing hmade hclosed hh
  | count => exact .counting hmade hfor hh

theorem Storied.turn {owner : CellId → String} {a : Act} {next : Option Act}
    (hs : Sound owner s (some (c, a))) (h : Storied tr s (some (c, a))) (ht : Turn c s a s' next) :
    Storied tr s' (next.map fun a => (c, a)) := by
  obtain ⟨⟨r, hmade, hfor⟩, hh, q, hc, ho, hq⟩ := h.act c a rfl
  have hspeaks := ht.speaks
  have hkeep : ∀ (q' : Progress) (b : Registry Pending), q'.pending? = none → KeepsPending q q' b b :=
    fun _ b hq' => keepsPending_refl (.inl hq') b
  cases a with
  | grant w v => exact h.turn_grant hs ht
  | look w =>
    cases hfor
    cases ht with
    | refused hcl =>
      refine h.moves eq_of_run hspeaks (.inl rfl) hc ho hq rfl (hkeep _ _ rfl) ?_
      exact .ended hmade (.refused hcl ((handed_of_deeds_eq (by simp) c).trans hh))
    | found =>
      exact h.runs eq_of_run hspeaks (.inl rfl) hc ho hq rfl rfl ⟨_, hmade, rfl⟩
        ((handed_of_deeds_eq (by simp) c).trans hh)
    | spin => exact h.moves eq_of_run hspeaks (.inl rfl) hc ho hq rfl (hkeep _ _ rfl) .spinning
    | create =>
      refine h.moves eq_of_run hspeaks (.inl rfl) hc ho hq rfl (hkeep _ _ rfl) ?_
      exact .creating hmade
        (handed_unsent (t := s.tickets) (d := .openProducer w.topic) (by simp; rfl) rfl hh)
        (asked_of_deeds_eq (s := s) (t := s.tickets) (d := .openProducer w.topic) (by simp; rfl))
    | queue =>
      refine h.moves eq_of_run hspeaks (.inl rfl) hc ho hq rfl (hkeep _ _ rfl) ?_
      exact .queued hmade ((handed_of_deeds_eq (by simp) c).trans hh)
    | lost hcell hx => exact (Sound.not_lost hs hcell hx).elim
  | give w v =>
    cases hfor
    cases ht <;> exact h.runs eq_of_run hspeaks (.inl rfl) hc ho hq rfl rfl ⟨_, hmade, rfl⟩ hh
  | place w k v =>
    cases hfor
    cases ht with
    | placed | superseded =>
      exact h.runs eq_of_run hspeaks (.inl rfl) hc ho hq rfl rfl ⟨_, hmade, rfl⟩ hh
    | shut hp =>
      -- The cache answers so only when it is closed, and it stays closed.
      have hplaced := Cache.place_placed s.cache (s.isRetiring v) w.topic k v
      rw [hp] at hplaced
      cases hplaced with
      | closed hcl =>
        exact h.runs eq_of_run hspeaks (.inl rfl) hc ho hq rfl rfl ⟨_, hmade, ⟨w, rfl⟩, hcl⟩ hh
  | retire done todo after =>
    have hfor' := ForNext.mono hfor hspeaks.closed
    cases ht with
    | skip | elsewhere | park =>
      exact h.runs eq_of_run hspeaks (.inl rfl) hc ho hq rfl rfl ⟨r, hmade, hfor'⟩
        ((handed_of_deeds_eq (by simp) c).trans hh)
    | @close _ _ r =>
      exact h.runs eq_of_run hspeaks (.inl rfl) hc ho hq rfl rfl ⟨_, hmade, hfor'⟩
        (handed_unsent (t := s.tickets) (d := .close r.handle) (by simp) rfl hh)
    | goOn =>
      cases hfor
      exact h.runs eq_of_run hspeaks (.inl rfl) hc ho hq rfl rfl ⟨_, hmade, rfl⟩ hh
    | fail =>
      obtain ⟨⟨w, rfl⟩, hcl⟩ := hfor
      refine h.moves eq_of_run hspeaks (.inl rfl) hc ho hq rfl (hkeep _ _ rfl) ?_
      exact .ended hmade (.refused hcl ((handed_of_deeds_eq (by simp) c).trans hh))
    | count =>
      exact h.moves eq_of_run hspeaks (.inl rfl) hc ho hq rfl (hkeep _ _ rfl)
        (.ended hmade (.count hfor))
    | wait =>
      exact h.moves eq_of_run hspeaks (.inl rfl) hc ho hq rfl (hkeep _ _ rfl)
        (story_retiring hmade hfor' hh)

/-! ## 3. Beginnings -/

/-- What is known of a pending send becomes `st`. -/
def Settles (s s' : Factory) (p : PendingId) (st : PendingState) : Prop :=
  ∀ q, s.pending.get? p = some q → ∃ q', s'.pending.get? p = some q' ∧ q'.state = st ∧ q'.topic = q.topic

theorem keepsPromises_of_serves {st : PendingState} (A : Assigned tr s) (hs : Serves s p c)
    (hset : Settles s s' p st)
    (hk : ∀ i topic m, i ≠ c → Promise tr s i topic m p .unknown → Promise tr' s' i topic m p st) :
    KeepsPromises tr tr' s s' c := by
  rintro i p' topic m hi hs' ⟨q, hq, htopic, pr⟩
  -- A call has one pending send in its hands at most.
  obtain rfl : p' = p := by
    obtain ⟨x, hx, hp⟩ := hs
    obtain ⟨y, hy, hp'⟩ := hs'
    cases hx.symm.trans hy
    exact Option.some.inj (hp'.symm.trans hp)
  obtain ⟨q', hq', hstate, htopic'⟩ := hset q hq
  refine ⟨q', hq', htopic'.trans htopic, ?_⟩
  rw [hstate]
  rw [A.unknown hq hs] at pr
  exact hk i topic m hi pr

/-- A message that is still to be dispatched has no call that waits for its receipt. -/
theorem Assigned.not_receives {v : HandleId} {m : MessageSpec} (A : Assigned tr s)
    (hc : s.calls.get? c = some (.fresh (.dispatch v m p))) {topic : String} {h : HandleId} {t : Ticket}
    {d : CallId} (r : Receives tr s topic h t d p .unknown) : False := by
  cases r with
  | waiting hd =>
    cases A.unique p c d (serves_of_dispatch hc) (serves_of_completing hd)
    exact absurd (hc.symm.trans hd) nofun

/-- The call that was begun to dispatch a message does so. -/
theorem keepsPromises_dispatch {v : HandleId} {m : MessageSpec} {t : Ticket} (A : Assigned tr s)
    (P : Passes tr tr' s s' c) (hc : s.calls.get? c = some (.fresh (.dispatch v m p)))
    (hc' : s'.calls.get? c = some (.completing v t p)) (hh : handed s' c = [(t, .send v m)])
    (htask : Tasked tr' p c) : KeepsPromises tr tr' s s' c := by
  have hs := serves_of_dispatch hc
  have hset : Settles s s' p .unknown := by
    intro q hq
    rw [← A.unknown hq hs]
    exact P.pending p q hq fun _ => serves_of_completing hc'
  refine keepsPromises_of_serves A hs hset fun i topic m' hi pr => ?_
  cases pr with
  | enqueued _ _ _ _ r | dispatched _ _ _ _ r => exact (A.not_receives hc r).elim
  | begun hm ht hd _ =>
    cases A.unique p c _ hs (serves_of_dispatch hd)
    cases hc.symm.trans hd
    exact .dispatched ((P.handed i hi).trans hm) (P.topic? ht) htask hh (.waiting hc')

/-- The call that waits for the receipt of a message has it, or ends without. -/
theorem keepsPromises_settle {v : HandleId} {t : Ticket} {st : PendingState} (A : Assigned tr s)
    (P : Passes tr tr' s s' c) (hc : s.calls.get? c = some (.completing v t p))
    (hh : handed s' c = handed s c) (hset : Settles s s' p st)
    (hr : ∀ topic, s.topic? v = some topic → Receives tr' s' topic v t c p st) :
    KeepsPromises tr tr' s s' c := by
  have hs := serves_of_completing hc
  have hf : ∀ i u m, s.calls.get? i ≠ some (.fresh (.dispatch u m p)) := by
    intro i u m hi
    cases A.unique p c i hs (serves_of_dispatch hi)
    exact absurd (hc.symm.trans hi) nofun
  refine keepsPromises_of_serves A hs hset fun i topic m' hi pr => ?_
  cases pr with
  | enqueued hm ht ha hno r =>
    cases r with
    | waiting hd =>
      cases A.unique p c _ hs (serves_of_completing hd)
      cases hc.symm.trans hd
      exact .enqueued ((P.handed i hi).trans hm) (P.topic? ht) (P.answered ha) (P.not_tasked hno hf)
        (hr topic ht)
  | dispatched hm ht hd hd' r =>
    cases r with
    | waiting hd₁ =>
      cases A.unique p c _ hs (serves_of_completing hd₁)
      cases hc.symm.trans hd₁
      exact .dispatched ((P.handed i hi).trans hm) (P.topic? ht) (P.tasked hd) (hh.trans hd')
        (hr topic ht)
  | begun _ _ hd _ => exact (hf _ _ _ hd).elim

/-- The call that was begun to dispatch a message ends before it could. -/
theorem keepsPromises_lost {v : HandleId} {m : MessageSpec} (A : Assigned tr s)
    (P : Passes tr tr' s s' c) (hc : s.calls.get? c = some (.fresh (.dispatch v m p)))
    (hh : handed s' c = handed s c) (hset : Settles s s' p .abandoned) (htask : Tasked tr' p c)
    (ho : Over s' c) : KeepsPromises tr tr' s s' c := by
  have hs := serves_of_dispatch hc
  refine keepsPromises_of_serves A hs hset fun i topic m' hi pr => ?_
  cases pr with
  | enqueued _ _ _ _ r | dispatched _ _ _ _ r => exact (A.not_receives hc r).elim
  | begun hm _ hd hd' =>
    cases A.unique p c _ hs (serves_of_dispatch hd)
    exact .lost ((P.handed i hi).trans hm) htask (hh.trans hd') ho

/-- The call that a label is about, if any. -/
def Label.actor? : Label → Option CallId
  | .resume c => some c
  | .answer c _ _ => some c
  | .abort c => some c
  | .crash c => some c
  | _ => none

theorem Begins.speaks {l : Label} {run : Option (CallId × Act)} (hb : Begins s l s' run)
    (hc : ∀ i, Label.actor? l = some i → i = c) : Speaks s s' c := by
  refine ⟨?_, hb.later, fun h => ?_⟩
  · cases hb with
    | @drain i r taken => exact ⟨_, by simp, mute_drained c i taken.2⟩
    | @dispatch i v m =>
      cases hc i rfl
      exact ⟨_, by simp; rfl, mute_asked c s.tickets (.send v m)⟩
    | @create i w =>
      cases hc i rfl
      exact ⟨_, by simp, mute_asked c s.tickets (.openProducer w.topic)⟩
    | @created i => exact ⟨_, by simp, mute_opened c i s.handles.size⟩
    | stop _ _ hs => exact ⟨[], by simp [hs.deeds_eq], mute_nil c⟩
    | _ => exact ⟨[], by simp, mute_nil c⟩
  · rcases hb.closed_or with he | ⟨he, -⟩
    · exact he.trans h
    · exact he

theorem Made.cons {r : Request} (h : Made tr c r) (x : Label × Factory) : Made (x :: tr) c r := by
  obtain ⟨s₀, hm, hsize⟩ := h
  exact ⟨s₀, List.mem_cons_of_mem x hm, hsize⟩

theorem topicOf_eq {h : HandleId} {topic : String} (ht : s.topic? h = some topic) :
    s.topicOf h = topic := by
  unfold topicOf
  exact congrArg (fun t => t.getD "") ht

theorem resultOf_eq {h : HandleId} {topic : String} (ht : s.topic? h = some topic)
    (r : Except ClientError MessageId) : s.outcomeOf h r = resultOf topic r := by
  cases r with
  | ok id => rfl
  | error e => exact congrArg (fun t => Except.error (Error.ofSend t e)) (topicOf_eq ht)

/-- The next pending send is nobody's task. -/
theorem Assigned.not_tasked_size (A : Assigned tr s) (l : Label) (i : CallId) :
    ¬ Tasked ((l, s) :: tr) s.pending.size i := by
  rintro ⟨l', s₁, v, m, hm, hget⟩
  rcases List.mem_cons.1 hm with he | hm
  · cases he
    exact Nat.lt_irrefl _ (A.serves _ i (serves_of_dispatch hget))
  · exact Nat.lt_irrefl _ (A.tasked _ i ⟨l', s₁, v, m, hm, hget⟩)

/-- A call made by a caller. -/
theorem Storied.call {r : Request} (h : Storied tr s none) (hr : r.IsPublic) :
    Storied ((.call r, s) :: tr) (s.start (.fresh r)) none := by
  have hb : Begins s (.call r) (s.start (.fresh r)) none := .call
  have hpending : (Progress.fresh r).pending? = none := by
    cases r with
    | dispatch => exact hr.elim
    | _ => rfl
  have hh := (handed_of_deeds_eq (deeds_start s (.fresh r)) s.calls.size).trans
    (h.silent _ (get?_size s.calls))
  exact h.ends eq_of_none (passes_start (hb.speaks nofun) rfl hpending rfl)
    (keepsPromises_of_not_serves (not_serves_size s))
    (fits_start (.fresh hr ⟨s, List.mem_cons_self, rfl⟩ hh))

/-- No call gets anywhere. -/
theorem Storied.same {l : Label} (h : Storied tr s none) (hl : ∀ r, l ≠ .call r)
    (w : Speaks s s' s.calls.size) (hcalls : s'.calls = s.calls) (hpend : s'.pending = s.pending)
    (he : s'.deeds = s.deeds) : Storied ((l, s) :: tr) s' none := by
  refine h.ends eq_of_none (passes_same w (.inr ⟨l, rfl, hl⟩) (fun q hq => ?_)
    (fun _ => handed_of_deeds_eq he _) hcalls hpend)
    (keepsPromises_of_not_serves (not_serves_size s)) ?_
  · exact absurd (Registry.lt_size_of_get? hq) (Nat.lt_irrefl _)
  · rw [hcalls]
    exact fits_same

/-- The call that was begun to dispatch a message hands it over. -/
theorem Storied.dispatch {v : HandleId} {m : MessageSpec} (h : Storied tr s none)
    (hc : s.calls.get? c = some (.fresh (.dispatch v m p))) :
    Storied ((.resume c, s) :: tr) ((s.goTo c (.completing v s.tickets p)).ask c (.send v m)) none := by
  have hb : Begins s (.resume c) ((s.goTo c (.completing v s.tickets p)).ask c (.send v m)) none :=
    .dispatch hc
  obtain ⟨hno, hh⟩ := (h.story c _ hc fun _ => nofun).of_task
  have hp : (Progress.completing v s.tickets p).pending? =
      (Progress.fresh (.dispatch v m p)).pending? := rfl
  have P : Passes tr ((.resume c, s) :: tr) s _ c :=
    passes_update (hb.speaks fun i hi => (Option.some.inj hi).symm) (.inr ⟨_, rfl, fun _ => nofun⟩) hc rfl rfl
      (keepsPending_refl (.inr hp) _)
  have hc' : (s.calls.update c fun _ => .completing v s.tickets p).get? c =
      some (.completing v s.tickets p) := by
    rw [Registry.get?_update, if_pos rfl, hc]
    rfl
  refine h.ends eq_of_none P (keepsPromises_dispatch h.assigned P hc hc' ?_ ?_)
    (fits_goTo (.completing (P.unmade hc hno)))
  · exact handed_asked (by simp; rfl) rfl hh
  · exact ⟨_, s, v, m, List.mem_cons_self, hc⟩

theorem settles_update (q : PendingState) {s' : Factory}
    (hpend : s'.pending = s.pending.update p fun x => { x with state := q, awaiter := none }) :
    Settles s s' p q := by
  intro x hx
  refine ⟨{ x with state := q, awaiter := none }, ?_, rfl, rfl⟩
  rw [hpend, Registry.get?_update, if_pos rfl, hx]
  rfl

/-- A receipt that a call waited for has come. -/
theorem Storied.completed {v : HandleId} {t : Ticket} {r : Except ClientError MessageId}
    {cs : List CallId} (h : Storied tr s none) (hc : s.calls.get? c = some (.completing v t p)) :
    Storied ((.answer c t (.receipt r), s) :: tr)
      (({ s with
          handles := s.handles.update v fun x => x.endBorrow.1
          pending := s.pending.update p fun q =>
            { q with state := .settled (s.outcomeOf v r), awaiter := none }
          }.rouse cs).finish c .delivered) none := by
  have hb : Begins s (.answer c t (.receipt r)) (({ s with
      handles := s.handles.update v fun x => x.endBorrow.1
      pending := s.pending.update p fun q =>
        { q with state := .settled (s.outcomeOf v r), awaiter := none }
      }.rouse cs).finish c .delivered) none := .completed hc
  generalize hs' : Factory.finish _ c .delivered = s' at hb ⊢
  have hcalls : s'.calls = s.calls.update c fun _ => .ended .delivered := by rw [← hs']; rfl
  have hpend : s'.pending = s.pending.update p fun q =>
      { q with state := .settled (s.outcomeOf v r), awaiter := none } := by rw [← hs']; rfl
  have hh : handed s' c = handed s c := handed_of_deeds_eq (by rw [← hs']; simp) c
  have P : Passes tr ((.answer c t (.receipt r), s) :: tr) s s' c :=
    passes_update (hb.speaks fun i hi => (Option.some.inj hi).symm) (.inr ⟨_, rfl, fun _ => nofun⟩) hc rfl
      hcalls (hpend ▸ keepsPending_settle rfl rfl _ _)
  have hover : Over s' c := by
    refine ⟨.ended .delivered, ?_, rfl⟩
    rw [hcalls, Registry.get?_update, if_pos rfl, hc]
    rfl
  have hno := (h.story c _ hc fun _ => nofun).of_completing
  refine h.ends eq_of_none P
    (keepsPromises_settle h.assigned P hc hh (settles_update _ hpend) fun topic ht => ?_) ?_
  · rw [resultOf_eq ht]
    exact .settled ⟨s, List.mem_cons_self⟩ hover
  · rw [hcalls]
    exact fits_goTo (.delivered (P.unmade hc hno))

theorem LetsGo.active {s₁ : Factory} {q : Progress} (hs : LetsGo s c q s₁) :
    Progress.isOver q = false := by
  cases hs with
  | sending hp => rcases hp with rfl | rfl <;> rfl
  | _ => rfl

/-- A call that is ended before its time. -/
theorem Storied.stop {l : Label} {s₁ : Factory} {q final : Progress} (h : Storied tr s none)
    (hl : (l = .abort c ∧ final = .aborted) ∨ (l = .crash c ∧ final = .crashed))
    (hc : s.calls.get? c = some q) (hs : LetsGo s c q s₁) :
    Storied ((l, s) :: tr) ((s₁.goTo c final).note (.finished c)) none := by
  have ho := hs.active
  have hb : Begins s l ((s₁.goTo c final).note (.finished c)) none := .stop hl hc hs
  have hactor : ∀ i, Label.actor? l = some i → i = c := by
    rcases hl with ⟨rfl, -⟩ | ⟨rfl, -⟩ <;> exact fun i hi => (Option.some.inj hi).symm
  have hfinal : final.pending? = none ∧ Progress.isOver final = true ∧
      Story ((l, s) :: tr) ((s₁.goTo c final).note (.finished c)) c final := by
    rcases hl with ⟨-, rfl⟩ | ⟨-, rfl⟩
    · exact ⟨rfl, rfl, .aborted⟩
    · exact ⟨rfl, rfl, .crashed⟩
  obtain ⟨hf, hover, st⟩ := hfinal
  have htr : Follows tr ((l, s) :: tr) s := by
    refine .inr ⟨l, rfl, ?_⟩
    rcases hl with ⟨rfl, -⟩ | ⟨rfl, -⟩ <;> exact fun _ => nofun
  have w := hb.speaks hactor
  have hh : handed ((s₁.goTo c final).note (.finished c)) c = handed s c :=
    handed_of_deeds_eq (by simp [hs.deeds_eq]) c
  generalize hs' : (s₁.goTo c final).note (.finished c) = s' at w hh st ⊢
  have hcalls : s'.calls = s.calls.update c fun _ => final := by
    rw [← hs']
    cases hs <;> rfl
  have hpend : s'.pending = s₁.pending := by rw [← hs']; rfl
  have hover' : Over s' c := by
    refine ⟨final, ?_, hover⟩
    rw [hcalls, Registry.get?_update, if_pos rfl, hc]
    rfl
  cases hs with
  | @dispatch v m p =>
    have P : Passes tr ((l, s) :: tr) s s' c := passes_update w htr hc ho hcalls
      (hpend ▸ keepsPending_settle (p := p) rfl hf _ _)
    refine h.ends eq_of_none P (keepsPromises_lost h.assigned P hc hh (settles_update _ hpend)
      ⟨l, s, v, m, List.mem_cons_self, hc⟩ hover') ?_
    rw [hcalls]
    exact fits_goTo st
  | @completing v t p =>
    have P : Passes tr ((l, s) :: tr) s s' c := passes_update w htr hc ho hcalls
      (hpend ▸ keepsPending_settle (p := p) rfl hf _ _)
    refine h.ends eq_of_none P (keepsPromises_settle h.assigned P hc hh (settles_update _ hpend)
      fun _ _ => .abandoned hover') ?_
    rw [hcalls]
    exact fits_goTo st
  | awaiting =>
    exact h.moves eq_of_none w htr hc ho rfl hcalls
      (hpend ▸ keepsPending_awaiter hf _ _ _) st
  | @fresh r hr =>
    refine h.moves eq_of_none w htr hc ho ?_ hcalls (hpend ▸ keepsPending_refl (.inl hf) _) st
    cases r with
    | dispatch v m p => exact absurd rfl (hr v m p)
    | _ => rfl
  | sending hp =>
    refine h.moves eq_of_none w htr hc ho ?_ hcalls (hpend ▸ keepsPending_refl (.inl hf) _) st
    rcases hp with rfl | rfl <;> rfl
  | queued | creating | retiring | spinning =>
    exact h.moves eq_of_none w htr hc ho rfl hcalls
      (hpend ▸ keepsPending_refl (.inl hf) _) st

/-- A message was taken into the queue, and another call waits for its receipt. -/
theorem Storied.accepted {v : HandleId} {t : Ticket} (h : Storied tr s none)
    (hc : s.calls.get? c = some (.enqueuing v t)) :
    Storied ((.answer c t (.accepted (.ok ())), s) :: tr)
      (({ s with pending := s.pending.add { topic := s.topicOf v } }.start
        (.completing v t s.pending.size)).finish c (.promised s.pending.size)) none := by
  have hb : Begins s (.answer c t (.accepted (.ok ())))
    (({ s with pending := s.pending.add { topic := s.topicOf v } }.start
      (.completing v t s.pending.size)).finish c (.promised s.pending.size)) none := .accepted hc
  have w := hb.speaks fun i hi => (Option.some.inj hi).symm
  generalize hs' : Factory.finish _ c (.promised s.pending.size) = s' at w ⊢
  have hcalls : s'.calls = (s.calls.add (.completing v t s.pending.size)).update c fun _ =>
      .ended (.promised s.pending.size) := by rw [← hs']; rfl
  have hpend : s'.pending = s.pending.add { topic := s.topicOf v } := by rw [← hs']; rfl
  have hh : handed s' c = handed s c := handed_of_deeds_eq (by rw [← hs']; simp) c
  have htr : Follows tr ((.answer c t (.accepted (.ok ())), s) :: tr) s := .inr ⟨_, rfl, fun _ => nofun⟩
  have hunmade : ∀ r, ¬ Made ((.answer c t (.accepted (.ok ())), s) :: tr) s.calls.size r :=
    fun r hm => h.requested.unmade r (htr.made hm)
  have hne : s.calls.size ≠ c := Nat.ne_of_gt (Registry.lt_size_of_get? hc)
  refine h.ends eq_of_none (passes_promise w htr hc rfl hcalls rfl rfl hpend rfl)
    (keepsPromises_of_not_serves (not_serves_of_get? hc rfl)) ?_
  rw [hcalls]
  refine fits_start_goTo ?_ (.completing hunmade)
  obtain ⟨want, m, hmade, hp, ht, hm⟩ := (h.story c _ hc fun _ => nofun).of_enqueuing
  refine .ended (hmade.cons _) (.promised hp ⟨{ topic := s.topicOf v }, ?_, topicOf_eq ht, ?_⟩)
  · rw [hpend]
    exact (Registry.get?_add _ _ _).trans (if_pos rfl)
  · refine .enqueued (hh.trans hm) (topic?_later w.handles ht) ⟨s, List.mem_cons_self⟩
      (h.assigned.not_tasked_size _) (.waiting (d := s.calls.size) ?_)
    rw [hcalls]
    exact calls_goTo _ _ hne ((Registry.get?_add _ _ _).trans (if_pos rfl))

theorem Storied.begins {l : Label} {run : Option (CallId × Act)} (h : Storied tr s none)
    (hl : ∀ r, l = .call r → r.IsPublic) (hb : Begins s l s' run) : Storied ((l, s) :: tr) s' run := by
  have hany := fun c => hb.speaks (c := c)
  have hspeaks : ∀ c, Label.actor? l = some c → Speaks s s' c := fun c hc =>
    hany c fun i hi => Option.some.inj (hi.symm.trans hc)
  have htr : (∀ r, l ≠ .call r) → Follows tr ((l, s) :: tr) s := fun hcall => .inr ⟨l, rfl, hcall⟩
  have hkeep : ∀ (q q' : Progress) (b : Registry Pending), q'.pending? = none → KeepsPending q q' b b :=
    fun _ _ b hq' => keepsPending_refl (.inl hq') b
  have hstory : ∀ c q, s.calls.get? c = some q → Story tr s c q := fun c q hc => h.story c q hc fun _ => nofun
  cases hb with
  | call => exact h.call (hl _ rfl)
  | dispatch hc => exact h.dispatch hc
  | accepted hc => exact h.accepted hc
  | completed hc => exact h.completed hc
  | stop hl hc hs => exact h.stop hl hc hs
  | @want c w hc =>
    obtain ⟨hmade, hm⟩ := (hstory c _ hc).of_fresh trivial
    exact h.runs eq_of_none (hspeaks c rfl) (htr fun _ => nofun) hc rfl rfl rfl rfl ⟨_, hmade.cons _, rfl⟩ hm
  | @refuse c e hc =>
    obtain ⟨hmade, -⟩ := (hstory c _ hc).of_fresh trivial
    exact h.moves eq_of_none (hspeaks c rfl) (htr fun _ => nofun) hc rfl rfl rfl (hkeep _ _ _ rfl)
      (.ended (hmade.cons _) .refuse)
  | @drain c r taken hc htaken =>
    have hr : r = .reset ∨ r = .shutdown := htaken.imp And.left And.left
    have hq : (Progress.fresh r).pending? = none ∧ r.IsPublic := by
      rcases hr with rfl | rfl <;> exact ⟨rfl, trivial⟩
    obtain ⟨hmade, hm⟩ := (hstory c _ hc).of_fresh hq.2
    exact h.runs eq_of_none (hspeaks c rfl) (htr fun _ => nofun) hc rfl hq.1 rfl rfl ⟨r, hmade.cons _, hr⟩
      (handed_drained (i := c) (by simp; rfl) hm)
  | @await c p hc =>
    obtain ⟨hmade, -⟩ := (hstory c _ hc).of_fresh trivial
    exact h.moves eq_of_none (hspeaks c rfl) (htr fun _ => nofun) hc rfl rfl rfl
      (keepsPending_awaiter rfl s.pending p (some c)) (.awaiting (hmade.cons _))
  | @filled c w k v hc =>
    obtain ⟨hmade, hm⟩ := (hstory c _ hc).of_queued
    exact h.runs eq_of_none (hspeaks c rfl) (htr fun _ => nofun) hc rfl rfl rfl rfl ⟨_, hmade.cons _, rfl⟩ hm
  | @create c w k hc =>
    obtain ⟨hmade, hm⟩ := (hstory c _ hc).of_queued
    refine h.moves eq_of_none (hspeaks c rfl) (htr fun _ => nofun) hc rfl rfl rfl (hkeep _ _ _ rfl) ?_
    exact .creating (hmade.cons _)
      (handed_unsent (t := s.tickets) (d := .openProducer w.topic) (by simp) rfl hm)
      (asked_of_deeds_eq (s := s) (t := s.tickets) (d := .openProducer w.topic) (by simp))
  | @retire c rs next hc =>
    obtain ⟨r, hmade, hfor, hm⟩ := (hstory c _ hc).of_retiring
    exact h.runs eq_of_none (hspeaks c rfl) (htr fun _ => nofun) hc rfl rfl rfl rfl ⟨r, hmade.cons _, hfor⟩ hm
  | @closed c t rs next r hc =>
    obtain ⟨r, hmade, hfor, hm⟩ := (hstory c _ hc).of_retiring
    exact h.runs eq_of_none (hspeaks c rfl) (htr fun _ => nofun) hc rfl rfl rfl rfl ⟨r, hmade.cons _, hfor⟩ hm
  | @settled c p q r hc hq ho =>
    exact h.moves eq_of_none (hspeaks c rfl) (htr fun _ => nofun) hc rfl rfl rfl (hkeep _ _ _ rfl)
      (.ended ((hstory c _ hc).of_awaiting.cons _) (.await hq ho))
  | @created c t w k m cs hc =>
    obtain ⟨hmade, hm, -⟩ := (hstory c _ hc).of_creating
    exact h.runs eq_of_none (hspeaks c rfl) (htr fun _ => nofun) hc rfl rfl rfl rfl ⟨_, hmade.cons _, rfl⟩
      (handed_opened (i := c) (v := s.handles.size) (by simp) hm)
  | @failed c t w k e cs hc =>
    obtain ⟨hmade, hm, ha⟩ := (hstory c _ hc).of_creating
    refine h.moves eq_of_none (hspeaks c rfl) (htr fun _ => nofun) hc rfl rfl rfl (hkeep _ _ _ rfl) ?_
    exact .ended (hmade.cons _) (.uncreated ((handed_of_deeds_eq (by simp) c).trans hm)
      ((hspeaks c rfl).asked c t _ ha) ⟨s, List.mem_cons_self⟩)
  | @receipt c t v r cs hc =>
    obtain ⟨w, m, hmade, hp, ht, hm⟩ := (hstory c _ hc).of_sending
    rw [resultOf_eq ht] at hspeaks ⊢
    refine h.moves eq_of_none (hspeaks c rfl) (htr fun _ => nofun) hc rfl rfl rfl (hkeep _ _ _ ?_) ?_
    · cases resultOf _ r <;> rfl
    · exact .ended (hmade.cons _) (.receipt hp (topic?_later (hspeaks c rfl).handles ht)
        ((handed_of_deeds_eq (by simp) c).trans hm) ⟨s, List.mem_cons_self⟩)
  | @rejected c t v e cs hc =>
    obtain ⟨w, m, hmade, hp, ht, hm⟩ := (hstory c _ hc).of_enqueuing
    rw [topicOf_eq ht] at hspeaks ⊢
    refine h.moves eq_of_none (hspeaks c rfl) (htr fun _ => nofun) hc rfl rfl rfl
      (keepsPending_add rfl s.pending _) (.ended (hmade.cons _) (.promised hp
        ⟨_, (Registry.get?_add _ _ _).trans (if_pos rfl), rfl, ?_⟩))
    exact .rejected ((handed_of_deeds_eq (by simp) c).trans hm)
      (topic?_later (hspeaks c rfl).handles ht) ⟨s, List.mem_cons_self⟩
      (h.assigned.not_tasked_size _)
  | leased | denied | released => exact h.same (fun _ => nofun) (hany _ fun _ => nofun) rfl rfl (by simp)

/-! ## 4. Runs -/

theorem storied_new : Storied [] new none where
  assigned := by
    have hserves : ∀ p i, ¬ Serves new p i := by
      rintro p i ⟨q, hq, -⟩
      simp [new] at hq
    have htasked : ∀ p i, ¬ Tasked [] p i := by
      rintro p i ⟨l, s₁, v, m, hm, -⟩
      cases hm
    exact ⟨fun p i h => (hserves p i h).elim, fun p i h => (htasked p i h).elim,
      fun p i _ h => (hserves p i h).elim, fun p i _ h => (htasked p i h).elim,
      fun p _ i _ _ => hserves p i⟩
  requested := by
    refine ⟨?_, ?_⟩
    · rintro i r ⟨s₀, hm, -⟩
      cases hm
    · rintro i r r' ⟨s₀, hm, -⟩
      cases hm
  story i q hq := by simp [new] at hq
  act := fun _ _ => nofun
  silent _ _ := rfl

end

/-- In every run in which callers make only requests of their own, every call has its story. -/
theorem Run.storied {ok : Factory → Label → Prop} {tr : List (Label × Factory)} {s : Factory}
    (hok : ∀ s r, ok s (.call r) → r.IsPublic) (h : Run ok tr s) : Storied tr s none := by
  have hboth : (∃ owner, Sound owner s none) ∧ Storied tr s none := by
    refine h.induct (I := fun tr s run => (∃ owner, Sound owner s run) ∧ Storied tr s run)
      ⟨⟨_, sound_new⟩, storied_new⟩ ?_ ?_
    · rintro tr s s₁ l run - hl ⟨⟨owner, hs⟩, h⟩ hb
      refine ⟨⟨owner, hs.begins hb⟩, h.begins (fun r hr => ?_) hb⟩
      subst hr
      exact hok s r hl
    · rintro tr s s₁ s₂ l c a next - - ⟨⟨owner, hs⟩, h⟩ ht
      exact ⟨hs.turn ht, h.turn hs ht⟩
  exact hboth.2

end Factory

end TopicPublisher
