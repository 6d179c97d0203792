import TopicPublisher.Proofs.Cache.Mirrors

/-!
# Topics do not interfere

All topics share one map, one flag and one numbering of calls and cells. What becomes of the look-ups of
one topic is nevertheless the same whether there are look-ups of other topics or not.

The proof is a simulation. An act that concerns topic `u` can happen in a run exactly if it can in the
mirror, and leaves the two mirrors of one another (`Mirror.step`); an act of another topic's look-up
changes the run and not the mirror (`Mirror.step_other`). Each part of a look-up has a lemma for either
case.

Results:
1. `topics_apart`: deleting the look-ups of all other topics from a run leaves a run in which nothing
   that concerns the topic differs, where no handle comes of creations for it and for another one. It
   holds of every run and so at every moment of one, and nothing is asked of the look-ups that are
   deleted: they may wait for ever.
2. `sharing_interferes`: that condition cannot be dropped.
-/

namespace TopicPublisher

namespace Traffic

variable {u : String} {mine : HandleId → Bool} {R : CellId → CellId → Prop} {F : CellId → Prop}
  {T : CallId → CallId → Prop} {x y : Traffic} {m : Caller} {c c' : CallId} {p p' : Progress}
  {k k' : CellId} {a b : Cell} {h : HandleId} {t : String} {next : AfterRetiring} {o : Outcome}

/-! ## 1. Cells -/

theorem Match.enter (hab : Match T mine a b) (hc : T c c') :
    (b.enter c').1 = (a.enter c).1 ∧ Match T mine (a.enter c).2 (b.enter c').2 := by
  unfold Cell.enter
  rcases rel_cases hab.turn with ⟨ha, hb⟩ | ⟨i, j, ha, hb, hij⟩
  · rw [ha, hb]
    exact ⟨rfl, hab.value, hab.mine, .some hc, hab.queue⟩
  · rw [ha, hb]
    exact ⟨rfl, hab.value, hab.mine, .some hij, List.rel_append hab.queue (.cons hc .nil)⟩

theorem Match.pass (hab : Match T mine a b) : Match T mine a.pass.1 b.pass.1 := by
  have hqueue := hab.queue
  unfold Cell.pass
  cases ha : a.queue with
  | nil =>
    rw [ha, List.forall₂_nil_left_iff] at hqueue
    rw [hqueue]
    exact ⟨hab.value, hab.mine, .none, .nil⟩
  | cons i rest =>
    rw [ha] at hqueue
    obtain ⟨j, rest', hij, hrest, hb⟩ := List.forall₂_cons_left_iff.1 hqueue
    rw [hb]
    exact ⟨hab.value, hab.mine, .some hij, hrest⟩

theorem match_fill (hh : mine h = true) : Match T mine (a.fill h).1 (b.fill h).1 where
  value := rfl
  mine v hv := by
    cases hv
    exact hh
  turn := .none
  queue := .nil

theorem Match.turn_iff (hab : Match T mine a b) (hT : ∀ {d d'}, T d d' → (d = c ↔ d' = c')) :
    a.turn = some c ↔ b.turn = some c' := by
  rcases rel_cases hab.turn with ⟨ha, hb⟩ | ⟨i, j, ha, hb, hij⟩
  · rw [ha, hb]
    exact iff_of_false nofun nofun
  · rw [ha, hb, Option.some.injEq, Option.some.injEq, hT hij]

theorem Match.leave (hab : Match T mine a b) (hT : ∀ {d d'}, T d d' → (d = c ↔ d' = c')) :
    Match T mine (a.leave c).1 (b.leave c').1 := by
  have hturn := hab.turn_iff hT
  unfold Cell.leave
  by_cases hc : a.turn = some c
  · rw [if_pos hc, if_pos (hturn.1 hc)]
    exact hab.pass
  · rw [if_neg hc, if_neg fun e => hc (hturn.2 e)]
    refine ⟨hab.value, hab.mine, hab.turn, List.rel_filter ?_ hab.queue⟩
    intro d d' hd
    simp [hT hd]

/-! ## 2. Retiring a handle -/

theorem Mirrors.retire (hm : Mirrors u mine R F x.core y.core) (hc : Twins u x.callers y.callers c c')
    (hh : mine h = true) (hn : After u next o) :
    Mirror u mine (x.become (x.factory.retire c [{ handle := h }] next))
      (y.become (y.factory.retire c' [{ handle := h }] next)) := by
  refine ⟨R, F, ?_⟩
  rcases bare_cases (hm.handles h hh) with ⟨hv, hw⟩ | ⟨v, w, hv, hw, hvw⟩
  · rw [core_retire_unknown hv, core_retire_unknown hw]
    exact hm.goTo hc (.waiting hh hn)
  · have hborrows : (bare w).borrows = (bare v).borrows := by rw [hvw]
    have hclosed : (bare w).closed = (bare v).closed := by rw [hvw]
    by_cases hb : v.borrows = 0
    · cases hcl : v.closed with
      | true =>
        rw [core_retire_elsewhere hv hb hcl hn,
          core_retire_elsewhere hw (hborrows.trans hb) (hclosed.trans hcl) hn]
        exact hm.goTo hc (.ended o)
      | false =>
        rw [core_retire_close hv hb hcl,
          core_retire_close hw (hborrows.trans hb) (hclosed.trans hcl)]
        refine (hm.setHandle fun v w hvw => ?_).goTo hc (.closing hh hn)
        unfold bare closeNow Handle.claimClose at *
        simp_all
    · rw [core_retire_busy hv hb, core_retire_busy hw fun e => hb (hborrows.symm.trans e)]
      refine (hm.setHandle fun v w hvw => ?_).goTo hc (.waiting hh hn)
      unfold bare Handle.park at *
      split <;> split <;> simp_all

theorem Mirrors.beginRetiring (hm : Mirrors u mine R F x.core y.core)
    (hc : Twins u x.callers y.callers c c') (hh : mine h = true) (hn : After u next o) :
    Mirror u mine (x.become (x.factory.beginRetiring c [h] next))
      (y.become (y.factory.beginRetiring c' [h] next)) := by
  have hstop : Mirrors u mine R F (x.become (x.factory.stopLeasing [h])).core
      (y.become (y.factory.stopLeasing [h])).core :=
    hm.setHandle fun _ _ => bare_stopLeasing
  exact hstop.retire hc hh hn

/-! ## 3. Placement -/

theorem Mirrors.isRetiring_eq (hm : Mirrors u mine R F x.core y.core) (hh : mine h = true) :
    y.factory.isRetiring h = x.factory.isRetiring h :=
  congrArg (fun r => r.getD false) (hm.map_eq hh (f := Handle.retiring) fun _ => rfl)

/-- The same becomes of a handle of the topic in both runs. -/
theorem Mirrors.place_cache {x y : Core} (hm : Mirrors u mine R F x y) (hk : R k k')
    (hh : mine h = true) (retiring : Bool) :
    ∃ q b b' R', x.cache.place retiring u k h = (q, b) ∧ y.cache.place retiring u k' h = (q, b') ∧
      Mirrors u mine R' F (x.setCache b) (y.setCache b') := by
  cases hcl : x.cache.closed with
  | true =>
    refine ⟨.closed h, x.cache, y.cache, R, ?_, ?_, hm⟩
    · simp [Cache.place, hcl]
    · simp [Cache.place, hm.closed, hcl]
  | false =>
    have hcl' : y.cache.closed = false := hm.closed.trans hcl
    have adopted : Mirrors u mine (withNew R x y) F
        (x.setCache (x.cache.adopt u h)) (y.setCache (y.cache.adopt u h)) :=
      hm.addCell ⟨rfl, fun v hv => by cases hv; exact hh, .none, .nil⟩
    rcases rel_cases hm.entry with ⟨hx, hy⟩ | ⟨j, j', hx, hy, hj⟩
    · cases retiring with
      | true =>
        refine ⟨.retired h, x.cache, y.cache, R, ?_, ?_, hm⟩
        · simp [Cache.place, hcl, hx]
        · simp [Cache.place, hcl', hy]
      | false =>
        refine ⟨.cached h, _, _, _, ?_, ?_, adopted⟩
        · simp [Cache.place, hcl, hx]
        · simp [Cache.place, hcl', hy]
    · have hiff : j = k ↔ j' = k' := hm.unique hj hk
      cases retiring with
      | true =>
        by_cases hjk : j = k
        · refine ⟨.retired h, _, _, R, ?_, ?_, hm.erase⟩
          · simp [Cache.place, hcl, hx, hjk]
          · simp [Cache.place, hcl', hy, hiff.1 hjk]
        · refine ⟨.retired h, x.cache, y.cache, R, ?_, ?_, hm⟩
          · simp [Cache.place, hcl, hx, hjk]
          · simp [Cache.place, hcl', hy, mt hiff.2 hjk]
      | false =>
        by_cases hjk : j = k
        · refine ⟨.cached h, x.cache, y.cache, R, ?_, ?_, hm⟩
          · simp [Cache.place, hcl, hx, hjk]
          · simp [Cache.place, hcl', hy, hiff.1 hjk]
        · -- The map has another cell of the topic, and the same is in it in both runs.
          obtain ⟨a, b, ha, hb, hab⟩ := hm.cells hj
          have hva : x.cache.value? j = a.value := by simp [Cache.value?, ha]
          have hvb : y.cache.value? j' = a.value := by simp [Cache.value?, hb, hab.value]
          cases hv : a.value with
          | none =>
            refine ⟨.cached h, _, _, _, ?_, ?_, adopted⟩
            · simp [Cache.place, hcl, hx, hjk, hva, hv]
            · simp [Cache.place, hcl', hy, mt hiff.2 hjk, hvb, hv]
          | some w =>
            by_cases hwh : w = h
            · refine ⟨.cached h, x.cache, y.cache, R, ?_, ?_, hm⟩
              · simp [Cache.place, hcl, hx, hjk, hva, hv, hwh]
              · simp [Cache.place, hcl', hy, mt hiff.2 hjk, hvb, hv, hwh]
            · refine ⟨.superseded w h, x.cache, y.cache, R, ?_, ?_, hm⟩
              · simp [Cache.place, hcl, hx, hjk, hva, hv, hwh]
              · simp [Cache.place, hcl', hy, mt hiff.2 hjk, hvb, hv, hwh]

theorem Mirrors.place (hm : Mirrors u mine R F x.core y.core) (hc : Twins u x.callers y.callers c c')
    (hk : R k k') (hh : mine h = true) :
    Mirror u mine (x.become (x.factory.place c ⟨u, .peek⟩ k h))
      (y.become (y.factory.place c' ⟨u, .peek⟩ k' h)) := by
  obtain ⟨q, b, b', R', hx, hy, hm'⟩ := hm.place_cache hk hh (x.factory.isRetiring h)
  rw [← hm.isRetiring_eq hh] at hy
  have hplaced := Cache.place_placed x.core.cache (x.factory.isRetiring h) u k h
  rw [hx] at hplaced
  have kept : q = .cached h ∨ q = .retired h → Mirror u mine
      (x.become (x.factory.place c ⟨u, .peek⟩ k h)) (y.become (y.factory.place c' ⟨u, .peek⟩ k' h)) := by
    intro hq
    refine ⟨R', F, ?_⟩
    rw [core_place_kept hx hq, core_place_kept hy hq]
    exact hm'.goTo hc (.ended _)
  have retires : ∀ {next o}, After u next o →
      ((∃ w, q = .superseded w h ∧ next = .give ⟨u, .peek⟩ w) ∨ (q = .closed h ∧ next = .refuse)) →
      Mirror u mine (x.become (x.factory.place c ⟨u, .peek⟩ k h))
        (y.become (y.factory.place c' ⟨u, .peek⟩ k' h)) := by
    intro next o hn hq
    rw [place_retires hx hq, place_retires hy hq]
    have hm' : Mirrors u mine R' F (x.become { x.factory with cache := b }).core
      (y.become { y.factory with cache := b' }).core := hm'
    exact hm'.beginRetiring hc hh hn
  cases hplaced with
  | closed => exact retires .refuse (.inr ⟨rfl, rfl⟩)
  | dropped | retired => exact kept (.inr rfl)
  | kept | adopted => exact kept (.inl rfl)
  | superseded => exact retires (.give _) (.inl ⟨_, rfl, rfl⟩)

/-! ## 4. Look-ups and creations -/

theorem Mirrors.enter {x y : Core} (hm : Mirrors u mine R F x y)
    (hc : Twins u x.callers y.callers c c') (hk : R k k') (n n' : Ticket)
    (hab : Match (Twins u x.callers y.callers) mine a b) :
    Mirrors u mine R F
      ((x.setCache (x.cache.setCell k fun a => (a.enter c).2)).goTo c
        (if (a.enter c).1 then .creating ⟨u, .peek⟩ k n else .queued ⟨u, .peek⟩ k))
      ((y.setCache (y.cache.setCell k' fun b => (b.enter c').2)).goTo c'
        (if (b.enter c').1 then .creating ⟨u, .peek⟩ k' n' else .queued ⟨u, .peek⟩ k')) := by
  refine (hm.setCell hk fun a b hab => (hab.enter hc).2).goTo hc ?_
  rw [(hab.enter hc).1]
  split
  · exact .creating hk
  · exact .queued hk

theorem Mirrors.look (hm : Mirrors u mine R F x.core y.core) (hc : Twins u x.callers y.callers c c') :
    Mirror u mine (x.become (x.factory.look c ⟨u, .peek⟩))
      (y.become (y.factory.look c' ⟨u, .peek⟩)) := by
  cases hcl : x.core.cache.closed with
  | true =>
    refine ⟨R, F, ?_⟩
    rw [core_look_refused hcl, core_look_refused (hm.closed.trans hcl)]
    exact hm.goTo hc (.ended _)
  | false =>
    have hcl' : y.core.cache.closed = false := hm.closed.trans hcl
    rcases rel_cases hm.entry with ⟨hx, hy⟩ | ⟨k, k', hx, hy, hk⟩
    · have hempty : Match (Twins u x.callers y.callers) mine {} {} := ⟨rfl, nofun, .none, .nil⟩
      refine ⟨withNew R x.core y.core, F, ?_⟩
      rw [core_look_miss hcl (.added hx) ((Registry.get?_add _ _ _).trans (if_pos rfl)) rfl,
        core_look_miss hcl' (.added hy) ((Registry.get?_add _ _ _).trans (if_pos rfl)) rfl]
      exact (hm.addCell hempty).enter hc (.inr ⟨rfl, rfl⟩) _ _ hempty
    · obtain ⟨a, b, ha, hb, hab⟩ := hm.cells hk
      refine ⟨R, F, ?_⟩
      cases hv : a.value with
      | none =>
        rw [core_look_miss hcl (.found hx) ha hv, core_look_miss hcl' (.found hy) hb (hab.value.trans hv)]
        exact hm.enter hc hk _ _ hab
      | some h =>
        have hva : x.core.cache.value? k = some h := by simp [Cache.value?, ha, hv]
        have hvb : y.core.cache.value? k' = some h := by simp [Cache.value?, hb, hab.value, hv]
        rw [core_look_hit hcl (.found hx) hva, core_look_hit hcl' (.found hy) hvb]
        exact hm.goTo hc (.ended _)

theorem Mirrors.created (hm : Mirrors u mine R F x.core y.core) (hc : Twins u x.callers y.callers c c')
    (hk : R k k') {r : Except Error HandleId} (hr : ∀ h, r = .ok h → mine h = true) :
    Mirror u mine (x.become (x.factory.created c ⟨u, .peek⟩ k r))
      (y.become (y.factory.created c' ⟨u, .peek⟩ k' r)) := by
  cases r with
  | error e =>
    have hpass := hm.setCell hk (f := fun a => a.pass.1) (g := fun b => b.pass.1)
      fun a b hab => hab.pass
    rw [← core_setCell, ← core_setCell] at hpass
    exact ⟨R, F, hpass.goTo hc (.ended _)⟩
  | ok h =>
    have hfill := hm.setCell hk (f := fun a => (a.fill h).1) (g := fun b => (b.fill h).1)
      fun a b _ => match_fill (hr h rfl)
    rw [← core_setCell x k fun a => a.fill h, ← core_setCell y k' fun b => b.fill h] at hfill
    exact hfill.place hc hk (hr h rfl)

/-- A look-up of the topic lets go of the same in both runs. -/
theorem Mirrors.relinquish (hm : Mirrors u mine R F x.core y.core)
    (hc : Twins u x.callers y.callers c c') (hp : Abreast u mine R p p') :
    Mirrors u mine R F (x.become (x.factory.relinquish c p)).core
      (y.become (y.factory.relinquish c' p')).core := by
  have leave : ∀ (z w : Traffic) {k k'}, Mirrors u mine R F z.core w.core →
      Twins u z.callers w.callers c c' → R k k' →
      Mirrors u mine R F (z.become (z.factory.setCell k fun a => a.leave c)).core
        (w.become (w.factory.setCell k' fun b => b.leave c')).core := by
    intro z w k k' hm hc hk
    rw [core_setCell, core_setCell]
    exact hm.setCell hk fun a b hab => hab.leave fun hd => hm.twins_iff hd hc
  cases hp with
  | fresh | ended | aborted => exact hm
  | queued hk => exact leave x y hm hc hk
  | @creating k k' n n' hk =>
    exact leave (x.become (x.factory.note (.withdrawn n)))
      (y.become (y.factory.note (.withdrawn n'))) hm hc hk
  | waiting hh =>
    refine hm.setHandle fun v w hvw => ?_
    unfold bare Handle.unpark at *
    simp_all
  | closing => exact hm

/-! ## 5. Steps of the topic -/

theorem Mirrors.resume (hm : Mirrors u mine R F x.core y.core) (hc : Twins u x.callers y.callers c c')
    (hp : Abreast u mine R p p') :
    Option.Rel (fun s s' => Mirror u mine (x.become s) (y.become s')) (x.factory.resume c p)
      (y.factory.resume c' p') := by
  cases hp with
  | fresh => exact .some (hm.look hc)
  | @queued k k' hk =>
    obtain ⟨a, b, ha, hb, hab⟩ := hm.cells hk
    have ha : x.factory.cache.cells.get? k = some a := ha
    have hb : y.factory.cache.cells.get? k' = some b := hb
    unfold Factory.resume
    dsimp only
    rw [ha, hb]
    dsimp only
    rw [hab.value]
    cases hv : a.value with
    | some h => exact .some (hm.place hc hk (hab.mine h hv))
    | none =>
      dsimp only
      have hturn : a.turn = some c ↔ b.turn = some c' := hab.turn_iff fun hd => hm.twins_iff hd hc
      by_cases hac : a.turn = some c
      · rw [if_pos hac, if_pos (hturn.1 hac)]
        exact .some ⟨R, F, hm.goTo hc (.creating hk)⟩
      · rw [if_neg hac, if_neg fun e => hac (hturn.2 e)]
        exact .none
  | @waiting h next o hh hn =>
    have hborrows : (y.factory.handles.get? h).map Handle.borrows =
        (x.factory.handles.get? h).map Handle.borrows := hm.map_eq hh fun _ => rfl
    rw [resume_waiting, resume_waiting, hborrows]
    split
    · exact .some (hm.retire hc hh hn)
    · exact .none
  | closing => exact .none
  | creating | ended | aborted => exact .none

theorem Abreast.isOver_eq (hp : Abreast u mine R p p') :
    Factory.Progress.isOver p' = Factory.Progress.isOver p := by
  cases hp <;> rfl

theorem Mirrors.stop (hm : Mirrors u mine R F x.core y.core) (hc : Twins u x.callers y.callers c c')
    (hp : Abreast u mine R p p') :
    Option.Rel (fun s s' => Mirror u mine (x.become s) (y.become s'))
      (x.factory.stop c p .aborted) (y.factory.stop c' p' .aborted) := by
  unfold Factory.stop
  rw [hp.isOver_eq]
  split
  · exact .none
  · exact .some ⟨R, F, (hm.relinquish hc hp).goTo hc .aborted⟩

/-- A step of a look-up of the topic is one in both runs. -/
theorem Mirror.move (hm : Mirror u mine x y) (hu : m.topic = u)
    {f g : CallId → Progress → Option Factory}
    (hfg : ∀ {R F c c' p p'}, Mirrors u mine R F x.core y.core → Twins u x.callers y.callers c c' →
      x.factory.calls.get? c = some p → y.factory.calls.get? c' = some p' → Abreast u mine R p p' →
      Option.Rel (fun s s' => Mirror u mine (x.become s) (y.become s')) (f c p) (g c' p')) :
    Option.Rel (Mirror u mine) (x.move m f) (y.move m g) := by
  obtain ⟨R, F, hm⟩ := hm
  rcases rel_cases (hm.calls m hu) with ⟨hx, hy⟩ | ⟨p, p', hx, hy, hp⟩
  · rw [move_of_none hx, move_of_none hy]
    exact .none
  · obtain ⟨c, hc, hget, hf⟩ := move_of_progress? hx
    obtain ⟨c', hc', hget', hg⟩ := move_of_progress? hy
    rw [hf, hg]
    rcases rel_cases (hfg hm ⟨m, hu, hc, hc'⟩ hget hget' hp) with ⟨hs, hs'⟩ | ⟨s, s', hs, hs', h⟩
    · rw [hs, hs']
      exact .none
    · rw [hs, hs']
      exact .some h

/-- An act that concerns the topic can happen in one run exactly if it can in the other. -/
theorem Mirror.step (hm : Mirror u mine x y) {a : Act} (ha : a.concerns u = true)
    (hown : ∀ m h, a = .yield m (.ok h) → mine h = true) :
    Option.Rel (Mirror u mine) (x.step a) (y.step a) := by
  have topic : ∀ {m : Caller}, a.caller? = some m → m.topic = u := by
    intro m hcaller
    simpa [Act.concerns, hcaller] using ha
  cases a with
  | call m =>
    have hu := topic rfl
    obtain ⟨R, F, hm⟩ := hm
    rcases rel_cases (hm.calls m hu) with ⟨hx, hy⟩ | ⟨p, p', hx, hy, -⟩
    · have hx : x.callers m = none := hm.roll.progress?_eq_none_iff.1 hx
      have hy : y.callers m = none := hm.roll'.progress?_eq_none_iff.1 hy
      unfold Traffic.step
      dsimp only
      rw [hx, hy]
      exact .some ⟨R, F, hm.enlist hu hx hy⟩
    · obtain ⟨c, hc, -⟩ := move_of_progress? hx
      obtain ⟨c', hc', -⟩ := move_of_progress? hy
      unfold Traffic.step
      dsimp only
      rw [hc, hc']
      exact .none
  | go m =>
    refine hm.move (topic rfl) fun hm hc hget hget' hp => ?_
    unfold Factory.step
    dsimp only
    rw [hget, hget']
    exact hm.resume hc hp
  | yield m r =>
    refine hm.move (topic rfl) fun hm hc _ _ hp => ?_
    cases hp with
    | creating hk => exact .some (hm.created hc hk fun h hr => hown m h (hr ▸ rfl))
    | fresh | queued | waiting | closing | ended | aborted => exact .none
  | closed m r =>
    refine hm.move (topic rfl) fun {R F c c' p p'} hm hc hget hget' hp => ?_
    cases hp with
    | closing _ hn =>
      obtain ⟨s, hs, hcore⟩ := core_closed (x := x) (c := c) (r := r) hn
      obtain ⟨s', hs', hcore'⟩ := core_closed (x := y) (c := c') (r := r) hn
      unfold Factory.step closing?
      dsimp only [Option.bind_some]
      rw [hget, hget', Option.bind_some, Option.bind_some, hs, hs']
      refine .some ⟨R, F, ?_⟩
      rw [hcore, hcore']
      exact hm.goTo hc (.ended _)
    | fresh | queued | creating | waiting | ended | aborted => exact .none
  | abort m =>
    refine hm.move (topic rfl) fun hm hc hget hget' hp => ?_
    unfold Factory.step
    dsimp only
    rw [hget, hget']
    exact hm.stop hc hp
  | drain =>
    obtain ⟨R, F, hm⟩ := hm
    refine .some ⟨R, F, ?_⟩
    rw [core_take, core_take, hm.closed]
    exact hm.take
  | close =>
    obtain ⟨R, F, hm⟩ := hm
    refine .some ⟨R, F, ?_⟩
    rw [core_shut, core_shut]
    exact hm.take

/-! ## 6. Steps of other topics -/

theorem Mirrors.retire_other (hm : Mirrors u mine R F x.core y.core) (hc : x.callers m = some c)
    (hu : m.topic ≠ u) (hh : mine h = false) (hn : After m.topic next o) :
    Mirror u mine (x.become (x.factory.retire c [{ handle := h }] next)) y := by
  refine ⟨R, F, ?_⟩
  cases hv : x.core.handles.get? h with
  | none =>
    rw [core_retire_unknown hv]
    exact hm.goTo_other hc hu (.waiting hh hn)
  | some v =>
    by_cases hb : v.borrows = 0
    · cases hcl : v.closed with
      | true =>
        rw [core_retire_elsewhere hv hb hcl hn]
        exact hm.goTo_other hc hu (.ended o)
      | false =>
        rw [core_retire_close hv hb hcl]
        exact (hm.setHandle_other hh closeNow).goTo_other hc hu (.closing hh hn)
    · rw [core_retire_busy hv hb]
      exact (hm.setHandle_other hh _).goTo_other hc hu (.waiting hh hn)

theorem Mirrors.beginRetiring_other (hm : Mirrors u mine R F x.core y.core)
    (hc : x.callers m = some c) (hu : m.topic ≠ u) (hh : mine h = false)
    (hn : After m.topic next o) :
    Mirror u mine (x.become (x.factory.beginRetiring c [h] next)) y := by
  have hstop : Mirrors u mine R F (x.become (x.factory.stopLeasing [h])).core y.core :=
    hm.setHandle_other hh _
  exact hstop.retire_other hc hu hh hn

theorem Mirrors.place_other (hm : Mirrors u mine R F x.core y.core) (hc : x.callers m = some c)
    (hu : m.topic ≠ u) (hh : mine h = false) :
    Mirror u mine (x.become (x.factory.place c ⟨m.topic, .peek⟩ k h)) y := by
  have hplaced := Cache.place_placed x.core.cache (x.factory.isRetiring h) m.topic k h
  obtain ⟨q, b, hx⟩ : ∃ q b, x.core.cache.place (x.factory.isRetiring h) m.topic k h = (q, b) :=
    ⟨_, _, rfl⟩
  rw [hx] at hplaced
  have kept : ∀ {F'}, Mirrors u mine R F' (x.core.setCache b) y.core →
      q = .cached h ∨ q = .retired h →
      Mirror u mine (x.become (x.factory.place c ⟨m.topic, .peek⟩ k h)) y := by
    intro F' hm' hq
    refine ⟨R, F', ?_⟩
    rw [core_place_kept hx hq]
    exact hm'.goTo_other hc hu (.ended _)
  have retires : ∀ {next o}, Mirrors u mine R F (x.core.setCache b) y.core →
      After m.topic next o →
      ((∃ w, q = .superseded w h ∧ next = .give ⟨m.topic, .peek⟩ w) ∨ (q = .closed h ∧ next = .refuse)) →
      Mirror u mine (x.become (x.factory.place c ⟨m.topic, .peek⟩ k h)) y := by
    intro next o hm' hn hq
    rw [place_retires hx hq]
    have hm' : Mirrors u mine R F (x.become { x.factory with cache := b }).core y.core := hm'
    exact hm'.beginRetiring_other hc hu hh hn
  cases hplaced with
  | closed => exact retires hm .refuse (.inr ⟨rfl, rfl⟩)
  | dropped => exact kept (hm.erase_other hu) (.inr rfl)
  | retired => exact kept hm (.inr rfl)
  | kept => exact kept hm (.inl rfl)
  | adopted =>
    refine kept (hm.addCell_other hu fun v hv => ?_) (.inl rfl)
    cases hv
    exact hh
  | superseded => exact retires hm (.give _) (.inl ⟨_, rfl, rfl⟩)

theorem Mirrors.enter_other {x y : Core} (hm : Mirrors u mine R F x y) (hc : x.callers m = some c)
    (hu : m.topic ≠ u) (hk : F k) (n : Ticket) (d : Bool) :
    Mirrors u mine R F
      ((x.setCache (x.cache.setCell k fun a => (a.enter c).2)).goTo c
        (if d then .creating ⟨m.topic, .peek⟩ k n else .queued ⟨m.topic, .peek⟩ k)) y := by
  refine (hm.setCell_other hk fun a ha h hv => ?_).goTo_other hc hu ?_
  · refine hm.value hk ?_
    unfold Cache.value?
    rw [ha]
    exact (Cache.value_enter a c).symm.trans hv
  · split
    · exact .creating hk
    · exact .queued hk

theorem Mirrors.look_other (hm : Mirrors u mine R F x.core y.core) (hc : x.callers m = some c)
    (hu : m.topic ≠ u) : Mirror u mine (x.become (x.factory.look c ⟨m.topic, .peek⟩)) y := by
  cases hcl : x.core.cache.closed with
  | true =>
    refine ⟨R, F, ?_⟩
    rw [core_look_refused hcl]
    exact hm.goTo_other hc hu (.ended _)
  | false =>
    cases hcur : x.core.cache.current? m.topic with
    | none =>
      refine ⟨R, fun k => F k ∨ k = x.core.cache.cells.size, ?_⟩
      rw [core_look_miss hcl (.added hcur) ((Registry.get?_add _ _ _).trans (if_pos rfl)) rfl]
      exact (hm.addCell_other hu fun _ hv => by cases hv).enter_other hc hu (.inr rfl) _ _
    | some k =>
      have hk : F k := hm.foreign (Entries.mem_of_find? hcur) hu
      obtain ⟨a, ha⟩ := Registry.exists_get?_of_lt (hm.strange hk).1
      refine ⟨R, F, ?_⟩
      cases hv : a.value with
      | none =>
        rw [core_look_miss hcl (.found hcur) ha hv]
        exact hm.enter_other hc hu hk _ _
      | some h =>
        have hval : x.core.cache.value? k = some h := by simp [Cache.value?, ha, hv]
        rw [core_look_hit hcl (.found hcur) hval]
        exact hm.goTo_other hc hu (.ended _)

theorem Mirrors.setCell_kept (hm : Mirrors u mine R F x.core y.core) (hk : F k)
    {f : Cell → Cell × List CallId} (hf : ∀ a, (f a).1.value = a.value) :
    Mirrors u mine R F (x.become (x.factory.setCell k f)).core y.core := by
  rw [core_setCell]
  refine hm.setCell_other hk fun a ha h hv => hm.value hk ?_
  unfold Cache.value?
  rw [ha]
  exact (hf a).symm.trans hv

theorem Mirrors.created_other (hm : Mirrors u mine R F x.core y.core) (hc : x.callers m = some c)
    (hu : m.topic ≠ u) (hk : F k) {r : Except Error HandleId}
    (hr : ∀ h, r = .ok h → mine h = false) :
    Mirror u mine (x.become (x.factory.created c ⟨m.topic, .peek⟩ k r)) y := by
  cases r with
  | error e =>
    exact ⟨R, F, (hm.setCell_kept hk Cache.value_pass).goTo_other hc hu (.ended _)⟩
  | ok h =>
    have hfill : Mirrors u mine R F
        (x.become (x.factory.setCell k fun a => a.fill h)).core y.core := by
      rw [core_setCell]
      refine hm.setCell_other hk fun a _ v hv => ?_
      cases hv
      exact hr h rfl
    exact hfill.place_other hc hu (hr h rfl)

theorem Mirrors.resume_other (hm : Mirrors u mine R F x.core y.core) (hc : x.callers m = some c)
    (hu : m.topic ≠ u) (hp : Aside m.topic mine F p) {s : Factory} (hs : x.factory.resume c p = some s) :
    Mirror u mine (x.become s) y := by
  cases hp with
  | fresh =>
    cases hs
    exact hm.look_other hc hu
  | @queued k hk =>
    obtain ⟨a, ha⟩ := Registry.exists_get?_of_lt (hm.strange hk).1
    have ha : x.factory.cache.cells.get? k = some a := ha
    unfold Factory.resume at hs
    dsimp only at hs
    rw [ha] at hs
    dsimp only at hs
    cases hv : a.value with
    | some h =>
      rw [hv] at hs
      cases hs
      refine hm.place_other hc hu (hm.value hk ?_)
      exact Option.bind_eq_some_iff.2 ⟨a, ha, hv⟩
    | none =>
      rw [hv] at hs
      dsimp only at hs
      split at hs
      · cases hs
        exact ⟨R, F, hm.goTo_other hc hu (.creating hk)⟩
      · cases hs
  | waiting hh hn =>
    rw [resume_waiting] at hs
    split at hs
    · cases hs
      exact hm.retire_other hc hu hh hn
    · cases hs
  | closing => cases hs
  | creating | ended | aborted => cases hs

theorem Mirrors.relinquish_other (hm : Mirrors u mine R F x.core y.core)
    (hp : Aside m.topic mine F p) (c : CallId) :
    Mirrors u mine R F (x.become (x.factory.relinquish c p)).core y.core := by
  cases hp with
  | fresh | ended | aborted => exact hm
  | queued hk => exact hm.setCell_kept hk fun a => Cache.value_leave a c
  | @creating k n hk =>
    have hm : Mirrors u mine R F (x.become (x.factory.note (.withdrawn n))).core y.core := hm
    exact hm.setCell_kept hk fun a => Cache.value_leave a c
  | waiting hh => exact hm.setHandle_other hh _
  | closing => exact hm

/-- No act of another topic's look-up shows in the mirror. -/
theorem Mirror.step_other (hm : Mirror u mine x y) {a : Act} (ha : a.concerns u = false)
    (hother : ∀ m h, a = .yield m (.ok h) → mine h = false) {x' : Traffic}
    (hs : x.step a = some x') : Mirror u mine x' y := by
  obtain ⟨R, F, hm⟩ := hm
  have topic : ∀ {m : Caller}, a.caller? = some m → m.topic ≠ u := by
    intro m hcaller
    simpa [Act.concerns, hcaller] using ha
  have moved : ∀ {m : Caller} {f : CallId → Progress → Option Factory}, m.topic ≠ u →
      x.move m f = some x' → ∃ c p s, x.callers m = some c ∧ x.factory.calls.get? c = some p ∧
        Aside m.topic mine F p ∧ f c p = some s ∧ x.become s = x' := by
    intro m f hu hmove
    cases hp : x.progress? m with
    | none =>
      rw [move_of_none hp] at hmove
      cases hmove
    | some p =>
      obtain ⟨c, hc, hget, hf⟩ := move_of_progress? hp
      rw [hf] at hmove
      obtain ⟨s, hs, hx⟩ := Option.map_eq_some_iff.1 hmove
      exact ⟨c, p, s, hc, hget, hm.others hu hp, hs, hx⟩
  cases a with
  | call m =>
    unfold Traffic.step at hs
    dsimp only at hs
    split at hs
    · cases hs
    · cases hs
      exact ⟨R, F, hm.enlist_other (topic rfl)⟩
  | go m =>
    obtain ⟨c, p, s, hc, hget, hp, hf, rfl⟩ := moved (topic rfl) hs
    unfold Factory.step at hf
    dsimp only at hf
    rw [hget] at hf
    exact hm.resume_other hc (topic rfl) hp hf
  | yield m r =>
    obtain ⟨c, p, s, hc, -, hp, hf, rfl⟩ := moved (topic rfl) hs
    cases hp with
    | creating hk =>
      cases hf
      exact hm.created_other hc (topic rfl) hk fun h hr => hother m h (hr ▸ rfl)
    | fresh | queued | waiting | closing | ended | aborted => cases hf
  | closed m r =>
    obtain ⟨c, p, s, hc, hget, hp, hf, rfl⟩ := moved (topic rfl) hs
    cases hp with
    | closing _ hn =>
      obtain ⟨s', hs', hcore⟩ := core_closed (x := x) (c := c) (r := r) hn
      unfold Factory.step closing? at hf
      dsimp only [Option.bind_some] at hf
      rw [hget, Option.bind_some, hs'] at hf
      cases hf
      refine ⟨R, F, ?_⟩
      rw [hcore]
      exact hm.goTo_other hc (topic rfl) (.ended _)
    | fresh | queued | creating | waiting | ended | aborted => cases hf
  | abort m =>
    obtain ⟨c, p, s, hc, hget, hp, hf, rfl⟩ := moved (topic rfl) hs
    unfold Factory.step Factory.stop at hf
    dsimp only at hf
    rw [hget, Option.bind_some] at hf
    split at hf
    · cases hf
    · cases hf
      exact ⟨R, F, (hm.relinquish_other hp c).goTo_other hc (topic rfl) .aborted⟩
  | drain => cases ha
  | close => cases ha

/-! ## 7. Runs -/

theorem mirror_start (u : String) (mine : HandleId → Bool) (handles : Registry Handle) :
    Mirror u mine (start handles) (start handles) := by
  refine ⟨fun _ _ => False, fun _ => False, ?_⟩
  refine
    { roll := ⟨nofun, nofun⟩
      roll' := ⟨nofun, nofun⟩
      calls := fun _ _ => .none
      closed := rfl
      nodup := List.nodup_nil
      nodup' := List.nodup_nil
      entry := .none
      cells := nofun
      unique := nofun
      handles := fun _ _ => rfl
      taken := rfl
      alone := nofun
      others := nofun
      strange := nofun
      foreign := nofun
      value := nofun }

/-- The run without the acts of other topics is possible, and mirrors the run. -/
theorem Mirror.run {acts : List Act} (hm : Mirror u mine x y)
    (hacts : ∀ m h, Act.yield m (.ok h) ∈ acts → (mine h = true ↔ m.topic = u)) {x' : Traffic}
    (hx : x.run acts = some x') :
    ∃ y', y.run (acts.filter (Act.concerns u)) = some y' ∧ Mirror u mine x' y' := by
  induction acts generalizing x y with
  | nil =>
    cases hx
    exact ⟨y, rfl, hm⟩
  | cons a acts ih =>
    obtain ⟨x₁, hs, hx⟩ := Option.bind_eq_some_iff.1 hx
    have hrest := fun m h hmem => hacts m h (List.mem_cons_of_mem a hmem)
    cases ha : a.concerns u with
    | true =>
      have hstep := hm.step ha fun m h e => by
        subst e
        refine (hacts m h List.mem_cons_self).2 ?_
        simpa [Act.concerns, Act.caller?] using ha
      rw [hs] at hstep
      rcases rel_cases hstep with ⟨hnone, -⟩ | ⟨_, y₁, hx₁, hy, hm⟩
      · cases hnone
      · cases hx₁
        obtain ⟨y', hrun, hm'⟩ := ih hm hrest hx
        refine ⟨y', ?_, hm'⟩
        rw [List.filter_cons_of_pos ha, Traffic.run, hy]
        exact hrun
    | false =>
      have hstep := hm.step_other ha (fun m h e => by
        subst e
        have hu : m.topic ≠ u := by simpa [Act.concerns, Act.caller?] using ha
        exact Bool.eq_false_iff.2 (mt (hacts m h List.mem_cons_self).1 hu)) hs
      obtain ⟨y', hrun, hm'⟩ := ih hstep hrest hx
      refine ⟨y', ?_, hm'⟩
      rw [List.filter_cons_of_neg (by simp [ha])]
      exact hrun

/-- Whether a creation can end does not depend on what it yields. -/
theorem isSome_yield (x : Traffic) (m : Caller) (r r' : Except Error HandleId) :
    (x.step (.yield m r)).isSome = (x.step (.yield m r')).isSome := by
  unfold Traffic.step
  dsimp only
  cases hp : x.progress? m with
  | none => rw [move_of_none hp, move_of_none hp]
  | some p =>
    obtain ⟨c, -, -, hf⟩ := move_of_progress? hp
    rw [hf, hf]
    cases p <;> rfl

theorem Mirror.alike {own : List HandleId} (hm : Mirror u (fun h => decide (h ∈ own)) x y) :
    Alike u own x y where
  outcome m hu := by
    obtain ⟨R, F, hm⟩ := hm
    unfold outcome?
    rcases rel_cases (hm.calls m hu) with ⟨hx, hy⟩ | ⟨p, p', hx, hy, hp⟩
    · have hx : x.progress? m = none := hx
      have hy : y.progress? m = none := hy
      rw [hx, hy]
    · have hx : x.progress? m = some p := hx
      have hy : y.progress? m = some p' := hy
      rw [hx, hy]
      cases hp <;> rfl
  handle := by
    obtain ⟨R, F, hm⟩ := hm
    exact hm.handle?_eq.1
  taken := by
    obtain ⟨R, F, hm⟩ := hm
    exact hm.taken
  leasing h hh := by
    obtain ⟨R, F, hm⟩ := hm
    exact hm.isRetiring_eq (decide_eq_true hh)
  next a ha := by
    have isSome_eq : ∀ {a : Act}, a.concerns u = true →
        (∀ m h, a = .yield m (.ok h) → decide (h ∈ own) = true) →
        (y.step a).isSome = (x.step a).isSome := by
      intro a ha hown
      rcases rel_cases (hm.step ha hown) with ⟨hx, hy⟩ | ⟨_, _, hx, hy, -⟩
      · rw [hx, hy]
      · rw [hx, hy]
        rfl
    cases a with
    | yield m r =>
      rw [isSome_yield y m r (.error .factoryClosed), isSome_yield x m r (.error .factoryClosed)]
      exact isSome_eq ha nofun
    | _ => exact isSome_eq ha nofun

theorem mem_yielded {acts : List Act} :
    h ∈ yielded u acts ↔ ∃ m : Caller, m.topic = u ∧ Act.yield m (.ok h) ∈ acts := by
  unfold yielded
  rw [List.mem_filterMap]
  constructor
  · rintro ⟨a, ha, hh⟩
    split at hh
    · next m v =>
      split at hh
      · next hu =>
        cases hh
        exact ⟨m, hu, ha⟩
      · cases hh
    · cases hh
  · rintro ⟨m, hu, ha⟩
    exact ⟨_, ha, if_pos hu⟩

/-- Topics do not interfere. The look-ups of all topics but `u` may be deleted from a run with all that
they did, where no handle comes of creations for `u` and of creations for another topic as well. What
is left is a run, and nothing that concerns `u` differs in it. -/
theorem topics_apart {handles : Registry Handle} {acts : List Act}
    (hx : (start handles).run acts = some x)
    (hown : ∀ m n h, Act.yield m (.ok h) ∈ acts → Act.yield n (.ok h) ∈ acts → m.topic = u →
      n.topic = u) :
    ∃ y, (start handles).run (acts.filter (Act.concerns u)) = some y ∧
      Alike u (yielded u acts) x y := by
  have hmine : ∀ m h, Act.yield m (.ok h) ∈ acts →
      (decide (h ∈ yielded u acts) = true ↔ m.topic = u) := by
    intro m h hmem
    rw [decide_eq_true_iff, mem_yielded]
    constructor
    · rintro ⟨n, hu, hn⟩
      exact hown n m h hn hmem hu
    · intro hu
      exact ⟨m, hu, hmem⟩
  obtain ⟨y, hy, hm⟩ := (mirror_start u _ handles).run hmine hx
  exact ⟨y, hy, hm.alike⟩

/-- Three handles, none of which was ever in the cache. -/
def threeHandles : Registry Handle :=
  ((Registry.empty.add { topic := "u", mode := .sequential }).add
    { topic := "u", mode := .sequential }).add { topic := "t", mode := .sequential }

/-- A creation for `u` that a drain overtakes loses to a later one and closes its handle, and all the
while a creation for `t` is under way. -/
def overtaken : List Act :=
  [.call ⟨"t", 0⟩, .go ⟨"t", 0⟩, .call ⟨"u", 0⟩, .go ⟨"u", 0⟩, .drain, .call ⟨"u", 1⟩, .go ⟨"u", 1⟩,
    .yield ⟨"u", 1⟩ (.ok 1), .yield ⟨"u", 0⟩ (.ok 0), .yield ⟨"t", 0⟩ (.ok 2),
    .closed ⟨"u", 0⟩ (.ok ()), .close]

theorem topics_apart_overtaken :
    ∃ x, (start threeHandles).run overtaken = some x ∧
      x.outcome? ⟨"u", 0⟩ = some (.handle 1) ∧ x.taken = [[1, 2], []] ∧
      ∃ y, (start threeHandles).run (overtaken.filter (Act.concerns "u")) = some y ∧
        Alike "u" (yielded "u" overtaken) x y := by
  have hrun : ((start threeHandles).run overtaken).map
      (fun x => (x.outcome? ⟨"u", 0⟩, x.taken)) = some (some (.handle 1), [[1, 2], []]) := by
    decide +kernel
  obtain ⟨x, hx, hout⟩ := Option.map_eq_some_iff.1 hrun
  refine ⟨x, hx, congrArg Prod.fst hout, congrArg Prod.snd hout, topics_apart hx ?_⟩
  intro m n h hm hn hu
  simp only [overtaken, List.mem_cons, reduceCtorEq, Act.yield.injEq, Except.ok.injEq, false_or,
    List.not_mem_nil, or_false] at hm hn
  obtain ⟨rfl, rfl⟩ | ⟨rfl, rfl⟩ | ⟨rfl, rfl⟩ := hm <;> simp_all

/-- A creation for `t` and then one for `u` yield one and the same handle, and a drain comes between
the two. -/
def sharing : List Act :=
  [.call ⟨"t", 0⟩, .go ⟨"t", 0⟩, .yield ⟨"t", 0⟩ (.ok 0), .call ⟨"u", 0⟩, .go ⟨"u", 0⟩, .drain,
    .yield ⟨"u", 0⟩ (.ok 0)]

/-- Where one handle comes of creations for two topics, the topics interfere: a drain that takes the
handle for one of them keeps it out of the cache for the other. -/
theorem sharing_interferes :
    ¬ ∀ (handles : Registry Handle) (u : String) (acts : List Act) (x : Traffic),
      (start handles).run acts = some x →
        ∃ y, (start handles).run (acts.filter (Act.concerns u)) = some y ∧
          Alike u (yielded u acts) x y := by
  intro hall
  have hshared : ((start threeHandles).run sharing).map (fun x => x.factory.cache.handle? "u") =
      some none := by decide +kernel
  have halone : ((start threeHandles).run (sharing.filter (Act.concerns "u"))).map
      (fun y => y.factory.cache.handle? "u") = some (some 0) := by decide +kernel
  obtain ⟨x, hx, hxu⟩ := Option.map_eq_some_iff.1 hshared
  obtain ⟨y, hy, halike⟩ := hall threeHandles "u" sharing x hx
  rw [hy] at halone
  have hyu : y.factory.cache.handle? "u" = some 0 := Option.some.inj halone
  have hsame := halike.handle
  rw [hyu, hxu] at hsame
  cases hsame

end Traffic

end TopicPublisher
