import TopicPublisher.Proofs.Factory.Orderly

/-!
# What every borrow is for

A handle counts its borrows, and each of them is the lease of somebody who is known: of an acknowledged
send whose receipt has not come, of a promised one that waits to be queued, of the call that is to settle
a promised one, or of a caller. A lease changes hands where one call leaves a send to another, and it ends
on every way out: on a receipt and on a refusal, and when a call is aborted or the wire client crashes
under it. So it is gone before anybody learns how the send ended.

Results:
1. `leaseCount_by_use`: the leases of a handle by what they are for.
2. `Turn.serves`, `Begins.serves`, `Run.promiser`: a call that is to settle a pending send does so for the
   one that promised it.
3. `Run.holder`: every lease of a call is for one send, which is not over yet.
4. `leases_accounted`: all this in every run, and that no lease is left when no send is under way.
-/

namespace TopicPublisher

/-- What a call holds a lease for.

* `receipt`: to wait for the receipt of a message, on behalf of the one who sends it.
* `queue`: to have a message taken into the producer's queue. -/
inductive Use where
  | receipt
  | queue
  | settle
  deriving DecidableEq, Repr

/-- How a send is made that has a lease for this. -/
def Use.delivery : Use → Delivery
  | .receipt => .acknowledged
  | .queue => .promised
  | .settle => .promised

/-- The lease that a call holds, and what for. -/
def Progress.use? : Progress → Option (Use × HandleId)
  | .fresh (.dispatch h _ _) => some (.settle, h)
  | .sending h _ => some (.receipt, h)
  | .enqueuing h _ => some (.queue, h)
  | .completing h _ _ => some (.settle, h)
  | _ => none

namespace Factory

/-! ## Definitions -/

section

variable (tr : List (Label × Factory)) (s : Factory)

/-- How many calls have a lease on a handle for something. -/
def users (u : Use) (h : HandleId) : Nat := s.calls.count fun p => p.use? = some (u, h)

/-- How many leases on a handle are in the hands of callers. -/
def lent (h : HandleId) : Nat := s.leases.count fun y => y.held? = some h

/-- Call `i` has a lease on handle `h`. -/
def Holds (i : CallId) (u : Use) (h : HandleId) : Prop :=
  ∃ p, s.calls.get? i = some p ∧ p.use? = some (u, h)

/-- Call `i` is at work for send `c`: it is the same one, or it is to settle what that one promised. -/
def WorksFor (i c : CallId) : Prop :=
  i = c ∨ ∃ p, s.calls.get? c = some (.ended (.promised p)) ∧ Serves s p i

/-- A call was made to send a message. -/
def SendMade (c : CallId) (w : Want) (d : Delivery) : Prop :=
  Made tr c (.want w) ∧ ∃ m, w.purpose = .send m d

/-- Something is still to be done for a send. -/
def UnderWay (c : CallId) : Prop :=
  ∃ i p, WorksFor s i c ∧ s.calls.get? i = some p ∧ Progress.isOver p = false

/-- Every borrow is somebody's lease, and ends with it.

* `counted`: who is to end a borrow finds it counted.
* `holder`: a call has a lease for a send only, on a handle of the send's topic.
* `one`: there is one lease for a send at most.
* `returned`: a send that is over, in whatever way, has no lease, unless it was promised.
* `readable`: nor has one that was promised and whose outcome can be read.
* `idle`: when no send is under way and callers hold no leases, nothing is borrowed. -/
structure Accounted : Prop where
  balance : ∀ h x, s.handles.get? h = some x →
    x.borrows = s.users .receipt h + s.users .queue h + s.users .settle h + s.lent h
  counted : ∀ h, (∃ i u, Holds s i u h) ∨ (∃ l y, s.leases.get? l = some y ∧ y.held? = some h) →
    ∃ x, s.handles.get? h = some x ∧ 0 < x.borrows
  holder : ∀ i u h, Holds s i u h → ∃ c w, SendMade tr c w u.delivery ∧
    s.topic? h = some w.topic ∧ WorksFor s i c
  one : ∀ c i j u v h g, WorksFor s i c → WorksFor s j c → Holds s i u h → Holds s j v g →
    i = j ∧ u = v ∧ h = g
  returned : ∀ c q, s.calls.get? c = some q → Progress.isOver q = true →
    (∀ p, q ≠ .ended (.promised p)) → ∀ i u h, WorksFor s i c → ¬ Holds s i u h
  readable : ∀ c p x r, s.calls.get? c = some (.ended (.promised p)) → s.pending.get? p = some x →
    x.outcome? = some r → ∀ i u h, WorksFor s i c → ¬ Holds s i u h
  idle : (∀ c w d, SendMade tr c w d → ¬ UnderWay s c) →
    (∀ l y, s.leases.get? l = some y → y.released = true) →
    ∀ h x, s.handles.get? h = some x → x.borrows = 0

end

open SoundLemmas StoryLemmas

section

variable {tr : List (Label × Factory)} {s s' : Factory} {c i : CallId} {l : Label} {p : PendingId}
  {run : Option (CallId × Act)}

/-! ## 1. Borrows by their use -/

theorem held?_eq_some_iff {q : Progress} {h : HandleId} :
    q.held? = some h ↔ ∃ u, q.use? = some (u, h) := by
  cases q with
  | fresh r => cases r <;> simp [Progress.held?, Progress.use?]
  | _ => simp [Progress.held?, Progress.use?]

theorem Holds.held {u : Use} {h : HandleId} (hi : Holds s i u h) :
    ∃ q, s.calls.get? i = some q ∧ q.held? = some h := by
  obtain ⟨q, hq, hu⟩ := hi
  exact ⟨q, hq, held?_eq_some_iff.2 ⟨u, hu⟩⟩

theorem leaseCount_by_use (s : Factory) (h : HandleId) :
    s.leaseCount h = s.users .receipt h + s.users .queue h + s.users .settle h + s.lent h := by
  have hsplit : s.calls.count (fun q => q.held? = some h) =
      s.users .receipt h + s.users .queue h + s.users .settle h := by
    have hrest : s.calls.count (fun q => q.use? = some (.receipt, h) ∨ q.use? = some (.queue, h)) =
        s.users .receipt h + s.users .queue h := by
      refine Registry.count_eq_add _ fun q => ?_
      cases hq : q.use? with
      | none => simp
      | some x => rcases x with ⟨_ | _ | _, v⟩ <;> by_cases hv : v = h <;> simp [hv]
    rw [← hrest]
    refine Registry.count_eq_add _ fun q => ?_
    have hheld := held?_eq_some_iff (q := q) (h := h)
    cases hq : q.use? with
    | none => simp_all
    | some x => rcases x with ⟨_ | _ | _, v⟩ <;> by_cases hv : v = h <;> simp_all
  unfold leaseCount leasesOn
  rw [hsplit]
  rfl

theorem Balanced.by_use (b : Balanced s run) {h : HandleId} {x : Handle}
    (hx : s.handles.get? h = some x) :
    x.borrows = s.users .receipt h + s.users .queue h + s.users .settle h + s.lent h := by
  rw [← leaseCount_by_use, b.balance]
  unfold borrowsOf
  rw [hx]
  rfl

/-- A lease is on a handle that there is, and counted. -/
theorem Balanced.counted (b : Balanced s run) {h : HandleId} (hpos : 0 < s.leaseCount h) :
    ∃ x, s.handles.get? h = some x ∧ 0 < x.borrows := by
  rw [b.balance] at hpos
  unfold borrowsOf at hpos
  cases hx : s.handles.get? h with
  | none =>
    rw [hx] at hpos
    exact absurd hpos (Nat.lt_irrefl 0)
  | some x =>
    rw [hx] at hpos
    exact ⟨x, rfl, hpos⟩

/-! ## 2. Who promised a pending send -/

namespace LeasesLemmas

/-- A call that got to another point serves what it served, if anything. -/
theorem serves_goTo {calls : Registry Progress} {q : Progress}
    (hi : ∃ r, (calls.update c fun _ => q).get? i = some r ∧ r.pending? = some p)
    (hq : q.pending? = some p → ∃ r, calls.get? c = some r ∧ r.pending? = some p) :
    ∃ r, calls.get? i = some r ∧ r.pending? = some p := by
  obtain ⟨r, hr, hp⟩ := hi
  rcases Registry.get?_update_const hr with ⟨rfl, rfl⟩ | ⟨-, hr⟩
  · exact hq hp
  · exact ⟨r, hr, hp⟩

theorem serves_start {calls : Registry Progress} {q : Progress}
    (hi : ∃ r, (calls.add q).get? i = some r ∧ r.pending? = some p) :
    (∃ r, calls.get? i = some r ∧ r.pending? = some p) ∨ q.pending? = some p := by
  obtain ⟨r, hr, hp⟩ := hi
  rw [Registry.get?_add] at hr
  split at hr
  · cases hr
    exact .inr hp
  · exact .inl ⟨r, hr, hp⟩

end LeasesLemmas

open LeasesLemmas

/-- A turn has another call settle a pending send only when it promises that send. -/
theorem Turn.serves {a : Act} {next : Option Act} (o : Orderly tr s (some (c, a)))
    (ht : Turn c s a s' next) (hi : Serves s' p i) :
    Serves s p i ∨ ∃ w m, Made tr c (.want w) ∧ w.purpose = .send m .promised ∧
      s'.calls.get? c = some (.ended (.promised p)) := by
  obtain ⟨⟨r, hmade, hfor⟩, -, q, hc, -⟩ := o.storied.act c a rfl
  cases ht with
  | promise hp =>
    cases hfor
    obtain ⟨z, hz, hzp⟩ := hi
    rcases Registry.get?_update_const hz with ⟨-, rfl⟩ | ⟨-, hz⟩
    · cases hzp
    · rcases serves_start ⟨z, hz, hzp⟩ with hold | hnew
      · exact .inl hold
      · cases hnew
        exact .inr ⟨_, _, hmade, hp, get?_goTo (calls_start hc)⟩
  | refused | spin | create | queue | handle | denied | lease | send | enqueue | fail | count | wait =>
    exact .inl (serves_goTo hi nofun)
  | _ => exact .inl hi

theorem Begins.serves (o : Orderly tr s none) (hb : Begins s l s' run) (hl : PublicOnly s l)
    (hi : Serves s' p i) :
    Serves s p i ∨ ∃ c w m, Made ((l, s) :: tr) c (.want w) ∧ w.purpose = .send m .promised ∧
      s'.calls.get? c = some (.ended (.promised p)) := by
  cases hb with
  | @call r =>
    rcases serves_start hi with hold | hnew
    · exact .inl hold
    · cases r with
      | dispatch => exact hl.elim
      | _ => cases hnew
  | accepted hc =>
    obtain ⟨w, m, hmade, hp, -⟩ := (o.storied.story _ _ hc nobody_runs).of_enqueuing
    obtain ⟨z, hz, hzp⟩ := hi
    rcases Registry.get?_update_const hz with ⟨-, rfl⟩ | ⟨-, hz⟩
    · cases hzp
    · rcases serves_start ⟨z, hz, hzp⟩ with hold | hnew
      · exact .inl hold
      · cases hnew
        exact .inr ⟨_, w, m, hmade.cons _, hp, get?_goTo (calls_start hc)⟩
  | dispatch hc => exact .inl (serves_goTo hi fun h => ⟨_, hc, h⟩)
  | refuse | await | create | settled | failed | receipt | rejected | completed =>
    exact .inl (serves_goTo hi nofun)
  | @stop c _ q final s₁ hl' hc hs =>
    have hi : Serves { s with calls := s.calls.update c fun _ => final } p i := by
      rw [← hs.calls_eq]
      exact hi
    refine .inl (serves_goTo hi ?_)
    rcases hl' with ⟨-, rfl⟩ | ⟨-, rfl⟩ <;> exact nofun
  | _ => exact .inl hi

/-- Pending sends were promised by calls that were made to send. -/
def Promisers (tr : List (Label × Factory)) (s : Factory) : Prop :=
  ∀ p i, Serves s p i → ∃ c w m, s.calls.get? c = some (.ended (.promised p)) ∧
    Made tr c (.want w) ∧ w.purpose = .send m .promised

theorem promisers_new : Promisers [] new := by
  rintro p i ⟨q, hq, -⟩
  simp [new] at hq

end

theorem Run.promiser {tr : List (Label × Factory)} {s : Factory} (h : Run PublicOnly tr s) :
    Promisers tr s := by
  refine (Run.induct_orderly (I := fun tr s _ => Promisers tr s) promisers_new ?_ ?_ h).2
  · intro tr s s₁ l run o ih hl hb p i hi
    rcases hb.serves o hl hi with hi | ⟨c, w, m, hmade, hp, hc⟩
    · obtain ⟨c, w, m, hc, hmade, hp⟩ := ih p i hi
      exact ⟨c, w, m, hb.over hc rfl, hmade.cons _, hp⟩
    · exact ⟨c, w, m, hc, hmade, hp⟩
  · intro tr s s₁ c a next o ih ht p i hi
    rcases ht.serves o hi with hi | ⟨w, m, hmade, hp, hc⟩
    · obtain ⟨c, w, m, hc, hmade, hp⟩ := ih p i hi
      exact ⟨c, w, m, o.over ht hc rfl, hmade, hp⟩
    · exact ⟨c, w, m, hc, hmade, hp⟩

/-! ## 3. Leases of sends -/

section

variable {tr : List (Label × Factory)} {s : Factory} {c i : CallId} {p : PendingId} {u : Use}
  {h : HandleId}

/-- A call with a lease is not over, and settles a pending send where the lease is for that. -/
theorem Holds.cases_use (hi : Holds s i u h) : ∃ q, s.calls.get? i = some q ∧
    Progress.isOver q = false ∧ ((∃ t, u = .receipt ∧ q = .sending h t) ∨
      (∃ t, u = .queue ∧ q = .enqueuing h t) ∨ (u = .settle ∧ ∃ p, q.pending? = some p)) := by
  obtain ⟨q, hq, hu⟩ := hi
  refine ⟨q, hq, ?_⟩
  cases q with
  | fresh r =>
    cases r with
    | dispatch v m p =>
      cases hu
      exact ⟨rfl, .inr (.inr ⟨rfl, p, rfl⟩)⟩
    | _ => cases hu
  | sending v t =>
    cases hu
    exact ⟨rfl, .inl ⟨t, rfl, rfl⟩⟩
  | enqueuing v t =>
    cases hu
    exact ⟨rfl, .inr (.inl ⟨t, rfl, rfl⟩)⟩
  | completing v t p =>
    cases hu
    exact ⟨rfl, .inr (.inr ⟨rfl, p, rfl⟩)⟩
  | _ => cases hu

/-- A lease is with a call or with a caller. -/
theorem holds_or_lent (hpos : 0 < s.leaseCount h) :
    (∃ i u, Holds s i u h) ∨ ∃ l y, s.leases.get? l = some y ∧ y.held? = some h := by
  rcases Nat.add_pos_iff_pos_or_pos.1 hpos with hcalls | hleases
  · obtain ⟨i, q, hq, hheld⟩ := Registry.exists_get?_of_count_pos hcalls
    obtain ⟨u, hu⟩ := held?_eq_some_iff.1 (of_decide_eq_true hheld)
    exact .inl ⟨i, u, q, hq, hu⟩
  · obtain ⟨l, y, hy, hheld⟩ := Registry.exists_get?_of_count_pos hleases
    exact .inr ⟨l, y, hy, of_decide_eq_true hheld⟩

theorem Holds.unique {v : Use} {g : HandleId} (hi : Holds s i u h) (hj : Holds s i v g) :
    u = v ∧ h = g := by
  obtain ⟨q, hq, hu⟩ := hi
  obtain ⟨r, hr, hv⟩ := hj
  cases hq.symm.trans hr
  cases hu.symm.trans hv
  exact ⟨rfl, rfl⟩

/-- A call that is over has no lease. -/
theorem Holds.not_over (hi : Holds s i u h) {q : Progress} (hq : s.calls.get? i = some q) :
    Progress.isOver q = false := by
  obtain ⟨r, hr, hno, -⟩ := hi.cases_use
  cases hq.symm.trans hr
  exact hno

/-- The handle of a call that settles a pending send is one of the topic that the send was made for. -/
theorem Storied.topic_of_settler {w : Want} (st : Storied tr s none) (hmade : Made tr c (.want w))
    (hc : s.calls.get? c = some (.ended (.promised p))) (hp : Serves s p i) (hi : Holds s i u h) :
    s.topic? h = some w.topic := by
  obtain ⟨m, -, x, hx, -, pr⟩ := st.promised hmade hc
  rw [st.assigned.unknown hx hp] at pr
  have hreceives : ∀ {v : HandleId} {t : Ticket} {d : CallId}, s.topic? v = some w.topic →
      Receives tr s w.topic v t d p .unknown → s.topic? h = some w.topic := by
    intro v t d ht hr
    cases hr with
    | waiting hd =>
      cases st.assigned.unique p i d hp ⟨_, hd, rfl⟩
      obtain ⟨-, rfl⟩ := hi.unique ⟨_, hd, rfl⟩
      exact ht
  cases pr with
  | enqueued _ ht _ _ hr => exact hreceives ht hr
  | dispatched _ ht _ _ hr => exact hreceives ht hr
  | begun _ ht hd =>
    cases st.assigned.unique p i _ hp ⟨_, hd, rfl⟩
    obtain ⟨-, rfl⟩ := hi.unique ⟨_, hd, rfl⟩
    exact ht

theorem Run.holder (hr : Run PublicOnly tr s) (hi : Holds s i u h) :
    ∃ c w, SendMade tr c w u.delivery ∧ s.topic? h = some w.topic ∧ WorksFor s i c := by
  have st := hr.orderly.storied
  obtain ⟨q, hq, -, ⟨t, rfl, rfl⟩ | ⟨t, rfl, rfl⟩ | ⟨rfl, p, hp⟩⟩ := hi.cases_use
  · obtain ⟨w, m, hmade, hm, ht, -⟩ := (st.story i _ hq nobody_runs).of_sending
    exact ⟨i, w, ⟨hmade, m, hm⟩, ht, .inl rfl⟩
  · obtain ⟨w, m, hmade, hm, ht, -⟩ := (st.story i _ hq nobody_runs).of_enqueuing
    exact ⟨i, w, ⟨hmade, m, hm⟩, ht, .inl rfl⟩
  · obtain ⟨c, w, m, hc, hmade, hm⟩ := hr.promiser p i ⟨q, hq, hp⟩
    exact ⟨c, w, ⟨hmade, m, hm⟩, st.topic_of_settler hmade hc ⟨q, hq, hp⟩ hi, .inr ⟨p, hc, q, hq, hp⟩⟩

/-- A send whose call is over has a lease only where another call settles what it promised. -/
theorem WorksFor.of_over {q : Progress} (hw : WorksFor s i c) (hi : Holds s i u h)
    (hc : s.calls.get? c = some q) (ho : Progress.isOver q = true) :
    ∃ p, q = .ended (.promised p) ∧ Serves s p i := by
  rcases hw with rfl | ⟨p, hp, hs⟩
  · exact absurd (ho.symm.trans (hi.not_over hc)) nofun
  · cases hc.symm.trans hp
    exact ⟨p, rfl, hs⟩

/-- There is one lease for a send at most. -/
theorem Run.one_lease {j : CallId} {v : Use} {g : HandleId} (hr : Run PublicOnly tr s)
    (hi : WorksFor s i c) (hj : WorksFor s j c) (hu : Holds s i u h) (hv : Holds s j v g) :
    i = j ∧ u = v ∧ h = g := by
  have hij : i = j := by
    rcases hi with rfl | ⟨p, hc, hp⟩ <;> rcases hj with rfl | ⟨p', hc', hp'⟩
    · rfl
    · exact absurd (hu.not_over hc') nofun
    · exact absurd (hv.not_over hc) nofun
    · cases hc.symm.trans hc'
      exact hr.orderly.storied.assigned.unique p i j hp hp'
  subst hij
  exact ⟨rfl, hu.unique hv⟩

/-- As long as there is a lease for what was promised, its outcome cannot be read. -/
theorem Run.outcome_of_lease {x : Pending} (hr : Run PublicOnly tr s) (hw : WorksFor s i c)
    (hi : Holds s i u h) (hc : s.calls.get? c = some (.ended (.promised p)))
    (hx : s.pending.get? p = some x) : x.outcome? = none := by
  obtain ⟨p', heq, hs⟩ := hw.of_over hi hc rfl
  cases heq
  simp [Pending.outcome?, hr.orderly.storied.assigned.unknown hx hs]

end

/-- In every run, every borrow of a handle is the lease of a send that is under way or of a caller, and
it ends before anybody learns how the send ended. -/
theorem leases_accounted {tr : List (Label × Factory)} {s : Factory} (h : Run PublicOnly tr s) :
    Accounted tr s where
  balance _ _ hx := h.orderly.balanced.by_use hx
  counted v hv := by
    refine h.orderly.balanced.counted ?_
    rcases hv with ⟨i, u, hi⟩ | ⟨l, y, hy, hv⟩
    · obtain ⟨q, hq, hheld⟩ := hi.held
      exact Nat.add_pos_left (Registry.count_pos_of_get? hq (decide_eq_true hheld)) _
    · exact Nat.add_pos_right _ (Registry.count_pos_of_get? hy (decide_eq_true hv))
  holder _ _ _ hi := h.holder hi
  one _ _ _ _ _ _ _ hi hj hu hv := h.one_lease hi hj hu hv
  returned c q hc ho hq i u v hw hi := by
    obtain ⟨p, rfl, -⟩ := hw.of_over hi hc ho
    exact hq p rfl
  readable c p x r hc hx hr i u v hw hi := by
    cases (h.outcome_of_lease hw hi hc hx).symm.trans hr
  idle hsends hleases v x hx := by
    rw [h.orderly.balanced.by_use hx, ← leaseCount_by_use]
    refine Nat.eq_zero_of_not_pos fun hpos => ?_
    rcases holds_or_lent hpos with ⟨i, u, hi⟩ | ⟨l, y, hy, hheld⟩
    · obtain ⟨c, w, hmade, -, hw⟩ := h.holder hi
      obtain ⟨q, hq, hno, -⟩ := hi.cases_use
      exact hsends c w _ hmade ⟨i, q, hw, hq, hno⟩
    · rw [Lease.held?, hleases l y hy] at hheld
      cases hheld

/-- A producer with a lease of each kind: one send waits for its receipt, one to be queued, one was
promised and is to be settled, and a caller has a lease. -/
theorem leases_accounted_of_each_kind :
    ∃ tr s x, Run PublicOnly tr s ∧ Accounted tr s ∧ s.handles.get? 0 = some x ∧ x.borrows = 4 ∧
      s.users .receipt 0 = 1 ∧ s.users .queue 0 = 1 ∧ s.users .settle 0 = 1 ∧ s.lent 0 = 1 := by
  have h : Run PublicOnly _ _ :=
    Run.new.play [.call (.want ⟨"t", .send {} .promised⟩), .resume 0,
      .answer 0 0 (.opened (.ok .pipelined)), .answer 0 1 (.accepted (.ok ())),
      .call (.want ⟨"t", .send {} .promised⟩), .resume 2, .call (.want ⟨"t", .send {} .acknowledged⟩),
      .resume 3, .call (.want ⟨"t", .lease⟩), .resume 4] (by simp [PublicOnly, Request.IsPublic]) rfl
  exact ⟨_, _, _, h, leases_accounted h, rfl, rfl, rfl, rfl, rfl, rfl⟩

end Factory

end TopicPublisher
