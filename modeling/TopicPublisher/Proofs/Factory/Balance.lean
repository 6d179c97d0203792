import TopicPublisher.Proofs.Factory.Sound

/-!
# The account of the borrows

A handle counts its borrows, and they are the leases that there are on it: one for every call that is at a
point where it holds one, and one for every lease in a caller's hands. A producer is closed only when the
count is zero, and after that no lease on its handle is granted.

Results:
1. `leasesOn_goTo`: how the number of leases changes when a call gets to another point.
2. `Calm`: changes that leave the account alone.
3. `Balanced.begins`, `Balanced.turn`, `Run.balanced`: the account is right in every run.
-/

namespace TopicPublisher

/-! ## Definitions -/

/-- The handle that a call holds a lease on. -/
def Progress.held? : Progress → Option HandleId
  | .fresh (.dispatch h _ _) => some h
  | .sending h _ => some h
  | .enqueuing h _ => some h
  | .completing h _ _ => some h
  | _ => none

/-- The handle that a lease in a caller's hands is on. -/
def Lease.held? (y : Lease) : Option HandleId := if y.released then none else some y.handle

/-- A handle is closed once, when nobody borrows it and nobody will. -/
structure Handle.Settled (x : Handle) : Prop where
  closed : x.closed = true → x.retiring = true ∧ x.borrows = 0
  closes : x.closes = if x.closed then 1 else 0

/-- A request that callers make. To dispatch a message is left to the factory. -/
def Request.IsPublic : Request → Prop
  | .dispatch _ _ _ => False
  | _ => True

namespace Factory

/-- How many leases there are on a handle, by what calls and callers hold. -/
def leasesOn (calls : Registry Progress) (leases : Registry Lease) (h : HandleId) : Nat :=
  calls.count (fun p => p.held? = some h) + leases.count fun y => y.held? = some h

/-- How many leases there are on a handle. -/
def leaseCount (s : Factory) (h : HandleId) : Nat := leasesOn s.calls s.leases h

/-- How many borrows a handle counts. -/
def borrowsOf (s : Factory) (h : HandleId) : Nat := ((s.handles.get? h).map Handle.borrows).getD 0

/-- The wire client is asked to close a producer. -/
def Closes (h : HandleId) : Event → Bool
  | .asked _ _ (.close g) => g = h
  | _ => false

/-- How often the wire client was asked to close a producer. -/
def closeCount (s : Factory) (h : HandleId) : Nat := s.events.countP (Closes h)

/-- How often a handle says that it was. -/
def closesOf (s : Factory) (h : HandleId) : Nat := ((s.handles.get? h).map Handle.closes).getD 0

/-- The account is right. A call that runs holds no lease. -/
structure Balanced (s : Factory) (run : Option (CallId × Act)) : Prop where
  balance : ∀ h, s.leaseCount h = s.borrowsOf h
  settled : ∀ h x, s.handles.get? h = some x → x.Settled
  closes : ∀ h, s.closeCount h = s.closesOf h
  runs : ∀ c a, run = some (c, a) → ∃ p, s.calls.get? c = some p ∧ p.held? = none

/-- A change of a handle that leaves its counts alone, or a new one. -/
inductive CalmAt (a b : Registry Handle) (h : HandleId) : Prop
  | same : b.get? h = a.get? h → CalmAt a b h
  | changed {x y : Handle} : a.get? h = some x → b.get? h = some y → y.borrows = x.borrows →
      y.closes = x.closes → (x.Settled → y.Settled) → CalmAt a b h
  | new {t : String} {m : DispatchMode} : a.get? h = none →
      b.get? h = some { topic := t, mode := m } → CalmAt a b h

/-- A change that leaves the account alone. -/
structure Calm (s s' : Factory) : Prop where
  handles : ∀ h, CalmAt s.handles s'.handles h
  closes : ∀ h, s'.closeCount h = s.closeCount h

namespace BalanceLemmas

/-! ## 1. Handles and their counts -/

theorem settled_beginBorrow {x : Handle} (h : x.Settled) (hr : x.retiring = false) :
    x.beginBorrow.Settled where
  closed hc := absurd (hr.symm.trans (h.closed hc).1) nofun
  closes := h.closes

theorem settled_endBorrow {x : Handle} (h : x.Settled) : x.endBorrow.1.Settled := by
  unfold Handle.endBorrow
  split
  · exact ⟨fun hc => ⟨(h.closed hc).1, rfl⟩, h.closes⟩
  · refine ⟨fun hc => ⟨(h.closed hc).1, ?_⟩, h.closes⟩
    show x.borrows - 1 = 0
    rw [(h.closed hc).2]

theorem settled_close {x : Handle} (h : x.Settled) (hr : x.retiring = true) (hb : x.borrows = 0)
    (hc : x.closed = false) :
    Handle.Settled { x.claimClose.2 with closes := x.closes + 1 } where
  closed _ := ⟨hr, hb⟩
  closes := by
    show x.closes + 1 = 1
    rw [h.closes, hc]
    rfl

theorem borrows_endBorrow (x : Handle) : x.endBorrow.1.borrows = x.borrows - 1 := by
  unfold Handle.endBorrow
  split
  · next hb => simp [hb]
  · rfl

theorem closes_endBorrow (x : Handle) : x.endBorrow.1.closes = x.closes := by
  unfold Handle.endBorrow
  split <;> rfl

theorem borrowsOf_beginBorrow {s s' : Factory} {h : HandleId} {x : Handle}
    (hx : s.handles.get? h = some x) (hh : s'.handles = s.handles.update h Handle.beginBorrow)
    (v : HandleId) : s'.borrowsOf v = s.borrowsOf v + if h = v then 1 else 0 := by
  unfold borrowsOf
  rw [hh, Registry.get?_update]
  split
  · next hv =>
    subst hv
    rw [hx]
    rfl
  · rfl

theorem borrowsOf_endBorrow {s s' : Factory} {h : HandleId}
    (hh : s'.handles = s.handles.update h fun x => x.endBorrow.1) (v : HandleId) :
    s'.borrowsOf v = s.borrowsOf v - if h = v then 1 else 0 := by
  unfold borrowsOf
  rw [hh, Registry.get?_update]
  split
  · cases s.handles.get? v with
    | none => rfl
    | some x => exact borrows_endBorrow x
  · rfl

theorem closesOf_update {s s' : Factory} {h : HandleId} {f : Handle → Handle}
    (hh : s'.handles = s.handles.update h f) (hf : ∀ x, (f x).closes = x.closes) (v : HandleId) :
    s'.closesOf v = s.closesOf v := by
  unfold closesOf
  rw [hh, Registry.get?_update]
  split
  · cases s.handles.get? v with
    | none => rfl
    | some x => exact hf x
  · rfl

theorem settled_update {s s' : Factory} {h : HandleId} {f : Handle → Handle}
    (hh : s'.handles = s.handles.update h f)
    (hf : ∀ x, s.handles.get? h = some x → x.Settled → (f x).Settled)
    (hs : ∀ v x, s.handles.get? v = some x → x.Settled) :
    ∀ v x, s'.handles.get? v = some x → x.Settled := by
  intro v y hy
  rw [hh, Registry.get?_update] at hy
  split at hy
  · next hv =>
    subst hv
    obtain ⟨x, hx, rfl⟩ := Option.map_eq_some_iff.1 hy
    exact hf x hx (hs h x hx)
  · exact hs v y hy

/-! ## 2. Leases -/

theorem leaseCount_of_eq {s s' : Factory} (hc : s'.calls = s.calls) (hl : s'.leases = s.leases)
    (h : HandleId) : s'.leaseCount h = s.leaseCount h := by
  unfold leaseCount
  rw [hc, hl]

section

variable {calls : Registry Progress} {leases : Registry Lease}

/-- A call that gets from one point to another gives up the lease of the one and has that of the
other. -/
theorem leasesOn_goTo {c : CallId} {p : Progress} (hc : calls.get? c = some p) (p' : Progress)
    (leases : Registry Lease) (h : HandleId) :
    leasesOn (calls.update c fun _ => p') leases h + (if p.held? = some h then 1 else 0) =
      leasesOn calls leases h + if p'.held? = some h then 1 else 0 := by
  have := Registry.count_update hc (fun _ => p') fun q => decide (q.held? = some h)
  simp only [decide_eq_true_eq] at this
  unfold leasesOn
  omega

/-- A call that held no lease has that of the point it gets to. -/
theorem leasesOn_takes {c : CallId} {p : Progress} (hc : calls.get? c = some p) (hp : p.held? = none)
    (p' : Progress) (leases : Registry Lease) (h : HandleId) :
    leasesOn (calls.update c fun _ => p') leases h =
      leasesOn calls leases h + if p'.held? = some h then 1 else 0 := by
  have := leasesOn_goTo hc p' leases h
  rw [hp] at this
  simpa using this

theorem leasesOn_start (calls : Registry Progress) (p : Progress) (leases : Registry Lease)
    (h : HandleId) :
    leasesOn (calls.add p) leases h = leasesOn calls leases h + if p.held? = some h then 1 else 0 := by
  unfold leasesOn
  rw [Registry.count_add]
  simp only [decide_eq_true_eq]
  omega

theorem leasesOn_handOver (calls : Registry Progress) (leases : Registry Lease) (v h : HandleId) :
    leasesOn calls (leases.add { handle := v }) h =
      leasesOn calls leases h + if v = h then 1 else 0 := by
  unfold leasesOn
  rw [Registry.count_add]
  simp only [Lease.held?, Bool.false_eq_true, if_false, Option.some.injEq, decide_eq_true_eq]
  omega

theorem leasesOn_release {l : LeaseId} {y : Lease} (hy : leases.get? l = some y)
    (hr : y.released = false) (calls : Registry Progress) (h : HandleId) :
    leasesOn calls (leases.update l fun y => { y with released := true }) h +
      (if y.handle = h then 1 else 0) = leasesOn calls leases h := by
  have := Registry.count_update hy (fun y => { y with released := true })
    fun z => decide (z.held? = some h)
  simp only [Lease.held?, hr, if_true, Bool.false_eq_true, if_false, Option.some.injEq,
    reduceCtorEq, decide_false, decide_eq_true_eq] at this
  unfold leasesOn
  simp only [Lease.held?] at this ⊢
  omega

end

/-! ## 3. The journal -/

theorem closeCount_of_deeds {s s' : Factory} {es : List Event} (he : s'.deeds = s.deeds ++ es)
    (h : HandleId) : s'.closeCount h = s.closeCount h + es.countP (Closes h) := by
  have hf : ∀ e, Closes h e = true → Deed e = true := by
    intro e he
    cases e with
    | asked => rfl
    | _ => cases he
  unfold closeCount
  rw [← countP_deeds s' hf, ← countP_deeds s hf, he, List.countP_append]

end BalanceLemmas

open BalanceLemmas

/-! ## 4. Calm changes -/

theorem Calm.borrowsOf {s s' : Factory} (k : Calm s s') (h : HandleId) :
    s'.borrowsOf h = s.borrowsOf h := by
  unfold Factory.borrowsOf
  cases k.handles h with
  | same heq => rw [heq]
  | changed hx hy hb _ _ =>
    rw [hx, hy]
    exact hb
  | new hx hy =>
    rw [hx, hy]
    rfl

theorem Calm.closesOf {s s' : Factory} (k : Calm s s') (h : HandleId) :
    s'.closesOf h = s.closesOf h := by
  unfold Factory.closesOf
  cases k.handles h with
  | same heq => rw [heq]
  | changed hx hy _ hc _ =>
    rw [hx, hy]
    exact hc
  | new hx hy =>
    rw [hx, hy]
    rfl

theorem Calm.settled {s s' : Factory} (k : Calm s s')
    (hs : ∀ h x, s.handles.get? h = some x → x.Settled) :
    ∀ h x, s'.handles.get? h = some x → x.Settled := by
  intro h z hz
  cases k.handles h with
  | same heq => exact hs h z (heq ▸ hz)
  | changed hx hy _ _ hxy =>
    cases hy.symm.trans hz
    exact hxy (hs h _ hx)
  | new _ hy =>
    cases hy.symm.trans hz
    exact ⟨nofun, rfl⟩

theorem calmAt_update (a : Registry Handle) (v : HandleId) {f : Handle → Handle}
    (hb : ∀ x, (f x).borrows = x.borrows) (hc : ∀ x, (f x).closes = x.closes)
    (hs : ∀ x, x.Settled → (f x).Settled) (h : HandleId) : CalmAt a (a.update v f) h := by
  by_cases hv : v = h
  · subst hv
    cases hx : a.get? v with
    | none => exact .same (by rw [Registry.update_eq_self hx])
    | some x =>
      refine .changed hx ?_ (hb x) (hc x) (hs x)
      rw [Registry.get?_update, if_pos rfl, hx]
      rfl
  · exact .same (by rw [Registry.get?_update, if_neg hv])

theorem calmAt_stopAll (a : Registry Handle) (hs : List HandleId) (h : HandleId) :
    CalmAt a (stopAll a hs) h := by
  have hg := get?_stopAll a hs h
  cases hx : a.get? h with
  | none =>
    rw [hx] at hg
    exact .same (hg.trans hx.symm)
  | some x =>
    rw [hx] at hg
    refine .changed hx hg ?_ ?_ ?_
    · split <;> rfl
    · split <;> rfl
    · split
      · exact fun h => ⟨fun hc => ⟨rfl, (h.closed hc).2⟩, h.closes⟩
      · exact fun h => h

theorem calmAt_parked {a b : Registry Handle}
    (hg : ∀ h, ∃ ps, b.get? h = (a.get? h).map fun x => { x with parked := ps }) (h : HandleId) :
    CalmAt a b h := by
  obtain ⟨ps, hps⟩ := hg h
  cases hx : a.get? h with
  | none =>
    rw [hx] at hps
    exact .same (hps.trans hx.symm)
  | some x =>
    rw [hx] at hps
    exact .changed hx hps rfl rfl fun h => ⟨h.closed, h.closes⟩

theorem calmAt_add (a : Registry Handle) (t : String) (m : DispatchMode) (h : HandleId) :
    CalmAt a (a.add { topic := t, mode := m }) h := by
  have hg := Registry.get?_add a { topic := t, mode := m } h
  split at hg
  · next hh => exact .new ((Registry.get?_eq_none_iff a h).2 (Nat.le_of_eq hh.symm)) hg
  · exact .same hg

theorem calmAt_refused (a : Registry Handle) (v h : HandleId) :
    CalmAt a (a.update v fun x => x.beginBorrow.endBorrow.1) h := by
  refine calmAt_update a v (fun x => ?_) (fun x => ?_) (fun x hx => ?_) h
  · exact borrows_endBorrow _
  · exact closes_endBorrow _
  · obtain ⟨ps, heq⟩ := Handle.refused_eq x
    rw [heq]
    exact ⟨hx.closed, hx.closes⟩

theorem calmAt_park (a : Registry Handle) (v : HandleId) (c : CallId) (h : HandleId) :
    CalmAt a (a.update v fun x => x.park c) h := by
  refine calmAt_update a v (fun x => ?_) (fun x => ?_) (fun x hx => ?_) h
  · unfold Handle.park
    split <;> rfl
  · unfold Handle.park
    split <;> rfl
  · unfold Handle.park
    split
    · exact hx
    · exact ⟨hx.closed, hx.closes⟩

/-- No producer is closed meanwhile. -/
theorem calm_of {s s' : Factory} {es : List Event} (hg : ∀ h, CalmAt s.handles s'.handles h)
    (he : s'.deeds = s.deeds ++ es) (hes : ∀ h, es.countP (Closes h) = 0) : Calm s s' :=
  ⟨hg, fun h => by rw [closeCount_of_deeds he, hes h, Nat.add_zero]⟩

theorem calm_of_deeds_eq {s s' : Factory} (hg : ∀ h, CalmAt s.handles s'.handles h)
    (he : s'.deeds = s.deeds) : Calm s s' :=
  calm_of hg (he.trans (List.append_nil _).symm) fun _ => rfl

theorem calmAt_of_eq {a b : Registry Handle} (hh : b = a) (h : HandleId) : CalmAt a b h :=
  .same (by rw [hh])

theorem calm_of_eq {s s' : Factory} (hh : s'.handles = s.handles) (he : s'.deeds = s.deeds) :
    Calm s s' :=
  calm_of_deeds_eq (calmAt_of_eq hh) he

/-! ## 5. The account after a change -/

/-- A call that holds no lease gets to a point where it holds none, or runs on. -/
theorem Balanced.calm {s s' : Factory} {run run' : Option (CallId × Act)} (b : Balanced s run)
    (k : Calm s s') (hl : ∀ h, s'.leaseCount h = s.leaseCount h)
    (hrun : ∀ c a, run' = some (c, a) → ∃ p, s'.calls.get? c = some p ∧ p.held? = none) :
    Balanced s' run' where
  balance h := by rw [hl, k.borrowsOf, b.balance]
  settled := k.settled b.settled
  closes h := by rw [k.closes, k.closesOf, b.closes]
  runs := hrun

theorem Balanced.goesOn {s s' : Factory} {c : CallId} {a a' : Act} (b : Balanced s (some (c, a)))
    (k : Calm s s') (hcalls : s'.calls = s.calls) (hl : s'.leases = s.leases) :
    Balanced s' (some (c, a')) := by
  refine b.calm k (leaseCount_of_eq hcalls hl) fun i a hi => ?_
  cases hi
  rw [hcalls]
  exact b.runs c _ rfl

theorem Balanced.begun {s s' : Factory} {c : CallId} {a' : Act} {p : Progress}
    (b : Balanced s none) (k : Calm s s') (hcalls : s'.calls = s.calls) (hl : s'.leases = s.leases)
    (hc : s.calls.get? c = some p) (hp : p.held? = none) : Balanced s' (some (c, a')) := by
  refine b.calm k (leaseCount_of_eq hcalls hl) fun i a hi => ?_
  cases hi
  exact ⟨p, hcalls ▸ hc, hp⟩

/-- A call gets to a point where it holds the same as before. -/
theorem Balanced.ends {s s' : Factory} {run : Option (CallId × Act)} {c : CallId} {p p' : Progress}
    (b : Balanced s run) (k : Calm s s') (hc : s.calls.get? c = some p)
    (hcalls : s'.calls = s.calls.update c fun _ => p') (hl : s'.leases = s.leases)
    (hp : p'.held? = p.held?) : Balanced s' none := by
  refine b.calm k (fun h => ?_) fun _ _ => nofun
  have := leasesOn_goTo hc p' s.leases h
  rw [hp] at this
  unfold leaseCount
  rw [hcalls, hl]
  omega

/-- A handle counts one more borrow, and there is one more lease on it. -/
theorem Balanced.borrowed {s s' : Factory} {run : Option (CallId × Act)} {v : HandleId} {x : Handle}
    (b : Balanced s run) (hx : s.handles.get? v = some x) (hr : x.retiring = false)
    (hh : s'.handles = s.handles.update v Handle.beginBorrow) {es : List Event}
    (he : s'.deeds = s.deeds ++ es) (hes : ∀ h, es.countP (Closes h) = 0)
    (hl : ∀ h, s'.leaseCount h = s.leaseCount h + if v = h then 1 else 0) : Balanced s' none where
  balance h := by rw [hl, borrowsOf_beginBorrow hx hh, b.balance]
  settled := by
    refine settled_update hh (fun y hy hs => ?_) b.settled
    cases hx.symm.trans hy
    exact settled_beginBorrow hs hr
  closes h := by
    rw [closeCount_of_deeds he, hes h, closesOf_update hh (fun _ => rfl), Nat.add_zero, b.closes]
  runs := fun _ _ => nofun

/-- A handle counts one borrow less, and there is one lease less on it. -/
theorem Balanced.returned {s s' : Factory} {run : Option (CallId × Act)} {v : HandleId}
    (b : Balanced s run) (hh : s'.handles = s.handles.update v fun x => x.endBorrow.1)
    (he : s'.deeds = s.deeds)
    (hl : ∀ h, s'.leaseCount h + (if v = h then 1 else 0) = s.leaseCount h) : Balanced s' none where
  balance h := by
    have := hl h
    rw [borrowsOf_endBorrow hh, ← b.balance]
    omega
  settled := settled_update hh (fun _ _ => settled_endBorrow) b.settled
  closes h := by
    rw [closeCount_of_deeds (he.trans (List.append_nil _).symm), closesOf_update hh closes_endBorrow,
      b.closes]
    rfl
  runs := fun _ _ => nofun

/-- A call gives back the lease that it held. -/
theorem Balanced.gaveBack {s s' : Factory} {v : HandleId} {c : CallId} {p p' : Progress}
    (b : Balanced s none) (hc : s.calls.get? c = some p) (hp : p.held? = some v)
    (hp' : p'.held? = none) (hh : s'.handles = s.handles.update v fun x => x.endBorrow.1)
    (hcalls : s'.calls = s.calls.update c fun _ => p') (hl : s'.leases = s.leases)
    (he : s'.deeds = s.deeds) : Balanced s' none := by
  refine b.returned hh he fun h => ?_
  have := leasesOn_goTo hc p' s.leases h
  rw [hp, hp'] at this
  unfold leaseCount
  rw [hcalls, hl]
  simpa using this

/-- A producer that nobody borrows is closed. -/
theorem Balanced.closed {s s' : Factory} {c : CallId} {a a' : Act} {v : HandleId} {x : Handle}
    (b : Balanced s (some (c, a))) (hx : s.handles.get? v = some x) (hr : x.retiring = true)
    (hb : x.borrows = 0) (hc : x.closed = false)
    (hh : s'.handles = s.handles.update v fun x => { x.claimClose.2 with closes := x.closes + 1 })
    (hcalls : s'.calls = s.calls) (hl : s'.leases = s.leases) {t : Ticket}
    (he : s'.deeds = s.deeds ++ [.asked c t (.close v)]) : Balanced s' (some (c, a')) where
  balance h := by
    rw [leaseCount_of_eq hcalls hl, b.balance]
    unfold borrowsOf
    rw [hh, Registry.get?_update]
    split
    · cases s.handles.get? h <;> rfl
    · rfl
  settled := by
    refine settled_update hh (fun y hy hs => ?_) b.settled
    cases hx.symm.trans hy
    exact settled_close hs hr hb hc
  closes h := by
    rw [closeCount_of_deeds he, b.closes]
    unfold closesOf
    rw [hh, Registry.get?_update]
    by_cases hv : v = h
    · subst hv
      rw [if_pos rfl, hx]
      simp [Closes]
    · rw [if_neg hv]
      simp [Closes, hv]
  runs i a hi := by
    cases hi
    rw [hcalls]
    exact b.runs c _ rfl

/-! ## 6. Turns and beginnings -/

theorem Balanced.turn_grant {s s₁ : Factory} {c : CallId} {w : Want} {v : HandleId}
    {next : Option Act} (b : Balanced s (some (c, .grant w v))) (ht : Turn c s (.grant w v) s₁ next) :
    Balanced s₁ (next.map fun a => (c, a)) := by
  obtain ⟨p, hc, hp⟩ := b.runs c _ rfl
  cases ht with
  | handle => exact b.ends (calm_of_eq rfl (by simp)) hc rfl rfl hp.symm
  | denied =>
    exact b.ends (calm_of_deeds_eq (calmAt_refused s.handles v) (by simp)) hc rfl rfl hp.symm
  | lease _ hx hr =>
    refine b.borrowed hx hr rfl (by simp) (fun _ => List.countP_nil) fun h => ?_
    refine (leasesOn_takes hc hp (.ended (.lease s.leases.size)) _ h).trans ?_
    simp only [Progress.held?, reduceCtorEq, if_false, Nat.add_zero]
    exact leasesOn_handOver s.calls s.leases v h
  | send _ hx hr =>
    refine b.borrowed hx hr rfl (by simp; rfl) (fun _ => rfl) fun h => ?_
    refine (leasesOn_takes hc hp (.sending v s.tickets) s.leases h).trans ?_
    simp only [Progress.held?, Option.some.injEq, leaseCount]
  | enqueue _ hx hr =>
    refine b.borrowed hx hr rfl (by simp; rfl) (fun _ => rfl) fun h => ?_
    refine (leasesOn_takes hc hp (.enqueuing v s.tickets) s.leases h).trans ?_
    simp only [Progress.held?, Option.some.injEq, leaseCount]
  | @promise _ _ x m _ hx hr _ =>
    -- The lease is with the call that was begun, not with this one.
    refine b.borrowed hx hr rfl (by simp) (fun _ => List.countP_nil) fun h => ?_
    have hc' : (s.calls.add (.fresh (.dispatch v m s.pending.size))).get? c = some p := by
      rw [Registry.get?_add, if_neg (Nat.ne_of_lt (Registry.lt_size_of_get? hc))]
      exact hc
    refine (leasesOn_takes hc' hp (.ended (.promised s.pending.size)) s.leases h).trans ?_
    rw [leasesOn_start]
    simp only [Progress.held?, reduceCtorEq, if_false, Nat.add_zero, Option.some.injEq, leaseCount]

theorem Balanced.turn {owner : CellId → String} {s s₁ : Factory} {c : CallId} {a : Act}
    {next : Option Act} (h : Sound owner s (some (c, a))) (b : Balanced s (some (c, a)))
    (ht : Turn c s a s₁ next) : Balanced s₁ (next.map fun a => (c, a)) := by
  obtain ⟨p, hc, hp⟩ := b.runs c _ rfl
  cases a with
  | grant w v => exact b.turn_grant ht
  | look w =>
    cases ht with
    | found => exact b.goesOn (calm_of_eq rfl (by simp)) rfl rfl
    | lost => exact b.calm (calm_of_eq rfl (by simp)) (fun _ => rfl) nofun
    | create =>
      exact b.ends (calm_of (calmAt_of_eq rfl) (by simp; rfl) fun _ => rfl) hc rfl rfl hp.symm
    | refused | spin | queue =>
      exact b.ends (calm_of_eq rfl (by simp)) hc rfl rfl hp.symm
  | give w v =>
    cases ht <;> exact b.goesOn (calm_of_eq rfl rfl) rfl rfl
  | place w k v =>
    cases ht with
    | placed => exact b.goesOn (calm_of_eq rfl rfl) rfl rfl
    | superseded | shut =>
      exact b.goesOn (calm_of_deeds_eq (calmAt_stopAll s.handles _) rfl) rfl rfl
  | retire done todo after =>
    cases ht with
    | skip | elsewhere | goOn => exact b.goesOn (calm_of_eq rfl rfl) rfl rfl
    | @close _ _ r _ x _ hx hb hcl =>
      have hret := (h.act c _ rfl).1 r (List.mem_append_right _ List.mem_cons_self)
      rw [isRetiring_eq hx] at hret
      exact b.closed hx hret hb hcl rfl rfl rfl (by simp; rfl)
    | @park _ _ r =>
      exact b.goesOn (calm_of_deeds_eq (calmAt_park s.handles r.handle c) rfl) rfl rfl
    | fail | count | wait =>
      exact b.ends (calm_of_eq rfl (by simp)) hc rfl rfl hp.symm

theorem Balanced.stop {s s₁ : Factory} {c : CallId} {p final : Progress} (b : Balanced s none)
    (hc : s.calls.get? c = some p) (hs : LetsGo s c p s₁) (hfinal : final.held? = none) :
    Balanced ((s₁.goTo c final).note (.finished c)) none := by
  have he : ((s₁.goTo c final).note (.finished c)).deeds = s.deeds := by simp [hs.deeds_eq]
  cases hs with
  | @fresh r hr =>
    -- A message that was not dispatched yet has a lease of its own.
    refine b.ends (calm_of_eq rfl he) hc rfl rfl ?_
    cases r with
    | dispatch h m p => exact absurd rfl (hr h m p)
    | _ => exact hfinal
  | queued | creating | awaiting | spinning => exact b.ends (calm_of_eq rfl he) hc rfl rfl hfinal
  | retiring hget => exact b.ends (calm_of_deeds_eq (calmAt_parked hget) he) hc rfl rfl hfinal
  | dispatch | completing => exact b.gaveBack hc rfl hfinal rfl rfl rfl he
  | sending hp => rcases hp with rfl | rfl <;> exact b.gaveBack hc rfl hfinal rfl rfl rfl he

theorem Balanced.begins {s s₁ : Factory} {l : Label} {run : Option (CallId × Act)}
    (b : Balanced s none) (hl : ∀ r, l = .call r → r.IsPublic) (hb : Begins s l s₁ run) :
    Balanced s₁ run := by
  cases hb with
  | @call r =>
    refine b.calm (calm_of_eq rfl (by simp)) (fun h => ?_) fun _ _ => nofun
    refine (leasesOn_start s.calls (.fresh r) s.leases h).trans ?_
    have hr := hl r rfl
    cases r with
    | dispatch => exact hr.elim
    | _ => simp [Progress.held?, leaseCount]
  | want hc | filled hc _ | retire hc | closed hc _ =>
    exact b.begun (calm_of_eq rfl rfl) rfl rfl hc rfl
  | refuse hc | await hc | settled hc _ _ =>
    exact b.ends (calm_of_eq rfl (by simp)) hc rfl rfl rfl
  | failed hc => exact b.ends (calm_of_eq rfl (by simp)) hc rfl rfl rfl
  | @drain c r taken hc htaken =>
    refine b.begun (calm_of (calmAt_stopAll s.handles taken.2) (by simp; rfl) fun _ => rfl) rfl rfl
      hc ?_
    rcases htaken with ⟨rfl, -⟩ | ⟨rfl, -⟩ <;> rfl
  | dispatch hc | create hc _ =>
    exact b.ends (calm_of (calmAt_of_eq rfl) (by simp; rfl) fun _ => rfl) hc rfl rfl rfl
  | created hc =>
    exact b.begun (calm_of (calmAt_add s.handles _ _) (by simp; rfl) fun _ => rfl) rfl rfl hc rfl
  | receipt hc | rejected hc | completed hc =>
    exact b.gaveBack hc rfl rfl rfl rfl rfl (by simp)
  | @accepted c t v hc =>
    -- The lease passes on to the call that waits for the receipt.
    refine b.calm (calm_of_eq rfl (by simp)) (fun h => ?_) fun _ _ => nofun
    have hc' : (s.calls.add (.completing v t s.pending.size)).get? c = some (.enqueuing v t) := by
      rw [Registry.get?_add, if_neg (Nat.ne_of_lt (Registry.lt_size_of_get? hc))]
      exact hc
    have hgo := leasesOn_goTo hc' (.ended (.promised s.pending.size)) s.leases h
    rw [leasesOn_start] at hgo
    simp only [Progress.held?, reduceCtorEq, if_false, Nat.add_zero] at hgo
    exact Nat.add_right_cancel hgo
  | stop hfinal hc hs =>
    refine b.stop hc hs ?_
    rcases hfinal with ⟨-, rfl⟩ | ⟨-, rfl⟩ <;> rfl
  | leased hx hr =>
    exact b.borrowed hx hr rfl (by simp) (fun _ => List.countP_nil) (leasesOn_handOver s.calls s.leases _)
  | denied =>
    exact b.calm (calm_of_deeds_eq (calmAt_refused s.handles _) (by simp)) (fun _ => rfl) fun _ _ => nofun
  | released hy hr => exact b.returned rfl (by simp) (leasesOn_release hy hr s.calls)

theorem balanced_new : Balanced new none where
  balance _ := rfl
  settled h x hx := by simp [new] at hx
  closes _ := rfl
  runs := fun _ _ => nofun

/-- Runs in which callers make only requests of their own. -/
theorem Run.balanced {ok : Factory → Label → Prop} {tr : List (Label × Factory)} {s : Factory}
    (hok : ∀ s r, ok s (.call r) → r.IsPublic) (h : Run ok tr s) : Balanced s none := by
  have hboth : (∃ owner, Sound owner s none) ∧ Balanced s none := by
    refine h.induct (I := fun _ s run => (∃ owner, Sound owner s run) ∧ Balanced s run)
      ⟨⟨_, sound_new⟩, balanced_new⟩ ?_ ?_
    · rintro tr s s₁ l run - hl ⟨⟨owner, hs⟩, b⟩ hb
      refine ⟨⟨owner, hs.begins hb⟩, b.begins (fun r hr => ?_) hb⟩
      subst hr
      exact hok s r hl
    · rintro tr s s₁ s₂ l c a next - - ⟨⟨owner, hs⟩, b⟩ ht
      exact ⟨hs.turn ht, b.turn hs ht⟩
  exact hboth.2

end Factory

end TopicPublisher
