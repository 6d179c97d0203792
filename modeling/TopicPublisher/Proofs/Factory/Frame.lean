import TopicPublisher.Factory.Step
import TopicPublisher.Proofs.Cache.Cells
import TopicPublisher.Proofs.Registry

/-!
# What the parts of a step change

The operations that a step is made of, as changes of single fields of the factory. Those that wake calls
differ from plain updates only in the journal, by entries that say who was woken.
-/

namespace TopicPublisher

namespace Factory

/-! ## 1. The journal -/

/-- The journal as a list, the oldest entry first. -/
def events (s : Factory) : List Event := s.journal.toList

/-- Writes entries into the journal. -/
def write (s : Factory) (es : List Event) : Factory :=
  { s with journal := s.journal ++ es.toArray }

/-- Writes that calls are woken. -/
def rouse (s : Factory) (cs : List CallId) : Factory := s.write (cs.map .woken)

theorem noteAll_eq (s : Factory) (es : List Event) : s.noteAll es = s.write es := by
  unfold noteAll write
  induction es generalizing s with
  | nil => simp
  | cons e es ih =>
    rw [List.foldl_cons, ih]
    have hj : s.journal.push e ++ es.toArray = s.journal ++ (e :: es).toArray := by
      apply Array.ext'
      simp
    exact congrArg (fun j => { s with journal := j }) hj

theorem wake_eq (s : Factory) (cs : List CallId) : s.wake cs = s.rouse cs := noteAll_eq s _

theorem write_write (s : Factory) (es es' : List Event) :
    (s.write es).write es' = s.write (es ++ es') := by
  simp [write, Array.append_assoc]

theorem rouse_nil (s : Factory) : s.rouse [] = s := by simp [rouse, write]

theorem rouse_rouse (s : Factory) (cs cs' : List CallId) :
    (s.rouse cs).rouse cs' = s.rouse (cs ++ cs') := by
  unfold rouse
  rw [write_write, List.map_append]

/-- Whether an entry is about a producer: a request to the wire client, a new handle, or handles taken
out of the cache. The others say what calls do. -/
def Deed : Event → Bool
  | .asked _ _ _ => true
  | .opened _ _ => true
  | .drained _ _ => true
  | _ => false

/-- The entries about producers. -/
def deeds (s : Factory) : List Event := s.events.filter Deed

theorem mem_deeds {s : Factory} {e : Event} : e ∈ s.deeds ↔ e ∈ s.events ∧ Deed e = true :=
  List.mem_filter

/-- What is counted among the entries about producers. -/
theorem countP_deeds (s : Factory) {f : Event → Bool} (hf : ∀ e, f e = true → Deed e = true) :
    s.deeds.countP f = s.events.countP f := by
  unfold deeds
  rw [List.countP_filter]
  refine List.countP_congr fun e _ => ?_
  rw [Bool.and_eq_true]
  exact ⟨fun h => h.1, fun h => ⟨h, hf e h⟩⟩

@[simp] theorem deeds_mk (s : Factory) (cache : Cache) (handles : Registry Handle)
    (calls : Registry Progress) (leases : Registry Lease) (pending : Registry Pending) (n : Nat) :
    deeds ⟨cache, handles, calls, leases, pending, n, s.journal⟩ = s.deeds := rfl

@[simp] theorem deeds_write (s : Factory) (es : List Event) :
    (s.write es).deeds = s.deeds ++ es.filter Deed := by
  simp [deeds, events, write]

@[simp] theorem deeds_rouse (s : Factory) (cs : List CallId) : (s.rouse cs).deeds = s.deeds := by
  unfold rouse
  rw [deeds_write, List.filter_eq_nil_iff.2, List.append_nil]
  intro e he
  obtain ⟨c, -, rfl⟩ := List.mem_map.1 he
  exact Bool.false_ne_true

theorem deeds_withdraw (s : Factory) (ts : List Ticket) :
    (s.write (ts.map .withdrawn)).deeds = s.deeds := by
  rw [deeds_write, List.filter_eq_nil_iff.2, List.append_nil]
  intro e he
  obtain ⟨t, -, rfl⟩ := List.mem_map.1 he
  exact Bool.false_ne_true

theorem deeds_note (s : Factory) (e : Event) : (s.note e).deeds = s.deeds ++ [e].filter Deed := by
  simp [deeds, events, note]

@[simp] theorem deeds_lookedUp (s : Factory) (c : CallId) (t : String) :
    (s.note (.lookedUp c t)).deeds = s.deeds := (deeds_note s _).trans (List.append_nil _)

@[simp] theorem deeds_withdrawn (s : Factory) (t : Ticket) :
    (s.note (.withdrawn t)).deeds = s.deeds := (deeds_note s _).trans (List.append_nil _)

@[simp] theorem deeds_finished (s : Factory) (c : CallId) :
    (s.note (.finished c)).deeds = s.deeds := (deeds_note s _).trans (List.append_nil _)

@[simp] theorem deeds_opened (s : Factory) (c : CallId) (h : HandleId) :
    (s.note (.opened c h)).deeds = s.deeds ++ [.opened c h] := deeds_note s _

@[simp] theorem deeds_drained (s : Factory) (c : CallId) (hs : List HandleId) :
    (s.note (.drained c hs)).deeds = s.deeds ++ [.drained c hs] := deeds_note s _

@[simp] theorem deeds_goTo (s : Factory) (c : CallId) (p : Progress) :
    (s.goTo c p).deeds = s.deeds := rfl

@[simp] theorem deeds_finish (s : Factory) (c : CallId) (o : Outcome) :
    (s.finish c o).deeds = s.deeds := deeds_finished _ c

@[simp] theorem deeds_start (s : Factory) (p : Progress) : (s.start p).deeds = s.deeds :=
  (deeds_note _ _).trans (List.append_nil _)

@[simp] theorem deeds_ask (s : Factory) (c : CallId) (d : Demand) :
    (s.ask c d).deeds = s.deeds ++ [.asked c s.tickets d] := deeds_note _ _

@[simp] theorem deeds_create (s : Factory) (c : CallId) (w : Want) (k : CellId) :
    (s.create c w k).deeds = s.deeds ++ [.asked c s.tickets (.openProducer w.topic)] := deeds_ask _ _ _

@[simp] theorem deeds_handOver (s : Factory) (h : HandleId) : (s.handOver h).deeds = s.deeds := rfl

/-! ## 2. Cells and handles -/

theorem setCell_eq (s : Factory) (k : CellId) (f : Cell → Cell × List CallId) :
    ∃ cs, s.setCell k f =
      { s with cache := s.cache.setCell k fun x => (f x).1 }.rouse cs := by
  unfold setCell
  cases hx : s.cache.cells.get? k with
  | none =>
    refine ⟨[], ?_⟩
    rw [rouse_nil]
    unfold Cache.setCell
    rw [Registry.update_eq_self hx]
  | some x =>
    refine ⟨(f x).2, ?_⟩
    dsimp only
    rw [wake_eq, Registry.update_const_eq hx fun x => (f x).1]
    rfl

theorem endBorrow_eq (s : Factory) (h : HandleId) :
    ∃ cs, s.endBorrow h =
      { s with handles := s.handles.update h fun x => x.endBorrow.1 }.rouse cs := by
  unfold endBorrow
  cases hx : s.handles.get? h with
  | none =>
    refine ⟨[], ?_⟩
    rw [rouse_nil, Registry.update_eq_self hx]
  | some x =>
    refine ⟨x.endBorrow.2, ?_⟩
    dsimp only
    rw [wake_eq, setHandle, Registry.update_const_eq hx fun x => x.endBorrow.1]

/-- A lease is granted by a handle that is not retiring, which counts it. -/
theorem borrow_granted {s : Factory} {h : HandleId} {x : Handle} (hx : s.handles.get? h = some x)
    (hr : x.retiring = false) :
    s.borrow h = (true, { s with handles := s.handles.update h Handle.beginBorrow }) := by
  have ht : x.tryLease = (true, x.beginBorrow, []) := by
    unfold Handle.tryLease
    rw [if_neg]
    unfold Handle.beginBorrow
    simp [hr]
  unfold borrow
  rw [hx]
  dsimp only
  rw [ht, wake_eq, rouse_nil, setHandle, Registry.update_const_eq hx Handle.beginBorrow]

/-- A handle that is retiring, or unknown, grants no lease. -/
theorem borrow_refused {s : Factory} {h : HandleId}
    (hr : ∀ x, s.handles.get? h = some x → x.retiring = true) :
    ∃ cs, s.borrow h =
      (false, { s with
        handles := s.handles.update h fun x => x.beginBorrow.endBorrow.1 }.rouse cs) := by
  unfold borrow
  cases hx : s.handles.get? h with
  | none =>
    refine ⟨[], ?_⟩
    rw [rouse_nil, Registry.update_eq_self hx]
  | some x =>
    have ht : x.tryLease = (false, x.beginBorrow.endBorrow) := by
      unfold Handle.tryLease
      rw [if_pos]
      unfold Handle.beginBorrow
      exact hr x hx
    refine ⟨x.beginBorrow.endBorrow.2, ?_⟩
    dsimp only
    rw [ht, wake_eq, setHandle, Registry.update_const_eq hx fun x => x.beginBorrow.endBorrow.1]

/-- Raises the flags of handles. -/
def stopAll (r : Registry Handle) (hs : List HandleId) : Registry Handle :=
  hs.foldl (fun r h => r.update h Handle.stopLeasing) r

theorem stopLeasing_eq (s : Factory) (hs : List HandleId) :
    s.stopLeasing hs = { s with handles := stopAll s.handles hs } := by
  unfold stopLeasing stopAll
  induction hs generalizing s with
  | nil => rfl
  | cons h hs ih => exact ih (s.setHandle h Handle.stopLeasing)

theorem get?_stopAll (r : Registry Handle) (hs : List HandleId) (h : HandleId) :
    (stopAll r hs).get? h = (r.get? h).map fun x => if h ∈ hs then x.stopLeasing else x := by
  unfold stopAll
  induction hs generalizing r with
  | nil => simp
  | cons g hs ih =>
    rw [List.foldl_cons, ih, Registry.get?_update]
    cases r.get? h with
    | none => simp
    | some x =>
      by_cases hg : g = h
      · subst hg
        by_cases hm : g ∈ hs <;> simp [hm, Handle.stopLeasing]
      · simp [hg, Ne.symm hg]

theorem settle_eq (s : Factory) (p : PendingId) (x : PendingState) :
    ∃ cs, s.settle p x =
      { s with pending := s.pending.update p fun q => { q with state := x, awaiter := none } }.rouse
        cs := by
  unfold settle
  cases hq : s.pending.get? p with
  | none =>
    refine ⟨[], ?_⟩
    rw [rouse_nil, Registry.update_eq_self hq]
  | some q =>
    refine ⟨q.awaiter.toList, ?_⟩
    dsimp only
    rw [wake_eq]

theorem endBorrow_settle_eq (s : Factory) (h : HandleId) (p : PendingId) (x : PendingState) :
    ∃ cs, (s.endBorrow h).settle p x =
      { s with
        handles := s.handles.update h fun x => x.endBorrow.1
        pending := s.pending.update p fun q => { q with state := x, awaiter := none } }.rouse cs := by
  obtain ⟨cs, hb⟩ := s.endBorrow_eq h
  obtain ⟨cs', hp⟩ := (s.endBorrow h).settle_eq p x
  refine ⟨cs ++ cs', ?_⟩
  rw [hp, hb, ← rouse_rouse]
  rfl

end Factory

end TopicPublisher
