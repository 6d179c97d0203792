import TopicPublisher.Proofs.Factory.Frame

/-!
# What handles keep

A handle keeps its topic and its mode, and neither of its flags comes down again. `Handle.Later x y` says
so of a handle before and after something happened to it, and `HandlesLater a b` of all handles that there
were. The operations of a factory on its handles are all of this kind.
-/

namespace TopicPublisher

namespace Handle

/-- `y` is what can have become of handle `x`. -/
structure Later (x y : Handle) : Prop where
  topic : y.topic = x.topic
  mode : y.mode = x.mode
  retiring : x.retiring = true → y.retiring = true
  closed : x.closed = true → y.closed = true

theorem later_refl (x : Handle) : x.Later x := ⟨rfl, rfl, fun h => h, fun h => h⟩

theorem Later.trans {x y z : Handle} (h : x.Later y) (h' : y.Later z) : x.Later z :=
  ⟨h'.topic.trans h.topic, h'.mode.trans h.mode, fun hr => h'.retiring (h.retiring hr),
    fun hc => h'.closed (h.closed hc)⟩

theorem later_beginBorrow (x : Handle) : x.Later x.beginBorrow := ⟨rfl, rfl, fun h => h, fun h => h⟩

theorem later_endBorrow (x : Handle) : x.Later x.endBorrow.1 := by
  unfold endBorrow
  split <;> exact ⟨rfl, rfl, fun h => h, fun h => h⟩

theorem later_stopLeasing (x : Handle) : x.Later x.stopLeasing := ⟨rfl, rfl, fun _ => rfl, fun h => h⟩

theorem later_park (x : Handle) (c : CallId) : x.Later (x.park c) := by
  unfold park
  split <;> exact ⟨rfl, rfl, fun h => h, fun h => h⟩

/-- A lease that was counted and refused leaves the handle as it was, but for those parked on it. -/
theorem refused_eq (x : Handle) : ∃ ps, x.beginBorrow.endBorrow.1 = { x with parked := ps } := by
  unfold endBorrow beginBorrow
  cases hb : x.borrows with
  | zero => exact ⟨[], by simp⟩
  | succ n => exact ⟨x.parked, by simp⟩

end Handle

open Handle

/-- What can have become of all handles; there may be new ones. -/
def HandlesLater (a b : Registry Handle) : Prop :=
  ∀ h x, a.get? h = some x → ∃ y, b.get? h = some y ∧ x.Later y

theorem handlesLater_refl (a : Registry Handle) : HandlesLater a a :=
  fun _ x hx => ⟨x, hx, later_refl x⟩

theorem HandlesLater.trans {a b c : Registry Handle} (h : HandlesLater a b) (h' : HandlesLater b c) :
    HandlesLater a c := by
  intro v x hx
  obtain ⟨y, hy, hxy⟩ := h v x hx
  obtain ⟨z, hz, hyz⟩ := h' v y hy
  exact ⟨z, hz, hxy.trans hyz⟩

theorem handlesLater_update (a : Registry Handle) (h : HandleId) {f : Handle → Handle}
    (hf : ∀ x, a.get? h = some x → x.Later (f x)) : HandlesLater a (a.update h f) := by
  intro v x hx
  rw [Registry.get?_update]
  split
  · next hv =>
    subst hv
    rw [hx]
    exact ⟨f x, rfl, hf x hx⟩
  · exact ⟨x, hx, later_refl x⟩

theorem handlesLater_add (a : Registry Handle) (x : Handle) : HandlesLater a (a.add x) := by
  intro v y hy
  refine ⟨y, ?_, later_refl y⟩
  rw [Registry.get?_add, if_neg (Nat.ne_of_lt (Registry.lt_size_of_get? hy))]
  exact hy

theorem handlesLater_stopAll (a : Registry Handle) (hs : List HandleId) :
    HandlesLater a (Factory.stopAll a hs) := by
  intro v x hx
  rw [Factory.get?_stopAll, hx]
  refine ⟨_, rfl, ?_⟩
  split
  · exact later_stopLeasing x
  · exact later_refl x

theorem handlesLater_parked {a b : Registry Handle}
    (h : ∀ v, ∃ ps, b.get? v = (a.get? v).map fun x => { x with parked := ps }) : HandlesLater a b := by
  intro v x hx
  obtain ⟨ps, hps⟩ := h v
  rw [hx] at hps
  exact ⟨_, hps, rfl, rfl, fun h => h, fun h => h⟩

theorem known_later {a b : Registry Handle} (hl : HandlesLater a b) {h : HandleId}
    (hx : ∃ x, a.get? h = some x) : ∃ y, b.get? h = some y := by
  obtain ⟨x, hx⟩ := hx
  obtain ⟨y, hy, -⟩ := hl h x hx
  exact ⟨y, hy⟩

/-! ## What is read off a handle -/

namespace Factory

/-- The topic of a handle that there is. -/
def topic? (s : Factory) (h : HandleId) : Option String := (s.handles.get? h).map Handle.topic

theorem topic?_eq_some_iff {s : Factory} {h : HandleId} {t : String} :
    s.topic? h = some t ↔ ∃ x, s.handles.get? h = some x ∧ x.topic = t := Option.map_eq_some_iff

theorem isRetiring_iff {s : Factory} {h : HandleId} :
    s.isRetiring h = true ↔ ∃ x, s.handles.get? h = some x ∧ x.retiring = true := by
  unfold isRetiring
  cases s.handles.get? h <;> simp

theorem isRetiring_eq {s : Factory} {h : HandleId} {x : Handle} (hx : s.handles.get? h = some x) :
    s.isRetiring h = x.retiring := by
  unfold isRetiring
  rw [hx]
  rfl

theorem topic?_later {s s' : Factory} (hl : HandlesLater s.handles s'.handles) {h : HandleId}
    {t : String} (ht : s.topic? h = some t) : s'.topic? h = some t := by
  obtain ⟨x, hx, hxt⟩ := topic?_eq_some_iff.1 ht
  obtain ⟨y, hy, hxy⟩ := hl h x hx
  exact topic?_eq_some_iff.2 ⟨y, hy, hxy.topic.trans hxt⟩

theorem isRetiring_later {s s' : Factory} (hl : HandlesLater s.handles s'.handles) {h : HandleId}
    (hr : s.isRetiring h = true) : s'.isRetiring h = true := by
  obtain ⟨x, hx, hxr⟩ := isRetiring_iff.1 hr
  obtain ⟨y, hy, hxy⟩ := hl h x hx
  exact isRetiring_iff.2 ⟨y, hy, hxy.retiring hxr⟩

end Factory

end TopicPublisher
