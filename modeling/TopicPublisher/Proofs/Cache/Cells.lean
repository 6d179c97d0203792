import TopicPublisher.Proofs.Cache.Map

/-!
# Cells and who is at them

What the calls at the cells of a cache can rely on while other calls work on the cache. A cell keeps
its topic and, once it is filled, its handle; whoever has the turn at a cell keeps it, and the cell is
empty until then.

`Grows owner owner' c a b` says so of a change from cache `a` to cache `b` by call `c`, and there is a
lemma for each operation. `Stocked topic? owner c` says that the handles in the cells are of the
cells' topics.
-/

namespace TopicPublisher

namespace Cache

/-- A cell of a topic. -/
def IsCell (owner : CellId → String) (c : Cache) (t : String) (k : CellId) : Prop :=
  k < c.cells.size ∧ owner k = t

/-- A call has the turn at an empty cell. -/
def HasTurn (c : Cache) (i : CallId) (k : CellId) : Prop :=
  ∃ x, c.cells.get? k = some x ∧ x.turn = some i ∧ x.value = none

/-- Handles are in cells of their topics. -/
def Stocked (topic? : HandleId → Option String) (owner : CellId → String) (c : Cache) : Prop :=
  ∀ k h, c.value? k = some h → topic? h = some (owner k)

/-- What a change by call `c` leaves to the others. -/
structure Grows (owner owner' : CellId → String) (c : CallId) (a b : Cache) : Prop where
  owner : ∀ k, k < a.cells.size → owner' k = owner k
  size : a.cells.size ≤ b.cells.size
  value : ∀ k h, a.value? k = some h → b.value? k = some h
  closed : a.closed = true → b.closed = true
  turn : ∀ i k, i ≠ c → a.HasTurn i k → b.HasTurn i k

theorem Grows.isCell {owner owner' : CellId → String} {c : CallId} {a b : Cache}
    (g : Grows owner owner' c a b) {t : String} {k : CellId} (h : a.IsCell owner t k) :
    b.IsCell owner' t k :=
  ⟨Nat.lt_of_lt_of_le h.1 g.size, (g.owner k h.1).trans h.2⟩

theorem grows_refl (owner : CellId → String) (c : CallId) (a : Cache) : Grows owner owner c a a :=
  ⟨fun _ _ => rfl, Nat.le_refl _, fun _ _ h => h, fun h => h, fun _ _ _ h => h⟩

/-- A change of the map alone leaves the cells alone. -/
theorem grows_of_cells_eq {owner : CellId → String} {c : CallId} {a b : Cache}
    (h : b.cells = a.cells) (hc : a.closed = true → b.closed = true) : Grows owner owner c a b where
  owner _ _ := rfl
  size := Nat.le_of_eq (congrArg Registry.size h.symm)
  value k v hv := by
    unfold value? at hv ⊢
    rw [h]
    exact hv
  closed := hc
  turn i k _ ht := by
    unfold HasTurn at ht ⊢
    rw [h]
    exact ht

theorem Stocked.of_cells_eq {topic? : HandleId → Option String} {owner : CellId → String}
    {a b : Cache} (hs : Stocked topic? owner a) (h : b.cells = a.cells) : Stocked topic? owner b := by
  intro k v hv
  refine hs k v ?_
  unfold value? at hv ⊢
  rw [← h]
  exact hv

theorem Stocked.mono {topic? topic?' : HandleId → Option String} {owner : CellId → String} {a : Cache}
    (hs : Stocked topic? owner a) (h : ∀ v t, topic? v = some t → topic?' v = some t) :
    Stocked topic?' owner a :=
  fun k v hv => h v _ (hs k v hv)

/-! ## 1. New cells -/

theorem grows_addCell (owner : CellId → String) (c : CallId) (a : Cache) (t : String) (x : Cell) :
    Grows owner (ownerAfter owner a t) c a (a.addCell t x) where
  owner _ hk := ownerAfter_of_lt hk
  size := by
    show a.cells.size ≤ (a.cells.add x).size
    rw [Registry.size_add]
    exact Nat.le_succ _
  value k h hv := by
    rw [value?_addCell, if_neg (Nat.ne_of_lt (value?_lt hv))]
    exact hv
  closed h := h
  turn i k _ := by
    rintro ⟨y, hy, hturn⟩
    refine ⟨y, ?_, hturn⟩
    show (a.cells.add x).get? k = some y
    rw [Registry.get?_add, if_neg (Nat.ne_of_lt (Registry.lt_size_of_get? hy))]
    exact hy

theorem isCell_addCell (owner : CellId → String) (a : Cache) (t : String) (x : Cell) :
    (a.addCell t x).IsCell (ownerAfter owner a t) t a.cells.size := by
  refine ⟨?_, ownerAfter_size owner a t⟩
  show a.cells.size < (a.cells.add x).size
  rw [Registry.size_add]
  exact Nat.lt_succ_self _

theorem Stocked.addCell {topic? : HandleId → Option String} {owner : CellId → String} {a : Cache}
    (hs : Stocked topic? owner a) (t : String) {x : Cell}
    (hx : ∀ h, x.value = some h → topic? h = some t) :
    Stocked topic? (ownerAfter owner a t) (a.addCell t x) := by
  intro k h hv
  rw [value?_addCell] at hv
  split at hv
  · next hk =>
    subst hk
    rw [ownerAfter_size]
    exact hx h hv
  · rw [ownerAfter_of_lt (value?_lt hv)]
    exact hs k h hv

/-! ## 2. Changes at one cell -/

/-- Changes one cell. -/
def setCell (a : Cache) (k : CellId) (f : Cell → Cell) : Cache :=
  { a with cells := a.cells.update k f }

theorem value?_setCell (a : Cache) (k k' : CellId) (f : Cell → Cell) :
    (a.setCell k f).value? k' =
      if k = k' then (a.cells.get? k').bind fun x => (f x).value else a.value? k' := by
  unfold value? setCell
  rw [Registry.get?_update]
  split
  · cases a.cells.get? k' <;> rfl
  · rfl

theorem value?_setCell_of_eq {a : Cache} {k : CellId} {f : Cell → Cell}
    (hf : ∀ x, a.cells.get? k = some x → (f x).value = x.value) (k' : CellId) :
    (a.setCell k f).value? k' = a.value? k' := by
  rw [value?_setCell]
  split
  · next hk =>
    subst hk
    unfold value?
    cases hx : a.cells.get? k with
    | none => rfl
    | some x => exact hf x hx
  · rfl

theorem Tidy.setCell {owner : CellId → String} {a : Cache} (ha : Tidy owner a) (k : CellId)
    (f : Cell → Cell) : Tidy owner (a.setCell k f) where
  nodup := ha.nodup
  entry t k' h := by
    show k' < (a.cells.update k f).size ∧ _
    rw [Registry.size_update]
    exact ha.entry t k' h
  closed := ha.closed

theorem handle?_setCell_of_eq {a : Cache} {k : CellId} {f : Cell → Cell}
    (hf : ∀ x, a.cells.get? k = some x → (f x).value = x.value) (t : String) :
    (a.setCell k f).handle? t = a.handle? t := by
  show (a.current? t).bind (a.setCell k f).value? = _
  rw [show (a.setCell k f).value? = a.value? from funext (value?_setCell_of_eq hf)]
  rfl

/-- A change at a cell by the call whose turn it is, or that takes nobody's turn away. -/
theorem grows_setCell {owner : CellId → String} {c : CallId} {a : Cache} {k : CellId}
    {f : Cell → Cell} (hv : ∀ x h, a.cells.get? k = some x → x.value = some h → (f x).value = some h)
    (ht : ∀ x i, a.cells.get? k = some x → i ≠ c → x.turn = some i → x.value = none →
      (f x).turn = some i ∧ (f x).value = none) : Grows owner owner c a (a.setCell k f) where
  owner _ _ := rfl
  size := by
    exact Nat.le_of_eq (Registry.size_update a.cells k f).symm
  value k' h hk' := by
    rw [value?_setCell]
    split
    · next hk =>
      subst hk
      obtain ⟨x, hx, hxv⟩ := Option.bind_eq_some_iff.1 hk'
      rw [hx]
      exact hv x h hx hxv
    · exact hk'
  closed h := h
  turn i k' hi := by
    rintro ⟨x, hx, hturn, hnone⟩
    show ∃ y, (a.cells.update k f).get? k' = some y ∧ _
    rw [Registry.get?_update]
    by_cases hk : k = k'
    · subst hk
      rw [if_pos rfl, hx]
      exact ⟨f x, rfl, ht x i hx hi hturn hnone⟩
    · rw [if_neg hk]
      exact ⟨x, hx, hturn, hnone⟩

/-- Taking the turn at an empty cell, or getting in line. -/
theorem grows_enter (owner : CellId → String) (c : CallId) (a : Cache) (k : CellId) :
    Grows owner owner c a (a.setCell k fun x => (x.enter c).2) := by
  refine grows_setCell (fun x h _ hx => ?_) (fun x i _ _ ht hv => ?_)
  · unfold Cell.enter
    split <;> exact hx
  · unfold Cell.enter
    rw [ht]
    exact ⟨rfl, hv⟩

theorem value_enter (x : Cell) (c : CallId) : (x.enter c).2.value = x.value := by
  unfold Cell.enter
  split <;> rfl

theorem hasTurn_enter {a : Cache} {c : CallId} {k : CellId} {x : Cell} (hx : a.cells.get? k = some x)
    (hv : x.value = none) (ht : (x.enter c).1 = true) :
    (a.setCell k fun x => (x.enter c).2).HasTurn c k := by
  refine ⟨(x.enter c).2, ?_, ?_, (value_enter x c).trans hv⟩
  · show (a.cells.update k fun x => (x.enter c).2).get? k = _
    rw [Registry.get?_update, if_pos rfl, hx]
    rfl
  · unfold Cell.enter at ht ⊢
    split at ht
    · rfl
    · cases ht

/-- Filling a cell, by the call whose turn it is. -/
theorem grows_fill {owner : CellId → String} {c : CallId} {a : Cache} {k : CellId}
    (ht : a.HasTurn c k) (h : HandleId) :
    Grows owner owner c a (a.setCell k fun x => (x.fill h).1) := by
  obtain ⟨x, hx, hturn, hnone⟩ := ht
  refine grows_setCell (fun y h' hy hv => ?_) (fun y i hy hi hturn' _ => ?_)
  · cases hx.symm.trans hy
    rw [hnone] at hv
    cases hv
  · cases hx.symm.trans hy
    exact absurd (Option.some.inj (hturn'.symm.trans hturn)) hi

theorem value?_fill {a : Cache} {c : CallId} {k : CellId} (ht : a.HasTurn c k) (h : HandleId)
    (k' : CellId) :
    (a.setCell k fun x => (x.fill h).1).value? k' = if k = k' then some h else a.value? k' := by
  obtain ⟨x, hx, -⟩ := ht
  rw [value?_setCell]
  split
  · next hk =>
    subst hk
    rw [hx]
    rfl
  · rfl

/-- The map has no handle yet in a cell at which somebody has the turn. -/
theorem HasTurn.handle? {a : Cache} {c : CallId} {k : CellId} (ht : a.HasTurn c k) {t : String}
    (hk : a.current? t = some k) : a.handle? t = none := by
  obtain ⟨x, hx, -, hnone⟩ := ht
  unfold Cache.handle? value?
  rw [hk, Option.bind_some, hx]
  exact hnone

theorem handle?_fill {a : Cache} {c : CallId} {k : CellId} (ht : a.HasTurn c k) (h : HandleId)
    (t : String) :
    (a.setCell k fun x => (x.fill h).1).handle? t =
      if a.current? t = some k then some h else a.handle? t := by
  show (a.current? t).bind (a.setCell k _).value? = _
  cases hk : a.current? t with
  | none => simp [Cache.handle?, hk]
  | some k' =>
    rw [Option.bind_some, value?_fill ht]
    by_cases he : k = k'
    · rw [if_pos he, if_pos (congrArg some he.symm)]
    · rw [if_neg he, if_neg fun e => he (Option.some.inj e).symm]
      simp [Cache.handle?, hk]

theorem Stocked.fill {topic? : HandleId → Option String} {owner : CellId → String} {a : Cache}
    (hs : Stocked topic? owner a) {c : CallId} {k : CellId} (ht : a.HasTurn c k) {h : HandleId}
    (hh : topic? h = some (owner k)) :
    Stocked topic? owner (a.setCell k fun x => (x.fill h).1) := by
  intro k' h' hv
  rw [value?_fill ht] at hv
  split at hv
  · next hk =>
    cases hv
    rw [← hk]
    exact hh
  · exact hs k' h' hv

theorem Stocked.setCell_of_eq {topic? : HandleId → Option String} {owner : CellId → String}
    {a : Cache} (hs : Stocked topic? owner a) {k : CellId} {f : Cell → Cell}
    (hf : ∀ x, a.cells.get? k = some x → (f x).value = x.value) :
    Stocked topic? owner (a.setCell k f) := by
  intro k' h hv
  rw [value?_setCell_of_eq hf] at hv
  exact hs k' h hv

theorem value_pass (x : Cell) : x.pass.1.value = x.value := by
  unfold Cell.pass
  split <;> rfl

theorem value_leave (x : Cell) (c : CallId) : (x.leave c).1.value = x.value := by
  unfold Cell.leave
  split
  · exact value_pass x
  · rfl

/-- Passing the turn on, by the call whose turn it is. -/
theorem grows_pass {owner : CellId → String} {c : CallId} {a : Cache} {k : CellId}
    (ht : a.HasTurn c k) : Grows owner owner c a (a.setCell k fun x => x.pass.1) := by
  obtain ⟨x, hx, hturn, -⟩ := ht
  refine grows_setCell (fun y h' _ hv => (value_pass y).trans hv) (fun y i hy hi hturn' _ => ?_)
  cases hx.symm.trans hy
  exact absurd (Option.some.inj (hturn'.symm.trans hturn)) hi

/-- Leaving a cell takes nobody else's turn. -/
theorem grows_leave (owner : CellId → String) (c : CallId) (a : Cache) (k : CellId) :
    Grows owner owner c a (a.setCell k fun x => (x.leave c).1) := by
  refine grows_setCell (fun y h' _ hv => (value_leave y c).trans hv) (fun y i _ hi hturn hv => ?_)
  refine ⟨?_, (value_leave y c).trans hv⟩
  unfold Cell.leave
  rw [if_neg]
  · exact hturn
  · rw [hturn]
    exact fun e => hi (Option.some.inj e)

/-! ## 3. The operations -/

/-- A change by call `c` that leaves the cache in order. -/
structure Keeps (topic? : HandleId → Option String) (owner owner' : CellId → String) (c : CallId)
    (a b : Cache) : Prop where
  grows : Grows owner owner' c a b
  tidy : Tidy owner' b
  stocked : Stocked topic? owner' b

variable {topic? : HandleId → Option String} {owner owner' owner'' : CellId → String} {a b d : Cache}
  {c : CallId} {k : CellId}

theorem keeps_refl (ht : Tidy owner a) (hs : Stocked topic? owner a) (c : CallId) :
    Keeps topic? owner owner c a a :=
  ⟨grows_refl owner c a, ht, hs⟩

theorem Grows.trans (g : Grows owner owner' c a b) (g' : Grows owner' owner'' c b d) :
    Grows owner owner'' c a d where
  owner k hk := (g'.owner k (Nat.lt_of_lt_of_le hk g.size)).trans (g.owner k hk)
  size := Nat.le_trans g.size g'.size
  value k h hv := g'.value k h (g.value k h hv)
  closed h := g'.closed (g.closed h)
  turn i k hi ht := g'.turn i k hi (g.turn i k hi ht)

theorem Keeps.trans (k : Keeps topic? owner owner' c a b) (k' : Keeps topic? owner' owner'' c b d) :
    Keeps topic? owner owner'' c a d :=
  ⟨k.grows.trans k'.grows, k'.tidy, k'.stocked⟩

theorem keeps_cellFor {t : String} (ht : Tidy owner a) (hs : Stocked topic? owner a)
    (ho : a.closed = false) (h : a.CellFor t (b, k)) (c : CallId) :
    ∃ owner', Keeps topic? owner owner' c a b ∧ b.IsCell owner' t k := by
  cases h with
  | found hk => exact ⟨owner, keeps_refl ht hs c, ht.current? hk⟩
  | added =>
    exact ⟨_, ⟨grows_addCell owner c a t {}, ht.addCell ho t {}, hs.addCell t nofun⟩,
      isCell_addCell owner a t {}⟩

theorem keeps_enter (ht : Tidy owner a) (hs : Stocked topic? owner a) (c : CallId) (k : CellId) :
    Keeps topic? owner owner c a (a.setCell k fun x => (x.enter c).2) :=
  ⟨grows_enter owner c a k, ht.setCell k _, hs.setCell_of_eq fun x _ => value_enter x c⟩

theorem keeps_pass (ht : Tidy owner a) (hs : Stocked topic? owner a) (hturn : a.HasTurn c k) :
    Keeps topic? owner owner c a (a.setCell k fun x => x.pass.1) :=
  ⟨grows_pass hturn, ht.setCell k _, hs.setCell_of_eq fun x _ => value_pass x⟩

theorem keeps_leave (ht : Tidy owner a) (hs : Stocked topic? owner a) (c : CallId) (k : CellId) :
    Keeps topic? owner owner c a (a.setCell k fun x => (x.leave c).1) :=
  ⟨grows_leave owner c a k, ht.setCell k _, hs.setCell_of_eq fun x _ => value_leave x c⟩

theorem keeps_fill (ht : Tidy owner a) (hs : Stocked topic? owner a) (hturn : a.HasTurn c k)
    {h : HandleId} (hh : topic? h = some (owner k)) :
    Keeps topic? owner owner c a (a.setCell k fun x => (x.fill h).1) :=
  ⟨grows_fill hturn h, ht.setCell k _, hs.fill hturn hh⟩

/-- The map is emptied, and the cache closed perhaps. -/
theorem keeps_emptied (hs : Stocked topic? owner a) (hcells : b.cells = a.cells)
    (hempty : b.entries = []) (hclosed : a.closed = true → b.closed = true) (c : CallId) :
    Keeps topic? owner owner c a b where
  grows := grows_of_cells_eq hcells hclosed
  tidy := by
    refine ⟨?_, fun t k h => ?_, fun _ => hempty⟩
    · rw [hempty]
      exact List.nodup_nil
    · rw [hempty] at h
      cases h
  stocked := hs.of_cells_eq hcells

theorem keeps_place {t : String} {v : HandleId} {retiring : Bool} {p : Placement}
    (ht : Tidy owner a) (hs : Stocked topic? owner a) (hk : a.IsCell owner t k)
    (hv : a.value? k = some v) (hp : a.Placed retiring t k v (p, b)) (c : CallId) :
    ∃ owner', Keeps topic? owner owner' c a b := by
  cases hp with
  | closed | retired | kept | superseded => exact ⟨owner, keeps_refl ht hs c⟩
  | dropped ho _ _ =>
    refine ⟨owner, grows_of_cells_eq rfl fun h => h, ?_, hs.of_cells_eq rfl⟩
    refine ⟨Entries.nodup_erase t ht.nodup, fun t' k' he => ?_, fun hcl => ?_⟩
    · exact ht.entry t' k' (List.mem_filter.1 he).1
    · exact absurd (ho.symm.trans hcl) nofun
  | adopted ho _ _ _ =>
    refine ⟨_, grows_addCell owner c a t _, ht.addCell ho t _, hs.addCell t fun v' hv' => ?_⟩
    cases hv'
    exact hk.2 ▸ hs k v hv

end Cache

end TopicPublisher
