import TopicPublisher.Factory.Cache

/-!
# The map of the cache

What the operations on the cache do, seen through two views: `Cache.handle?`, the handle that the map
has for a topic, and `Cache.value?`, the handle in a cell. A cell serves one topic all its life, in the
map or out of it; `Tidy owner` says so of the cells in the map, where `owner` gives each cell its topic.

Results:
1. `mem_handles`, `Tidy.mem_handles_iff`: the handles in the map.
2. `cellFor_spec`, `CellFor.handle?`: a look-up adds at most an empty cell of its topic.
3. `place_placed`: the six things that can become of a handle when it is placed, and what each of them
   does to the map.
-/

namespace TopicPublisher

namespace Cache

/-! ## 1. The map -/

theorem mem_handles {c : Cache} {h : HandleId} :
    h ∈ c.handles ↔ ∃ t k, (t, k) ∈ c.entries ∧ c.value? k = some h := by
  unfold handles
  rw [List.mem_filterMap]
  constructor
  · rintro ⟨⟨t, k⟩, he, hv⟩
    exact ⟨t, k, he, hv⟩
  · rintro ⟨t, k, he, hv⟩
    exact ⟨(t, k), he, hv⟩

theorem handle?_eq_some_iff {c : Cache} {t : String} {h : HandleId} :
    c.handle? t = some h ↔ ∃ k, c.current? t = some k ∧ c.value? k = some h := by
  unfold handle?
  exact Option.bind_eq_some_iff

/-- A map in order: no topic has two cells, each cell in it is one of its topic, and the map of a
closed cache is empty. -/
structure Tidy (owner : CellId → String) (c : Cache) : Prop where
  nodup : (c.entries.map Prod.fst).Nodup
  entry : ∀ t k, (t, k) ∈ c.entries → k < c.cells.size ∧ owner k = t
  closed : c.closed = true → c.entries = []

theorem tidy_empty (owner : CellId → String) : Tidy owner {} where
  nodup := List.nodup_nil
  entry _ _ h := by cases h
  closed _ := rfl

theorem Tidy.current? {owner : CellId → String} {c : Cache} (hc : Tidy owner c) {t : String}
    {k : CellId} (h : c.current? t = some k) : k < c.cells.size ∧ owner k = t :=
  hc.entry t k (Entries.mem_of_find? h)

/-- The map of a closed cache is empty. -/
theorem Tidy.handle?_of_closed {owner : CellId → String} {c : Cache} (hc : Tidy owner c)
    (hcl : c.closed = true) (t : String) : c.handle? t = none := by
  simp [Cache.handle?, Cache.current?, hc.closed hcl, Entries.find?]

/-- The handles in the map are those that it has for a topic. -/
theorem Tidy.mem_handles_iff {owner : CellId → String} {c : Cache} (hc : Tidy owner c)
    {h : HandleId} : h ∈ c.handles ↔ ∃ t, c.handle? t = some h := by
  rw [mem_handles]
  constructor
  · rintro ⟨t, k, he, hv⟩
    exact ⟨t, handle?_eq_some_iff.2 ⟨k, Entries.find?_of_mem hc.nodup he, hv⟩⟩
  · rintro ⟨t, ht⟩
    obtain ⟨k, hk, hv⟩ := handle?_eq_some_iff.1 ht
    exact ⟨t, k, Entries.mem_of_find? hk, hv⟩

theorem mem_handles_of_handle? {c : Cache} {t : String} {h : HandleId} (ht : c.handle? t = some h) :
    h ∈ c.handles := by
  obtain ⟨k, hk, hv⟩ := handle?_eq_some_iff.1 ht
  exact mem_handles.2 ⟨t, k, Entries.mem_of_find? hk, hv⟩

theorem value?_lt {c : Cache} {k : CellId} {h : HandleId} (hv : c.value? k = some h) :
    k < c.cells.size := by
  obtain ⟨x, hx, -⟩ := Option.bind_eq_some_iff.1 hv
  exact Registry.lt_size_of_get? hx

/-- The owners once a cell of a topic is added. -/
def ownerAfter (owner : CellId → String) (c : Cache) (t : String) : CellId → String :=
  fun k => if k = c.cells.size then t else owner k

theorem ownerAfter_of_lt {owner : CellId → String} {c : Cache} {t : String} {k : CellId}
    (h : k < c.cells.size) : ownerAfter owner c t k = owner k :=
  if_neg (Nat.ne_of_lt h)

theorem ownerAfter_size (owner : CellId → String) (c : Cache) (t : String) :
    ownerAfter owner c t c.cells.size = t := if_pos rfl

/-! ## 2. Cells -/

/-- Puts a topic into the map under a new cell. -/
def addCell (c : Cache) (t : String) (x : Cell) : Cache :=
  { c with entries := Entries.putLast t c.cells.size c.entries, cells := c.cells.add x }

theorem value?_addCell (c : Cache) (t : String) (x : Cell) (k : CellId) :
    (c.addCell t x).value? k = if k = c.cells.size then x.value else c.value? k := by
  unfold value? addCell
  rw [Registry.get?_add]
  split <;> rfl

theorem current?_addCell (c : Cache) (t t' : String) (x : Cell) :
    (c.addCell t x).current? t' = if t' = t then some c.cells.size else c.current? t' :=
  Entries.find?_putLast c.entries t t' c.cells.size

theorem Tidy.addCell {owner : CellId → String} {c : Cache} (hc : Tidy owner c)
    (ho : c.closed = false) (t : String) (x : Cell) :
    Tidy (ownerAfter owner c t) (c.addCell t x) where
  nodup := Entries.nodup_putLast t _ hc.nodup
  entry t' k h := by
    show k < (c.cells.add x).size ∧ _
    rw [Registry.size_add]
    rcases Entries.mem_putLast h with h | h
    · cases h
      exact ⟨Nat.lt_succ_self _, ownerAfter_size owner c t⟩
    · have := hc.entry t' k h
      exact ⟨Nat.lt_succ_of_lt this.1, (ownerAfter_of_lt this.1).trans this.2⟩
  closed h := by
    have h : c.closed = true := h
    rw [ho] at h
    cases h

/-- The map has the same handle as before for every other topic than the one that was added. -/
theorem handle?_addCell {owner : CellId → String} {c : Cache} (hc : Tidy owner c) (t t' : String)
    (x : Cell) : (c.addCell t x).handle? t' = if t' = t then x.value else c.handle? t' := by
  unfold handle?
  rw [current?_addCell]
  by_cases ht : t' = t
  · rw [if_pos ht, if_pos ht, Option.bind_some, value?_addCell, if_pos rfl]
  · rw [if_neg ht, if_neg ht]
    cases hk : c.current? t' with
    | none => rfl
    | some k =>
      have := (hc.current? hk).1
      rw [Option.bind_some, Option.bind_some, value?_addCell, if_neg (Nat.ne_of_lt this)]

/-- What a look-up of a topic does to the cache: it finds the topic's cell or adds one. -/
inductive CellFor (c : Cache) (t : String) : Cache × CellId → Prop
  | found {k : CellId} : c.current? t = some k → CellFor c t (c, k)
  | added : c.current? t = none → CellFor c t (c.addCell t {}, c.cells.size)

theorem cellFor_spec (c : Cache) (t : String) : CellFor c t (c.cellFor t) := by
  unfold cellFor
  cases h : c.current? t with
  | some k => exact .found h
  | none => exact .added h

theorem CellFor.eq {c : Cache} {t : String} {x : Cache × CellId} (h : CellFor c t x) :
    c.cellFor t = x := by
  cases h with
  | found hk => simp only [cellFor, hk]
  | added hnone => simp only [cellFor, hnone, addCell]

/-- After a look-up the map has the cell that it gave. -/
theorem CellFor.current? {c : Cache} {t : String} {x : Cache × CellId} (h : CellFor c t x) :
    x.1.current? t = some x.2 := by
  cases h with
  | found hk => exact hk
  | added => exact (current?_addCell c t t {}).trans (if_pos rfl)

/-- A look-up changes no topic's handle. -/
theorem CellFor.handle? {owner : CellId → String} {c : Cache} (hc : Tidy owner c) {t : String}
    {b : Cache} {k : CellId} (h : CellFor c t (b, k)) (t' : String) : b.handle? t' = c.handle? t' := by
  cases h with
  | found => rfl
  | added hnone =>
    rw [handle?_addCell hc]
    split
    · next ht =>
      subst ht
      unfold Cache.handle?
      rw [hnone]
      rfl
    · rfl

/-! ## 3. Placement -/

theorem CellFor.closed_eq {c : Cache} {t : String} {b : Cache} {k : CellId} (h : CellFor c t (b, k)) :
    b.closed = c.closed := by
  cases h <;> rfl

/-- What becomes of handle `h` of cell `k` when it is placed for topic `t`, and of the cache.

* `dropped`: the map still had the handle's cell, which leaves it.
* `kept`: the map had the handle's cell, or another one with the handle in it.
* `adopted`: the map had no handle for the topic. -/
inductive Placed (c : Cache) (retiring : Bool) (t : String) (k : CellId) (h : HandleId) :
    Placement × Cache → Prop
  | closed : c.closed = true → Placed c retiring t k h (.closed h, c)
  | dropped : c.closed = false → retiring = true → c.current? t = some k →
      Placed c retiring t k h (.retired h, { c with entries := Entries.erase t c.entries })
  | retired : c.closed = false → retiring = true → c.current? t ≠ some k →
      Placed c retiring t k h (.retired h, c)
  | kept : c.closed = false → retiring = false → c.current? t = some k ∨ c.handle? t = some h →
      Placed c retiring t k h (.cached h, c)
  | adopted : c.closed = false → retiring = false → c.current? t ≠ some k → c.handle? t = none →
      Placed c retiring t k h (.cached h, c.addCell t { value := some h })
  | superseded {other : HandleId} : c.closed = false → retiring = false → c.current? t ≠ some k →
      c.handle? t = some other → other ≠ h → Placed c retiring t k h (.superseded other h, c)

theorem place_placed (c : Cache) (retiring : Bool) (t : String) (k : CellId) (h : HandleId) :
    Placed c retiring t k h (c.place retiring t k h) := by
  unfold place
  by_cases hc : c.closed = true
  · rw [if_pos hc]
    exact .closed hc
  · have ho : c.closed = false := by simpa using hc
    rw [if_neg hc]
    by_cases hr : retiring = true
    · rw [if_pos hr]
      by_cases hk : c.current? t = some k
      · rw [if_pos hk]
        exact .dropped ho hr hk
      · rw [if_neg hk]
        exact .retired ho hr hk
    · have hr' : retiring = false := by simpa using hr
      rw [if_neg hr]
      cases hn : c.current? t with
      | none =>
        have hnone : c.handle? t = none := by simp [handle?, hn]
        exact .adopted ho hr' (by simp [hn]) hnone
      | some now =>
        have hh : c.handle? t = c.value? now := by simp [handle?, hn]
        dsimp only
        by_cases hk : now = k
        · rw [if_pos hk]
          exact .kept ho hr' (.inl (hk ▸ hn))
        · have hne : c.current? t ≠ some k := by
            rw [hn]
            exact fun e => hk (Option.some.inj e)
          rw [if_neg hk]
          cases hv : c.value? now with
          | none => exact .adopted ho hr' hne (hh.trans hv)
          | some other =>
            dsimp only
            by_cases he : other = h
            · rw [if_pos he]
              exact .kept ho hr' (.inr (he ▸ hh.trans hv))
            · rw [if_neg he]
              exact .superseded ho hr' hne (hh.trans hv) he

/-- A handle stays in its cell where the map has that one. -/
theorem place_own {c : Cache} {t : String} {k : CellId} (ho : c.closed = false)
    (hk : c.current? t = some k) (h : HandleId) : c.place false t k h = (.cached h, c) := by
  simp [place, ho, hk]

/-- No placement opens or closes the cache. -/
theorem closed_of_place {c : Cache} {retiring : Bool} {t : String} {k : CellId} {h : HandleId}
    {p : Placement} {b : Cache} (hp : c.place retiring t k h = (p, b)) : b.closed = c.closed := by
  have hplaced := place_placed c retiring t k h
  rw [hp] at hplaced
  cases hplaced <;> rfl

end Cache

end TopicPublisher
