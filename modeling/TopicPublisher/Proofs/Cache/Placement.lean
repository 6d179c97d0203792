import TopicPublisher.Proofs.Cache.Map

/-!
# What a placement settles

A handle is placed when its cell has been filled. By then the map may have the cell still, or none for
the topic, or another one: filled already, or with a creation of its own in flight. Whatever it has,
the topic is settled on one handle, and the call whose creation was placed is given that one.

Whether a handle is retiring is a function `flag` here. A map may have a handle that is retiring for
the cell that is placed, no other one: a handle is out of the map before it retires.

Results:
1. `Placed.get?_cell`, `Placed.current?_of_ne`, `Placed.handle?_of_ne`: a placement changes no cell, and
   the map for its topic only.
2. `Placed.settled`, `Placed.unmapped`: what the map has for the topic, of a handle that is not retiring
   and of one that is.
3. `place_settles`: all of it, for any state of the cache.
-/

namespace TopicPublisher

/-! ## Definitions -/

/-- The handle that a call goes on with whose creation was placed; a closed cache gives none. -/
def Placement.given? : Placement → Option HandleId
  | .cached h | .retired h => some h
  | .superseded winner _ => some winner
  | .closed _ => none

namespace Cache

section

variable {c b : Cache} {retiring : Bool} {t t' : String} {k : CellId} {h : HandleId} {p : Placement}

/-! ## 1. What stays as it was -/

theorem Placed.get?_cell (hp : Placed c retiring t k h (p, b)) {j : CellId}
    (hj : j < c.cells.size) : b.cells.get? j = c.cells.get? j := by
  cases hp with
  | closed | dropped | retired | kept | superseded => rfl
  | adopted =>
    show (c.cells.add _).get? j = _
    rw [Registry.get?_add, if_neg (Nat.ne_of_lt hj)]

theorem Placed.current?_of_ne (hp : Placed c retiring t k h (p, b)) (ht : t' ≠ t) :
    b.current? t' = c.current? t' := by
  cases hp with
  | closed | retired | kept | superseded => rfl
  | dropped => exact (Entries.find?_erase c.entries t t').trans (if_neg ht)
  | adopted => exact (current?_addCell c t t' _).trans (if_neg ht)

/-- The other topics keep their cells, and so their handles. -/
theorem Placed.handle?_of_ne (hp : Placed c retiring t k h (p, b))
    (hcells : ∀ t j, c.current? t = some j → j < c.cells.size) (ht : t' ≠ t) :
    b.handle? t' = c.handle? t' := by
  unfold handle?
  rw [hp.current?_of_ne ht]
  cases hj : c.current? t' with
  | none => rfl
  | some j =>
    rw [Option.bind_some, Option.bind_some, value?, value?, hp.get?_cell (hcells t' j hj)]

/-! ## 2. What the topic is settled on -/

/-- A handle that is not retiring gets into the map, or it is already there, or another one is. -/
theorem Placed.settled (hp : Placed c retiring t k h (p, b)) (hk : c.value? k = some h)
    (ho : c.closed = false) (hr : retiring = false) :
    (p = .cached h ∧ b.handle? t = some h ∧ (c.handle? t = none ∨ c.handle? t = some h)) ∨
    ∃ winner, p = .superseded winner h ∧ winner ≠ h ∧ b.handle? t = some winner ∧
      c.handle? t = some winner := by
  cases hp with
  | closed hc => cases ho.symm.trans hc
  | dropped _ hr' _ | retired _ hr' _ => cases hr.symm.trans hr'
  | kept _ _ hkept =>
    have hh : c.handle? t = some h := by
      rcases hkept with hcur | hh
      · exact handle?_eq_some_iff.2 ⟨k, hcur, hk⟩
      · exact hh
    exact .inl ⟨rfl, hh, .inr hh⟩
  | adopted _ _ _ hnone =>
    refine .inl ⟨rfl, handle?_eq_some_iff.2 ⟨c.cells.size, ?_, ?_⟩, .inl hnone⟩
    · rw [current?_addCell, if_pos rfl]
    · rw [value?_addCell, if_pos rfl]
  | superseded _ _ _ hw hne => exact .inr ⟨_, rfl, hne, hw, hw⟩

/-- A handle that is retiring leaves the map with its cell, and no other handle does. -/
theorem Placed.unmapped (hp : Placed c retiring t k h (p, b)) (hk : c.value? k = some h)
    (hr : retiring = true) (hempty : c.closed = true → c.entries = [])
    (hown : ∀ j, c.current? t = some j → c.value? j = some h → j = k) :
    b.handle? t ≠ some h ∧ ∀ g, g ≠ h → c.handle? t = some g → b.handle? t = some g := by
  cases hp with
  | closed hc =>
    refine ⟨?_, fun _ _ hg => hg⟩
    simp [handle?, current?, hempty hc, Entries.find?]
  | dropped _ _ hcur =>
    constructor
    · simp [handle?, current?, Entries.find?_erase]
    · -- The cell that leaves the map has this handle and no other.
      intro g hne hg
      obtain ⟨j, hj, hgv⟩ := handle?_eq_some_iff.1 hg
      cases hcur.symm.trans hj
      exact absurd (Option.some.inj (hgv.symm.trans hk)) hne
  | retired _ _ hcur =>
    refine ⟨fun hh => ?_, fun _ _ hg => hg⟩
    obtain ⟨j, hj, hv⟩ := handle?_eq_some_iff.1 hh
    exact hcur (hown j hj hv ▸ hj)
  | kept _ hr' | adopted _ hr' | superseded _ hr' => cases hr'.symm.trans hr

end

/-! ## 3. Placement -/

/-- The map of a cache has cells of the cache, cell `k` is filled with handle `h`, and of the handles in
the map none is retiring, the one in cell `k` aside; the cell may be in the map or not. Then the topic
that `h` is placed for is settled:
* With the cache open and `h` not retiring, the map has for the topic the handle that the call is given:
  `h` itself, or the winner if `h` was superseded, and then `h` is another one and is not in the map. A
  handle that was in the map for the topic stays there.
* If `h` is retiring, it is not in the map for the topic, and no other handle left the map. (The map
  of a closed cache is empty.)
* A closed cache stays as it is, and says so.
* The other topics have the cells they had, and no cell has changed. -/
theorem place_settles {c b : Cache} {flag : HandleId → Bool} {t : String} {k : CellId} {h : HandleId}
    {p : Placement} (hcells : ∀ t j, c.current? t = some j → j < c.cells.size)
    (hk : c.value? k = some h)
    (hclean : ∀ t j g, c.current? t = some j → j ≠ k → c.value? j = some g → flag g = false)
    (hp : c.place (flag h) t k h = (p, b)) :
    (c.closed = false → flag h = false →
      (∃ g, p.given? = some g ∧ b.handle? t = some g ∧
        (p = .cached h ∧ g = h ∨ p = .superseded g h ∧ g ≠ h ∧ b.handle? t ≠ some h)) ∧
      ∀ g, c.handle? t = some g → b.handle? t = some g) ∧
    (flag h = true → (c.closed = true → c.entries = []) →
      b.handle? t ≠ some h ∧
      ∀ t' g, g ≠ h → c.handle? t' = some g → b.handle? t' = some g) ∧
    (c.closed = true → b = c ∧ p = .closed h) ∧
    ((∀ t', t' ≠ t → b.current? t' = c.current? t' ∧ b.handle? t' = c.handle? t') ∧
      ∀ j, j < c.cells.size → b.cells.get? j = c.cells.get? j) := by
  have hplaced : Placed c (flag h) t k h (p, b) := hp ▸ place_placed c (flag h) t k h
  refine ⟨?_, ?_, ?_, fun t' ht => ⟨hplaced.current?_of_ne ht, hplaced.handle?_of_ne hcells ht⟩,
    fun j hj => hplaced.get?_cell hj⟩
  · intro ho hr
    rcases hplaced.settled hk ho hr with ⟨rfl, hb, hbefore⟩ | ⟨w, rfl, hne, hb, hbefore⟩
    · refine ⟨⟨h, rfl, hb, .inl ⟨rfl, rfl⟩⟩, fun g hg => ?_⟩
      rcases hbefore with hnone | hh
      · exact nomatch hnone.symm.trans hg
      · exact hb.trans (hh.symm.trans hg)
    · refine ⟨⟨w, rfl, hb, .inr ⟨rfl, hne, ?_⟩⟩, fun g hg => hb.trans (hbefore.symm.trans hg)⟩
      rw [hb]
      exact fun e => hne (Option.some.inj e)
  · intro hr hempty
    have hown : ∀ j, c.current? t = some j → c.value? j = some h → j = k := by
      intro j hj hv
      refine Decidable.byContradiction fun hne => ?_
      exact nomatch hr.symm.trans (hclean t j h hj hne hv)
    obtain ⟨hout, hothers⟩ := hplaced.unmapped hk hr hempty hown
    refine ⟨hout, fun t' g hne hg => ?_⟩
    by_cases ht : t' = t
    · subst ht
      exact hothers g hne hg
    · exact (hplaced.handle?_of_ne hcells ht).trans hg
  · intro hc
    cases hplaced with
    | closed => exact ⟨rfl, rfl⟩
    | dropped ho | retired ho | kept ho | adopted ho | superseded ho => exact nomatch ho.symm.trans hc

/-- A cell of a topic that was reset while its handle was being created: the map has another cell for
the topic by now, whose turn is call 7's, and a cell of another topic. -/
def acrossReset : Cache where
  entries := [("orders", 1), ("bills", 2)]
  cells := ((Registry.empty.add { value := some 0 }).add { turn := some 7 }).add { value := some 1 }

/-- The handle takes the place of the creation in flight, and the other topic keeps its own. -/
theorem place_settles_across_reset :
    ∃ p b, acrossReset.place false "orders" 0 0 = (p, b) ∧ p.given? = some 0 ∧
      b.handle? "orders" = some 0 ∧ b.handle? "bills" = some 1 := by
  have hcells : ∀ t j, acrossReset.current? t = some j → j < acrossReset.cells.size := by
    intro t j hj
    have hmem := Entries.mem_of_find? hj
    simp only [acrossReset, List.mem_cons, Prod.mk.injEq, List.not_mem_nil, or_false] at hmem
    rcases hmem with ⟨-, rfl⟩ | ⟨-, rfl⟩ <;> decide
  have h := @place_settles acrossReset _ (fun _ => false) "orders" 0 0 _ hcells rfl
    (fun _ _ _ _ _ _ => rfl) rfl
  obtain ⟨⟨g, hgiven, hb, -⟩, -⟩ := h.1 rfl rfl
  cases hgiven
  exact ⟨_, _, rfl, rfl, hb, (h.2.2.2.1 "bills" (by decide)).2.trans rfl⟩

end Cache

end TopicPublisher
