import TopicPublisher.Registry

/-!
# Counting in registries

How many entries of a registry satisfy a condition, and how the number changes when an entry is added
or changed. Accounts are kept this way: each of the things that are counted is an entry.

* `count_add`, `count_update`: what the two operations do to the number.
* `count_eq_add`: entries counted in two parts.
* `count_pos_of_get?`, `exists_get?_of_count_pos`, `eq_of_count_le_one`: what the number says about the
  entries.
-/

namespace TopicPublisher

namespace Registry

variable {α : Type}

/-- How many entries satisfy a condition. -/
def count (r : Registry α) (p : α → Bool) : Nat := r.toList.countP p

@[simp] theorem count_empty (p : α → Bool) : (empty : Registry α).count p = 0 := rfl

/-- What an entry is after another one, or itself, was set. -/
theorem get?_update_const {r : Registry α} {i j : Nat} {x y : α}
    (h : (r.update i fun _ => x).get? j = some y) : (i = j ∧ y = x) ∨ (i ≠ j ∧ r.get? j = some y) := by
  rw [get?_update] at h
  split at h
  · next hij =>
    cases hj : r.get? j with
    | none => simp [hj] at h
    | some z =>
      rw [hj] at h
      exact .inl ⟨hij, (Option.some.inj h).symm⟩
  · next hij => exact .inr ⟨hij, h⟩

theorem exists_get?_of_lt {r : Registry α} {i : Nat} (h : i < r.size) : ∃ x, r.get? i = some x :=
  Option.ne_none_iff_exists'.1 fun hnone => Nat.not_le.2 h ((get?_eq_none_iff r i).1 hnone)

/-- An entry that is there can be changed or set. -/
theorem update_const_eq {r : Registry α} {i : Nat} {x : α} (h : r.get? i = some x) (f : α → α) :
    (r.update i fun _ => f x) = r.update i f := by
  unfold get? at h
  unfold update
  congr 1
  refine Array.ext_getElem? fun j => ?_
  rw [Array.getElem?_modify, Array.getElem?_modify]
  split
  · next hij =>
    subst hij
    rw [h]
    rfl
  · rfl

/-- No entry, no change. -/
theorem update_eq_self {r : Registry α} {i : Nat} (h : r.get? i = none) (f : α → α) :
    r.update i f = r := by
  unfold get? at h
  unfold update
  congr 1
  refine Array.ext_getElem? fun j => ?_
  rw [Array.getElem?_modify]
  split
  · next hij =>
    subst hij
    rw [h]
    rfl
  · rfl

theorem getElem?_toList (r : Registry α) (i : Nat) : r.toList[i]? = r.get? i := by
  simp [toList, get?]

theorem toList_update (r : Registry α) (i : Nat) (f : α → α) :
    (r.update i f).toList = r.toList.modify i f := by
  simp [toList, update]

theorem count_add (r : Registry α) (x : α) (p : α → Bool) :
    (r.add x).count p = r.count p + if p x then 1 else 0 := by
  simp [count, toList, add, List.countP_singleton]

/-- A changed entry counts as what it is now in place of what it was. -/
theorem count_update {r : Registry α} {i : Nat} {x : α} (h : r.get? i = some x) (f : α → α)
    (p : α → Bool) :
    (r.update i f).count p + (if p x then 1 else 0) = r.count p + if p (f x) then 1 else 0 := by
  rw [← getElem?_toList] at h
  unfold count
  rw [toList_update]
  generalize r.toList = l at h
  induction l generalizing i with
  | nil => simp at h
  | cons y l ih =>
    cases i with
    | zero =>
      simp only [List.getElem?_cons_zero, Option.some.injEq] at h
      subst h
      simp only [List.modify_zero_cons, List.countP_cons]
      omega
    | succ i =>
      have := ih (i := i) (by simpa using h)
      simp only [List.modify_succ_cons, List.countP_cons]
      omega

/-- Entries that satisfy one of two conditions that exclude each other. -/
theorem count_eq_add (r : Registry α) {p q₁ q₂ : α → Bool}
    (h : ∀ x, (p x).toNat = (q₁ x).toNat + (q₂ x).toNat) : r.count p = r.count q₁ + r.count q₂ := by
  have hite : ∀ b : Bool, (if b = true then 1 else 0) = b.toNat := by decide
  unfold count
  induction r.toList with
  | nil => rfl
  | cons x l ih =>
    rw [List.countP_cons, List.countP_cons, List.countP_cons, ih, hite, hite, hite, h x]
    omega

theorem count_pos_of_get? {r : Registry α} {p : α → Bool} {i : Nat} {x : α}
    (h : r.get? i = some x) (hp : p x = true) : 0 < r.count p := by
  rw [← getElem?_toList] at h
  exact List.countP_pos_iff.2 ⟨x, List.mem_of_getElem? h, hp⟩

theorem exists_get?_of_count_pos {r : Registry α} {p : α → Bool} (h : 0 < r.count p) :
    ∃ i x, r.get? i = some x ∧ p x = true := by
  obtain ⟨x, hx, hp⟩ := List.countP_pos_iff.1 h
  obtain ⟨i, hi⟩ := List.getElem?_of_mem hx
  exact ⟨i, x, (getElem?_toList r i).symm.trans hi, hp⟩

/-- Where at most one entry satisfies a condition, two that do are the same. -/
theorem eq_of_count_le_one {r : Registry α} {p : α → Bool} (h : r.count p ≤ 1) {i j : Nat} {x y : α}
    (hi : r.get? i = some x) (hx : p x = true) (hj : r.get? j = some y) (hy : p y = true) :
    i = j := by
  rw [← getElem?_toList] at hi hj
  unfold count at h
  generalize r.toList = l at h hi hj
  induction l generalizing i j with
  | nil => simp at hi
  | cons z l ih =>
    rw [List.countP_cons] at h
    cases i with
    | zero =>
      cases j with
      | zero => rfl
      | succ j =>
        simp only [List.getElem?_cons_zero, Option.some.injEq] at hi
        have : 0 < l.countP p :=
          List.countP_pos_iff.2 ⟨y, List.mem_of_getElem? (by simpa using hj), hy⟩
        rw [hi, if_pos hx] at h
        omega
    | succ i =>
      cases j with
      | zero =>
        simp only [List.getElem?_cons_zero, Option.some.injEq] at hj
        have : 0 < l.countP p :=
          List.countP_pos_iff.2 ⟨x, List.mem_of_getElem? (by simpa using hi), hx⟩
        rw [hj, if_pos hy] at h
        omega
      | succ j =>
        exact congrArg Nat.succ (ih (by omega) (by simpa using hi) (by simpa using hj))

end Registry

end TopicPublisher
