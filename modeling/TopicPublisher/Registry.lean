/-!
# Registries

Entries under numbers. An entry gets the next number when it is added and keeps it, and no entry is
ever removed. `get?_add` and `get?_update` say all there is to say about the two operations.
-/

namespace TopicPublisher

/-- Entries under the numbers `0`, `1`, `2`, … in the order they were added. -/
structure Registry (α : Type) where
  items : Array α
  deriving Repr

namespace Registry

variable {α : Type}

def empty : Registry α := ⟨#[]⟩

instance : Inhabited (Registry α) := ⟨empty⟩

/-- How many entries there are; the number of the next one. -/
def size (r : Registry α) : Nat := r.items.size

def get? (r : Registry α) (i : Nat) : Option α := r.items[i]?

def add (r : Registry α) (x : α) : Registry α := ⟨r.items.push x⟩

/-- Changes one entry, if there is one of that number. -/
def update (r : Registry α) (i : Nat) (f : α → α) : Registry α := ⟨r.items.modify i f⟩

def toList (r : Registry α) : List α := r.items.toList

@[simp] theorem size_empty : (empty : Registry α).size = 0 := rfl

@[simp] theorem get?_empty (i : Nat) : (empty : Registry α).get? i = none := by simp [empty, get?]

@[simp] theorem size_add (r : Registry α) (x : α) : (r.add x).size = r.size + 1 := by
  simp [add, size]

@[simp] theorem size_update (r : Registry α) (i : Nat) (f : α → α) :
    (r.update i f).size = r.size := by
  simp [update, size]

theorem get?_add (r : Registry α) (x : α) (i : Nat) :
    (r.add x).get? i = if i = r.size then some x else r.get? i := by
  unfold add get? size
  rw [Array.getElem?_push]

theorem get?_update (r : Registry α) (i j : Nat) (f : α → α) :
    (r.update i f).get? j = if i = j then (r.get? j).map f else r.get? j := by
  simp only [update, get?, Array.getElem?_modify]

theorem get?_eq_none_iff (r : Registry α) (i : Nat) : r.get? i = none ↔ r.size ≤ i := by
  simp [get?, size]

theorem lt_size_of_get? {r : Registry α} {i : Nat} {x : α} (h : r.get? i = some x) :
    i < r.size := by
  rcases Nat.lt_or_ge i r.size with hi | hi
  · exact hi
  · rw [(get?_eq_none_iff r i).2 hi] at h
    cases h

end Registry

end TopicPublisher
