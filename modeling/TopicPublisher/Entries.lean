/-!
# Entries

A list of entries is a map: what is under a key is what the first entry of that key has. `put` leaves an
entry where one of its key was, and `putLast` moves it behind the others; the look-ups afterwards are the
same.

Results:
1. `find?_append`, `find?_erase`, `find?_putLast`, `find?_put_self`, `find?_put_of_ne`: look-ups.
2. `mem_of_find?`, `find?_of_mem`: look-ups and membership, where no key is there twice.
3. `nodup_erase`, `nodup_putLast`: no key comes to be there twice.
-/

namespace TopicPublisher.Entries

variable {α : Type}

/-- What is under a key. -/
def find? (key : String) : List (String × α) → Option α
  | [] => none
  | (k, x) :: rest => if k = key then some x else find? key rest

/-- Takes out what is under a key. -/
def erase (key : String) (entries : List (String × α)) : List (String × α) :=
  entries.filter fun e => e.1 ≠ key

/-- Puts an entry in place of one with the same key, or at the end. -/
def put (key : String) (x : α) : List (String × α) → List (String × α)
  | [] => [(key, x)]
  | (k, y) :: rest => if k = key then (k, x) :: rest else (k, y) :: put key x rest

/-- Puts an entry at the end, and takes out those with the same key. -/
def putLast (key : String) (x : α) (entries : List (String × α)) : List (String × α) :=
  erase key entries ++ [(key, x)]

variable {entries : List (String × α)} {key k : String} {x : α}

/-! ## 1. Looking up -/

theorem find?_append (entries entries' : List (String × α)) (key : String) :
    find? key (entries ++ entries') = (find? key entries).or (find? key entries') := by
  induction entries with
  | nil => rfl
  | cons e rest ih =>
    rw [List.cons_append, find?, find?, ih]
    split <;> rfl

theorem find?_erase (entries : List (String × α)) (key k : String) :
    find? k (erase key entries) = if k = key then none else find? k entries := by
  induction entries with
  | nil => simp [erase, find?]
  | cons e rest ih =>
    unfold erase at ih ⊢
    by_cases he : e.1 = key
    · rw [List.filter_cons_of_neg (by simp [he]), ih]
      split
      · rfl
      · next h => rw [find?, if_neg (he ▸ Ne.symm h)]
    · rw [List.filter_cons_of_pos (by simp [he]), find?, ih]
      by_cases h : e.1 = k
      · rw [if_pos h, if_neg (h ▸ he), find?, if_pos h]
      · rw [if_neg h, find?, if_neg h]

theorem find?_putLast (entries : List (String × α)) (key k : String) (x : α) :
    find? k (putLast key x entries) = if k = key then some x else find? k entries := by
  rw [putLast, find?_append, find?_erase]
  by_cases h : k = key
  · simp only [h, if_true, find?, Option.none_or]
  · simp only [h, Ne.symm h, if_false, find?, Option.or_none]

theorem find?_put_self (key : String) (x : α) (entries : List (String × α)) :
    find? key (put key x entries) = some x := by
  induction entries with
  | nil => simp [put, find?]
  | cons e rest ih => by_cases h : e.1 = key <;> simp [put, find?, h, ih]

theorem find?_put_of_ne (h : key ≠ k) (x : α) (entries : List (String × α)) :
    find? k (put key x entries) = find? k entries := by
  induction entries with
  | nil => simp [put, find?, h]
  | cons e rest ih =>
    by_cases he : e.1 = key
    · simp [put, find?, he, h]
    · simp [put, find?, he, ih]

/-! ## 2. Membership -/

theorem mem_of_find? (h : find? key entries = some x) : (key, x) ∈ entries := by
  induction entries with
  | nil => cases h
  | cons e rest ih =>
    rw [find?] at h
    split at h
    · next he =>
      cases h
      subst he
      exact List.mem_cons_self
    · exact List.mem_cons_of_mem _ (ih h)

theorem find?_of_mem (hn : (entries.map Prod.fst).Nodup) (h : (key, x) ∈ entries) :
    find? key entries = some x := by
  induction entries with
  | nil => cases h
  | cons e rest ih =>
    rw [List.map_cons, List.nodup_cons] at hn
    rw [find?]
    rcases List.mem_cons.1 h with he | h
    · rw [← he, if_pos rfl]
    · rw [if_neg, ih hn.2 h]
      intro he
      exact hn.1 (he ▸ List.mem_map_of_mem h)

theorem mem_putLast {e : String × α} (h : e ∈ putLast key x entries) : e = (key, x) ∨ e ∈ entries := by
  rcases List.mem_append.1 h with h | h
  · exact .inr (List.mem_filter.1 h).1
  · exact .inl (List.mem_singleton.1 h)

/-! ## 3. Keys -/

theorem nodup_erase (key : String) (hn : (entries.map Prod.fst).Nodup) :
    ((erase key entries).map Prod.fst).Nodup :=
  hn.sublist (List.filter_sublist.map _)

theorem nodup_putLast (key : String) (x : α) (hn : (entries.map Prod.fst).Nodup) :
    ((putLast key x entries).map Prod.fst).Nodup := by
  unfold putLast
  rw [List.map_append, List.nodup_append]
  refine ⟨nodup_erase key hn, by simp, ?_⟩
  rintro a ha b hb rfl
  obtain ⟨e, he, rfl⟩ := List.mem_map.1 ha
  have hne := (List.mem_filter.1 he).2
  simp [List.mem_singleton.1 hb] at hne

end TopicPublisher.Entries
