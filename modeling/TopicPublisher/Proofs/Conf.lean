import Mathlib.Data.List.Sort
import TopicPublisher.Message

/-!
# Values under keys

Entries that are sorted by key are the values under their keys and nothing else: the entries of some keys
can be looked up one after the other. What is under a key after a number of insertions is what the last one
for that key put there; insertions for other keys, and where they come in between, make no difference.

Results:
1. `Json.find?_insertEntry`, `Json.Sorted.find?_eq_some_iff`: looking up.
2. `Json.Sorted.filter_keys_eq`: the entries of some keys.
3. `Conf.get?_insertAll`, `MessageSpec.withEntries_eq`: a conf that was built entry by entry.
-/

namespace TopicPublisher

namespace Json

variable {α : Type} {entries : List (String × α)}

/-! ## 1. Looking up -/

theorem find?_insertEntry (key k : String) (x : α) (entries : List (String × α)) :
    Entries.find? k (insertEntry key x entries) =
      if key = k then some x else Entries.find? k entries := by
  induction entries with
  | nil => rfl
  | cons head rest ih =>
    obtain ⟨k', y⟩ := head
    unfold insertEntry
    split
    · rfl
    split
    · next heq =>
      subst heq
      simp only [Entries.find?]
      split <;> rfl
    · next hne =>
      simp only [Entries.find?, ih]
      -- The head is not the entry that is put in, so at most one of them is under `k`.
      split
      · next hhead => rw [if_neg (hhead ▸ hne)]
      · rfl

theorem Sorted.nodup (hs : Sorted entries) : (entries.map Prod.fst).Nodup := by
  refine List.pairwise_map.2 (List.Pairwise.imp ?_ hs)
  intro a b hlt heq
  rw [heq] at hlt
  exact String.lt_irrefl b.1 hlt

theorem Sorted.find?_eq_some_iff (hs : Sorted entries) {k : String} {x : α} :
    Entries.find? k entries = some x ↔ (k, x) ∈ entries :=
  ⟨Entries.mem_of_find?, Entries.find?_of_mem hs.nodup⟩

/-! ## 2. The entries of some keys -/

/-- The entries of some keys, for keys in ascending order, are what is found under one after the other. -/
theorem Sorted.filter_keys_eq (hs : Sorted entries) {keys : List String}
    (hkeys : keys.Pairwise (· < ·)) :
    entries.filter (·.1 ∈ keys) = keys.filterMap fun k => (Entries.find? k entries).map (k, ·) := by
  have hsorted : Sorted (keys.filterMap fun k => (Entries.find? k entries).map (k, ·)) := by
    refine List.pairwise_filterMap.2 (hkeys.imp fun hlt e he e' he' => ?_)
    obtain ⟨x, -, rfl⟩ := Option.map_eq_some_iff.1 he
    obtain ⟨x', -, rfl⟩ := Option.map_eq_some_iff.1 he'
    exact hlt
  have : Std.Irrefl fun a b : String × α => a.1 < b.1 := ⟨fun a => String.lt_irrefl a.1⟩
  have : Std.Antisymm fun a b : String × α => a.1 < b.1 :=
    ⟨fun _ _ h h' => absurd h (String.lt_asymm h')⟩
  refine List.Pairwise.eq_of_mem_iff (hs.filter _) hsorted fun e => ?_
  obtain ⟨k, x⟩ := e
  simp only [List.mem_filter, decide_eq_true_eq, List.mem_filterMap, Option.map_eq_some_iff,
    Prod.mk.injEq, hs.find?_eq_some_iff]
  constructor
  · exact fun ⟨hx, hk⟩ => ⟨k, hk, x, hx, rfl, rfl⟩
  · rintro ⟨_, hk, _, hx, rfl, rfl⟩
    exact ⟨hx, hk⟩

end Json

/-! ## 3. Building -/

namespace Conf

/-- Puts entries in, one after the other. -/
def insertAll (c : Conf) (entries : List (String × Json)) : Conf :=
  entries.foldl (fun c e => c.insert e.1 e.2) c

theorem get?_insert (c : Conf) (key k : String) (x : Json) :
    (c.insert key x).get? k = if key = k then some x else c.get? k :=
  Json.find?_insertEntry key k x c.entries

/-- Under a key is what the last entry for it says, or what was there where there is none. -/
theorem get?_insertAll (c : Conf) (entries : List (String × Json)) (k : String) :
    (c.insertAll entries).get? k =
      ((entries.filter (·.1 = k)).getLast?.map Prod.snd).or (c.get? k) := by
  induction entries generalizing c with
  | nil => rfl
  | cons e entries ih =>
    have hfirst : c.insertAll (e :: entries) = (c.insert e.1 e.2).insertAll entries := rfl
    rw [hfirst, ih, get?_insert, List.filter_cons]
    split
    · next heq =>
      rw [if_pos (decide_eq_true heq), List.getLast?_cons]
      cases (entries.filter (·.1 = k)).getLast? <;> rfl
    · next hne => rw [if_neg (by simpa using hne)]

end Conf

namespace MessageSpec

/-- Puts entries into the conf of a spec, one after the other. -/
def withEntries (spec : MessageSpec) (entries : List (String × Json)) : MessageSpec :=
  entries.foldl (fun s e => s.withConfEntry e.1 e.2) spec

theorem withEntries_eq (spec : MessageSpec) (entries : List (String × Json)) :
    spec.withEntries entries = { spec with conf := spec.conf.insertAll entries } := by
  induction entries generalizing spec with
  | nil => rfl
  | cons e entries ih => exact ih (spec.withConfEntry e.1 e.2)

end MessageSpec

end TopicPublisher
