import TopicPublisher.Schema
import TopicPublisher.Text.Utf8

/-!
# Messages

A `MessageSpec` is all that a producer needs for one message: the payload, a schema in place of the
producer's own, and a `Conf` of JSON values under keys. A `Conf` is sorted by key, so its entries
are visited in the same order however it was built (`Conf.insert` keeps the order, in the type).

`OutboundMessage` adds the topic, as the sender spelled it.
-/

namespace TopicPublisher

namespace Json

/-- Keys in strictly ascending order. -/
def Sorted {α : Type} (entries : List (String × α)) : Prop :=
  entries.Pairwise fun a b => a.1 < b.1

theorem lt_of_not_lt_of_ne {a b : String} (h : ¬ a < b) (hne : a ≠ b) : b < a := by
  rcases Decidable.em (b < a) with hlt | hlt
  · exact hlt
  · exact absurd (String.le_antisymm (String.not_lt.1 hlt) (String.not_lt.1 h)) hne

theorem mem_insertEntry {α : Type} {key : String} {x : α} {entries : List (String × α)}
    {e : String × α} (h : e ∈ insertEntry key x entries) : e = (key, x) ∨ e ∈ entries := by
  induction entries with
  | nil => simpa [insertEntry] using h
  | cons head rest ih =>
    obtain ⟨k, y⟩ := head
    unfold insertEntry at h
    split at h
    · rcases List.mem_cons.1 h with h | h
      · exact .inl h
      · exact .inr h
    · split at h
      · rcases List.mem_cons.1 h with h | h
        · exact .inl h
        · exact .inr (List.mem_cons_of_mem _ h)
      · rcases List.mem_cons.1 h with h | h
        · exact .inr (h ▸ List.mem_cons_self)
        · exact (ih h).imp_right (List.mem_cons_of_mem _)

/-- Putting an entry into sorted entries leaves them sorted. -/
theorem sorted_insertEntry {α : Type} {key : String} {x : α} {entries : List (String × α)}
    (h : Sorted entries) : Sorted (insertEntry key x entries) := by
  induction entries with
  | nil => simp [insertEntry, Sorted]
  | cons head rest ih =>
    obtain ⟨k, y⟩ := head
    have hhead := (List.pairwise_cons.1 h).1
    have htail := (List.pairwise_cons.1 h).2
    unfold insertEntry
    split
    · rename_i hlt
      refine List.pairwise_cons.2 ⟨fun e he => ?_, h⟩
      rcases List.mem_cons.1 he with rfl | he
      · exact hlt
      · exact String.lt_trans hlt (hhead e he)
    · rename_i hlt
      split
      · rename_i heq
        subst heq
        exact List.pairwise_cons.2 ⟨hhead, htail⟩
      · rename_i hne
        refine List.pairwise_cons.2 ⟨fun e he => ?_, ih htail⟩
        rcases mem_insertEntry he with rfl | he
        · exact lt_of_not_lt_of_ne hlt hne
        · exact hhead e he

end Json

/-! ## 1. Configuration of a message -/

/-- Values under keys, sorted by key. -/
structure Conf where
  entries : List (String × Json) := []
  sorted : Json.Sorted entries := by exact List.Pairwise.nil

namespace Conf

def empty : Conf := {}

instance : Inhabited Conf := ⟨empty⟩

/-- Puts a value under a key, in place of one already there. -/
def insert (c : Conf) (key : String) (x : Json) : Conf :=
  ⟨Json.insertEntry key x c.entries, Json.sorted_insertEntry c.sorted⟩

/-- The value under a key. -/
def get? (c : Conf) (key : String) : Option Json := Entries.find? key c.entries

/-- Later entries replace earlier ones of the same key. -/
def ofEntries (entries : List (String × Json)) : Conf :=
  entries.foldl (fun c e => c.insert e.1 e.2) empty

end Conf

/-- The keys of a `Conf` that a wire client may act on. -/
def Conf.key : String := "key"

def Conf.properties : String := "properties"

def Conf.eventTime : String := "eventTime"

def Conf.deliverAtTime : String := "deliverAtTime"

def Conf.deliverAfterMs : String := "deliverAfterMs"

/-! ## 2. Messages -/

/-- A message without its topic. -/
structure MessageSpec where
  payload : Bytes := []
  /-- Replaces the producer's schema for this message alone. -/
  schema : Option Schema := none
  conf : Conf := .empty

namespace MessageSpec

instance : Inhabited MessageSpec := ⟨{}⟩

/-- A payload and nothing else. -/
def ofPayload (payload : Bytes) : MessageSpec := { payload }

def withSchema (s : MessageSpec) (schema : Schema) : MessageSpec := { s with schema := some schema }

def withConf (s : MessageSpec) (conf : Conf) : MessageSpec := { s with conf }

def withConfEntry (s : MessageSpec) (key : String) (x : Json) : MessageSpec :=
  { s with conf := s.conf.insert key x }

/-- Whether nothing was set. -/
def isDefault (s : MessageSpec) : Bool :=
  s.payload.isEmpty && s.schema.isNone && s.conf.entries.isEmpty

end MessageSpec

/-- A message and the topic it goes to, not yet canonical. -/
structure OutboundMessage where
  topic : String
  spec : MessageSpec

end TopicPublisher
