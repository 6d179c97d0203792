/-!
# Message identifiers

The broker names a published message by the ledger and the entry it is stored under, and, where the
topic has partitions or the message came in a batch, by the numbers of those; `-1` stands for none.
-/

namespace TopicPublisher

/-- The broker's name for a message. -/
structure MessageId where
  ledger : UInt64
  entry : UInt64
  partition : Int32 := -1
  batchIndex : Int32 := -1
  deriving DecidableEq, Repr

namespace MessageId

/-- The four numbers with colons between them. -/
def text (m : MessageId) : String :=
  toString m.ledger.toNat ++ ":" ++ toString m.entry.toNat ++ ":" ++ toString m.partition.toInt ++
    ":" ++ toString m.batchIndex.toInt

/-- The numeric order, the ledger counting most. -/
def le (a b : MessageId) : Bool :=
  if a.ledger ≠ b.ledger then a.ledger < b.ledger
  else if a.entry ≠ b.entry then a.entry < b.entry
  else if a.partition ≠ b.partition then a.partition < b.partition
  else a.batchIndex ≤ b.batchIndex

end MessageId

end TopicPublisher
