/-!
# Numbers of sixty-four bits

The bounds of integers of sixty-four bits, with a sign and without one.
-/

namespace TopicPublisher.Word

/-- The largest integer without a sign. -/
def maxUnsigned : Nat := 0xFFFFFFFFFFFFFFFF

/-- The largest integer with a sign. -/
def maxSigned : Nat := 0x7FFFFFFFFFFFFFFF

/-- The least integer with a sign. -/
def minSigned : Int := -0x8000000000000000

/-- Whether an integer can be written with a sign. -/
def isSigned (n : Int) : Bool := minSigned ≤ n && n ≤ maxSigned

end TopicPublisher.Word
