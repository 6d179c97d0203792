import TopicPublisher.Number.Binary64

/-!
# The shortest decimal that reads back

A finite double stands for every real that rounds to it: an interval around its value, closed
exactly when the significand is even. Among the decimals in that interval, `Shortest.ofBinary64`
picks one with the fewest digits, and of those the nearest to the value.

* `Shortest` is a decimal `digits · 10 ^ exponent` with no trailing zero digit.
* `Shortest.candidate` looks at one grid of decimals: if a grid has a point in the interval, then
  one of the value's two neighbours on that grid is such a point.
* `Binary64.positional` and `Binary64.jsonText` are the two written forms in use.
-/

namespace TopicPublisher

/-- The decimal `digits · 10 ^ exponent`. -/
structure Shortest where
  digits : Nat
  exponent : Int
  deriving DecidableEq, Repr

namespace Shortest

/-- The reals that round to a double, all three numbers over the denominator `den`. -/
structure Interval where
  low : Nat
  value : Nat
  high : Nat
  den : Nat
  closed : Bool

/-- Half of the gap to each neighbour, counted in quarters of the last binary place: the gap below
a power of two is half as wide as the one above it. -/
def Interval.ofBinary64 (x : Binary64) : Interval :=
  let m := x.significand
  let below := if x.fraction = 0 ∧ 1 < x.biasedExponent then 1 else 2
  let scale := if 0 ≤ x.exponent then 1 <<< x.exponent.toNat else 1
  let den := if 0 ≤ x.exponent then 4 else 4 <<< (-x.exponent).toNat
  ⟨(4 * m - below) * scale, 4 * m * scale, (4 * m + 2) * scale, den, m % 2 = 0⟩

/-- Whether `n / d` lies in the interval. -/
def Interval.contains (i : Interval) (n d : Nat) : Bool :=
  let low := i.low * d
  let high := i.high * d
  let here := n * i.den
  if i.closed then low ≤ here && here ≤ high else low < here && here < high

/-- `n · 10 ^ k` as a quotient. -/
def power (n : Nat) (k : Int) : Nat × Nat :=
  if 0 ≤ k then (n * Binary64.tenPow k.toNat, 1) else (n, Binary64.tenPow (-k).toNat)

/-- The point of the grid of multiples of `10 ^ k` that is in the interval and nearest to the
value, if there is one. -/
def candidate (i : Interval) (k : Int) : Option Nat :=
  let n :=
    if 0 ≤ k then i.value / (i.den * Binary64.tenPow k.toNat)
    else i.value * Binary64.tenPow (-k).toNat / i.den
  let inside (n : Nat) : Bool :=
    let (a, b) := power n k
    i.contains a b
  let lower := n != 0 && inside n
  let upper := inside (n + 1)
  if lower && upper then
    -- nearer end; at an exact tie the even digit
    let (a, b) := power (2 * n + 1) k
    let middle := a * i.den
    let here := 2 * i.value * b
    if here < middle then some n
    else if middle < here then some (n + 1)
    else if n % 2 = 0 then some n else some (n + 1)
  else if lower then some n
  else if upper then some (n + 1)
  else none

/-- Tries coarser grids first. The number of grids bounds the search. -/
def search (i : Interval) : Nat → Int → Shortest
  | 0, k => ⟨0, k⟩
  | fuel + 1, k =>
    match candidate i k with
    | some n => ⟨n, k⟩
    | none => search i fuel (k - 1)

def dropZeros : Nat → Shortest → Shortest
  | 0, s => s
  | fuel + 1, s =>
    if s.digits != 0 && s.digits % 10 = 0 then dropZeros fuel ⟨s.digits / 10, s.exponent + 1⟩ else s

/-- The least `k` with `n / d < 10 ^ k`, up to one: an upper bound for the decimal exponent. -/
def magnitude (x : Binary64) : Int :=
  ((x.exponent + (x.significand.log2 : Int) + 1) * 30103) / 100000 + 1

/-- The shortest decimal that reads back as the magnitude of a finite double. -/
def ofBinary64 (x : Binary64) : Shortest :=
  if x.isZero then ⟨0, 0⟩
  else dropZeros 20 (search (Interval.ofBinary64 x) 22 (magnitude x))

end Shortest

namespace Binary64

/-- A text of zeros. -/
def zeros (n : Nat) : String := String.ofList (List.replicate n '0')

/-- Digits, then a point placed `exponent` places from their right end, without an exponent part
and without a fraction where the number is whole. -/
def placePoint (digits : String) (exponent : Int) : String × String :=
  if 0 ≤ exponent then (digits ++ zeros exponent.toNat, "")
  else
    let places := (-exponent).toNat
    if places < digits.length then
      (String.ofList (digits.toList.take (digits.length - places)),
        String.ofList (digits.toList.drop (digits.length - places)))
    else ("0", zeros (places - digits.length) ++ digits)

def signText (x : Binary64) : String := if x.negative then "-" else ""

/-- All digits written out, however many zeros that takes; a whole number has no point. -/
def positional (x : Binary64) : String :=
  if x.isNaN then "NaN"
  else if x.isInfinite then x.signText ++ "inf"
  else
    let s := Shortest.ofBinary64 x
    let (whole, frac) := placePoint (toString s.digits) s.exponent
    x.signText ++ whole ++ (if frac.isEmpty then "" else "." ++ frac)

/-- As `positional`, and a whole number keeps a zero after the point. -/
def pointed (x : Binary64) : String :=
  if x.isFinite && !(x.positional.toList.contains '.') then x.positional ++ ".0" else x.positional

/-- The form used inside JSON: written out from `1e-5` up to `1e16`, always with a point, and
otherwise with an exponent that has its sign. NaN and the infinities have no JSON number. -/
def jsonText (x : Binary64) : String :=
  if !x.isFinite then "null"
  else if x.isZero then x.signText ++ "0.0"
  else
    let s := Shortest.ofBinary64 x
    let digits := toString s.digits
    let lead : Int := s.exponent + digits.length - 1
    if -5 ≤ lead ∧ lead ≤ 15 then x.pointed
    else
      let mantissa := match digits.toList with
        | [] => ""
        | [d] => String.ofList [d]
        | d :: rest => String.ofList (d :: '.' :: rest)
      x.signText ++ mantissa ++ (if 0 ≤ lead then "e+" else "e-") ++ toString lead.natAbs

end Binary64

end TopicPublisher
