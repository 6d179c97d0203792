import TopicPublisher.Number.Word

/-!
# Double-precision numbers as bit patterns

A `Binary64` is the 64-bit pattern of an IEEE 754 double. Its finite values are `m · 2 ^ q`, and
every operation here is exact integer arithmetic followed by one rounding, to the nearest double
and to the even one at a tie. Nothing depends on machine arithmetic, so the values can be computed
in proofs.

* `ofRatio` rounds a quotient of natural numbers.
* `ofDecimal` rounds a decimal `digits · 10 ^ exponent`.
* `mul` and `div` are the rounded product and quotient of two finite doubles.
* `roundToNat` is the nearest natural number, a half going away from zero, clamped at both ends.
-/

namespace TopicPublisher

/-- The bit pattern of a double: one sign bit, eleven of exponent, fifty-two of fraction. -/
structure Binary64 where
  bits : UInt64
  deriving DecidableEq, Repr, Inhabited

namespace Binary64

/-! ## 1. Taking a pattern apart -/

/-- The sign bit. It is set in `-0` and may be set in a NaN. -/
def negative (x : Binary64) : Bool := x.bits.toNat >>> 63 == 1

/-- The eleven exponent bits. -/
def biasedExponent (x : Binary64) : Nat := (x.bits.toNat >>> 52) % 2048

/-- The bit above the fraction, which significands have and patterns leave out. -/
def leadBit : Nat := 1 <<< 52

/-- The fifty-two fraction bits. -/
def fraction (x : Binary64) : Nat := x.bits.toNat % leadBit

def isNaN (x : Binary64) : Bool := x.biasedExponent == 2047 && x.fraction != 0

def isInfinite (x : Binary64) : Bool := x.biasedExponent == 2047 && x.fraction == 0

def isFinite (x : Binary64) : Bool := x.biasedExponent != 2047

def isZero (x : Binary64) : Bool := x.biasedExponent == 0 && x.fraction == 0

/-- The integer `m` of the magnitude `m · 2 ^ q` of a finite double. -/
def significand (x : Binary64) : Nat :=
  if x.biasedExponent = 0 then x.fraction else leadBit + x.fraction

/-- The exponent `q` of the magnitude `m · 2 ^ q` of a finite double. -/
def exponent (x : Binary64) : Int :=
  if x.biasedExponent = 0 then -1074 else (x.biasedExponent : Int) - 1075

/-! ## 2. Rounding -/

def ofParts (neg : Bool) (biased frac : Nat) : Binary64 :=
  ⟨UInt64.ofNat ((if neg then 1 <<< 63 else 0) + (biased <<< 52) + frac)⟩

def infinity (neg : Bool) : Binary64 := ofParts neg 2047 0

def nan : Binary64 := ofParts false 2047 (1 <<< 51)

def zero (neg : Bool) : Binary64 := ofParts neg 0 0

/-- The nearest natural number to `num / den`, the even one at a tie. -/
def divRoundEven (num den : Nat) : Nat :=
  let q := num / den
  let r := num % den
  if 2 * r < den then q
  else if den < 2 * r then q + 1
  else if q % 2 = 0 then q else q + 1

/-- `num / (den · 2 ^ q)` as a quotient of natural numbers. -/
def scaled (num den : Nat) (q : Int) : Nat × Nat :=
  if 0 ≤ q then (num, den <<< q.toNat) else (num <<< (-q).toNat, den)

/-- The exponent at which `num / den` has fifty-three binary digits, or the least one there is. -/
def exponentFor (num den : Nat) : Int :=
  let guess : Int := (num.log2 : Int) - (den.log2 : Int) - 52
  let (n, d) := scaled num den guess
  max (-1074) (if n < d <<< 52 then guess - 1 else guess)

/-- The double nearest to `num / den` with the given sign; a quotient too large is infinite. -/
def ofRatio (neg : Bool) (num den : Nat) : Binary64 :=
  if num = 0 then zero neg
  else
    let q := exponentFor num den
    let (n, d) := scaled num den q
    let m := divRoundEven n d
    let (m, q) := if m = 2 * leadBit then (leadBit, q + 1) else (m, q)
    if m < leadBit then ofParts neg 0 m
    else if q + 1075 ≥ 2047 then infinity neg
    else ofParts neg (q + 1075).toNat (m - leadBit)

/-- A power of ten. -/
def tenPow (n : Nat) : Nat := Nat.pow 10 n

/-- The double nearest to `digits · 10 ^ exponent`. Values that are surely above the largest double
or below half of the least one are settled without computing the power: `digits` has fewer decimal
digits than binary ones. -/
def ofDecimal (neg : Bool) (digits : Nat) (exponent : Int) : Binary64 :=
  if digits = 0 then zero neg
  else if exponent > 400 then infinity neg
  else if exponent + (digits.log2 : Int) + 1 < -330 then zero neg
  else if 0 ≤ exponent then ofRatio neg (digits * tenPow exponent.toNat) 1
  else ofRatio neg digits (tenPow (-exponent).toNat)

/-- The magnitude of a finite double as a quotient of natural numbers. -/
def ratio (x : Binary64) : Nat × Nat :=
  if 0 ≤ x.exponent then (x.significand <<< x.exponent.toNat, 1)
  else (x.significand, 1 <<< (-x.exponent).toNat)

/-- The rounded product of two finite doubles. -/
def mul (x y : Binary64) : Binary64 :=
  let (a, b) := x.ratio
  let (c, d) := y.ratio
  ofRatio (x.negative != y.negative) (a * c) (b * d)

/-- The rounded quotient of two finite doubles, the divisor not being zero. -/
def div (x y : Binary64) : Binary64 :=
  let (a, b) := x.ratio
  let (c, d) := y.ratio
  ofRatio (x.negative != y.negative) (a * d) (b * c)

/-! ## 3. To a natural number -/

/-- The nearest natural number at most `top`, a half going away from zero. Negative numbers and
NaN give zero, numbers above `top` give `top`. -/
def roundToNat (top : Nat) (x : Binary64) : Nat :=
  if x.isNaN then 0
  else if x.negative then 0
  else if x.isInfinite then top
  else
    let (n, d) := x.ratio
    min top ((2 * n + d) / (2 * d))

end Binary64

end TopicPublisher
