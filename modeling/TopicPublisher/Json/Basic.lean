import TopicPublisher.Entries
import TopicPublisher.Json.Document
import TopicPublisher.Number.Shortest

/-!
# JSON values

A `Json` is what a document means: a whole number that fits 64 bits, signed or unsigned, is exact,
every other number is a double, and the entries of an object are sorted by key with the last of
several equal keys kept. `Json.text` is the compact written form.

* `Numeral.number?` says which double a numeral is. At most as many digits as fit 64 bits are kept,
  and the decimal point is moved by multiplications and divisions of doubles, so that the result of
  a long numeral may differ in its last bit from the nearest double.
* `Json.ofDocument?` refuses numbers beyond the doubles, lone surrogates and deep nesting.
-/

namespace TopicPublisher

/-- A JSON value. -/
inductive Json where
  | null
  | bool (b : Bool)
  | int (n : Int)
  | float (x : Binary64)
  | str (s : String)
  | arr (items : List Json)
  | obj (entries : List (String × Json))
  deriving Repr, Inhabited

namespace Json

/-! ## 1. Numbers -/

namespace Numeral

def digitValue (c : Char) : Nat := c.toNat - 48

/-- Adds digits to `n` as long as the result fits 64 bits. Gives the number and the digits left
over. -/
def absorb : Nat → List Char → Nat × List Char
  | n, [] => (n, [])
  | n, d :: ds =>
    if n * 10 + digitValue d > Word.maxUnsigned then (n, d :: ds) else absorb (n * 10 + digitValue d) ds

/-- `10 ^ n` as a double. -/
def tenPower (n : Nat) : Binary64 := Binary64.ofDecimal false 1 n

/-- `significand · 10 ^ exponent` in double arithmetic: one multiplication or division by a power
of ten, after divisions by `1e308` where the exponent is lower than any power of ten. A result
beyond the doubles is refused. -/
def scale : Nat → Binary64 → Int → Option Binary64
  | 0, _, _ => none
  | fuel + 1, x, exponent =>
    if exponent.natAbs ≤ 308 then
      if 0 ≤ exponent then
        let y := x.mul (tenPower exponent.toNat)
        if y.isInfinite then none else some y
      else some (x.div (tenPower exponent.natAbs))
    else if x.isZero then some x
    else if 0 ≤ exponent then none
    else scale fuel (x.div (tenPower 308)) (exponent + 308)

/-- The number of an exponent part, zero where there is none. -/
def exponentValue : Option (Bool × List Char) → Int
  | none => 0
  | some (negative, ds) =>
    let n := ds.foldl (fun n d => n * 10 + digitValue d) 0
    if negative then -(n : Int) else n

/-- The value of a numeral: an integer, or a double. -/
def number? (n : Numeral) : Option Json :=
  let (significand, left) := absorb 0 n.whole
  if n.fraction = none ∧ n.exponent = none ∧ left = [] then
    if !n.negative then some (.int significand)
    else if significand = 0 ∨ Word.maxSigned + 1 < significand then
      some (.float ⟨(Binary64.ofRatio true significand 1).bits⟩)
    else some (.int (-(significand : Int)))
  else
    let digits := n.fraction.getD []
    let (significand, rest) := absorb significand digits
    let exponent : Int := left.length - ((digits.length : Int) - rest.length)
    -- four divisions by 1e308 bring every 64-bit number to zero
    (scale 6 (Binary64.ofRatio false significand 1) (exponent + exponentValue n.exponent)).map fun x =>
      .float (if n.negative then ⟨x.bits ||| 0x8000000000000000⟩ else x)

end Numeral

/-! ## 2. From a document -/

/-- Puts an entry into sorted entries, in place of one with the same key. -/
def insertEntry {α : Type} (key : String) (x : α) : List (String × α) → List (String × α)
  | [] => [(key, x)]
  | (k, y) :: rest =>
    if key < k then (key, x) :: (k, y) :: rest
    else if key = k then (key, x) :: rest
    else (k, y) :: insertEntry key x rest

/-- How many arrays and objects may be open at once. -/
def maxDepth : Nat := 127

mutual

/-- The value of a document; the number bounds its depth. -/
def ofDocument : Nat → Document → Option Json
  | _, .null => some .null
  | _, .bool b => some (.bool b)
  | _, .number n => n.number?
  | _, .string s => s.map .str
  | 0, .array _ => none
  | 0, .object _ => none
  | depth + 1, .array items => (ofItems depth items).map .arr
  | depth + 1, .object entries => (ofEntries depth entries []).map .obj

def ofItems : Nat → List Document → Option (List Json)
  | _, [] => some []
  | depth, d :: ds => do
    let x ← ofDocument depth d
    let xs ← ofItems depth ds
    return x :: xs

/-- The values of entries, added to sorted ones. -/
def ofEntries : Nat → List (Option String × Document) → List (String × Json) →
    Option (List (String × Json))
  | _, [], sorted => some sorted
  | depth, (key, d) :: rest, sorted => do
    let key ← key
    let x ← ofDocument depth d
    ofEntries depth rest (insertEntry key x sorted)

end

def ofDocument? (d : Document) : Option Json := ofDocument maxDepth d

/-- The value that a text writes. -/
def parse (text : String) : Option Json := (Document.parse text).bind ofDocument?

/-! ## 3. Written form -/

mutual

/-- The compact text of a value. -/
def text : Json → String
  | .null => "null"
  | .bool true => "true"
  | .bool false => "false"
  | .int n => toString n
  | .float x => x.jsonText
  | .str s => quote s
  | .arr items => "[" ++ textItems items ++ "]"
  | .obj entries => "\x7b" ++ textEntries entries ++ "\x7d"

def textItems : List Json → String
  | [] => ""
  | [x] => text x
  | x :: xs => text x ++ "," ++ textItems xs

def textEntries : List (String × Json) → String
  | [] => ""
  | [(k, x)] => quote k ++ ":" ++ text x
  | (k, x) :: rest => quote k ++ ":" ++ text x ++ "," ++ textEntries rest

end

/-! ## 4. Looking inside -/

def isNull : Json → Bool
  | .null => true
  | _ => false

/-- The entry of an object. -/
def get? : Json → String → Option Json
  | .obj entries, key => Entries.find? key entries
  | _, _ => none

example : (parse " [1, -0, 1.5e3, 18446744073709551616] ").map text
    = some "[1,-0.0,1500.0,1.8446744073709552e+19]" := by decide +kernel

end Json

end TopicPublisher
