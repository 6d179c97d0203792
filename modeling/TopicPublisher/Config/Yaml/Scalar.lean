import TopicPublisher.Config.Digits
import TopicPublisher.Config.Setting

/-!
# Scalars in YAML files

A scalar without quotes is read by what it looks like: null, a boolean, an integer that fits 64 bits,
a double, or else a text. A tag says which of these it is to be; what does not fit its tag is null.
The words `.inf` and `.nan` name doubles that a setting cannot have, and are refused.
-/

namespace TopicPublisher

namespace Yaml

/-! ## 1. Numbers -/

/-- Digits of a base that make an integer of 64 bits with this sign. -/
def signed? (base : Nat) (negative : Bool) (ds : List Char) : Option Int :=
  let n : Int := if negative then -(Digits.natOf base ds : Int) else Digits.natOf base ds
  if !ds.isEmpty && ds.all (Digits.isOf base) && Word.isSigned n then some n else none

/-- An integer of 64 bits in a base, with a sign or without. -/
def based? (base : Nat) : List Char → Option Int
  | '-' :: ds => signed? base true ds
  | '+' :: ds => signed? base false ds
  | ds => signed? base false ds

/-- An integer. Its base may be told by its first two characters. -/
def integer? : List Char → Option Int
  | '0' :: 'x' :: ds => based? 16 ds
  | '0' :: 'o' :: ds => based? 8 ds
  | '+' :: ds => based? 10 ds
  | ds => based? 10 ds

/-- The exponent part of a number, up to its end. -/
def exponent? : List Char → Option Int
  | [] => some 0
  | c :: rest =>
    if c = 'e' || c = 'E' then
      let (negative, ds) := match rest with
        | '-' :: ds => (true, ds)
        | '+' :: ds => (false, ds)
        | ds => (false, ds)
      if ds.isEmpty || !ds.all Char.isDigit then none
      else some (if negative then -(Digits.natOf 10 ds : Int) else Digits.natOf 10 ds)
    else none

/-- A double: digits with a point and an exponent, or a word. -/
def float? (cs : List Char) : Option Binary64 :=
  let (negative, cs) := match cs with
    | '-' :: rest => (true, rest)
    | '+' :: rest => (false, rest)
    | cs => (false, cs)
  let word := String.ofList (cs.map Char.toLower)
  if word = "inf" || word = "infinity" then some (.infinity negative)
  else if word = "nan" then some .nan
  else
    let (whole, rest) := cs.span Char.isDigit
    let (places, rest) := match rest with
      | '.' :: rest => rest.span Char.isDigit
      | rest => ([], rest)
    if whole.isEmpty && places.isEmpty then none
    else
      (exponent? rest).map fun e =>
        Binary64.ofDecimal negative (Digits.natOf 10 (whole ++ places)) (e - places.length)

/-- The words for doubles that no setting can have. -/
def refusedWords : List String :=
  [".inf", ".Inf", ".INF", "+.inf", "+.Inf", "+.INF", "-.inf", "-.Inf", "-.INF", ".nan", ".NAN"]

def isRefused (cs : List Char) : Bool := refusedWords.contains (String.ofList cs)

/-! ## 2. Tags -/

/-- What a tag says of a scalar without quotes. -/
inductive Tag where
  | null
  | bool
  | int
  | float
  /-- Any other tag: it is a text. -/
  | text
  deriving DecidableEq, Repr

namespace Tag

/-- The tag of a text that begins with an exclamation mark. -/
def ofList (cs : List Char) : Tag :=
  match String.ofList cs with
  | "!!null" => null
  | "!!bool" => bool
  | "!!int" => int
  | "!!float" => float
  | _ => text

end Tag

/-- A scalar read by what it looks like. -/
def resolve (cs : List Char) : Scalar :=
  if cs = ['~'] || cs = "null".toList then .null
  else if cs = "true".toList then .bool true
  else if cs = "false".toList then .bool false
  else
    match integer? cs with
    | some n => .int n
    | none =>
      match float? cs with
      | some x => .float x
      | none => .str (String.ofList cs)

/-- A scalar read as its tag says. -/
def Tag.read (cs : List Char) : Tag → Scalar
  | .null => .null
  | .bool =>
    if cs = "true".toList then .bool true
    else if cs = "false".toList then .bool false
    else .null
  | .int =>
    match based? 10 cs with
    | some n => .int n
    | none => .null
  | .float =>
    match float? cs with
    | some x => .float x
    | none => .null
  | .text => .str (String.ofList cs)

/-- A scalar without quotes, under its tag if it has one. -/
def scalar? (cs : List Char) : Option Tag → Option Scalar
  | none => if isRefused cs then none else some (resolve cs)
  | some .float => if isRefused cs then none else some (Tag.float.read cs)
  | some tag => some (tag.read cs)

end Yaml

end TopicPublisher
