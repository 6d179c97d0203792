import TopicPublisher.Config.Digits
import TopicPublisher.Number.Word

/-!
# Paths to settings

A path names a setting from the root: a key, and then steps to an entry of a table (`.key`) or an
item of a list (`[2]`, from the end where the number is negative). Keys are made of ASCII letters and
digits, space, `_` and `-`. A text that is no path in this sense is taken for a single key.
-/

namespace TopicPublisher

/-- A step from a setting to one inside it. -/
inductive PathStep where
  | entry (key : String)
  | item (index : Int)
  deriving DecidableEq, Repr

/-- A path to a setting. -/
structure Path where
  head : String
  steps : List PathStep
  deriving DecidableEq, Repr

namespace Path

def isKeyChar (c : Char) : Bool :=
  ('a' ≤ c && c ≤ 'z') || ('A' ≤ c && c ≤ 'Z') || ('0' ≤ c && c ≤ '9') || c = ' ' || c = '_' || c = '-'

/-- A key of at least one character. -/
def key? (cs : List Char) : Option (String × List Char) :=
  match cs.span isKeyChar with
  | ([], _) => none
  | (key, rest) => some (String.ofList key, rest)

def isSpace (c : Char) : Bool := c = ' ' || c = '\t'

/-- An index that fits 64 bits, with spaces around it. -/
def index? (cs : List Char) : Option (Int × List Char) :=
  let cs := cs.dropWhile isSpace
  let (negative, cs) := match cs with
    | '-' :: rest => (true, rest)
    | cs => (false, cs)
  match cs.span Char.isDigit with
  | ([], _) => none
  | (ds, rest) =>
    let n : Int := if negative then -(Digits.natOf 10 ds : Int) else Digits.natOf 10 ds
    if Word.isSigned n then some (n, rest.dropWhile isSpace) else none

/-- One step. -/
def step? : List Char → Option (PathStep × List Char)
  | '.' :: rest => (key? rest).map fun (key, rest) => (.entry key, rest)
  | '[' :: rest =>
    match index? rest with
    | some (i, ']' :: rest) => some (.item i, rest)
    | _ => none
  | _ => none

/-- Steps up to the end. The number bounds how many there are. -/
def steps? : Nat → List Char → Option (List PathStep)
  | _, [] => some []
  | 0, _ => none
  | fuel + 1, cs =>
    (step? cs).bind fun (s, rest) => (steps? fuel rest).map (s :: ·)

def parse? (text : String) : Option Path := do
  let (head, rest) ← key? text.toList
  let steps ← steps? rest.length rest
  return ⟨head, steps⟩

/-- The path that a text is, or the key. -/
def ofText (text : String) : Path := (parse? text).getD ⟨text, []⟩

end Path

end TopicPublisher
