import TopicPublisher.Json.Basic

/-!
# Values to be written as JSON

A `Writable` is what a caller wants written. It is wider than `Json`: entries keep their order,
doubles need not be finite, keys need not be texts, and a value may refuse to be written. Keys that
are numbers or booleans are written as texts; a key of any other kind is an error.
-/

namespace TopicPublisher

/-- The key of an entry. -/
inductive WritableKey where
  | text (s : String)
  | int (n : Int)
  | bool (b : Bool)
  /-- A key made of parts. -/
  | compound
  deriving DecidableEq, Repr

/-- A value to be written. -/
inductive Writable where
  | json (j : Json)
  | seq (items : List Writable)
  | map (entries : List (WritableKey × Writable))
  /-- A value that cannot be written, for the reason given. -/
  | refusing (reason : String)

namespace WritableKey

/-- The text that a key is written as. -/
def text? : WritableKey → Option String
  | .text s => some s
  | .int n => some (toString n)
  | .bool true => some "true"
  | .bool false => some "false"
  | .compound => none

end WritableKey

namespace Writable

mutual

/-- The compact text of a value, or why it has none. The first reason met counts. -/
def write : Writable → Except String String
  | .json j => .ok j.text
  | .refusing reason => .error reason
  | .seq items =>
    match writeItems items with
    | .ok t => .ok ("[" ++ t ++ "]")
    | .error e => .error e
  | .map entries =>
    match writeEntries entries with
    | .ok t => .ok ("\x7b" ++ t ++ "\x7d")
    | .error e => .error e

def writeItems : List Writable → Except String String
  | [] => .ok ""
  | x :: xs =>
    match write x, writeItems xs with
    | .error e, _ => .error e
    | _, .error e => .error e
    | .ok t, .ok rest => .ok (if xs.isEmpty then t else t ++ "," ++ rest)

def writeEntries : List (WritableKey × Writable) → Except String String
  | [] => .ok ""
  | (k, x) :: rest =>
    match k.text?, write x, writeEntries rest with
    | none, _, _ => .error "key must be a string"
    | _, .error e, _ => .error e
    | _, _, .error e => .error e
    | some key, .ok t, .ok more =>
      .ok (Json.quote key ++ ":" ++ (if rest.isEmpty then t else t ++ "," ++ more))

end

example : write (.map [(.int (-3), .json (.str "x")), (.bool true, .seq [.json (.int 1), .json .null])])
    = .ok "\x7b\"-3\":\"x\",\"true\":[1,null]\x7d" := by rfl

end Writable

end TopicPublisher
