import TopicPublisher.Config.Setting
import TopicPublisher.Text.Quoted

/-!
# Faults of a configuration

What can be wrong with a configuration, from a file that is not there to a value that is not allowed,
and the wording of each. A `Mismatch` is a value of the wrong kind; it knows the key that leads to it
and the place it came from.
-/

namespace TopicPublisher

/-- A value of the wrong kind. -/
structure Mismatch where
  found : String
  expected : String
  /-- The key that leads to the value, as far as it is known. -/
  key : Option String := none
  origin : Option String := none
  deriving DecidableEq, Repr

/-- What is wrong with a configuration.

* `malformed`: the file is not written as its format demands.
* `rootMismatch`: the file says something, but is no table.
* `wrongShape`: a group of fields is given as something that cannot hold fields.
* `tooShort`: a group given as a list ends before a field that it must have. -/
inductive ConfigFault where
  | fileMissing (name : String)
  | unknownFormat (name : String)
  | notUtf8
  | malformed (file : String)
  | rootMismatch (file : String) (m : Mismatch)
  | mismatch (m : Mismatch)
  | wrongShape (found group : String)
  | missingField (name : String)
  | tooShort (length : Nat) (group : String) (fields : Nat)
  | unknownVariant (type name : String)
  | variantShape (type : String)
  | emptyServiceUrl
  | noPendingMessages
  deriving DecidableEq, Repr

namespace Mismatch

def message (m : Mismatch) : String :=
  "invalid type: " ++ m.found ++ ", expected " ++ m.expected ++
    (match m.key with
      | some k => " for key `" ++ k ++ "`"
      | none => "") ++
    (match m.origin with
      | some o => " in " ++ o
      | none => "")

end Mismatch

namespace ConfigFault

/-- The wording of a fault. -/
def message : ConfigFault → String
  | .fileMissing name => "configuration file \"" ++ name ++ "\" not found"
  | .unknownFormat name => "configuration file \"" ++ name ++ "\" is not of a registered file format"
  | .notUtf8 => "stream did not contain valid UTF-8"
  | .malformed file => "not valid in its format in " ++ file
  | .rootMismatch file m => m.message ++ " in " ++ file
  | .mismatch m => m.message
  | .wrongShape found group => "invalid type: " ++ found ++ ", expected struct " ++ group
  | .missingField name => "missing field `" ++ name ++ "`"
  | .tooShort length group fields =>
    "invalid length " ++ toString length ++ ", expected struct " ++ group ++ " with " ++
      toString fields ++ " elements"
  | .unknownVariant type name => "enum " ++ type ++ " does not have variant constructor " ++ name
  | .variantShape type =>
    "value of enum " ++ type ++
      " should be represented by either string or table with exactly one key"
  | .emptyServiceUrl => "client.service_url must not be empty"
  | .noPendingMessages => "producer.max_pending_messages must be at least 1"

/-- Puts a part of a key before the key of a mismatch. Between two names stands a point, but none
before the index of an item, and none after it. -/
def prepend (part : String) (point : Bool) : ConfigFault → ConfigFault
  | .mismatch m =>
    let rest := m.key.getD ""
    let dot := if point && !rest.isEmpty && rest.toList.head? != some '[' then "." else ""
    .mismatch { m with key := some (part ++ dot ++ rest) }
  | f => f

/-- The fault of an entry, seen from its table. -/
def underKey (key : String) : ConfigFault → ConfigFault := prepend key true

/-- The fault of an item, seen from its list. -/
def underIndex (i : Nat) : ConfigFault → ConfigFault := prepend ("[" ++ toString i ++ "]") false

end ConfigFault

namespace Scalar

/-- What a scalar is called where another kind of value is expected. -/
def found : Scalar → String
  | .null => "unit value"
  | .bool b => "boolean `" ++ (if b then "true" else "false") ++ "`"
  | .int n => "64-bit integer `" ++ toString n ++ "`"
  | .float x => "floating point `" ++ x.positional ++ "`"
  | .str s => "string " ++ Text.quoted s

/-- What a scalar is called where a group of fields is expected. -/
def foundForGroup : Scalar → String
  | .int n => "integer `" ++ toString n ++ "`"
  | .float x => "floating point `" ++ x.pointed ++ "`"
  | x => x.found

end Scalar

/-- What a setting is called where another kind of value is expected. -/
def Setting.found : Setting → String
  | .scalar _ x => x.found
  | .list _ _ => "sequence"
  | .table _ _ => "map"

end TopicPublisher
