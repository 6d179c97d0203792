import TopicPublisher.Entries
import TopicPublisher.Number.Shortest

/-!
# Settings

A `Tree` is what a configuration file says: scalars, lists, and tables of entries under keys. A
`Setting` is a tree with origins: the file or the environment that each part came from, for messages.
What is made on the way, such as a table to put an entry into, has no origin.
-/

namespace TopicPublisher

/-- A value without parts. -/
inductive Scalar where
  | null
  | bool (b : Bool)
  | int (n : Int)
  | float (x : Binary64)
  | str (s : String)
  deriving DecidableEq, Repr, Inhabited

/-- What a configuration file says. -/
inductive Tree where
  | scalar (x : Scalar)
  | list (items : List Tree)
  | table (entries : List (String × Tree))
  deriving Repr, Inhabited

/-- A tree whose parts know where they came from. -/
inductive Setting where
  | scalar (origin : Option String) (x : Scalar)
  | list (origin : Option String) (items : List Setting)
  | table (origin : Option String) (entries : List (String × Setting))
  deriving Repr, Inhabited

namespace Setting

mutual

/-- A tree, all parts of which come from one place. -/
def ofTree (origin : String) : Tree → Setting
  | .scalar x => .scalar (some origin) x
  | .list items => .list (some origin) (ofTrees origin items)
  | .table entries => .table (some origin) (ofEntries origin entries)

def ofTrees (origin : String) : List Tree → List Setting
  | [] => []
  | t :: ts => ofTree origin t :: ofTrees origin ts

def ofEntries (origin : String) : List (String × Tree) → List (String × Setting)
  | [] => []
  | (k, t) :: rest => (k, ofTree origin t) :: ofEntries origin rest

end

/-- A place for a value, made where there was none. -/
def empty : Setting := .scalar none .null

def origin? : Setting → Option String
  | .scalar o _ => o
  | .list o _ => o
  | .table o _ => o

/-- The entry of a table. -/
def get? (s : Setting) (key : String) : Option Setting :=
  match s with
  | .table _ entries => Entries.find? key entries
  | _ => none

end Setting

end TopicPublisher
