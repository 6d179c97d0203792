import TopicPublisher.Config.Yaml.Scalar

/-!
# Nodes of YAML files

A node is a part of a file as it is written: a scalar, a list or a table, perhaps with a tag, perhaps
with a name under which a later alias stands for it. `Node.read?` gives the tree that it means. The
keys of a table have to be texts or integers; the last of several equal keys counts.
-/

namespace TopicPublisher

namespace Yaml

/-- What may stand before a node. -/
structure Properties where
  anchor : Option String := none
  tag : Option Tag := none
  deriving DecidableEq, Repr

namespace Properties

def isNone (p : Properties) : Bool := p.anchor.isNone && p.tag.isNone

end Properties

/-- A part of a file. -/
inductive Node where
  /-- Nothing is written where a node could be. -/
  | missing
  | plain (text : List Char)
  | quoted (text : List Char)
  | list (items : List Node)
  | table (entries : List (Node × Node))
  | marked (p : Properties) (node : Node)
  /-- The node with this name. -/
  | alias (name : String)
  deriving Inhabited

namespace Node

def isMissing : Node → Bool
  | .missing => true
  | _ => false

/-- A node with properties, or as it is if there are none. -/
def mark (p : Properties) (n : Node) : Node := if p.isNone then n else .marked p n

/-- Whether a node has signs of its own at both ends, so that a colon may follow at once. -/
def isEnclosed : Node → Bool
  | .quoted _ => true
  | .list _ => true
  | .table _ => true
  | .marked _ n => isEnclosed n
  | _ => false

/-- The trees that names stand for, the latest first. -/
abbrev Names := List (String × Tree)

/-- The key that a tree is. -/
def keyOf? : Tree → Option String
  | .scalar (.str s) => some s
  | .scalar (.int n) => some (toString n)
  | _ => none

/-- The tag that a node is read under. Where properties stand alone, they stand for an empty text. -/
def tagUnder (p : Properties) (n : Node) : Option Tag :=
  match p.tag with
  | some tag => some tag
  | none => if n.isMissing then some .text else none

mutual

/-- The tree that a node means under a tag, and the names that are known behind it. -/
def read? (names : Names) (tag : Option Tag) : Node → Option (Tree × Names)
  | .missing => (scalar? (if tag.isNone then ['~'] else []) tag).map fun x => (.scalar x, names)
  | .plain text => (scalar? text tag).map fun x => (.scalar x, names)
  | .quoted text => some (.scalar (.str (String.ofList text)), names)
  | .list items => (readItems? names items).map fun (ts, names) => (.list ts, names)
  | .table entries => (readEntries? names [] entries).map fun (es, names) => (.table es, names)
  | .marked p n =>
    (read? names (tagUnder p n) n).map fun (t, names) =>
      (t, p.anchor.toList.map (fun a => (a, t)) ++ names)
  | .alias name => (Entries.find? name names).map fun t => (t, names)

def readItems? (names : Names) : List Node → Option (List Tree × Names)
  | [] => some ([], names)
  | n :: ns =>
    (read? names none n).bind fun (t, names) =>
      (readItems? names ns).map fun (ts, names) => (t :: ts, names)

/-- The entries of a table, put to those that stand before them. -/
def readEntries? (names : Names) (before : List (String × Tree)) :
    List (Node × Node) → Option (List (String × Tree) × Names)
  | [] => some (before, names)
  | (k, v) :: rest =>
    (read? names none k).bind fun (kt, names) =>
      (keyOf? kt).bind fun key =>
        (read? names none v).bind fun (vt, names) => readEntries? names (Entries.putLast key vt before) rest

end

/-- The tree that a whole file means. -/
def tree? (n : Node) : Option Tree := (n.read? [] none).map Prod.fst

end Node

end Yaml

end TopicPublisher
