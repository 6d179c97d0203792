import TopicPublisher.Config.Path
import TopicPublisher.Config.Setting
import TopicPublisher.Text.LowerCase

/-!
# Layers of settings

A configuration is put together from layers, each laid over the ones before it. `Setting.lay` puts a
value under a key: a table is laid into the table that is there, entry by entry, and anything else
replaces what was there. `Setting.assign` does the same at the end of a path, and makes the tables and
lists on the way. Keys are lower-cased in every table, on the way as at the end.
-/

namespace TopicPublisher

namespace Setting

/-! ## 1. Tables and lists on the way -/

/-- The entries of a table, and its origin; a new table in place of anything else. -/
def asTable : Setting → Option String × List (String × Setting)
  | .table o entries => (o, entries)
  | _ => (none, [])

/-- The items of a list, and its origin; a new list in place of anything else. -/
def asList : Setting → Option String × List Setting
  | .list o items => (o, items)
  | _ => (none, [])

/-- The position that an index stands for. -/
def position (index : Int) (length : Nat) : Nat :=
  if 0 ≤ index then index.toNat else length - index.natAbs

/-- Changes the item at a position, in a list long enough for it. -/
def modifyItem (items : List Setting) (i : Nat) (f : Setting → Setting) : List Setting :=
  (items ++ List.replicate (i + 1 - items.length) empty).modify i f

/-! ## 2. Laying over -/

mutual

/-- Puts a value under a key of a setting, which becomes a table if it is none. -/
def lay (key : String) : Setting → Setting → Setting
  | .table _ incoming, root =>
    let (o, entries) := asTable root
    let key := Text.lower key
    let target := (Entries.find? key entries).getD (.table none [])
    .table o (Entries.put key (layAll incoming target) entries)
  | .scalar vo x, root =>
    let (o, entries) := asTable root
    .table o (Entries.put (Text.lower key) (.scalar vo x) entries)
  | .list vo items, root =>
    let (o, entries) := asTable root
    .table o (Entries.put (Text.lower key) (.list vo items) entries)

/-- Puts entries into a setting one after the other. -/
def layAll : List (String × Setting) → Setting → Setting
  | [], root => root
  | (key, x) :: rest, root => layAll rest (lay key x root)

end

/-- Changes what steps lead to, and makes what is missing on the way. -/
def modifyAt : List PathStep → (Setting → Setting) → Setting → Setting
  | [], f, s => f s
  | .entry key :: rest, f, s =>
    let (o, entries) := asTable s
    let key := Text.lower key
    .table o (Entries.put key (modifyAt rest f ((Entries.find? key entries).getD empty)) entries)
  | .item index :: rest, f, s =>
    let (o, items) := asList s
    .list o (modifyItem items (position index items.length) (modifyAt rest f))

/-- Puts a value where the last step leads. -/
def assignStep (last : PathStep) (x : Setting) (parent : Setting) : Setting :=
  match last with
  | .entry key => lay key x parent
  | .item index =>
    let (o, items) := asList parent
    .list o (modifyItem items (position index items.length) fun _ => x)

/-- Puts a value at the end of a path. -/
def assign (p : Path) (x : Setting) (root : Setting) : Setting :=
  match p.steps.getLast? with
  | none => lay p.head x root
  | some last => modifyAt (.entry p.head :: p.steps.dropLast) (assignStep last x) root

/-- Puts entries under texts of paths, one after the other. -/
def assignAll (entries : List (String × Setting)) (root : Setting) : Setting :=
  entries.foldl (fun root e => assign (Path.ofText e.1) e.2 root) root

/-- Layers laid one over the other, the last one uppermost. -/
def ofLayers (layers : List (List (String × Setting))) : Setting :=
  layers.foldl (fun root entries => assignAll entries root) (.table none [])

end Setting

/-! ## 3. The environment -/

/-- What the names of variables begin with, lower-cased. -/
def environmentPrefix : List Char := "pulsar_template_".toList

/-- Two underscores stand for a step in a path. -/
def dotted : List Char → List Char
  | '_' :: '_' :: rest => '.' :: dotted rest
  | c :: rest => c :: dotted rest
  | [] => []

/-- The path that a variable's name stands for. -/
def variablePath? (name : String) : Option String :=
  let cs := (Text.lower name).toList
  if environmentPrefix.isPrefixOf cs then
    some (String.ofList (dotted (cs.drop environmentPrefix.length)))
  else none

/-- The layer of the environment. -/
def environmentLayer (environment : List (String × String)) : List (String × Setting) :=
  environment.filterMap fun (name, text) =>
    (variablePath? name).map fun path => (path, .scalar (some "the environment") (.str text))

end TopicPublisher
