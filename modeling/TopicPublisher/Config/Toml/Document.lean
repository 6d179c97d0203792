import TopicPublisher.Config.Toml.Number

/-!
# TOML files

A file is read in two passes. The first one makes lines of it: headers of tables, headers of items of
lists of tables, and entries. The second one puts the entries into tables, and refuses a file that
says a thing twice: a key, a table, or a table that a dotted key made and a header names again.
-/

namespace TopicPublisher

namespace Toml

/-! ## 1. Tables under construction -/

/-- A part of a file under construction. A table may be there only because a longer name mentions it
(`implied`), and that name may be a dotted key (`dotted`). -/
inductive Item where
  | value (t : Tree)
  | table (implied dotted : Bool) (entries : List (String × Item))
  /-- A list of tables. -/
  | tables (items : List Item)
  deriving Inhabited

namespace Item

/-- A new table. -/
def new (implied dotted : Bool) : Item := .table implied dotted []

/-- Changes the table that a path leads to, and takes something out of it. The tables on the way are
made. The last table of a list stands for the list. The parts of a dotted key do not lead through
tables that have a header. -/
def within {α : Type} (dotted : Bool) (f : Item → Option (Item × α)) :
    List String → Item → Option (Item × α)
  | [], t => f t
  | key :: rest, .table implied isDotted entries =>
    let changed : Option (Item × α) := match Entries.find? key entries with
      | none => within dotted f rest (new true dotted)
      | some (.value _) => none
      | some (.tables items) =>
        match items.getLast? with
        | none => none
        | some last =>
          (within dotted f rest last).map fun (t, x) => (.tables (items.dropLast ++ [t]), x)
      | some (.table impliedThere dottedThere es) =>
        if dotted && !impliedThere then none
        else within dotted f rest (.table impliedThere dottedThere es)
    changed.map fun (t, x) => (.table implied isDotted (Entries.put key t entries), x)
  | _ :: _, _ => none

/-- Changes the entries of the table that the headers before a key lead to. -/
def withEntries {α : Type} (f : List (String × Item) → Option (List (String × Item) × α))
    (path : List String) (root : Item) : Option (Item × α) :=
  within false (fun table =>
    match table with
    | .table implied dotted entries => (f entries).map fun (es, x) => (.table implied dotted es, x)
    | _ => none) path root

/-- Puts a value under a dotted key. The table it goes into must be one that dotted keys made. -/
def insert (path : List String) (key : String) (t : Tree) (root : Item) : Option Item :=
  (within true (fun table =>
    match table with
    | .table implied isDotted entries =>
      if isDotted = path.isEmpty then none
      else
        match Entries.find? key entries with
        | some _ => none
        | none => some (.table implied isDotted (entries ++ [(key, .value t)]), ())
    | _ => none) path root).map Prod.fst

mutual

/-- The finished tree. -/
def toTree : Item → Tree
  | .value t => t
  | .table _ _ entries => .table (toEntries entries)
  | .tables items => .list (toTrees items)

def toTrees : List Item → List Tree
  | [] => []
  | x :: xs => toTree x :: toTrees xs

def toEntries : List (String × Item) → List (String × Tree)
  | [] => []
  | (k, x) :: rest => (k, toTree x) :: toEntries rest

end

end Item

/-- A key with a value. -/
abbrev Entry := List String × Tree

/-- Puts entries into a table one after the other. -/
def insertAll : List Entry → Item → Option Item
  | [], table => some table
  | (path, t) :: rest, table =>
    match path.getLast? with
    | none => none
    | some key => (Item.insert path.dropLast key t table).bind (insertAll rest)

/-! ## 2. Values -/

/-- How deep values may be nested, and how many parts a key may have: fewer than this. -/
def maxDepth : Nat := 80

/-- A key with fewer parts than the limit. -/
def dottedKey? (cs : List Char) : Read (List String) :=
  (key? (cs.length + 1) cs).bind fun (parts, rest) =>
    if parts.length < maxDepth then some (parts, rest) else none

mutual

/-- A value. The first number bounds the length of the search, the second one counts how many lists
and tables are open. -/
def value? : Nat → Nat → List Char → Read Tree
  | 0, _, _ => none
  | fuel + 1, depth, cs =>
    match cs with
    | '"' :: _ => (string? cs).map fun (s, rest) => (.scalar (.str s), rest)
    | '\'' :: _ => (string? cs).map fun (s, rest) => (.scalar (.str s), rest)
    | '[' :: rest =>
      if depth + 1 < maxDepth then
        (items? fuel (depth + 1) rest).map fun (xs, rest) => (.list xs, rest)
      else none
    | '{' :: rest =>
      if depth + 1 < maxDepth then
        match skipBlank rest with
        | '}' :: rest => some (.table [], rest)
        | _ =>
          (pairs? fuel (depth + 1) rest).bind fun (es, rest) =>
            (insertAll es (Item.new false false)).map fun t => (t.toTree, rest)
      else none
    | 't' :: 'r' :: 'u' :: 'e' :: rest => some (.scalar (.bool true), rest)
    | 'f' :: 'a' :: 'l' :: 's' :: 'e' :: rest => some (.scalar (.bool false), rest)
    | cs => (number? cs).map fun (x, rest) => (.scalar x, rest)

/-- The items of a list up to its closing bracket. A comma may stand after the last one. -/
def items? : Nat → Nat → List Char → Read (List Tree)
  | 0, _, _ => none
  | fuel + 1, depth, cs =>
    match skipLines cs.length cs with
    | ']' :: rest => some ([], rest)
    | cs =>
      (value? fuel depth cs).bind fun (x, rest) =>
        match skipLines rest.length rest with
        | ',' :: rest => (items? fuel depth rest).map fun (xs, rest) => (x :: xs, rest)
        | ']' :: rest => some ([x], rest)
        | _ => none

/-- The entries of a table in braces. No comma may stand after the last one. -/
def pairs? : Nat → Nat → List Char → Read (List Entry)
  | 0, _, _ => none
  | fuel + 1, depth, cs =>
    (dottedKey? cs).bind fun (key, rest) =>
      match rest with
      | '=' :: rest =>
        (value? fuel depth (skipBlank rest)).bind fun (x, rest) =>
          match skipBlank rest with
          | ',' :: rest => (pairs? fuel depth rest).map fun (es, rest) => ((key, x) :: es, rest)
          | '}' :: rest => some ([(key, x)], rest)
          | _ => none
      | _ => none

end

/-! ## 3. Lines -/

/-- A line that says something. -/
inductive Line where
  | entry (key : List String) (t : Tree)
  | table (key : List String)
  | tablesItem (key : List String)

/-- A header or an entry, up to the end of its line. -/
def line? (cs : List Char) : Option (Line × List Char) :=
  match cs with
  | '[' :: '[' :: rest => do
    let (key, rest) ← dottedKey? rest
    match rest with
    | ']' :: ']' :: rest => (endLine? rest).map fun rest => (.tablesItem key, rest)
    | _ => none
  | '[' :: rest => do
    let (key, rest) ← dottedKey? rest
    match rest with
    | ']' :: rest => (endLine? rest).map fun rest => (.table key, rest)
    | _ => none
  | cs => do
    let (key, rest) ← dottedKey? cs
    match rest with
    | '=' :: rest =>
      let rest := skipBlank rest
      let (t, rest) ← value? (2 * rest.length + 2) 0 rest
      (endLine? rest).map fun rest => (.entry key t, rest)
    | _ => none

/-- All lines that say something. The number bounds how many there are. -/
def lines? : Nat → List Char → Option (List Line)
  | 0, _ => none
  | fuel + 1, cs =>
    match skipLines cs.length cs with
    | [] => some []
    | cs => (line? cs).bind fun (line, rest) => (lines? fuel rest).map (line :: ·)

/-! ## 4. Files -/

/-- A file so far: what is finished, and the table that entries go into. It is put in its place when
the next header comes. -/
structure Draft where
  root : Item := .new false false
  current : Item := .new false false
  /-- Where the table goes; nowhere for the root itself. -/
  path : List String := []
  isListItem : Bool := false

namespace Draft

/-- Puts the current table in its place. -/
def finish (d : Draft) : Option Item :=
  match d.path.getLast? with
  | none => some d.current
  | some key =>
    (Item.withEntries (fun entries =>
      if d.isListItem then
        match Entries.find? key entries with
        | some (.tables items) => some (Entries.put key (.tables (items ++ [d.current])) entries, ())
        | none => some (Entries.put key (.tables [d.current]) entries, ())
        | _ => none
      else some (Entries.put key d.current entries, ())) d.path.dropLast d.root).map Prod.fst

/-- Begins a table. One that is only implied by longer headers is taken up again. -/
def beginTable (path : List String) (root : Item) : Option Draft :=
  match path.getLast? with
  | none => none
  | some key =>
    (Item.withEntries (fun entries =>
      match Entries.find? key entries with
      | none => some (entries, Item.new false false)
      | some (.table true false es) => some (Entries.erase key entries, .table false false es)
      | _ => none) path.dropLast root).map fun (root, current) => { root, current, path }

/-- Begins an item of a list of tables. -/
def beginItem (path : List String) (root : Item) : Option Draft :=
  match path.getLast? with
  | none => none
  | some key =>
    (Item.withEntries (fun entries =>
      match Entries.find? key entries with
      | none => some (entries, Item.new false false)
      | some (.tables _) => some (entries, Item.new false false)
      | _ => none) path.dropLast root).map fun (root, current) =>
        { root, current, path, isListItem := true }

/-- Adds a line. -/
def add (d : Draft) : Line → Option Draft
  | .entry key t => (insertAll [(key, t)] d.current).map fun current => { d with current }
  | .table key => d.finish.bind (beginTable key)
  | .tablesItem key => d.finish.bind (beginItem key)

def addAll : List Line → Draft → Option Draft
  | [], d => some d
  | line :: rest, d => (d.add line).bind (addAll rest)

end Draft

/-- What a file says. -/
def parse (text : String) : Option Tree := do
  let cs := match text.toList with
    | '\ufeff' :: rest => rest
    | cs => cs
  let lines ← lines? (cs.length + 1) cs
  let draft ← Draft.addAll lines {}
  let root ← draft.finish
  return root.toTree

end Toml

end TopicPublisher
