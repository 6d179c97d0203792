import TopicPublisher.Config.Setting
import TopicPublisher.Json.Quoted

/-!
# INI files

A file has entries, `key = value` or `key : value`, and sections of entries, `[name]`. All values are
texts. A key goes on until its sign, over line breaks if need be; a value ends with its line, and may
be in quotes. A backslash escapes the character after it, everywhere. Comments are whole lines that
begin with `;` or `#` in their first column.

Of several entries of one key the last one counts, and of several sections of one name too.
-/

namespace TopicPublisher

namespace Ini

def isBlank (c : Char) : Bool := c = ' ' || c = '\t'

def isSpace (c : Char) : Bool := isBlank c || c = '\n' || c = '\r'

def trim (cs : List Char) : List Char :=
  ((cs.dropWhile isSpace).reverse.dropWhile isSpace).reverse

/-- What stands after a backslash; none in it stands for nothing at all. -/
def escape? : List Char → Option (Option Char × List Char)
  | '0' :: rest => some (some '\x00', rest)
  | 'a' :: rest => some (some '\x07', rest)
  | 'b' :: rest => some (some '\x08', rest)
  | 't' :: rest => some (some '\t', rest)
  | 'r' :: rest => some (some '\r', rest)
  | 'n' :: rest => some (some '\n', rest)
  | '\n' :: rest => some (none, rest)
  | 'x' :: a :: b :: c :: d :: rest => do
    let n ← Json.hexUnit a b c d
    if h : n.isValidChar then some (some (Char.ofNatAux n h), rest) else none
  | c :: rest => some (some c, rest)
  | [] => none

/-- A text up to a character that ends it, which is left. The number bounds its length. -/
def upTo (ends : Char → Bool) (mayEnd : Bool) : Nat → List Char → Option (List Char × List Char)
  | 0, _ => none
  | fuel + 1, cs =>
    match cs with
    | [] => if mayEnd then some ([], []) else none
    | c :: rest =>
      if ends c then some ([], c :: rest)
      else if c = '\\' then
        (escape? rest).bind fun (x, rest) =>
          (upTo ends mayEnd fuel rest).map fun (s, rest) => (x.toList ++ s, rest)
      else (upTo ends mayEnd fuel rest).map fun (s, rest) => (c :: s, rest)

/-- A text up to the end of its line, without the space around it. -/
def restOfLine? (cs : List Char) : Option (List Char × List Char) :=
  (upTo (fun c => c = '\n' || c = '\r') true (cs.length + 1) cs).map fun (s, rest) => (trim s, rest)

/-- A value after its sign. What follows a closing quote belongs to it. -/
def value? (cs : List Char) : Option (List Char × List Char) :=
  let cs := cs.dropWhile isBlank
  let quoted (q : Char) (rest : List Char) : Option (List Char × List Char) :=
    (upTo (fun c => c = q) false (rest.length + 1) rest).bind fun (s, rest) =>
      (restOfLine? (rest.drop 1)).map fun (more, rest) => (s ++ more, rest)
  match cs with
  | '"' :: rest => quoted '"' rest
  | '\'' :: rest => quoted '\'' rest
  | cs => restOfLine? cs

/-- A file so far. -/
structure Draft where
  general : List (String × Tree) := []
  sections : List (String × List (String × Tree)) := []
  /-- The entries after the last header, and its name. -/
  current : Option (String × List (String × Tree)) := none

namespace Draft

/-- Ends the section that entries go into. -/
def finish (d : Draft) : Draft :=
  match d.current with
  | none => d
  | some (name, entries) => { d with sections := Entries.putLast name entries d.sections, current := none }

def add (d : Draft) (key value : List Char) : Draft :=
  let key := String.ofList key
  let value : Tree := .scalar (.str (String.ofList value))
  match d.current with
  | none => { d with general := Entries.putLast key value d.general }
  | some (name, entries) => { d with current := some (name, Entries.putLast key value entries) }

def toTree (d : Draft) : Tree :=
  let d := d.finish
  .table (d.general ++ d.sections.map fun s => (s.1, .table s.2))

end Draft

/-- Skips space, and tells whether what follows stands in the first column of its line. -/
def skipSpace (first : Bool) : List Char → Bool × List Char
  | c :: rest =>
    if c = '\n' then skipSpace true rest
    else if isSpace c then skipSpace false rest
    else (first, c :: rest)
  | [] => (first, [])

/-- Reads lines into a draft. The number bounds how many there are. -/
def read? : Nat → Bool → List Char → Draft → Option Draft
  | 0, _, _, _ => none
  | fuel + 1, first, cs, d =>
    let (first, cs) := skipSpace first cs
    match cs with
    | [] => some d
    | '[' :: rest =>
      (upTo (fun c => c = ']') false (rest.length + 1) rest).bind fun (name, rest) =>
        read? fuel false (rest.drop 1)
          { d.finish with current := some (String.ofList (trim name), []) }
    | c :: rest =>
      if c = ';' || c = '#' then
        if first then
          read? fuel true ((rest.dropWhile fun c => c != '\n').drop 1) d
        else none
      else
        let isSign (c : Char) : Bool := c = '=' || c = ':'
        (upTo isSign false (cs.length + 1) cs).bind fun (key, rest) =>
          let key := trim key
          if key.isEmpty then none
          else
            (value? (rest.drop 1)).bind fun (value, rest) =>
              read? fuel false rest (d.add key value)

/-- What a file says. -/
def parse (text : String) : Option Tree :=
  (read? (text.length + 1) true text.toList {}).map Draft.toTree

end Ini

end TopicPublisher
