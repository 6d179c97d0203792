import TopicPublisher.Config.Yaml.Node

/-!
# Lines of YAML files

A line is the characters between two line breaks. The spaces at its start are its indentation. A
comment begins with `#`, at the start of a line or after blank space.
-/

namespace TopicPublisher

namespace Yaml

abbrev Line := List Char

/-! ## 1. Blank space -/

def isBlank (c : Char) : Bool := c = ' ' || c = '\t'

def isSpace (c : Char) : Bool := isBlank c || c = '\n'

def trimLeft (cs : Line) : Line := cs.dropWhile isBlank

def trim (cs : Line) : Line := ((trimLeft cs).reverse.dropWhile isBlank).reverse

def indent (cs : Line) : Nat := (cs.takeWhile fun c => c = ' ').length

/-- Lines at their line breaks: a line feed, a carriage return, or both. -/
def split : List Char → List Line
  | [] => [[]]
  | '\r' :: '\n' :: rest => [] :: split rest
  | c :: rest =>
    if c = '\n' || c = '\r' then [] :: split rest
    else
      match split rest with
      | [] => [[c]]
      | line :: lines => (c :: line) :: lines

/-- The lines of a file. Behind a line break at its end there is none. -/
def linesOf (cs : List Char) : List Line :=
  let lines := split cs
  if lines.getLast? = some [] then lines.dropLast else lines

def join : List Line → List Char
  | [] => []
  | [line] => line
  | line :: lines => line ++ '\n' :: join lines

/-! ## 2. What a line says -/

/-- Whether a line says nothing. -/
def isEmpty (cs : Line) : Bool :=
  match trimLeft cs with
  | [] => true
  | c :: _ => c = '#'

def skipEmpty (lines : List Line) : List Line := lines.dropWhile isEmpty

/-- A line up to its comment. -/
def dropComment : Line → Line
  | ' ' :: '#' :: _ => []
  | '\t' :: '#' :: _ => []
  | c :: rest => c :: dropComment rest
  | [] => []

/-- Whether nothing but a comment is left of a line. -/
def isDone (cs : Line) : Bool :=
  match trimLeft cs with
  | [] => true
  | '#' :: _ => (cs.head?.map isBlank).getD true
  | _ => false

/-- The lines after a node that ended within a line. -/
def afterNode? (rest : List Char) : Option (List Line) :=
  match split rest with
  | [] => some []
  | line :: lines => if isDone line then some lines else none

/-- What stands after a mark between documents, at the start of a line. -/
def afterMark? (mark : List Char) (line : Line) : Option Line :=
  if line.take mark.length = mark then
    match line.drop mark.length with
    | [] => some []
    | c :: rest => if isBlank c then some (c :: rest) else none
  else none

/-! ## 3. Names and tags -/

def isFlowSign (c : Char) : Bool := c = ',' || c = '[' || c = ']' || c = '{' || c = '}'

/-- The characters of a name or a tag. -/
def isNameChar (c : Char) : Bool := !isSpace c && !isFlowSign c

/-- A name after its sign. -/
def name? (cs : List Char) : Option (String × List Char) :=
  match cs.span isNameChar with
  | ([], _) => none
  | (name, rest) => some (String.ofList name, rest)

/-- A tag; one in angle brackets is read up to the closing one. -/
def tag? (cs : List Char) : Option (Tag × List Char) :=
  match cs with
  | '!' :: '<' :: rest =>
    match rest.dropWhile fun c => c != '>' with
    | _ :: rest => some (.text, rest)
    | [] => none
  | '!' :: rest =>
    let (tag, rest) := rest.span isNameChar
    some (Tag.ofList ('!' :: tag), rest)
  | _ => none

/-- The properties before a node: a name, a tag, or both in any order, with blank space between
them. -/
def properties? (cs : List Char) : Option (Properties × List Char) :=
  match cs with
  | '&' :: rest =>
    (name? rest).bind fun (anchor, rest) =>
      match trimLeft rest with
      | '!' :: more =>
        (tag? ('!' :: more)).map fun (tag, rest) => ({ anchor := some anchor, tag := some tag }, rest)
      | _ => some ({ anchor := some anchor }, rest)
  | '!' :: _ =>
    (tag? cs).bind fun (tag, rest) =>
      match trimLeft rest with
      | '&' :: more =>
        (name? more).map fun (anchor, rest) => ({ anchor := some anchor, tag := some tag }, rest)
      | _ => some ({ tag := some tag }, rest)
  | _ => some ({}, cs)

/-- Whether no plain scalar can begin with this. A dash, a question mark and a colon can begin one,
where what follows belongs to it. -/
def isIndicator (inFlow : Bool) (cs : List Char) : Bool :=
  match cs with
  | c :: rest =>
    if c = '-' || c = '?' || c = ':' then
      match rest with
      | d :: _ => isSpace d || (inFlow && isFlowSign d)
      | [] => true
    else "#&*!|>%@`,[]\x7b\x7d\"'".toList.contains c
  | [] => true

end Yaml

end TopicPublisher
