import TopicPublisher.Config.Yaml.Line

/-!
# Quoted scalars and blocks of lines in YAML files

Within quotes, a line break and the blank space around it are one space, and further line breaks
stay. Two single quotes are one; after a backslash, double quotes have escapes. A block of lines keeps
its line breaks, or folds them.
-/

namespace TopicPublisher

namespace Yaml

/-! ## 1. Quotes -/

/-- Line breaks within a text: the first one is a space, further ones stay. -/
def foldBreaks (breaks : Nat) : List Char :=
  if breaks ≤ 1 then [' '] else List.replicate (breaks - 1) '\n'

/-- Skips blank space and line breaks, and counts the breaks. -/
def skipBreaks (cs : List Char) : Nat × List Char :=
  let space := cs.takeWhile isSpace
  (space.count '\n', cs.drop space.length)

/-- Whether blank space and then a line break follow. -/
def breakAhead (cs : List Char) : Bool := (trimLeft cs).head? = some '\n'

/-- A scalar after its single quote. The number bounds its length. -/
def single? : Nat → List Char → Option (List Char × List Char)
  | 0, _ => none
  | fuel + 1, cs =>
    match cs with
    | [] => none
    | '\'' :: '\'' :: rest => (single? fuel rest).map fun (s, rest) => ('\'' :: s, rest)
    | '\'' :: rest => some ([], rest)
    | c :: rest =>
      if breakAhead (c :: rest) then
        let (n, rest) := skipBreaks (c :: rest)
        (single? fuel rest).map fun (s, rest) => (foldBreaks n ++ s, rest)
      else (single? fuel rest).map fun (s, rest) => (c :: s, rest)

/-- A character by as many hexadecimal digits as asked for. -/
def hex? (count : Nat) (cs : List Char) : Option (Char × List Char) :=
  if (cs.take count).length = count then
    (Digits.charOf? (cs.take count)).map fun c => (c, cs.drop count)
  else none

/-- What stands after a backslash. -/
def escape? : List Char → Option (Char × List Char)
  | '0' :: rest => some ('\x00', rest)
  | 'a' :: rest => some ('\x07', rest)
  | 'b' :: rest => some ('\x08', rest)
  | 't' :: rest => some ('\t', rest)
  | '\t' :: rest => some ('\t', rest)
  | 'n' :: rest => some ('\n', rest)
  | 'v' :: rest => some ('\x0b', rest)
  | 'f' :: rest => some ('\x0c', rest)
  | 'r' :: rest => some ('\r', rest)
  | 'e' :: rest => some ('\x1b', rest)
  | ' ' :: rest => some (' ', rest)
  | '"' :: rest => some ('"', rest)
  | '/' :: rest => some ('/', rest)
  | '\\' :: rest => some ('\\', rest)
  | 'N' :: rest => some ('\u0085', rest)
  | '_' :: rest => some ('\u00a0', rest)
  | 'L' :: rest => some ('\u2028', rest)
  | 'P' :: rest => some ('\u2029', rest)
  | 'x' :: rest => hex? 2 rest
  | 'u' :: rest => hex? 4 rest
  | 'U' :: rest => hex? 8 rest
  | _ => none

/-- A scalar after its double quote. A backslash at the end of a line takes the line break away. The
number bounds its length. -/
def double? : Nat → List Char → Option (List Char × List Char)
  | 0, _ => none
  | fuel + 1, cs =>
    match cs with
    | [] => none
    | '"' :: rest => some ([], rest)
    | '\\' :: '\n' :: rest =>
      let (n, rest) := skipBreaks rest
      (double? fuel rest).map fun (s, rest) => (List.replicate n '\n' ++ s, rest)
    | '\\' :: rest =>
      (escape? rest).bind fun (c, rest) => (double? fuel rest).map fun (s, rest) => (c :: s, rest)
    | c :: rest =>
      if breakAhead (c :: rest) then
        let (n, rest) := skipBreaks (c :: rest)
        (double? fuel rest).map fun (s, rest) => (foldBreaks n ++ s, rest)
      else (double? fuel rest).map fun (s, rest) => (c :: s, rest)

def startsQuoted (cs : List Char) : Bool := cs.head? = some '"' || cs.head? = some '\''

/-- A quoted scalar. -/
def quoted? : List Char → Option (List Char × List Char)
  | '\'' :: rest => single? (rest.length + 1) rest
  | '"' :: rest => double? (rest.length + 1) rest
  | _ => none

/-! ## 2. Blocks of lines -/

/-- The lines of a block, with so much indentation taken away, as far as they go. -/
def blockLines (width : Nat) : List Line → List Line × List Line
  | [] => ([], [])
  | line :: lines =>
    if (trim line).isEmpty then
      let (ls, rest) := blockLines width lines
      (line.drop width :: ls, rest)
    else if indent line < width then ([], line :: lines)
    else
      let (ls, rest) := blockLines width lines
      (line.drop width :: ls, rest)

def startsBlank (line : Line) : Bool := (line.head?.map isBlank).getD false

/-- Lines folded: a line break between two lines is a space, unless one of them is indented. -/
def foldLines : List Line → List Char
  | [] => []
  | [line] => line
  | line :: next :: lines =>
    if line.isEmpty then '\n' :: foldLines (next :: lines)
    else if next.isEmpty then
      match (next :: lines).dropWhile List.isEmpty with
      | [] => line ++ foldLines (next :: lines)
      | after :: _ =>
        let kept := startsBlank line || startsBlank after
        line ++ (if kept then ['\n'] else []) ++ foldLines (next :: lines)
    else if startsBlank line || startsBlank next then line ++ '\n' :: foldLines (next :: lines)
    else line ++ ' ' :: foldLines (next :: lines)

/-- What the marks of a block say: whether the line breaks at its end are kept or dropped, and its
indentation within the parent's. -/
structure BlockMarks where
  keep : Bool
  drop : Bool
  width : Option Nat
  deriving DecidableEq, Repr

/-- The marks after the sign of a block, each of which is there once at most. -/
def blockMarks? (marks : Line) : Option BlockMarks :=
  let cs := trim (dropComment (' ' :: marks))
  let digits := cs.filter Char.isDigit
  let breaks := cs.filter fun c => !Char.isDigit c
  if 1 < digits.length || digits = ['0'] then none
  else if breaks = [] || breaks = ['+'] || breaks = ['-'] then
    some ⟨breaks = ['+'], breaks = ['-'], digits.head?.map fun d => d.toNat - 48⟩
  else none

/-- A block of lines after its sign. Its lines are indented so far at least; how far, its first line
tells, unless a mark does. One line break is kept at its end where no mark says otherwise. -/
def blockScalar? (folded : Bool) (least : Nat) (marks : Line) (lines : List Line) :
    Option (List Char × List Line) :=
  (blockMarks? marks).map fun marks =>
    let first := (lines.dropWhile fun line => (trim line).isEmpty).head?
    let width := match marks.width with
      | some n => (least - 1) + n
      | none => max least ((first.map indent).getD 0)
    let (body, rest) := blockLines width lines
    let trailing := (body.reverse.takeWhile List.isEmpty).length
    let text := body.take (body.length - trailing)
    let breaks :=
      if marks.keep then (if text.isEmpty then 0 else 1) + trailing
      else if marks.drop || text.isEmpty then 0
      else 1
    ((if folded then foldLines text else join text) ++ List.replicate breaks '\n', rest)

end Yaml

end TopicPublisher
