import TopicPublisher.Config.Yaml.Flow

/-!
# Block form in YAML files

Indentation tells what belongs to what. The items of a list stand behind dashes, one below the other,
and the keys of a table likewise; a list may stand as far in as the key that it belongs to. A plain
scalar goes on over the lines that are indented further than what it belongs to.

Functions here take lines, the first of which may be the rest of a line. What is read from such a rest
gets spaces in place of what stood before it, so that its indentation stays what it was.
-/

namespace TopicPublisher

namespace Yaml

/-! ## 1. Keys and items -/

/-- A plain key, up to a colon before blank space or at the end of the line. -/
def plainKey? : Line → Option (Line × Line)
  | [] => none
  | c :: rest =>
    match c, rest with
    | ':', [] => some ([], [])
    | c, rest =>
      let next : Char := rest.headD ' '
      if c = ':' && isBlank next then some ([], rest)
      else if isBlank c && next = '#' then none
      else (plainKey? rest).map fun (key, after) => (c :: key, after)

/-- What stands after the colon of a key with signs of its own at its ends. -/
def colon? (rest : Line) : Option Line :=
  match trimLeft rest with
  | [':'] => some []
  | ':' :: c :: rest => if isBlank c then some (c :: rest) else none
  | _ => none

/-- A key at the start of a line, and what stands after its colon. -/
def key? (cs : Line) : Option (Node × Line) :=
  (if startsBlank cs then none else properties? cs).bind fun (p, rest) =>
    match trimLeft rest with
    | '*' :: rest =>
      if p.isNone then
        (name? rest).bind fun (name, rest) => (colon? rest).map fun rest => (.alias name, rest)
      else none
    | cs =>
      if startsQuoted cs then
        (quoted? cs).bind fun (s, rest) =>
          (colon? rest).map fun rest => ((Node.quoted s).mark p, rest)
      else if isIndicator false cs then none
      else (plainKey? cs).map fun (key, rest) => ((Node.plain (trim key)).mark p, rest)

/-- What stands after a sign of one character at the start of a line. -/
def afterSign? (sign : Char) : Line → Option Line
  | [] => none
  | c :: rest => if c = sign && isBlank (rest.headD ' ') then some rest else none

def isItem (cs : Line) : Bool := (afterSign? '-' cs).isSome

/-- A line with spaces in place of what was read of it. Tabs right behind that count as spaces. -/
def behind (width : Nat) (rest : Line) : Line :=
  List.replicate (width + 1) ' ' ++ (rest.takeWhile isBlank).map (fun _ => ' ') ++ trimLeft rest

/-! ## 2. Scalars and flow form -/

/-- The further lines of a plain scalar, with their line breaks folded. The first number says how far
in they stand at least, the second one how many empty lines went before. -/
def plainLines? (least : Nat) : Nat → List Line → Option (List Char × List Line)
  | _, [] => some ([], [])
  | empty, line :: lines =>
    if (trim line).isEmpty then plainLines? least (empty + 1) lines
    else if indent line < least || (trimLeft line).head? = some '#' then some ([], line :: lines)
    else
      let text := trim (dropComment (trimLeft line))
      if (plainKey? text).isSome then none
      else if text.length < (trim line).length then some (foldBreaks (empty + 1) ++ text, lines)
      else
        (plainLines? least 0 lines).map fun (s, rest) => (foldBreaks (empty + 1) ++ text ++ s, rest)

/-- A plain scalar that begins in a line. -/
def plain? (least : Nat) (cs : Line) (lines : List Line) : Option (Node × List Line) :=
  let text := trim (dropComment cs)
  if isIndicator false cs || (plainKey? text).isSome then none
  else if text.length < (trim cs).length then some (.plain text, lines)
  else (plainLines? least 0 lines).map fun (more, lines) => (.plain (text ++ more), lines)

/-- A node between signs of its own. The lines that it goes on over are indented so far at least. -/
def enclosed? (floor : Nat) (read : List Char → Option (Node × List Char)) (cs : Line)
    (lines : List Line) : Option (Node × List Line) :=
  (read (join (cs :: lines))).bind fun (n, rest) =>
    (afterNode? rest).bind fun after =>
      let inner := lines.take (lines.length - after.length)
      if inner.all fun line => isEmpty line || floor ≤ indent line then some (n, after) else none

/-- A node that begins in a line. If it is a plain scalar, its further lines stand so far in at
least. -/
def inline? (least : Nat) (cs : Line) (lines : List Line) : Option (Node × List Line) :=
  match cs with
  | [] => none
  | '*' :: rest =>
    (name? rest).bind fun (name, rest) =>
      if isDone rest then some (.alias name, lines) else none
  | '|' :: marks => (blockScalar? false least marks lines).map fun (s, lines) => (.quoted s, lines)
  | '>' :: marks => (blockScalar? true least marks lines).map fun (s, lines) => (.quoted s, lines)
  | c :: rest =>
    if c = '[' || c = '\x7b' then
      enclosed? (least - 1) (fun text => flow? (2 * text.length + 2) text) (c :: rest) lines
    else if startsQuoted (c :: rest) then
      enclosed? (least - 1) (fun text => (quoted? text).map fun (s, rest) => (.quoted s, rest)) (c :: rest)
        lines
    else plain? least (c :: rest) lines

/-- A node that begins in a line, behind its properties. None stand before an alias. -/
def markedInline? (p : Properties) (least : Nat) (cs : Line) (lines : List Line) :
    Option (Node × List Line) :=
  if cs.head? = some '*' && !p.isNone then none
  else (inline? least cs lines).map fun (n, lines) => (n.mark p, lines)

/-! ## 3. Lists and tables -/

mutual

/-- A node whose lines stand so far in at least. The first number bounds the length of the search. -/
def block? : Nat → Nat → List Line → Option (Node × List Line)
  | 0, _, _ => none
  | fuel + 1, least, lines =>
    match skipEmpty lines with
    | [] => some (.missing, [])
    | line :: lines =>
      let width := indent line
      let text := line.drop width
      if width < least then some (.missing, line :: lines)
      else if text.head? = some '\t' then none
      else if isItem text then
        (items? fuel width (line :: lines)).map fun (ns, rest) => (.list ns, rest)
      else if (afterSign? '?' text).isSome || (key? text).isSome then
        (pairs? fuel width (line :: lines)).map fun (es, rest) => (.table es, rest)
      else
        (properties? text).bind fun (p, rest) =>
          if isDone rest then (block? fuel least lines).map fun (n, rest) => (n.mark p, rest)
          else markedInline? p least (trimLeft rest) lines

/-- The items of a list whose dashes stand so far in. -/
def items? : Nat → Nat → List Line → Option (List Node × List Line)
  | 0, _, _ => none
  | fuel + 1, width, lines =>
    match skipEmpty lines with
    | [] => some ([], [])
    | line :: lines =>
      if indent line < width then some ([], line :: lines)
      else if width < indent line then none
      else
        match afterSign? '-' (line.drop width) with
        | none => some ([], line :: lines)
        | some rest =>
          (block? fuel (width + 1) (behind width rest :: lines)).bind fun (n, rest) =>
            (items? fuel width rest).map fun (ns, rest) => (n :: ns, rest)

/-- The entries of a table whose keys stand so far in. -/
def pairs? : Nat → Nat → List Line → Option (List (Node × Node) × List Line)
  | 0, _, _ => none
  | fuel + 1, width, lines =>
    match skipEmpty lines with
    | [] => some ([], [])
    | line :: lines =>
      if indent line < width then some ([], line :: lines)
      else if width < indent line then none
      else
        let pair : Option ((Node × Node) × List Line) :=
          match afterSign? '?' (line.drop width) with
          | some rest =>
            (block? fuel (width + 1) (behind width rest :: lines)).bind fun (k, lines) =>
              (signedValue? fuel width lines).map fun (v, lines) => ((k, v), lines)
          | none =>
            (key? (line.drop width)).bind fun (k, rest) =>
              (value? fuel (width + 1) rest lines).map fun (v, lines) => ((k, v), lines)
        pair.bind fun (e, lines) => (pairs? fuel width lines).map fun (es, rest) => (e :: es, rest)

/-- The value of a key that has a line to itself, behind a colon as far in as the key's sign. -/
def signedValue? : Nat → Nat → List Line → Option (Node × List Line)
  | 0, _, _ => none
  | fuel + 1, width, lines =>
    match skipEmpty lines with
    | [] => some (.missing, [])
    | line :: lines =>
      match if indent line = width then afterSign? ':' (line.drop width) else none with
      | none => some (.missing, line :: lines)
      | some rest => block? fuel (width + 1) (behind width rest :: lines)

/-- A value behind its key, or a whole file behind its mark: in the rest of the line, or on lines
below. -/
def value? : Nat → Nat → Line → List Line → Option (Node × List Line)
  | 0, _, _, _ => none
  | fuel + 1, least, rest, lines =>
    if isDone rest then below? fuel least lines
    else
      (properties? (trimLeft rest)).bind fun (p, rest) =>
        if isDone rest then (below? fuel least lines).map fun (n, rest) => (n.mark p, rest)
        else markedInline? p least (trimLeft rest) lines

/-- A value on the lines below its key. -/
def below? : Nat → Nat → List Line → Option (Node × List Line)
  | 0, _, _ => none
  | fuel + 1, least, lines =>
    match skipEmpty lines with
    | [] => some (.missing, [])
    | line :: lines =>
      if indent line + 1 = least && isItem (line.drop (indent line)) then
        (items? fuel (indent line) (line :: lines)).map fun (ns, rest) => (.list ns, rest)
      else block? fuel least (line :: lines)

end

end Yaml

end TopicPublisher
