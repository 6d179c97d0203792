import TopicPublisher.Config.Yaml.Quoted

/-!
# Flow form in YAML files

Lists in brackets and tables in braces, with commas between their parts; a comma may stand after the
last one. Line breaks count as blank space here. A colon ends a key where blank space or a sign
follows it, and at once behind a quote or a bracket. An entry of a list may be a pair, which is a
table of one entry.
-/

namespace TopicPublisher

namespace Yaml

/-- Skips blank space, line breaks and comments. The number bounds how many of them there are. -/
def skipFlow : Nat → List Char → List Char
  | 0, cs => cs
  | fuel + 1, cs =>
    match cs with
    | '#' :: rest => skipFlow fuel (rest.dropWhile fun c => c != '\n')
    | c :: rest => if isSpace c then skipFlow fuel rest else c :: rest
    | [] => []

def skipSpace (cs : List Char) : List Char := skipFlow cs.length cs

/-- Whether a colon at this place ends a key. -/
def endsKey : List Char → Bool
  | ':' :: c :: _ => isSpace c || isFlowSign c
  | [':'] => true
  | _ => false

/-- The characters of a plain scalar. Space within it is kept on one line, and folded with the line
breaks otherwise. The number bounds its length. -/
def flowPlain : Nat → List Char → List Char × List Char
  | 0, cs => ([], cs)
  | fuel + 1, cs =>
    match cs with
    | [] => ([], [])
    | c :: rest =>
      if isFlowSign c || endsKey (c :: rest) then ([], c :: rest)
      else if isSpace c then
        let space := (c :: rest).takeWhile isSpace
        let next := (c :: rest).drop space.length
        match next with
        | [] => ([], [])
        | d :: _ =>
          if isFlowSign d || d = '#' || endsKey next then ([], c :: rest)
          else
            let (s, rest) := flowPlain fuel next
            let breaks := space.count '\n'
            ((if breaks = 0 then space else foldBreaks breaks) ++ s, rest)
      else
        let (s, rest) := flowPlain fuel rest
        (c :: s, rest)

/-- A scalar or an alias, and its properties. Properties may stand alone. -/
def flowScalar? (p : Properties) (cs : List Char) : Option (Node × List Char) :=
  match cs with
  | '*' :: rest =>
    if p.isNone then (name? rest).map fun (name, rest) => (.alias name, rest) else none
  | c :: rest =>
    if startsQuoted (c :: rest) then
      (quoted? (c :: rest)).map fun (s, rest) => ((Node.quoted s).mark p, rest)
    else if !p.isNone && (isFlowSign c || endsKey (c :: rest)) then some (Node.missing.mark p, c :: rest)
    else if isIndicator true (c :: rest) then none
    else
      let (s, rest) := flowPlain (rest.length + 1) (c :: rest)
      some ((Node.plain s).mark p, rest)
  | [] => none

/-- What follows the colon after a key; none where there is no colon. -/
def afterColon? (key : Node) : List Char → Option (List Char)
  | ':' :: rest => if key.isEnclosed || endsKey (':' :: rest) then some rest else none
  | _ => none

/-- What follows the sign before a key, which may be left out. -/
def skipKeySign : List Char → List Char
  | '?' :: c :: rest => if isSpace c then skipSpace rest else '?' :: c :: rest
  | cs => cs

mutual

/-- A node. The number bounds the length of the search. -/
def flow? : Nat → List Char → Option (Node × List Char)
  | 0, _ => none
  | fuel + 1, cs =>
    (properties? (skipSpace cs)).bind fun (p, rest) =>
      match skipSpace rest with
      | '[' :: rest => (flowItems? fuel rest).map fun (ns, rest) => ((Node.list ns).mark p, rest)
      | '\x7b' :: rest => (flowPairs? fuel rest).map fun (es, rest) => ((Node.table es).mark p, rest)
      | rest => flowScalar? p rest

/-- The items of a list up to its closing bracket. -/
def flowItems? : Nat → List Char → Option (List Node × List Char)
  | 0, _ => none
  | fuel + 1, cs =>
    match skipSpace cs with
    | ']' :: rest => some ([], rest)
    | cs =>
      (flow? fuel (skipKeySign cs)).bind fun (n, rest) =>
        let item : Option (Node × List Char) := match afterColon? n (skipSpace rest) with
          | some rest => (flowValue? fuel rest).map fun (v, rest) => (.table [(n, v)], rest)
          | none => some (n, rest)
        item.bind fun (n, rest) =>
          match skipSpace rest with
          | ',' :: rest => (flowItems? fuel rest).map fun (ns, rest) => (n :: ns, rest)
          | ']' :: rest => some ([n], rest)
          | _ => none

/-- A value, which may be missing. -/
def flowValue? : Nat → List Char → Option (Node × List Char)
  | 0, _ => none
  | fuel + 1, cs =>
    match skipSpace cs with
    | ',' :: rest => some (.missing, ',' :: rest)
    | '\x7d' :: rest => some (.missing, '\x7d' :: rest)
    | ']' :: rest => some (.missing, ']' :: rest)
    | cs => flow? fuel cs

/-- The entries of a table up to its closing brace. -/
def flowPairs? : Nat → List Char → Option (List (Node × Node) × List Char)
  | 0, _ => none
  | fuel + 1, cs =>
    match skipSpace cs with
    | '\x7d' :: rest => some ([], rest)
    | cs =>
      (flow? fuel (skipKeySign cs)).bind fun (k, rest) =>
        let value : Option (Node × List Char) := match afterColon? k (skipSpace rest) with
          | some rest => flowValue? fuel rest
          | none => some (.missing, rest)
        value.bind fun (v, rest) =>
          match skipSpace rest with
          | ',' :: rest => (flowPairs? fuel rest).map fun (es, rest) => ((k, v) :: es, rest)
          | '\x7d' :: rest => some ([(k, v)], rest)
          | _ => none

end

end Yaml

end TopicPublisher
