import TopicPublisher.Config.Digits

/-!
# Texts in TOML files

Blank space, comments, keys, and the four kinds of strings: basic ones, with escapes, and literal
ones, each on one line or, between three quotes, on several. A string on several lines drops a line
break at its start, keeps up to two quotes before its end, and writes every line break as one
character.
-/

namespace TopicPublisher

namespace Toml

/-- What is read, and what is left to read. -/
abbrev Read (α : Type) := Option (α × List Char)

/-! ## 1. Between values -/

def isBlank (c : Char) : Bool := c = ' ' || c = '\t'

def skipBlank (cs : List Char) : List Char := cs.dropWhile isBlank

/-- Whether a character may stand in a comment or, the quote apart, in a literal string. -/
def isPrintable (c : Char) : Bool := c = '\t' || (32 ≤ c.toNat && c.toNat != 127)

/-- A line break. -/
def newline? : List Char → Option (List Char)
  | '\n' :: rest => some rest
  | '\r' :: '\n' :: rest => some rest
  | _ => none

/-- A comment, where there is one. -/
def skipComment : List Char → List Char
  | '#' :: rest => rest.dropWhile isPrintable
  | cs => cs

/-- The end of a line: blank space, a comment, and a line break or the end of the file. -/
def endLine? (cs : List Char) : Option (List Char) :=
  match skipComment (skipBlank cs) with
  | [] => some []
  | rest => newline? rest

/-- Blank space, comments and line breaks. The number bounds how many lines there are. -/
def skipLines : Nat → List Char → List Char
  | 0, cs => cs
  | fuel + 1, cs =>
    let rest := skipComment (skipBlank cs)
    match newline? rest with
    | some rest => skipLines fuel rest
    | none => rest

/-! ## 2. Strings on one line -/

/-- A character by as many hexadecimal digits as asked for. -/
def takeHex? (count : Nat) (cs : List Char) : Read Char :=
  if (cs.take count).length = count then (Digits.charOf? (cs.take count)).map fun c => (c, cs.drop count)
  else none

/-- What stands after a backslash. -/
def escape? : List Char → Read Char
  | 'b' :: rest => some ('\x08', rest)
  | 't' :: rest => some ('\t', rest)
  | 'n' :: rest => some ('\n', rest)
  | 'f' :: rest => some ('\x0c', rest)
  | 'r' :: rest => some ('\r', rest)
  | '"' :: rest => some ('"', rest)
  | '\\' :: rest => some ('\\', rest)
  | 'u' :: rest => takeHex? 4 rest
  | 'U' :: rest => takeHex? 8 rest
  | _ => none

/-- A basic string after its opening quote. The number bounds its length. -/
def basic? : Nat → List Char → Read (List Char)
  | 0, _ => none
  | fuel + 1, cs =>
    match cs with
    | '"' :: rest => some ([], rest)
    | '\\' :: rest =>
      (escape? rest).bind fun (c, rest) => (basic? fuel rest).map fun (s, rest) => (c :: s, rest)
    | c :: rest =>
      if isPrintable c then (basic? fuel rest).map fun (s, rest) => (c :: s, rest) else none
    | [] => none

/-- A literal string after its opening quote. -/
def literal? (cs : List Char) : Read (List Char) :=
  let s := cs.takeWhile fun c => isPrintable c && c != '\''
  match cs.drop s.length with
  | '\'' :: rest => some (s, rest)
  | _ => none

/-! ## 3. Strings on several lines -/

/-- The line breaks and blank space after a backslash at the end of a line. -/
def continuation? (cs : List Char) : Option (List Char) :=
  (newline? (skipBlank cs)).map fun rest =>
    rest.dropWhile fun c => isBlank c || c = '\n' || c = '\r'

/-- The quotes at an end: three of them end the string, and up to two before those belong to it. -/
def closing? (quote : Char) (cs : List Char) : Read (List Char) :=
  let run := (cs.takeWhile fun c => c = quote).length
  if 3 ≤ run ∧ run ≤ 5 then some (List.replicate (run - 3) quote, cs.drop run) else none

/-- A string on several lines after the opening quotes. The number bounds its length. -/
def multiline? (quote : Char) (escapes : Bool) : Nat → List Char → Read (List Char)
  | 0, _ => none
  | fuel + 1, cs =>
    match closing? quote cs with
    | some r => some r
    | none =>
      match newline? cs with
      | some rest => (multiline? quote escapes fuel rest).map fun (s, rest) => ('\n' :: s, rest)
      | none =>
        match cs with
        | [] => none
        | c :: rest =>
          if escapes && c = '\\' then
            match continuation? rest with
            | some rest => multiline? quote escapes fuel rest
            | none =>
              (escape? rest).bind fun (c, rest) =>
                (multiline? quote escapes fuel rest).map fun (s, rest) => (c :: s, rest)
          else if c = quote && 3 ≤ (cs.takeWhile fun c => c = quote).length then none
          else if isPrintable c then
            (multiline? quote escapes fuel rest).map fun (s, rest) => (c :: s, rest)
          else none

/-- A line break right after the opening quotes is dropped. -/
def dropFirstBreak (cs : List Char) : List Char := (newline? cs).getD cs

/-- A string of any kind. -/
def string? (cs : List Char) : Read String :=
  let read : Read (List Char) := match cs with
    | '"' :: '"' :: '"' :: rest => multiline? '"' true (rest.length + 1) (dropFirstBreak rest)
    | '\'' :: '\'' :: '\'' :: rest => multiline? '\'' false (rest.length + 1) (dropFirstBreak rest)
    | '"' :: rest => basic? (rest.length + 1) rest
    | '\'' :: rest => literal? rest
    | _ => none
  read.map fun (s, rest) => (String.ofList s, rest)

/-! ## 4. Keys -/

def isBareKeyChar (c : Char) : Bool :=
  ('a' ≤ c && c ≤ 'z') || ('A' ≤ c && c ≤ 'Z') || ('0' ≤ c && c ≤ '9') || c = '_' || c = '-'

/-- One part of a key. -/
def keyPart? (cs : List Char) : Read String :=
  match cs with
  | '"' :: rest => (basic? (rest.length + 1) rest).map fun (s, rest) => (String.ofList s, rest)
  | '\'' :: rest => (literal? rest).map fun (s, rest) => (String.ofList s, rest)
  | cs =>
    match cs.span isBareKeyChar with
    | ([], _) => none
    | (s, rest) => some (String.ofList s, rest)

/-- The parts of a key, with points between them. The number bounds how many there are. -/
def key? : Nat → List Char → Read (List String)
  | 0, _ => none
  | fuel + 1, cs =>
    (keyPart? (skipBlank cs)).bind fun (part, rest) =>
      match skipBlank rest with
      | '.' :: rest => (key? fuel rest).map fun (parts, rest) => (part :: parts, rest)
      | rest => some ([part], rest)

end Toml

end TopicPublisher
