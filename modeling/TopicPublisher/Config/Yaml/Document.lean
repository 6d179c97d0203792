import TopicPublisher.Config.Yaml.Block

/-!
# YAML files

A file holds one document, or none: then it says nothing, in a table. The document may begin at a line
of three dashes, after directives, and end at a line of three points. Two documents are refused.
-/

namespace TopicPublisher

namespace Yaml

def startMark : List Char := ['-', '-', '-']

def endMark : List Char := ['.', '.', '.']

def isStart (line : Line) : Bool := (afterMark? startMark line).isSome

def isEnd (line : Line) : Bool := (afterMark? endMark line).isSome

def isDirective (line : Line) : Bool := line.head? = some '%'

/-- The lines of a document, where nothing but empty ones and marks follow it. -/
def document? (lines : List Line) : Option (List Line) :=
  let body := lines.takeWhile fun line => !isEnd line
  let after := lines.drop body.length
  if body.any isStart || !after.all (fun line => isEmpty line || isEnd line) then none else some body

/-- The node of a document, which fills its lines. -/
def whole? (read : Option (Node × List Line)) : Option Node :=
  read.bind fun (n, rest) => if (skipEmpty rest).isEmpty then some n else none

/-- The node of a file; none is missing where there is no document. -/
def node? (lines : List Line) : Option Node :=
  let fuel := 4 * (join lines).length + 8
  let body := lines.dropWhile fun line => isEmpty line || isDirective line || isEnd line
  let directives := (lines.take (lines.length - body.length)).any isDirective
  match body with
  | [] => if directives then none else some (.table [])
  | line :: rest =>
    match afterMark? startMark line with
    | some first => (document? rest).bind fun rest => whole? (value? fuel 0 first rest)
    | none =>
      if directives then none
      else (document? (line :: rest)).bind fun lines => whole? (block? fuel 0 lines)

/-- What a file says. It ends at a character of code zero. -/
def parse (text : String) : Option Tree :=
  (node? (linesOf (text.toList.takeWhile fun c => c != '\x00'))).bind Node.tree?

end Yaml

end TopicPublisher
