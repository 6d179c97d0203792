/-!
# Arguments of the command

The command takes options and messages in any order. An option has a long name or a letter or both.
Letters may stand together behind one hyphen; a value stands behind its option as the next argument,
or in the same one, after an equals sign or, behind a letter, at once. After `--` all is messages.
No option may be given twice.

1. `Arguments.parse` reads arguments from the left and stops at the first fault, or where help is
   asked for.
2. `parse_messages` : what stands after `--` is taken as it is.
-/

namespace TopicPublisher

namespace CommandLine

/-- The options of the command. -/
inductive Choice where
  | config
  | topic
  | pipelined
  | jsonLogs
  | verbose
  | help
  deriving DecidableEq, Repr

namespace Choice

def ofLongName? : String → Option Choice
  | "config" => some .config
  | "topic" => some .topic
  | "async" => some .pipelined
  | "json-logs" => some .jsonLogs
  | "verbose" => some .verbose
  | "help" => some .help
  | _ => none

def ofLetter? : Char → Option Choice
  | 'c' => some .config
  | 't' => some .topic
  | 'j' => some .jsonLogs
  | 'v' => some .verbose
  | 'h' => some .help
  | _ => none

/-- Whether a value belongs to the option. -/
def takesValue : Choice → Bool
  | .config => true
  | .topic => true
  | _ => false

end Choice

/-- Why arguments are refused. -/
inductive UsageFault where
  | unknownOption (text : String)
  | valueMissing (o : Choice)
  | valueNotTaken (o : Choice)
  | repeated (o : Choice)
  deriving DecidableEq, Repr

/-- Why the arguments are not read to the end. -/
inductive Interruption where
  | help
  | fault (f : UsageFault)
  deriving DecidableEq, Repr

/-- What the command is asked to do. -/
structure Arguments where
  /-- The configuration file, unless it is the usual one. -/
  config : Option String := none
  topic : Option String := none
  /-- Whether sends are pending while others are made. -/
  pipelined : Bool := false
  jsonLogs : Bool := false
  verbose : Bool := false
  messages : List String := []
  deriving DecidableEq, Repr

namespace Arguments

/-- The name of the configuration file. -/
def configFile (a : Arguments) : String := a.config.getD "config.toml"

/-! ## 1. Single options -/

/-- Takes an option without a value. -/
def raise (a : Arguments) (o : Choice) : Except Interruption Arguments :=
  let once (given : Bool) (b : Arguments) : Except Interruption Arguments :=
    if given then .error (.fault (.repeated o)) else .ok b
  match o with
  | .pipelined => once a.pipelined { a with pipelined := true }
  | .jsonLogs => once a.jsonLogs { a with jsonLogs := true }
  | .verbose => once a.verbose { a with verbose := true }
  | .help => .error .help
  | .config => .error (.fault (.valueMissing o))
  | .topic => .error (.fault (.valueMissing o))

/-- Takes an option with its value. The name of a file is not empty; a topic may be. -/
def assign (a : Arguments) (o : Choice) (value : String) : Except Interruption Arguments :=
  match o with
  | .config =>
    if value.isEmpty then .error (.fault (.valueMissing o))
    else if a.config.isSome then .error (.fault (.repeated o))
    else .ok { a with config := some value }
  | .topic =>
    if a.topic.isSome then .error (.fault (.repeated o)) else .ok { a with topic := some value }
  | _ => .error (.fault (.valueNotTaken o))

/-! ## 2. Single arguments -/

/-- The forms of an argument. -/
inductive Form where
  /-- From here on all is messages. -/
  | divider
  /-- A long name, and the value after the equals sign. -/
  | long (name : String) (value : Option String)
  | letters (cs : List Char)
  | plain
  deriving DecidableEq, Repr

/-- The form of an argument. A hyphen alone is plain text. -/
def formOf (arg : String) : Form :=
  match arg.toList with
  | ['-', '-'] => .divider
  | '-' :: '-' :: cs =>
    let name := cs.takeWhile fun c => c != '='
    match cs.dropWhile fun c => c != '=' with
    | [] => .long (String.ofList name) none
    | _ :: value => .long (String.ofList name) (some (String.ofList value))
  | '-' :: c :: cs => .letters (c :: cs)
  | _ => .plain

/-- Takes letters that stand together. An option that waits for its value comes with the result. -/
def takeLetters (a : Arguments) : List Char → Except Interruption (Arguments × Option Choice)
  | [] => .ok (a, none)
  | c :: cs =>
    match Choice.ofLetter? c with
    | none => .error (.fault (.unknownOption (String.ofList ['-', c])))
    | some o =>
      if o.takesValue then
        match cs with
        | [] => .ok (a, some o)
        | '=' :: value => (a.assign o (String.ofList value)).map fun a => (a, none)
        | value => (a.assign o (String.ofList value)).map fun a => (a, none)
      else
        match a.raise o with
        | .error e => .error e
        | .ok a => a.takeLetters cs

/-- Takes a long name. An option that waits for its value comes with the result. -/
def takeLong (a : Arguments) (name : String) (value : Option String) :
    Except Interruption (Arguments × Option Choice) :=
  match Choice.ofLongName? name, value with
  | none, _ => .error (.fault (.unknownOption ("--" ++ name)))
  | some o, some value =>
    if o.takesValue then (a.assign o value).map fun a => (a, none)
    else .error (.fault (.valueNotTaken o))
  | some o, none =>
    if o.takesValue then .ok (a, some o) else (a.raise o).map fun a => (a, none)

/-! ## 3. All arguments -/

/-- Goes on reading where an option may be waiting for its value. -/
def readFrom (a : Arguments) : Option Choice → List String → Except Interruption Arguments
  | none, [] => .ok a
  | some o, [] => .error (.fault (.valueMissing o))
  | waiting, arg :: rest =>
    match waiting, formOf arg with
    | some o, .plain =>
      match a.assign o arg with
      | .error e => .error e
      | .ok a => a.readFrom none rest
    | some o, _ => .error (.fault (.valueMissing o))
    | none, .divider => .ok { a with messages := a.messages ++ rest }
    | none, .long name value =>
      match a.takeLong name value with
      | .error e => .error e
      | .ok (a, waiting) => a.readFrom waiting rest
    | none, .letters cs =>
      match a.takeLetters cs with
      | .error e => .error e
      | .ok (a, waiting) => a.readFrom waiting rest
    | none, .plain => { a with messages := a.messages ++ [arg] }.readFrom none rest

/-- What the arguments of the command say. -/
def parse (args : List String) : Except Interruption Arguments := readFrom {} none args

theorem parse_nil : parse [] = .ok {} := rfl

/-- After the divider all is messages. -/
theorem parse_messages (ms : List String) : parse ("--" :: ms) = .ok { messages := ms } := by
  simp [parse, readFrom, formOf]

example : parse ["-jt=x", "a", "--async", "", "-v", "--", "-t"] =
    .ok { topic := some "x", pipelined := true, jsonLogs := true, verbose := true,
          messages := ["a", "", "-t"] } := by rfl
example : parse ["-t", "a", "-tb"] = .error (.fault (.repeated .topic)) := by rfl

end Arguments

end CommandLine

end TopicPublisher
