import TopicPublisher.Config.Basic
import TopicPublisher.Config.Ini
import TopicPublisher.Config.Layers
import TopicPublisher.Config.Toml.Document
import TopicPublisher.Config.Yaml.Document
import TopicPublisher.Json.Basic
import TopicPublisher.Text.Utf8

/-!
# Configuration files

`Config.load` reads a configuration from a file and the environment, which lies over the file. The
format of a file is told by its extension. Where there is no file of the name given, the extensions
are tried one after the other.
-/

namespace TopicPublisher

/-- The formats of configuration files. -/
inductive FileFormat where
  | toml
  | json
  | yaml
  | ini
  deriving DecidableEq, Repr

namespace FileFormat

def all : List FileFormat := [.toml, .json, .yaml, .ini]

def extensions : FileFormat → List String
  | .toml => ["toml"]
  | .json => ["json"]
  | .yaml => ["yaml", "yml"]
  | .ini => ["ini"]

/-- A number of 64 bits with a sign is an integer, any other one a double. -/
def scalarOfInt (n : Int) : Scalar :=
  if Word.isSigned n then .int n else .float (Binary64.ofRatio (n < 0) n.natAbs 1)

mutual

def treeOfJson : Json → Tree
  | .null => .scalar .null
  | .bool b => .scalar (.bool b)
  | .int n => .scalar (scalarOfInt n)
  | .float x => .scalar (.float x)
  | .str s => .scalar (.str s)
  | .arr items => .list (treesOfJson items)
  | .obj entries => .table (entriesOfJson entries)

def treesOfJson : List Json → List Tree
  | [] => []
  | x :: xs => treeOfJson x :: treesOfJson xs

def entriesOfJson : List (String × Json) → List (String × Tree)
  | [] => []
  | (k, x) :: rest => (k, treeOfJson x) :: entriesOfJson rest

end

/-- What a text says in a format. -/
def parse (text : String) : FileFormat → Option Tree
  | .toml => Toml.parse text
  | .json => (Json.parse text).map treeOfJson
  | .yaml => Yaml.parse text
  | .ini => Ini.parse text

end FileFormat

/-- The files of a directory, by name. -/
abbrev Directory := List (String × Bytes)

namespace Directory

def file? (d : Directory) (name : String) : Option Bytes := Entries.find? name d

/-- What stands after the last point of the last part of a name. A point at the start of that part
begins no extension. -/
def extension? (name : String) : Option String :=
  let reversed := name.toList.reverse.takeWhile fun c => c != '/'
  let ending := reversed.takeWhile fun c => c != '.'
  if ending.length + 1 < reversed.length then some (String.ofList ending.reverse) else none

/-- The format of a file by its name. The case of the extension counts. -/
def format? (name : String) : Option FileFormat :=
  (extension? name).bind fun e => FileFormat.all.find? fun f => f.extensions.contains e

/-- A name without steps that stay in the directory. -/
def plainName (name : String) : String :=
  let rec go : Nat → List Char → List Char
    | fuel + 1, '.' :: '/' :: rest => go fuel (rest.dropWhile fun c => c = '/')
    | _, cs => cs
  String.ofList (go name.length name.toList)

/-- The names that stand for a name: with each extension in turn. -/
def candidates (name : String) : List (String × FileFormat) :=
  FileFormat.all.flatMap fun f => f.extensions.map fun e => (name ++ "." ++ e, f)

/-- The names of the files that are looked for under a name. -/
def names (name : String) : List String :=
  plainName name :: (candidates (plainName name)).map Prod.fst

/-- The file of a name, with its format. -/
def find (d : Directory) (name : String) : Except ConfigFault (String × FileFormat × Bytes) :=
  let plain := plainName name
  match d.file? plain with
  | some bytes =>
    match format? plain with
    | some f => .ok (plain, f, bytes)
    | none => .error (.unknownFormat name)
  | none =>
    let found := (candidates plain).findSome? fun (candidate, f) =>
      (d.file? candidate).map fun bytes => (candidate, f, bytes)
    match found with
    | some r => .ok r
    | none => .error (.fileMissing name)

/-- The layer of a file: its entries. -/
def layer (d : Directory) (name : String) : Except ConfigFault (List (String × Setting)) := do
  let (file, format, bytes) ← d.find name
  match Utf8.text? bytes with
  | none => .error .notUtf8
  | some text =>
    match format.parse text with
    | none => .error (.malformed file)
    | some (.table entries) => return Setting.ofEntries file entries
    | some t =>
      .error (.rootMismatch file
        { found := (Setting.ofTree file t).found, expected := "a map", origin := some file })

end Directory

namespace Config

/-- Reads a configuration from a file of a directory and from variables of the environment. -/
def load (d : Directory) (environment : List (String × String)) (name : String) :
    Except ConfigFault Config := do
  let file ← d.layer name
  let config ← ofSetting (Setting.ofLayers [file, environmentLayer environment])
  config.validate

end Config

end TopicPublisher
