/-!
# Topic names

A topic is `domain://tenant/namespace/name`. Two short forms are accepted as well: `name` alone, in
the tenant `public` and the namespace `default`, and `tenant/namespace/name`; both are in the domain
`persistent`. `TopicName.parse?` reads the three shapes and `TopicName.text` writes the full one.

`canonicalize` brings every accepted spelling of a topic to that one text, which is the key under
which producers are kept, and leaves everything else as it is.
-/

namespace TopicPublisher

/-- Whether the broker keeps the messages of a topic. -/
inductive TopicDomain where
  | persistent
  | nonPersistent
  deriving DecidableEq, Repr

namespace TopicDomain

/-- The scheme of a domain. -/
def text : TopicDomain → String
  | .persistent => "persistent"
  | .nonPersistent => "non-persistent"

def ofScheme? (scheme : List Char) : Option TopicDomain :=
  if scheme = TopicDomain.persistent.text.toList then some .persistent
  else if scheme = TopicDomain.nonPersistent.text.toList then some .nonPersistent
  else none

end TopicDomain

/-- A fully qualified topic, in its parts. -/
structure TopicName where
  domain : TopicDomain
  tenant : String
  namespaceName : String
  localName : String
  deriving DecidableEq, Repr

namespace TopicName

/-! ## 1. Splitting -/

/-- The parts between the slashes of a text; there is one more of them than slashes. -/
def slashParts : List Char → List (List Char)
  | [] => [[]]
  | c :: rest =>
    if c = '/' then [] :: slashParts rest
    else
      match slashParts rest with
      | [] => [[c]]
      | part :: parts => (c :: part) :: parts

/-- The three parts of `a/b/c`, none of them empty. -/
def segments? (cs : List Char) : Option (List Char × List Char × List Char) :=
  match slashParts cs with
  | [a, b, c] => if a = [] ∨ b = [] ∨ c = [] then none else some (a, b, c)
  | _ => none

/-- What stands before and after the first `://`. -/
def splitScheme? : List Char → Option (List Char × List Char)
  | [] => none
  | ':' :: '/' :: '/' :: rest => some ([], rest)
  | c :: rest => (splitScheme? rest).map fun (scheme, rest) => (c :: scheme, rest)

/-! ## 2. Reading and writing -/

def ofParts (domain : TopicDomain) (parts : List Char × List Char × List Char) : TopicName :=
  ⟨domain, String.ofList parts.1, String.ofList parts.2.1, String.ofList parts.2.2⟩

def defaultTenant : String := "public"

def defaultNamespace : String := "default"

/-- The full shape: a known domain and three segments. -/
def parseFull? (cs : List Char) : Option TopicName := do
  let (scheme, rest) ← splitScheme? cs
  let domain ← TopicDomain.ofScheme? scheme
  let parts ← segments? rest
  return ofParts domain parts

/-- The shape with tenant and namespace. -/
def parseSegments? (cs : List Char) : Option TopicName :=
  (segments? cs).map (ofParts .persistent)

/-- The shape with the name alone. -/
def parseLocal? (cs : List Char) : Option TopicName :=
  if cs = [] ∨ '/' ∈ cs then none
  else some ⟨.persistent, defaultTenant, defaultNamespace, String.ofList cs⟩

/-- The topic that a text names in one of the three shapes. -/
def parse? (raw : String) : Option TopicName :=
  let cs := raw.toList
  (parseFull? cs).orElse fun _ => (parseSegments? cs).orElse fun _ => parseLocal? cs

/-- The full text of a topic. -/
def text (t : TopicName) : String :=
  t.domain.text ++ "://" ++ t.tenant ++ "/" ++ t.namespaceName ++ "/" ++ t.localName

end TopicName

/-- The one text for all spellings of a topic. A text that names no topic stays as it is. -/
def canonicalize (raw : String) : String :=
  match TopicName.parse? raw with
  | some t => t.text
  | none => raw

end TopicPublisher
