import TopicPublisher.Config.Fault
import TopicPublisher.Error
import TopicPublisher.Text.Quoted
import TopicPublisher.Text.Utf8

/-!
# Why the command fails

A failure of the command is reported by a headline and, where something else is behind it, by the
cause, each line of which is indented.
-/

namespace TopicPublisher

namespace CommandLine

/-- Why the command fails.

* `input`: the standard input is no text.
* `send`: a send was refused.
* `undelivered`: so many pending sends failed. -/
inductive CommandFault where
  | configuration (file : String) (f : ConfigFault)
  | connection (e : ClientError)
  | input (f : Utf8.Fault)
  | send (e : Error)
  | undelivered (count : Nat)

namespace CommandFault

def headline : CommandFault → String
  | .configuration file _ => "Failed to load configuration from " ++ Text.quoted file
  | .connection _ => "Failed to connect to Pulsar"
  | .input f => f.message
  | .send e => e.message
  | .undelivered count => s!"{count} messages failed"

def cause? : CommandFault → Option String
  | .configuration _ f => some (Error.config f.message).message
  | .connection e => some e.message
  | .input _ => none
  | .send e => e.source?
  | .undelivered _ => none

/-- A text whose lines are indented by four blanks. -/
def indented (s : String) : String :=
  String.ofList ("    ".toList ++ s.toList.flatMap fun c =>
    if c = '\n' then "\n    ".toList else [c])

/-- What the command writes about its failure. -/
def report (f : CommandFault) : String :=
  let cause := match f.cause? with
    | some text => "\n\nCaused by:\n" ++ indented text
    | none => ""
  "Error: " ++ f.headline ++ cause ++ "\n"

example : (CommandFault.connection (.other "a\nb")).report =
    "Error: Failed to connect to Pulsar\n\nCaused by:\n    a\n    b\n" := by rfl

end CommandFault

end CommandLine

end TopicPublisher
