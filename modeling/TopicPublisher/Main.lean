import TopicPublisher.CommandLine.Run

/-!
# The command

The command with the files, the environment and the standard input of the process. Its broker is one
in memory, which gives each message a receipt at once: what is printed is what a broker that takes
everything would make of the configuration and the messages.
-/

namespace TopicPublisher

namespace CommandLine

/-- The files that can be read, of those that are named. -/
def readFiles (names : List String) : IO Directory := do
  let mut files : Directory := []
  for name in names do
    let content ← try some <$> IO.FS.readBinFile name catch _ => pure none
    files := files ++ (content.map fun bytes => (name, bytes.toList)).toList
  return files

/-- The variables in the text of an environment, each ended by a zero byte. -/
def variablesOf (environment : Bytes) : List (String × String) :=
  (Text.splitAfter (fun b => b == 0) environment).filterMap fun entry => do
    let text ← Utf8.text? (entry.filter fun b => b != 0)
    let name := text.toList.takeWhile fun c => c != '='
    return (String.ofList name, String.ofList (text.toList.drop (name.length + 1)))

/-- The variables of the process. -/
def readVariables : IO (List (String × String)) := do
  let files ← readFiles ["/proc/self/environ"]
  return (files.map fun f => variablesOf f.2).flatten

/-- The standard input to its end. -/
def readInput : IO Bytes := do
  return (← (← IO.getStdin).readBinToEnd).toList

end CommandLine

end TopicPublisher

open TopicPublisher CommandLine in
/-- Carries the command out, and ends with its exit code. -/
def main (args : List String) : IO UInt32 := do
  let (directory, input) ← match Arguments.parse args with
    | .ok a => do
      let input ← if a.messages.isEmpty then readInput else pure []
      pure ((← readFiles (Directory.names a.configFile)), input)
    | .error _ => pure ([], [])
  let ending := run args directory (← readVariables) input { autoAck := true }
  for line in ending.printed do
    IO.println line
  (← IO.getStderr).putStr ending.report
  return UInt32.ofNat ending.exitCode
