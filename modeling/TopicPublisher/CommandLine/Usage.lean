import TopicPublisher.CommandLine.Arguments

/-!
# Usage of the command

The text that is shown where help is asked for, and the one for arguments that are refused.
-/

namespace TopicPublisher

namespace CommandLine

def usage : String := "Usage: pulsar-publish [OPTIONS] [MESSAGES]..."

/-- The text that explains the command. -/
def helpLines : List String :=
  ["Publish messages to Pulsar topics",
   "",
   usage,
   "",
   "Arguments:",
   "  [MESSAGES]...  Messages to publish; read from stdin, one per line, when omitted",
   "",
   "Options:",
   "  -c, --config <FILE>  [default: config.toml]",
   "  -t, --topic <TOPIC>  Topic to publish to (defaults to template.default_topic)",
   "      --async          Pipeline sends instead of waiting for each receipt",
   "  -j, --json-logs      Enable JSON output for logs",
   "  -v, --verbose        Verbose logging",
   "  -h, --help           Print help"]

/-- An option as usage texts show it. -/
def Choice.shown : Choice → String
  | .config => "--config <FILE>"
  | .topic => "--topic <TOPIC>"
  | .pipelined => "--async"
  | .jsonLogs => "--json-logs"
  | .verbose => "--verbose"
  | .help => "--help"

namespace UsageFault

def headline : UsageFault → String
  | .unknownOption text => "unexpected argument '" ++ text ++ "' found"
  | .valueMissing o => "a value is required for '" ++ o.shown ++ "' but none was supplied"
  | .valueNotTaken o => "unexpected value for '" ++ o.shown ++ "' found; no more were expected"
  | .repeated o => "the argument '" ++ o.shown ++ "' cannot be used multiple times"

/-- What the command writes about arguments that it refuses. -/
def report (f : UsageFault) : String :=
  "error: " ++ f.headline ++ "\n\n" ++ usage ++ "\n\nFor more information, try '--help'.\n"

end UsageFault

end CommandLine

end TopicPublisher
