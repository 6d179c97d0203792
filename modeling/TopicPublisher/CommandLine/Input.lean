import TopicPublisher.Text.Lines
import TopicPublisher.Text.Utf8

/-!
# Messages from the standard input

Each line of the standard input that is not empty is a message. Bytes that are no text fail with the
fault of the first line that has one.
-/

namespace TopicPublisher

namespace CommandLine

/-- The lines of bytes, with their ends. -/
def byteLines (input : Bytes) : List Bytes := Text.splitAfter (fun b => b == 0x0A) input

/-- The texts of lines, up to the first that is none. -/
def textsOf : List Bytes → Except Utf8.Fault (List String)
  | [] => .ok []
  | line :: rest =>
    match Utf8.decodeChars line with
    | .error f => .error f
    | .ok cs =>
      match textsOf rest with
      | .error f => .error f
      | .ok texts => .ok (String.ofList (Text.chomp cs) :: texts)

/-- The messages that the standard input holds. -/
def messagesOf (input : Bytes) : Except Utf8.Fault (List String) :=
  (textsOf (byteLines input)).map fun texts => texts.filter fun t => !t.isEmpty

end CommandLine

end TopicPublisher
