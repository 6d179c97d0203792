/-!
# Errors

Two layers of errors. A `ClientError` is what the wire client reports about one attempt to open a
producer, to send a message or to close a producer. An `Error` is what a caller of the publisher
sees: it names the topic, says how a failed send is classified, and keeps the client's error as its
source.

* `Error.message` is the wording of each error.
* `Error.isRetriable` and `Error.isQueueFull` classify errors for a caller that wants to try again.
-/

namespace TopicPublisher

/-- An error of the wire client. -/
inductive ClientError where
  | connection (text : String)
  | queueFull (text : String)
  | timeout (text : String)
  | rejected (text : String)
  | closed
  | other (text : String)
  deriving DecidableEq, Repr

/-- The wording of a client error. -/
def ClientError.message : ClientError → String
  | .connection t => "Connection error: " ++ t
  | .queueFull t => "Producer queue is full: " ++ t
  | .timeout t => "Timed out: " ++ t
  | .rejected t => "Rejected by broker: " ++ t
  | .closed => "Producer already closed"
  | .other t => t

/-- The classes of failed sends. -/
inductive PublishKind where
  | queueFull
  | timeout
  | rejected
  | other
  deriving DecidableEq, Repr

namespace PublishKind

def text : PublishKind → String
  | .queueFull => "queue full"
  | .timeout => "timeout"
  | .rejected => "rejected"
  | .other => "other"

/-- The class of a failed send by the client error behind it. -/
def ofClientError : ClientError → PublishKind
  | .queueFull _ => .queueFull
  | .timeout _ => .timeout
  | .rejected _ => .rejected
  | _ => .other

end PublishKind

/-- An error of the publisher.

* `noDefaultTopic`: a send that names no topic, without a default topic to fall back to.
* `publish`: the message reached the topic's producer and was not acknowledged.
* `malformedHeader`: a header of an envelope that must be text is something else. -/
inductive Error where
  | noDefaultTopic
  | producerCreation (topic : String) (source : ClientError)
  | publish (topic : String) (kind : PublishKind) (source : ClientError)
  | factoryClosed
  | malformedHeader (header found : String)
  | serialization (text : String)
  | config (text : String)
  deriving DecidableEq, Repr

namespace Error

/-- A failed send, classified. -/
def ofSend (topic : String) (source : ClientError) : Error :=
  .publish topic (PublishKind.ofClientError source) source

/-- The wording of an error. -/
def message : Error → String
  | .noDefaultTopic => "Send failed, no default topic provided"
  | .producerCreation topic source =>
    "Could not create producer for topic '" ++ topic ++ "': " ++ source.message
  | .publish topic kind source =>
    "Send message to '" ++ topic ++ "' failed (" ++ kind.text ++ "): " ++ source.message
  | .factoryClosed => "Producer factory is closed"
  | .malformedHeader header found =>
    "Header '" ++ header ++ "' must be text or UTF-8 binary, not " ++ found
  | .serialization text => "Serialization error: " ++ text
  | .config text => "Configuration error: " ++ text

/-- The wording of the cause behind an error, where there is one. -/
def source? : Error → Option String
  | .producerCreation _ source => some source.message
  | .publish _ _ source => some source.message
  | .serialization text => some text
  | _ => none

/-- Whether the same call may succeed later: a producer that could not be opened, and a send that
the broker did not refuse. -/
def isRetriable : Error → Bool
  | .producerCreation _ _ => true
  | .publish _ kind _ => kind ≠ .rejected
  | _ => false

/-- Whether a send failed because too many messages were pending. -/
def isQueueFull : Error → Bool
  | .publish _ kind _ => kind = .queueFull
  | _ => false

end Error

end TopicPublisher
