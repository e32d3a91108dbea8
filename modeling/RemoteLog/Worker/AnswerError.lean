import RemoteLog.ProtocolError

/-! # Why a command is not answered

* **`AnswerError`** — the causes.
* **`AnswerError.rejects e`** — whether the command was at fault; otherwise only its answer had no
  place to go.
* **`AnswerError.message e`** — the text. -/

namespace RemoteLog.Worker

/-- Why a worker did not answer a command. -/
inductive AnswerError where
  /-- The guard refuses the path. -/
  | illegalPath (path : String)
  /-- The response with this tag has no place to go. -/
  | channelClosed (tag : Int64)
  /-- The command is no request or its body is no good. -/
  | protocol (error : ProtocolError)

namespace AnswerError

/-- Whether the command was at fault. -/
def rejects : AnswerError → Bool
  | channelClosed _ => false
  | _ => true

/-- The text of the error. -/
def message : AnswerError → String
  | illegalPath path => "Illegal path: " ++ path
  | channelClosed tag => s!"Connection closed before response to opaque {tag.toInt} was written"
  | protocol error => "Protocol error: " ++ error.message

end AnswerError

end RemoteLog.Worker
