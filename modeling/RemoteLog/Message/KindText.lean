import RemoteLog.Command
import RemoteLog.Json.Value
import RemoteLog.ProtocolError

/-! # Kinds as JSON

A kind of command is written in JSON by its name.

* **`CommandKind.toJson kind`**, **`CommandKind.ofJson text`** — both ways. -/

namespace RemoteLog.CommandKind

/-- The JSON text of a kind. -/
def toJson (kind : CommandKind) : ByteArray := Json.writeString ByteArray.empty kind.name

/-- The kind that a JSON text names. -/
def ofJson (text : ByteArray) : Except ProtocolError CommandKind :=
  match Json.readWhole (Json.readChoice names) (Bytes.toList text) with
  | .ok kind => .ok kind
  | .error fault => .error (.badBody fault)

end RemoteLog.CommandKind
