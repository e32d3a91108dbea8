import RemoteLog.Command
import RemoteLog.Json.Fault
import RemoteLog.SystemError

/-! # Protocol errors

* **`ProtocolError`** — why a frame cannot be read or written, or a command cannot be understood.
* **`ProtocolError.message e`** — the text. -/

namespace RemoteLog

/-- The largest body of a frame, 64 MiB. -/
def maxBody : Nat := 64 * 1024 * 1024

/-- Why a frame or a command is refused. -/
inductive ProtocolError where
  /-- The stream failed or ended inside a frame. -/
  | stream (cause : SystemError)
  /-- A frame does not start with the magic byte. -/
  | badMagic (byte : UInt8)
  /-- A frame has a version that nobody speaks. -/
  | badVersion (version : UInt8)
  /-- A frame has a code that no kind has. -/
  | unknownCode (code : UInt8)
  /-- A body is larger than `maxBody`. -/
  | tooLarge (size : Nat)
  /-- A body is not what its kind needs. -/
  | badBody (fault : Json.Fault)
  /-- A command is of another kind than the one wanted. -/
  | wrongKind (expected actual : CommandKind)
  /-- A command is no request. -/
  | unsupported (kind : CommandKind)

namespace ProtocolError

/-- Two hexadecimal digits behind `0x`. -/
def hexByte (b : UInt8) : String :=
  let digits := Nat.toDigits 16 b.toNat
  "0x" ++ String.ofList (List.replicate (2 - digits.length) '0' ++ digits)

/-- The text of a protocol error. -/
def message : ProtocolError → String
  | stream cause => "I/O error: " ++ cause.message
  | badMagic byte => "invalid magic byte: " ++ hexByte byte
  | badVersion version => s!"unsupported protocol version: {version}"
  | unknownCode code => s!"unknown command type code: {code}"
  | tooLarge size => s!"frame too large: {size} bytes exceeds maximum {maxBody} bytes"
  | badBody fault => "failed to decode command body: " ++ fault.message
  | wrongKind expected actual =>
    "unexpected command type: expected " ++ expected.name ++ ", got " ++ actual.name
  | unsupported kind => "unsupported command type: " ++ kind.name

/-- The texts of the errors behind this one, outermost first. -/
def causes : ProtocolError → List String
  | stream cause => [cause.message]
  | badBody fault => [fault.message]
  | _ => []

end ProtocolError

end RemoteLog
