import RemoteLog.Failure
import RemoteLog.ProtocolError

/-! # Why a call fails

* **`ClientError`** — the causes.
* **`ClientError.failure e`** — the text of an error with the errors behind it. -/

namespace RemoteLog

/-- Why a client's call has no answer. -/
inductive ClientError where
  /-- No connection could be made. -/
  | connect (address : String) (cause : SystemError)
  /-- No answer came within so many milliseconds. -/
  | timeout (limit : Nat)
  /-- The worker closed the connection first. -/
  | connectionClosed
  /-- The request does not fit a frame, or the answer cannot be understood. -/
  | protocol (error : ProtocolError)

namespace ClientError

/-- Digits without the zeros at their end. -/
def trimZeros (digits : List Char) : List Char :=
  (digits.reverse.dropWhile (· = '0')).reverse

/-- A span of time in the largest unit that it fills. -/
def duration (milliseconds : Nat) : String :=
  if milliseconds = 0 then "0ns"
  else if milliseconds < 1000 then toString milliseconds ++ "ms"
  else
    let digits := Nat.toDigits 10 (milliseconds % 1000)
    let places := trimZeros (List.replicate (3 - digits.length) '0' ++ digits)
    let seconds := toString (milliseconds / 1000)
    if places.isEmpty then seconds ++ "s" else seconds ++ "." ++ String.ofList places ++ "s"

/-- The text of an error. -/
def message : ClientError → String
  | connect address cause => "Failed to connect to " ++ address ++ ": " ++ cause.message
  | timeout limit => "Request timed out after " ++ duration limit
  | connectionClosed => "Connection closed by worker"
  | protocol error => "Protocol error: " ++ error.message

/-- The texts of the errors behind this one, outermost first. -/
def causes : ClientError → List String
  | connect _ cause => [cause.message]
  | protocol error => error.message :: error.causes
  | _ => []

/-- **The text of an error with the errors behind it.** -/
def failure (error : ClientError) : Failure := ⟨error.message, error.causes⟩

/-- Whether no answer came in time. -/
def isTimeout : ClientError → Bool
  | timeout _ => true
  | _ => false

/-- Whether the worker closed the connection. -/
def isConnectionClosed : ClientError → Bool
  | connectionClosed => true
  | _ => false

end ClientError

end RemoteLog
