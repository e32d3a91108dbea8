/-! # Window status

How the reading of a window of lines ended.

* **`WindowStatus`** — the four outcomes, with their names on the wire. -/

namespace RemoteLog.Message

/-- How the reading of a window ended. -/
inductive WindowStatus where
  /-- The window was read. -/
  | ok
  /-- The path lies outside the log root. -/
  | pathNotSecure
  /-- No regular file has the path. -/
  | fileNotFound
  /-- The file could not be read. -/
  | unknownError
  deriving DecidableEq

namespace WindowStatus

/-- The name on the wire. -/
def name : WindowStatus → String
  | ok => "OK"
  | pathNotSecure => "LOG_PATH_IS_NOT_SECURITY"
  | fileNotFound => "LOG_FILE_NOT_FOUND"
  | unknownError => "UNKNOWN_ERROR"

/-- Every status, in declared order. -/
def all : List WindowStatus := [ok, pathNotSecure, fileNotFound, unknownError]

/-- The statuses with their names. -/
def names : List (String × WindowStatus) := all.map fun status => (status.name, status)

/-- The status with this name. -/
def ofName? (name : String) : Option WindowStatus := all.find? fun status => status.name = name

end WindowStatus

end RemoteLog.Message
