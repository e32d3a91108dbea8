/-! # Commands

A command is what travels between a client and a worker: what is asked or answered, a tag that
pairs an answer with its question, and a body.

* **`Operation`** — the five things that can be asked of a log.
* **`CommandKind`** — an operation as a request or as a response, with its code and its name.
* **`Command`** — kind, tag and body. -/

namespace RemoteLog

/-- What can be asked of a log file. -/
inductive Operation where
  /-- All bytes of the file. -/
  | getLogBytes
  /-- The file as text. -/
  | viewWholeLog
  /-- A window of its lines. -/
  | rollViewLog
  /-- Its removal. -/
  | removeTaskLog
  /-- The application ids in it. -/
  | getAppId
  deriving DecidableEq

namespace Operation

/-- The position of an operation, from zero. -/
def index : Operation → Nat
  | getLogBytes => 0
  | viewWholeLog => 1
  | rollViewLog => 2
  | removeTaskLog => 3
  | getAppId => 4

/-- The name on the wire. Peers depend on the spelling of the fourth. -/
def name : Operation → String
  | getLogBytes => "GET_LOG_BYTES"
  | viewWholeLog => "VIEW_WHOLE_LOG"
  | rollViewLog => "ROLL_VIEW_LOG"
  | removeTaskLog => "REMOVE_TAK_LOG"
  | getAppId => "GET_APP_ID"

/-- Every operation, in order. -/
def all : List Operation := [getLogBytes, viewWholeLog, rollViewLog, removeTaskLog, getAppId]

end Operation

/-- Which way a command travels. -/
inductive Direction where
  /-- To the worker. -/
  | request
  /-- Back to the client. -/
  | response
  deriving DecidableEq

/-- An operation, asked or answered. -/
structure CommandKind where
  operation : Operation
  direction : Direction
  deriving DecidableEq

namespace CommandKind

/-- The code on the wire: requests are odd, and the response follows its request. -/
def code (kind : CommandKind) : UInt8 :=
  UInt8.ofNat (2 * kind.operation.index + match kind.direction with | .request => 1 | .response => 2)

/-- The name of a kind. -/
def name (kind : CommandKind) : String :=
  kind.operation.name ++ match kind.direction with
    | .request => "_REQUEST"
    | .response => "_RESPONSE"

/-- Every kind, in the order of the codes. -/
def all : List CommandKind :=
  Operation.all.flatMap fun operation => [⟨operation, .request⟩, ⟨operation, .response⟩]

/-- The kind with this code. -/
def ofCode? (code : UInt8) : Option CommandKind := all.find? fun kind => kind.code = code

/-- The kind with this name. -/
def ofName? (name : String) : Option CommandKind := all.find? fun kind => kind.name = name

/-- The ten kinds with their names. -/
def names : List (String × CommandKind) := all.map fun kind => (kind.name, kind)

@[simp] theorem ofCode?_code (kind : CommandKind) : ofCode? kind.code = some kind := by
  obtain ⟨operation, direction⟩ := kind
  cases operation <;> cases direction <;> decide

/-- Only the ten codes are known. -/
theorem ofCode?_eq_some_iff {code : UInt8} {kind : CommandKind} :
    ofCode? code = some kind ↔ kind.code = code := by
  constructor
  · intro h
    simpa using List.find?_some h
  · rintro rfl
    exact ofCode?_code kind

end CommandKind

/-- **A command.** An answer carries the tag of its question. -/
structure Command where
  kind : CommandKind
  tag : Int64
  body : ByteArray

/-- How a command is named in reports; its body is only counted. -/
def Command.describe (command : Command) : String :=
  s!"Command [type={command.kind.name}, opaque={command.tag.toInt}, bodyLen={command.body.size}]"

end RemoteLog
