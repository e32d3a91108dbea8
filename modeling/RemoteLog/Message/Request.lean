import RemoteLog.Message.Body

/-! # Requests

* **`GetLogBytesRequest`**, **`ViewLogRequest`**, **`RollViewLogRequest`**,
  **`RemoveTaskLogRequest`**, **`GetAppIdRequest`** — the bodies of the five kinds of request.
* **`Request`** — any of them; **`Request.ofCommand c`** reads it from a command. -/

namespace RemoteLog.Message

/-- Asks for the bytes of a log file. -/
structure GetLogBytesRequest where
  path : String
  deriving DecidableEq

/-- Asks for a log file as text. -/
structure ViewLogRequest where
  path : String
  deriving DecidableEq

/-- Asks for a window of the lines of a log file. -/
structure RollViewLogRequest where
  path : String
  /-- How many lines come before the window. -/
  skip : UInt32
  /-- How many lines the window has at most. -/
  limit : UInt32
  deriving DecidableEq

/-- Asks for the removal of a log file. -/
structure RemoveTaskLogRequest where
  path : String
  deriving DecidableEq

/-- Asks for the application ids in a log file. -/
structure GetAppIdRequest where
  path : String
  deriving DecidableEq

instance : Body GetLogBytesRequest where
  name := "GetLogBytesRequest"
  kind := ⟨.getLogBytes, .request⟩
  fields := [⟨"path", .text⟩]
  toValues request := (request.path, ())
  ofValues values := ⟨values.1⟩
  ofValues_toValues _ := rfl
  toValues_ofValues _ := rfl

instance : Body ViewLogRequest where
  name := "ViewLogRequest"
  kind := ⟨.viewWholeLog, .request⟩
  fields := [⟨"path", .text⟩]
  toValues request := (request.path, ())
  ofValues values := ⟨values.1⟩
  ofValues_toValues _ := rfl
  toValues_ofValues _ := rfl

instance : Body RollViewLogRequest where
  name := "RollViewLogRequest"
  kind := ⟨.rollViewLog, .request⟩
  fields := [⟨"path", .text⟩, ⟨"skipLineNum", .word32⟩, ⟨"limit", .word32⟩]
  toValues request := (request.path, request.skip, request.limit, ())
  ofValues values := ⟨values.1, values.2.1, values.2.2.1⟩
  ofValues_toValues _ := rfl
  toValues_ofValues _ := rfl

instance : Body RemoveTaskLogRequest where
  name := "RemoveTaskLogRequest"
  kind := ⟨.removeTaskLog, .request⟩
  fields := [⟨"path", .text⟩]
  toValues request := (request.path, ())
  ofValues values := ⟨values.1⟩
  ofValues_toValues _ := rfl
  toValues_ofValues _ := rfl

instance : Body GetAppIdRequest where
  name := "GetAppIdRequest"
  kind := ⟨.getAppId, .request⟩
  fields := [⟨"logPath", .text⟩]
  toValues request := (request.path, ())
  ofValues values := ⟨values.1⟩
  ofValues_toValues _ := rfl
  toValues_ofValues _ := rfl

/-- **Any request that a worker answers.** -/
inductive Request where
  | getLogBytes (body : GetLogBytesRequest)
  | viewWholeLog (body : ViewLogRequest)
  | rollViewLog (body : RollViewLogRequest)
  | removeTaskLog (body : RemoveTaskLogRequest)
  | getAppId (body : GetAppIdRequest)
  deriving DecidableEq

namespace Request

/-- The path that a request names. -/
def path : Request → String
  | getLogBytes body => body.path
  | viewWholeLog body => body.path
  | rollViewLog body => body.path
  | removeTaskLog body => body.path
  | getAppId body => body.path

/-- What a request asks for. -/
def operation : Request → Operation
  | getLogBytes _ => .getLogBytes
  | viewWholeLog _ => .viewWholeLog
  | rollViewLog _ => .rollViewLog
  | removeTaskLog _ => .removeTaskLog
  | getAppId _ => .getAppId

/-- **The request of a command.** A response is no request, whatever its body. -/
def ofCommand (c : Command) : Except ProtocolError Request :=
  match c.kind with
  | ⟨_, .response⟩ => .error (.unsupported c.kind)
  | ⟨.getLogBytes, .request⟩ => getLogBytes <$> Body.ofCommand c
  | ⟨.viewWholeLog, .request⟩ => viewWholeLog <$> Body.ofCommand c
  | ⟨.rollViewLog, .request⟩ => rollViewLog <$> Body.ofCommand c
  | ⟨.removeTaskLog, .request⟩ => removeTaskLog <$> Body.ofCommand c
  | ⟨.getAppId, .request⟩ => getAppId <$> Body.ofCommand c

end Request

end RemoteLog.Message
