import RemoteLog.Message.Body

/-! # Responses

* **`GetLogBytesResponse`**, **`ViewLogResponse`**, **`RollViewLogResponse`**,
  **`RemoveTaskLogResponse`**, **`GetAppIdResponse`** — the bodies of the five kinds of response.
* **`RollViewLogResponse.ok`**, **`RollViewLogResponse.failure`** — a window that was read, and one
  that was not.
* **`Response`** — any of the five bodies. -/

namespace RemoteLog.Message

/-- The bytes of a log file. -/
structure GetLogBytesResponse where
  bytes : ByteArray

/-- The text of a log file. -/
structure ViewLogResponse where
  content : String
  deriving DecidableEq

/-- A window of lines and where it stands in the file. -/
structure RollViewLogResponse where
  status : WindowStatus
  /-- The number of the last line of the window, counted from one. -/
  current : UInt64
  /-- The number of lines of the file. -/
  total : UInt64
  /-- The lines of the window. -/
  log : String
  deriving DecidableEq

namespace RollViewLogResponse

/-- A window that was read. -/
def ok (current total : UInt64) (log : String) : RollViewLogResponse := ⟨.ok, current, total, log⟩

/-- A window that was not read. -/
def failure (status : WindowStatus) : RollViewLogResponse := ⟨status, 0, 0, ""⟩

/-- Whether the window was read. -/
def isOk (response : RollViewLogResponse) : Bool := response.status = .ok

end RollViewLogResponse

/-- Whether a log file is gone. -/
structure RemoveTaskLogResponse where
  status : Bool
  deriving DecidableEq

/-- The application ids in a log file. -/
structure GetAppIdResponse where
  ids : List String
  deriving DecidableEq

instance : Body GetLogBytesResponse where
  name := "GetLogBytesResponse"
  kind := ⟨.getLogBytes, .response⟩
  fields := [⟨"bytes", .bytes⟩]
  toValues response := (response.bytes, ())
  ofValues values := ⟨values.1⟩
  ofValues_toValues _ := rfl
  toValues_ofValues _ := rfl

instance : Body ViewLogResponse where
  name := "ViewLogResponse"
  kind := ⟨.viewWholeLog, .response⟩
  fields := [⟨"content", .text⟩]
  toValues response := (response.content, ())
  ofValues values := ⟨values.1⟩
  ofValues_toValues _ := rfl
  toValues_ofValues _ := rfl

instance : Body RollViewLogResponse where
  name := "RollViewLogResponse"
  kind := ⟨.rollViewLog, .response⟩
  fields := [⟨"status", .status⟩, ⟨"currentLineNumber", .word64⟩,
    ⟨"currentTotalLineNumber", .word64⟩, ⟨"log", .text⟩]
  toValues response := (response.status, response.current, response.total, response.log, ())
  ofValues values := ⟨values.1, values.2.1, values.2.2.1, values.2.2.2.1⟩
  ofValues_toValues _ := rfl
  toValues_ofValues _ := rfl

instance : Body RemoveTaskLogResponse where
  name := "RemoveTaskLogResponse"
  kind := ⟨.removeTaskLog, .response⟩
  fields := [⟨"status", .flag⟩]
  toValues response := (response.status, ())
  ofValues values := ⟨values.1⟩
  ofValues_toValues _ := rfl
  toValues_ofValues _ := rfl

instance : Body GetAppIdResponse where
  name := "GetAppIdResponse"
  kind := ⟨.getAppId, .response⟩
  fields := [⟨"appIds", .texts⟩]
  toValues response := (response.ids, ())
  ofValues values := ⟨values.1⟩
  ofValues_toValues _ := rfl
  toValues_ofValues _ := rfl

/-- **Any response that a client waits for.** -/
inductive Response where
  | getLogBytes (body : GetLogBytesResponse)
  | viewWholeLog (body : ViewLogResponse)
  | rollViewLog (body : RollViewLogResponse)
  | removeTaskLog (body : RemoveTaskLogResponse)
  | getAppId (body : GetAppIdResponse)

end RemoteLog.Message
