import RemoteLog.Log.ApplicationId
import RemoteLog.Log.Removal
import RemoteLog.Log.Window
import RemoteLog.Worker.ResponseQueue

/-! # Answering commands

A worker reads the request out of a command, lets the guard decide about its path, and answers with
a response that carries the tag of the command. A response that is too large for a frame is replaced
by one that gives nothing. Rolling views report a refused path in their status; all other requests
are rejected for it, and nothing is written then.

* **`answer guard fs c`** — the response to a command, or why there is none, and the files
  afterwards.
* **`process guard fs slot c`** — the same with the response written through a slot. -/

namespace RemoteLog.Worker

open Message

/-- Turns a protocol error into the reason for not answering. -/
def refuse {α : Type} : Except ProtocolError α → Except AnswerError α
  | .ok a => .ok a
  | .error error => .error (.protocol error)

/-- **The command with a body,** or with `degraded` if the body is too large for a frame. -/
def fitting {α : Type} [Body α] (body degraded : α) (tag : Int64) :
    Except AnswerError Command :=
  match Body.toCommand body tag with
  | .error (.tooLarge _) => refuse (Body.toCommand degraded tag)
  | result => refuse result

/-- The answer to a request whose path has passed every check, and the files afterwards. -/
def perform (guard : PathGuard) (fs : FileSystem) (tag : Int64) :
    Request → Except AnswerError Command × FileSystem
  | .getLogBytes request =>
    (fitting (GetLogBytesResponse.mk (Log.bytes fs request.path))
      (GetLogBytesResponse.mk ByteArray.empty) tag, fs)
  | .viewWholeLog request =>
    (fitting (ViewLogResponse.mk (Log.text fs request.path)) (ViewLogResponse.mk "") tag, fs)
  | .rollViewLog request =>
    (fitting (Log.window guard fs request) (RollViewLogResponse.failure .unknownError) tag, fs)
  | .removeTaskLog request =>
    let (gone, files) := Log.remove fs request.path
    (refuse (Body.toCommand (RemoveTaskLogResponse.mk gone) tag), files)
  | .getAppId request =>
    (fitting (GetAppIdResponse.mk (Log.applicationIds fs request.path)) (GetAppIdResponse.mk [])
      tag, fs)

/-- Whether a request is rejected if the guard refuses its path. -/
def needsLegalPath (request : Request) : Bool := request.operation ≠ .rollViewLog

/-- **The response to a command,** or why there is none, and the files afterwards. -/
def answer (guard : PathGuard) (fs : FileSystem) (c : Command) :
    Except AnswerError Command × FileSystem :=
  match Request.ofCommand c with
  | .error error => (.error (.protocol error), fs)
  | .ok request =>
    if needsLegalPath request && !guard.accepts request.path then
      (.error (.illegalPath request.path), fs)
    else perform guard fs c.tag request

/-- What the work on a command leaves. -/
structure Outcome where
  /-- The response that was written, or why none was. -/
  result : Except AnswerError Command
  files : FileSystem
  slot : Slot

/-- **Works on a command** and writes the response through a slot. The work is done even if the slot
has been used before. -/
def process (guard : PathGuard) (fs : FileSystem) (slot : Slot) (c : Command) : Outcome :=
  match answer guard fs c with
  | (.error cause, files) => ⟨.error cause, files, slot⟩
  | (.ok response, files) =>
    match slot.write response with
    | .error cause => ⟨.error cause, files, slot⟩
    | .ok slot => ⟨.ok response, files, slot⟩

end RemoteLog.Worker
