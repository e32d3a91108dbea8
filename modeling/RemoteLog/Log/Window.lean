import RemoteLog.Log.Whole
import RemoteLog.Message.Request
import RemoteLog.Message.Response

/-! # Windows of lines

A window is a run of lines with its place in the file. The file is opened twice, once for the lines
and once to count them all, and may have grown in between.

* **`Log.windowLines script skip limit`** — the lines of the window. Nothing behind them is read.
* **`Log.windowOf first second skip limit`** — the answer from what the two passes meet.
* **`Log.window guard fs request`** — the answer, with problems reported in its status. -/

namespace RemoteLog.Log

open Message

/-- **The lines of a window,** or the first failure up to its last line. -/
def windowLines (script : List ReadEvent) (skip limit : Nat) : Except SystemError (List String) :=
  let items := (Line.rawLines script).take (skip + limit)
  (Line.allOk items).map fun lines => (lines.drop skip).map Line.text

/-- Lines with breaks between them. -/
def joinLines (lines : List String) : String := lineBreak.intercalate lines

/-- **The answer from what the two passes meet.** -/
def windowOf (first second : Except SystemError (List ReadEvent)) (skip limit : Nat) :
    RollViewLogResponse :=
  let result := do
    let lines ← windowLines (← first) skip limit
    let total ← Line.countLines (← second)
    return (lines, total)
  match result with
  | .ok (lines, total) =>
    .ok (UInt64.ofNat (skip + lines.length)) (UInt64.ofNat total) (joinLines lines)
  | .error _ => .failure .unknownError

/-- **The window that a request asks for.** -/
def window (guard : PathGuard) (fs : FileSystem) (request : RollViewLogRequest) :
    RollViewLogResponse :=
  if !guard.accepts request.path then .failure .pathNotSecure
  else if !fs.isFile request.path then .failure .fileNotFound
  else
    let opened := fs.openFile request.path
    windowOf opened opened request.skip.toNat request.limit.toNat

end RemoteLog.Log
