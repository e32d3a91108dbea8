import RemoteLog.FileSystem

/-! # Whole log files

Both readers give nothing at all when a file cannot be opened or read to its end.

* **`Log.bytes fs path`** — the bytes of a file.
* **`Log.text fs path`** — its lines, each ended by a carriage return and a line feed. -/

namespace RemoteLog.Log

/-- What ends and separates lines in every text that is sent. -/
def lineBreak : String := "\r\n"

/-- **The bytes of a file.** -/
def bytes (fs : FileSystem) (path : String) : ByteArray :=
  match fs.openFile path >>= Line.allBytes with
  | .ok bytes => bytes
  | .error _ => ByteArray.empty

/-- Lines, each with its end. -/
def withLineBreaks (lines : List String) : String :=
  lines.foldl (fun out line => out ++ line ++ lineBreak) ""

/-- **The text of a file.** -/
def text (fs : FileSystem) (path : String) : String :=
  match fs.openFile path >>= fun script => Line.allOk (Line.lines script) with
  | .ok lines => withLineBreaks lines
  | .error _ => ""

end RemoteLog.Log
