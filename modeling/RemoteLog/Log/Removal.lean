import RemoteLog.FileSystem

/-! # Removal of log files

* **`Log.remove fs path`** — whether the file is gone, and the file system afterwards. A file that
  did not exist counts as gone. -/

namespace RemoteLog.Log

/-- **Removes a log file.** -/
def remove (fs : FileSystem) (path : String) : Bool × FileSystem :=
  match fs.unlink path with
  | .ok fs => (true, fs)
  | .error .notFound => (true, fs)
  | .error _ => (false, fs)

end RemoteLog.Log
