import RemoteLog.Client.Basic
import RemoteLog.CommandLine.Invocation
import RemoteLog.CommandLine.Style
import RemoteLog.FileSystem.Edit

/-! # Running a command line

An action is one call to the worker and then one effect: a text to print, or a file to save. Nothing
is written before the call has succeeded.

* **`Effect`** — what an action comes to.
* **`Action.effect`** — asks the worker for it.
* **`Effect.perform`** — carries it out on the local files.
* **`run`** — a whole command line. -/

namespace RemoteLog.CommandLine

open Message

/-- **What an action comes to** once the worker has answered. -/
inductive Effect where
  | print (text : String)
  /-- Saves bytes in a local file and says so. -/
  | save (output : String) (bytes : ByteArray)

/-- A line of text. -/
def line (text : String) : String := text ++ "\n"

/-! ## Texts -/

/-- A rule across the screen. -/
def ruler : String := String.ofList (List.replicate 80 '─')

/-- The sign of success. -/
def tick : String := "✓"

/-- What is printed for a whole log. -/
def viewText (colours : Bool) (content : String) : String :=
  if content.isEmpty then line (Style.yellow.paint colours "Log is empty or could not be read.")
  else content

/-- What is printed for a window. -/
def windowText (colours : Bool) (window : RollViewLogResponse) : String :=
  let rule := line (Style.dimmed.paint colours ruler)
  let place := s!"line {window.current} of {window.total}"
  rule ++ (if window.log.isEmpty then "" else line window.log ++ rule) ++
    line (Style.dimmed.paint colours place)

/-- What is printed for application ids. -/
def idsText (colours : Bool) (ids : List String) : String :=
  if ids.isEmpty then line (Style.yellow.paint colours "No application ids found.")
  else
    ids.foldl (fun out id => out ++ line ("  " ++ Style.cyan.paint colours "▸" ++ " " ++ id))
      (line (Style.bold.paint colours s!"Found {ids.length} application id(s):"))

/-- What is printed for a log that is gone. -/
def removedText (colours : Bool) (path : String) : String :=
  line (Style.green.paint colours tick ++ " Removed " ++ Style.bold.paint colours path)

/-- What is printed for a log that is saved. -/
def savedText (colours : Bool) (output : String) (size : Nat) : String :=
  line (Style.green.paint colours tick ++ s!" Saved {size} bytes to " ++
    Style.bold.paint colours output)

/-- Why there is no window. -/
def windowProblem : WindowStatus → String
  | .ok => "ok"
  | .pathNotSecure => "Path is outside the worker's log directory"
  | .fileNotFound => "Log file not found"
  | .unknownError => "Worker failed to read the log file"

/-! ## Actions -/

variable {σ : Type}

/-- The result of a call, with the worker's state behind it. -/
def called {β : Type} (then_ : β → Except Failure Effect) :
    Except ClientError β × Client × σ → Except Failure Effect × σ
  | (.ok body, _, s) => (then_ body, s)
  | (.error error, _, s) => (.error error.failure, s)

/-- **Asks the worker** what an action comes to. -/
def Action.effect (colours : Bool) (peer : Peer σ) (client : Client) (s : σ) :
    Action → Except Failure Effect × σ
  | .view path =>
    called (fun (body : ViewLogResponse) => .ok (.print (viewText colours body.content)))
      (client.send _ peer (ViewLogRequest.mk path) s)
  | .roll path skip limit =>
    called (fun (body : RollViewLogResponse) =>
        if body.isOk then .ok (.print (windowText colours body))
        else .error (.ofMessage (windowProblem body.status)))
      (client.send _ peer (RollViewLogRequest.mk path skip limit) s)
  | .download path output =>
    called (fun (body : GetLogBytesResponse) => .ok (.save output body.bytes))
      (client.send _ peer (GetLogBytesRequest.mk path) s)
  | .remove path =>
    called (fun (body : RemoveTaskLogResponse) =>
        if body.status then .ok (.print (removedText colours path))
        else .error (.ofMessage ("Worker failed to remove " ++ path)))
      (client.send _ peer (RemoveTaskLogRequest.mk path) s)
  | .applicationIds path =>
    called (fun (body : GetAppIdResponse) => .ok (.print (idsText colours body.ids)))
      (client.send _ peer (GetAppIdRequest.mk path) s)

/-- The report of a worker that cannot be reached. -/
def unreachable (worker : String) (error : ClientError) : Failure :=
  .within ("Failed to reach worker at " ++ worker) error.failure

/-- Connects to the worker and asks it. -/
def Invocation.effect (colours : Bool) (peer : Peer σ) (invocation : Invocation) (s : σ) :
    Except Failure Effect × σ :=
  match Client.connect peer invocation.worker s with
  | (.error error, s) => (.error (unreachable invocation.worker error), s)
  | (.ok client, s) =>
    invocation.action.effect colours peer { client with timeout := 1000 * invocation.timeout } s

/-! ## Local files -/

/-- The report of a file that cannot be saved. -/
def unsaved (output : String) (cause : SystemError) : Failure :=
  ⟨"Failed to write " ++ output, [cause.message]⟩

/-- **Carries an effect out:** the text to print, and the local files afterwards. -/
def Effect.perform (colours : Bool) (fs : FileSystem) : Effect → Except Failure (String × FileSystem)
  | .print text => .ok (text, fs)
  | .save output bytes =>
    match fs.writeFile output bytes with
    | .ok fs => .ok (savedText colours output bytes.size, fs)
    | .error cause => .error (unsaved output cause)

/-! ## Command lines -/

/-- **What a command line leaves.** -/
structure Report where
  exit : Nat
  output : String
  errors : String
  files : FileSystem

/-- What is shown to a user who asks for help or writes something else. -/
def usage : String :=
  "\n".intercalate [
    "Usage: tasklog [--worker ADDRESS] [--timeout SECONDS] COMMAND",
    "",
    "Commands:",
    "  view PATH                        Print a whole log file",
    "  roll PATH [-s SKIP] [-l LIMIT]   Print a window of lines from a log file",
    "  download PATH -o OUTPUT          Download a log file",
    "  remove PATH                      Delete a log file from the worker",
    "  app-ids PATH                     List application ids found in a log file",
    "  help [COMMAND]                   Print this message",
    ""]

/-- The exit status of a command line with wrong arguments. -/
def wrongUsage : Nat := 2

/-- What carrying out a result leaves on local files. -/
def conclude (colours : Bool) (fs : FileSystem) (result : Except Failure Effect) : Report :=
  match result >>= fun effect => effect.perform colours fs with
  | .ok (text, files) => ⟨0, text, "", files⟩
  | .error failure => ⟨1, "", failure.report, fs⟩

/-- **Runs a command line.** `peer` stands at each worker's address, and `localFiles` shows the
local files once the worker has answered. -/
def run (lookup : String → Option String) (peer : String → Peer σ) (localFiles : σ → FileSystem)
    (arguments : List String) (s : σ) : Report × σ :=
  match parse lookup arguments with
  | .help => (⟨0, usage, "", localFiles s⟩, s)
  | .wrong => (⟨wrongUsage, "", usage, localFiles s⟩, s)
  | .run invocation =>
    let colours := coloursWanted lookup
    let (result, s) := invocation.effect colours (peer invocation.worker) s
    (conclude colours (localFiles s) result, s)

end RemoteLog.CommandLine
