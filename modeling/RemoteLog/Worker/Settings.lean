import RemoteLog.Failure
import RemoteLog.Network.Host
import RemoteLog.Path
import RemoteLog.Text.Blank

/-! # Settings of a worker

A worker is set up by three variables of its environment. One that is missing or unusable leaves the
default in place; the result is checked before the worker starts.

* **`Settings`** — the log root, the address to listen on and the number of threads.
* **`Settings.ofLookup defaults lookup`** — the settings that variables give.
* **`Settings.problem? settings`** — why a worker cannot start with them.
* **`Settings.start host settings`** — the address that the worker listens on. -/

namespace RemoteLog.Worker

/-- **How a worker is set up.** -/
structure Settings where
  /-- The directory that holds every log. -/
  logRoot : String
  /-- The address to listen on, as a text. -/
  address : String
  /-- How many commands may be worked on at a time. -/
  threads : Nat
  deriving DecidableEq

/-- What the machine gives where a variable does not. -/
structure Defaults where
  workingDirectory : String
  threads : Nat

/-- Why a worker cannot start. -/
inductive StartError where
  | emptyRoot
  | relativeRoot
  /-- The address is no socket address. -/
  | badAddress (address : String)
  | noThreads
  /-- There are more threads than permits can be counted. -/
  | tooManyThreads
  /-- The address cannot be listened on. -/
  | bind (address : String) (cause : SystemError)
  deriving DecidableEq

namespace Settings

/-- The address of a worker that is told nothing else. -/
def defaultAddress : String := "0.0.0.0:1234"

/-- The settings of a worker that is told its log root only. -/
def ofRoot (defaults : Defaults) (logRoot : String) : Settings :=
  ⟨logRoot, defaultAddress, defaults.threads⟩

/-- **The settings that variables give.** A blank log root counts as missing. -/
def ofLookup (defaults : Defaults) (lookup : String → Option String) : Settings where
  logRoot :=
    ((lookup "WORKER_HOME").filter fun home => !Text.allBlank home).getD defaults.workingDirectory
  address := (lookup "LOGGER_BIND_ADDR").getD defaultAddress
  threads :=
    ((lookup "LOGGER_WORKER_THREADS").bind (Decimal.naturalBelow? UInt64.size)).getD defaults.threads

/-- **Why a worker cannot start with these settings:** the first check that fails. -/
def problem? (settings : Settings) : Option StartError :=
  if settings.logRoot.isEmpty then some .emptyRoot
  else if !Path.isAbsolute settings.logRoot then some .relativeRoot
  else if (Network.SocketAddress.ofText? settings.address).isNone then
    some (.badAddress settings.address)
  else if settings.threads = 0 then some .noThreads
  else none

/-- The most permits that can be counted. -/
def maxPermits : Nat := (UInt64.size - 1) / 8

/-- The guard of the worker. -/
def guard (settings : Settings) : PathGuard := ⟨settings.logRoot⟩

/-- **Why no server can be made from these settings.** -/
def serverFault? (settings : Settings) : Option StartError :=
  if maxPermits < settings.threads then some .tooManyThreads else none

/-- Takes the address of a server. -/
def listen (host : Network.Host) (settings : Settings) :
    Except StartError Network.SocketAddress :=
  match host.bind settings.address with
  | .ok address => .ok address
  | .error cause => .error (.bind settings.address cause)

/-- **The address that a worker listens on,** after every check. -/
def start (host : Network.Host) (settings : Settings) :
    Except StartError Network.SocketAddress :=
  match settings.problem? with
  | some error => .error error
  | none =>
    match settings.serverFault? with
    | some error => .error error
    | none => settings.listen host

end Settings

namespace StartError

/-- The report of an error. -/
def failure : StartError → Failure
  | emptyRoot => .ofMessage "log_root cannot be empty"
  | relativeRoot => .ofMessage "log_root must be an absolute path"
  | badAddress address =>
    ⟨"bind_addr is not a socket address: " ++ address, ["invalid socket address syntax"]⟩
  | noThreads => .ofMessage "worker_threads must be greater than 0"
  | tooManyThreads =>
    .ofMessage s!"a semaphore may not have more than MAX_PERMITS permits ({Settings.maxPermits})"
  | bind address cause => ⟨"Failed to bind to " ++ address, [cause.message]⟩

/-- The exit status of a worker that meets the error. -/
def exitStatus : StartError → Nat
  | tooManyThreads => 101
  | _ => 1

end StartError

end RemoteLog.Worker
