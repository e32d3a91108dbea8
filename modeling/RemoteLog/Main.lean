import RemoteLog.CommandLine.Run
import Std.Async.DNS
import Std.Async.TCP
import Std.Async.Timer

/-! # The command line

The program asks the worker over a real connection. An action sends one request, so the bytes of the
request are known before the connection is opened, and what comes back decides everything else.

* **`main`** — parses the arguments, talks to the worker, prints and saves. -/

namespace RemoteLog.Program

open CommandLine Std.Async Std.Net

/-! ## Environment -/

/-- The variables that the program looks at. -/
def variableNames : List String := ["TASKLOG_WORKER_ADDR", "TASKLOG_TIMEOUT", "CLICOLOR_FORCE"]

/-- The variables that are set. -/
def readVariables : IO (List (String × String)) :=
  variableNames.filterMapM fun name => do
    return (← IO.getEnv name).map fun value => (name, value)

/-! ## Errors -/

/-- The number and the text of an error, if the system gave one. -/
def codeOf : IO.Error → Option (UInt32 × String)
  | .alreadyExists _ code text | .inappropriateType _ code text | .invalidArgument _ code text
  | .noSuchThing _ code text | .permissionDenied _ code text | .resourceExhausted _ code text =>
    some (code, text)
  | .noFileOrDirectory _ code text | .interrupted _ code text => some (code, text)
  | .hardwareFault code text | .illegalOperation code text | .otherError code text
  | .protocolError code text | .resourceBusy code text | .resourceVanished code text
  | .timeExpired code text | .unsatisfiedConstraints code text | .unsupportedOperation code text =>
    some (code, text)
  | .unexpectedEof | .userError _ => none

/-- The number of an error; connections count downwards from zero. -/
def magnitude (code : UInt32) : Nat :=
  if code.toNat < UInt32.size / 2 then code.toNat else UInt32.size - code.toNat

/-- The cause behind an error of the system. -/
def causeOf (error : IO.Error) : SystemError :=
  match codeOf error with
  | none => .other (toString error)
  | some (code, text) =>
    match magnitude code with
    | 2 => .notFound
    | 20 => .notDirectory
    | 21 => .isDirectory
    | 36 => .nameTooLong
    | 40 => .tooManyLinks
    | 99 => .addressNotAvailable
    | 101 => .networkUnreachable
    | 111 => .connectionRefused
    | 3001 => .nameServerUnreachable
    | 3008 => .unknownHost
    | number => .other (SystemError.numbered text number)

/-! ## Connections -/

/-- An address as sockets take it. -/
def socketAddress (address : Network.SocketAddress) : SocketAddress :=
  let port := UInt16.ofNat address.port
  match address.host with
  | .four octets =>
    let octet (i : Nat) : UInt8 := UInt8.ofNat (octets.getD i 0)
    .v4 ⟨.ofParts (octet 0) (octet 1) (octet 2) (octet 3), port⟩
  | .six groups _ =>
    let group (i : Nat) : UInt16 := UInt16.ofNat (groups.getD i 0)
    .v6 ⟨.ofParts (group 0) (group 1) (group 2) (group 3) (group 4) (group 5) (group 6) (group 7),
      port⟩

/-- An address that a name server gives. -/
def hostAddress : IPAddr → Network.HostAddress
  | .v4 address => .four (address.octets.toList.map UInt8.toNat)
  | .v6 address => .six (address.segments.toList.map UInt16.toNat) 0

/-- The addresses of a host name. -/
def lookUp (name : String) : IO (Except SystemError (List Network.HostAddress)) := do
  try
    let addresses ← (DNS.getAddrInfo name "").block
    return .ok (addresses.toList.map hostAddress)
  catch error => return .error (causeOf error)

/-- The addresses that a text stands for. -/
def resolve (text : String) : IO (Except SystemError (List Network.SocketAddress)) := do
  let found ← match Network.SocketAddress.ofText? text, Network.splitLastColon text.toList with
    | none, some (name, _) => lookUp (String.ofList name)
    | _, _ => pure (.ok [])
  return { Network.Host.isolated with lookup := fun _ => found }.resolve text

/-- Connects to the first address that answers. -/
def connectTo : List Network.SocketAddress → SystemError → IO (Except SystemError TCP.Socket.Client)
  | [], last => return .error last
  | address :: rest, _ => do
    let socket ← TCP.Socket.Client.mk
    try
      (socket.connect (socketAddress address)).block
      return .ok socket
    catch error => connectTo rest (causeOf error)

/-- Opens a connection to the worker at an address. -/
def openConnection (text : String) : IO (Except SystemError TCP.Socket.Client) := do
  match ← resolve text with
  | .ok addresses => connectTo addresses Network.Host.noAddress
  | .error cause => return .error cause

/-- Receives more bytes, the end (an empty block), or nothing within some milliseconds. -/
def receive (socket : TCP.Socket.Client) (milliseconds : Nat) : IO (Option ByteArray) :=
  Async.block do
    let time ← Selector.sleep (Std.Time.Millisecond.Offset.ofNat milliseconds)
    Selectable.one #[
      .case (socket.recvSelector 65536) fun bytes => return some (bytes.getD ByteArray.empty),
      .case time fun _ => return none]

/-- Sends a request and receives until the frame of its tag has come, the connection has ended, or
the time is over. -/
def converse (socket : TCP.Socket.Client) (request : ByteArray) (tag : Int64) (milliseconds : Nat) :
    IO Delivery := do
  (socket.send request).block
  let start ← IO.monoMsNow
  let mut delivery := Delivery.silence
  repeat
    match (Inbox.empty.add delivery).await tag with
    | .more =>
      let spent := (← IO.monoMsNow) - start
      if milliseconds ≤ spent then break
      match ← receive socket (milliseconds - spent) with
      | none => break
      | some bytes => delivery := ⟨delivery.bytes ++ bytes, bytes.isEmpty⟩
    | _ => break
  return delivery

/-! ## Running -/

/-- A peer that is known beforehand: whether it can be reached and what it delivers. -/
def known (reached : Except SystemError Unit) (delivery : Delivery) : Peer Unit where
  dial s := (reached, s)
  deliver s _ := (delivery, s)

/-- The request that an invocation sends. -/
def requestOf (invocation : Invocation) : Option ByteArray :=
  let peer := (known (.ok ()) .silence).journaled
  let (_, s) := invocation.effect false peer ((), Peer.Journal.empty)
  s.2.requests.head?.map (·.2)

/-- Talks to the worker. -/
def talk (invocation : Invocation) : IO (Except SystemError Unit × Delivery) := do
  match ← openConnection invocation.worker, requestOf invocation with
  | .error cause, _ => return (.error cause, .silence)
  | .ok _, none => return (.ok (), .silence)
  | .ok socket, some request =>
    return (.ok (), ← converse socket request 1 (1000 * invocation.timeout))

/-- Carries out an effect on the files of the system. -/
def performEffect (colours : Bool) : Effect → IO (Except Failure String)
  | .print text => return .ok text
  | .save output bytes => do
    try
      IO.FS.writeBinFile output bytes
      return .ok (savedText colours output bytes.size)
    catch error => return .error (unsaved output (causeOf error))

/-- Prints a failure. -/
def fail (failure : Failure) : IO UInt32 := do
  (← IO.getStderr).putStr failure.report
  return 1

/-- Runs an invocation. -/
def runInvocation (colours : Bool) (invocation : Invocation) : IO UInt32 := do
  let (reached, delivery) ← talk invocation
  match (invocation.effect colours (known reached delivery) ()).1 with
  | .error failure => fail failure
  | .ok effect =>
    match ← performEffect colours effect with
    | .error failure => fail failure
    | .ok text =>
      (← IO.getStdout).putStr text
      return 0

end RemoteLog.Program

/-- **The program.** -/
def main (arguments : List String) : IO UInt32 := do
  let environment ← RemoteLog.Program.readVariables
  let lookup (name : String) : Option String := (environment.find? fun v => v.1 = name).map (·.2)
  match RemoteLog.CommandLine.parse lookup arguments with
  | .help =>
    (← IO.getStdout).putStr RemoteLog.CommandLine.usage
    return 0
  | .wrong =>
    (← IO.getStderr).putStr RemoteLog.CommandLine.usage
    return UInt32.ofNat RemoteLog.CommandLine.wrongUsage
  | .run invocation =>
    RemoteLog.Program.runInvocation (RemoteLog.CommandLine.coloursWanted lookup) invocation
