import RemoteLog.Network.HostName
import RemoteLog.SystemError

/-! # Hosts

What a host's network answers to those who want to listen or to connect. Where an address is
wanted, a text may also be a host and a port.

* **`Host`** — the answers.
* **`Host.addressesOf`** — the addresses of a host by its name or its written address.
* **`Host.resolve`** — the addresses that a text stands for.
* **`Host.bind`**, **`Host.connect`** — the first address that works, or the last error.
* **`Host.isolated`** — a host whose only interface is down. -/

namespace RemoteLog.Network

/-- **What a host's network answers.** -/
structure Host where
  /-- The number of an interface. -/
  interface? : String → Option Nat
  /-- The addresses of a host name. -/
  lookup : String → Except SystemError (List HostAddress)
  /-- Why a listener cannot take an address. -/
  bindFault? : SocketAddress → Option SystemError
  /-- Why an address cannot be reached. -/
  connectFault? : SocketAddress → Option SystemError

/-- The texts before and behind the last colon. -/
def splitLastColon (text : List Char) : Option (List Char × List Char) :=
  let port := (text.reverse.takeWhile (· ≠ ':')).reverse
  if port.length = text.length then none
  else some (text.take (text.length - port.length - 1), port)

namespace Host

/-- **The addresses of a host:** the one that the text writes, or those of a name. A text that is
neither is not looked up. -/
def addressesOf (host : Host) (name : String) : Except SystemError (List HostAddress) :=
  if name.toList.contains '\x00' then .error .nulInName
  else
    match HostAddress.ofText? host.interface? name with
    | some address => .ok [address]
    | none => if isHostName name then host.lookup name else .error .unknownHost

/-- **The addresses that a text stands for:** a socket address, or a host and a port. -/
def resolve (host : Host) (text : String) : Except SystemError (List SocketAddress) :=
  match SocketAddress.ofText? text with
  | some address => .ok [address]
  | none =>
    match splitLastColon text.toList with
    | none => .error .invalidSocketAddress
    | some (name, port) =>
      match Decimal.naturalBelow? 65536 (String.ofList port) with
      | none => .error .invalidPort
      | some port =>
        (host.addressesOf (String.ofList name)).map fun addresses =>
          addresses.map fun address => ⟨address, port⟩

/-- The first address without a fault, or the fault of the last one. -/
def firstGood (fault? : SocketAddress → Option SystemError) (last : SystemError) :
    List SocketAddress → Except SystemError SocketAddress
  | [] => .error last
  | address :: rest =>
    match fault? address with
    | none => .ok address
    | some cause => firstGood fault? cause rest

/-- Why a name without addresses is refused. -/
def noAddress : SystemError := .other "could not resolve to any address"

/-- **The address that a listener takes.** -/
def bind (host : Host) (text : String) : Except SystemError SocketAddress := do
  firstGood host.bindFault? noAddress (← host.resolve text)

/-- **The address that a connection is made to.** -/
def connect (host : Host) (text : String) : Except SystemError SocketAddress := do
  firstGood host.connectFault? noAddress (← host.resolve text)

/-- The host with a port that a listener has taken on every address. -/
def occupy (host : Host) (port : Nat) : Host :=
  { host with
    bindFault? := fun address =>
      host.bindFault? address <|> if address.port = port then some .addressInUse else none }

/-- **Whether a text stands for an address.** -/
def standsFor (host : Host) (text : String) (address : SocketAddress) : Bool :=
  match host.resolve text with
  | .ok addresses => addresses.contains address
  | .error _ => false

/-! ## A host without a network -/

/-- Whether groups stand for octets. -/
def isOctets (groups : List Nat) : Bool := groups.take 6 = [0, 0, 0, 0, 0, 0xffff]

/-- Why groups cannot be listened on while the loopback interface, which has the number one, is
down. -/
def isolatedBindFault? (groups : List Nat) (zone : Nat) : Option SystemError :=
  if isOctets groups || groups.all (· = 0) then none
  else if isMulticast groups then some .invalidArgument
  else if isLinkLocal groups && zone = 0 then some .invalidArgument
  else if isLinkLocal groups && zone ≠ 1 then some .noDevice
  else some .addressNotAvailable

/-- Why groups cannot be reached while the loopback interface is down. -/
def isolatedConnectFault (groups : List Nat) (zone : Nat) : SystemError :=
  if isOctets groups || isMulticast groups then .networkUnreachable
  else if isLinkLocal groups && zone = 0 then .invalidArgument
  else .addressNotAvailable

/-- **A host whose only interface is down.** Every address of four octets can be listened on, and so
can the address of all zeros, but nothing can be reached. -/
def isolated : Host where
  interface? name := if name = "lo" then some 1 else none
  lookup name :=
    if name.toLower = "localhost" then .ok [.four [127, 0, 0, 1]] else .error .nameServerUnreachable
  bindFault? address :=
    match address.host with
    | .four _ => none
    | .six groups zone => isolatedBindFault? groups zone
  connectFault? address :=
    match address.host with
    | .four _ => some .networkUnreachable
    | .six groups zone => some (isolatedConnectFault groups zone)

end Host

end RemoteLog.Network
