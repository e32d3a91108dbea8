import RemoteLog.Client.Peer
import RemoteLog.Worker.Connection

/-! # Servers

A server answers the commands of any number of connections over one file system. Connections share
nothing else.

* **`Server ι`** — the guard, the files, and the open connections by name.
* **`Server.send`**, **`finish`**, **`receive`**, **`drop`** — what a peer can do.
* **`Server.Step`**, **`Server.run`** — sequences of such steps, with what the peers receive.
* **`Server.peer`** — a server as the other end of a client's connections. -/

namespace RemoteLog.Worker

/-- **A server** whose connections have names of type `ι`. -/
structure Server (ι : Type) where
  guard : PathGuard
  files : FileSystem
  connections : List (ι × Connection)

namespace Server

variable {ι : Type} [DecidableEq ι]

/-- The connection with this name; a new name opens a connection. -/
def connection (server : Server ι) (name : ι) : Connection :=
  match server.connections.find? fun c => c.1 = name with
  | some c => c.2
  | none => .start

/-- The server with the state of one connection replaced. -/
def setConnection (server : Server ι) (name : ι) (connection : Connection) : Server ι :=
  { server with
    connections := (name, connection) :: server.connections.filter fun c => c.1 ≠ name }

/-- The server after a step of one connection. -/
def update (server : Server ι) (name : ι) (step : Connection × FileSystem) : Server ι :=
  { server.setConnection name step.1 with files := step.2 }

/-- **A peer sends bytes.** -/
def send (server : Server ι) (name : ι) (bytes : ByteArray) : Server ι :=
  server.update name ((server.connection name).receive server.guard bytes server.files)

/-- **A peer finishes sending.** -/
def finish (server : Server ι) (name : ι) : Server ι :=
  server.update name ((server.connection name).finish server.guard server.files)

/-- **A peer gives a connection up.** -/
def drop (server : Server ι) (name : ι) : Server ι :=
  { server with connections := server.connections.filter fun c => c.1 ≠ name }

/-- What a peer receives: some commands, and whether it then saw the close. -/
structure Received where
  commands : List Command
  closed : Bool

/-- Receives at most `most` commands from position `i` of what has been written; also the position
behind them. -/
def receiveFrom (connection : Connection) (i : Nat) : (most : Nat) → Received × Nat
  | 0 => (⟨[], false⟩, i)
  | most + 1 =>
    match Frame.read connection.written i with
    | .frame command next =>
      let (received, last) := receiveFrom connection next most
      ({ received with commands := command :: received.commands }, last)
    | _ => (⟨[], connection.closed⟩, i)

/-- **A peer receives at most `most` commands.** -/
def receive (server : Server ι) (name : ι) (most : Nat) : Received × Server ι :=
  let connection := server.connection name
  let (received, i) := receiveFrom connection 0 most
  (received, server.setConnection name
    { connection with written := connection.written.extract i connection.written.size })

/-! ## Sequences of steps -/

/-- **What a peer does** on a connection. -/
inductive Step (ι : Type) where
  | send (name : ι) (bytes : ByteArray)
  | finish (name : ι)
  | receive (name : ι) (most : Nat)
  | drop (name : ι)

/-- The connection that a step belongs to. -/
def Step.name : Step ι → ι
  | send name _ => name
  | finish name => name
  | receive name _ => name
  | drop name => name

/-- One step, and what is received in it. -/
def step (server : Server ι) : Step ι → Option Received × Server ι
  | .send name bytes => (none, server.send name bytes)
  | .finish name => (none, server.finish name)
  | .receive name most =>
    let (received, server) := server.receive name most
    (some received, server)
  | .drop name => (none, server.drop name)

/-- **A sequence of steps,** with what each connection receives. -/
def run (server : Server ι) : List (Step ι) → List (ι × Received) × Server ι
  | [] => ([], server)
  | first :: rest =>
    let (received, server) := server.step first
    let (more, server) := server.run rest
    ((received.toList.map fun r => (first.name, r)) ++ more, server)

/-! ## Servers as peers -/

/-- **A server at the other end of a client's connections,** which are numbered. The state holds the
number of the newest one. A client that opens a connection has given the one before up. -/
def peer : Peer (Nat × Server Nat) where
  dial s := (.ok (), s.1 + 1, s.2.drop s.1)
  deliver s request :=
    let server := s.2.send s.1 request
    let connection := server.connection s.1
    (⟨connection.written, connection.closed⟩, s.1,
      server.setConnection s.1 { connection with written := ByteArray.empty })

end Server

end RemoteLog.Worker
