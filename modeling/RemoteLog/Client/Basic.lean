import RemoteLog.Client.Error
import RemoteLog.Client.Peer
import RemoteLog.Message.Request
import RemoteLog.Message.Response

/-! # Clients

A client sends the requests of its calls over one connection and waits for the answers. Every call
takes a new tag. An exchange that does not end with the frame of its tag leaves the connection in an
unknown state, so the connection is given up and the next call opens another.

* **`Client.connect`** — a client with its first connection.
* **`Client.send`** — one call.
* **`Client.ask`**, **`Client.run`** — a call for any request, and a sequence of calls. -/

namespace RemoteLog

open Message

/-- **A client of one worker.** -/
structure Client where
  /-- The address of the worker. -/
  address : String
  /-- How many milliseconds the client waits for an answer. -/
  timeout : Nat
  /-- The tag of the next call. -/
  nextTag : Int64
  /-- The connection, unless it was given up. -/
  connection : Option Inbox

namespace Client

variable {σ : Type}

/-- How many milliseconds a client waits that is told nothing else. -/
def defaultTimeout : Nat := 10000

/-- Opens a connection. -/
def dial (peer : Peer σ) (address : String) (s : σ) : Except ClientError Inbox × σ :=
  match peer.dial s with
  | (.ok (), s) => (.ok .empty, s)
  | (.error cause, s) => (.error (.connect address cause), s)

/-- **A client with its first connection.** -/
def connect (peer : Peer σ) (address : String) (s : σ) : Except ClientError Client × σ :=
  match dial peer address s with
  | (.ok inbox, s) => (.ok ⟨address, defaultTimeout, 1, some inbox⟩, s)
  | (.error error, s) => (.error error, s)

/-- The connection of a client, opened anew if it was given up. -/
def reconnect (peer : Peer σ) (client : Client) (s : σ) : Except ClientError Inbox × σ :=
  match client.connection with
  | some inbox => (.ok inbox, s)
  | none => dial peer client.address s

/-- Sends the bytes of a request. What is sent on a connection that has ended is lost. -/
def transmit (peer : Peer σ) (inbox : Inbox) (frame : ByteArray) (s : σ) : Inbox × σ :=
  if inbox.ended then (inbox, s)
  else
    let (delivery, s) := peer.deliver s frame
    (inbox.add delivery, s)

/-- What waiting for an answer means to the caller. -/
def settle (timeout : Nat) : Inbox.Wait → Except ClientError (Command × Inbox)
  | .found response rest => .ok (response, rest)
  | .more => .error (.timeout timeout)
  | .ended => .error .connectionClosed
  | .unreadable error => .error (.protocol error)

/-- **Sends a command and waits for its answer.** -/
def exchange (peer : Peer σ) (client : Client) (c : Command) (s : σ) :
    Except ClientError (Command × Inbox) × σ :=
  match reconnect peer client s with
  | (.error error, s) => (.error error, s)
  | (.ok inbox, s) =>
    match Frame.encode c with
    | .error error => (.error (.protocol error), s)
    | .ok frame =>
      let (inbox, s) := transmit peer inbox frame s
      (settle client.timeout (inbox.await c.tag), s)

/-- The body of a response. -/
def understand (β : Type) [Body β] (response : Command) : Except ClientError β :=
  match Body.ofCommand response with
  | .ok body => .ok body
  | .error error => .error (.protocol error)

/-- **One call.** A request that is too large for a frame is not sent at all, and a response that
cannot be understood leaves the connection in order. -/
def send {α : Type} [Body α] (β : Type) [Body β] (peer : Peer σ) (client : Client) (request : α)
    (s : σ) : Except ClientError β × Client × σ :=
  let next := { client with nextTag := client.nextTag + 1 }
  match Body.toCommand request client.nextTag with
  | .error error => (.error (.protocol error), next, s)
  | .ok c =>
    match exchange peer client c s with
    | (.error error, s) => (.error error, { next with connection := none }, s)
    | (.ok (response, rest), s) => (understand β response, { next with connection := some rest }, s)

/-- Puts the body of a response into the sum of all responses. -/
def wrap {β : Type} (constructor : β → Response) :
    Except ClientError β × Client × σ → Except ClientError Response × Client × σ
  | (.ok body, rest) => (.ok (constructor body), rest)
  | (.error error, rest) => (.error error, rest)

/-- **The call for a request.** -/
def ask (peer : Peer σ) (client : Client) (request : Request) (s : σ) :
    Except ClientError Response × Client × σ :=
  match request with
  | .getLogBytes body => wrap .getLogBytes (client.send GetLogBytesResponse peer body s)
  | .viewWholeLog body => wrap .viewWholeLog (client.send ViewLogResponse peer body s)
  | .rollViewLog body => wrap .rollViewLog (client.send RollViewLogResponse peer body s)
  | .removeTaskLog body => wrap .removeTaskLog (client.send RemoveTaskLogResponse peer body s)
  | .getAppId body => wrap .getAppId (client.send GetAppIdResponse peer body s)

/-- **A sequence of calls** with their results. -/
def run (peer : Peer σ) (client : Client) (s : σ) :
    List Request → List (Except ClientError Response) × Client × σ
  | [] => ([], client, s)
  | request :: rest =>
    let (result, client, s) := client.ask peer request s
    let (results, last) := run peer client s rest
    (result :: results, last)

end Client

end RemoteLog
