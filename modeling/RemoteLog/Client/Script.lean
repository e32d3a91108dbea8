import RemoteLog.Client.Peer

/-! # Scripted peers

A scripted peer has a list of replies laid out, one for each request that it will receive. It reads
nothing of a request but its tag.

* **`Script.Action`** — one thing that a reply does.
* **`Script.peer`** — the peer; its state is the replies that are left. -/

namespace RemoteLog.Script

/-- **One thing that a reply does.** -/
inductive Action where
  /-- Sends a command whose tag is that of the request plus `offset`; only the first `cut` bytes of
  its frame, if a cut is given. -/
  | command (kind : CommandKind) (offset : Int64) (body : ByteArray) (cut : Option Nat)
  /-- Sends bytes. -/
  | raw (bytes : ByteArray)
  /-- Closes the connection. -/
  | close

/-- The bytes of a command, cut if need be; nothing if it is too large for a frame. -/
def frameOf (command : Command) (cut : Option Nat) : ByteArray :=
  match Frame.encode command, cut with
  | .ok frame, none => frame
  | .ok frame, some n => frame.extract 0 n
  | .error _, _ => ByteArray.empty

/-- What a reply to a request with a given tag delivers, behind the bytes of `sent`. Nothing is sent
after the connection has been closed. -/
def perform (tag : Int64) (sent : ByteArray) : List Action → Delivery
  | [] => ⟨sent, false⟩
  | .command kind offset body cut :: rest =>
    perform tag (sent ++ frameOf ⟨kind, tag + offset, body⟩ cut) rest
  | .raw bytes :: rest => perform tag (sent ++ bytes) rest
  | .close :: _ => ⟨sent, true⟩

/-- The tag of a request. -/
def tagOf (request : ByteArray) : Int64 :=
  match Frame.read request 0 with
  | .frame command _ => command.tag
  | _ => 0

/-- **A peer that gives one reply after the other** and falls silent when none is left. -/
def peer : Peer (List (List Action)) where
  dial replies := (.ok (), replies)
  deliver replies request :=
    match replies with
    | [] => (.silence, [])
    | reply :: rest => (perform (tagOf request) ByteArray.empty reply, rest)

end RemoteLog.Script
