import RemoteLog.Client.Inbox
import RemoteLog.Network.Host

/-! # Peers

What stands at the other end of a client's connections. A client has one connection at a time and
sends one request at a time, so a peer is known by what it answers to a new connection and to the
bytes of a request on the newest one.

* **`Peer σ`** — a peer with states of type `σ`.
* **`Peer.reachedFrom`** — a peer behind a network.
* **`Peer.journaled`** — a peer that keeps a record of what it was sent. -/

namespace RemoteLog

/-- What comes back on a connection. -/
structure Delivery where
  bytes : ByteArray
  /-- Whether the connection ends behind them; otherwise the peer falls silent. -/
  ends : Bool

/-- Nothing comes back. -/
def Delivery.silence : Delivery := ⟨ByteArray.empty, false⟩

/-- What a delivery leaves in an inbox. -/
def Inbox.add (inbox : Inbox) (delivery : Delivery) : Inbox :=
  ⟨inbox.unread ++ delivery.bytes, delivery.ends⟩

/-- **What stands at the other end,** with states of type `σ`. -/
structure Peer (σ : Type) where
  /-- Opens a new connection. -/
  dial : σ → Except SystemError Unit × σ
  /-- Takes the bytes of a request on the newest connection, until the client stops waiting. -/
  deliver : σ → ByteArray → Delivery × σ

namespace Peer

variable {σ : Type}

/-- Nothing listens. -/
def absent : Peer σ where
  dial s := (.error .connectionRefused, s)
  deliver s _ := (.silence, s)

/-- **A peer behind a network,** which listens at `place`. A client that asks for `address` has to
find a way there first, and finds the peer only if that is its place. -/
def reachedFrom (host : Network.Host) (place address : String) (peer : Peer σ) : Peer σ where
  dial s :=
    match host.connect address with
    | .error cause => (.error cause, s)
    | .ok reached => if host.standsFor place reached then peer.dial s else absent.dial s
  deliver := peer.deliver

/-- A record of connections and requests. -/
structure Journal where
  /-- How many connections were opened. -/
  connections : Nat
  /-- The bytes of each request and the number of its connection, last one first. -/
  requests : List (Nat × ByteArray)

/-- An empty record. -/
def Journal.empty : Journal := ⟨0, []⟩

/-- **A peer that keeps a record.** -/
def journaled (peer : Peer σ) : Peer (σ × Journal) where
  dial s :=
    match peer.dial s.1 with
    | (.error cause, next) => (.error cause, next, s.2)
    | (.ok (), next) => (.ok (), next, { s.2 with connections := s.2.connections + 1 })
  deliver s bytes :=
    let (delivery, next) := peer.deliver s.1 bytes
    (delivery, next, { s.2 with requests := (s.2.connections, bytes) :: s.2.requests })

end Peer

end RemoteLog
