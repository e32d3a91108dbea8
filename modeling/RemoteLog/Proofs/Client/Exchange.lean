import RemoteLog.Client.Basic
import RemoteLog.Proofs.Frame.Reading
import RemoteLog.Proofs.Message.RoundTrip

/-! # One exchange of a client

* **`Inbox.await_of_encode`**, **`Inbox.await_of_close`** — waiting when nothing but the answer has
  arrived, and when the connection was closed without one.
* **`Client.send_of_tooLarge`**, **`send_of_answer`**, **`send_of_failure`** — one call, by what
  becomes of its request. -/

namespace RemoteLog

open Message

namespace Inbox

variable {inbox : Inbox} {tag : Int64} {i next : Nat}

/-- The frame with the tag ends the waiting. -/
theorem awaitFrom_of_frame {c : Command} (h : Frame.read inbox.unread i = .frame c next)
    (htag : c.tag = tag) :
    inbox.awaitFrom tag i =
      .found c { inbox with unread := inbox.unread.extract next inbox.unread.size } := by
  rw [awaitFrom_eq, h]
  exact if_pos htag

theorem awaitFrom_of_ended (h : Frame.read inbox.unread i = .ended) :
    inbox.awaitFrom tag i = if inbox.ended then .ended else .more := by
  rw [awaitFrom_eq, h]

/-- **An answer that has arrived alone is found,** and nothing is left behind it. -/
theorem await_of_encode {c : Command} {frame : ByteArray} (hc : Frame.encode c = .ok frame) :
    await (Inbox.empty.add ⟨frame, false⟩) c.tag = .found c .empty := by
  have hread : Frame.read (Inbox.empty.add ⟨frame, false⟩).unread 0 = .frame c frame.size :=
    (Frame.read_alone hc).1
  have hrest : (ByteArray.empty ++ frame).extract frame.size (ByteArray.empty ++ frame).size =
      ByteArray.empty := Bytes.eq_of_toList (by simp)
  rw [await, awaitFrom_of_frame hread rfl]
  exact congrArg (fun unread => Wait.found c ⟨unread, false⟩) hrest

/-- **A connection that is closed without an answer has ended.** -/
theorem await_of_close (tag : Int64) :
    await (Inbox.empty.add ⟨ByteArray.empty, true⟩) tag = .ended :=
  awaitFrom_of_ended (Frame.read_of_nil rfl)

end Inbox

namespace Client

variable {σ : Type} {peer : Peer σ} {client : Client} {s s' : σ} {α β : Type} [Body α] [Body β]
  {request : α}

/-- **A request that does not fit a frame is not sent.** -/
theorem send_of_tooLarge (h : (Body.encode request).size > maxBody) :
    client.send β peer request s =
      (.error (.protocol (.tooLarge (Body.encode request).size)),
        { client with nextTag := client.nextTag + 1 }, s) := by
  simp only [send, Body.toCommand_eq, if_pos h]

/-- **A call whose exchange fails** gives the connection up. -/
theorem send_of_failure (h : (Body.encode request).size ≤ maxBody) {error : ClientError}
    (hexchange : client.exchange peer ⟨Body.kind α, client.nextTag, Body.encode request⟩ s =
      (.error error, s')) :
    client.send β peer request s =
      (.error error, { client with nextTag := client.nextTag + 1, connection := none }, s') := by
  simp only [send, Body.toCommand_eq, if_neg (Nat.not_lt_of_le h), hexchange]

/-- **A call that is answered** gives the body of the answer and keeps the connection. -/
theorem send_of_answer (h : (Body.encode request).size ≤ maxBody) (hβ : Body.Distinct β)
    {response : β} {tag : Int64} {rest : Inbox}
    (hexchange : client.exchange peer ⟨Body.kind α, client.nextTag, Body.encode request⟩ s =
      (.ok (⟨Body.kind β, tag, Body.encode response⟩, rest), s')) :
    client.send β peer request s =
      (.ok response,
        { client with nextTag := client.nextTag + 1, connection := some rest }, s') := by
  simp only [send, Body.toCommand_eq, if_neg (Nat.not_lt_of_le h), hexchange, understand,
    Body.ofCommand_encode hβ]

end Client

end RemoteLog
