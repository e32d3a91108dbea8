import RemoteLog.Frame

/-! # Inboxes

A client reads the frames of its connection one by one until the one that answers its request.
Frames with another tag answer requests that were given up before; they are thrown away.

* **`Inbox`** — what has arrived on a connection and has not been read.
* **`Inbox.await inbox tag`** — the frame with a tag, or why there is none. -/

namespace RemoteLog

/-- **What has arrived on a connection and has not been read.** -/
structure Inbox where
  unread : ByteArray
  /-- Whether nothing more will come. -/
  ended : Bool

namespace Inbox

/-- Nothing has arrived. -/
def empty : Inbox := ⟨ByteArray.empty, false⟩

/-- What waiting for a frame comes to. -/
inductive Wait where
  /-- The frame, and the inbox behind it. -/
  | found (command : Command) (rest : Inbox)
  /-- More has to arrive. -/
  | more
  /-- The connection ended between two frames. -/
  | ended
  /-- What arrived is no frame. -/
  | unreadable (error : ProtocolError)

set_option linter.unusedVariables false in
/-- Waits for the frame with a tag from position `i` on. -/
def awaitFrom (inbox : Inbox) (tag : Int64) (i : Nat) : Wait :=
  match h : Frame.read inbox.unread i with
  | .ended => if inbox.ended then .ended else .more
  | .failed (.stream cause) _ => if inbox.ended then .unreadable (.stream cause) else .more
  | .failed error _ => .unreadable error
  | .frame command next =>
    if command.tag = tag then
      .found command { inbox with unread := inbox.unread.extract next inbox.unread.size }
    else awaitFrom inbox tag next
termination_by inbox.unread.size - i
decreasing_by
  have := Frame.read_frame_bounds h
  simp only [Frame.headerSize] at this
  omega

/-- One step of waiting. -/
theorem awaitFrom_eq (inbox : Inbox) (tag : Int64) (i : Nat) :
    inbox.awaitFrom tag i =
      match Frame.read inbox.unread i with
      | .ended => if inbox.ended then .ended else .more
      | .failed (.stream cause) _ => if inbox.ended then .unreadable (.stream cause) else .more
      | .failed error _ => .unreadable error
      | .frame command next =>
        if command.tag = tag then
          .found command { inbox with unread := inbox.unread.extract next inbox.unread.size }
        else inbox.awaitFrom tag next := by
  rw [awaitFrom]
  split <;> simp only [*]

/-- **Waits for the frame with a tag.** -/
def await (inbox : Inbox) (tag : Int64) : Wait := inbox.awaitFrom tag 0

end Inbox

end RemoteLog
