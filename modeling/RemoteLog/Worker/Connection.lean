import RemoteLog.Frame
import RemoteLog.Worker.Answer

/-! # Connections of a worker

A worker answers the commands of a connection in the order in which they arrive. Every command gets
a slot of its own before it is worked on. The connection is closed behind the answers of the earlier
commands when a command is rejected, when what arrives is no frame, and when the peer has nothing
more to send.

* **`Connection`** — what has arrived and what has been written.
* **`Connection.advance`** — answers the whole frames that have arrived.
* **`Connection.receive`** — takes more bytes; **`Connection.finish`** — takes the end. -/

namespace RemoteLog.Worker

/-- **A connection as the worker sees it.** -/
structure Connection where
  /-- What has arrived and is no whole frame yet. -/
  pending : ByteArray
  /-- Whether the peer has finished sending. -/
  finished : Bool
  /-- What has been written and not been received by the peer. -/
  written : ByteArray
  /-- Whether the worker has closed the connection. -/
  closed : Bool

namespace Connection

/-- A new connection. -/
def start : Connection := ⟨ByteArray.empty, false, ByteArray.empty, false⟩

/-- The connection, closed behind what has been written. -/
def close (written : ByteArray) : Connection := ⟨ByteArray.empty, true, written, true⟩

set_option linter.unusedVariables false in
/-- Answers the frames of `stream` from position `i` on, behind what has been written. -/
def serveFrom (guard : PathGuard) (finished : Bool) (stream : ByteArray) (i : Nat)
    (fs : FileSystem) (written : ByteArray) : Connection × FileSystem :=
  match h : Frame.read stream i with
  | .ended =>
    if finished then (close written, fs) else (⟨ByteArray.empty, false, written, false⟩, fs)
  | .failed (.stream _) _ =>
    if finished then (close written, fs)
    else (⟨stream.extract i stream.size, false, written, false⟩, fs)
  | .failed _ _ => (close written, fs)
  | .frame command next =>
    let outcome := process guard fs .unsent command
    match outcome.result >>= fun response => refuse (Frame.encode response) with
    | .error _ => (close written, outcome.files)
    | .ok frame => serveFrom guard finished stream next outcome.files (written ++ frame)
termination_by stream.size - i
decreasing_by
  have := Frame.read_frame_bounds h
  simp only [Frame.headerSize] at this
  omega

/-- One step of serving a stream. -/
theorem serveFrom_eq (guard : PathGuard) (finished : Bool) (stream : ByteArray) (i : Nat)
    (fs : FileSystem) (written : ByteArray) :
    serveFrom guard finished stream i fs written =
      match Frame.read stream i with
      | .ended =>
        if finished then (close written, fs) else (⟨ByteArray.empty, false, written, false⟩, fs)
      | .failed (.stream _) _ =>
        if finished then (close written, fs)
        else (⟨stream.extract i stream.size, false, written, false⟩, fs)
      | .failed _ _ => (close written, fs)
      | .frame command next =>
        let outcome := process guard fs .unsent command
        match outcome.result >>= fun response => refuse (Frame.encode response) with
        | .error _ => (close written, outcome.files)
        | .ok frame => serveFrom guard finished stream next outcome.files (written ++ frame) := by
  rw [serveFrom]
  split <;> simp only [*]

/-- **Answers the whole frames that have arrived.** -/
def advance (guard : PathGuard) (connection : Connection) (fs : FileSystem) :
    Connection × FileSystem :=
  if connection.closed then (connection, fs)
  else serveFrom guard connection.finished connection.pending 0 fs connection.written

/-- **Takes more bytes from the peer.** What arrives after the close is lost. -/
def receive (guard : PathGuard) (connection : Connection) (bytes : ByteArray) (fs : FileSystem) :
    Connection × FileSystem :=
  advance guard { connection with pending := connection.pending ++ bytes } fs

/-- **Takes the end of what the peer sends.** -/
def finish (guard : PathGuard) (connection : Connection) (fs : FileSystem) :
    Connection × FileSystem :=
  advance guard { connection with finished := true } fs

end Connection

end RemoteLog.Worker
