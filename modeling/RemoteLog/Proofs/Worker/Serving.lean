import RemoteLog.Proofs.Association
import RemoteLog.Proofs.Frame.Reading
import RemoteLog.Proofs.Worker.Answer
import RemoteLog.Worker.Server

/-! # Serving connections

* **`Connection.serveFrom_of_answer`**, **`_of_rejection`**, **`_of_ended`** — one step of serving
  a stream, by what stands at its position.
* **`Connection.receive_of_answer`**, **`_of_rejection`** — what one frame does to a connection on
  which nothing is left.
* **`Server.connection_setConnection`**, **`connection_drop`** — the connections of a server. -/

namespace RemoteLog.Worker

namespace Connection

section

variable {guard : PathGuard} {finished : Bool} {stream written : ByteArray} {i next : Nat}
  {fs files : FileSystem} {c : Command}

/-- **An answered command is followed by the next one,** its answer written. -/
theorem serveFrom_of_answer (h : Frame.read stream i = .frame c next) {response : Command}
    (hanswer : answer guard fs c = (.ok response, files)) {frame : ByteArray}
    (hframe : Frame.encode response = .ok frame) :
    serveFrom guard finished stream i fs written =
      serveFrom guard finished stream next files (written ++ frame) := by
  rw [serveFrom_eq, h]
  simp only [process_unsent_result, process_files, hanswer, bind, Except.bind, hframe, refuse]

/-- **A rejected command closes the connection.** -/
theorem serveFrom_of_rejection (h : Frame.read stream i = .frame c next) {cause : AnswerError}
    (hanswer : answer guard fs c = (.error cause, files)) :
    serveFrom guard finished stream i fs written = (close written, files) := by
  rw [serveFrom_eq, h]
  simp only [process_unsent_result, process_files, hanswer, bind, Except.bind]

/-- At the end of what has arrived, more may come. -/
theorem serveFrom_of_ended (h : Frame.read stream i = .ended) :
    serveFrom guard finished stream i fs written =
      if finished then (close written, fs) else (⟨ByteArray.empty, false, written, false⟩, fs) := by
  rw [serveFrom_eq, h]

end

section

variable {guard : PathGuard} {fs files : FileSystem} {c : Command} {frame : ByteArray}

/-- **One frame with an answer,** on a connection on which nothing is left. -/
theorem receive_of_answer (hc : Frame.encode c = .ok frame) {response : Command}
    (hanswer : answer guard fs c = (.ok response, files)) {written : ByteArray}
    (hwritten : Frame.encode response = .ok written) :
    receive guard .start frame fs = (⟨ByteArray.empty, false, written, false⟩, files) := by
  obtain ⟨hread, hend⟩ := Frame.read_alone hc
  show serveFrom guard false (ByteArray.empty ++ frame) 0 fs ByteArray.empty = _
  rw [serveFrom_of_answer hread hanswer hwritten, serveFrom_of_ended hend, ByteArray.empty_append]
  rfl

/-- **One frame without an answer** closes the connection. -/
theorem receive_of_rejection (hc : Frame.encode c = .ok frame) {cause : AnswerError}
    (hanswer : answer guard fs c = (.error cause, files)) :
    receive guard .start frame fs = (close ByteArray.empty, files) := by
  obtain ⟨hread, -⟩ := Frame.read_alone hc
  exact serveFrom_of_rejection hread hanswer

end

end Connection

namespace Server

variable {ι : Type} [DecidableEq ι] (server : Server ι) (name other : ι)

theorem connection_setConnection (connection : Connection) :
    (server.setConnection name connection).connection other =
      if other = name then connection else server.connection other := by
  unfold Server.connection setConnection
  by_cases h : other = name
  · simp [h]
  · have hne : (name, connection).1 ≠ other := fun heq => h heq.symm
    rw [if_neg h, List.find?_cons_of_neg (by simpa using hne), Association.find?_filter_other _ h]

theorem connection_drop :
    (server.drop name).connection other =
      if other = name then .start else server.connection other := by
  unfold Server.connection drop
  by_cases h : other = name
  · rw [if_pos h, h, Association.find?_filter_self]
  · rw [if_neg h, Association.find?_filter_other _ h]

theorem connection_update (step : Connection × FileSystem) :
    (server.update name step).connection other =
      if other = name then step.1 else server.connection other :=
  connection_setConnection server name other step.1

/-- **A request on the newest connection** is taken by this connection and changes no other. What is
written goes to the client at once. -/
theorem peer_deliver {s : Nat × Server Nat} {request : ByteArray} {connection : Connection}
    {files : FileSystem}
    (h : (s.2.connection s.1).receive s.2.guard request s.2.files = (connection, files)) :
    ∃ server : Server Nat,
      peer.deliver s request = (⟨connection.written, connection.closed⟩, s.1, server) ∧
      server.guard = s.2.guard ∧ server.files = files ∧
      ∀ name, server.connection name =
        if name = s.1 then { connection with written := ByteArray.empty }
        else s.2.connection name := by
  -- The request is taken by its connection; then what the connection has written is handed over.
  have htaken : (s.2.send s.1 request).connection s.1 = connection := by
    rw [send, connection_update, if_pos rfl, h]
  refine ⟨(s.2.send s.1 request).setConnection s.1
    { connection with written := ByteArray.empty }, ?_, rfl, congrArg Prod.snd h, fun name => ?_⟩
  · simp only [peer, htaken]
  · rw [connection_setConnection, send, connection_update]
    by_cases hname : name = s.1
    · rw [if_pos hname, if_pos hname]
    · rw [if_neg hname, if_neg hname, if_neg hname]

end Server

end RemoteLog.Worker
