import RemoteLog.Proofs.Frame.Boundary
import RemoteLog.Proofs.Worker.Rejection
import RemoteLog.Proofs.Worker.Serving

/-! # What is written on a connection

The commands of a connection are worked on in order, each on the files that the ones before have
left, until one of them is rejected. Just the responses to the commands before it are written, and
it does not matter in which pieces the bytes of the commands arrive.

* **`work guard fs cs`** — the responses to a list of commands, the files afterwards, and what is
  left of the list.
* **`work_append`** — the work on a list goes on where the work on its front has ended.
* **`Connection.Follows`** — a connection on which a stream has arrived.
* **`Follows.receive`**, **`Follows.finish`** — more bytes, and the end.
* **`Server.follows_run_send`** — a stream that is sent to a server in pieces. -/

namespace RemoteLog.Worker

/-! ## Work on a list of commands -/

/-- **What the work on a list of commands comes to.** -/
structure Work where
  /-- The responses to the commands that were answered. -/
  responses : List Command
  files : FileSystem
  /-- The commands from the first rejected one on. -/
  left : List Command

/-- **The work on a list of commands,** in order and up to the first one that is rejected. -/
def work (guard : PathGuard) : (fs : FileSystem) → List Command → Work
  | fs, [] => ⟨[], fs, []⟩
  | fs, c :: cs =>
    let outcome := process guard fs .unsent c
    match outcome.result with
    | .error _ => ⟨[], outcome.files, c :: cs⟩
    | .ok response =>
      let rest := work guard outcome.files cs
      { rest with responses := response :: rest.responses }

section

variable {guard : PathGuard} {fs files : FileSystem} {c response : Command}

theorem work_of_answer (h : answer guard fs c = (.ok response, files)) (cs : List Command) :
    work guard fs (c :: cs) =
      ⟨response :: (work guard files cs).responses, (work guard files cs).files,
        (work guard files cs).left⟩ := by
  simp only [work, process_unsent_result, process_files, h]

theorem work_of_rejection {cause : AnswerError} (h : answer guard fs c = (.error cause, files))
    (cs : List Command) : work guard fs (c :: cs) = ⟨[], files, c :: cs⟩ := by
  simp only [work, process_unsent_result, process_files, h]

end

section

variable (guard : PathGuard) (fs : FileSystem) (cs ds : List Command)

/-- **The work on a list goes on** where the work on its front has ended, unless that has left
commands. -/
theorem work_append :
    work guard fs (cs ++ ds) =
      let before := work guard fs cs
      let behind := work guard before.files ds
      if before.left = [] then
        ⟨before.responses ++ behind.responses, behind.files, behind.left⟩
      else { before with left := before.left ++ ds } := by
  induction cs generalizing fs with
  | nil => rfl
  | cons c cs ih =>
    obtain ⟨-, body, files, hanswer⟩ | ⟨cause, -, hanswer⟩ := answer_cases guard fs c
    · rw [List.cons_append, work_of_answer hanswer, work_of_answer hanswer, ih]
      dsimp only
      split
      · rfl
      · rfl
    · rw [List.cons_append, work_of_rejection hanswer, work_of_rejection hanswer]
      rfl

/-- **The responses are those to the commands in front of what is left:** one each, for the same
operation and with the same tag. -/
theorem work_answered :
    ∃ answered, cs = answered ++ (work guard fs cs).left ∧
      (work guard fs cs).responses.map (fun response => (response.kind, response.tag)) =
        answered.map fun c => (⟨c.kind.operation, .response⟩, c.tag) := by
  induction cs generalizing fs with
  | nil => exact ⟨[], rfl, rfl⟩
  | cons c cs ih =>
    obtain ⟨-, body, files, hanswer⟩ | ⟨cause, -, hanswer⟩ := answer_cases guard fs c
    · obtain ⟨answered, hcs, hresponses⟩ := ih files
      rw [work_of_answer hanswer]
      refine ⟨c :: answered, congrArg (c :: ·) hcs, ?_⟩
      rw [List.map_cons, List.map_cons, hresponses]
    · rw [work_of_rejection hanswer]
      exact ⟨[], rfl, rfl⟩

/-- **Every response has a frame.** -/
theorem exists_encodeAll_responses :
    ∃ out, Frame.encodeAll (work guard fs cs).responses = .ok out := by
  rw [Frame.exists_encodeAll_iff]
  induction cs generalizing fs with
  | nil => exact nofun
  | cons c cs ih =>
    obtain ⟨-, body, files, hanswer⟩ | ⟨cause, -, hanswer⟩ := answer_cases guard fs c
    · rw [work_of_answer hanswer, List.forall_mem_cons]
      have hfits := answer_fits (congrArg Prod.fst hanswer)
      exact ⟨hfits.2, ih files⟩
    · rw [work_of_rejection hanswer]
      exact nofun

end

/-! ## Connections -/

namespace Connection

variable {guard : PathGuard} {fs files : FileSystem} {finished : Bool}
  {stream written : ByteArray} {connection : Connection}

/-- **A connection on which a stream has arrived,** and the files then. The commands in the stream
have been worked on, their responses have been written, and what is no whole frame yet is kept. The
connection is closed if the stream has ended, if a command is rejected, and if the stream is damaged
by more than its end. -/
structure Follows (guard : PathGuard) (fs : FileSystem) (finished : Bool) (stream : ByteArray)
    (connection : Connection) (files : FileSystem) : Prop where
  files : files = (work guard fs (Frame.readAll stream).commands).files
  written : Frame.encodeAll (work guard fs (Frame.readAll stream).commands).responses =
    .ok connection.written
  closed : connection.closed = true ↔ finished = true ∨
    (work guard fs (Frame.readAll stream).commands).left ≠ [] ∨ ¬ Frame.Cut stream
  pending : connection.closed = false → connection.finished = false ∧
    ∃ front, Frame.encodeAll (Frame.readAll stream).commands = .ok front ∧
      stream = front ++ connection.pending

/-! ### One step of a connection -/

theorem receive_of_closed (h : connection.closed = true) (bytes : ByteArray) :
    connection.receive guard bytes files =
      ({ connection with pending := connection.pending ++ bytes }, files) := if_pos h

theorem receive_of_open (h : connection.closed = false) (bytes : ByteArray) :
    connection.receive guard bytes files =
      serveFrom guard connection.finished (connection.pending ++ bytes) 0 files
        connection.written := if_neg (Bool.eq_false_iff.mp h)

theorem finish_of_closed (h : connection.closed = true) :
    connection.finish guard files = ({ connection with finished := true }, files) := if_pos h

theorem finish_of_open (h : connection.closed = false) :
    connection.finish guard files =
      serveFrom guard true connection.pending 0 files connection.written :=
  if_neg (Bool.eq_false_iff.mp h)

/-- A frame is written if there is a response. -/
theorem exists_of_frame {c : Command} {frame : ByteArray}
    (h : ((process guard fs .unsent c).result >>= fun response => refuse (Frame.encode response)) =
      .ok frame) :
    ∃ response, answer guard fs c = (.ok response, (process guard fs .unsent c).files) ∧
      Frame.encode response = .ok frame := by
  rw [process_unsent_result] at h
  rw [process_files]
  match hanswer : answer guard fs c with
  | (.error cause, files) =>
    rw [hanswer] at h
    cases h
  | (.ok response, files) =>
    rw [hanswer] at h
    match hframe : Frame.encode response with
    | .error error =>
      simp only [bind, Except.bind, hframe, refuse] at h
      cases h
    | .ok frame' =>
      simp only [bind, Except.bind, hframe, refuse] at h
      cases h
      exact ⟨response, rfl, hframe⟩

/-- No frame is written only if there is no response, for every response has a frame. -/
theorem exists_of_no_frame {c : Command} {cause : AnswerError}
    (h : ((process guard fs .unsent c).result >>= fun response => refuse (Frame.encode response)) =
      .error cause) :
    ∃ cause', answer guard fs c = (.error cause', (process guard fs .unsent c).files) := by
  rw [process_unsent_result] at h
  rw [process_files]
  match hanswer : answer guard fs c with
  | (.error cause', files) => exact ⟨cause', rfl⟩
  | (.ok response, files) =>
    obtain ⟨frame, hframe⟩ := Frame.exists_encode (answer_fits (congrArg Prod.fst hanswer)).2
    rw [hanswer] at h
    simp only [bind, Except.bind, hframe, refuse] at h
    cases h

section

variable {cs : List Command} {responses : List Command} {front rest : ByteArray}
  {error : Option ProtocolError}

/-- All frames are answered, and the connection is closed behind them. -/
theorem follows_close (hcs : Frame.encodeAll cs = .ok front)
    (hwork : work guard fs cs = ⟨responses, files, []⟩)
    (hwritten : Frame.encodeAll responses = .ok written)
    (hending : Frame.Ending (Bytes.toList rest) error)
    (hclosed : finished = true ∨ ∃ bad, error = some bad ∧ ∀ cause, bad ≠ .stream cause) :
    Follows guard fs finished (front ++ rest) (close written) files := by
  obtain ⟨hcommands, herror⟩ := Frame.readAll_of_split hcs hending
  refine ⟨?_, ?_, ?_, nofun⟩
  · rw [hcommands, hwork]
  · rw [hcommands, hwork]
    exact hwritten
  · refine iff_of_true rfl (hclosed.imp_right fun ⟨bad, hbad, hfield⟩ => .inr fun hcut => ?_)
    obtain ⟨cause, hcause⟩ := hcut bad (herror.trans hbad)
    exact hfield cause hcause

/-- All frames are answered, and more may come behind them. -/
theorem follows_open (hcs : Frame.encodeAll cs = .ok front)
    (hwork : work guard fs cs = ⟨responses, files, []⟩)
    (hwritten : Frame.encodeAll responses = .ok written)
    (hending : Frame.Ending (Bytes.toList rest) error)
    (hcut : ∀ bad, error = some bad → ∃ cause, bad = .stream cause) :
    Follows guard fs false (front ++ rest) ⟨rest, false, written, false⟩ files := by
  obtain ⟨hcommands, herror⟩ := Frame.readAll_of_split hcs hending
  refine ⟨?_, ?_, ?_, fun _ => ⟨rfl, front, ?_, rfl⟩⟩
  · rw [hcommands, hwork]
  · rw [hcommands, hwork]
    exact hwritten
  · refine iff_of_false nofun ?_
    rintro (hfinished | hleft | hbad)
    · cases hfinished
    · rw [hcommands, hwork] at hleft
      exact hleft rfl
    · refine hbad fun bad hread => hcut bad ?_
      rw [← herror, hread]
  · rw [hcommands]
    exact hcs

/-- A rejected command behind the answered ones closes the connection. -/
theorem follows_rejection (hcs : Frame.encodeAll cs = .ok front)
    (hwork : work guard fs cs = ⟨responses, files, []⟩)
    (hwritten : Frame.encodeAll responses = .ok written) {c : Command} {frame : ByteArray}
    (hc : Frame.encode c = .ok frame) {cause : AnswerError} {files' : FileSystem}
    (hanswer : answer guard files c = (.error cause, files')) (more : ByteArray) :
    Follows guard fs finished (front ++ (frame ++ more)) (close written) files' := by
  have hfront := Frame.encodeAll_append hcs (Frame.encodeAll_singleton hc)
  have hcommands := (Frame.readAll_frames_append hfront more).1
  rw [ByteArray.append_assoc, List.append_assoc, List.singleton_append] at hcommands
  have hleft : work guard fs (cs ++ c :: (Frame.readAll more).commands) =
      ⟨responses, files', c :: (Frame.readAll more).commands⟩ := by
    rw [work_append, hwork]
    dsimp only
    rw [if_pos rfl, work_of_rejection hanswer, List.append_nil]
  refine ⟨?_, ?_, ?_, nofun⟩
  · rw [hcommands, hleft]
  · rw [hcommands, hleft]
    exact hwritten
  · refine iff_of_true rfl (.inr (.inl ?_))
    rw [hcommands, hleft]
    exact List.cons_ne_nil _ _

/-- **Serving a stream** behind the frames of commands that have been answered: the connection
follows the stream with these frames in front. -/
theorem follows_serveFrom {i : Nat} (hcs : Frame.encodeAll cs = .ok front)
    (hwork : work guard fs cs = ⟨responses, files, []⟩)
    (hwritten : Frame.encodeAll responses = .ok written)
    (hrest : Bytes.toList rest = (Bytes.toList stream).drop i) :
    Follows guard fs finished (front ++ rest) (serveFrom guard finished stream i files written).1
      (serveFrom guard finished stream i files written).2 := by
  -- The commands that have been answered grow by one in every step.
  fun_induction serveFrom guard finished stream i files written
    generalizing cs responses front rest with
  | case1 i files written hread hfinished =>
    have hending : Frame.Ending (Bytes.toList rest) none :=
      hrest.trans (Frame.read_eq_ended_iff.mp hread)
    exact follows_close hcs hwork hwritten hending (.inl hfinished)
  | case2 i files written hread hfinished =>
    have hending : Frame.Ending (Bytes.toList rest) none :=
      hrest.trans (Frame.read_eq_ended_iff.mp hread)
    obtain rfl : rest = ByteArray.empty := Bytes.eq_of_toList hending
    cases Bool.not_eq_true _ ▸ hfinished
    exact follows_open hcs hwork hwritten hending nofun
  | case3 i files written cause next hread hfinished =>
    have hending : Frame.Ending (Bytes.toList rest) (some (.stream cause)) :=
      hrest ▸ Frame.damage_of_read_eq_failed hread
    exact follows_close hcs hwork hwritten hending (.inl hfinished)
  | case4 i files written cause next hread hfinished =>
    have hending : Frame.Ending (Bytes.toList rest) (some (.stream cause)) :=
      hrest ▸ Frame.damage_of_read_eq_failed hread
    cases Bool.not_eq_true _ ▸ hfinished
    rw [← Bytes.eq_extract_of_toList hrest]
    exact follows_open hcs hwork hwritten hending
      fun bad hbad => ⟨cause, (Option.some.inj hbad).symm⟩
  | case5 i files written bad next hfield hread =>
    have hending : Frame.Ending (Bytes.toList rest) (some bad) :=
      hrest ▸ Frame.damage_of_read_eq_failed hread
    exact follows_close hcs hwork hwritten hending (.inr ⟨bad, rfl, hfield⟩)
  | case6 i files written c next hread outcome cause =>
    rename_i hresult
    obtain ⟨cause', hanswer⟩ := exists_of_no_frame hresult
    obtain ⟨frame, after, hc, rfl, -⟩ := Frame.exists_of_read_eq_frame hread hrest
    exact follows_rejection hcs hwork hwritten hc hanswer _
  | case7 i files written c next hread outcome frame' =>
    rename_i hresult ih
    obtain ⟨response, hanswer, hframe'⟩ := exists_of_frame hresult
    obtain ⟨frame, after, hc, rfl, hafter⟩ := Frame.exists_of_read_eq_frame hread hrest
    have hwork' : work guard fs (cs ++ [c]) = ⟨responses ++ [response], outcome.files, []⟩ := by
      rw [work_append, hwork]
      dsimp only
      rw [if_pos rfl, work_of_answer hanswer]
      rfl
    rw [← ByteArray.append_assoc]
    exact ih (Frame.encodeAll_append hcs (Frame.encodeAll_singleton hc)) hwork'
      (Frame.encodeAll_append hwritten (Frame.encodeAll_singleton hframe')) hafter

end

/-- What arrives behind the first command of a closed connection that is not answered is lost. -/
theorem Follows.receive_closed (h : Follows guard fs false stream connection files)
    (hclosed : connection.closed = true) (bytes pending : ByteArray) :
    Follows guard fs false (stream ++ bytes) { connection with pending := pending } files := by
  obtain hfinished | hleft | hcut := h.closed.mp hclosed
  · cases hfinished
  · obtain ⟨more, hmore⟩ := Frame.commands_readAll_prefix stream bytes
    have hwork := work_append guard fs (Frame.readAll stream).commands more
    dsimp only at hwork
    rw [hmore, if_neg hleft] at hwork
    refine ⟨?_, ?_, iff_of_true hclosed (.inr (.inl ?_)), fun hopen => ?_⟩
    · rw [hwork]
      exact h.files
    · rw [hwork]
      exact h.written
    · rw [hwork]
      exact List.append_ne_nil_of_left_ne_nil hleft more
    · exact absurd hclosed (Bool.eq_false_iff.mp hopen)
  · obtain ⟨hcommands, herror⟩ := Frame.readAll_append_of_not_cut hcut bytes
    refine ⟨?_, ?_, iff_of_true hclosed (.inr (.inr ?_)), fun hopen => ?_⟩
    · rw [hcommands]
      exact h.files
    · rw [hcommands]
      exact h.written
    · rwa [Frame.Cut, herror]
    · exact absurd hclosed (Bool.eq_false_iff.mp hopen)

/-- On an open connection all commands have been answered. -/
theorem Follows.left_eq_nil (h : Follows guard fs finished stream connection files)
    (hopen : connection.closed = false) :
    work guard fs (Frame.readAll stream).commands =
      ⟨(work guard fs (Frame.readAll stream).commands).responses, files, []⟩ := by
  have hleft : (work guard fs (Frame.readAll stream).commands).left = [] := by
    apply Classical.byContradiction
    intro hleft
    exact Bool.noConfusion (hopen.symm.trans (h.closed.mpr (.inr (.inl hleft))))
  rw [h.files, ← hleft]

/-- **More bytes arrive.** -/
theorem Follows.receive (h : Follows guard fs false stream connection files) (bytes : ByteArray) :
    Follows guard fs false (stream ++ bytes) (connection.receive guard bytes files).1
      (connection.receive guard bytes files).2 := by
  cases hclosed : connection.closed with
  | true =>
    rw [receive_of_closed hclosed]
    exact h.receive_closed hclosed bytes _
  | false =>
    obtain ⟨hfinished, front, hfront, hstream⟩ := h.pending hclosed
    rw [receive_of_open hclosed, hfinished, hstream, ByteArray.append_assoc]
    exact follows_serveFrom hfront (h.left_eq_nil hclosed) h.written rfl

/-- **The stream ends.** -/
theorem Follows.finish (h : Follows guard fs false stream connection files) :
    Follows guard fs true stream (connection.finish guard files).1
      (connection.finish guard files).2 := by
  cases hclosed : connection.closed with
  | true =>
    rw [finish_of_closed hclosed]
    exact ⟨h.files, h.written, iff_of_true hclosed (.inl rfl),
      fun hopen => absurd hclosed (Bool.eq_false_iff.mp hopen)⟩
  | false =>
    obtain ⟨-, front, hfront, hstream⟩ := h.pending hclosed
    rw [finish_of_open hclosed, hstream]
    exact follows_serveFrom hfront (h.left_eq_nil hclosed) h.written rfl

/-- Nothing has arrived on a new connection. -/
theorem follows_start (guard : PathGuard) (fs : FileSystem) :
    Follows guard fs false ByteArray.empty .start fs := by
  have hcut : Frame.Cut ByteArray.empty := by
    rw [Frame.Cut, Frame.readAll_empty]
    intro error herror
    cases herror
  refine ⟨?_, ?_, iff_of_false Bool.noConfusion ?_, fun _ => ⟨rfl, ByteArray.empty, ?_, rfl⟩⟩
  · rw [Frame.readAll_empty]
    rfl
  · rw [Frame.readAll_empty]
    rfl
  · rw [Frame.readAll_empty]
    rintro (hfinished | hleft | hbad)
    · cases hfinished
    · exact hleft rfl
    · exact hbad hcut
  · rw [Frame.readAll_empty]
    rfl

end Connection

namespace Server

variable {ι : Type} [DecidableEq ι] {server : Server ι} {fs : FileSystem} {stream : ByteArray}
  {name : ι}

/-- **A stream that is sent in pieces** is followed as if it had been sent at once. -/
theorem follows_run_send
    (h : Connection.Follows server.guard fs false stream (server.connection name) server.files)
    (pieces : List ByteArray) :
    (server.run (pieces.map (.send name))).2.guard = server.guard ∧
      Connection.Follows server.guard fs false (pieces.foldl (· ++ ·) stream)
        ((server.run (pieces.map (.send name))).2.connection name)
        (server.run (pieces.map (.send name))).2.files := by
  induction pieces generalizing server stream with
  | nil => exact ⟨rfl, h⟩
  | cons bytes pieces ih =>
    have hsent : Connection.Follows (server.send name bytes).guard fs false (stream ++ bytes)
        ((server.send name bytes).connection name) (server.send name bytes).files := by
      rw [send, connection_update, if_pos rfl]
      exact h.receive bytes
    exact ih hsent

/-- **The end of the stream** closes its connection. -/
theorem follows_finish
    (h : Connection.Follows server.guard fs false stream (server.connection name) server.files) :
    Connection.Follows server.guard fs true stream ((server.finish name).connection name)
      (server.finish name).files := by
  rw [finish, connection_update, if_pos rfl]
  exact h.finish

end Server

end RemoteLog.Worker
