import RemoteLog.Proofs.Worker.Tasks

/-! # Every schedule writes the same

Whatever the order in which the tasks of a connection take their steps, the connection is closed
after a bounded number of them, and just the responses to the commands in front of the first one
that is rejected have been written then, in order. A command behind a rejected one may or may not be
worked on, so this is so if a rejected command is the last thing that is sent.

* **`LastIfRejected guard fs stream`** — nothing is sent behind a rejected command.
* **`OnCourse`** — the commands of a stream are answered, held by a task, or not read yet;
  **`OnCourse.step`** — every step keeps that.
* **`canMove_or_waits`** — some task can take a step until the connection is closed or waits for the
  peer.
* **`Steps.le_toDo`** — there are not too many steps; **`OnCourse.of_ended`**,
  **`OnCourse.of_waits`** — what has been written when the connection is closed or waits.
* **`steps_answered`** — the tasks write the same, however they take their steps;
  **`stream_answered`** — and so does a server. -/

namespace RemoteLog.Worker

/-- **Nothing is sent behind a rejected command.** -/
def LastIfRejected (guard : PathGuard) (fs : FileSystem) (stream : ByteArray) : Prop :=
  ∀ c more, (work guard fs (Frame.readAll stream).commands).left = c :: more →
    more = [] ∧ (Frame.readAll stream).error = none

/-! ## What the tasks have of a stream -/

/-- The command that the reader has. -/
def Reader.held : Reader → List Command
  | reserving c => [c]
  | waiting c => [c]
  | _ => []

/-- The response that the writer has. -/
def Writer.held : Writer → List Command
  | writing response => [response]
  | _ => []

/-- The commands that have been read and not been worked on. -/
def Tasks.held (s : Tasks) : List Command := s.working.toList.map (·.2) ++ s.reader.held

/-- The bytes that have not been read. -/
def Tasks.unread (s : Tasks) : ByteArray := s.pending ++ s.coming

/-- **The tasks have all commands of a stream:** those of `done` have been answered, and the
responses of `sent` have been written; that of `refused`, if any, has been rejected. The others are
held by a task or have not been read. -/
structure OnCourse (guard : PathGuard) (fs : FileSystem) (stream : ByteArray)
    (done refused sent : List Command) (s : Tasks) : Prop where
  worked : work guard fs (done ++ refused) =
    ⟨sent ++ s.writer.held ++ s.queue.queued, s.files, refused⟩
  written : Frame.encodeAll sent = .ok s.written
  rejected : s.rejected = true ↔ refused ≠ []
  commands : (Frame.readAll stream).commands =
    done ++ refused ++ s.held ++ (Frame.readAll s.unread).commands
  error : (Frame.readAll s.unread).error = (Frame.readAll stream).error
  stopped : s.reader = .stopped → (Frame.readAll s.unread).commands = []
  finished : s.finished = true → s.coming = ByteArray.empty
  isOpen : s.queue.closed = false
  capacity : s.queue.capacity = queueCapacity
  ended : s.writer = .ended → s.reader = .stopped ∧ s.working = none ∧ s.queue.queued = []

variable {guard : PathGuard} {fs : FileSystem} {stream : ByteArray}
  {done refused sent : List Command} {s s' : Tasks}

namespace OnCourse

theorem start (guard : PathGuard) (fs : FileSystem) (stream : ByteArray) :
    OnCourse guard fs stream [] [] [] (.start fs stream) := by
  have hunread : (Tasks.start fs stream).unread = stream := ByteArray.empty_append
  refine ⟨rfl, rfl, ⟨nofun, nofun⟩, ?_, ?_, nofun, nofun, rfl, rfl, nofun⟩
  · rw [hunread]
    rfl
  · rw [hunread]

/-- Behind a rejected command there is nothing. -/
theorem nothing_behind (h : OnCourse guard fs stream done refused sent s)
    (hlast : LastIfRejected guard fs stream) (hrefused : refused ≠ []) :
    s.held = [] ∧ (Frame.readAll s.unread).commands = [] := by
  obtain ⟨c, more, rfl⟩ := List.exists_cons_of_ne_nil hrefused
  have hwork := work_append guard fs (done ++ c :: more)
    (s.held ++ (Frame.readAll s.unread).commands)
  rw [h.worked, ← List.append_assoc, ← h.commands] at hwork
  dsimp only at hwork
  rw [if_neg (List.cons_ne_nil c more)] at hwork
  obtain ⟨hmore, -⟩ := hlast c (more ++ (s.held ++ (Frame.readAll s.unread).commands))
    (congrArg Work.left hwork)
  rw [List.append_eq_nil_iff, List.append_eq_nil_iff] at hmore
  exact hmore.2

/-- So no command has been rejected while one is held. -/
theorem refused_eq_nil (h : OnCourse guard fs stream done refused sent s)
    (hlast : LastIfRejected guard fs stream) (hheld : s.held ≠ []) : refused = [] :=
  Classical.byContradiction fun hrefused => hheld (h.nothing_behind hlast hrefused).1

/-- The connection is not closed while the reader goes on. -/
theorem not_ended (h : OnCourse guard fs stream done refused sent s) (hreader : s.reader ≠ .stopped)
    (hended : s.writer = .ended) : False :=
  hreader (h.ended hended).1

/-! ### Steps of the peer and the reader -/

theorem arrive (h : OnCourse guard fs stream done refused sent s) {now later : ByteArray}
    (hcoming : s.coming = now ++ later) (hnow : now ≠ ByteArray.empty) :
    OnCourse guard fs stream done refused sent
      { s with coming := later, pending := s.pending ++ now } := by
  have hunread :
      Tasks.unread { s with coming := later, pending := s.pending ++ now } = s.unread := by
    rw [Tasks.unread, Tasks.unread, hcoming, ByteArray.append_assoc]
  refine { h with commands := ?_, error := ?_, stopped := ?_, finished := fun hfinished => ?_ }
  · rw [hunread]
    exact h.commands
  · rw [hunread]
    exact h.error
  · rw [hunread]
    exact h.stopped
  · -- Nothing arrives behind the end.
    have hempty := congrArg ByteArray.size (hcoming.symm.trans (h.finished hfinished))
    rw [ByteArray.size_append, ByteArray.size_empty] at hempty
    exact absurd (ByteArray.size_eq_zero_iff.mp (by omega)) hnow

theorem read (h : OnCourse guard fs stream done refused sent s) {c : Command} {next : Nat}
    (hreader : s.reader = .reading) (hread : Frame.read s.pending 0 = .frame c next) :
    OnCourse guard fs stream done refused sent { s with
      pending := s.pending.extract next s.pending.size, reader := .reserving c } := by
  obtain ⟨frame, after, hc, hpending, hafter⟩ := Frame.exists_of_read_eq_frame hread rfl
  have hunread : s.unread = frame ++ Tasks.unread { s with
      pending := s.pending.extract next s.pending.size, reader := .reserving c } := by
    rw [Tasks.unread, Tasks.unread, ← Bytes.eq_extract_of_toList hafter, ← ByteArray.append_assoc,
      ← hpending]
  obtain ⟨hcommands, herror⟩ := Frame.readAll_frames_append (Frame.encodeAll_singleton hc)
    (Tasks.unread { s with
      pending := s.pending.extract next s.pending.size, reader := .reserving c })
  rw [← hunread] at hcommands herror
  refine { h with commands := ?_, error := ?_, stopped := nofun, ended := fun hended => ?_ }
  · rw [h.commands, hcommands]
    simp [Tasks.held, Reader.held, hreader]
  · rw [← h.error, herror]
  · exact (h.not_ended (by rw [hreader]; exact nofun) hended).elim

/-- The reader stops where nothing can be read any more. -/
theorem stop (h : OnCourse guard fs stream done refused sent s) (hreader : s.reader = .reading)
    (hunread : (Frame.readAll s.unread).commands = []) :
    OnCourse guard fs stream done refused sent { s with reader := .stopped } := by
  refine { h with commands := ?_, stopped := fun _ => hunread, ended := fun hended => ?_ }
  · rw [h.commands]
    simp [Tasks.held, Reader.held, Tasks.unread, hreader]
  · exact ⟨rfl, (h.ended hended).2⟩

/-- At the end nothing can be read any more. -/
theorem commands_of_readEnd (h : OnCourse guard fs stream done refused sent s)
    (hread : Frame.read s.pending 0 = .ended) (hfinished : s.finished = true) :
    (Frame.readAll s.unread).commands = [] := by
  have hpending : s.pending = ByteArray.empty :=
    Bytes.eq_of_toList (Frame.read_eq_ended_iff.mp hread)
  rw [Tasks.unread, hpending, h.finished hfinished]
  exact congrArg Frame.Transcript.commands Frame.readAll_empty

/-- At what is no frame and cannot become one, nothing can be read any more. -/
theorem commands_of_unreadable (h : OnCourse guard fs stream done refused sent s)
    {bad : ProtocolError} {next : Nat} (hread : Frame.read s.pending 0 = .failed bad next)
    (hbad : s.finished = true ∨ ∀ cause, bad ≠ .stream cause) :
    (Frame.readAll s.unread).commands = [] := by
  obtain ⟨left, hdamage⟩ := Frame.damage_of_read_eq_failed hread
  have hending : Frame.Ending (Bytes.toList s.unread) (some bad) := by
    rw [Tasks.unread, Bytes.toList_append]
    obtain hfinished | hfield := hbad
    · rw [h.finished hfinished]
      exact ⟨left, by simpa using hdamage⟩
    · exact hdamage.append hfield _
  have hcommands := (Frame.readAll_of_split Frame.encodeAll_nil hending).1
  rwa [ByteArray.empty_append] at hcommands

/-- The reader gets a place. -/
theorem reserve (h : OnCourse guard fs stream done refused sent s) {c : Command}
    (hreader : s.reader = .reserving c) (slots : List (Nat × Slot)) :
    OnCourse guard fs stream done refused sent
      { s with reader := .waiting c, queue := { s.queue with slots := slots } } := by
  refine { h with commands := ?_, stopped := nofun, ended := fun hended => ?_ }
  · rw [h.commands]
    simp [Tasks.held, Reader.held, Tasks.unread, hreader]
  · exact (h.not_ended (by rw [hreader]; exact nofun) hended).elim

/-- The reader hands its command on. -/
theorem hand_on (h : OnCourse guard fs stream done refused sent s) {c : Command}
    (hreader : s.reader = .waiting c) (hworking : s.working = none) :
    OnCourse guard fs stream done refused sent { s with
      reader := .reading, number := s.number + 1, permit := false
      working := some (s.number, c) } := by
  refine { h with commands := ?_, stopped := nofun, ended := fun hended => ?_ }
  · rw [h.commands]
    simp [Tasks.held, Reader.held, Tasks.unread, hreader, hworking]
  · exact (h.not_ended (by rw [hreader]; exact nofun) hended).elim

/-! ### The work on a command -/

/-- The command that is worked on is answered or rejected, on the files that the commands before
have left. -/
theorem work (h : OnCourse guard fs stream done refused sent s)
    (hlast : LastIfRejected guard fs stream) (hslots : Slots s) {n : Nat} {c : Command}
    (hworking : s.working = some (n, c)) :
    ∃ done refused, OnCourse guard fs stream done refused sent (s.work guard n c) := by
  have hheld : s.held = c :: s.reader.held := by rw [Tasks.held, hworking]; rfl
  obtain rfl := h.refused_eq_nil hlast (hheld ▸ List.cons_ne_nil _ _)
  have hworked := h.worked
  have hcommands := h.commands
  rw [List.append_nil] at hworked hcommands
  have hopen (hended : s.writer = .ended) : False := by
    have hnone := (h.ended hended).2.1
    rw [hworking] at hnone
    cases hnone
  obtain ⟨-, body, files, hanswer⟩ | ⟨cause, -, hanswer⟩ := answer_cases guard s.files c
  · refine ⟨done ++ [c], [], ?_⟩
    rw [Tasks.work_of_answer hanswer,
      ResponseQueue.send_of_unsent (hslots.working n c hworking).2.2, h.isOpen]
    refine { h with worked := ?_, commands := ?_, isOpen := rfl, ended := fun hended => ?_ }
    · rw [List.append_nil, work_append, hworked]
      dsimp only
      rw [if_pos rfl, work_of_answer hanswer]
      simp [Worker.work]
    · rw [hcommands, hheld]
      simp [Tasks.held, Tasks.unread]
    · exact (hopen hended).elim
  · refine ⟨done, [c], ?_⟩
    rw [Tasks.work_of_rejection hanswer]
    refine { h with worked := ?_, rejected := ?_, commands := ?_, ended := fun hended => ?_ }
    · rw [work_append, hworked]
      dsimp only
      rw [if_pos rfl, work_of_rejection hanswer, List.append_nil]
    · exact iff_of_true rfl (List.cons_ne_nil _ _)
    · rw [hcommands, hheld]
      simp [Tasks.held, Tasks.unread]
    · exact (hopen hended).elim

/-! ### Steps of the writer -/

theorem take (h : OnCourse guard fs stream done refused sent s) {response : Command}
    {queued : List Command} (hwriter : s.writer = .idle)
    (hqueued : s.queue.queued = response :: queued) :
    OnCourse guard fs stream done refused sent
      { s with writer := .writing response, queue := { s.queue with queued := queued } } := by
  refine { h with worked := ?_, ended := nofun }
  rw [h.worked, hwriter, hqueued]
  simp [Writer.held]

theorem write (h : OnCourse guard fs stream done refused sent s) {response : Command}
    {frame : ByteArray} (hwriter : s.writer = .writing response)
    (hframe : Frame.encode response = .ok frame) :
    OnCourse guard fs stream done refused (sent ++ [response])
      { s with writer := .idle, written := s.written ++ frame } := by
  refine { h with worked := ?_, written := ?_, ended := nofun }
  · rw [h.worked, hwriter]
    simp [Writer.held]
  · exact Frame.encodeAll_append h.written (Frame.encodeAll_singleton hframe)

/-- Every response that the writer takes has a frame. -/
theorem exists_frame (h : OnCourse guard fs stream done refused sent s) {response : Command}
    (hwriter : s.writer = .writing response) : ∃ frame, Frame.encode response = .ok frame := by
  have hall := Frame.exists_encodeAll_iff.mp
    (exists_encodeAll_responses guard fs (done ++ refused))
  rw [h.worked, hwriter] at hall
  exact Frame.exists_encode (hall response (by simp [Writer.held]))

/-- The writer ends when nothing is held any more. -/
theorem close (h : OnCourse guard fs stream done refused sent s) (hslots : Slots s)
    (hreader : s.reader = .stopped) (hwriter : s.writer = .idle) (hqueue : s.queue.taken = 0) :
    OnCourse guard fs stream done refused sent { s with writer := .ended } := by
  obtain ⟨hqueued, hworking⟩ := hslots.of_taken hqueue
  refine { h with worked := ?_, ended := fun _ => ⟨hreader, hworking, hqueued⟩ }
  rw [h.worked, hwriter]
  rfl

/-- **Every step keeps the tasks on course.** -/
theorem step (h : OnCourse guard fs stream done refused sent s)
    (hlast : LastIfRejected guard fs stream) (hslots : Slots s) (hstep : Step guard s s') :
    ∃ done refused sent, OnCourse guard fs stream done refused sent s' := by
  cases hstep with
  | arrive hcoming hnow => exact ⟨_, _, _, h.arrive hcoming hnow⟩
  | finish hcoming => exact ⟨_, _, _, { h with finished := fun _ => hcoming }⟩
  | read hreader hread => exact ⟨_, _, _, h.read hreader hread⟩
  | readEnd hreader hread hfinished =>
    exact ⟨_, _, _, h.stop hreader (h.commands_of_readEnd hread hfinished)⟩
  | unreadable hreader hread hbad =>
    exact ⟨_, _, _, h.stop hreader (h.commands_of_unreadable hread hbad)⟩
  | rejection hreader hrejected =>
    exact ⟨_, _, _, h.stop hreader (h.nothing_behind hlast (h.rejected.mp hrejected)).2⟩
  | reserve hreader hreserve =>
    rw [ResponseQueue.of_reserve_eq_reserved hreserve]
    exact ⟨_, _, _, h.reserve hreader _⟩
  | noWriter hreader hreserve =>
    -- The writer is there as long as the reader has a command.
    have hclosed := ResponseQueue.closed_of_reserve hreserve
    rw [h.isOpen] at hclosed
    cases hclosed
  | start hreader hpermit => exact ⟨_, _, _, h.hand_on hreader (hslots.permit hpermit)⟩
  | work hworking =>
    obtain ⟨done, refused, h⟩ := h.work hlast hslots hworking
    exact ⟨done, refused, sent, h⟩
  | giveBack | release => exact ⟨_, _, _, { h with }⟩
  | take hwriter hreceive =>
    obtain ⟨hqueued, hqueue⟩ := ResponseQueue.of_receive_eq_response hreceive
    rw [hqueue]
    exact ⟨_, _, _, h.take hwriter hqueued⟩
  | write hwriter hframe => exact ⟨_, _, _, h.write hwriter hframe⟩
  | noFrame hwriter hframe =>
    obtain ⟨frame, hframe'⟩ := h.exists_frame hwriter
    rw [hframe] at hframe'
    cases hframe'
  | close hwriter hreader hqueue => exact ⟨_, _, _, h.close hslots hreader hwriter hqueue⟩

end OnCourse

/-! ## Some task can take a step -/

/-- **Something can be done** before the end of what the peer sends arrives. -/
def CanMove (guard : PathGuard) (s : Tasks) : Prop :=
  ∃ s', Step guard s s' ∧ s'.finished = s.finished

/-- **The tasks wait for the peer** to send more or to end: all that it has sent has been dealt
with, and the frame that comes next has not arrived as a whole. -/
structure Tasks.Waits (s : Tasks) : Prop where
  coming : s.coming = ByteArray.empty
  finished : s.finished = false
  commands : (Frame.readAll s.pending).commands = []
  cut : Frame.Cut s.pending
  reader : s.reader = .reading
  rejected : s.rejected = false
  taken : s.queue.taken = 0
  writer : s.writer = .idle

/-- Tasks that wait can still be told the end. -/
theorem Tasks.Waits.exists_step (h : s.Waits) : ∃ s', Step guard s s' :=
  ⟨_, .finish h.coming h.finished⟩

@[simp] theorem Tasks.finished_work (guard : PathGuard) (s : Tasks) (slot : Nat) (c : Command) :
    (s.work guard slot c).finished = s.finished := by
  unfold work
  dsimp only
  split <;> rfl

/-- While there is something to write or a place of the queue is taken, the writer or the work can
take a step, if the reader waits for no permit. -/
theorem canMove_or_idle (hslots : Slots s) (hopen : s.queue.closed = false)
    (hreader : ∀ c, s.reader ≠ .waiting c) (hwriter : s.writer ≠ .ended) :
    CanMove guard s ∨ s.queue.taken = 0 ∧ s.writer = .idle := by
  cases hw : s.writer with
  | ended => exact absurd hw hwriter
  | writing response =>
    cases hframe : Frame.encode response with
    | ok frame => exact .inl ⟨_, .write hw hframe, rfl⟩
    | error error => exact .inl ⟨_, .noFrame hw hframe, rfl⟩
  | idle =>
    cases hqueued : s.queue.queued with
    | cons response rest =>
      exact .inl ⟨_, .take hw (ResponseQueue.receive_of_cons hopen hqueued), rfl⟩
    | nil =>
      by_cases hpending : s.queue.pending = 0
      · refine .inr ⟨?_, rfl⟩
        rw [ResponseQueue.taken, hqueued, hpending]
        rfl
      · -- Whoever holds a reserved place can use it or give it up.
        obtain ⟨slot, hslot⟩ := Classical.not_forall.mp
          (fun hall => hpending (ResponseQueue.pending_eq_zero_iff.mpr hall))
        obtain ⟨hmem, hunsent⟩ := Classical.not_imp.mp hslot
        obtain hworked | ⟨c, hworking⟩ | ⟨c, hwaiting, -⟩ :=
          hslots.held slot hmem (Classical.not_not.mp hunsent)
        · exact .inl ⟨_, .release hworked, rfl⟩
        · exact .inl ⟨_, .work hworking, Tasks.finished_work ..⟩
        · exact absurd hwaiting (hreader c)

/-- A reader at the next frame goes on, unless it has to wait for the peer. -/
theorem canMove_or_cut (hreader : s.reader = .reading) :
    CanMove guard s ∨ s.coming = ByteArray.empty ∧ s.finished = false ∧ s.rejected = false ∧
      (Frame.readAll s.pending).commands = [] ∧ Frame.Cut s.pending := by
  by_cases hcoming : s.coming = ByteArray.empty
  · cases hrejected : s.rejected with
    | true => exact .inl ⟨_, .rejection hreader hrejected, rfl⟩
    | false =>
      match hread : Frame.read s.pending 0, hfinished : s.finished with
      | .frame c next, _ => exact .inl ⟨_, .read hreader hread, rfl⟩
      | .ended, true => exact .inl ⟨_, .readEnd hreader hread hfinished, rfl⟩
      | .ended, false =>
        have hall := @Frame.readAllFrom_of_ended s.pending 0 [] hread
        refine .inr ⟨hcoming, rfl, rfl, congrArg Frame.Transcript.commands hall, ?_⟩
        intro error herror
        cases (congrArg Frame.Transcript.error hall).symm.trans herror
      | .failed bad next, true =>
        exact .inl ⟨_, .unreadable hreader hread (.inl hfinished), rfl⟩
      | .failed bad next, false =>
        by_cases hfield : ∀ cause, bad ≠ .stream cause
        · exact .inl ⟨_, .unreadable hreader hread (.inr hfield), rfl⟩
        · have hall := @Frame.readAllFrom_of_failed s.pending 0 next [] bad hread
          refine .inr ⟨hcoming, rfl, rfl, congrArg Frame.Transcript.commands hall, ?_⟩
          intro error herror
          cases (congrArg Frame.Transcript.error hall).symm.trans herror
          obtain ⟨cause, hcause⟩ := Classical.not_forall.mp hfield
          exact ⟨cause, Classical.not_not.mp hcause⟩
  · exact .inl ⟨_, .arrive ByteArray.append_empty.symm hcoming, rfl⟩

/-- **Some task can take a step** until the connection is closed or waits for the peer. -/
theorem canMove_or_waits (hslots : Slots s) (hopen : s.queue.closed = false)
    (hcapacity : s.queue.capacity = queueCapacity) (hwriter : s.writer ≠ .ended) :
    CanMove guard s ∨ s.Waits := by
  cases hreader : s.reader with
  | reading =>
    obtain hmove | ⟨htaken, hidle⟩ :=
      canMove_or_idle hslots hopen (by rw [hreader]; exact nofun) hwriter
    · exact .inl hmove
    · obtain hmove | ⟨hcoming, hfinished, hrejected, hcommands, hcut⟩ := canMove_or_cut hreader
      · exact .inl hmove
      · exact .inr ⟨hcoming, hfinished, hcommands, hcut, hreader, hrejected, htaken, hidle⟩
  | reserving c =>
    obtain hmove | ⟨htaken, -⟩ :=
      canMove_or_idle hslots hopen (by rw [hreader]; exact nofun) hwriter
    · exact .inl hmove
    · have hroom : s.queue.taken < s.queue.capacity := by rw [htaken, hcapacity]; decide
      exact .inl ⟨_, .reserve hreader (ResponseQueue.reserve_eq_reserved hopen hroom _), rfl⟩
  | waiting c =>
    refine .inl ?_
    match hpermit : s.permit, hworking : s.working with
    | true, _ => exact ⟨_, .start hreader hpermit, rfl⟩
    | false, none => exact ⟨_, .giveBack hworking hpermit, rfl⟩
    | false, some work => exact ⟨_, .work hworking, Tasks.finished_work ..⟩
  | stopped =>
    obtain hmove | ⟨htaken, hidle⟩ :=
      canMove_or_idle hslots hopen (by rw [hreader]; exact nofun) hwriter
    · exact .inl hmove
    · exact .inl ⟨_, .close hidle hreader htaken, rfl⟩

/-! ## Any number of steps -/

/-- **Some number of steps,** one after the other. -/
inductive Steps (guard : PathGuard) (s : Tasks) : Nat → Tasks → Prop where
  | none : Steps guard s 0 s
  | step {n : Nat} {s' s'' : Tasks} (h : Steps guard s n s') (hstep : Step guard s' s'') :
      Steps guard s (n + 1) s''

namespace Steps

variable {n : Nat}

/-- The places stay held. -/
theorem slots (hs : Slots s) (h : Steps guard s n s') : Slots s' := by
  induction h with
  | none => exact hs
  | step _ hstep ih => exact ih.step hstep

/-- There are no more steps than there is to do. -/
theorem le_toDo (hs : Slots s) (h : Steps guard s n s') : n + s'.toDo ≤ s.toDo := by
  induction h with
  | none => exact Nat.le_of_eq (Nat.zero_add _)
  | step h hstep ih =>
    have hlt := hstep.toDo_lt (h.slots hs)
    omega

/-- **The tasks of a connection stay on course.** -/
theorem onCourse (hlast : LastIfRejected guard fs stream) (h : Steps guard (.start fs stream) n s) :
    ∃ done refused sent, OnCourse guard fs stream done refused sent s := by
  induction h with
  | none => exact ⟨_, _, _, .start guard fs stream⟩
  | step h hstep ih =>
    obtain ⟨done, refused, sent, hcourse⟩ := ih
    exact hcourse.step hlast (h.slots (.start fs stream)) hstep

end Steps

/-- At any time, the frames of the first responses have been written. -/
theorem OnCourse.sent_le (h : OnCourse guard fs stream done refused sent s) :
    sent <+: (Worker.work guard fs (Frame.readAll stream).commands).responses := by
  rw [h.commands, List.append_assoc, work_append, h.worked]
  dsimp only
  split
  · simp only [List.append_assoc]
    exact List.prefix_append _ _
  · simp only [List.append_assoc]
    exact List.prefix_append _ _

/-- **When the connection is closed, all responses have been written.** -/
theorem OnCourse.of_ended (h : OnCourse guard fs stream done refused sent s)
    (hended : s.writer = .ended) :
    Worker.work guard fs (Frame.readAll stream).commands = ⟨sent, s.files, refused⟩ := by
  obtain ⟨hreader, hworking, hqueued⟩ := h.ended hended
  have hheld : s.held = [] := by rw [Tasks.held, hworking, hreader]; rfl
  have hwriter : s.writer.held = [] := by rw [hended]; rfl
  rw [h.commands, hheld, h.stopped hreader, List.append_nil, List.append_nil, h.worked, hwriter,
    hqueued, List.append_nil, List.append_nil]

/-- **When the tasks wait for the peer, all responses have been written,** nothing has been
rejected, and what comes next may be a frame. -/
theorem OnCourse.of_waits (h : OnCourse guard fs stream done refused sent s) (hslots : Slots s)
    (hwaits : s.Waits) :
    Worker.work guard fs (Frame.readAll stream).commands = ⟨sent, s.files, []⟩ ∧
      Frame.Cut stream := by
  obtain ⟨hqueued, hworking⟩ := hslots.of_taken hwaits.taken
  have hrefused : refused = [] := Classical.byContradiction fun hne =>
    Bool.false_ne_true (hwaits.rejected.symm.trans (h.rejected.mpr hne))
  have hunread : s.unread = s.pending := by
    rw [Tasks.unread, hwaits.coming, ByteArray.append_empty]
  have hheld : s.held = [] := by rw [Tasks.held, hworking, hwaits.reader]; rfl
  have hwriter : s.writer.held = [] := by rw [hwaits.writer]; rfl
  have hworked := h.worked
  rw [hrefused, hwriter, hqueued, List.append_nil, List.append_nil, List.append_nil] at hworked
  refine ⟨?_, ?_⟩
  · rw [h.commands, hrefused, hheld, hunread, hwaits.commands, List.append_nil, List.append_nil,
      List.append_nil, hworked]
  · rw [Frame.Cut, ← h.error, hunread]
    exact hwaits.cut

/-- **However the tasks take their steps, they write the same.** -/
theorem steps_answered (hlast : LastIfRejected guard fs stream) {out : ByteArray}
    (hout : Frame.encodeAll (work guard fs (Frame.readAll stream).commands).responses = .ok out)
    {n : Nat} (hsteps : Steps guard (.start fs stream) n s) :
    let done := work guard fs (Frame.readAll stream).commands
    Bytes.toList s.written <+: Bytes.toList out ∧ n ≤ 2 * stream.size + 3 ∧
      (¬ CanMove guard s → s.written = out ∧ s.files = done.files ∧
        (s.writer = .ended ∨ s.finished = false ∧ done.left = [] ∧ Frame.Cut stream)) ∧
      ((∀ s', ¬ Step guard s s') → s.writer = .ended) ∧
      (s.writer = .ended → s.written = out ∧ s.files = done.files) := by
  intro done
  have hslots := hsteps.slots (.start fs stream)
  obtain ⟨answered, refused, sent, hcourse⟩ := hsteps.onCourse hlast
  have hmoves (hopen : s.writer ≠ .ended) : CanMove guard s ∨ s.Waits :=
    canMove_or_waits hslots hcourse.isOpen hcourse.capacity hopen
  have hall {left : List Command} (h : done = ⟨sent, s.files, left⟩) :
      s.written = out ∧ s.files = done.files := by
    have hwritten := hcourse.written
    rw [show done.responses = sent by rw [h], hwritten] at hout
    exact ⟨Except.ok.inj hout, by rw [h]⟩
  refine ⟨?_, ?_, fun hrest => ?_, fun hstuck => ?_, fun hended => ?_⟩
  · exact Frame.encodeAll_mono hcourse.written hout hcourse.sent_le
  · have hle := hsteps.le_toDo (.start fs stream)
    rw [Tasks.toDo_start] at hle
    omega
  · by_cases hended : s.writer = .ended
    · exact (hall (hcourse.of_ended hended)).imp_right fun h => ⟨h, .inl hended⟩
    · have hwaits := (hmoves hended).resolve_left hrest
      obtain ⟨hdone, hcut⟩ := hcourse.of_waits hslots hwaits
      obtain ⟨hwritten, hfiles⟩ := hall hdone
      exact ⟨hwritten, hfiles, .inr ⟨hwaits.finished, congrArg Work.left hdone, hcut⟩⟩
  · apply Classical.byContradiction
    intro hended
    obtain ⟨s', hstep, -⟩ | hwaits := hmoves hended
    · exact hstuck s' hstep
    · obtain ⟨s', hstep⟩ := hwaits.exists_step
      exact hstuck s' hstep
  · exact hall (hcourse.of_ended hended)

/-- **The stream of a connection is answered** up to the first command that is rejected, the first
bytes that are no frame, or its end. What a server writes on a connection on which the stream is
sent in pieces are the frames of the responses to the commands before, each one worked on with the
files that the one before has left; the server then closes the connection. And so do the tasks of
the connection, in whatever order they take their steps: at any time the first of these frames have
been written, and there are no more steps than the stream allows. When all is done that can be done
before the end of what the peer sends arrives, all of them have been written, and the connection is
closed unless more may still come; when no step at all can be taken any more it is closed. -/
theorem stream_answered {ι : Type} [DecidableEq ι] (guard : PathGuard) (fs : FileSystem) (name : ι)
    (pieces : List ByteArray)
    (hlast : LastIfRejected guard fs (pieces.foldl (· ++ ·) ByteArray.empty)) :
    let stream := pieces.foldl (· ++ ·) ByteArray.empty
    let transcript := Frame.readAll stream
    let done := work guard fs transcript.commands
    let server : Server ι := (Server.run ⟨guard, fs, []⟩ (pieces.map (.send name))).2
    ∃ answered out, transcript.commands = answered ++ done.left ∧
      done.responses.map (fun response => (response.kind, response.tag)) =
        answered.map (fun c => (⟨c.kind.operation, .response⟩, c.tag)) ∧
      Frame.encodeAll done.responses = .ok out ∧
      ((server.connection name).written = out ∧ server.files = done.files ∧
        ((server.connection name).closed = true ↔ done.left ≠ [] ∨ ¬ Frame.Cut stream)) ∧
      (((server.finish name).connection name).written = out ∧
        (server.finish name).files = done.files ∧
        ((server.finish name).connection name).closed = true) ∧
      ∀ n s, Steps guard (.start fs stream) n s →
        Bytes.toList s.written <+: Bytes.toList out ∧ n ≤ 2 * stream.size + 3 ∧
        (¬ CanMove guard s → s.written = out ∧ s.files = done.files ∧
          (s.writer = .ended ∨ s.finished = false ∧ done.left = [] ∧ Frame.Cut stream)) ∧
        ((∀ s', ¬ Step guard s s') → s.writer = .ended) ∧
        (s.writer = .ended → s.written = out ∧ s.files = done.files) := by
  intro stream transcript done server
  obtain ⟨answered, hanswered, hresponses⟩ := work_answered guard fs transcript.commands
  obtain ⟨out, hout⟩ := exists_encodeAll_responses guard fs transcript.commands
  obtain ⟨hguard, hsent⟩ : server.guard = guard ∧
      Connection.Follows guard fs false stream (server.connection name) server.files :=
    Server.follows_run_send (Connection.follows_start guard fs) pieces
  have hfinished : Connection.Follows guard fs true stream
      ((server.finish name).connection name) (server.finish name).files :=
    hguard ▸ Server.follows_finish (hguard.symm ▸ hsent)
  have hwritten {written : ByteArray} (h : Frame.encodeAll done.responses = .ok written) :
      written = out := Except.ok.inj (h.symm.trans hout)
  refine ⟨answered, out, hanswered, hresponses, hout, ?_, ?_, fun n s => steps_answered hlast hout⟩
  · refine ⟨hwritten hsent.written, hsent.files, hsent.closed.trans ?_⟩
    simp only [Bool.false_eq_true, false_or]
    exact Iff.rfl
  · exact ⟨hwritten hfinished.written, hfinished.files, hfinished.closed.mpr (.inl rfl)⟩

/-- A file outside the root is asked for twice, and the pieces meet inside the second frame. The
rolling view is answered, and the whole view behind it is rejected. -/
theorem stream_answered_two_views :
    let guard : PathGuard := ⟨"/logs"⟩
    let fs : FileSystem := ⟨[], []⟩
    let view : Command := ⟨⟨.rollViewLog, .request⟩, -5,
      "\x7b\"path\":\"/etc/a.log\",\"skipLineNum\":0,\"limit\":1\x7d".toUTF8⟩
    let rejected : Command :=
      ⟨⟨.viewWholeLog, .request⟩, 6, "\x7b\"path\":\"/etc/a.log\"\x7d".toUTF8⟩
    let frame (c : Command) := (Frame.header c.kind c.tag c.body.size).toByteArray ++ c.body
    let start := (frame rejected).extract 0 4
    let pieces := [frame view ++ start, (frame rejected).extract 4 (frame rejected).size]
    let stream := pieces.foldl (· ++ ·) ByteArray.empty
    let done := work guard fs (Frame.readAll stream).commands
    let server : Server Nat := (Server.run ⟨guard, fs, []⟩ (pieces.map (.send 0))).2
    LastIfRejected guard fs stream ∧ done.responses.map (·.tag) = [-5] ∧
      done.left.map (·.tag) = [6] ∧
      ∃ out, Frame.encodeAll done.responses = .ok out ∧ (server.connection 0).written = out ∧
        (server.connection 0).closed = true ∧
        ∀ n s, Steps guard (.start fs stream) n s → ¬ CanMove guard s →
          s.written = out ∧ s.writer = .ended := by
  intro guard fs view rejected frame start pieces stream done server
  have htags : done.responses.map (·.tag) = [-5] ∧ done.left.map (·.tag) = [6] ∧
      (Frame.readAll stream).error.isNone = true := by decide +kernel
  obtain ⟨hresponses, hleft, herror⟩ := htags
  have hone : done.left.length = 1 := by rw [← List.length_map (·.tag), hleft]; rfl
  have hlast : LastIfRejected guard fs stream := by
    intro c more h
    have hlength : (c :: more).length = 1 := (congrArg List.length h).symm.trans hone
    exact ⟨List.length_eq_zero_iff.mp (Nat.succ.inj hlength), Option.isNone_iff_eq_none.mp herror⟩
  obtain ⟨-, out, -, -, hout, ⟨hwritten, -, hclosed⟩, -, htasks⟩ :=
    stream_answered guard fs 0 pieces hlast
  have hrejected : done.left ≠ [] := fun hnil => by
    rw [hnil] at hone
    cases hone
  refine ⟨hlast, hresponses, hleft, out, hout, hwritten, hclosed.mpr (.inl hrejected), ?_⟩
  intro n s hsteps hrest
  obtain ⟨hwritten', -, hended | ⟨-, hnil, -⟩⟩ := (htasks n s hsteps).2.2.1 hrest
  · exact ⟨hwritten', hended⟩
  · exact absurd hnil hrejected

end RemoteLog.Worker
