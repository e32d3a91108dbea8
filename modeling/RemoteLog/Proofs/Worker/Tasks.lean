import RemoteLog.Proofs.Worker.Queue
import RemoteLog.Proofs.Worker.Session

/-! # The tasks of a connection

A connection is served by a reader, a writer and the work on one command at a time, which run in any
order that their hand-overs allow. The reader reserves a place in the response queue and waits for
the permit before it hands a command on; the work sends its response into the place, or signals the
rejection; the writer takes the responses out of the queue. The connection is closed by the writer,
once the reader has stopped and no response can come any more.

* **`Tasks`** — the tasks and what they share; **`Step guard s s'`** — what one of them does.
* **`Slots s`** — who holds the places of the queue; **`Slots.step`** — every step keeps that.
* **`Tasks.toDo`** — how much is left to do; **`Step.toDo_lt`** — every step does some of it. -/

namespace RemoteLog.Worker

/-! ## Tasks -/

/-- **What the reader is at.** -/
inductive Reader where
  /-- It waits for the next frame. -/
  | reading
  /-- It waits for a place in the queue. -/
  | reserving (c : Command)
  /-- It has a place and waits for the permit. -/
  | waiting (c : Command)
  | stopped

/-- **What the writer is at.** -/
inductive Writer where
  | idle
  | writing (response : Command)
  /-- It has ended, and the connection is closed. -/
  | ended

/-- **The tasks of a connection** and what they share. -/
structure Tasks where
  files : FileSystem
  /-- What the peer has not sent yet. -/
  coming : ByteArray
  /-- What has arrived and has not been read. -/
  pending : ByteArray
  /-- Whether the end of what the peer sends has arrived. -/
  finished : Bool
  reader : Reader
  /-- How many commands have been handed on, which is the name of the next slot. -/
  number : Nat
  /-- Whether the permit to work on a command is free. -/
  permit : Bool
  /-- The command that is worked on, and the name of its slot. -/
  working : Option (Nat × Command)
  /-- The slots of commands that have been worked on. -/
  worked : List Nat
  /-- Whether a rejection has been signalled. -/
  rejected : Bool
  queue : ResponseQueue Nat
  writer : Writer
  written : ByteArray

/-- How many responses of a connection are queued or worked on before its reader waits. -/
def queueCapacity : Nat := 16

namespace Tasks

/-- A new connection, on which a stream is going to arrive. -/
def start (fs : FileSystem) (stream : ByteArray) : Tasks where
  files := fs
  coming := stream
  pending := ByteArray.empty
  finished := false
  reader := .reading
  number := 0
  permit := true
  working := none
  worked := []
  rejected := false
  queue := .empty queueCapacity
  writer := .idle
  written := ByteArray.empty

/-- **The work on a command.** The response goes into the queue through the slot of the command, and
a rejection is signalled. The permit is given back behind that, and the slot last. -/
def work (guard : PathGuard) (s : Tasks) (slot : Nat) (c : Command) : Tasks :=
  let outcome := process guard s.files .unsent c
  let after := { s with files := outcome.files, working := none, worked := slot :: s.worked }
  match outcome.result with
  | .ok response => { after with queue := (s.queue.send slot response).2 }
  | .error _ => { after with rejected := true }

section

variable {guard : PathGuard} {s : Tasks} {c : Command} {files : FileSystem}

theorem work_of_answer {response : Command}
    (h : answer guard s.files c = (.ok response, files)) (slot : Nat) :
    s.work guard slot c = { s with
      files := files, working := none, worked := slot :: s.worked
      queue := (s.queue.send slot response).2 } := by
  simp only [work, process_unsent_result, process_files, h]

theorem work_of_rejection {cause : AnswerError}
    (h : answer guard s.files c = (.error cause, files)) (slot : Nat) :
    s.work guard slot c = { s with
      files := files, working := none, worked := slot :: s.worked, rejected := true } := by
  simp only [work, process_unsent_result, process_files, h]

end

end Tasks

/-- **What one of the tasks does,** or the peer. -/
inductive Step (guard : PathGuard) (s : Tasks) : Tasks → Prop where
  /-- Some more bytes arrive. -/
  | arrive {now later : ByteArray} (hcoming : s.coming = now ++ later)
      (hnow : now ≠ ByteArray.empty) :
      Step guard s { s with coming := later, pending := s.pending ++ now }
  /-- The end arrives behind all bytes. -/
  | finish (hcoming : s.coming = ByteArray.empty) (hfinished : s.finished = false) :
      Step guard s { s with finished := true }
  /-- The reader takes a frame. -/
  | read {c : Command} {next : Nat} (hreader : s.reader = .reading)
      (hread : Frame.read s.pending 0 = .frame c next) :
      Step guard s { s with
        pending := s.pending.extract next s.pending.size, reader := .reserving c }
  /-- The reader stops at the end. -/
  | readEnd (hreader : s.reader = .reading) (hread : Frame.read s.pending 0 = .ended)
      (hfinished : s.finished = true) : Step guard s { s with reader := .stopped }
  /-- The reader stops at what is no frame. A frame that is cut short may still become whole,
  unless the end has arrived. -/
  | unreadable {error : ProtocolError} {next : Nat} (hreader : s.reader = .reading)
      (hread : Frame.read s.pending 0 = .failed error next)
      (hbad : s.finished = true ∨ ∀ cause, error ≠ .stream cause) :
      Step guard s { s with reader := .stopped }
  /-- The reader stops at a signal. -/
  | rejection (hreader : s.reader = .reading) (hrejected : s.rejected = true) :
      Step guard s { s with reader := .stopped }
  /-- The reader gets a place in the queue. -/
  | reserve {c : Command} {queue : ResponseQueue Nat} (hreader : s.reader = .reserving c)
      (hreserve : s.queue.reserve s.number = (.reserved, queue)) :
      Step guard s { s with reader := .waiting c, queue := queue }
  /-- The reader stops if the writer has gone. -/
  | noWriter {c : Command} {queue : ResponseQueue Nat} (hreader : s.reader = .reserving c)
      (hreserve : s.queue.reserve s.number = (.closed, queue)) :
      Step guard s { s with reader := .stopped }
  /-- The reader gets the permit and hands its command on. -/
  | start {c : Command} (hreader : s.reader = .waiting c) (hpermit : s.permit = true) :
      Step guard s { s with
        reader := .reading, number := s.number + 1, permit := false
        working := some (s.number, c) }
  /-- A command is worked on. -/
  | work {slot : Nat} {c : Command} (hworking : s.working = some (slot, c)) :
      Step guard s (s.work guard slot c)
  /-- The permit is given back. -/
  | giveBack (hworking : s.working = none) (hpermit : s.permit = false) :
      Step guard s { s with permit := true }
  /-- The slot of a command that has been worked on is given up. -/
  | release {slot : Nat} (hslot : slot ∈ s.worked) :
      Step guard s { s with worked := s.worked.erase slot, queue := (s.queue.release slot).2 }
  /-- The writer takes a response. -/
  | take {response : Command} {queue : ResponseQueue Nat} (hwriter : s.writer = .idle)
      (hreceive : s.queue.receive = (.response response, queue)) :
      Step guard s { s with writer := .writing response, queue := queue }
  /-- The writer writes the frame of its response. -/
  | write {response : Command} {frame : ByteArray} (hwriter : s.writer = .writing response)
      (hframe : Frame.encode response = .ok frame) :
      Step guard s { s with writer := .idle, written := s.written ++ frame }
  /-- The writer ends at a response without a frame. -/
  | noFrame {response : Command} {error : ProtocolError} (hwriter : s.writer = .writing response)
      (hframe : Frame.encode response = .error error) :
      Step guard s { s with writer := .ended, queue := s.queue.close }
  /-- The writer ends when no response can come any more. -/
  | close (hwriter : s.writer = .idle) (hreader : s.reader = .stopped)
      (hqueue : s.queue.taken = 0) : Step guard s { s with writer := .ended }

/-! ## Who holds the places -/

/-- **The places of the queue** are held by the command that is worked on, by the reader with the
command that comes next, and by commands that have been worked on. No command is worked on while the
permit is free. -/
structure Slots (s : Tasks) : Prop where
  permit : s.permit = true → s.working = none
  working : ∀ n c, s.working = some (n, c) →
    n < s.number ∧ n ∉ s.worked ∧ s.queue.slot? n = some .unsent
  waiting : ∀ c, s.reader = .waiting c → s.queue.slot? s.number = some .unsent
  worked : ∀ n ∈ s.worked, n < s.number
  held : ∀ slot ∈ s.queue.slots, slot.2 = .unsent →
    slot.1 ∈ s.worked ∨ (∃ c, s.working = some (slot.1, c)) ∨
      ∃ c, s.reader = .waiting c ∧ slot.1 = s.number

namespace Slots

variable {guard : PathGuard} {s s' : Tasks}

theorem start (fs : FileSystem) (stream : ByteArray) : Slots (.start fs stream) :=
  ⟨fun _ => rfl, nofun, nofun, nofun, nofun⟩

/-- While no place is taken, nothing is queued and nothing is worked on. -/
theorem of_taken (h : Slots s) (htaken : s.queue.taken = 0) :
    s.queue.queued = [] ∧ s.working = none := by
  obtain ⟨hlength, hpending⟩ := Nat.add_eq_zero_iff.mp htaken
  refine ⟨List.length_eq_zero_iff.mp hlength, ?_⟩
  match hworking : s.working with
  | none => rfl
  | some (n, c) =>
    exact absurd hpending (ResponseQueue.pending_ne_zero (h.working n c hworking).2.2)

/-- A step that does not touch the places keeps them as they are held. -/
theorem of_eq (h : Slots s) (hpermit : s'.permit = s.permit) (hworking : s'.working = s.working)
    (hworked : s'.worked = s.worked) (hnumber : s'.number = s.number)
    (hslots : s'.queue.slots = s.queue.slots)
    (hreader : ∀ c, s'.reader = .waiting c ↔ s.reader = .waiting c) : Slots s' := by
  have hslot (n : Nat) : s'.queue.slot? n = s.queue.slot? n := by
    rw [ResponseQueue.slot?, ResponseQueue.slot?, hslots]
  refine ⟨?_, ?_, ?_, ?_, ?_⟩
  · simpa only [hpermit, hworking] using h.permit
  · simpa only [hworking, hworked, hnumber, hslot] using h.working
  · simpa only [hreader, hnumber, hslot] using h.waiting
  · simpa only [hworked, hnumber] using h.worked
  · simpa only [hslots, hworking, hworked, hnumber, hreader] using h.held

/-- A place is reserved under the next name. -/
theorem reserve (h : Slots s) {c : Command} (hreader : s.reader = .reserving c) :
    Slots { s with
      reader := .waiting c
      queue := { s.queue with slots := (s.number, .unsent) :: s.queue.otherSlots s.number } } := by
  have hslot := @ResponseQueue.slot?_of_set Nat _ s.queue
    { s.queue with slots := (s.number, .unsent) :: s.queue.otherSlots s.number } s.number _ rfl
  refine ⟨h.permit, fun n d hworking => ?_, fun d _ => ?_, h.worked, fun slot hmem hunsent => ?_⟩
  · obtain ⟨hlt, hworked, hn⟩ := h.working n d hworking
    refine ⟨hlt, hworked, ?_⟩
    rw [hslot, if_neg (Nat.ne_of_lt hlt)]
    exact hn
  · rw [hslot, if_pos rfl]
  · cases hmem with
    | head => exact .inr (.inr ⟨c, rfl, rfl⟩)
    | tail _ hmem =>
      obtain hworked | hworking | ⟨d, hwaiting, -⟩ :=
        h.held slot ((List.mem_filter.mp hmem).1) hunsent
      · exact .inl hworked
      · exact .inr (.inl hworking)
      · rw [hreader] at hwaiting
        cases hwaiting

/-- The place goes from the reader to the work. -/
theorem hand_on (h : Slots s) {c : Command} (hreader : s.reader = .waiting c)
    (hpermit : s.permit = true) :
    Slots { s with
      reader := .reading, number := s.number + 1, permit := false
      working := some (s.number, c) } := by
  refine ⟨nofun, ?_, nofun, fun n hn => Nat.lt_succ_of_lt (h.worked n hn),
    fun slot hmem hunsent => ?_⟩
  · rintro n d ⟨⟩
    exact ⟨Nat.lt_succ_self _, fun hn => Nat.lt_irrefl _ (h.worked _ hn), h.waiting c hreader⟩
  · obtain hworked | ⟨d, hworking'⟩ | ⟨d, -, hn⟩ := h.held slot hmem hunsent
    · exact .inl hworked
    · rw [h.permit hpermit] at hworking'
      cases hworking'
    · exact .inr (.inl ⟨c, hn ▸ rfl⟩)

/-- Whatever comes of the work on a command, its slot is left to be given up. -/
theorem settle (h : Slots s) {n : Nat} {c : Command} (hworking : s.working = some (n, c))
    (hworking' : s'.working = none) (hworked : s'.worked = n :: s.worked)
    (hnumber : s'.number = s.number) (hreader : s'.reader = s.reader)
    (hqueue : s'.queue.slots = s.queue.slots ∨
      s'.queue.slots = (n, .sent) :: s.queue.otherSlots n) : Slots s' := by
  obtain ⟨hlt, -, -⟩ := h.working n c hworking
  have hslot (m : Nat) (hne : m ≠ n) : s'.queue.slot? m = s.queue.slot? m := by
    obtain hslots | hslots := hqueue
    · rw [ResponseQueue.slot?, ResponseQueue.slot?, hslots]
    · rw [ResponseQueue.slot?_of_set hslots, if_neg hne]
  have hmem (slot : Nat × Slot) (hslot : slot ∈ s'.queue.slots) (hunsent : slot.2 = .unsent) :
      slot ∈ s.queue.slots := by
    obtain hslots | hslots := hqueue
    · rwa [hslots] at hslot
    · rw [hslots] at hslot
      cases hslot with
      | head => cases hunsent
      | tail _ hslot => exact (List.mem_filter.mp hslot).1
  refine ⟨fun _ => hworking', ?_, fun d hd => ?_, ?_, fun slot hslot hunsent => ?_⟩
  · rw [hworking']
    rintro _ _ ⟨⟩
  · rw [hnumber, hslot _ (Nat.ne_of_gt hlt)]
    rw [hreader] at hd
    exact h.waiting d hd
  · rw [hworked, hnumber]
    exact List.forall_mem_cons.mpr ⟨hlt, h.worked⟩
  · rw [hworked, hreader, hnumber]
    obtain hheld | ⟨d, hd⟩ | hwaiting := h.held slot (hmem slot hslot hunsent) hunsent
    · exact .inl (List.mem_cons_of_mem _ hheld)
    · rw [hworking] at hd
      cases hd
      exact .inl List.mem_cons_self
    · exact .inr (.inr hwaiting)

theorem work (h : Slots s) {n : Nat} {c : Command} (hworking : s.working = some (n, c)) :
    Slots (s.work guard n c) := by
  obtain ⟨-, body, files, hanswer⟩ | ⟨cause, -, hanswer⟩ := answer_cases guard s.files c
  · rw [Tasks.work_of_answer hanswer,
      ResponseQueue.send_of_unsent (h.working n c hworking).2.2]
    exact h.settle hworking rfl rfl rfl rfl (.inr rfl)
  · rw [Tasks.work_of_rejection hanswer]
    exact h.settle hworking rfl rfl rfl rfl (.inl rfl)

/-- The slot of a command that has been worked on is no longer needed. -/
theorem release (h : Slots s) {n : Nat} (hn : n ∈ s.worked) :
    Slots { s with worked := s.worked.erase n, queue := (s.queue.release n).2 } := by
  have hslot (m : Nat) (hne : m ≠ n) : (s.queue.release n).2.slot? m = s.queue.slot? m :=
    ResponseQueue.slot?_of_erase rfl hne
  refine ⟨h.permit, fun m c hworking => ?_, fun c hreader => ?_, fun m hm => ?_,
    fun slot hmem hunsent => ?_⟩
  · obtain ⟨hlt, hworked, hm⟩ := h.working m c hworking
    refine ⟨hlt, fun hmem => hworked (List.mem_of_mem_erase hmem), ?_⟩
    rw [hslot m fun heq => hworked (heq ▸ hn)]
    exact hm
  · rw [hslot _ (Nat.ne_of_gt (h.worked n hn))]
    exact h.waiting c hreader
  · exact h.worked m (List.mem_of_mem_erase hm)
  · obtain ⟨hmem, hne⟩ := List.mem_filter.mp hmem
    obtain hheld | hother := h.held slot hmem hunsent
    · exact .inl ((List.mem_erase_of_ne (of_decide_eq_true hne)).mpr hheld)
    · exact .inr hother

/-- **Every step keeps the places held.** -/
theorem step (h : Slots s) (hstep : Step guard s s') : Slots s' := by
  cases hstep with
  | arrive | finish | write | noFrame | close =>
    exact h.of_eq rfl rfl rfl rfl rfl fun c => Iff.rfl
  | take _ hreceive =>
    rw [(ResponseQueue.of_receive_eq_response hreceive).2]
    exact h.of_eq rfl rfl rfl rfl rfl fun c => Iff.rfl
  | read hreader | readEnd hreader | unreadable hreader | rejection hreader | noWriter hreader =>
    -- The reader holds no place before this step, nor behind it.
    refine h.of_eq rfl rfl rfl rfl rfl fun c => ?_
    rw [hreader]
    exact iff_of_false nofun nofun
  | reserve hreader hreserve =>
    rw [ResponseQueue.of_reserve_eq_reserved hreserve]
    exact h.reserve hreader
  | start hreader hpermit => exact h.hand_on hreader hpermit
  | work hworking => exact h.work hworking
  | giveBack hworking => exact { h with permit := fun _ => hworking }
  | release hslot => exact h.release hslot

end Slots

/-! ## What is left to do -/

/-- The steps that the reader still causes with the command that it has. -/
def Reader.toDo : Reader → Nat
  | reading => 1
  | reserving _ => 9
  | waiting _ => 8
  | stopped => 0

def Writer.toDo : Writer → Nat
  | idle => 1
  | writing _ => 2
  | ended => 0

/-- **How much is left to do.** A byte is sent and read, and a frame has enough of them for all that
is done with its command. -/
def Tasks.toDo (s : Tasks) : Nat :=
  2 * s.coming.size + s.pending.size + (if s.finished then 0 else 1) + s.reader.toDo +
    (if s.permit then 0 else 1) + 5 * s.working.toList.length + s.worked.length +
    2 * s.queue.queued.length + s.writer.toDo

@[simp] theorem Tasks.toDo_start (fs : FileSystem) (stream : ByteArray) :
    (start fs stream).toDo = 2 * stream.size + 3 := rfl

/-- The work on a command leaves less to do than the command itself. -/
theorem Tasks.toDo_work_lt (guard : PathGuard) {s : Tasks} {n : Nat} {c : Command}
    (hworking : s.working = some (n, c)) : (s.work guard n c).toDo < s.toDo := by
  obtain ⟨-, body, files, hanswer⟩ | ⟨cause, -, hanswer⟩ := answer_cases guard s.files c
  · have hqueued := s.queue.length_queued_send_le n
      ⟨⟨c.kind.operation, .response⟩, c.tag, body⟩
    rw [work_of_answer hanswer]
    simp only [toDo, hworking, Option.toList_some, Option.toList_none, List.length_cons,
      List.length_nil]
    omega
  · rw [work_of_rejection hanswer]
    simp only [toDo, hworking, Option.toList_some, Option.toList_none, List.length_cons,
      List.length_nil]
    omega

/-- **Every step does something of what is left to do.** -/
theorem Step.toDo_lt {guard : PathGuard} {s s' : Tasks} (hslots : Slots s)
    (hstep : Step guard s s') : s'.toDo < s.toDo := by
  cases hstep with
  | @arrive now later hcoming hnow =>
    have hsize : 0 < now.size := by
      rw [← Bytes.length_toList]
      exact List.length_pos_iff.mpr fun hnil => hnow (Bytes.eq_of_toList hnil)
    simp only [Tasks.toDo, hcoming, ByteArray.size_append]
    omega
  | finish hcoming hfinished =>
    simp only [Tasks.toDo, hfinished, Bool.false_eq_true, if_true, if_false]
    omega
  | @read c next hreader hread =>
    have hbounds := Frame.read_frame_bounds hread
    simp only [Frame.headerSize] at hbounds
    simp only [Tasks.toDo, hreader, Reader.toDo, ByteArray.size_extract]
    omega
  | readEnd hreader | unreadable hreader | rejection hreader | noWriter hreader =>
    simp only [Tasks.toDo, hreader, Reader.toDo]
    omega
  | reserve hreader hreserve =>
    rw [ResponseQueue.of_reserve_eq_reserved hreserve]
    simp only [Tasks.toDo, hreader, Reader.toDo]
    omega
  | start hreader hpermit =>
    simp only [Tasks.toDo, hreader, hpermit, hslots.permit hpermit, Reader.toDo,
      Option.toList_some, Option.toList_none, List.length_cons, List.length_nil,
      Bool.false_eq_true, if_true, if_false]
    omega
  | work hworking => exact Tasks.toDo_work_lt guard hworking
  | giveBack hworking hpermit =>
    simp only [Tasks.toDo, hpermit, Bool.false_eq_true, if_true, if_false]
    omega
  | @release slot hslot =>
    have hlen := List.length_erase_of_mem hslot
    have hpos := List.length_pos_of_mem hslot
    simp only [Tasks.toDo, ResponseQueue.release]
    omega
  | take hwriter hreceive =>
    have hqueued := congrArg List.length (ResponseQueue.of_receive_eq_response hreceive).1
    rw [List.length_cons] at hqueued
    simp only [Tasks.toDo, hwriter, Writer.toDo]
    omega
  | write hwriter =>
    simp only [Tasks.toDo, hwriter, Writer.toDo]
    omega
  | noFrame hwriter =>
    simp only [Tasks.toDo, hwriter, Writer.toDo, ResponseQueue.close, List.length_nil]
    omega
  | close hwriter =>
    simp only [Tasks.toDo, hwriter, Writer.toDo]
    omega

end RemoteLog.Worker
