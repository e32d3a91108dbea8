import RemoteLog.Worker.AnswerError

/-! # Response queues

A connection's responses wait in a queue of bounded capacity. A place is reserved before a command
is worked on, so a peer that does not read its responses stops the reading of its commands. A slot
is a reserved place; exactly one response goes through it.

* **`Slot`**, **`Slot.write`** — a place for one response.
* **`ResponseQueue`** — the waiting responses and the live slots, by name.
* **`ResponseQueue.reserve`**, **`send`**, **`release`**, **`receive`**, **`close`** — the operations.
* **`Step`**, **`Answer`**, **`ResponseQueue.run`** — sequences of operations and what they answer. -/

namespace RemoteLog.Worker

/-- **A place for one response.** -/
inductive Slot where
  | unsent
  | sent
  deriving DecidableEq

/-- Writes a response through a slot, which is used up by that. -/
def Slot.write (slot : Slot) (response : Command) : Except AnswerError Slot :=
  match slot with
  | .unsent => .ok .sent
  | .sent => .error (.channelClosed response.tag)

/-- **A queue of responses** whose slots have names of type `ι`. -/
structure ResponseQueue (ι : Type) where
  /-- How many places there are. -/
  capacity : Nat
  /-- The responses that wait to be received, in order. -/
  queued : List Command
  /-- The live slots. -/
  slots : List (ι × Slot)
  /-- Whether the receiver is gone. -/
  closed : Bool

namespace ResponseQueue

variable {ι : Type} [DecidableEq ι]

/-- A queue without responses and slots. -/
def empty (capacity : Nat) : ResponseQueue ι := ⟨capacity, [], [], false⟩

/-- The slot with this name. -/
def slot? (queue : ResponseQueue ι) (name : ι) : Option Slot :=
  (queue.slots.find? fun s => s.1 = name).map (·.2)

/-- The slots but the one with this name. -/
def otherSlots (queue : ResponseQueue ι) (name : ι) : List (ι × Slot) :=
  queue.slots.filter fun s => s.1 ≠ name

/-- The number of live slots that nothing went through yet. -/
def pending (queue : ResponseQueue ι) : Nat := queue.slots.countP fun s => s.2 = .unsent

/-- **The number of places that are taken:** from the reservation on until the response is received
or the slot is given up unsent. -/
def taken (queue : ResponseQueue ι) : Nat := queue.queued.length + queue.pending

/-! ## Operations -/

/-- What a reservation can come to. -/
inductive Reservation where
  | reserved
  | full
  | closed
  deriving DecidableEq

/-- **Reserves a place** under a name. An older slot of that name is given up, but only after the new
place has been found. -/
def reserve (queue : ResponseQueue ι) (name : ι) : Reservation × ResponseQueue ι :=
  if queue.closed then (.closed, queue)
  else if queue.capacity ≤ queue.taken then (.full, queue)
  else (.reserved, { queue with slots := (name, .unsent) :: queue.otherSlots name })

/-- **Sends a response through a slot;** `none` if no slot has the name. What is sent after the
receiver has gone is lost. -/
def send (queue : ResponseQueue ι) (name : ι) (response : Command) :
    Option (Except AnswerError Unit) × ResponseQueue ι :=
  match queue.slot? name with
  | none => (none, queue)
  | some slot =>
    match slot.write response with
    | .error cause => (some (.error cause), queue)
    | .ok slot =>
      (some (.ok ()), { queue with
        slots := (name, slot) :: queue.otherSlots name
        queued := if queue.closed then queue.queued else queue.queued ++ [response] })

/-- **Gives a slot up;** whether there was one. -/
def release (queue : ResponseQueue ι) (name : ι) : Bool × ResponseQueue ι :=
  ((queue.slot? name).isSome, { queue with slots := queue.otherSlots name })

/-- What receiving can come to. -/
inductive Receipt where
  | response (response : Command)
  | empty
  | closed

/-- **Receives the response that has waited longest.** -/
def receive (queue : ResponseQueue ι) : Receipt × ResponseQueue ι :=
  if queue.closed then (.closed, queue)
  else
    match queue.queued with
    | [] => (.empty, queue)
    | response :: rest => (.response response, { queue with queued := rest })

/-- **The queue without its receiver.** The responses that wait are lost. -/
def close (queue : ResponseQueue ι) : ResponseQueue ι := { queue with queued := [], closed := true }

/-! ## Sequences of operations -/

/-- An operation. -/
inductive Step (ι : Type) where
  | reserve (name : ι)
  | send (name : ι) (response : Command)
  | release (name : ι)
  | receive
  | close

/-- What an operation answers. -/
inductive Answer where
  | reservation (result : Reservation)
  | noSlot
  | sent
  | failed (cause : AnswerError)
  | released (existed : Bool)
  | receipt (result : Receipt)
  | done

/-- **One operation.** -/
def step (queue : ResponseQueue ι) : Step ι → Answer × ResponseQueue ι
  | .reserve name =>
    let (result, queue) := queue.reserve name
    (.reservation result, queue)
  | .send name response =>
    match queue.send name response with
    | (none, queue) => (.noSlot, queue)
    | (some (.ok ()), queue) => (.sent, queue)
    | (some (.error cause), queue) => (.failed cause, queue)
  | .release name =>
    let (existed, queue) := queue.release name
    (.released existed, queue)
  | .receive =>
    let (result, queue) := queue.receive
    (.receipt result, queue)
  | .close => (.done, queue.close)

/-- **A sequence of operations,** with what each answers. -/
def run (queue : ResponseQueue ι) : List (Step ι) → List Answer × ResponseQueue ι
  | [] => ([], queue)
  | first :: rest =>
    let (answer, queue) := queue.step first
    let (answers, queue) := queue.run rest
    (answer :: answers, queue)

end ResponseQueue

end RemoteLog.Worker
