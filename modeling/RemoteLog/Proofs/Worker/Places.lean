import RemoteLog.Proofs.Worker.Queue

/-! # Places in a response queue

A place of a queue is taken from its reservation on, until the response that went through its slot
is received or the slot is given up unsent. No place is freed in any other way or twice, so at any
time the places that are taken and those that are free make up the capacity.

* **`freed queue event`**, **`claimed event`** — how many places an event frees and takes;
  **`Acts.taken_add_freed`** — these are all changes there are.
* **`fate name events`** — what becomes of a slot in the events behind its reservation;
  **`fates events`** — what has become of all places that were reserved.
* **`count_unsent`**, **`count_filled`** — how many places have a fate.
* **`places_accounted`** — a queue is bounded and loses no place. -/

namespace RemoteLog.Worker.ResponseQueue

variable {ι : Type} [DecidableEq ι] {queue queue' : ResponseQueue ι} {step : Step ι}
  {answer : Answer}

/-! ## Places that are taken and freed -/

/-- **How many places an event frees:** that of an unsent slot that is given up, be it for a new
reservation under its name, and that of a response that is received. -/
def freed (queue : ResponseQueue ι) : Event ι → Nat
  | (.release name, _) => if queue.slot? name = some .unsent then 1 else 0
  | (.reserve name, .reservation .reserved) =>
    if queue.slot? name = some .unsent then 1 else 0
  | (.receive, .receipt (.response _)) => 1
  | _ => 0

/-- **How many places an event takes:** one for a reservation that succeeds. -/
def claimed : Event ι → Nat
  | (.reserve _, .reservation .reserved) => 1
  | _ => 0

/-- **An operation changes the places that are taken by those it takes and frees,** as long as the
queue is not closed. -/
theorem Acts.taken_add_freed (h : Acts queue step answer queue') (hqueue : Sound queue)
    (hopen : queue.closed = false) (hstep : step ≠ .close) :
    queue'.taken + queue.freed (step, answer) = queue.taken + claimed (step, answer) := by
  cases h with
  | close => exact absurd rfl hstep
  | full | closed | failed | noSlot | nothing | ended => rfl
  | @reserved name =>
    have hlength := length_unsentNames hqueue.names name
    rw [taken_eq, taken_eq]
    simp only [freed, claimed, unsentNames_cons_unsent, List.length_cons]
    omega
  | @sent name response hslot =>
    -- The response takes the place over from its slot.
    have hlength := length_unsentNames hqueue.names name
    rw [if_pos hslot] at hlength
    rw [taken_eq, taken_eq]
    simp only [freed, claimed, hopen, unsentNames_cons_sent, Bool.false_eq_true, if_false,
      List.length_append, List.length_singleton]
    omega
  | @release name =>
    have hlength := length_unsentNames hqueue.names name
    rw [taken_eq, taken_eq]
    simp only [freed, claimed]
    omega
  | received _ hqueued =>
    rw [taken_eq, taken_eq, hqueued]
    simp only [freed, claimed, List.length_cons]
    omega

/-- A failed operation changes nothing. -/
theorem Acts.eq_of_failed (h : Acts queue step answer queue')
    (hfailed : (∃ cause, answer = .failed cause) ∨
      ∃ result, result ≠ .reserved ∧ answer = .reservation result) : queue' = queue := by
  cases h with
  | full | closed | failed | noSlot | nothing | ended => rfl
  | reserved =>
    obtain ⟨cause, hanswer⟩ | ⟨result, hresult, hanswer⟩ := hfailed
    · cases hanswer
    · cases hanswer
      exact absurd rfl hresult
  | sent | release | received | close =>
    obtain ⟨cause, hanswer⟩ | ⟨result, hresult, hanswer⟩ := hfailed <;> cases hanswer

/-- A reservation finds a queue full exactly if all places are taken. -/
theorem reserve_full_iff (hqueue : Sound queue) (hopen : queue.closed = false) (name : ι) :
    (queue.step (.reserve name)).1 = .reservation .full ↔ queue.taken = queue.capacity := by
  have hle := hqueue.taken_le
  have hacts := acts_step queue (.reserve name)
  generalize (queue.step (.reserve name)).1 = answer, (queue.step (.reserve name)).2 = queue' at hacts
  cases hacts with
  | reserved _ hroom => exact iff_of_false nofun (Nat.ne_of_lt hroom)
  | full _ hfull => exact iff_of_true rfl (Nat.le_antisymm hle hfull)
  | closed hclosed => exact Bool.noConfusion (hopen.symm.trans hclosed)

/-! ## What becomes of a place -/

/-- **What has become of a place that was reserved.** -/
inductive Fate where
  /-- Nothing has gone through its slot. -/
  | unsent
  /-- A response has gone through its slot. -/
  | filled
  /-- Its slot was given up before anything went through it. -/
  | givenUp
  deriving DecidableEq

/-- What an event makes of the unsent slot of a name, if it concerns that. -/
def Event.fate? (name : ι) : Event ι → Option Fate
  | (.send other _, .sent) => if other = name then some .filled else none
  | (.release other, _) => if other = name then some .givenUp else none
  | (.reserve other, .reservation .reserved) => if other = name then some .givenUp else none
  | _ => none

/-- **What becomes of a place** that is held under a name, in the events behind its reservation. The
first of them that concerns its slot decides. -/
def fate (name : ι) (events : List (Event ι)) : Fate :=
  (events.findSome? (Event.fate? name)).getD .unsent

/-- **What has become of the places that were reserved,** in the order of the reservations. -/
def fates : List (Event ι) → List Fate
  | [] => []
  | (.reserve name, .reservation .reserved) :: rest => fate name rest :: fates rest
  | _ :: rest => fates rest

@[simp] theorem fate_nil (name : ι) : fate name [] = .unsent := rfl

theorem fate_cons (name : ι) (event : Event ι) (rest : List (Event ι)) :
    fate name (event :: rest) = (Event.fate? name event).getD (fate name rest) := by
  rw [fate, List.findSome?_cons]
  cases Event.fate? name event <;> rfl

/-- What becomes of the places that are held under names now, and of those that are reserved
later. -/
def allFates (names : List ι) (events : List (Event ι)) : List Fate :=
  names.map (fun name => fate name events) ++ fates events

/-- The place that is held under one name, if any, and those under the others. -/
theorem allFates_perm (hqueue : Sound queue) (name : ι) (events : List (Event ι)) :
    (allFates (unsentNames queue.slots) events).Perm
      ((if queue.slot? name = some .unsent then [fate name events] else []) ++
        allFates (unsentNames (queue.otherSlots name)) events) := by
  have hnames := (unsentNames_perm hqueue.names name).map fun name => fate name events
  rw [List.map_append] at hnames
  rw [allFates, allFates, ← List.append_assoc]
  refine (hnames.append_right _).trans (List.Perm.of_eq ?_)
  split <;> rfl

/-- The places that an event leaves alone. -/
theorem map_fate_cons {names : List ι} {event : Event ι}
    (h : ∀ name ∈ names, Event.fate? name event = none) (rest : List (Event ι)) :
    names.map (fun name => fate name (event :: rest)) = names.map fun name => fate name rest := by
  refine List.map_congr_left fun name hname => ?_
  rw [fate_cons, h name hname]
  rfl

/-- **What an event decides** about the place that is held under its name. -/
def settled (queue : ResponseQueue ι) : Event ι → List Fate
  | (.send _ _, .sent) => [.filled]
  | (.release name, _) => if queue.slot? name = some .unsent then [.givenUp] else []
  | (.reserve name, .reservation .reserved) =>
    if queue.slot? name = some .unsent then [.givenUp] else []
  | _ => []

/-- The places under other names than that of an event. -/
theorem map_fate_otherSlots (queue : ResponseQueue ι) {name : ι} (event : Event ι)
    (h : ∀ other, name ≠ other → Event.fate? other event = none) (rest : List (Event ι)) :
    (unsentNames (queue.otherSlots name)).map (fun other => fate other (event :: rest)) =
      (unsentNames (queue.otherSlots name)).map fun other => fate other rest :=
  map_fate_cons (fun other hother => h other
    (ne_of_mem_of_not_mem hother (notMem_unsentNames_otherSlots queue name)).symm) rest

/-- **An operation decides about the place under its name only.** The others, and one that is
reserved in it, are left for the rest. -/
theorem Acts.allFates_perm (h : Acts queue step answer queue') (hqueue : Sound queue)
    (rest : List (Event ι)) :
    (allFates (unsentNames queue.slots) ((step, answer) :: rest)).Perm
      (queue.settled (step, answer) ++ allFates (unsentNames queue'.slots) rest) := by
  cases h with
  | full | closed | failed | noSlot | received | nothing | ended | close =>
    refine List.Perm.of_eq ?_
    rw [allFates, map_fate_cons (fun _ _ => rfl)]
    rfl
  | @reserved name =>
    have hfate : fate name ((.reserve name, .reservation .reserved) :: rest) = .givenUp := by
      simp [fate_cons, Event.fate?]
    have hothers := map_fate_otherSlots queue
      (.reserve name, .reservation .reserved) (fun _ hother => if_neg hother) rest
    refine (ResponseQueue.allFates_perm hqueue name _).trans ?_
    rw [allFates, hothers, hfate]
    exact (List.perm_middle).append_left _
  | @sent name response hslot =>
    have hfate : fate name ((.send name response, .sent) :: rest) = .filled := by
      simp [fate_cons, Event.fate?]
    have hothers := map_fate_otherSlots queue (.send name response, .sent)
      (fun _ hother => if_neg hother) rest
    refine (ResponseQueue.allFates_perm hqueue name _).trans (List.Perm.of_eq ?_)
    rw [allFates, hothers, hfate, if_pos hslot]
    rfl
  | @release name =>
    have hfate : fate name ((.release name, .released (queue.slot? name).isSome) :: rest) =
        .givenUp := by
      simp [fate_cons, Event.fate?]
    have hothers := map_fate_otherSlots queue
      (.release name, .released (queue.slot? name).isSome)
      (fun _ hother => if_neg hother) rest
    refine (ResponseQueue.allFates_perm hqueue name _).trans (List.Perm.of_eq ?_)
    rw [allFates, hothers, hfate]
    rfl

/-- **The places of which nothing has become are those that are held at the end.** -/
theorem count_unsent (hqueue : Sound queue) (steps : List (Step ι)) :
    (allFates (unsentNames queue.slots) (queue.history steps)).count .unsent =
      (queue.run steps).2.pending := by
  induction steps generalizing queue with
  | nil =>
    rw [history_nil, allFates, fates, List.append_nil, List.count_eq_length.mpr (by simp),
      List.length_map, ← pending_eq_length]
    rfl
  | cons step rest ih =>
    have hacts := acts_step queue step
    have hsettled : (queue.settled (step, (queue.step step).1)).count .unsent = 0 := by
      unfold settled
      split <;> (try split) <;> rfl
    rw [history_cons, (hacts.allFates_perm hqueue _).count_eq, List.count_append, hsettled,
      ih (hacts.sound hqueue), run_cons_snd, Nat.zero_add]

/-- **A response has gone through a slot for every one that was sent.** -/
theorem count_filled (hqueue : Sound queue) (steps : List (Step ι)) :
    (allFates (unsentNames queue.slots) (queue.history steps)).count .filled =
      (written (queue.history steps)).length := by
  induction steps generalizing queue with
  | nil =>
    rw [history_nil, allFates, fates, List.append_nil]
    exact List.count_eq_zero.mpr (by simp)
  | cons step rest ih =>
    have hacts := acts_step queue step
    have hsettled : (queue.settled (step, (queue.step step).1)).count .filled =
        (Event.written? (step, (queue.step step).1)).toList.length := by
      generalize (queue.step step).1 = answer, (queue.step step).2 = queue' at hacts
      cases hacts <;> simp only [settled, Event.written?] <;> (try split) <;> rfl
    rw [history_cons, (hacts.allFates_perm hqueue _).count_eq, List.count_append, hsettled,
      ih (hacts.sound hqueue), written_cons, List.length_append]

/-! ## All places -/

/-- **A queue is bounded and loses no place.** As long as it is not closed, the responses that wait
and the slots that nothing went through are never more than its capacity, and a reservation finds it
full exactly if they are as many. Of the places that were reserved, those of which nothing has
become are the slots that are left, and those through which a response went are as many as the
responses that were received or wait; the others were given up. An operation changes the places
that are taken by those it takes and frees, and a failed one changes nothing. -/
theorem places_accounted {capacity : Nat} {steps : List (Step ι)} {answers : List Answer}
    {queue : ResponseQueue ι} (hrun : (empty capacity).run steps = (answers, queue))
    (hopen : Step.close ∉ steps) :
    queue.queued.length + queue.pending ≤ capacity ∧
      (∀ name, (queue.step (.reserve name)).1 = .reservation .full ↔
        queue.queued.length + queue.pending = capacity) ∧
      (fates (steps.zip answers)).count .unsent = queue.pending ∧
      (fates (steps.zip answers)).count .filled =
        (received (steps.zip answers)).length + queue.queued.length ∧
      ∀ step answer queue', step ≠ .close → queue.step step = (answer, queue') →
        queue'.taken + queue.freed (step, answer) = queue.taken + claimed (step, answer) ∧
          (((∃ cause, answer = .failed cause) ∨
            ∃ result, result ≠ .reserved ∧ answer = .reservation result) → queue' = queue) := by
  obtain ⟨rfl, rfl⟩ : _ = answers ∧ _ = queue := Prod.ext_iff.mp hrun
  have hempty : Sound (empty capacity : ResponseQueue ι) := sound_empty capacity
  have hsound := sound_run hempty steps
  have hclosed : ((empty capacity).run steps).2.closed = false := closed_run rfl hopen
  have hcapacity : ((empty capacity).run steps).2.capacity = capacity := capacity_run _ steps
  refine ⟨le_of_le_of_eq hsound.taken_le hcapacity, fun name => ?_, count_unsent hempty steps, ?_, ?_⟩
  · rw [reserve_full_iff hsound hclosed name, hcapacity]
    rfl
  · -- What was sent was received or waits.
    have hdelivered : received ((empty capacity).history steps) ++
        ((empty capacity).run steps).2.queued = written ((empty capacity).history steps) :=
      received_append_queued rfl hopen
    rw [← List.length_append]
    exact (count_filled hempty steps).trans (congrArg List.length hdelivered.symm)
  · intro step answer queue' hstep hresult
    have hacts := acts_of_step hresult
    exact ⟨hacts.taken_add_freed hsound hclosed hstep, hacts.eq_of_failed⟩

/-- A place is given up for another one under its name, and a response goes through that. Neither
the second one that is sent nor the slot that is given up afterwards frees a place, so the queue is
full again with the next reservation. -/
theorem places_accounted_replaced :
    let response : Command := ⟨⟨.getLogBytes, .response⟩, 7, ByteArray.empty⟩
    let steps : List (Step Nat) := [.reserve 0, .reserve 0, .send 0 response, .send 0 response,
      .release 0, .reserve 1]
    let answers : List Answer := [.reservation .reserved, .reservation .reserved, .sent,
      .failed (.channelClosed 7), .released true, .reservation .reserved]
    let queue : ResponseQueue Nat := ⟨2, [response], [(1, .unsent)], false⟩
    (empty 2).run steps = (answers, queue) ∧ Step.close ∉ steps ∧
      fates (steps.zip answers) = [.givenUp, .filled, .unsent] ∧
      (received (steps.zip answers)).length = 0 ∧
      ∀ name, (queue.step (.reserve name)).1 = .reservation .full := by
  intro response steps answers queue
  have hrun : (empty 2).run steps = (answers, queue) := rfl
  have hopen : Step.close ∉ steps := by simp [steps]
  obtain ⟨-, hfull, -, hfilled, -⟩ := places_accounted hrun hopen
  have hfates : fates (steps.zip answers) = [.givenUp, .filled, .unsent] := by decide
  rw [hfates] at hfilled
  exact ⟨hrun, hopen, hfates, (Nat.succ.inj hfilled).symm, fun name => (hfull name).mpr rfl⟩

end RemoteLog.Worker.ResponseQueue
