import RemoteLog.Proofs.Association
import RemoteLog.Worker.ResponseQueue

/-! # Operations of a response queue

What an operation of a queue does is decided by whether the queue is closed, whether a place is
left, and the slot of the name. Everything else about queues is read off these cases.

* **`Acts queue step answer queue'`** — the cases; **`acts_step`** — every operation is one of them.
* **`unsentNames slots`** — the names under which places are held; **`unsentNames_perm`** — these
  are the given name, if a place is held under it, and the others.
* **`Sound queue`** — slots have different names, and no more places are taken than there are;
  **`sound_run`** — so it is after any operations.
* **`history queue steps`** — operations with their answers; **`received`**, **`written`** — the
  responses that have been received and sent in it. -/

namespace RemoteLog.Worker

namespace ResponseQueue

/-! ## Single operations -/

section

variable {ι : Type} {queue queue' : ResponseQueue ι}

/-- No place is reserved exactly if every slot has been used. -/
theorem pending_eq_zero_iff : queue.pending = 0 ↔ ∀ s ∈ queue.slots, s.2 ≠ .unsent := by
  simp [pending, List.countP_eq_zero]

theorem of_receive_eq_response {response : Command}
    (h : queue.receive = (.response response, queue')) :
    queue.queued = response :: queue'.queued ∧ queue' = { queue with queued := queue'.queued } := by
  unfold receive at h
  split at h
  · cases h
  · split at h
    · cases h
    · next hqueued =>
      cases h
      exact ⟨hqueued, rfl⟩

theorem receive_of_cons {response : Command} {rest : List Command} (hopen : queue.closed = false)
    (h : queue.queued = response :: rest) :
    queue.receive = (.response response, { queue with queued := rest }) := by
  rw [receive, if_neg (Bool.eq_false_iff.mp hopen), h]

/-- **The names under which places are held:** those of the slots that nothing went through. -/
def unsentNames (slots : List (ι × Slot)) : List ι :=
  (slots.filter fun slot => slot.2 = .unsent).map (·.1)

@[simp] theorem unsentNames_cons_unsent (name : ι) (slots : List (ι × Slot)) :
    unsentNames ((name, .unsent) :: slots) = name :: unsentNames slots := rfl

@[simp] theorem unsentNames_cons_sent (name : ι) (slots : List (ι × Slot)) :
    unsentNames ((name, .sent) :: slots) = unsentNames slots := rfl

theorem pending_eq_length (queue : ResponseQueue ι) :
    queue.pending = (unsentNames queue.slots).length := by
  rw [pending, unsentNames, List.length_map, List.countP_eq_length_filter]

end

variable {ι : Type} [DecidableEq ι] {queue queue' : ResponseQueue ι} {name : ι} {slot : Slot}

theorem slot?_of_set (h : queue'.slots = (name, slot) :: queue.otherSlots name) (other : ι) :
    queue'.slot? other = if other = name then some slot else queue.slot? other := by
  unfold slot?
  rw [h, otherSlots]
  by_cases heq : other = name
  · simp [heq]
  · have hne : ¬ (name, slot).1 = other := fun hname => heq hname.symm
    rw [if_neg heq, List.find?_cons_of_neg (by simpa using hne),
      Association.find?_filter_other _ heq]

theorem slot?_of_erase (h : queue'.slots = queue.otherSlots name) {other : ι}
    (hne : other ≠ name) : queue'.slot? other = queue.slot? other := by
  unfold slot?
  rw [h, otherSlots, Association.find?_filter_other _ hne]

theorem pending_ne_zero (h : queue.slot? name = some .unsent) : queue.pending ≠ 0 := by
  obtain ⟨s, hfind, hslot⟩ := Option.map_eq_some_iff.mp h
  exact fun hzero => pending_eq_zero_iff.mp hzero s (List.mem_of_find?_eq_some hfind) hslot

/-- A place is reserved if there is one. -/
theorem reserve_eq_reserved (hopen : queue.closed = false) (hroom : queue.taken < queue.capacity)
    (name : ι) : queue.reserve name =
      (.reserved, { queue with slots := (name, .unsent) :: queue.otherSlots name }) := by
  rw [reserve, if_neg (Bool.eq_false_iff.mp hopen), if_neg (Nat.not_le_of_lt hroom)]

theorem of_reserve_eq_reserved (h : queue.reserve name = (.reserved, queue')) :
    queue' = { queue with slots := (name, .unsent) :: queue.otherSlots name } := by
  unfold reserve at h
  split at h
  · cases h
  · split at h
    · cases h
    · cases h
      rfl

theorem closed_of_reserve (h : queue.reserve name = (.closed, queue')) : queue.closed = true := by
  unfold reserve at h
  split at h
  · assumption
  · split at h <;> cases h

/-- A response goes through a slot that has not been used. -/
theorem send_of_unsent (h : queue.slot? name = some .unsent) (response : Command) :
    queue.send name response =
      (some (.ok ()), { queue with
        slots := (name, .sent) :: queue.otherSlots name
        queued := if queue.closed then queue.queued else queue.queued ++ [response] }) := by
  rw [send, h]
  rfl

/-- At most one response is added. -/
theorem length_queued_send_le (queue : ResponseQueue ι) (name : ι) (response : Command) :
    (queue.send name response).2.queued.length ≤ queue.queued.length + 1 := by
  unfold send
  split
  · exact Nat.le_succ _
  · split
    · exact Nat.le_succ _
    · cases queue.closed with
      | true => exact Nat.le_succ _
      | false => simp

/-! ## What an operation does -/

/-- **What an operation does.** Operations that fail leave the queue as it is. -/
inductive Acts (queue : ResponseQueue ι) : Step ι → Answer → ResponseQueue ι → Prop where
  /-- A place is left, and it is held under the name from now on. -/
  | reserved {name : ι} (hopen : queue.closed = false) (hroom : queue.taken < queue.capacity) :
      Acts queue (.reserve name) (.reservation .reserved)
        { queue with slots := (name, .unsent) :: queue.otherSlots name }
  | full {name : ι} (hopen : queue.closed = false) (hfull : queue.capacity ≤ queue.taken) :
      Acts queue (.reserve name) (.reservation .full) queue
  | closed {name : ι} (hclosed : queue.closed = true) :
      Acts queue (.reserve name) (.reservation .closed) queue
  /-- The response goes through the slot, and is lost if the queue is closed. -/
  | sent {name : ι} {response : Command} (hslot : queue.slot? name = some .unsent) :
      Acts queue (.send name response) .sent
        { queue with
          slots := (name, .sent) :: queue.otherSlots name
          queued := if queue.closed then queue.queued else queue.queued ++ [response] }
  | failed {name : ι} {response : Command} (hslot : queue.slot? name = some .sent) :
      Acts queue (.send name response) (.failed (.channelClosed response.tag)) queue
  | noSlot {name : ι} {response : Command} (hslot : queue.slot? name = none) :
      Acts queue (.send name response) .noSlot queue
  | release {name : ι} :
      Acts queue (.release name) (.released (queue.slot? name).isSome)
        { queue with slots := queue.otherSlots name }
  | received {response : Command} {rest : List Command} (hopen : queue.closed = false)
      (hqueued : queue.queued = response :: rest) :
      Acts queue .receive (.receipt (.response response)) { queue with queued := rest }
  | nothing (hopen : queue.closed = false) (hqueued : queue.queued = []) :
      Acts queue .receive (.receipt .empty) queue
  | ended (hclosed : queue.closed = true) : Acts queue .receive (.receipt .closed) queue
  | close : Acts queue .close .done queue.close

/-- **Every operation does one of these.** -/
theorem acts_step (queue : ResponseQueue ι) (step : Step ι) :
    Acts queue step (queue.step step).1 (queue.step step).2 := by
  cases step with
  | reserve name =>
    by_cases hclosed : queue.closed = true
    · have hreserve : queue.reserve name = (.closed, queue) := if_pos hclosed
      simp only [ResponseQueue.step, hreserve]
      exact .closed hclosed
    · have hopen := Bool.eq_false_iff.mpr hclosed
      by_cases hroom : queue.taken < queue.capacity
      · simp only [ResponseQueue.step, reserve_eq_reserved hopen hroom]
        exact .reserved hopen hroom
      · have hfull := Nat.le_of_not_lt hroom
        have hreserve : queue.reserve name = (.full, queue) :=
          (if_neg hclosed).trans (if_pos hfull)
        simp only [ResponseQueue.step, hreserve]
        exact .full hopen hfull
  | send name response =>
    match hslot : queue.slot? name with
    | none =>
      have hsend : queue.send name response = (none, queue) := by rw [send, hslot]
      simp only [ResponseQueue.step, hsend]
      exact .noSlot hslot
    | some .unsent =>
      simp only [ResponseQueue.step, send_of_unsent hslot]
      exact .sent hslot
    | some .sent =>
      have hsend : queue.send name response =
          (some (.error (.channelClosed response.tag)), queue) := by
        rw [send, hslot]
        rfl
      simp only [ResponseQueue.step, hsend]
      exact .failed hslot
  | release name => exact .release
  | receive =>
    by_cases hclosed : queue.closed = true
    · have hreceive : queue.receive = (.closed, queue) := if_pos hclosed
      simp only [ResponseQueue.step, hreceive]
      exact .ended hclosed
    · have hopen := Bool.eq_false_iff.mpr hclosed
      match hqueued : queue.queued with
      | [] =>
        have hreceive : queue.receive = (.empty, queue) := by
          rw [receive, if_neg hclosed, hqueued]
        simp only [ResponseQueue.step, hreceive]
        exact .nothing hopen hqueued
      | response :: rest =>
        simp only [ResponseQueue.step, receive_of_cons hopen hqueued]
        exact .received hopen hqueued
  | close => exact .close

theorem acts_of_step {step : Step ι} {answer : Answer} (h : queue.step step = (answer, queue')) :
    Acts queue step answer queue' := by
  have hacts := acts_step queue step
  rwa [h] at hacts

/-! ## Places -/

theorem notMem_unsentNames_otherSlots (queue : ResponseQueue ι) (name : ι) :
    name ∉ unsentNames (queue.otherSlots name) := by
  simp [unsentNames, otherSlots]

/-- **A place is held under a name or under the others.** -/
theorem unsentNames_perm (hnames : (queue.slots.map (·.1)).Nodup) (name : ι) :
    (unsentNames queue.slots).Perm
      ((if queue.slot? name = some .unsent then [name] else []) ++
        unsentNames (queue.otherSlots name)) := by
  have hsplit := Association.perm_find?_filter hnames name
  have hunsent := (hsplit.filter fun slot => slot.2 = .unsent).map (·.1)
  rw [List.filter_append, List.map_append] at hunsent
  refine hunsent.trans (List.Perm.append_right _ (List.Perm.of_eq ?_))
  rw [slot?]
  match hfind : queue.slots.find? fun slot => slot.1 = name with
  | none =>
    rw [hfind]
    rfl
  | some (other, slot) =>
    obtain rfl : other = name := by simpa using List.find?_some hfind
    rw [hfind]
    cases slot <;> rfl

/-- **A sound queue:** its slots have different names, and no more places are taken than there
are. -/
structure Sound (queue : ResponseQueue ι) : Prop where
  names : (queue.slots.map (·.1)).Nodup
  taken_le : queue.taken ≤ queue.capacity

omit [DecidableEq ι] in
theorem sound_empty (capacity : Nat) : Sound (empty capacity : ResponseQueue ι) :=
  ⟨.nil, Nat.zero_le _⟩

omit [DecidableEq ι] in
theorem taken_eq (queue : ResponseQueue ι) :
    queue.taken = queue.queued.length + (unsentNames queue.slots).length := by
  rw [taken, pending_eq_length]

/-- The places that are held, one by one. -/
theorem length_unsentNames (hnames : (queue.slots.map (·.1)).Nodup) (name : ι) :
    (unsentNames queue.slots).length =
      (if queue.slot? name = some .unsent then 1 else 0) +
        (unsentNames (queue.otherSlots name)).length := by
  rw [(unsentNames_perm hnames name).length_eq, List.length_append]
  split <;> rfl

/-- A slot that is set in the place of an older one leaves the names different. -/
theorem names_set (hnames : (queue.slots.map (·.1)).Nodup) (name : ι) (slot : Slot) :
    (((name, slot) :: queue.otherSlots name).map (·.1)).Nodup := by
  rw [List.map_cons, List.nodup_cons]
  exact ⟨by simp [otherSlots], hnames.sublist (List.filter_sublist.map _)⟩

namespace Acts

variable {step : Step ι} {answer : Answer}

/-- **Every operation leaves a sound queue.** -/
theorem sound (h : Acts queue step answer queue') (hqueue : Sound queue) : Sound queue' := by
  have hle := hqueue.taken_le
  rw [taken_eq] at hle
  cases h with
  | full | closed | failed | noSlot | nothing | ended => exact hqueue
  | @reserved name hopen hroom =>
    refine ⟨names_set hqueue.names name _, ?_⟩
    have hlength := length_unsentNames hqueue.names name
    rw [taken_eq] at hroom ⊢
    simp only [unsentNames_cons_unsent, List.length_cons]
    omega
  | @sent name response hslot =>
    refine ⟨names_set hqueue.names name _, ?_⟩
    have hlength := length_unsentNames hqueue.names name
    rw [if_pos hslot] at hlength
    rw [taken_eq]
    -- The place is taken by the response now, unless that is lost.
    cases queue.closed with
    | true =>
      simp only [unsentNames_cons_sent, if_true]
      omega
    | false =>
      simp only [unsentNames_cons_sent, Bool.false_eq_true, if_false, List.length_append,
        List.length_singleton]
      omega
  | @release name =>
    refine ⟨hqueue.names.sublist (List.filter_sublist.map _), ?_⟩
    have hlength := length_unsentNames hqueue.names name
    rw [taken_eq]
    dsimp only
    omega
  | received hopen hqueued =>
    refine ⟨hqueue.names, ?_⟩
    rw [hqueued, List.length_cons] at hle
    rw [taken_eq]
    dsimp only
    omega
  | close =>
    refine ⟨hqueue.names, ?_⟩
    rw [taken_eq]
    exact Nat.le_trans (Nat.add_le_add_right (Nat.zero_le _) _) hle

/-- The capacity never changes. -/
theorem capacity_eq (h : Acts queue step answer queue') : queue'.capacity = queue.capacity := by
  cases h <;> rfl

/-- Only closing closes a queue. -/
theorem closed_eq (h : Acts queue step answer queue') (hstep : step ≠ .close) :
    queue'.closed = queue.closed := by
  cases h with
  | close => exact absurd rfl hstep
  | reserved | full | closed | sent | failed | noSlot | release | received | nothing | ended => rfl

end Acts

/-- **Sound queues stay sound.** -/
theorem sound_run (h : Sound queue) (steps : List (Step ι)) : Sound (queue.run steps).2 := by
  induction steps generalizing queue with
  | nil => exact h
  | cons step rest ih => exact ih ((acts_step queue step).sound h)

theorem capacity_run (queue : ResponseQueue ι) (steps : List (Step ι)) :
    (queue.run steps).2.capacity = queue.capacity := by
  induction steps generalizing queue with
  | nil => rfl
  | cons step rest ih => exact (ih _).trans (acts_step queue step).capacity_eq

/-- A queue is open until it is closed. -/
theorem closed_run (hopen : queue.closed = false) {steps : List (Step ι)}
    (h : Step.close ∉ steps) : (queue.run steps).2.closed = false := by
  induction steps generalizing queue with
  | nil => exact hopen
  | cons step rest ih =>
    rw [List.mem_cons, not_or] at h
    exact ih (((acts_step queue step).closed_eq (Ne.symm h.1)).trans hopen) h.2

/-! ## Histories -/

/-- **An operation with its answer.** -/
abbrev Event (ι : Type) := Step ι × Answer

/-- **Operations with their answers.** -/
def history (queue : ResponseQueue ι) (steps : List (Step ι)) : List (Event ι) :=
  steps.zip (queue.run steps).1

@[simp] theorem history_nil (queue : ResponseQueue ι) : queue.history [] = [] := rfl

@[simp] theorem history_cons (queue : ResponseQueue ι) (step : Step ι) (rest : List (Step ι)) :
    queue.history (step :: rest) =
      (step, (queue.step step).1) :: (queue.step step).2.history rest := rfl

theorem run_cons_snd (queue : ResponseQueue ι) (step : Step ι) (rest : List (Step ι)) :
    (queue.run (step :: rest)).2 = ((queue.step step).2.run rest).2 := rfl

/-- The response that is received in an event. -/
def Event.received? : Event ι → Option Command
  | (.receive, .receipt (.response response)) => some response
  | _ => none

/-- The response that is sent in an event. -/
def Event.written? : Event ι → Option Command
  | (.send _ response, .sent) => some response
  | _ => none

/-- **The responses that have been received,** in order. -/
def received (events : List (Event ι)) : List Command := events.filterMap Event.received?

/-- **The responses that have been sent,** in order. -/
def written (events : List (Event ι)) : List Command := events.filterMap Event.written?

omit [DecidableEq ι] in
theorem received_cons (event : Event ι) (rest : List (Event ι)) :
    received (event :: rest) = event.received?.toList ++ received rest := by
  rw [received, List.filterMap_cons]
  cases Event.received? event <;> rfl

omit [DecidableEq ι] in
theorem written_cons (event : Event ι) (rest : List (Event ι)) :
    written (event :: rest) = event.written?.toList ++ written rest := by
  rw [written, List.filterMap_cons]
  cases Event.written? event <;> rfl

/-- **A response is sent behind those that wait, and received from in front of them.** -/
theorem Acts.received_append_queued {step : Step ι} {answer : Answer}
    (h : Acts queue step answer queue') (hopen : queue.closed = false) (hstep : step ≠ .close) :
    (Event.received? (step, answer)).toList ++ queue'.queued =
      queue.queued ++ (Event.written? (step, answer)).toList := by
  cases h with
  | close => exact absurd rfl hstep
  | sent => simp [hopen, Event.received?, Event.written?]
  | received _ hqueued => simp [hqueued, Event.received?, Event.written?]
  | reserved | full | closed | failed | noSlot | release | nothing | ended =>
    simp [Event.received?, Event.written?]

/-- **What has been received and what waits are what waited and what has been sent,** in order. -/
theorem received_append_queued (hopen : queue.closed = false) {steps : List (Step ι)}
    (h : Step.close ∉ steps) :
    received (queue.history steps) ++ (queue.run steps).2.queued =
      queue.queued ++ written (queue.history steps) := by
  induction steps generalizing queue with
  | nil => exact (List.append_nil _).symm
  | cons step rest ih =>
    rw [List.mem_cons, not_or] at h
    have hacts := acts_step queue step
    have hrest := ih ((hacts.closed_eq (Ne.symm h.1)).trans hopen) h.2
    rw [history_cons, run_cons_snd, received_cons, written_cons, List.append_assoc, hrest,
      ← List.append_assoc, hacts.received_append_queued hopen (Ne.symm h.1), List.append_assoc]

end ResponseQueue

end RemoteLog.Worker
