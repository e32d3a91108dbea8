import RemoteLog.Proofs.Worker.Places

/-! # Delivery by a response queue

The responses of a queue are received in the order in which they were sent, each of them once,
whatever the order of the reservations was. The receiver may be gone at some time; what waits then
or is sent afterwards is lost, and nothing else is.

* **`prefix_received`** — what was received is the beginning of what was sent.
* **`attempts name events`** — what was sent through a slot until it was given up, with the answers;
  **`attempts_of_unsent`**, **`attempts_of_sent`** — the first response goes through, all others
  fail.
* **`responses_delivered`** — responses are delivered once, in order. -/

namespace RemoteLog.Worker.ResponseQueue

variable {ι : Type} [DecidableEq ι] {queue queue' : ResponseQueue ι} {step : Step ι}
  {answer : Answer} {name : ι}

/-! ## The order of delivery -/

/-- A closed queue stays closed, and nothing is received from it. -/
theorem Acts.of_closed (h : Acts queue step answer queue') (hclosed : queue.closed = true) :
    queue'.closed = true ∧ Event.received? (step, answer) = none := by
  cases h with
  | reserved hopen | full hopen | received hopen | nothing hopen =>
    exact Bool.noConfusion (hopen.symm.trans hclosed)
  | closed | sent | failed | noSlot | release | ended => exact ⟨hclosed, rfl⟩
  | close => exact ⟨rfl, rfl⟩

theorem received_of_closed (hclosed : queue.closed = true) (steps : List (Step ι)) :
    received (queue.history steps) = [] := by
  induction steps generalizing queue with
  | nil => rfl
  | cons step rest ih =>
    obtain ⟨hclosed', hnone⟩ := (acts_step queue step).of_closed hclosed
    rw [history_cons, received_cons, hnone, ih hclosed']
    rfl

/-- **What is received is what waited and what is sent,** from the beginning, also when the queue is
closed meanwhile. -/
theorem prefix_received (hopen : queue.closed = false) (steps : List (Step ι)) :
    received (queue.history steps) <+: queue.queued ++ written (queue.history steps) := by
  induction steps generalizing queue with
  | nil => exact List.nil_prefix
  | cons step rest ih =>
    have hacts := acts_step queue step
    rw [history_cons, received_cons, written_cons, ← List.append_assoc]
    by_cases hstep : step = .close
    · -- Nothing is received from here on.
      subst hstep
      rw [show (queue.step .close).2 = queue.close from rfl, received_of_closed rfl]
      exact List.nil_prefix
    · rw [← hacts.received_append_queued hopen hstep, List.append_assoc]
      exact (List.prefix_append_right_inj _).mpr (ih ((hacts.closed_eq hstep).trans hopen))

/-! ## What is sent through a slot -/

/-- A response that an event sends through the slot of a name, with the answer. -/
def Event.attempt? (name : ι) : Event ι → Option (Command × Answer)
  | (.send other response, answer) => if other = name then some (response, answer) else none
  | _ => none

/-- **What is sent through the slot of a name** until that is given up, with the answers. -/
def attempts (name : ι) (events : List (Event ι)) : List (Command × Answer) :=
  (events.takeWhile fun event => Event.fate? name event ≠ some .givenUp).filterMap
    (Event.attempt? name)

theorem attempts_cons {event : Event ι} (h : Event.fate? name event ≠ some .givenUp)
    (rest : List (Event ι)) :
    attempts name (event :: rest) = (Event.attempt? name event).toList ++ attempts name rest := by
  rw [attempts, List.takeWhile_cons_of_pos (by simpa using h), List.filterMap_cons]
  cases Event.attempt? name event <;> rfl

theorem attempts_cons_of_givenUp {event : Event ι} (h : Event.fate? name event = some .givenUp)
    (rest : List (Event ι)) : attempts name (event :: rest) = [] := by
  rw [attempts, List.takeWhile_cons_of_neg (by simpa using h)]
  rfl

/-- **A slot that is not given up** has been used if a response went through it, and is as it was
otherwise. -/
theorem Acts.slot?_eq (h : Acts queue step answer queue')
    (hkept : Event.fate? name (step, answer) ≠ some .givenUp) :
    queue'.slot? name =
      if Event.fate? name (step, answer) = some .filled then some .sent else queue.slot? name := by
  cases h with
  | full | closed | failed | noSlot | received | nothing | ended | close => rfl
  | @reserved other =>
    have hne : other ≠ name := fun heq => hkept (if_pos heq)
    rw [slot?_of_set rfl, if_neg hne.symm]
    simp [Event.fate?, hne]
  | @release other =>
    have hne : other ≠ name := fun heq => hkept (if_pos heq)
    rw [slot?_of_erase rfl hne.symm]
    simp [Event.fate?, hne]
  | @sent other response =>
    rw [slot?_of_set rfl]
    by_cases heq : other = name
    · simp [Event.fate?, heq]
    · simp [Event.fate?, heq, Ne.symm heq]

/-- **Only the first response goes through a slot.** What is sent through an unsent slot fills it,
and what is sent through a used one fails. -/
theorem Acts.attempt (h : Acts queue step answer queue') {attempt : Command × Answer}
    (hattempt : Event.attempt? name (step, answer) = some attempt) :
    (queue.slot? name = some .unsent →
      attempt.2 = .sent ∧ Event.fate? name (step, answer) = some .filled) ∧
    (queue.slot? name = some .sent →
      attempt.2 = .failed (.channelClosed attempt.1.tag)) := by
  cases h with
  | reserved | full | closed | release | received | nothing | ended | close => cases hattempt
  | @sent other response hslot =>
    obtain ⟨rfl, rfl⟩ : other = name ∧ (response, Answer.sent) = attempt := by
      simpa [Event.attempt?] using hattempt
    rw [hslot]
    exact ⟨fun _ => ⟨rfl, if_pos rfl⟩, nofun⟩
  | @failed other response hslot =>
    obtain ⟨rfl, rfl⟩ : other = name ∧
        (response, Answer.failed (.channelClosed response.tag)) = attempt := by
      simpa [Event.attempt?] using hattempt
    rw [hslot]
    exact ⟨nofun, fun _ => rfl⟩
  | @noSlot other response hslot =>
    obtain ⟨rfl, rfl⟩ : other = name ∧ (response, Answer.noSlot) = attempt := by
      simpa [Event.attempt?] using hattempt
    rw [hslot]
    exact ⟨nofun, nofun⟩

/-- Nothing fills a slot but what is sent through it. -/
theorem attempt?_of_filled {event : Event ι}
    (h : Event.fate? name event = some .filled) : Event.attempt? name event ≠ none := by
  unfold Event.fate? at h
  split at h <;> simp_all [Event.attempt?]

/-- **Everything that is sent through a used slot fails.** -/
theorem attempts_of_sent (hslot : queue.slot? name = some .sent) (steps : List (Step ι)) :
    ∀ attempt ∈ attempts name (queue.history steps),
      attempt.2 = .failed (.channelClosed attempt.1.tag) := by
  induction steps generalizing queue with
  | nil => simp [attempts]
  | cons step rest ih =>
    have hacts := acts_step queue step
    rw [history_cons]
    by_cases hkept : Event.fate? name (step, (queue.step step).1) = some .givenUp
    · simp [attempts_cons_of_givenUp hkept]
    · have hslot' : (queue.step step).2.slot? name = some .sent := by
        rw [hacts.slot?_eq hkept, hslot, ite_self]
      rw [attempts_cons hkept]
      intro attempt hmem
      obtain hfirst | hlater := List.mem_append.mp hmem
      · exact (hacts.attempt (Option.mem_toList.mp hfirst)).2 hslot
      · exact ih hslot' attempt hlater

/-- **The first response that is sent through an unsent slot goes through it,** and no other one. -/
theorem attempts_of_unsent (hslot : queue.slot? name = some .unsent) (steps : List (Step ι)) :
    (∀ attempt ∈ (attempts name (queue.history steps)).head?, attempt.2 = .sent) ∧
      ∀ attempt ∈ (attempts name (queue.history steps)).tail,
        attempt.2 = .failed (.channelClosed attempt.1.tag) := by
  induction steps generalizing queue with
  | nil => simp [attempts]
  | cons step rest ih =>
    have hacts := acts_step queue step
    rw [history_cons]
    by_cases hkept : Event.fate? name (step, (queue.step step).1) = some .givenUp
    · simp [attempts_cons_of_givenUp hkept]
    · rw [attempts_cons hkept]
      have hslot' := hacts.slot?_eq hkept
      cases hattempt : Event.attempt? name (step, (queue.step step).1) with
      | none =>
        have hunfilled := fun hfilled => attempt?_of_filled hfilled hattempt
        rw [Option.toList_none, List.nil_append]
        exact ih (hslot'.trans ((if_neg hunfilled).trans hslot))
      | some attempt =>
        obtain ⟨hsent, hfilled⟩ := (hacts.attempt hattempt).1 hslot
        rw [Option.toList_some, List.singleton_append, List.head?_cons, List.tail_cons]
        refine ⟨fun first hfirst => ?_, attempts_of_sent (hslot'.trans (if_pos hfilled)) rest⟩
        obtain rfl : attempt = first := Option.some.inj hfirst
        exact hsent

/-! ## All responses -/

/-- A slot that is given up leaves the responses that wait, be it for a new one. -/
theorem Acts.queued_eq (h : Acts queue step answer queue')
    (hstep : step = .release name ∨ step = .reserve name) : queue'.queued = queue.queued := by
  obtain rfl | rfl := hstep <;> cases h <;> rfl

/-- **Responses are delivered once, in order.** After any operations, those that were received are
the beginning of those that were sent, and the others of these wait as long as the queue is not
closed. Of what is sent through a slot from its reservation until it is given up, the first response
goes through, and all others fail with their own tags. What fails changes nothing, and a slot that
is given up or replaced takes no response from those that wait. -/
theorem responses_delivered {capacity : Nat} {steps : List (Step ι)} {answers : List Answer}
    {queue : ResponseQueue ι} (hrun : (empty capacity).run steps = (answers, queue)) :
    received (steps.zip answers) <+: written (steps.zip answers) ∧
      (Step.close ∉ steps →
        received (steps.zip answers) ++ queue.queued = written (steps.zip answers)) ∧
      (∀ name queue' more, queue.step (.reserve name) = (.reservation .reserved, queue') →
        (∀ attempt ∈ (attempts name (queue'.history more)).head?, attempt.2 = .sent) ∧
          ∀ attempt ∈ (attempts name (queue'.history more)).tail,
            attempt.2 = .failed (.channelClosed attempt.1.tag)) ∧
      ∀ step answer queue', queue.step step = (answer, queue') →
        ((∃ cause, answer = .failed cause) → queue' = queue) ∧
          ∀ name, step = .release name ∨ step = .reserve name →
            queue'.queued = queue.queued := by
  obtain ⟨rfl, rfl⟩ : _ = answers ∧ _ = queue := Prod.ext_iff.mp hrun
  refine ⟨prefix_received rfl steps, received_append_queued rfl, ?_, ?_⟩
  · intro name queue' more hreserve
    -- The reservation leaves an unsent slot.
    cases acts_of_step hreserve
    exact attempts_of_unsent ((slot?_of_set rfl name).trans (if_pos rfl)) more
  · intro step answer queue' hresult
    have hacts := acts_of_step hresult
    exact ⟨fun hfailed => hacts.eq_of_failed (.inl hfailed), fun _ => hacts.queued_eq⟩

/-- Two slots are filled in the other order than they were reserved, and the responses are received
in the order in which they were sent. A third one does not go through a slot that has been used, and
the response that waits stays when its slot is replaced. -/
theorem responses_delivered_reversed :
    let response (tag : Int64) : Command := ⟨⟨.getLogBytes, .response⟩, tag, ByteArray.empty⟩
    let steps : List (Step Nat) := [.reserve 0, .reserve 1, .send 1 (response 1),
      .send 0 (response 0), .receive, .send 1 (response 2)]
    let answers : List Answer := [.reservation .reserved, .reservation .reserved, .sent, .sent,
      .receipt (.response (response 1)), .failed (.channelClosed 2)]
    let queue : ResponseQueue Nat := ⟨2, [response 0], [(0, .sent), (1, .sent)], false⟩
    (empty 2).run steps = (answers, queue) ∧
      written (steps.zip answers) = [response 1, response 0] ∧
      received (steps.zip answers) = [response 1] ∧
      [response 1] <+: [response 1, response 0] ∧
      (queue.step (.reserve 0)).1 = .reservation .reserved ∧
      (queue.step (.reserve 0)).2.queued = [response 0] := by
  intro response steps answers queue
  have hrun : (empty 2).run steps = (answers, queue) := rfl
  obtain ⟨hdelivered, -, -, hsteps⟩ := responses_delivered hrun
  obtain ⟨-, hqueued⟩ := hsteps (.reserve 0) (queue.step (.reserve 0)).1 _ rfl
  exact ⟨hrun, rfl, rfl, hdelivered, rfl, hqueued 0 (.inr rfl)⟩

end RemoteLog.Worker.ResponseQueue
