import RemoteLog.Proofs.Worker.Rejection

/-! # Commands that share a slot

A slot takes one response. Commands that are worked on with one slot between them are all worked on
nevertheless: they leave the files that they would leave with a slot each, and those that are
rejected are rejected for the same cause. What the shared slot decides is whose response is written:
that of the first command that is not rejected. Every later one is told that its response has no
place to go.

* **`processEach guard fs commands`** — the work on commands with a fresh slot for each.
* **`processShared guard fs slot commands`** — the work on commands with one slot for all.
* **`Shares guard c slot own shared`** — what becomes of a command in either run.
* **`process_shares`** — one command; **`processShared_shares`** — any number of commands.
* **`processShared_same_effects`** — the two runs side by side. -/

namespace RemoteLog.Worker

/-! ## Two ways to work on commands -/

/-- **The work on commands, each with a fresh slot:** what every command leaves. -/
def processEach (guard : PathGuard) (fs : FileSystem) : List Command → List Outcome
  | [] => []
  | c :: rest =>
    let outcome := process guard fs .unsent c
    outcome :: processEach guard outcome.files rest

/-- **The work on commands with one slot between them:** what every command leaves. -/
def processShared (guard : PathGuard) (fs : FileSystem) (slot : Slot) : List Command → List Outcome
  | [] => []
  | c :: rest =>
    let outcome := process guard fs slot c
    outcome :: processShared guard outcome.files outcome.slot rest

/-- **The responses that were written,** in order. -/
def responses (outcomes : List Outcome) : List Command :=
  outcomes.filterMap fun outcome => outcome.result.toOption

section

variable {guard : PathGuard} {fs : FileSystem} {slot : Slot} {c : Command} {rest : List Command}

@[simp] theorem processEach_nil : processEach guard fs [] = [] := rfl

@[simp] theorem processShared_nil : processShared guard fs slot [] = [] := rfl

theorem processEach_cons : processEach guard fs (c :: rest) =
    process guard fs .unsent c :: processEach guard (process guard fs .unsent c).files rest := rfl

theorem processShared_cons : processShared guard fs slot (c :: rest) =
    process guard fs slot c ::
      processShared guard (process guard fs slot c).files (process guard fs slot c).slot rest := rfl

end

@[simp] theorem responses_nil : responses [] = [] := rfl

@[simp] theorem responses_cons_ok (response : Command) (files : FileSystem) (slot : Slot)
    (rest : List Outcome) :
    responses (⟨.ok response, files, slot⟩ :: rest) = response :: responses rest := rfl

@[simp] theorem responses_cons_error (cause : AnswerError) (files : FileSystem) (slot : Slot)
    (rest : List Outcome) : responses (⟨.error cause, files, slot⟩ :: rest) = responses rest := rfl

/-! ## One command -/

/-- **What becomes of a command** with a slot of its own, and with a shared slot as it finds it. The
files are the same in every case. -/
inductive Shares (guard : PathGuard) (c : Command) : Slot → Outcome → Outcome → Prop where
  /-- A command that is rejected leaves either slot as it is. -/
  | rejected {slot : Slot} {cause : AnswerError} {files : FileSystem} (h : Rejection guard c cause) :
      Shares guard c slot ⟨.error cause, files, .unsent⟩ ⟨.error cause, files, slot⟩
  /-- The response is written through either slot. -/
  | written {response : Command} {files : FileSystem} (h : Answerable guard c)
      (htag : response.tag = c.tag) :
      Shares guard c .unsent ⟨.ok response, files, .sent⟩ ⟨.ok response, files, .sent⟩
  /-- The shared slot has been used and takes no second response. -/
  | lost {response : Command} {files : FileSystem} (h : Answerable guard c)
      (htag : response.tag = c.tag) :
      Shares guard c .sent ⟨.ok response, files, .sent⟩
        ⟨.error (.channelClosed c.tag), files, .sent⟩

variable {guard : PathGuard} {slot : Slot} {c : Command} {own shared : Outcome}

namespace Shares

/-- Either run leaves the same files. -/
theorem files_eq (h : Shares guard c slot own shared) : shared.files = own.files := by
  cases h <;> rfl

/-- **A shared slot is used** behind a command if it was used before or if the command is
answered. -/
theorem slot_eq_sent_iff (h : Shares guard c slot own shared) :
    shared.slot = .sent ↔ slot = .sent ∨ Answerable guard c := by
  cases h with
  | rejected h => simp [h.not_answerable]
  | written h => simp [h]
  | lost h => simp

end Shares

/-- **One command** over the same files, with a fresh slot and with a shared one. -/
theorem process_shares (guard : PathGuard) (fs : FileSystem) (slot : Slot) (c : Command) :
    Shares guard c slot (process guard fs .unsent c) (process guard fs slot c) := by
  rcases answer_cases guard fs c with
    ⟨hanswerable, body, files, hanswer⟩ | ⟨cause, hrejection, hanswer⟩
  · cases slot with
    | unsent =>
      simp only [process, hanswer, Slot.write]
      exact .written hanswerable rfl
    | sent =>
      -- The command has taken effect before its response is refused.
      simp only [process, hanswer, Slot.write]
      exact .lost hanswerable rfl
  · simp only [process, hanswer]
    exact .rejected hrejection

/-! ## Any number of commands -/

/-- **Any number of commands.** A command finds the shared slot used if it was used before all of
them, or if an earlier one is answered. -/
theorem processShared_shares (guard : PathGuard) (slot : Slot) (commands : List Command)
    (fs : FileSystem) {i : Nat} (hc : commands[i]? = some c) :
    ∃ own shared found, (processEach guard fs commands)[i]? = some own ∧
      (processShared guard fs slot commands)[i]? = some shared ∧
      (found = .sent ↔ slot = .sent ∨ ∃ earlier ∈ commands.take i, Answerable guard earlier) ∧
      Shares guard c found own shared := by
  induction commands generalizing slot fs i with
  | nil => simp at hc
  | cons first rest ih =>
    have hshares := process_shares guard fs slot first
    rw [processEach_cons, processShared_cons]
    cases i with
    | zero =>
      obtain rfl : first = c := by simpa using hc
      exact ⟨_, _, slot, rfl, rfl, by simp, hshares⟩
    | succ i =>
      -- The rest goes on over the same files, with what the first command left of the slot.
      obtain ⟨own, shared, found, hown, hshared, hfound, h⟩ :=
        ih (process guard fs slot first).slot (process guard fs .unsent first).files
          (by simpa using hc)
      rw [hshares.files_eq]
      refine ⟨own, shared, found, by simpa using hown, by simpa using hshared, ?_, h⟩
      rw [hfound, hshares.slot_eq_sent_iff]
      simp [or_assoc]

/-- Both runs leave the same files behind every command. -/
theorem map_files_processShared (slot : Slot) (commands : List Command) (fs : FileSystem) :
    (processShared guard fs slot commands).map Outcome.files =
      (processEach guard fs commands).map Outcome.files := by
  induction commands generalizing slot fs with
  | nil => rfl
  | cons first rest ih =>
    have hfiles := (process_shares guard fs slot first).files_eq
    rw [processEach_cons, processShared_cons, List.map_cons, List.map_cons, hfiles, ih]

/-- **A shared slot takes the first response** of all that would be written through slots of their
own, and nothing once it has been used. -/
theorem responses_processShared (slot : Slot) (commands : List Command) (fs : FileSystem) :
    responses (processShared guard fs slot commands) =
      if slot = .sent then [] else (responses (processEach guard fs commands)).head?.toList := by
  induction commands generalizing slot fs with
  | nil => simp
  | cons first rest ih =>
    have hshares := process_shares guard fs slot first
    rw [processEach_cons, processShared_cons, hshares.files_eq]
    generalize process guard fs .unsent first = own at hshares ⊢
    generalize process guard fs slot first = shared at hshares ⊢
    cases hshares with
    | rejected => simp [ih]
    | written => simp [ih]
    | lost => simp [ih]

/-- With slots of their own, commands get responses if one of them is not rejected. -/
theorem responses_processEach_eq_nil_iff (commands : List Command) (fs : FileSystem) :
    responses (processEach guard fs commands) = [] ↔ ∀ c ∈ commands, ¬ Answerable guard c := by
  induction commands generalizing fs with
  | nil => simp
  | cons first rest ih =>
    rcases process_unsent guard fs first with
      ⟨hanswerable, body, files, h⟩ | ⟨cause, hrejection, h⟩
    · simp [processEach_cons, h, hanswerable]
    · simp [processEach_cons, h, ih, hrejection.not_answerable]

/-! ## The two runs side by side -/

/-- **A used slot never changes what the work does.** Commands are worked on with one slot between
them, and with a slot each. Behind every command the files are the same. A command that is rejected
is rejected in both runs and for the same cause. All others are answered if they have slots of their
own; with one slot the first of them is answered, with the same response, and every later one is
told that the response with its tag has no place to go. So one response is written in all. -/
theorem processShared_same_effects (guard : PathGuard) (fs : FileSystem)
    (commands : List Command) :
    let own := processEach guard fs commands
    let shared := processShared guard fs .unsent commands
    shared.map Outcome.files = own.map Outcome.files ∧
      (∀ (i : Nat) (c : Command), commands[i]? = some c →
        ∃ a b, own[i]? = some a ∧ shared[i]? = some b ∧
          ((∃ cause, Rejection guard c cause ∧ a.result = .error cause ∧
              b.result = .error cause) ∨
            Answerable guard c ∧ ∃ response, a.result = .ok response ∧
              ((∀ earlier ∈ commands.take i, ¬ Answerable guard earlier) →
                b.result = .ok response) ∧
              ((∃ earlier ∈ commands.take i, Answerable guard earlier) →
                b.result = .error (.channelClosed c.tag)))) ∧
      responses shared = (responses own).head?.toList ∧
      ((∃ c ∈ commands, Answerable guard c) → (responses shared).length = 1) := by
  intro own shared
  have hresponses : responses shared = (responses own).head?.toList := by
    simp [shared, own, responses_processShared]
  refine ⟨map_files_processShared .unsent commands fs, ?_, hresponses, ?_⟩
  · intro i c hc
    obtain ⟨a, b, found, ha, hb, hfound, hshares⟩ :=
      processShared_shares guard .unsent commands fs hc
    refine ⟨a, b, ha, hb, ?_⟩
    cases hshares with
    | rejected hrejection => exact .inl ⟨_, hrejection, rfl, rfl⟩
    | written hanswerable =>
      refine .inr ⟨hanswerable, _, rfl, fun _ => rfl, ?_⟩
      intro hearlier
      simpa using hfound.mpr (.inr hearlier)
    | lost hanswerable =>
      refine .inr ⟨hanswerable, _, rfl, ?_, fun _ => rfl⟩
      intro hnone
      rcases hfound.mp rfl with hused | ⟨earlier, hmem, hearlier⟩
      · cases hused
      · exact absurd hearlier (hnone earlier hmem)
  · rintro ⟨c, hmem, hanswerable⟩
    have hne : responses own ≠ [] := by
      intro hnil
      exact (responses_processEach_eq_nil_iff commands fs).mp hnil c hmem hanswerable
    obtain ⟨first, rest, hcons⟩ := List.exists_cons_of_ne_nil hne
    simp [hresponses, hcons]

/-- Two logs are removed behind a command that is rejected; the second removal takes effect too, but
its response is lost. -/
theorem processShared_same_effects_removals :
    let guard : PathGuard := ⟨"/logs"⟩
    let log (name : String) := (["logs", name], Entry.file (.ofBytes "x".toUTF8))
    let fs : FileSystem := ⟨[(["logs"], .directory), log "a.log", log "b.log"], []⟩
    let removal (path : String) (tag : Int64) : Command :=
      ⟨⟨.removeTaskLog, .request⟩, tag, Message.Body.encode (Message.RemoveTaskLogRequest.mk path)⟩
    let commands :=
      [removal "/etc/passwd" 1, removal "/logs/a.log" 2, removal "/logs/b.log" 3]
    let own := processEach guard fs commands
    let shared := processShared guard fs .unsent commands
    commands[2]? = some (removal "/logs/b.log" 3) ∧
      shared.map Outcome.files = own.map Outcome.files ∧
      (∃ a b response, own[2]? = some a ∧ shared[2]? = some b ∧ a.result = .ok response ∧
        b.result = .error (.channelClosed 3)) ∧
      (responses shared).length = 1 := by
  intro guard log fs removal commands own shared
  have hdecode (path : String) : Message.Request.decode .removeTaskLog
      (Message.Body.encode (Message.RemoveTaskLogRequest.mk path)) =
        .ok (.removeTaskLog ⟨path⟩) :=
    congrArg (Functor.map _) (Message.Body.decode_encode (by decide) _)
  have hfirst : Answerable guard (removal "/logs/a.log" 2) :=
    ⟨rfl, _, hdecode _, .inr (by decide +kernel)⟩
  have hsecond : Answerable guard (removal "/logs/b.log" 3) :=
    ⟨rfl, _, hdecode _, .inr (by decide +kernel)⟩
  obtain ⟨hfiles, hall, -, hone⟩ := processShared_same_effects guard fs commands
  refine ⟨rfl, hfiles, ?_, hone ⟨_, by simp [commands], hfirst⟩⟩
  obtain ⟨a, b, ha, hb, hcases⟩ := hall 2 _ rfl
  rcases hcases with ⟨cause, hrejection, -⟩ | ⟨-, response, hown, -, hlost⟩
  · exact absurd hsecond hrejection.not_answerable
  · exact ⟨a, b, response, ha, hb, hown, hlost ⟨_, by simp [commands], hfirst⟩⟩

end RemoteLog.Worker
