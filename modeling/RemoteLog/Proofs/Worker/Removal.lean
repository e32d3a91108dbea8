import RemoteLog.Proofs.FileSystem.Removal
import RemoteLog.Proofs.Worker.Confinement

/-! # Only removals change files

A worker reads files and removes them; it never writes one. The work on a command leaves the files
as they are, or the command asks for the removal of a log and takes away the one entry that its path
names. The answer tells which of the two it was only as far as the log is concerned: it is gone, or
nothing has happened.

* **`AsksRemoval guard c path`** — a command that asks for the removal of a log.
* **`asksRemoval_or`** — what a command does, by whether it asks for a removal.
* **`process_files_cases`**, **`process_gone`**, **`process_kept`** — the files after a command, and
  what its answer says about them.
* **`processAll_only_removals`** — what any sequence of commands does. -/

namespace RemoteLog

open FileSystem Message

namespace PathGuard

variable {guard : PathGuard} {path : String}

/-- An accepted path ends in a name. -/
theorem endsInSlash_of_accepts (h : guard.accepts path = true) :
    Path.endsInSlash path = false := by
  obtain ⟨-, -, -, front, hfront⟩ := accepts_iff.mp h
  rw [Path.endsInSlash, ← hfront, List.getLast?_append]
  rfl

/-- An accepted path is not empty. -/
theorem refusal_of_accepts (h : guard.accepts path = true) :
    refusal? path ≠ some .notFound := by
  obtain ⟨-, -, -, front, hfront⟩ := accepts_iff.mp h
  have hne : path ≠ "" := by
    rintro rfl
    exact List.append_ne_nil_of_right_ne_nil front (by decide) hfront
  have hempty : path.isEmpty = false := by simpa using hne
  unfold refusal?
  rw [hempty]
  split
  · exact nofun
  · split
    · next heq => cases heq
    · split <;> exact nofun

end PathGuard

theorem Message.Body.kind_of_ofCommand {α : Type} [Body α] {c : Command} {a : α}
    (h : Body.ofCommand c = .ok a) : c.kind = Body.kind α := by
  unfold Body.ofCommand at h
  split at h
  · cases h
  · next hkind => exact Decidable.not_not.mp hkind

namespace Worker

variable {guard : PathGuard} {fs : FileSystem} {slot : Slot} {c response : Command} {path : String}

/-! ## One command -/

/-- **A command asks for the removal of a log** whose path is accepted. -/
structure AsksRemoval (guard : PathGuard) (c : Command) (path : String) : Prop where
  request : Request.ofCommand c = .ok (.removeTaskLog ⟨path⟩)
  accepts : guard.accepts path = true

/-- **A removal that is asked for is answered** with whether the log is gone. -/
theorem AsksRemoval.answer_eq (h : AsksRemoval guard c path) (fs : FileSystem) :
    answer guard fs c =
      (.ok ⟨⟨.removeTaskLog, .response⟩, c.tag,
        Body.encode (RemoveTaskLogResponse.mk (Log.remove fs path).1)⟩,
        (Log.remove fs path).2) := by
  simp only [answer, h.request, Request.path, h.accepts, Bool.not_true, Bool.and_false,
    Bool.false_eq_true, if_false, perform_eq]
  rfl

/-- A refused command is not answered, so not like a removal either. -/
theorem kind_ne_of_error (cause : AnswerError) (response : Command)
    (h : (.error cause : Except AnswerError Command) = .ok response) :
    response.kind ≠ ⟨.removeTaskLog, .response⟩ := by
  cases h

/-- **What a command does:** it asks for a removal, or it leaves the files and is not answered like
one. -/
theorem asksRemoval_or (guard : PathGuard) (fs : FileSystem) (c : Command) :
    (∃ path, AsksRemoval guard c path) ∨
      (answer guard fs c).2 = fs ∧
        ∀ response, (answer guard fs c).1 = .ok response →
          response.kind ≠ ⟨.removeTaskLog, .response⟩ := by
  cases hrequest : Request.ofCommand c with
  | error error =>
    have hanswer : answer guard fs c = (.error (.protocol error), fs) := by rw [answer, hrequest]
    rw [hanswer]
    exact .inr ⟨rfl, kind_ne_of_error _⟩
  | ok request =>
    have hanswer : answer guard fs c =
        if needsLegalPath request && !guard.accepts request.path then
          (.error (.illegalPath request.path), fs)
        else (.ok ⟨⟨request.operation, .response⟩, c.tag, (serve guard fs request).1.body⟩,
          (serve guard fs request).2) := by
      simp only [answer, hrequest, perform_eq]
    rw [hanswer]
    cases request with
    | removeTaskLog request =>
      by_cases haccepts : guard.accepts request.path = true
      · exact .inl ⟨request.path, hrequest, haccepts⟩
      · rw [if_pos (by simpa [needsLegalPath, Request.operation, Request.path] using haccepts)]
        exact .inr ⟨rfl, kind_ne_of_error _⟩
    | getLogBytes | viewWholeLog | rollViewLog | getAppId =>
      refine .inr ?_
      split
      · exact ⟨rfl, kind_ne_of_error _⟩
      · refine ⟨rfl, ?_⟩
        rintro _ ⟨⟩ hkind
        cases hkind

/-- **The files after a command** are the same, or the entry that the path of a removal names is
gone. -/
theorem process_files_cases (guard : PathGuard) (fs : FileSystem) (slot : Slot) (c : Command) :
    (process guard fs slot c).files = fs ∨
      ∃ path place, AsksRemoval guard c path ∧
        Removes fs path place (process guard fs slot c).files := by
  rw [process_files]
  obtain ⟨path, hasks⟩ | ⟨hfiles, -⟩ := asksRemoval_or guard fs c
  · rw [hasks.answer_eq]
    obtain ⟨place, files, hremoves, -, hremove, -⟩ | ⟨-, hremove⟩ | hremove :=
      Log.remove_cases fs (PathGuard.refusal_of_accepts hasks.accepts)
    · rw [hremove]
      exact .inr ⟨path, place, hasks, hremoves⟩
    · rw [hremove]
      exact .inl rfl
    · rw [hremove]
      exact .inl rfl
  · exact .inl hfiles

/-- A response that was written is the answer. -/
theorem answer_of_process (h : (process guard fs slot c).result = .ok response) :
    (answer guard fs c).1 = .ok response := by
  unfold process at h
  split at h
  · cases h
  · next hanswer =>
    split at h
    · cases h
    · cases h
      rw [hanswer]

/-- A command whose answer says whether a log is gone asks for its removal. -/
theorem asksRemoval_of_process {gone : Bool} (h : (process guard fs slot c).result = .ok response)
    (hgone : Body.ofCommand response = .ok (RemoveTaskLogResponse.mk gone)) :
    ∃ path, AsksRemoval guard c path ∧ (Log.remove fs path).1 = gone ∧
      (answer guard fs c).1 = .ok response := by
  have hanswer := answer_of_process h
  obtain ⟨path, hasks⟩ | ⟨-, hother⟩ := asksRemoval_or guard fs c
  · refine ⟨path, hasks, ?_, hanswer⟩
    rw [hasks.answer_eq] at hanswer
    cases hanswer
    -- The body of the response comes back, so it tells what the removal came to.
    have hbody := Body.ofCommand_encode (by decide)
      (RemoveTaskLogResponse.mk (Log.remove fs path).1) c.tag
    exact congrArg RemoveTaskLogResponse.status (Except.ok.inj (hbody.symm.trans hgone))
  · exact absurd (Body.kind_of_ofCommand hgone) (hother response hanswer)

/-- **A log that is gone** does not exist any more, and its removal is answered in the same way when
it is asked for again. -/
theorem process_gone (h : (process guard fs slot c).result = .ok response)
    (hgone : Body.ofCommand response = .ok (RemoveTaskLogResponse.mk true)) :
    ∃ path, AsksRemoval guard c path ∧
      Absent (process guard fs slot c).files path ∧
      process guard (process guard fs slot c).files .unsent c =
        ⟨.ok response, (process guard fs slot c).files, .sent⟩ := by
  obtain ⟨path, hasks, hremoved, hanswer⟩ := asksRemoval_of_process h hgone
  have hfiles : (process guard fs slot c).files = (Log.remove fs path).2 := by
    rw [process_files, hasks.answer_eq]
  obtain ⟨habsent, hagain⟩ :=
    Log.remove_again (PathGuard.refusal_of_accepts hasks.accepts) hremoved
  refine ⟨path, hasks, hfiles ▸ habsent, ?_⟩
  rw [hasks.answer_eq, hremoved] at hanswer
  cases hanswer
  rw [hfiles, process, hasks.answer_eq, hagain]
  rfl

/-- **A log that is not gone** was not touched, nor was any other file. -/
theorem process_kept (h : (process guard fs slot c).result = .ok response)
    (hgone : Body.ofCommand response = .ok (RemoveTaskLogResponse.mk false)) :
    (process guard fs slot c).files = fs := by
  obtain ⟨path, hasks, hremoved, -⟩ := asksRemoval_of_process h hgone
  rw [process_files, hasks.answer_eq]
  exact Log.remove_failed (PathGuard.refusal_of_accepts hasks.accepts) hremoved

/-! ## Any number of commands -/

/-- The work on more commands goes on with the files that are left. -/
theorem processAll_append (guard : PathGuard) (fs : FileSystem)
    (done rest : List (Slot × Command)) :
    processAll guard fs (done ++ rest) =
      let before := processAll guard fs done
      let after := processAll guard before.2 rest
      (before.1 ++ after.1, after.2) := by
  induction done generalizing fs with
  | nil => rfl
  | cons first done ih =>
    obtain ⟨slot, c⟩ := first
    rw [List.cons_append, processAll, processAll, ih]
    rfl

/-- There are as many results as commands. -/
theorem length_processAll (guard : PathGuard) (fs : FileSystem) (work : List (Slot × Command)) :
    (processAll guard fs work).1.length = work.length := by
  induction work generalizing fs with
  | nil => rfl
  | cons first rest ih => exact congrArg (· + 1) (ih _)

/-- **No entry comes about or changes:** what is there after any work was there before. -/
theorem processAll_entries (guard : PathGuard) (fs : FileSystem) (work : List (Slot × Command))
    (place : List String) :
    FileSystem.entry? (processAll guard fs work).2 place = none ∨
      FileSystem.entry? (processAll guard fs work).2 place = fs.entry? place := by
  induction work generalizing fs with
  | nil => exact .inr rfl
  | cons first rest ih =>
    obtain ⟨slot, c⟩ := first
    obtain hnone | hrest := ih (process guard fs slot c).files
    · exact .inl hnone
    · obtain hsame | ⟨path, gone, -, hremoves⟩ := process_files_cases guard fs slot c
      · exact .inr (hrest.trans (by rw [hsame]))
      · by_cases hplace : place = gone
        · exact .inl (hrest.trans (hplace ▸ hremoves.gone))
        · exact .inr (hrest.trans (hremoves.kept place hplace))

/-- **Only removals change files, and only the named entry.** Whatever commands are worked on, no
entry is created or modified. Each command leaves the files as they are, or it asks for a removal
and the one entry that its path names is gone, a file or a link itself. If its answer says that a
log is gone, nothing exists at the path any more, and asking again gives the same answer; if it says
that it is not, the files are as they were. -/
theorem processAll_only_removals (guard : PathGuard) (fs : FileSystem)
    (work : List (Slot × Command)) :
    (∀ place, FileSystem.entry? (processAll guard fs work).2 place = none ∨
      FileSystem.entry? (processAll guard fs work).2 place = fs.entry? place) ∧
    ∀ done slot c rest, work = done ++ (slot, c) :: rest →
      let before := (processAll guard fs done).2
      let outcome := process guard before slot c
      (processAll guard fs work).1[done.length]? = some (outcome.result, outcome.slot) ∧
      (outcome.files = before ∨
        ∃ path place, AsksRemoval guard c path ∧ Removes before path place outcome.files) ∧
      ∀ response gone, outcome.result = .ok response →
        Body.ofCommand response = .ok (RemoveTaskLogResponse.mk gone) →
        (gone = true → ∃ path, AsksRemoval guard c path ∧ Absent outcome.files path ∧
          (∀ place entry, outcome.files.resolve .use path ≠ .ok (.entry place entry)) ∧
          process guard outcome.files .unsent c = ⟨.ok response, outcome.files, .sent⟩) ∧
        (gone = false → outcome.files = before) := by
  refine ⟨processAll_entries guard fs work, ?_⟩
  rintro done slot c rest rfl before outcome
  refine ⟨?_, process_files_cases guard before slot c, ?_⟩
  · rw [processAll_append, List.getElem?_append_right (Nat.le_of_eq (length_processAll ..)),
      length_processAll, Nat.sub_self]
    rfl
  · intro response gone hresult hgone
    constructor
    · rintro rfl
      obtain ⟨path, hasks, habsent, hagain⟩ := process_gone hresult hgone
      exact ⟨path, hasks, habsent,
        habsent.resolve_ne (PathGuard.endsInSlash_of_accepts hasks.accepts), hagain⟩
    · rintro rfl
      exact process_kept hresult hgone

/-- The removal of a link takes away the link and leaves the log that it leads to. -/
theorem processAll_only_removals_link :
    let guard : PathGuard := ⟨"/logs"⟩
    let log := (["logs", "a.log"], Entry.file (.ofBytes "a".toUTF8))
    let link := (["logs", "b.log"], Entry.link "a.log")
    let fs : FileSystem := ⟨[(["logs"], .directory), log, link], []⟩
    let request : RemoveTaskLogRequest := ⟨"/logs/b.log"⟩
    let c : Command := ⟨⟨.removeTaskLog, .request⟩, 7, Body.encode request⟩
    let outcome := process guard fs .unsent c
    [(Slot.unsent, c)] = [] ++ (Slot.unsent, c) :: [] ∧
      ∃ response, outcome.result = .ok response ∧
        Body.ofCommand response = .ok (RemoveTaskLogResponse.mk true) ∧
        Absent outcome.files "/logs/b.log" ∧
        FileSystem.entry? outcome.files ["logs", "a.log"] = fs.entry? ["logs", "a.log"] := by
  intro guard log link fs request c outcome
  have hasks : AsksRemoval guard c "/logs/b.log" :=
    ⟨congrArg (Functor.map _) (Body.ofCommand_encode (by decide) request 7), by decide +kernel⟩
  have hnames : fs.Names "/logs/b.log" ["logs"] "b.log" := by
    refine ⟨?_, by decide +kernel, by decide, by decide⟩
    have hfront : (Path.names "/logs/b.log").dropLast = ["logs"] := by decide +kernel
    have horigin : fs.origin "/logs/b.log" = [] := by decide +kernel
    have hlogs : "logs".utf8ByteSize = 4 := by decide +kernel
    rw [parent_eq, hfront, horigin]
    simp [lead, FileSystem.isDirectory, FileSystem.entry?, nameLimit, hlogs, Except.bind, fs]
  have hremove : Log.remove fs "/logs/b.log" = (true, fs.erase ["logs", "b.log"]) := by
    have hentry : fs.entry? (["logs"] ++ ["b.log"]) = some (.link "a.log") := by
      simp [FileSystem.entry?, fs, log, link]
    rw [Log.remove, hnames.unlink_eq (by decide +kernel), if_neg (by decide +kernel), hentry]
    rfl
  have hresult : outcome.result = .ok ⟨⟨.removeTaskLog, .response⟩, 7,
      Body.encode (RemoveTaskLogResponse.mk true)⟩ := by
    rw [process_unsent_result, hasks.answer_eq, hremove]
  have hgone := Body.ofCommand_encode (by decide) (RemoveTaskLogResponse.mk true) 7
  obtain ⟨-, heach⟩ := processAll_only_removals guard fs [(.unsent, c)]
  obtain ⟨-, -, hanswer⟩ := heach [] .unsent c [] rfl
  obtain ⟨path, hpath, habsent, -⟩ := (hanswer _ true hresult hgone).1 rfl
  cases hpath.request.symm.trans hasks.request
  refine ⟨rfl, _, hresult, hgone, habsent, ?_⟩
  rw [process_files, hasks.answer_eq, hremove, entry?_erase, if_neg (by decide)]

end Worker

end RemoteLog
