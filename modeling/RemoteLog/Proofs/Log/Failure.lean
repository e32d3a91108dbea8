import RemoteLog.Log.ApplicationId
import RemoteLog.Proofs.Line.Passes
import RemoteLog.Proofs.Log.Window

/-! # Logs that cannot be read to their end

A file may be opened and fail while it is read, behind any of its bytes. What was read before is never
shown: the whole-file readers give nothing at all, and a window is answered by a status alone. A window
meets a failure in its first pass if it comes before the last line that was asked for, and in its second
pass wherever it is.

* **`FileSystem.HoldsUpTo fs path bytes position`** — a path names a file that fails at a position.
* **`Log.windowLines_eq_error_iff`** — the window pass fails; **`Log.skipLines_takeLines_eq`** — it is
  the two loops over a reader.
* **`Log.CutShort n opened`**, **`Log.Unreadable opened`** — passes that fail, perhaps as the file is
  opened.
* **`Log.windowMeeting`** — a window from what its check and its passes meet;
  **`Log.windowOf_cases`** — when it is answered by a status alone.
* **`Log.failed_reads_show_nothing`** — files that fail. -/

namespace RemoteLog

/-- **A path names a file that fails** behind as many of its bytes as a position says, if not all of
them are fewer. -/
def FileSystem.HoldsUpTo (fs : FileSystem) (path : String) (bytes : ByteArray) (position : Nat) :
    Prop :=
  ∃ place, fs.resolve .use path = .ok (.entry place (.file ⟨bytes, some position⟩))

namespace Log

open Message Line

variable {fs : FileSystem} {path : String} {script : List ReadEvent}

/-! ## Files that fail -/

/-- A file that fails at a position can be opened, and its reader fails. -/
theorem openFile_of_holdsUpTo {bytes : ByteArray} {position : Nat}
    (h : fs.HoldsUpTo path bytes position) :
    ∃ script, fs.openFile path = .ok script ∧ Fails script := by
  obtain ⟨place, hplace⟩ := h
  refine ⟨_, ?_, [.chunk (bytes.extract 0 position)], .inputOutput, [], rfl⟩
  simp only [FileSystem.openFile, hplace]
  rfl

/-- A file that fails has no bytes to show. -/
theorem bytes_of_fails (hopen : fs.openFile path = .ok script) (h : Fails script) :
    bytes fs path = ByteArray.empty := by
  obtain ⟨cause, hcause⟩ := (allBytes_eq_error_iff script).mpr h
  simp only [bytes, hopen, bind, Except.bind, hcause]

/-- A file that fails has no text to show. -/
theorem text_of_fails (hopen : fs.openFile path = .ok script) (h : Fails script) :
    text fs path = "" := by
  obtain ⟨cause, hcause⟩ := (allOk_lines_eq_error_iff script).mpr h
  simp only [text, hopen, bind, Except.bind, hcause]

/-- A file that fails has no application ids to show. -/
theorem applicationIds_of_fails (hopen : fs.openFile path = .ok script) (h : Fails script) :
    applicationIds fs path = [] := by
  obtain ⟨cause, hcause⟩ := (allOk_lines_eq_error_iff script).mpr h
  simp only [applicationIds, hopen, bind, Except.bind, hcause, ite_self]

/-! ## The two passes of a window -/

/-- The lines of a window, from the stretches of a reader. -/
theorem windowLines_eq (script : List ReadEvent) (skip limit : Nat) :
    windowLines script skip limit =
      (allOk ((stretches script).items.take (skip + limit))).map fun raws =>
        (raws.drop skip).map fun raw => Line.text raw.toByteArray := by
  rw [windowLines]
  simp only [rawLines_eq, ← List.map_take, allOk_map]
  cases allOk ((stretches script).items.take (skip + limit)) with
  | error cause => rfl
  | ok raws => simp [Except.map, Function.comp_def]

/-- **The window pass is two loops:** one over the lines to be skipped, and one over those that are
asked for. -/
theorem skipLines_takeLines_eq (script : List ReadEvent) (skip limit : Nat) :
    (Reader.skipLines skip script).bind (Reader.takeLines limit) =
      windowLines script skip limit := by
  rw [Reader.skipLines_takeLines, Reader.collect_eq, windowLines_eq, ← List.map_take, allOk_map]
  cases allOk ((stretches script).items.take (skip + limit)) <;> simp [Except.map]

/-- **The window pass fails** just if a failure comes before its last line is finished. -/
theorem windowLines_eq_error_iff (script : List ReadEvent) (skip limit : Nat) :
    (∃ cause, windowLines script skip limit = .error cause) ↔ FailsWithin (skip + limit) script := by
  rw [windowLines_eq, map_eq_error_iff, allOk_take_items_eq_error_iff]

/-- **A pass over `n` lines is cut short:** the file cannot be opened, or its reader fails before so
many lines are finished. -/
def CutShort (n : Nat) : Except SystemError (List ReadEvent) → Prop
  | .error _ => True
  | .ok script => FailsWithin n script

/-- **A pass over everything fails:** the file cannot be opened, or its reader fails somewhere. -/
def Unreadable : Except SystemError (List ReadEvent) → Prop
  | .error _ => True
  | .ok script => Fails script

theorem cutShort_iff (opened : Except SystemError (List ReadEvent)) (skip limit : Nat) :
    CutShort (skip + limit) opened ↔
      ∃ cause, opened.bind (windowLines · skip limit) = .error cause := by
  cases opened with
  | error cause => exact ⟨fun _ => ⟨cause, rfl⟩, fun _ => trivial⟩
  | ok script => exact (windowLines_eq_error_iff script skip limit).symm

theorem unreadable_iff (opened : Except SystemError (List ReadEvent)) :
    Unreadable opened ↔ ∃ cause, opened.bind countLines = .error cause := by
  cases opened with
  | error cause => exact ⟨fun _ => ⟨cause, rfl⟩, fun _ => trivial⟩
  | ok script => exact (countLines_eq_error_iff script).symm

/-- The answer to a window needs both passes. -/
theorem windowOf_eq (first second : Except SystemError (List ReadEvent)) (skip limit : Nat) :
    windowOf first second skip limit =
      match first.bind (windowLines · skip limit), second.bind countLines with
      | .ok lines, .ok total =>
        .ok (UInt64.ofNat (skip + lines.length)) (UInt64.ofNat total) (joinLines lines)
      | _, _ => .failure .unknownError := by
  cases first with
  | error cause => rfl
  | ok script =>
    cases hlines : windowLines script skip limit with
    | error cause => simp [windowOf, hlines, bind, Except.bind]
    | ok lines =>
      cases second with
      | error cause => simp [windowOf, hlines, bind, Except.bind]
      | ok script' =>
        cases htotal : countLines script' <;>
          simp [windowOf, hlines, htotal, bind, Except.bind, pure, Except.pure]

/-- **A window is answered by a status alone** if one of its passes fails, and is read otherwise. -/
theorem windowOf_cases (first second : Except SystemError (List ReadEvent)) (skip limit : Nat) :
    (CutShort (skip + limit) first ∨ Unreadable second) ∧
        windowOf first second skip limit = .failure .unknownError ∨
      ¬ (CutShort (skip + limit) first ∨ Unreadable second) ∧
        (windowOf first second skip limit).status = .ok := by
  rw [cutShort_iff, unreadable_iff, windowOf_eq]
  cases first.bind (windowLines · skip limit) with
  | error cause => simp
  | ok lines =>
    cases second.bind countLines with
    | error cause => simp
    | ok total => simp [RollViewLogResponse.ok]

/-- **A window from what it meets:** whether the check finds a regular file, and what each of the two
passes meets as it opens the file and reads it. -/
def windowMeeting (guard : PathGuard) (isFile : Bool)
    (first second : Except SystemError (List ReadEvent)) (request : RollViewLogRequest) :
    RollViewLogResponse :=
  if !guard.accepts request.path then .failure .pathNotSecure
  else if !isFile then .failure .fileNotFound
  else windowOf first second request.skip.toNat request.limit.toNat

/-- A window meets the same file three times, if the file does not change. -/
theorem window_eq_windowMeeting (guard : PathGuard) (fs : FileSystem)
    (request : RollViewLogRequest) :
    window guard fs request =
      windowMeeting guard (fs.isFile request.path) (fs.openFile request.path)
        (fs.openFile request.path) request := rfl

/-- **How a window of an accepted path is answered:** by the status that no file has the path if the
check finds none, and otherwise by the status of a failure just if one of the passes fails. An answer
by a status has nothing but the status. -/
theorem windowMeeting_cases {guard : PathGuard} {request : RollViewLogRequest}
    (haccepts : guard.accepts request.path = true) (isFile : Bool)
    (first second : Except SystemError (List ReadEvent)) :
    let view := windowMeeting guard isFile first second request
    (view.status = .fileNotFound ↔ isFile = false) ∧
      (view.status = .unknownError ↔ isFile = true ∧
        (CutShort (request.skip.toNat + request.limit.toNat) first ∨ Unreadable second)) ∧
      (view.status ≠ .ok → view = ⟨view.status, 0, 0, ""⟩) := by
  have hrefused : ¬ (!guard.accepts request.path) = true := by simp [haccepts]
  cases isFile with
  | false =>
    have hview : windowMeeting guard false first second request = .failure .fileNotFound := by
      rw [windowMeeting, if_neg hrefused]
      rfl
    simp [hview, RollViewLogResponse.failure]
  | true =>
    have hview : windowMeeting guard true first second request =
        windowOf first second request.skip.toNat request.limit.toNat := by
      rw [windowMeeting, if_neg hrefused]
      rfl
    rw [hview]
    rcases windowOf_cases first second request.skip.toNat request.limit.toNat with
      ⟨hfails, hanswer⟩ | ⟨hreads, hanswer⟩
    · simp [hanswer, hfails, RollViewLogResponse.failure]
    · simp [hanswer, hreads]

/-- **Failed reads show nothing.** A file may fail behind any number of its bytes. Then the readers of a
whole file give no bytes, no text and no application ids, whatever was read before, and each window of
it is answered by the status of a failure alone. The two passes of a window may as well meet different
things. If the path is accepted, the answer is that no file has the path just if the check finds no
regular file there. Else it is a failure just if the first pass, two loops over a reader, fails before
the last line that was asked for, or the second one anywhere; and an answer that is not a window has
line numbers of zero and an empty text. -/
theorem failed_reads_show_nothing :
    (∀ (fs : FileSystem) (path : String) (bytes : ByteArray) (position : Nat),
      fs.HoldsUpTo path bytes position →
        Log.bytes fs path = ByteArray.empty ∧ text fs path = "" ∧ applicationIds fs path = [] ∧
          ∀ (guard : PathGuard) (skip limit : UInt32), guard.accepts path = true →
            window guard fs ⟨path, skip, limit⟩ = ⟨.unknownError, 0, 0, ""⟩) ∧
    (∀ (script : List ReadEvent) (skip limit : Nat),
      (Reader.skipLines skip script).bind (Reader.takeLines limit) =
        windowLines script skip limit) ∧
    ∀ (guard : PathGuard) (request : RollViewLogRequest), guard.accepts request.path = true →
      (∀ fs : FileSystem, window guard fs request =
        windowMeeting guard (fs.isFile request.path) (fs.openFile request.path)
          (fs.openFile request.path) request) ∧
      ∀ (isFile : Bool) (first second : Except SystemError (List ReadEvent)),
        let view := windowMeeting guard isFile first second request
        (view.status = .fileNotFound ↔ isFile = false) ∧
          (view.status = .unknownError ↔ isFile = true ∧
            (CutShort (request.skip.toNat + request.limit.toNat) first ∨ Unreadable second)) ∧
          (view.status ≠ .ok → view = ⟨view.status, 0, 0, ""⟩) := by
  refine ⟨fun fs path bytes position h => ?_, skipLines_takeLines_eq,
    fun guard request haccepts =>
      ⟨fun fs => window_eq_windowMeeting guard fs request, windowMeeting_cases haccepts⟩⟩
  obtain ⟨script, hopen, hfails⟩ := openFile_of_holdsUpTo h
  refine ⟨bytes_of_fails hopen hfails, text_of_fails hopen hfails,
    applicationIds_of_fails hopen hfails, fun guard skip limit haccepts => ?_⟩
  have hisFile : fs.isFile path = true := by
    obtain ⟨place, hplace⟩ := h
    simp only [FileSystem.isFile, hplace]
  obtain ⟨-, hstatus, hview⟩ := @windowMeeting_cases guard ⟨path, skip, limit⟩ haccepts
    (fs.isFile path) (fs.openFile path) (fs.openFile path)
  have hunknown := hstatus.mpr ⟨hisFile, .inr (by rw [hopen]; exact hfails)⟩
  rw [window_eq_windowMeeting]
  exact (hview (by simp [hunknown])).trans (by rw [hunknown])

/-- A device fails within the second line of a log. Nothing of the log is shown. Where only the first
pass of a window meets the failure, a window of one line is read, but none of two lines. -/
theorem failed_reads_show_nothing_second_line :
    let bytes : ByteArray := "application_1\n22".toUTF8
    let fs := FileSystem.oneLog ⟨bytes, some 15⟩
    let guard : PathGuard := ⟨"/logs"⟩
    let path := "/logs/a.log"
    let broken : List ReadEvent :=
      [.chunk "application_1\n2".toUTF8, .interrupted, .failure .inputOutput]
    let whole : List ReadEvent := [.chunk bytes]
    fs.HoldsUpTo path bytes 15 ∧ guard.accepts path = true ∧
      Log.bytes fs path = ByteArray.empty ∧ text fs path = "" ∧ applicationIds fs path = [] ∧
      window guard fs ⟨path, 0, 1⟩ = ⟨.unknownError, 0, 0, ""⟩ ∧
      windowMeeting guard true (.ok broken) (.ok whole) ⟨path, 0, 2⟩ =
        ⟨.unknownError, 0, 0, ""⟩ ∧
      (windowMeeting guard true (.ok broken) (.ok whole) ⟨path, 0, 1⟩).status ≠ .unknownError := by
  intro bytes fs guard path broken whole
  have hholds : fs.HoldsUpTo path bytes 15 := ⟨_, FileSystem.resolve_oneLog _⟩
  have haccepts : guard.accepts path = true := by decide +kernel
  have hcut : FailsWithin 2 broken :=
    ⟨[.chunk "application_1\n2".toUTF8, .interrupted], .inputOutput, [], rfl, by decide +kernel⟩
  have hfinished : ¬ FailsWithin 1 broken := by
    rw [failsWithin_cons_iff rfl, failsWithin_cons_iff rfl, failsWithin_failure_iff]
    decide +kernel
  have hwhole : ¬ Fails whole := by simp [fails_iff, whole, stretches]
  obtain ⟨hfiles, -, hwindows⟩ := failed_reads_show_nothing
  obtain ⟨hbytes, htext, hids, hwindow⟩ := hfiles fs path bytes 15 hholds
  refine ⟨hholds, haccepts, hbytes, htext, hids, hwindow guard 0 1 haccepts, ?_, ?_⟩
  · obtain ⟨-, hstatus, hview⟩ :=
      (hwindows guard ⟨path, 0, 2⟩ haccepts).2 true (.ok broken) (.ok whole)
    have hunknown := hstatus.mpr ⟨rfl, .inl hcut⟩
    exact (hview (by simp [hunknown])).trans (by rw [hunknown])
  · obtain ⟨-, hstatus, -⟩ :=
      (hwindows guard ⟨path, 0, 1⟩ haccepts).2 true (.ok broken) (.ok whole)
    exact mt hstatus.mp fun h => h.2.elim hfinished hwhole

end Log

end RemoteLog
