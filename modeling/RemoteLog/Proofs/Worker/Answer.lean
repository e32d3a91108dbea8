import RemoteLog.Proofs.Message.RoundTrip
import RemoteLog.Worker.Answer

/-! # What a worker answers

The answer to a request is the response of the log service behind the worker, with the tag of the
request. A response that does not fit a frame gives way to a degraded one, which always fits.

* **`Request.body`**, **`Response.body`** — the bodies as bytes.
* **`serve guard fs request`** — the response of the service, and the files afterwards.
* **`answer_request`** — a request is answered by the service unless its path is refused.
* **`answer_fits`** — every answer has the tag of its command and fits a frame. -/

namespace RemoteLog

namespace Message

/-- **The body of a request as bytes.** -/
def Request.body : Request → ByteArray
  | .getLogBytes body => Body.encode body
  | .viewWholeLog body => Body.encode body
  | .rollViewLog body => Body.encode body
  | .removeTaskLog body => Body.encode body
  | .getAppId body => Body.encode body

/-- **A request comes back from its command.** -/
theorem Request.ofCommand_body (request : Request) (tag : Int64) :
    Request.ofCommand ⟨⟨request.operation, .request⟩, tag, request.body⟩ = .ok request := by
  cases request with
  | getLogBytes body => exact congrArg (Functor.map _) (Body.ofCommand_encode (by decide) body tag)
  | viewWholeLog body => exact congrArg (Functor.map _) (Body.ofCommand_encode (by decide) body tag)
  | rollViewLog body => exact congrArg (Functor.map _) (Body.ofCommand_encode (by decide) body tag)
  | removeTaskLog body =>
    exact congrArg (Functor.map _) (Body.ofCommand_encode (by decide) body tag)
  | getAppId body => exact congrArg (Functor.map _) (Body.ofCommand_encode (by decide) body tag)

/-- What a response answers. -/
def Response.operation : Response → Operation
  | .getLogBytes _ => .getLogBytes
  | .viewWholeLog _ => .viewWholeLog
  | .rollViewLog _ => .rollViewLog
  | .removeTaskLog _ => .removeTaskLog
  | .getAppId _ => .getAppId

/-- **The body of a response as bytes.** -/
def Response.body : Response → ByteArray
  | .getLogBytes body => Body.encode body
  | .viewWholeLog body => Body.encode body
  | .rollViewLog body => Body.encode body
  | .removeTaskLog body => Body.encode body
  | .getAppId body => Body.encode body

end Message

namespace Worker

open Message

variable {guard : PathGuard} {fs : FileSystem}

/-! ## The service behind the worker -/

/-- A response, or a degraded one if it does not fit a frame. -/
def fit {β : Type} [Body β] (full degraded : β) : β :=
  if (Body.encode full).size > maxBody then degraded else full

/-- **The response of the log service to a request,** and the files afterwards. -/
def serve (guard : PathGuard) (fs : FileSystem) : Request → Response × FileSystem
  | .getLogBytes request =>
    (.getLogBytes (fit ⟨Log.bytes fs request.path⟩ ⟨ByteArray.empty⟩), fs)
  | .viewWholeLog request => (.viewWholeLog (fit ⟨Log.text fs request.path⟩ ⟨""⟩), fs)
  | .rollViewLog request =>
    (.rollViewLog (fit (Log.window guard fs request) (.failure .unknownError)), fs)
  | .removeTaskLog request =>
    (.removeTaskLog ⟨(Log.remove fs request.path).1⟩, (Log.remove fs request.path).2)
  | .getAppId request => (.getAppId (fit ⟨Log.applicationIds fs request.path⟩ ⟨[]⟩), fs)

/-- What is put in the place of a response that does not fit has to fit itself. -/
theorem fitting_eq {β : Type} [Body β] {full degraded : β}
    (h : (Body.encode degraded).size ≤ maxBody) (tag : Int64) :
    fitting full degraded tag = .ok ⟨Body.kind β, tag, Body.encode (fit full degraded)⟩ := by
  have hdegraded : Body.toCommand degraded tag = .ok ⟨Body.kind β, tag, Body.encode degraded⟩ :=
    Body.toCommand_eq_ok_iff.mpr ⟨h, rfl⟩
  by_cases hsize : (Body.encode full).size > maxBody
  · -- The command of the full response fails, and the one of the degraded response is made.
    rw [fitting, Body.toCommand_eq, if_pos hsize, fit, if_pos hsize, hdegraded]
    rfl
  · rw [fitting, Body.toCommand_eq, if_neg hsize, fit, if_neg hsize]
    rfl

theorem size_fit_le {β : Type} [Body β] {full degraded : β}
    (h : (Body.encode degraded).size ≤ maxBody) :
    (Body.encode (fit full degraded)).size ≤ maxBody := by
  unfold fit
  split
  · exact h
  · next hsize => exact Nat.le_of_not_lt hsize

theorem size_removal_le (gone : Bool) :
    (Body.encode (RemoveTaskLogResponse.mk gone)).size ≤ maxBody := by
  cases gone <;> decide +kernel

/-- **A response of the service fits a frame.** -/
theorem size_serve_le (guard : PathGuard) (fs : FileSystem) (request : Request) :
    (serve guard fs request).1.body.size ≤ maxBody := by
  cases request with
  | removeTaskLog request => exact size_removal_le _
  | getLogBytes | viewWholeLog | rollViewLog | getAppId => exact size_fit_le (by decide +kernel)

/-- **A request whose path has passed every check is answered by the service.** -/
theorem perform_eq (guard : PathGuard) (fs : FileSystem) (tag : Int64) (request : Request) :
    perform guard fs tag request =
      (.ok ⟨⟨request.operation, .response⟩, tag, (serve guard fs request).1.body⟩,
        (serve guard fs request).2) := by
  cases request with
  | getLogBytes request => exact congrArg (·, fs) (fitting_eq (by decide +kernel) tag)
  | viewWholeLog request => exact congrArg (·, fs) (fitting_eq (by decide +kernel) tag)
  | rollViewLog request => exact congrArg (·, fs) (fitting_eq (by decide +kernel) tag)
  | removeTaskLog request =>
    -- A removal has no degraded response: both of its responses fit.
    have hcommand (gone : Bool) : Body.toCommand (RemoveTaskLogResponse.mk gone) tag =
        .ok ⟨Body.kind RemoveTaskLogResponse, tag, Body.encode (RemoveTaskLogResponse.mk gone)⟩ :=
      Body.toCommand_eq_ok_iff.mpr ⟨size_removal_le gone, rfl⟩
    simp only [perform, hcommand]
    rfl
  | getAppId request => exact congrArg (·, fs) (fitting_eq (by decide +kernel) tag)

/-! ## Answers -/

/-- **A request is answered by the service,** unless it is rejected for its path. -/
theorem answer_request (guard : PathGuard) (fs : FileSystem) (request : Request) (tag : Int64) :
    answer guard fs ⟨⟨request.operation, .request⟩, tag, request.body⟩ =
      if needsLegalPath request && !guard.accepts request.path then
        (.error (.illegalPath request.path), fs)
      else
        (.ok ⟨⟨request.operation, .response⟩, tag, (serve guard fs request).1.body⟩,
          (serve guard fs request).2) := by
  simp only [answer, Request.ofCommand_body, perform_eq]

/-- **Every answer has the tag of its command and fits a frame.** -/
theorem answer_fits {c response : Command} (h : (answer guard fs c).1 = .ok response) :
    response.tag = c.tag ∧ response.body.size ≤ maxBody := by
  unfold answer at h
  split at h
  · cases h
  · next request _ =>
    split at h
    · cases h
    · rw [perform_eq] at h
      cases h
      exact ⟨rfl, size_serve_le guard fs request⟩

/-! ## Processing -/

/-- Working on a command answers it and changes the files as the answer does. -/
theorem process_files (guard : PathGuard) (fs : FileSystem) (slot : Slot) (c : Command) :
    (process guard fs slot c).files = (answer guard fs c).2 := by
  unfold process
  split
  · next heq => rw [heq]
  · next heq =>
    rw [heq]
    split <;> rfl

/-- An unused slot takes the answer, whatever it is. -/
theorem process_unsent_result (guard : PathGuard) (fs : FileSystem) (c : Command) :
    (process guard fs .unsent c).result = (answer guard fs c).1 := by
  unfold process
  split
  · next heq => rw [heq]
  · next heq => rw [heq]; rfl

end Worker

end RemoteLog
