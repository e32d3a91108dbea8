import RemoteLog.Proofs.Result
import RemoteLog.Proofs.Worker.Answer

/-! # Which commands are answered

A command is answered once or not at all. What decides is its kind, then its body, then the path in
it; the files have no say. Rolling views are never rejected for their path: they report it in the
status of their window, and they do so for just the paths that all other requests are rejected for.

* **`Request.decode operation body`** — the request that a body holds.
* **`Answerable guard c`** — a command that is answered; **`Rejection guard c cause`** — one that is
  not, and why.
* **`process_unsent`** — what the work on a command leaves in either case.
* **`window_pathNotSecure_iff`** — when a rolling view reports its path.
* **`process_once_or_rejected`** — the two together. -/

namespace RemoteLog

namespace Message

/-! ## Requests in bodies -/

/-- **The request that a body holds,** if it is the body of a request for `operation`. -/
def Request.decode : (operation : Operation) → (body : ByteArray) → Except Json.Fault Request
  | .getLogBytes, body => getLogBytes <$> Body.decode body
  | .viewWholeLog, body => viewWholeLog <$> Body.decode body
  | .rollViewLog, body => rollViewLog <$> Body.decode body
  | .removeTaskLog, body => removeTaskLog <$> Body.decode body
  | .getAppId, body => getAppId <$> Body.decode body

/-- **A request is the one that its body holds.** -/
theorem Request.ofCommand_request (operation : Operation) (tag : Int64) (body : ByteArray) :
    Request.ofCommand ⟨⟨operation, .request⟩, tag, body⟩ =
      (Request.decode operation body).mapError .badBody := by
  cases operation with
  | getLogBytes | viewWholeLog | rollViewLog | removeTaskLog | getAppId =>
    rw [Request.decode, ← map_mapError, ← Body.ofCommand_eq_of_kind tag body]
    rfl

/-- The request in a body is a request for the operation that it was decoded for. -/
theorem Request.operation_of_decode {operation : Operation} {body : ByteArray} {request : Request}
    (h : Request.decode operation body = .ok request) : request.operation = operation := by
  cases operation with
  | getLogBytes | viewWholeLog | rollViewLog | removeTaskLog | getAppId =>
    obtain ⟨_, -, rfl⟩ := exists_of_map_eq_ok h
    rfl

end Message

/-! ## Windows of refused paths -/

namespace Log

open Message

/-- Reading a file does not find fault with its path. -/
theorem status_windowOf_ne (first second : Except SystemError (List ReadEvent)) (skip limit : Nat) :
    (windowOf first second skip limit).status ≠ .pathNotSecure := by
  unfold windowOf
  intro h
  dsimp only at h
  split at h <;> cases h

/-- **A window reports its path exactly if the guard refuses it.** -/
theorem window_pathNotSecure_iff {guard : PathGuard} {fs : FileSystem}
    {request : RollViewLogRequest} :
    (window guard fs request).status = .pathNotSecure ↔ guard.accepts request.path = false := by
  unfold window
  cases guard.accepts request.path with
  | false => exact iff_of_true rfl rfl
  | true =>
    refine iff_of_false ?_ nofun
    -- What may be wrong later on is the file or the reading of it.
    cases fs.isFile request.path with
    | false => exact nofun
    | true => exact status_windowOf_ne _ _ _ _

end Log

namespace Worker

open Message

variable {guard : PathGuard} {fs : FileSystem} {c : Command}

/-- The report of a refused path always fits a frame, so it is what the response holds. -/
theorem status_fit_window_iff {request : RollViewLogRequest} :
    (fit (Log.window guard fs request) (.failure .unknownError)).status = .pathNotSecure ↔
      guard.accepts request.path = false := by
  cases haccepts : guard.accepts request.path with
  | false =>
    have hwindow : Log.window guard fs request = .failure .pathNotSecure :=
      if_pos (by rw [haccepts]; rfl)
    have hsize : ¬ (Body.encode (RollViewLogResponse.failure .pathNotSecure)).size > maxBody := by
      decide +kernel
    rw [hwindow, fit, if_neg hsize]
    exact iff_of_true rfl rfl
  | true =>
    refine iff_of_false ?_ Bool.noConfusion
    unfold fit
    split
    · exact WindowStatus.noConfusion
    · rw [Log.window_pathNotSecure_iff, haccepts]
      exact Bool.noConfusion

/-! ## Answerable commands and rejections -/

/-- **A command that is answered:** a request whose body holds a request of its kind, for a path
that the guard accepts or for a rolling view. -/
def Answerable (guard : PathGuard) (c : Command) : Prop :=
  c.kind.direction = .request ∧
    ∃ request, Request.decode c.kind.operation c.body = .ok request ∧
      (c.kind.operation = .rollViewLog ∨ guard.accepts request.path = true)

/-- **A command that is not answered, and why.** The causes are looked for in this order. -/
inductive Rejection (guard : PathGuard) : Command → AnswerError → Prop where
  /-- A response is never answered, whatever its body. -/
  | response {operation : Operation} {tag : Int64} {body : ByteArray} :
      Rejection guard ⟨⟨operation, .response⟩, tag, body⟩
        (.protocol (.unsupported ⟨operation, .response⟩))
  /-- The body of a request holds no such request. -/
  | body {operation : Operation} {tag : Int64} {body : ByteArray} {fault : Json.Fault}
      (h : Request.decode operation body = .error fault) :
      Rejection guard ⟨⟨operation, .request⟩, tag, body⟩ (.protocol (.badBody fault))
  /-- The guard refuses the path of a request that is no rolling view. -/
  | path {operation : Operation} {tag : Int64} {body : ByteArray} {request : Request}
      (h : Request.decode operation body = .ok request) (hroll : operation ≠ .rollViewLog)
      (hpath : guard.accepts request.path = false) :
      Rejection guard ⟨⟨operation, .request⟩, tag, body⟩ (.illegalPath request.path)

/-- A command is not both answered and rejected. -/
theorem Rejection.not_answerable {cause : AnswerError} (h : Rejection guard c cause) :
    ¬ Answerable guard c := by
  rintro ⟨hdirection, request, hdecode, hlegal⟩
  cases h with
  | response => cases hdirection
  | body h =>
    rw [h] at hdecode
    cases hdecode
  | path h hroll hpath =>
    rw [h] at hdecode
    cases hdecode
    obtain hroll' | haccepts := hlegal
    · exact hroll hroll'
    · exact Bool.noConfusion (hpath.symm.trans haccepts)

/-- **A request is answered by the service** unless it is rejected for its path, however its body
is spelled. -/
theorem answer_of_decode (guard : PathGuard) (fs : FileSystem) {operation : Operation}
    {body : ByteArray} {request : Request} (h : Request.decode operation body = .ok request)
    (tag : Int64) :
    answer guard fs ⟨⟨operation, .request⟩, tag, body⟩ =
      if operation = .rollViewLog ∨ guard.accepts request.path = true then
        (.ok ⟨⟨operation, .response⟩, tag, (serve guard fs request).1.body⟩,
          (serve guard fs request).2)
      else (.error (.illegalPath request.path), fs) := by
  have hoperation := Request.operation_of_decode h
  have hrequest : Request.ofCommand ⟨⟨operation, .request⟩, tag, body⟩ = .ok request := by
    rw [Request.ofCommand_request, h]
    rfl
  simp only [answer, hrequest, perform_eq, needsLegalPath, hoperation]
  by_cases hroll : operation = .rollViewLog <;> cases guard.accepts request.path <;> simp [hroll]

/-- **A command is answered with a response of its own kind and tag,** or it is rejected and the
files are left as they are. -/
theorem answer_cases (guard : PathGuard) (fs : FileSystem) (c : Command) :
    (Answerable guard c ∧ ∃ body files,
      answer guard fs c = (.ok ⟨⟨c.kind.operation, .response⟩, c.tag, body⟩, files)) ∨
    ∃ cause, Rejection guard c cause ∧ answer guard fs c = (.error cause, fs) := by
  obtain ⟨⟨operation, direction⟩, tag, body⟩ := c
  cases direction with
  | response => exact .inr ⟨_, .response, rfl⟩
  | request =>
    match hdecode : Request.decode operation body with
    | .error fault =>
      refine .inr ⟨_, .body hdecode, ?_⟩
      rw [answer, Request.ofCommand_request, hdecode]
      rfl
    | .ok request =>
      rw [answer_of_decode guard fs hdecode]
      by_cases hlegal : operation = .rollViewLog ∨ guard.accepts request.path = true
      · exact .inl ⟨⟨rfl, request, hdecode, hlegal⟩, _, _, if_pos hlegal⟩
      · obtain ⟨hroll, hpath⟩ := not_or.mp hlegal
        exact .inr ⟨_, .path hdecode hroll (Bool.not_eq_true _ ▸ hpath), if_neg hlegal⟩

/-- **What the work on a command leaves:** a response through the slot, or all as it was. -/
theorem process_unsent (guard : PathGuard) (fs : FileSystem) (c : Command) :
    (Answerable guard c ∧ ∃ body files, process guard fs .unsent c =
      ⟨.ok ⟨⟨c.kind.operation, .response⟩, c.tag, body⟩, files, .sent⟩) ∨
    ∃ cause, Rejection guard c cause ∧
      process guard fs .unsent c = ⟨.error cause, fs, .unsent⟩ := by
  obtain ⟨hanswerable, body, files, hanswer⟩ | ⟨cause, hrejection, hanswer⟩ :=
    answer_cases guard fs c
  · refine .inl ⟨hanswerable, body, files, ?_⟩
    rw [process, hanswer]
    rfl
  · refine .inr ⟨cause, hrejection, ?_⟩
    rw [process, hanswer]

/-- **Rolling views report the paths that other requests are rejected for.** -/
theorem rollViewLog_reports_iff {fs' : FileSystem} {window : RollViewLogRequest}
    {request : Request} (hroll : request.operation ≠ .rollViewLog)
    (hpath : request.path = window.path) {tag tag' : Int64} {body body' : ByteArray}
    (hbody : Request.decode .rollViewLog body = .ok (.rollViewLog window))
    (hbody' : Request.decode request.operation body' = .ok request) :
    (∃ response view, (answer guard fs ⟨⟨.rollViewLog, .request⟩, tag, body⟩).1 = .ok response ∧
      Body.ofCommand response = .ok (view : RollViewLogResponse) ∧ view.status = .pathNotSecure) ↔
    (answer guard fs' ⟨⟨request.operation, .request⟩, tag', body'⟩).1 =
      .error (.illegalPath window.path) := by
  have hview (view : RollViewLogResponse) :
      Body.ofCommand ⟨⟨.rollViewLog, .response⟩, tag, Body.encode view⟩ = .ok view :=
    Body.ofCommand_encode (by decide) view tag
  rw [answer_of_decode guard fs hbody, answer_of_decode guard fs' hbody', hpath,
    if_pos (.inl rfl)]
  -- The response to the rolling view holds the window, whose status decides.
  have hleft : (∃ response view, Except.ok (ε := AnswerError)
      (Command.mk ⟨.rollViewLog, .response⟩ tag (serve guard fs (.rollViewLog window)).1.body) =
        .ok response ∧ Body.ofCommand response = .ok (view : RollViewLogResponse) ∧
        view.status = .pathNotSecure) ↔ guard.accepts window.path = false := by
    rw [← @status_fit_window_iff guard fs]
    constructor
    · rintro ⟨response, view, hresponse, hread, hstatus⟩
      cases hresponse
      rw [serve, Response.body, hview] at hread
      cases hread
      exact hstatus
    · intro hstatus
      exact ⟨_, _, rfl, hview _, hstatus⟩
  rw [hleft]
  cases guard.accepts window.path with
  | false =>
    rw [if_neg (not_or.mpr ⟨hroll, nofun⟩)]
    exact iff_of_true rfl rfl
  | true =>
    rw [if_pos (.inr rfl)]
    exact iff_of_false nofun nofun

/-- **A command is answered once or not at all.** With a fresh slot it is answered exactly if it is
answerable: one response goes through the slot, for the same operation and with the same tag. If it
is not, nothing goes through the slot, the files are left as they are, and the cause is the first
that applies. And a rolling view reports its path exactly if any other request for this path is
rejected, whatever the files are. -/
theorem process_once_or_rejected (guard : PathGuard) :
    (∀ fs c,
      let outcome := process guard fs .unsent c
      ((∃ response, outcome.result = .ok response) ↔ Answerable guard c) ∧
      (∀ response, outcome.result = .ok response →
        outcome.slot = .sent ∧ response.kind = ⟨c.kind.operation, .response⟩ ∧
          response.tag = c.tag) ∧
      ∀ cause, outcome.result = .error cause →
        Rejection guard c cause ∧ outcome.slot = .unsent ∧ outcome.files = fs) ∧
    ∀ fs fs' window request, request.operation ≠ .rollViewLog → request.path = window.path →
      ∀ tag tag' body body', Request.decode .rollViewLog body = .ok (.rollViewLog window) →
        Request.decode request.operation body' = .ok request →
        ((∃ response view,
            (process guard fs .unsent ⟨⟨.rollViewLog, .request⟩, tag, body⟩).result =
              .ok response ∧
            Body.ofCommand response = .ok (view : RollViewLogResponse) ∧
            view.status = .pathNotSecure) ↔
          (process guard fs' .unsent ⟨⟨request.operation, .request⟩, tag', body'⟩).result =
            .error (.illegalPath window.path)) := by
  refine ⟨fun fs c => ?_, ?_⟩
  · obtain ⟨hanswerable, body, files, hprocess⟩ | ⟨cause, hrejection, hprocess⟩ :=
      process_unsent guard fs c
    · rw [hprocess]
      refine ⟨iff_of_true ⟨_, rfl⟩ hanswerable, ?_, nofun⟩
      rintro _ ⟨⟩
      exact ⟨rfl, rfl, rfl⟩
    · rw [hprocess]
      refine ⟨iff_of_false nofun hrejection.not_answerable, nofun, ?_⟩
      rintro _ ⟨⟩
      exact ⟨hrejection, rfl, rfl⟩
  · intro fs fs' window request hroll hpath tag tag' body body' hbody hbody'
    simp only [process_unsent_result]
    exact rollViewLog_reports_iff hroll hpath hbody hbody'

/-- A rolling view reports a file outside the root, whose removal is rejected. -/
theorem process_once_or_rejected_passwd :
    let guard : PathGuard := ⟨"/logs"⟩
    let fs : FileSystem := ⟨[(["etc"], .directory), (["etc", "passwd"], .directory)], []⟩
    let window : RollViewLogRequest := ⟨"/etc/passwd", 0, 10⟩
    let request : Request := .removeTaskLog ⟨"/etc/passwd"⟩
    request.operation ≠ .rollViewLog ∧ request.path = window.path ∧
      Request.decode .rollViewLog (Body.encode window) = .ok (.rollViewLog window) ∧
      Request.decode request.operation request.body = .ok request ∧
      (process guard fs .unsent ⟨⟨request.operation, .request⟩, 8, request.body⟩).result =
        .error (.illegalPath "/etc/passwd") ∧
      ∃ response view,
        (process guard fs .unsent ⟨⟨.rollViewLog, .request⟩, 7, Body.encode window⟩).result =
          .ok response ∧
        Body.ofCommand response = .ok (view : RollViewLogResponse) ∧
        view.status = .pathNotSecure := by
  intro guard fs window request
  have hroll : request.operation ≠ .rollViewLog := by decide
  have hbody : Request.decode .rollViewLog (Body.encode window) = .ok (.rollViewLog window) :=
    congrArg (Functor.map _) (Body.decode_encode (by decide) window)
  have hbody' : Request.decode request.operation request.body = .ok request :=
    congrArg (Functor.map _) (Body.decode_encode (by decide) (RemoveTaskLogRequest.mk _))
  have hrejected : (process guard fs .unsent
      ⟨⟨request.operation, .request⟩, 8, request.body⟩).result =
        .error (.illegalPath "/etc/passwd") := by
    have hillegal : ¬ (request.operation = .rollViewLog ∨ guard.accepts request.path = true) := by
      decide +kernel
    rw [process_unsent_result, answer_of_decode guard fs hbody', if_neg hillegal]
    rfl
  exact ⟨hroll, rfl, hbody, hbody', hrejected,
    ((process_once_or_rejected guard).2 fs fs window request hroll rfl 7 8 _ _ hbody hbody').mpr
      hrejected⟩

end Worker

end RemoteLog
