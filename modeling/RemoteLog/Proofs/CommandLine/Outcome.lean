import RemoteLog.CommandLine.Run
import RemoteLog.Proofs.Client.Call
import RemoteLog.Proofs.FileSystem.Writing
import RemoteLog.Proofs.RemoteCall

/-! # The outcome of a command line

An invocation makes one connection and one call. Its exit status tells whether both went well and
the response is what the user asked for. Of all actions only a download touches a local file, and
only when the call has given it the bytes.

* **`Action.request`** — the call of an action; **`Invocation.Answered`** — the response it gets.
* **`Action.Satisfied`** — which responses are a success to the user.
* **`Action.exists_perform_iff`** — an action has an effect that can be carried out just if it is
  satisfied.
* **`Setting`** — where a command line runs: apart from the worker, or on the files of a server.
* **`run_outcome`** — the exit status and the local files of any command line that is run. -/

namespace RemoteLog

open Message

namespace CommandLine

variable {σ : Type}

/-! ## What an action asks for -/

/-- **The call of an action.** -/
def Action.request : Action → Request
  | .view path => .viewWholeLog ⟨path⟩
  | .roll path skip limit => .rollViewLog ⟨path, skip, limit⟩
  | .download path _ => .getLogBytes ⟨path⟩
  | .remove path => .removeTaskLog ⟨path⟩
  | .applicationIds path => .getAppId ⟨path⟩

/-- **A response is a success to the user:** a window has to be read, a log to be removed, and what is
downloaded to be written to a local file. -/
def Action.Satisfied (fs : FileSystem) : Action → Response → Prop
  | .view _, .viewWholeLog _ => True
  | .roll _ _ _, .rollViewLog window => window.status = .ok
  | .download _ output, .getLogBytes body => ∃ fs', fs.writeFile output body.bytes = .ok fs'
  | .remove _, .removeTaskLog body => body.status = true
  | .applicationIds _, .getAppId _ => True
  | _, _ => False

/-- **An invocation is answered:** the connection is opened, and the call on it returns a response. -/
def Invocation.Answered (invocation : Invocation) (peer : Peer σ) (s : σ) (response : Response) :
    Prop :=
  ∃ client s', Client.connect peer invocation.worker s = (.ok client, s') ∧
    (Client.ask peer { client with timeout := 1000 * invocation.timeout }
      invocation.action.request s').1 = .ok response

/-- A download is satisfied by bytes only. -/
theorem Action.exists_bytes_of_satisfied {fs : FileSystem} {path output : String}
    {response : Response} (h : (Action.download path output).Satisfied fs response) :
    ∃ body, response = .getLogBytes body := by
  cases response with
  | getLogBytes body => exact ⟨body, rfl⟩
  | viewWholeLog | rollViewLog | removeTaskLog | getAppId => exact h.elim

/-! ## Effects -/

section

variable {β : Type} {result : Except ClientError β × Client × σ}

theorem called_state (then_ : β → Except Failure Effect) :
    (called then_ result).2 = result.2.2 := by
  obtain ⟨_ | _, _, _⟩ := result <;> rfl

theorem wrap_state (constructor : β → Response) :
    (Client.wrap constructor result).2 = result.2 := by
  obtain ⟨_ | _, _, _⟩ := result <;> rfl

/-- **A call that is followed by an effect** does what was asked for just if its response satisfies
the action, provided that this holds of every body. -/
theorem exists_perform_called {colours : Bool} {fs : FileSystem} {action : Action}
    {then_ : β → Except Failure Effect} {constructor : β → Response}
    (h : ∀ body, (∃ done, (then_ body >>= fun effect => effect.perform colours fs) = .ok done) ↔
      action.Satisfied fs (constructor body)) :
    (∃ done, ((called then_ result).1 >>= fun effect => effect.perform colours fs) = .ok done) ↔
      ∃ response, (Client.wrap constructor result).1 = .ok response ∧
        action.Satisfied fs response := by
  obtain ⟨error | body, client, s⟩ := result
  · constructor
    · rintro ⟨done, hdone⟩
      cases hdone
    · rintro ⟨response, hresponse, -⟩
      cases hresponse
  · refine (h body).trans ⟨fun hbody => ⟨_, rfl, hbody⟩, ?_⟩
    rintro ⟨response, hresponse, hsatisfied⟩
    cases hresponse
    exact hsatisfied

end

variable {colours : Bool} {peer : Peer σ} {s : σ} {fs : FileSystem} {invocation : Invocation}

/-- **An action makes its one call,** and leaves the worker in the state behind that. -/
theorem Action.effect_state (colours : Bool) (peer : Peer σ) (client : Client) (s : σ)
    (action : Action) :
    (action.effect colours peer client s).2 = (client.ask peer action.request s).2.2 := by
  cases action with
  | view | roll | download | remove | applicationIds =>
    simp only [Action.effect, Action.request, Client.ask, called_state, wrap_state]

/-- A text can always be printed. -/
theorem exists_perform_print (colours : Bool) (fs : FileSystem) (text : String) :
    ∃ done, (Except.ok (Effect.print text) >>= fun effect => effect.perform colours fs) =
      .ok done := ⟨(text, fs), rfl⟩

/-- Bytes are saved just if they can be written. -/
theorem perform_save_eq_ok_iff {output : String} {bytes : ByteArray} {done : String × FileSystem} :
    (Except.ok (Effect.save output bytes) >>= fun effect => effect.perform colours fs) = .ok done ↔
      done.1 = savedText colours output bytes.size ∧ fs.writeFile output bytes = .ok done.2 := by
  obtain ⟨text, files⟩ := done
  simp only [bind, Except.bind, Effect.perform]
  cases fs.writeFile output bytes with
  | error cause => simp
  | ok fs' => simp [eq_comm]

/-- **An action has an effect that can be carried out** just if its call returns a response that
satisfies it. -/
theorem Action.exists_perform_iff (colours : Bool) (peer : Peer σ) (client : Client) (s : σ)
    (fs : FileSystem) (action : Action) :
    (∃ done, ((action.effect colours peer client s).1 >>= fun effect =>
        effect.perform colours fs) = .ok done) ↔
      ∃ response, (client.ask peer action.request s).1 = .ok response ∧
        action.Satisfied fs response := by
  cases action with
  | view path | applicationIds path =>
    exact exists_perform_called fun body => iff_of_true (exists_perform_print ..) trivial
  | roll path skip limit =>
    refine exists_perform_called fun window => ?_
    by_cases hstatus : window.status = .ok
    · have hok : window.isOk = true := decide_eq_true hstatus
      simp only [if_pos hok]
      exact iff_of_true (exists_perform_print ..) hstatus
    · have hok : ¬ window.isOk = true := by simpa [RollViewLogResponse.isOk] using hstatus
      simp only [if_neg hok]
      exact iff_of_false nofun hstatus
  | download path output =>
    refine exists_perform_called fun body => ⟨?_, ?_⟩
    · rintro ⟨done, hdone⟩
      exact ⟨done.2, (perform_save_eq_ok_iff.mp hdone).2⟩
    · rintro ⟨fs', hwrite⟩
      exact ⟨(_, fs'), perform_save_eq_ok_iff.mpr ⟨rfl, hwrite⟩⟩
  | remove path =>
    refine exists_perform_called fun body => ?_
    by_cases hstatus : body.status = true
    · simp only [if_pos hstatus]
      exact iff_of_true (exists_perform_print ..) hstatus
    · simp only [if_neg hstatus]
      exact iff_of_false nofun hstatus

/-- **The effect of an invocation** can be carried out just if it is answered with a response that
satisfies it. -/
theorem Invocation.exists_perform_iff (colours : Bool) (peer : Peer σ) (s : σ) (fs : FileSystem)
    (invocation : Invocation) :
    (∃ done, ((invocation.effect colours peer s).1 >>= fun effect =>
        effect.perform colours fs) = .ok done) ↔
      ∃ response, invocation.Answered peer s response ∧
        invocation.action.Satisfied fs response := by
  unfold Invocation.effect Invocation.Answered
  cases hconnect : Client.connect peer invocation.worker s with
  | mk connected s' =>
    cases connected with
    | error error =>
      refine iff_of_false nofun ?_
      rintro ⟨response, ⟨client, s'', hclient, -⟩, -⟩
      cases hclient
    | ok client =>
      refine (Action.exists_perform_iff ..).trans ⟨?_, ?_⟩
      · rintro ⟨response, hask, hsatisfied⟩
        exact ⟨response, ⟨client, s', rfl, hask⟩, hsatisfied⟩
      · rintro ⟨response, ⟨client', s'', hclient, hask⟩, hsatisfied⟩
        cases hclient
        exact ⟨response, hask, hsatisfied⟩

/-- **What a download has got** is what it saves. -/
theorem Invocation.effect_of_download {path output : String}
    (haction : invocation.action = .download path output) {body : GetLogBytesResponse}
    (h : invocation.Answered peer s (.getLogBytes body)) (colours : Bool) :
    (invocation.effect colours peer s).1 = .ok (.save output body.bytes) := by
  obtain ⟨client, s', hconnect, hask⟩ := h
  rw [haction] at hask
  unfold Invocation.effect
  rw [hconnect, haction]
  simp only [Action.request, Client.ask] at hask
  simp only [Action.effect]
  revert hask
  generalize Client.send GetLogBytesResponse peer _ (GetLogBytesRequest.mk path) s' = result
  obtain ⟨error | received, rest⟩ := result
  · intro hask
    cases hask
  · intro hask
    cases hask
    rfl

/-! ## Reports -/

/-- **A report tells of success** just if the effect has been carried out. A report of a failure shows
the files as they were. -/
theorem conclude_cases (colours : Bool) (fs : FileSystem) (result : Except Failure Effect) :
    (∃ done, (result >>= fun effect => effect.perform colours fs) = .ok done ∧
      (conclude colours fs result).exit = 0 ∧ (conclude colours fs result).files = done.2) ∨
    ((∀ done, (result >>= fun effect => effect.perform colours fs) ≠ .ok done) ∧
      (conclude colours fs result).exit = 1 ∧ (conclude colours fs result).files = fs) := by
  unfold conclude
  cases hresult : result >>= fun effect => effect.perform colours fs with
  | ok done => exact .inl ⟨done, rfl, rfl, rfl⟩
  | error failure => exact .inr ⟨nofun, rfl, rfl⟩

/-! ## Local files -/

section

variable {guard : PathGuard} {server : Nat × Worker.Server Nat}

/-- Only a removal changes files. -/
theorem localCall_files {request : Request} (h : request.operation ≠ .removeTaskLog) :
    (localCall guard fs request).2 = fs := by
  unfold localCall
  split
  · rfl
  · split
    · rfl
    · cases request with
      | removeTaskLog body => exact absurd rfl h
      | getLogBytes | viewWholeLog | rollViewLog | getAppId => rfl

/-- A client that has a connection does not look for the way to the worker again. -/
theorem ask_reachedFrom (peer : Peer σ) (host : Network.Host) (place address : String)
    (client : Client) {inbox : Inbox} (hclient : client.connection = some inbox)
    (request : Request) (s : σ) :
    client.ask (peer.reachedFrom host place address) request s = client.ask peer request s := by
  have hexchange (c : Command) :
      client.exchange (peer.reachedFrom host place address) c s = client.exchange peer c s := by
    simp only [Client.exchange, Client.reconnect, hclient]
    rfl
  rw [Client.ask_eq, Client.ask_eq, hexchange]

/-- A peer behind a network is not reached, and then it stays as it was, or it is reached. -/
theorem dial_reachedFrom (peer : Peer σ) (host : Network.Host) (place address : String) (s : σ) :
    (∃ cause, (peer.reachedFrom host place address).dial s = (.error cause, s)) ∨
      (peer.reachedFrom host place address).dial s = peer.dial s := by
  unfold Peer.reachedFrom
  cases host.connect address with
  | error cause => exact .inl ⟨cause, rfl⟩
  | ok reached =>
    cases hplace : host.standsFor place reached with
    | false => exact .inl ⟨.connectionRefused, by simp [Peer.absent, hplace]⟩
    | true => exact .inr (by simp [hplace])

/-- A server behind a network is not reached, or it is linked to its client. -/
theorem connect_reachedFrom (h : AtRest guard fs server) (host : Network.Host)
    (place address worker : String) :
    (∃ error, Client.connect (Worker.Server.peer.reachedFrom host place address) worker server =
        (.error error, server)) ∨
      ∃ client server', Client.connect (Worker.Server.peer.reachedFrom host place address) worker
          server = (.ok client, server') ∧ client.connection = some .empty ∧
        ∀ timeout, Linked guard fs { client with timeout := timeout } server' := by
  obtain ⟨server', hdial, hrest, hidle⟩ := h.dial
  obtain ⟨cause, hlost⟩ | hreached :=
    dial_reachedFrom Worker.Server.peer host place address server
  · exact .inl ⟨.connect worker cause, by simp only [Client.connect, Client.dial, hlost]⟩
  · refine .inr ⟨⟨worker, Client.defaultTimeout, 1, some .empty⟩, server', ?_, rfl, fun timeout => ?_⟩
    · simp only [Client.connect, Client.dial, hreached, hdial]
    · exact ⟨hrest, .inr ⟨rfl, hidle⟩⟩

/-- **A server keeps its files** when a client asks for anything but a removal. -/
theorem files_of_reading (h : AtRest guard fs server) (host : Network.Host)
    (place address : String) (colours : Bool)
    (hrequest : invocation.action.request.operation ≠ .removeTaskLog) :
    (invocation.effect colours (Worker.Server.peer.reachedFrom host place address) server).2.2.files =
      fs := by
  unfold Invocation.effect
  obtain ⟨error, hconnect⟩ | ⟨client, server', hconnect, hopen, hlinked⟩ :=
    connect_reachedFrom h host place address invocation.worker
  · rw [hconnect]
    exact h.files
  · obtain ⟨client', server'', hask, hlinked'⟩ :=
      ask_linked (hlinked (1000 * invocation.timeout)) invocation.action.request
    have hsame := ask_reachedFrom Worker.Server.peer host place address
      { client with timeout := 1000 * invocation.timeout } hopen invocation.action.request server'
    rw [hconnect]
    dsimp only
    rw [Action.effect_state, hsame, hask, hlinked'.files, localCall_files hrequest]

end

/-- **Where a command line runs:** who listens at which address, and which files are local. -/
inductive Setting : {σ : Type} → (String → Peer σ) → (σ → FileSystem) → σ → Prop where
  /-- The local files are out of reach of the workers, whatever these do. -/
  | apart {σ : Type} (peer : String → Peer σ) (fs : FileSystem) (s : σ) : Setting peer (fun _ => fs) s
  /-- A server listens at a place, on the files that are the local files, too. -/
  | beside (host : Network.Host) (place : String) {s : Nat × Worker.Server Nat}
      (h : AtRest s.2.guard s.2.files s) :
      Setting (fun address => Worker.Server.peer.reachedFrom host place address)
        (fun s => s.2.files) s

/-- The local files are as before when the worker has answered anything but a removal. -/
theorem Setting.files_effect {peer : String → Peer σ} {localFiles : σ → FileSystem}
    (h : Setting peer localFiles s) (colours : Bool)
    (hrequest : invocation.action.request.operation ≠ .removeTaskLog) :
    localFiles (invocation.effect colours (peer invocation.worker) s).2 = localFiles s := by
  cases h with
  | apart => rfl
  | beside host place hrest => exact files_of_reading hrest host place _ colours hrequest

/-- Whether a response satisfies an action does not depend on what the worker has done. -/
theorem Setting.satisfied_iff {peer : String → Peer σ} {localFiles : σ → FileSystem}
    (h : Setting peer localFiles s) (colours : Bool) (response : Response) :
    invocation.action.Satisfied
        (localFiles (invocation.effect colours (peer invocation.worker) s).2) response ↔
      invocation.action.Satisfied (localFiles s) response := by
  by_cases hrequest : invocation.action.request.operation = .removeTaskLog
  · -- A removal has nothing to do with local files.
    cases haction : invocation.action with
    | remove path => cases response <;> rfl
    | view | roll | download | applicationIds =>
      rw [haction] at hrequest
      cases hrequest
  · rw [h.files_effect colours hrequest]

/-! ## Command lines that are run -/

theorem run_eq {lookup : String → Option String} {peer : String → Peer σ}
    {localFiles : σ → FileSystem} {arguments : List String}
    (hparse : parse lookup arguments = .run invocation) :
    (run lookup peer localFiles arguments s).1 =
      conclude (coloursWanted lookup)
        (localFiles (invocation.effect (coloursWanted lookup) (peer invocation.worker) s).2)
        (invocation.effect (coloursWanted lookup) (peer invocation.worker) s).1 := by
  simp only [run, hparse]

/-- **The outcome follows the exchange.** An invocation is run apart from its worker, which may be any
peer, or beside a server on the same files. Its exit status is 0 if the connection is opened and the
call on it returns a response that satisfies the action; otherwise it is 1. If a download gets no
bytes, all local files are as before. If it gets them and the exit status is 0, they have been saved in
the file that the user named, and nothing else has changed. -/
theorem run_outcome {lookup : String → Option String} {peer : String → Peer σ}
    {localFiles : σ → FileSystem} {arguments : List String} (hsetting : Setting peer localFiles s)
    (hparse : parse lookup arguments = .run invocation) :
    let report := (run lookup peer localFiles arguments s).1
    let Answered := invocation.Answered (peer invocation.worker) s
    (report.exit = 0 ↔
      ∃ response, Answered response ∧ invocation.action.Satisfied (localFiles s) response) ∧
    (report.exit = 0 ∨ report.exit = 1) ∧
    ∀ path output, invocation.action = .download path output →
      ((∀ body, ¬ Answered (.getLogBytes body)) → report.files = localFiles s) ∧
      ∀ body, Answered (.getLogBytes body) → report.exit = 0 →
        (localFiles s).Saved output body.bytes report.files := by
  dsimp only
  rw [run_eq hparse]
  generalize hcolours : coloursWanted lookup = colours
  have hiff := Invocation.exists_perform_iff colours (peer invocation.worker) s
    (localFiles (invocation.effect colours (peer invocation.worker) s).2) invocation
  simp only [hsetting.satisfied_iff] at hiff
  obtain ⟨done, hdone, hexit, hfiles⟩ | ⟨hnone, hexit, hfiles⟩ := conclude_cases colours
    (localFiles (invocation.effect colours (peer invocation.worker) s).2)
    (invocation.effect colours (peer invocation.worker) s).1
  · -- The effect has been carried out.
    obtain ⟨response, hanswered, hsatisfied⟩ := hiff.mp ⟨done, hdone⟩
    refine ⟨iff_of_true hexit ⟨response, hanswered, hsatisfied⟩, .inl hexit, ?_⟩
    intro path output haction
    refine ⟨fun hnobytes => ?_, fun body hbody _ => ?_⟩
    · obtain ⟨body, rfl⟩ := Action.exists_bytes_of_satisfied (haction ▸ hsatisfied)
      exact absurd hanswered (hnobytes body)
    · rw [Invocation.effect_of_download haction hbody] at hdone
      rw [hfiles, ← hsetting.files_effect colours (by rw [haction]; exact nofun)]
      exact FileSystem.saved_of_writeFile (perform_save_eq_ok_iff.mp hdone).2
  · -- It has not, and no file has changed.
    refine ⟨iff_of_false (by rw [hexit]; decide) fun hanswer => ?_, .inr hexit, ?_⟩
    · obtain ⟨done, hdone⟩ := hiff.mpr hanswer
      exact hnone done hdone
    · intro path output haction
      refine ⟨fun _ => ?_, fun body _ hzero => ?_⟩
      · rw [hfiles, hsetting.files_effect colours (by rw [haction]; exact nofun)]
      · rw [hexit] at hzero
        cases hzero

/-- A log of a worker on another host is saved over a local file. -/
theorem run_outcome_download :
    let arguments := ["download", "/logs/a.log", "-o", "/logs/a.log"]
    let files := FileSystem.oneLog (.ofBytes "old".toUTF8)
    let server : Nat × Worker.Server Nat :=
      (0, ⟨⟨"/logs"⟩, FileSystem.oneLog (.ofBytes "new".toUTF8), []⟩)
    let report := (run (fun _ => none) (fun _ => Worker.Server.peer) (fun _ => files) arguments
      server).1
    report.exit = 0 ∧ files.Saved "/logs/a.log" "new".toUTF8 report.files := by
  intro arguments files server report
  have hparse : parse (fun _ => none) arguments =
      .run ⟨defaultWorker, defaultTimeout, .download "/logs/a.log" "/logs/a.log"⟩ := by
    decide +kernel
  have hbytes : Log.bytes server.2.files "/logs/a.log" = "new".toUTF8 := by
    simp only [Log.bytes, FileSystem.openFile, server, FileSystem.resolve_oneLog]
    rfl
  have hcall : (localCall ⟨"/logs"⟩ server.2.files (.getLogBytes ⟨"/logs/a.log"⟩)).1 =
      .ok (.getLogBytes ⟨"new".toUTF8⟩) := by
    rw [localCall, if_neg (by decide +kernel), if_neg (by decide +kernel), Worker.serve, hbytes,
      Worker.fit, if_neg (by decide +kernel)]
  -- The client is linked to the server, so its call has the result of the local one.
  have hrest : AtRest ⟨"/logs"⟩ server.2.files server := ⟨rfl, rfl, fun _ _ => rfl⟩
  obtain ⟨server', hdial, hrest', hidle⟩ := hrest.dial
  have hlinked : Linked ⟨"/logs"⟩ server.2.files
      ⟨defaultWorker, 1000 * defaultTimeout, 1, some .empty⟩ server' := ⟨hrest', .inr ⟨rfl, hidle⟩⟩
  obtain ⟨client', server'', hask, -⟩ := ask_linked hlinked (.getLogBytes ⟨"/logs/a.log"⟩)
  have hanswered : Invocation.Answered
      ⟨defaultWorker, defaultTimeout, .download "/logs/a.log" "/logs/a.log"⟩ Worker.Server.peer
      server (.getLogBytes ⟨"new".toUTF8⟩) := by
    refine ⟨⟨defaultWorker, Client.defaultTimeout, 1, some .empty⟩, server', ?_, ?_⟩
    · simp only [Client.connect, Client.dial, hdial]
    · exact (congrArg Prod.fst hask).trans hcall
  obtain ⟨fs', hwrite, -⟩ := (FileSystem.holds_oneLog "old".toUTF8).changeFile fun _ => "new".toUTF8
  obtain ⟨hexit, -, hdownload⟩ := run_outcome (.apart (fun _ => Worker.Server.peer) files server)
    hparse
  have hzero : report.exit = 0 := hexit.mpr ⟨_, hanswered, fs', hwrite⟩
  exact ⟨hzero, (hdownload _ _ rfl).2 _ hanswered hzero⟩

end CommandLine

end RemoteLog
