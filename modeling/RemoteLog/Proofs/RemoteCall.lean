import RemoteLog.Proofs.Client.Exchange
import RemoteLog.Proofs.Worker.Serving

/-! # Remote calls and local calls

A client of a server gets what it would get from the log service if that were at hand, call by call
and whatever happened in the calls before. What holds between the calls is that the client has no
connection, or one on which nothing is left on either side.

* **`localCall guard fs request`**, **`localRun`** — calls with the service at hand.
* **`AtRest`**, **`Linked`** — the invariant of the server, and of the client with it.
* **`ask_linked`** — one call keeps the invariant and gives the local result.
* **`run_eq_localRun`** — any sequence of calls does. -/

namespace RemoteLog

open Message Worker

/-! ## Local calls -/

/-- **A call with the log service at hand:** the result, and the files afterwards. -/
def localCall (guard : PathGuard) (fs : FileSystem) (request : Request) :
    Except ClientError Response × FileSystem :=
  if request.body.size > maxBody then (.error (.protocol (.tooLarge request.body.size)), fs)
  else if needsLegalPath request && !guard.accepts request.path then (.error .connectionClosed, fs)
  else (.ok (serve guard fs request).1, (serve guard fs request).2)

/-- **A sequence of local calls.** -/
def localRun (guard : PathGuard) (fs : FileSystem) :
    List Request → List (Except ClientError Response) × FileSystem
  | [] => ([], fs)
  | request :: rest =>
    let (result, files) := localCall guard fs request
    let (results, last) := localRun guard files rest
    (result :: results, last)

/-- A call without a response changes no file. -/
theorem localCall_files_of_error {guard : PathGuard} {fs : FileSystem} {request : Request}
    {error : ClientError} (h : (localCall guard fs request).1 = .error error) :
    (localCall guard fs request).2 = fs := by
  unfold localCall at h ⊢
  split at h
  · next hsize => rw [if_pos hsize]
  · next hsize =>
    split at h
    · next hpath => rw [if_neg hsize, if_pos hpath]
    · cases h

theorem length_localRun (guard : PathGuard) (fs : FileSystem) (requests : List Request) :
    (localRun guard fs requests).1.length = requests.length := by
  induction requests generalizing fs with
  | nil => rfl
  | cons request rest ih => exact congrArg Nat.succ (ih _)

/-- A sequence of calls goes on with the files that its first part leaves. -/
theorem localRun_append (guard : PathGuard) (fs : FileSystem) (before after : List Request) :
    localRun guard fs (before ++ after) =
      ((localRun guard fs before).1 ++ (localRun guard (localRun guard fs before).2 after).1,
        (localRun guard (localRun guard fs before).2 after).2) := by
  induction before generalizing fs with
  | nil => rfl
  | cons request rest ih => simp only [List.cons_append, localRun, ih]

/-- **A call without a response might as well not have been made.** -/
theorem localRun_omit {guard : PathGuard} {fs : FileSystem} {before after : List Request}
    {request : Request} {error : ClientError}
    (h : (localRun guard fs (before ++ request :: after)).1[before.length]? =
      some (.error error)) :
    (localRun guard fs (before ++ after)).1 =
      (localRun guard fs (before ++ request :: after)).1.eraseIdx before.length := by
  have hlength := length_localRun guard fs before
  rw [localRun_append] at h ⊢
  rw [localRun_append]
  simp only [localRun] at h ⊢
  rw [List.getElem?_append_right (Nat.le_of_eq hlength), hlength, Nat.sub_self,
    List.getElem?_cons_zero] at h
  rw [List.eraseIdx_append_of_length_le (Nat.le_of_eq hlength), hlength, Nat.sub_self,
    List.eraseIdx_cons_zero, localCall_files_of_error (Option.some.inj h)]

/-! ## The invariant -/

section

variable {guard : PathGuard} {fs files : FileSystem} {s : Nat × Server Nat} {client : Client}

/-- **A server between two calls:** it has the given guard and files, and has not heard of
connections newer than the newest. -/
structure AtRest (guard : PathGuard) (fs : FileSystem) (s : Nat × Server Nat) : Prop where
  guard : s.2.guard = guard
  files : s.2.files = fs
  unheard : ∀ name, s.1 < name → s.2.connection name = .start

/-- **A client and a server between two calls:** the client has no connection, or one on which
nothing is left on either side. -/
structure Linked (guard : PathGuard) (fs : FileSystem) (client : Client) (s : Nat × Server Nat) :
    Prop extends AtRest guard fs s where
  idle : client.connection = none ∨
    client.connection = some .empty ∧ s.2.connection s.1 = .start

/-- A new connection starts empty. -/
theorem AtRest.dial (h : AtRest guard fs s) :
    ∃ s', Server.peer.dial s = (.ok (), s') ∧ AtRest guard fs s' ∧
      s'.2.connection s'.1 = .start := by
  have hconnection (name : Nat) (hname : s.1 < name) :
      (s.2.drop s.1).connection name = .start := by
    rw [Server.connection_drop, if_neg (Nat.ne_of_gt hname), h.unheard name hname]
  exact ⟨(s.1 + 1, s.2.drop s.1), rfl,
    ⟨h.guard, h.files, fun name hname => hconnection name (Nat.lt_of_succ_lt hname)⟩,
    hconnection _ (Nat.lt_succ_self _)⟩

/-- The server rests again once a request has been taken on an idle connection. -/
theorem AtRest.deliver (h : AtRest guard fs s) (hidle : s.2.connection s.1 = .start)
    {request : ByteArray} {connection : Connection}
    (hreceive : Connection.receive guard .start request fs = (connection, files)) :
    ∃ s', Server.peer.deliver s request = (⟨connection.written, connection.closed⟩, s') ∧
      AtRest guard files s' ∧
      s'.2.connection s'.1 = { connection with written := ByteArray.empty } := by
  have hreceive' : (s.2.connection s.1).receive s.2.guard request s.2.files =
      (connection, files) := by rw [hidle, h.guard, h.files, hreceive]
  obtain ⟨server, hdeliver, hguard, hfiles, hconnections⟩ := Server.peer_deliver hreceive'
  refine ⟨(s.1, server), hdeliver, ⟨hguard.trans h.guard, hfiles, fun name hname => ?_⟩, ?_⟩
  · rw [hconnections, if_neg (Nat.ne_of_gt hname), h.unheard name hname]
  · rw [hconnections, if_pos rfl]

/-! ## One exchange -/

/-- A linked client has an empty inbox for its next request, on an idle connection. -/
theorem Linked.reconnect (h : Linked guard fs client s) :
    ∃ s', client.reconnect Server.peer s = (.ok .empty, s') ∧ AtRest guard fs s' ∧
      s'.2.connection s'.1 = .start := by
  obtain hnone | ⟨hsome, hidle⟩ := h.idle
  · obtain ⟨s', hdial, hrest, hidle⟩ := h.toAtRest.dial
    exact ⟨s', by rw [Client.reconnect, hnone]; simp only [Client.dial, hdial], hrest, hidle⟩
  · exact ⟨s, by rw [Client.reconnect, hsome], h.toAtRest, hidle⟩

/-- **An answered command comes back to the client.** -/
theorem Linked.exchange_of_answer (h : Linked guard fs client s) {c response : Command}
    (hc : c.body.size ≤ maxBody) (hanswer : answer guard fs c = (.ok response, files)) :
    ∃ s', client.exchange Server.peer c s = (.ok (response, .empty), s') ∧
      AtRest guard files s' ∧ s'.2.connection s'.1 = .start := by
  obtain ⟨frame, hframe⟩ := Frame.exists_encode hc
  obtain ⟨htag, hfits⟩ := answer_fits (congrArg Prod.fst hanswer)
  obtain ⟨written, hwritten⟩ := Frame.exists_encode hfits
  obtain ⟨s₁, hreconnect, hrest, hidle⟩ := h.reconnect
  obtain ⟨s₂, hdeliver, hrest', hidle'⟩ :=
    hrest.deliver hidle (Connection.receive_of_answer hframe hanswer hwritten)
  refine ⟨s₂, ?_, hrest', hidle'⟩
  have hawait := Inbox.await_of_encode hwritten
  rw [htag] at hawait
  simp only [Client.exchange, hreconnect, hframe, Client.transmit, hdeliver, Inbox.empty,
    Bool.false_eq_true, if_false]
  exact congrArg (fun wait => (Client.settle client.timeout wait, s₂)) hawait

/-- **A rejected command ends the connection.** -/
theorem Linked.exchange_of_rejection (h : Linked guard fs client s) {c : Command}
    (hc : c.body.size ≤ maxBody) {cause : AnswerError}
    (hanswer : answer guard fs c = (.error cause, files)) :
    ∃ s', client.exchange Server.peer c s = (.error .connectionClosed, s') ∧
      AtRest guard files s' := by
  obtain ⟨frame, hframe⟩ := Frame.exists_encode hc
  obtain ⟨s₁, hreconnect, hrest, hidle⟩ := h.reconnect
  obtain ⟨s₂, hdeliver, hrest', -⟩ :=
    hrest.deliver hidle (Connection.receive_of_rejection hframe hanswer)
  refine ⟨s₂, ?_, hrest'⟩
  have hawait := Inbox.await_of_close c.tag
  simp only [Client.exchange, hreconnect, hframe, Client.transmit, hdeliver, Inbox.empty,
    Bool.false_eq_true, if_false]
  exact congrArg (fun wait => (Client.settle client.timeout wait, s₂)) hawait

/-! ## One call -/

/-- **A call of a linked client,** for any kind of request: `body` is the body of the request and
`response` the body of what the service responds. -/
theorem Linked.call {α β : Type} [Body α] [Body β] (h : Linked guard fs client s)
    (hdistinct : Body.Distinct β) {constructor : β → Response} {request : Request} {body : α}
    {response : β} (hkind : Body.kind α = ⟨request.operation, .request⟩)
    (hbody : Body.encode body = request.body)
    (hkind' : Body.kind β = ⟨request.operation, .response⟩)
    (hserve : (serve guard fs request).1 = constructor response)
    (hbody' : (constructor response).body = Body.encode response) :
    ∃ client' s', Client.wrap constructor (client.send β Server.peer body s) =
        ((localCall guard fs request).1, client', s') ∧
      Linked guard (localCall guard fs request).2 client' s' := by
  have hanswer := answer_request guard fs request client.nextTag
  rw [← hkind, ← hbody] at hanswer
  unfold localCall
  rw [← hbody]
  by_cases hsize : (Body.encode body).size > maxBody
  · -- Nothing is sent, and the connection is kept as it was.
    rw [Client.send_of_tooLarge hsize, if_pos hsize]
    exact ⟨_, s, rfl, h.toAtRest, h.idle⟩
  · have hfits := Nat.le_of_not_lt hsize
    rw [if_neg hsize]
    by_cases hpath : (needsLegalPath request && !guard.accepts request.path) = true
    · -- The server closes the connection, and the client gives it up.
      rw [if_pos hpath] at hanswer ⊢
      obtain ⟨s', hexchange, hrest⟩ := h.exchange_of_rejection hfits hanswer
      rw [Client.send_of_failure hfits hexchange]
      exact ⟨_, s', rfl, hrest, .inl rfl⟩
    · -- The answer comes back on a connection that is idle again.
      rw [if_neg hpath, ← hkind', hserve, hbody'] at hanswer
      rw [if_neg hpath]
      obtain ⟨s', hexchange, hrest, hidle⟩ := h.exchange_of_answer hfits hanswer
      rw [Client.send_of_answer hfits hdistinct hexchange, hserve]
      exact ⟨_, s', rfl, hrest, .inr ⟨rfl, hidle⟩⟩

/-- **One call of a linked client** gives the local result and leaves the local files. -/
theorem ask_linked (h : Linked guard fs client s) (request : Request) :
    ∃ client' s', client.ask Server.peer request s =
        ((localCall guard fs request).1, client', s') ∧
      Linked guard (localCall guard fs request).2 client' s' := by
  cases request with
  | getLogBytes body => exact h.call (by decide) rfl rfl rfl rfl rfl
  | viewWholeLog body => exact h.call (by decide) rfl rfl rfl rfl rfl
  | rollViewLog body => exact h.call (by decide) rfl rfl rfl rfl rfl
  | removeTaskLog body => exact h.call (by decide) rfl rfl rfl rfl rfl
  | getAppId body => exact h.call (by decide) rfl rfl rfl rfl rfl

/-! ## Any number of calls -/

/-- Any sequence of calls of a linked client gives the local results. -/
theorem run_linked (h : Linked guard fs client s) (requests : List Request) :
    ∃ client' s', client.run Server.peer s requests =
        ((localRun guard fs requests).1, client', s') ∧
      Linked guard (localRun guard fs requests).2 client' s' := by
  -- The invariant is `Linked`; the files of the server follow those of the local calls.
  induction requests generalizing fs client s with
  | nil => exact ⟨client, s, rfl, h⟩
  | cons request rest ih =>
    obtain ⟨client₁, s₁, hask, hlinked₁⟩ := ask_linked h request
    obtain ⟨client₂, s₂, hrun, hlinked₂⟩ := ih hlinked₁
    refine ⟨client₂, s₂, ?_, hlinked₂⟩
    simp only [Client.run, hask, hrun, localRun]

end

/-- **Remote calls are local calls.** A client is connected to a server with any guard and files.
Then any sequence of its calls has the results of the local calls, one by one, and leaves the files
that these leave. A call without a response has no influence on the results of the others. -/
theorem run_eq_localRun (guard : PathGuard) (fs : FileSystem) (address : String) :
    ∃ client s, Client.connect Server.peer address (0, ⟨guard, fs, []⟩) = (.ok client, s) ∧
      ∀ (timeout : Nat) (requests : List Request),
        let run := Client.run Server.peer { client with timeout := timeout } s
        (run requests).1 = (localRun guard fs requests).1 ∧
        (run requests).2.2.2.files = (localRun guard fs requests).2 ∧
        ∀ before request after error, requests = before ++ request :: after →
          (run requests).1[before.length]? = some (.error error) →
          (run (before ++ after)).1 = (run requests).1.eraseIdx before.length := by
  have hrest : AtRest guard fs (0, (⟨guard, fs, []⟩ : Server Nat)) :=
    ⟨rfl, rfl, fun _ _ => rfl⟩
  obtain ⟨s, hdial, hrest, hidle⟩ := hrest.dial
  refine ⟨⟨address, Client.defaultTimeout, 1, some .empty⟩, s, ?_, fun timeout requests => ?_⟩
  · simp only [Client.connect, Client.dial, hdial]
  · have hlinked : Linked guard fs ⟨address, timeout, 1, some .empty⟩ s :=
      ⟨hrest, .inr ⟨rfl, hidle⟩⟩
    have hresults (requests : List Request) :
        (Client.run Server.peer ⟨address, timeout, 1, some .empty⟩ s requests).1 =
          (localRun guard fs requests).1 := by
      obtain ⟨client', s', hrun, -⟩ := run_linked hlinked requests
      rw [hrun]
    refine ⟨hresults requests, ?_, ?_⟩
    · obtain ⟨client', s', hrun, hlinked'⟩ := run_linked hlinked requests
      dsimp only
      rw [hrun, hlinked'.files]
    · rintro before request after error rfl herror
      -- Both runs are local runs, where a call without a response leaves the files.
      dsimp only at herror ⊢
      rw [hresults] at herror ⊢
      rw [hresults]
      exact localRun_omit herror

end RemoteLog
