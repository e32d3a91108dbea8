import RemoteLog.Client.Script
import RemoteLog.Proofs.Client.Exchange
import RemoteLog.Proofs.Client.Record
import RemoteLog.Proofs.Frame.Boundary
import RemoteLog.Proofs.Worker.Answer

/-! # A client stays in step with its connection

A client that has a connection stands between two frames of it. An exchange leaves it there if it
ends with a frame; whatever else it ends with, the client gives the connection up. So a client never
takes the middle of a frame for its start, as long as what it is sent are frames, wherever they are
cut.

* **`Client.InStep client record`** — the client has no connection, or has read whole frames of the
  bytes that were sent on it.
* **`Client.Expected request error`** — an error that does not come from bytes out of step.
* **`Client.exchange_inStep`**, **`ask_inStep`** — one exchange and one call.
* **`Client.run_inStep`** — any sequence of calls. -/

namespace RemoteLog

open Message

namespace Inbox

variable {inbox inbox' rest : Inbox} {record : List ByteArray} {tag : Int64} {i : Nat} {c : Command}

/-! ## Waiting -/

/-- **A frame that was found stands behind whole frames,** and so does what follows it. -/
theorem awaitFrom_found (hi : Frame.AtBoundary inbox.unread i)
    (h : inbox.awaitFrom tag i = .found c rest) :
    ∃ cs front, Frame.encodeAll cs = .ok front ∧ inbox.unread = front ++ rest.unread := by
  fun_induction awaitFrom inbox tag i with
  | case1 | case2 | case3 | case4 | case5 => cases h
  | case6 i d next hread htag =>
    cases h
    obtain ⟨cs, front, after, hcs, hsplit, rfl⟩ := hi.of_frame hread
    refine ⟨cs, front, hcs, ?_⟩
    dsimp only
    rw [hsplit, ByteArray.size_append, ByteArray.extract_append_eq_right rfl rfl]
  | case7 i d next hread htag ih => exact ih (hi.of_frame hread) h

/-- **What is unreadable is only cut short,** if nothing but its end damages the stream. -/
theorem awaitFrom_unreadable (hcut : Frame.Cut inbox.unread)
    (hi : Frame.AtBoundary inbox.unread i) {error : ProtocolError}
    (h : inbox.awaitFrom tag i = .unreadable error) : ∃ cause, error = .stream cause := by
  fun_induction awaitFrom inbox tag i with
  | case1 | case2 | case4 | case6 => cases h
  | case3 i cause _ hread hended =>
    cases h
    exact ⟨cause, rfl⟩
  | case5 i error' _ hne hread =>
    cases h
    exact hcut error (hi.error_readAll hread)
  | case7 i d next hread htag ih => exact ih (hi.of_frame hread) h

/-- **An inbox between two frames** of what was sent on the newest connection. -/
def InStep (inbox : Inbox) (record : List ByteArray) : Prop :=
  ∃ sent older cs front, record = sent :: older ∧ Frame.encodeAll cs = .ok front ∧
    sent = front ++ inbox.unread

theorem inStep_empty (record : List ByteArray) : empty.InStep (ByteArray.empty :: record) :=
  ⟨_, record, [], ByteArray.empty, rfl, rfl, ByteArray.empty_append.symm⟩

/-- What arrives stands behind what has arrived. -/
theorem InStep.add (h : inbox.InStep record) (delivery : Delivery) :
    (inbox.add delivery).InStep (Peer.addToNewest delivery.bytes record) := by
  obtain ⟨sent, older, cs, front, rfl, hcs, rfl⟩ := h
  exact ⟨_, older, cs, front, rfl, hcs, ByteArray.append_assoc⟩

/-- **Waiting keeps an inbox in step,** unless nothing is found. -/
theorem InStep.found (h : inbox.InStep record) (hfound : inbox.await tag = .found c rest) :
    rest.InStep record := by
  obtain ⟨sent, older, cs, front, hrecord, hcs, rfl⟩ := h
  obtain ⟨ds, more, hds, hunread⟩ := awaitFrom_found (Frame.atBoundary_zero _) hfound
  refine ⟨_, older, cs ++ ds, front ++ more, hrecord, Frame.encodeAll_append hcs hds, ?_⟩
  rw [hunread, ByteArray.append_assoc]

/-- **An inbox in step with frames never reads a bad field.** -/
theorem InStep.unreadable (h : inbox.InStep record) (hframes : ∀ sent ∈ record, Frame.Begun sent)
    {error : ProtocolError} (hunreadable : inbox.await tag = .unreadable error) :
    ∃ cause, error = .stream cause := by
  obtain ⟨sent, older, cs, front, rfl, hcs, rfl⟩ := h
  have hcut := (Frame.cut_frames_append_iff hcs).mp (hframes _ List.mem_cons_self).cut
  exact awaitFrom_unreadable hcut (Frame.atBoundary_zero _) hunreadable

end Inbox

/-- A scripted frame is the start of a frame, wherever it is cut. -/
theorem Script.begun_frameOf (c : Command) (cut : Option Nat) : Frame.Begun (frameOf c cut) := by
  unfold frameOf
  cases hc : Frame.encode c with
  | error error => exact ⟨[], ByteArray.empty, rfl, List.prefix_rfl⟩
  | ok frame =>
    have hframe := Frame.encodeAll_singleton hc
    cases cut with
    | none => exact ⟨[c], frame, hframe, List.prefix_rfl⟩
    | some n =>
      refine ⟨[c], frame, hframe, ?_⟩
      rw [Bytes.toList_extract]
      exact List.take_prefix n _

/-- Whole frames may stand in front. -/
theorem Script.begun_frameOf_append (c : Command) {s : ByteArray} (h : Frame.Begun s) :
    Frame.Begun (frameOf c none ++ s) := by
  unfold frameOf
  obtain ⟨cs, whole, hcs, hwhole⟩ := h
  cases hc : Frame.encode c with
  | error error =>
    dsimp only
    rw [ByteArray.empty_append]
    exact ⟨cs, whole, hcs, hwhole⟩
  | ok frame =>
    refine ⟨c :: cs, frame ++ whole,
      Frame.encodeAll_cons_eq_ok_iff.mpr ⟨frame, whole, hc, hcs, rfl⟩, ?_⟩
    simpa using hwhole

/-- Frames that were begun in the end were begun before. -/
theorem Peer.recorded_begun {σ : Type} (peer : Peer σ) :
    peer.recorded.Moves fun s s' =>
      (∀ sent ∈ s'.2, Frame.Begun sent) → ∀ sent ∈ s.2, Frame.Begun sent where
  refl _ hframes := hframes
  trans h h' hframes := h (h' hframes)
  dial s hframes sent hsent := by
    refine hframes sent ?_
    unfold recorded
    dsimp only
    split
    · exact hsent
    · exact List.mem_cons_of_mem _ hsent
  deliver s request hframes sent hsent := by
    obtain ⟨s, record⟩ := s
    cases hsent with
    | head older =>
      -- The newest connection may have got more bytes.
      refine (hframes _ List.mem_cons_self).mono ?_
      rw [Bytes.toList_append]
      exact List.prefix_append _ _
    | tail newest hsent => exact hframes sent (List.mem_cons_of_mem _ hsent)

namespace Client

variable {σ : Type} {peer : Peer σ} {client client' : Client} {s s' : σ}
  {record record' : List ByteArray}

/-! ## One exchange -/

/-- **A client in step:** it has no connection, or has read whole frames of what was sent on it. -/
def InStep (client : Client) (record : List ByteArray) : Prop :=
  client.connection = none ∨ ∃ inbox, client.connection = some inbox ∧ inbox.InStep record

/-- A connection is kept in step, or opened anew. -/
theorem reconnect_inStep (h : client.InStep record) {result : Except ClientError Inbox}
    (hreconnect : client.reconnect peer.recorded (s, record) = (result, s', record')) :
    (∀ inbox, result = .ok inbox → inbox.InStep record') ∧
      ∀ error, result ≠ .error (.protocol error) := by
  obtain hnone | ⟨inbox, hsome, hinbox⟩ := h
  · simp only [reconnect, hnone, dial, Peer.recorded] at hreconnect
    match hdial : peer.dial s with
    | (.ok (), next) =>
      rw [hdial] at hreconnect
      cases hreconnect
      refine ⟨?_, nofun⟩
      rintro _ ⟨⟩
      exact Inbox.inStep_empty record
    | (.error cause, next) =>
      rw [hdial] at hreconnect
      cases hreconnect
      exact ⟨nofun, nofun⟩
  · simp only [reconnect, hsome] at hreconnect
    cases hreconnect
    refine ⟨?_, nofun⟩
    rintro _ ⟨⟩
    exact hinbox

/-- Sending a request keeps an inbox in step with what comes back. -/
theorem transmit_inStep {inbox inbox' : Inbox} (h : inbox.InStep record) {frame : ByteArray}
    (htransmit : transmit peer.recorded inbox frame (s, record) = (inbox', s', record')) :
    inbox'.InStep record' := by
  unfold transmit at htransmit
  split at htransmit
  · cases htransmit
    exact h
  · cases htransmit
    exact h.add _

/-- What was found is in step, and what was unreadable is cut short. -/
theorem settle_inStep {inbox : Inbox} (h : inbox.InStep record)
    (hframes : ∀ sent ∈ record, Frame.Begun sent) (timeout : Nat) (tag : Int64) :
    (∀ response rest, settle timeout (inbox.await tag) = .ok (response, rest) →
      rest.InStep record) ∧
    ∀ error, settle timeout (inbox.await tag) = .error (.protocol error) →
      ∃ cause, error = .stream cause := by
  cases hwait : inbox.await tag with
  | found c rest =>
    refine ⟨?_, nofun⟩
    rintro _ _ ⟨⟩
    exact h.found hwait
  | more | ended => exact ⟨nofun, nofun⟩
  | unreadable error =>
    refine ⟨nofun, ?_⟩
    rintro _ ⟨⟩
    exact h.unreadable hframes hwait

/-- **One exchange** that ends with a frame ends between two frames; if it ends with bytes that are
no frame, these were cut short. -/
theorem exchange_inStep (h : client.InStep record) {c : Command} (hc : c.body.size ≤ maxBody)
    {result : Except ClientError (Command × Inbox)}
    (hexchange : client.exchange peer.recorded c (s, record) = (result, s', record'))
    (hframes : ∀ sent ∈ record', Frame.Begun sent) :
    (∀ response rest, result = .ok (response, rest) → rest.InStep record') ∧
      ∀ error, result = .error (.protocol error) → ∃ cause, error = .stream cause := by
  obtain ⟨frame, hframe⟩ := Frame.exists_encode hc
  unfold exchange at hexchange
  match hreconnect : client.reconnect peer.recorded (s, record) with
  | (.error error, next, record₁) =>
    rw [hreconnect] at hexchange
    cases hexchange
    refine ⟨nofun, ?_⟩
    rintro inner ⟨⟩
    exact absurd rfl ((reconnect_inStep h hreconnect).2 inner)
  | (.ok inbox, next, record₁) =>
    rw [hreconnect] at hexchange
    simp only [hframe] at hexchange
    match htransmit : transmit peer.recorded inbox frame (next, record₁) with
    | (inbox', next', record₂) =>
      rw [htransmit] at hexchange
      cases hexchange
      have hinbox := (reconnect_inStep h hreconnect).1 inbox rfl
      exact settle_inStep (transmit_inStep hinbox htransmit) hframes _ _

/-! ## One call -/

/-- **An error that does not come from bytes out of step.** No field of a frame is bad, and no body
is too large but that of the request itself, which is then not sent. -/
def Expected (request : Request) : ClientError → Prop
  | .protocol (.badMagic _) => False
  | .protocol (.badVersion _) => False
  | .protocol (.unknownCode _) => False
  | .protocol (.tooLarge size) => size = request.body.size ∧ maxBody < size
  | _ => True

/-- A response that was read may have a wrong kind or a bad body. -/
theorem expected_of_understand {β : Type} [Body β] {request : Request} {response : Command}
    {error : ClientError} (h : understand β response = .error error) : Expected request error := by
  unfold understand Body.ofCommand at h
  split at h
  · cases h
  · next herror =>
    cases h
    split at herror
    · cases herror
      trivial
    · split at herror
      · cases herror
      · cases herror
        trivial

/-- A stream may be cut short. -/
theorem expected_of_stream {request : Request} {error : ClientError}
    (h : ∀ inner, error = .protocol inner → ∃ cause, inner = .stream cause) :
    Expected request error := by
  cases error with
  | protocol inner =>
    obtain ⟨cause, rfl⟩ := h inner rfl
    trivial
  | connect | timeout | connectionClosed => trivial

/-- **One call keeps a client in step,** whatever becomes of it. -/
theorem send_inStep (h : client.InStep record) {α β : Type} [Body α] [Body β] {body : α}
    {request : Request} (hbody : Body.encode body = request.body) {result : Except ClientError β}
    (hsend : client.send β peer.recorded body (s, record) = (result, client', s', record'))
    (hframes : ∀ sent ∈ record', Frame.Begun sent) :
    client'.InStep record' ∧ ∀ error, result = .error error → Expected request error := by
  by_cases hsize : (Body.encode body).size > maxBody
  · -- Nothing is sent, and the connection is kept as it was.
    rw [send_of_tooLarge hsize] at hsend
    cases hsend
    refine ⟨h, ?_⟩
    rintro _ ⟨⟩
    rw [hbody] at hsize ⊢
    exact ⟨rfl, hsize⟩
  · have hfits := Nat.le_of_not_lt hsize
    match hexchange : client.exchange peer.recorded
        ⟨Body.kind α, client.nextTag, Body.encode body⟩ (s, record) with
    | (.error error, next, record₁) =>
      -- The connection is given up.
      rw [send_of_failure hfits hexchange] at hsend
      cases hsend
      refine ⟨.inl rfl, ?_⟩
      rintro _ ⟨⟩
      refine expected_of_stream fun inner hinner => ?_
      exact (exchange_inStep h hfits hexchange hframes).2 inner (hinner ▸ rfl)
    | (.ok (response, rest), next, record₁) =>
      -- The connection is kept, whatever the frame holds.
      simp only [send, Body.toCommand_eq, if_neg hsize, hexchange] at hsend
      cases hsend
      have hrest := (exchange_inStep h hfits hexchange hframes).1 response rest rfl
      exact ⟨.inr ⟨rest, rfl, hrest⟩, fun error herror => expected_of_understand herror⟩

/-- So does a call whose response is put into the sum of all responses. -/
theorem wrap_inStep (h : client.InStep record) {α β : Type} [Body α] [Body β] {body : α}
    {request : Request} (hbody : Body.encode body = request.body) {constructor : β → Response}
    {result : Except ClientError Response}
    (hcall : wrap constructor (client.send β peer.recorded body (s, record)) =
      (result, client', s', record'))
    (hframes : ∀ sent ∈ record', Frame.Begun sent) :
    client'.InStep record' ∧ ∀ error, result = .error error → Expected request error := by
  match hsend : client.send β peer.recorded body (s, record) with
  | (.ok response, next) =>
    rw [hsend] at hcall
    cases hcall
    exact ⟨(send_inStep h hbody hsend hframes).1, nofun⟩
  | (.error error, next) =>
    rw [hsend] at hcall
    cases hcall
    refine ⟨(send_inStep h hbody hsend hframes).1, ?_⟩
    rintro _ ⟨⟩
    exact (send_inStep h hbody hsend hframes).2 error rfl

theorem ask_inStep (h : client.InStep record) (request : Request)
    {result : Except ClientError Response}
    (hask : client.ask peer.recorded request (s, record) = (result, client', s', record'))
    (hframes : ∀ sent ∈ record', Frame.Begun sent) :
    client'.InStep record' ∧ ∀ error, result = .error error → Expected request error := by
  cases request with
  | getLogBytes | viewWholeLog | rollViewLog | removeTaskLog | getAppId =>
    exact wrap_inStep h rfl hask hframes

/-! ## Any number of calls -/

/-- **Any calls keep a client in step.** -/
theorem run_inStep_of_inStep (h : client.InStep record) (requests : List Request)
    (hframes : ∀ sent ∈ (client.run peer.recorded (s, record) requests).2.2.2, Frame.Begun sent) :
    (client.run peer.recorded (s, record) requests).2.1.InStep
        (client.run peer.recorded (s, record) requests).2.2.2 ∧
      ∀ (i : Nat) (request : Request) (error : ClientError), requests[i]? = some request →
        (client.run peer.recorded (s, record) requests).1[i]? = some (.error error) →
        Expected request error := by
  -- The invariant is `InStep`; what is known of the record in the end holds of it at every call.
  induction requests generalizing client s record with
  | nil =>
    refine ⟨h, fun i request error hrequest => ?_⟩
    rw [List.getElem?_nil] at hrequest
    cases hrequest
  | cons request rest ih =>
    rcases hask : client.ask peer.recorded request (s, record) with ⟨result, client₁, s₁, record₁⟩
    simp only [run, hask] at hframes ⊢
    have hframes₁ := run_moves peer.recorded_begun client₁ (s₁, record₁) rest hframes
    obtain ⟨hclient₁, hexpected₁⟩ := ask_inStep h request hask hframes₁
    obtain ⟨hclient₂, hexpected₂⟩ := ih hclient₁ hframes
    refine ⟨hclient₂, fun i request' error hrequest hresult => ?_⟩
    cases i with
    | zero =>
      cases hrequest
      exact hexpected₁ error (Option.some.inj hresult)
    | succ i => exact hexpected₂ i request' error hrequest hresult

/-- **A client never gets out of step.** A client is connected to any peer, and in all of any
sequence of calls the peer sends the start of some frames on each connection, cut anywhere. Then no
call fails because of a bad field or an announced size, and after every call the client has no
connection or has read whole frames of what was sent on it. -/
theorem run_inStep (peer : Peer σ) {address : String}
    (hconnect : Client.connect peer address s = (.ok client, s')) (timeout : Nat)
    (requests : List Request)
    (hframes : ∀ sent ∈ (Client.run peer.recorded { client with timeout := timeout }
      (s', [ByteArray.empty]) requests).2.2.2, Frame.Begun sent) :
    (∀ (i : Nat) (request : Request) (error : ClientError), requests[i]? = some request →
      (Client.run peer { client with timeout := timeout } s' requests).1[i]? =
        some (.error error) → Expected request error) ∧
    ∀ before after, requests = before ++ after →
      (Client.run peer { client with timeout := timeout } s' before).2.1.InStep
        (Client.run peer.recorded { client with timeout := timeout }
          (s', [ByteArray.empty]) before).2.2.2 := by
  have hclient : client.connection = some .empty := by
    unfold connect dial at hconnect
    match hdial : peer.dial s with
    | (.ok (), next) =>
      rw [hdial] at hconnect
      cases hconnect
      rfl
    | (.error cause, next) =>
      rw [hdial] at hconnect
      cases hconnect
  have hstart : InStep { client with timeout := timeout } [ByteArray.empty] :=
    .inr ⟨.empty, hclient, Inbox.inStep_empty []⟩
  have hshows (requests : List Request) := run_of_shows peer.recorded_shows
    { client with timeout := timeout } (s', [ByteArray.empty]) requests
  refine ⟨?_, ?_⟩
  · rw [hshows]
    exact (run_inStep_of_inStep hstart requests hframes).2
  · rintro before after rfl
    rw [run_append] at hframes
    rw [hshows]
    exact (run_inStep_of_inStep hstart before
      (run_moves peer.recorded_begun _ _ after hframes)).1

/-- The first answer is cut inside its frame; behind a frame with a foreign tag, the second one
comes whole on a new connection. -/
theorem run_inStep_cut_frame :
    let kind : CommandKind := ⟨.viewWholeLog, .response⟩
    let body := "\x7b\"content\":\"late\"\x7d".toUTF8
    let script : List (List Script.Action) :=
      [[.command kind 0 body (some 20)],
        [.command kind 7 ByteArray.empty none, .command kind 0 body none]]
    let requests : List Request := [.viewWholeLog ⟨"/logs/a.log"⟩, .viewWholeLog ⟨"/logs/b.log"⟩]
    let client : Client := ⟨"worker", defaultTimeout, 1, some .empty⟩
    let calls := Client.run Script.peer { client with timeout := 50 } script requests
    let record := (Client.run Script.peer.recorded { client with timeout := 50 }
      (script, [ByteArray.empty]) requests).2.2.2
    Client.connect Script.peer "worker" script = (.ok client, script) ∧
      (∀ sent ∈ record, Frame.Begun sent) ∧
      (∀ (i : Nat) (request : Request) (error : ClientError), requests[i]? = some request →
        calls.1[i]? = some (.error error) → Expected request error) ∧
      calls.2.1.InStep record ∧ calls.1.map (·.toBool) = [false, true] := by
  intro kind body script requests client calls record
  have hconnect : Client.connect Script.peer "worker" script = (.ok client, script) := rfl
  have hrecord : record = [Script.frameOf ⟨kind, 9, ByteArray.empty⟩ none ++
      Script.frameOf ⟨kind, 2, body⟩ none, Script.frameOf ⟨kind, 1, body⟩ (some 20)] := by
    decide +kernel
  have hframes : ∀ sent ∈ record, Frame.Begun sent := by
    intro sent hsent
    rw [hrecord] at hsent
    obtain rfl | hsent := List.mem_cons.mp hsent
    · exact Script.begun_frameOf_append _ (Script.begun_frameOf _ _)
    · rw [List.mem_singleton.mp hsent]
      exact Script.begun_frameOf _ _
  obtain ⟨hexpected, hinStep⟩ := run_inStep Script.peer hconnect 50 requests hframes
  refine ⟨hconnect, hframes, hexpected, hinStep requests [] (List.append_nil _).symm, ?_⟩
  decide +kernel

end Client

end RemoteLog
