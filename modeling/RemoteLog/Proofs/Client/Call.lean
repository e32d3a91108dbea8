import RemoteLog.Proofs.Client.Record
import RemoteLog.Proofs.Worker.Answer

/-! # One call

A call for any kind of request has the same course: the request becomes a command with the tag of
the call, something arrives on the connection, and the answer is looked for in it.

* **`Request.toCommand request tag`** — the command of a request.
* **`Request.understand request response`** — what a response means to a call for the request.
* **`Client.arrival peer client c s`** — what has arrived when the client looks for the answer.
* **`Client.next client connection`** — the client after a call.
* **`Client.exchange_eq`**, **`Client.ask_eq`** — an exchange and a call in these terms.
* **`Client.run_nextTag`**, **`Client.getElem?_run`** — the tags of calls in sequence, and their
  results. -/

namespace RemoteLog

open Message

namespace Message

/-- **The command of a request.** -/
def Request.toCommand (request : Request) (tag : Int64) : Command :=
  ⟨⟨request.operation, .request⟩, tag, request.body⟩

/-- **What a response means to a call for a request:** the body of the kind that was asked for. -/
def Request.understand (request : Request) (response : Command) : Except ClientError Response :=
  match request with
  | .getLogBytes _ => (Client.understand GetLogBytesResponse response).map .getLogBytes
  | .viewWholeLog _ => (Client.understand ViewLogResponse response).map .viewWholeLog
  | .rollViewLog _ => (Client.understand RollViewLogResponse response).map .rollViewLog
  | .removeTaskLog _ => (Client.understand RemoveTaskLogResponse response).map .removeTaskLog
  | .getAppId _ => (Client.understand GetAppIdResponse response).map .getAppId

end Message

namespace Client

variable {σ : Type}

/-- **What has arrived on the connection of an exchange** when the client looks for the answer: what
was there before and what came back after the request. -/
def arrival (peer : Peer σ) (client : Client) (c : Command) (s : σ) :
    Except ClientError Inbox × σ :=
  match reconnect peer client s with
  | (.error error, s) => (.error error, s)
  | (.ok inbox, s) =>
    match Frame.encode c with
    | .error error => (.error (.protocol error), s)
    | .ok frame => ((.ok (transmit peer inbox frame s).1), (transmit peer inbox frame s).2)

/-- The client after a call, with the connection that it keeps. -/
def next (client : Client) (connection : Option Inbox) : Client :=
  { client with nextTag := client.nextTag + 1, connection := connection }

@[simp] theorem next_nextTag (client : Client) (connection : Option Inbox) :
    (client.next connection).nextTag = client.nextTag + 1 := rfl

/-- **An exchange looks for the answer** in what has arrived. -/
theorem exchange_eq (peer : Peer σ) (client : Client) (c : Command) (s : σ) :
    client.exchange peer c s =
      ((client.arrival peer c s).1.bind fun inbox => settle client.timeout (inbox.await c.tag),
        (client.arrival peer c s).2) := by
  unfold exchange arrival
  match client.reconnect peer s with
  | (.error error, s) => rfl
  | (.ok inbox, s) =>
    cases Frame.encode c with
    | error error => rfl
    | ok frame => rfl

/-- A call for any kind of body, with its response put into the sum of all responses. -/
theorem wrap_send_eq {α β : Type} [Body α] [Body β] (constructor : β → Response) (peer : Peer σ)
    (client : Client) (request : α) (s : σ) :
    wrap constructor (client.send β peer request s) =
      if (Body.encode request).size > maxBody then
        (.error (.protocol (.tooLarge (Body.encode request).size)),
          client.next client.connection, s)
      else
        match client.exchange peer ⟨Body.kind α, client.nextTag, Body.encode request⟩ s with
        | (.error error, s) => (.error error, client.next none, s)
        | (.ok (response, rest), s) =>
          ((understand β response).map constructor, client.next (some rest), s) := by
  unfold send
  rw [Body.toCommand_eq]
  by_cases hsize : (Body.encode request).size > maxBody
  · rw [if_pos hsize, if_pos hsize]
    rfl
  · rw [if_neg hsize, if_neg hsize]
    dsimp only
    match client.exchange peer ⟨Body.kind α, client.nextTag, Body.encode request⟩ s with
    | (.error error, s) => rfl
    | (.ok (response, rest), s) =>
      dsimp only
      cases understand β response <;> rfl

/-- **A call:** its request is too large to be sent, or the exchange fails and the connection is
given up, or there is a response, and the connection is kept whatever it means. -/
theorem ask_eq (peer : Peer σ) (client : Client) (request : Request) (s : σ) :
    client.ask peer request s =
      if request.body.size > maxBody then
        (.error (.protocol (.tooLarge request.body.size)), client.next client.connection, s)
      else
        match client.exchange peer (request.toCommand client.nextTag) s with
        | (.error error, s) => (.error error, client.next none, s)
        | (.ok (response, rest), s) =>
          (request.understand response, client.next (some rest), s) := by
  cases request with
  | getLogBytes body | viewWholeLog body | rollViewLog body | removeTaskLog body | getAppId body =>
    exact wrap_send_eq _ peer client body s

/-- A call changes the tag and the connection of a client only. -/
theorem exists_ask_eq_next (peer : Peer σ) (client : Client) (request : Request) (s : σ) :
    ∃ connection, (client.ask peer request s).2.1 = client.next connection := by
  rw [ask_eq]
  split
  · exact ⟨_, rfl⟩
  · split <;> exact ⟨_, rfl⟩

/-! ## Calls in sequence -/

/-- A client that has connected uses the tag one next. -/
theorem eq_of_connect {peer : Peer σ} {address : String} {s t : σ} {client : Client}
    (h : Client.connect peer address s = (.ok client, t)) :
    client = ⟨address, defaultTimeout, 1, some .empty⟩ := by
  unfold connect dial at h
  match hdial : peer.dial s with
  | (.ok (), s') =>
    rw [hdial] at h
    cases h
    rfl
  | (.error cause, s') =>
    rw [hdial] at h
    cases h

/-- **Tags are counted by calls,** whatever becomes of them. -/
theorem run_nextTag (peer : Peer σ) (client : Client) (s : σ) (requests : List Request) :
    (client.run peer s requests).2.1.nextTag = client.nextTag + Int64.ofNat requests.length := by
  induction requests generalizing client s with
  | nil => exact (Int64.add_zero _).symm
  | cons request rest ih =>
    obtain ⟨connection, hnext⟩ := exists_ask_eq_next peer client request s
    have hone : Int64.ofNat 1 = 1 := rfl
    rw [run, ih, hnext, next_nextTag, List.length_cons, Nat.add_comm rest.length, Int64.ofNat_add,
      hone, Int64.add_assoc]

/-- There are as many results as calls. -/
theorem length_run (peer : Peer σ) (client : Client) (s : σ) (requests : List Request) :
    (client.run peer s requests).1.length = requests.length := by
  induction requests generalizing client s with
  | nil => rfl
  | cons request rest ih => exact congrArg (· + 1) (ih _ _)

/-- The result of a call in a sequence. -/
theorem getElem?_run (peer : Peer σ) (client : Client) (s : σ) (before : List Request)
    (request : Request) (after : List Request) :
    (client.run peer s (before ++ request :: after)).1[before.length]? =
      some ((client.run peer s before).2.1.ask peer request (client.run peer s before).2.2).1 := by
  rw [run_append, List.getElem?_append_right (Nat.le_of_eq (length_run ..)), length_run,
    Nat.sub_self]
  rfl

end Client

end RemoteLog
