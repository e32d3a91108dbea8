import RemoteLog.Client.Script
import RemoteLog.Proofs.Client.Awaiting
import RemoteLog.Proofs.Client.Call
import RemoteLog.Proofs.Client.Record

/-! # When a client opens a new connection

A call whose request fits a frame uses the connection that the client holds, or opens one. It keeps
the connection if a frame with its tag comes back, whatever that frame holds, and gives it up
otherwise. The connections are counted by the record that the peer keeps.

* **`Client.Course`** — what becomes of the request of a call, with the number of the connection
  that it travels on; **`Client.course`**, **`Client.courses`** — of one call and of many.
* **`Client.Called`** — one call by its course: the result, the client and the peer afterwards.
* **`Client.ask_called`** — every call is one of these.
* **`Client.Disciplined held opened courses`** — courses that keep connections as they should.
* **`Client.run_reconnects`** — any sequence of calls. -/

namespace RemoteLog.Client

open Message Peer

variable {σ : Type}

/-! ## What becomes of a request -/

/-- **What becomes of the request of a call.** -/
inductive Course where
  /-- It does not fit a frame and is not sent. -/
  | withheld
  /-- There is no connection to send it on. -/
  | unconnected (error : ClientError)
  /-- It travels on a connection, and a frame with its tag comes back. -/
  | answered (connection : Nat) (response : Command)
  /-- It travels on a connection, and the exchange ends in another way. -/
  | broken (connection : Nat) (error : ClientError)

namespace Course

/-- The connection that a request travels on, if it is sent. -/
def connection? : Course → Option Nat
  | withheld => none
  | unconnected _ => none
  | answered connection _ => some connection
  | broken connection _ => some connection

/-- Whether the exchange ends with a frame that has the tag of the request. -/
def isAnswered : Course → Bool
  | answered _ _ => true
  | _ => false

/-- Whether the exchange ends in another way. -/
def fails : Course → Bool
  | unconnected _ => true
  | broken _ _ => true
  | _ => false

end Course

/-- **What becomes of the request of one call.** The number of its connection is taken from the
record of the peer. -/
def course (peer : Peer σ) (client : Client) (request : Request) (t : σ × Journal) : Course :=
  if request.body.size > maxBody then .withheld
  else
    match client.arrival peer.journaled (request.toCommand client.nextTag) t with
    | (.error error, _) => .unconnected error
    | (.ok inbox, after) =>
      match settle client.timeout (inbox.await client.nextTag) with
      | .ok (response, _) => .answered after.2.connections response
      | .error error => .broken after.2.connections error

/-- **What becomes of the requests of a sequence of calls.** -/
def courses (peer : Peer σ) (client : Client) (t : σ × Journal) : List Request → List Course
  | [] => []
  | request :: rest =>
    client.course peer request t ::
      courses peer (client.ask peer.journaled request t).2.1
        (client.ask peer.journaled request t).2.2 rest

/-! ## One call -/

/-- **A request that is sent:** on the connection that the client holds, or on a new one. The peer
gets its frame, with the tag of the call, unless the connection has ended. -/
structure Sent (peer : Peer σ) (client : Client) (request : Request) (before : σ × Journal)
    (number : Nat) (inbox : Inbox) (after : σ × Journal) : Prop where
  arrival : client.arrival peer.journaled (request.toCommand client.nextTag) before =
    (.ok inbox, after)
  connection : number = if client.connection.isSome then before.2.connections
    else before.2.connections + 1
  connections : after.2.connections = number
  requests : (∃ held, client.connection = some held ∧ held.ended = true ∧ after = before) ∨
    ∃ frame, Frame.encode (request.toCommand client.nextTag) = .ok frame ∧
      after.2.requests = (number, frame) :: before.2.requests

/-- **One call by the course of its request:** its result, and the client and the peer
afterwards. -/
inductive Called (peer : Peer σ) (client : Client) (t : σ × Journal) (request : Request) :
    Course → Except ClientError Response × Client × (σ × Journal) → Prop
  /-- Nothing is sent, and the connection is kept as it was. -/
  | withheld (hlarge : request.body.size > maxBody) :
      Called peer client t request .withheld
        (.error (.protocol (.tooLarge request.body.size)), client.next client.connection, t)
  /-- The client has no connection, and opening one fails. -/
  | unconnected {cause : SystemError} {s' : σ} (hfits : request.body.size ≤ maxBody)
      (hnone : client.connection = none) (hdial : peer.dial t.1 = (.error cause, s')) :
      Called peer client t request (.unconnected (.connect client.address cause))
        (.error (.connect client.address cause), client.next none, (s', t.2))
  /-- The first frame with the tag decides about the result, and the connection is kept. -/
  | answered {number : Nat} {response : Command} {inbox rest : Inbox} {t' : σ × Journal}
      (hfits : request.body.size ≤ maxBody) (hsent : Sent peer client request t number inbox t')
      (hfirst : (Frame.readAll inbox.unread).commands.find? (fun d => d.tag = client.nextTag) =
        some response) :
      Called peer client t request (.answered number response)
        (request.understand response, client.next (some rest), t')
  /-- No frame has the tag, and the connection is given up. -/
  | broken {number : Nat} {error : ClientError} {inbox : Inbox} {t' : σ × Journal}
      (hfits : request.body.size ≤ maxBody) (hsent : Sent peer client request t number inbox t')
      (hother : ∀ d ∈ (Frame.readAll inbox.unread).commands, d.tag ≠ client.nextTag)
      (herror : settle client.timeout
        (Inbox.missing inbox.ended (Frame.readAll inbox.unread).error) = .error error) :
      Called peer client t request (.broken number error) (.error error, client.next none, t')

section

variable {peer : Peer σ} {client : Client} {request : Request} {t t' : σ × Journal}

/-- What opening a connection comes to, by the record. -/
theorem dial_journaled (peer : Peer σ) (address : String) (t : σ × Journal) :
    (∃ s', peer.dial t.1 = (.ok (), s') ∧
      dial peer.journaled address t =
        (.ok .empty, s', { t.2 with connections := t.2.connections + 1 })) ∨
    ∃ cause s', peer.dial t.1 = (.error cause, s') ∧
      dial peer.journaled address t = (.error (.connect address cause), s', t.2) := by
  unfold dial journaled
  match hdial : peer.dial t.1 with
  | (.ok (), s') => exact .inl ⟨s', rfl, by simp only [hdial]⟩
  | (.error cause, s') => exact .inr ⟨cause, s', rfl, by simp only [hdial]⟩

/-- A request that is sent on a connection comes to the peer, unless the connection has ended. -/
theorem transmit_journaled (peer : Peer σ) (inbox : Inbox) (frame : ByteArray) (t : σ × Journal) :
    (transmit peer.journaled inbox frame t).2.2.connections = t.2.connections ∧
      (inbox.ended = true ∧ (transmit peer.journaled inbox frame t).2 = t ∨
        (transmit peer.journaled inbox frame t).2.2.requests =
          (t.2.connections, frame) :: t.2.requests) := by
  unfold transmit
  split
  · next hended => exact ⟨rfl, .inl ⟨hended, rfl⟩⟩
  · exact ⟨rfl, .inr rfl⟩

/-- **A request is sent,** or there is no connection to send it on. -/
theorem arrival_journaled (peer : Peer σ) (client : Client) (t : σ × Journal)
    (hfits : request.body.size ≤ maxBody) :
    (∃ inbox after,
      client.arrival peer.journaled (request.toCommand client.nextTag) t = (.ok inbox, after) ∧
      Sent peer client request t after.2.connections inbox after) ∨
    ∃ cause s', client.connection = none ∧ peer.dial t.1 = (.error cause, s') ∧
      client.arrival peer.journaled (request.toCommand client.nextTag) t =
        (.error (.connect client.address cause), s', t.2) := by
  obtain ⟨frame, hframe⟩ : ∃ frame, Frame.encode (request.toCommand client.nextTag) = .ok frame :=
    Frame.exists_encode hfits
  cases hconnection : client.connection with
  | some held =>
    obtain ⟨hsame, hrequests⟩ := transmit_journaled peer held frame t
    have harrival : client.arrival peer.journaled (request.toCommand client.nextTag) t =
        (.ok (transmit peer.journaled held frame t).1,
          (transmit peer.journaled held frame t).2) := by
      simp only [arrival, reconnect, hconnection, hframe]
    refine .inl ⟨_, _, harrival, harrival, ?_, rfl, ?_⟩
    · rw [hconnection, hsame]
      rfl
    · obtain ⟨hended, hlost⟩ | hreceived := hrequests
      · exact .inl ⟨held, hconnection, hended, hlost⟩
      · exact .inr ⟨frame, hframe, by rw [hsame, hreceived]⟩
  | none =>
    obtain ⟨s', -, hopened⟩ | ⟨cause, s', hdial, hopened⟩ :=
      dial_journaled peer client.address t
    · -- The request is the first one on a new connection, which has not ended.
      obtain ⟨hsame, ⟨hended, -⟩ | hreceived⟩ := transmit_journaled peer .empty frame
        (s', { t.2 with connections := t.2.connections + 1 })
      · cases hended
      · have harrival : client.arrival peer.journaled (request.toCommand client.nextTag) t =
            (.ok (transmit peer.journaled .empty frame
                (s', { t.2 with connections := t.2.connections + 1 })).1,
              (transmit peer.journaled .empty frame
                (s', { t.2 with connections := t.2.connections + 1 })).2) := by
          simp only [arrival, reconnect, hconnection, hopened, hframe]
        refine .inl ⟨_, _, harrival, harrival, ?_, rfl, .inr ⟨frame, hframe, ?_⟩⟩
        · rw [hconnection, hsame]
          rfl
        · rw [hsame, hreceived]
    · refine .inr ⟨cause, s', rfl, hdial, ?_⟩
      simp only [arrival, reconnect, hconnection, hopened]

/-- **Every call is made in one of four ways.** -/
theorem ask_called (peer : Peer σ) (client : Client) (request : Request) (t : σ × Journal) :
    Called peer client t request (client.course peer request t)
      (client.ask peer.journaled request t) := by
  rw [ask_eq, course]
  by_cases hsize : request.body.size > maxBody
  · rw [if_pos hsize, if_pos hsize]
    exact .withheld hsize
  · have hfits := Nat.le_of_not_lt hsize
    rw [if_neg hsize, if_neg hsize, exchange_eq]
    obtain ⟨inbox, after, harrival, hsent⟩ | ⟨cause, s', hnone, hdial, harrival⟩ :=
      arrival_journaled peer client t hfits
    · rw [harrival]
      simp only [Except.bind, Request.toCommand]
      obtain ⟨response, rest, hfirst, hawait⟩ | ⟨hother, hawait⟩ :=
        Inbox.await_cases inbox client.nextTag
      · rw [hawait]
        exact .answered hfits hsent hfirst
      · rw [hawait]
        obtain ⟨error, herror⟩ := settle_missing client.timeout inbox.ended
          (Frame.readAll inbox.unread).error
        rw [herror]
        exact .broken hfits hsent hother herror
    · rw [harrival]
      exact .unconnected hfits hnone hdial

end

/-! ## Connections along many calls -/

/-- **Courses that keep connections as they should:** from a client that holds the newest connection
or none, and with so many connections opened before, each request travels on the connection that is
held or on a new one, and only a request that is answered leaves a connection to hold. -/
def Disciplined : (held : Bool) → (opened : Nat) → List Course → Prop
  | _, _, [] => True
  | held, opened, .withheld :: rest => Disciplined held opened rest
  | held, opened, .unconnected _ :: rest => held = false ∧ Disciplined false opened rest
  | held, opened, .answered number _ :: rest =>
    (number = if held then opened else opened + 1) ∧ Disciplined true number rest
  | held, opened, .broken number _ :: rest =>
    (number = if held then opened else opened + 1) ∧ Disciplined false number rest

/-- **Any calls keep connections as they should.** -/
theorem courses_disciplined (peer : Peer σ) (client : Client) (t : σ × Journal)
    (requests : List Request) :
    Disciplined client.connection.isSome t.2.connections (client.courses peer t requests) := by
  induction requests generalizing client t with
  | nil => trivial
  | cons request rest ih =>
    rw [courses]
    have hcalled := ask_called peer client request t
    have hrest := ih (client.ask peer.journaled request t).2.1
      (client.ask peer.journaled request t).2.2
    generalize client.course peer request t = course at hcalled ⊢
    generalize client.ask peer.journaled request t = call at hcalled hrest ⊢
    cases hcalled with
    | withheld => exact hrest
    | unconnected _ hnone _ => exact ⟨by rw [hnone]; rfl, hrest⟩
    | answered _ hsent _ => exact ⟨hsent.connection, hsent.connections ▸ hrest⟩
    | broken _ hsent _ _ => exact ⟨hsent.connection, hsent.connections ▸ hrest⟩

namespace Disciplined

variable {held : Bool} {opened m n : Nat} {front between rest : List Course} {first next : Course}

/-- **The next request that is sent** travels on the connection that is held, or on a new one. -/
theorem connection_next (h : Disciplined held opened (between ++ next :: rest))
    (hbetween : ∀ c ∈ between, c.connection? = none) (hnext : next.connection? = some n) :
    n = if held then opened else opened + 1 := by
  induction between generalizing held with
  | nil =>
    cases next with
    | withheld | unconnected => cases hnext
    | answered | broken =>
      cases hnext
      exact h.1
  | cons c between ih =>
    obtain ⟨hc, hrest⟩ := List.forall_mem_cons.mp hbetween
    cases c with
    | withheld => exact ih h hrest
    | unconnected =>
      obtain ⟨rfl, h⟩ := h
      exact ih h hrest
    | answered | broken => cases hc

/-- Behind one call, the number of connections opened bounds its own, and a call that fails leaves
no connection to hold. -/
theorem tail (h : Disciplined held opened (first :: rest)) :
    ∃ held' opened', Disciplined held' opened' rest ∧ opened ≤ opened' ∧
      (∀ m, first.connection? = some m → m ≤ opened') ∧ (first.fails = true → held' = false) := by
  have hle : opened ≤ if held then opened else opened + 1 := by
    split
    · exact Nat.le_refl _
    · exact Nat.le_succ _
  cases first with
  | withheld => exact ⟨held, opened, h, Nat.le_refl _, nofun, nofun⟩
  | unconnected => exact ⟨false, opened, h.2, Nat.le_refl _, nofun, fun _ => rfl⟩
  | answered number =>
    refine ⟨true, number, h.2, h.1 ▸ hle, ?_, nofun⟩
    rintro _ ⟨⟩
    exact Nat.le_refl _
  | broken number =>
    refine ⟨false, number, h.2, h.1 ▸ hle, ?_, fun _ => rfl⟩
    rintro _ ⟨⟩
    exact Nat.le_refl _

/-- **What follows some calls keeps connections as it should,** and no connection of theirs is newer
than those opened then. -/
theorem behind (h : Disciplined held opened (front ++ rest)) :
    ∃ held' opened', Disciplined held' opened' rest ∧ opened ≤ opened' ∧
      ∀ c ∈ front, ∀ m, c.connection? = some m → m ≤ opened' := by
  induction front generalizing held opened with
  | nil => exact ⟨held, opened, h, Nat.le_refl _, nofun⟩
  | cons c front ih =>
    obtain ⟨held₁, opened₁, htail, hle, hc, -⟩ := h.tail
    obtain ⟨held', opened', hrest, hle', hfront⟩ := ih htail
    refine ⟨held', opened', hrest, Nat.le_trans hle hle', List.forall_mem_cons.mpr ⟨?_, hfront⟩⟩
    exact fun m hm => Nat.le_trans (hc m hm) hle'

/-- **Two requests in sequence travel on the same connection** exactly if the first one was
answered. -/
theorem same_iff (h : Disciplined held opened (front ++ first :: (between ++ next :: rest)))
    (hbetween : ∀ c ∈ between, c.connection? = none) (hfirst : first.connection? = some m)
    (hnext : next.connection? = some n) : n = m ↔ first.isAnswered = true := by
  obtain ⟨held', opened', h, -, -⟩ := h.behind
  cases first with
  | withheld | unconnected => cases hfirst
  | answered =>
    cases hfirst
    exact iff_of_true (h.2.connection_next hbetween hnext) rfl
  | broken =>
    cases hfirst
    have hnew : n = m + 1 := h.2.connection_next hbetween hnext
    exact iff_of_false (by omega) nofun

/-- **After a call that fails, the next one opens a new connection.** -/
theorem new_of_fails (h : Disciplined held opened (front ++ first :: (between ++ next :: rest)))
    (hbetween : ∀ c ∈ between, c = .withheld) (hfirst : first.fails = true)
    (hnext : next.connection? = some n) :
    ∀ c ∈ front ++ [first], ∀ m, c.connection? = some m → m < n := by
  obtain ⟨held₁, opened₁, h₁, -, hfront⟩ := h.behind
  obtain ⟨held₂, opened₂, h₂, hle, hlast, hnone⟩ := h₁.tail
  obtain rfl := hnone hfirst
  have hunsent : ∀ c ∈ between, c.connection? = none := fun c hc => by rw [hbetween c hc]; rfl
  have hnew : n = opened₂ + 1 := h₂.connection_next hunsent hnext
  intro c hc m hm
  obtain hc | hc := List.mem_append.mp hc
  · have hm₁ := hfront c hc m hm
    omega
  · rw [List.mem_singleton.mp hc] at hm
    have hm₂ := hlast m hm
    omega

end Disciplined

/-! ## Any number of calls -/

/-- The courses of more calls go on from where the first ones end. -/
theorem courses_append (peer : Peer σ) (client : Client) (t : σ × Journal)
    (before after : List Request) :
    client.courses peer t (before ++ after) =
      client.courses peer t before ++
        (client.run peer.journaled t before).2.1.courses peer
          (client.run peer.journaled t before).2.2 after := by
  induction before generalizing client t with
  | nil => rfl
  | cons request rest ih => exact congrArg (client.course peer request t :: ·) (ih _ _)

theorem length_courses (peer : Peer σ) (client : Client) (t : σ × Journal)
    (requests : List Request) : (client.courses peer t requests).length = requests.length := by
  induction requests generalizing client t with
  | nil => rfl
  | cons request rest ih => exact congrArg (· + 1) (ih _ _)

/-- **The rule of connections.** A client has connected to any peer, which keeps a record from then
on, and makes any sequence of calls. Then each call is made in one of the four ways, and the tag of
the `i`-th one is `i`. A request travels on the same connection as the one sent before it exactly if
that one was answered by a frame with its tag. After a call that fails in another way, the next
request that is sent travels on a newer connection than all requests before. -/
theorem run_reconnects (peer : Peer σ) {address : String} {s : σ} {client : Client}
    {t : σ × Journal}
    (hconnect : Client.connect peer.journaled address (s, .empty) = (.ok client, t))
    (timeout : Nat) (requests : List Request) :
    let start : Client := { client with timeout := timeout }
    let courses := start.courses peer t requests
    (∀ before request after, requests = before ++ request :: after →
      let here := (start.run peer.journaled t before).2
      ∃ course call,
        courses[before.length]? = some course ∧
        (start.run peer.journaled t requests).1[before.length]? = some call.1 ∧
        (start.run peer.journaled t (before ++ [request])).2 = call.2 ∧
        here.1.nextTag = Int64.ofNat (before.length + 1) ∧
        Called peer here.1 here.2 request course call) ∧
    (∀ front first between next rest, courses = front ++ first :: (between ++ next :: rest) →
      (∀ c ∈ between, c.connection? = none) →
      ∀ m n, first.connection? = some m → next.connection? = some n →
        (n = m ↔ first.isAnswered = true)) ∧
    (∀ front first between next rest, courses = front ++ first :: (between ++ next :: rest) →
      (∀ c ∈ between, c = .withheld) → first.fails = true →
      ∀ n, next.connection? = some n →
        ∀ c ∈ front ++ [first], ∀ m, c.connection? = some m → m < n) := by
  intro start courses
  have hdisciplined : Disciplined start.connection.isSome t.2.connections courses :=
    courses_disciplined peer start t requests
  refine ⟨?_, ?_, ?_⟩
  · rintro before request after rfl here
    refine ⟨here.1.course peer request here.2, here.1.ask peer.journaled request here.2, ?_,
      getElem?_run .., ?_, ?_, ask_called ..⟩
    · have hcourses : courses = _ := courses_append peer start t before (request :: after)
      rw [hcourses, List.getElem?_append_right (Nat.le_of_eq (length_courses ..)), length_courses,
        Nat.sub_self]
      rfl
    · rw [run_append]
      rfl
    · have hone : Int64.ofNat 1 = 1 := rfl
      have hstart : client.nextTag = 1 := congrArg nextTag (eq_of_connect hconnect)
      rw [run_nextTag, hstart, Nat.add_comm before.length, Int64.ofNat_add, hone]
  · intro front first between next rest hcourses hbetween m n hfirst hnext
    rw [hcourses] at hdisciplined
    exact hdisciplined.same_iff hbetween hfirst hnext
  · intro front first between next rest hcourses hbetween hfails n hnext
    rw [hcourses] at hdisciplined
    exact hdisciplined.new_of_fails hbetween hfails hnext

/-- The first answer has the wrong kind, and the connection is kept; the second call finds it
closed, and the third one opens another. -/
theorem run_reconnects_wrong_kind :
    let body := "\x7b\"content\":\"late\"\x7d".toUTF8
    let script : List (List Script.Action) :=
      [[.command ⟨.getAppId, .response⟩ 0 body none], [.close],
        [.command ⟨.viewWholeLog, .response⟩ 0 body none]]
    let requests : List Request := [.viewWholeLog ⟨"/logs/a.log"⟩, .viewWholeLog ⟨"/logs/b.log"⟩,
      .viewWholeLog ⟨"/logs/c.log"⟩]
    let client : Client := ⟨"worker", defaultTimeout, 1, some .empty⟩
    let t : List (List Script.Action) × Journal := (script, ⟨1, []⟩)
    Client.connect Script.peer.journaled "worker" (script, .empty) = (.ok client, t) ∧
      ∃ first second third,
        Client.courses Script.peer { client with timeout := 50 } t requests =
          [first, second, third] ∧
        first.connection? = some 1 ∧ second.connection? = some 1 ∧ third.connection? = some 2 ∧
        first.isAnswered = true ∧ second.isAnswered = false := by
  intro body script requests client t
  have hconnect : Client.connect Script.peer.journaled "worker" (script, .empty) =
      (.ok client, t) := rfl
  obtain ⟨-, hsame, -⟩ := run_reconnects Script.peer hconnect 50 requests
  have hconnections : (Client.courses Script.peer { client with timeout := 50 } t requests).map
      Course.connection? = [some 1, some 1, some 2] := by decide +kernel
  obtain ⟨first, second, third, hcourses⟩ : ∃ first second third,
      Client.courses Script.peer { client with timeout := 50 } t requests =
        [first, second, third] := ⟨_, _, _, rfl⟩
  rw [hcourses] at hconnections
  obtain ⟨hfirst, hrest⟩ := List.cons.inj hconnections
  obtain ⟨hsecond, hrest⟩ := List.cons.inj hrest
  obtain ⟨hthird, -⟩ := List.cons.inj hrest
  refine ⟨hconnect, first, second, third, hcourses, hfirst, hsecond, hthird, ?_, ?_⟩
  · exact (hsame [] first [] second [third] hcourses nofun 1 1 hfirst hsecond).mp rfl
  · have hnew := hsame [first] second [] third [] hcourses nofun 1 2 hsecond hthird
    exact Bool.eq_false_iff.mpr (mt hnew.mpr (by decide))

end RemoteLog.Client
