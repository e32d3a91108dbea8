import RemoteLog.Client.Script
import RemoteLog.Proofs.Client.Awaiting
import RemoteLog.Proofs.Client.Call
import RemoteLog.Proofs.Frame.Padding

/-! # Foreign frames are invisible

A peer may send frames that answer no request of a client, at any boundary between its frames. The
client throws them away, perhaps only in a later call than the one that they arrived in. So it makes
no difference whether they are there.

* **`Peer.interspersed peer insertion`** — a peer that puts frames between those of another.
* **`Inbox.Alike foreign begun inbox inbox'`** — two inboxes that differ in foreign frames only.
* **`Client.Alike foreign progress client client'`** — two clients that do.
* **`Inbox.Alike.await`**, **`Client.Alike.arrival`**, **`Client.Alike.ask`** — waiting, what
  arrives, and one call.
* **`Client.run_ignores_foreign`** — any sequence of calls. -/

namespace RemoteLog

open Message

variable {σ : Type} {foreign : Command → Prop} {begun : ByteArray} {inbox inbox' : Inbox}

/-! ## Peers with more frames -/

namespace Peer

/-- How far a peer that puts frames between those of another has come. -/
structure Progress where
  /-- What the newest connection has got behind its last whole frame. -/
  begun : ByteArray
  /-- How many replies there have been. -/
  replies : Nat

/-- Nothing has been sent. -/
def Progress.start : Progress := ⟨ByteArray.empty, 0⟩

/-- The frames that are put into a reply. None stand in front of it if it goes on with a frame that
was begun before. -/
def pads (insertion : Nat → Nat → List Command) (progress : Progress) (k : Nat) : List Command :=
  if k = 0 ∧ progress.begun.isEmpty = false then [] else insertion progress.replies k

/-- **A peer that puts frames between those of another:** those of `insertion i k` into the reply
with number `i`, behind the first `k` whole frames that end in it. -/
def interspersed (insertion : Nat → Nat → List Command) (peer : Peer σ) : Peer (σ × Progress) where
  dial t :=
    match peer.dial t.1 with
    | (.error cause, s) => (.error cause, s, t.2)
    | (.ok (), s) => (.ok (), s, { t.2 with begun := ByteArray.empty })
  deliver t request :=
    let (delivery, s) := peer.deliver t.1 request
    let stream := t.2.begun ++ delivery.bytes
    let sent := Frame.intersperse (pads insertion t.2) stream
    (⟨sent.extract t.2.begun.size sent.size, delivery.ends⟩, s,
      ⟨Frame.remainder stream, t.2.replies + 1⟩)

end Peer

open Peer

/-! ## Inboxes -/

namespace Inbox

/-- **Two inboxes that differ in foreign frames only,** with the same bytes behind the last whole
frame. -/
inductive Alike (foreign : Command → Prop) (begun : ByteArray) : Inbox → Inbox → Prop
  | mk {cs ds : List Command} {front front' : ByteArray} {ended : Bool}
    (hcs : Frame.encodeAll cs = .ok front) (hds : Frame.encodeAll ds = .ok front')
    (h : Padded foreign cs ds) :
    Alike foreign begun ⟨front ++ begun, ended⟩ ⟨front' ++ begun, ended⟩

theorem alike_empty (foreign : Command → Prop) : Alike foreign ByteArray.empty .empty .empty :=
  have hnil : Frame.encodeAll [] = .ok ByteArray.empty := rfl
  .mk hnil hnil .nil

/-- **Waiting finds the same frame in both,** or nothing in both, and what is left is alike. -/
theorem Alike.await (h : Alike foreign begun inbox inbox') (hbegun : Frame.Frameless begun)
    {tag : Int64} (htag : ∀ d, foreign d → d.tag ≠ tag) :
    (∃ c rest rest', inbox.await tag = .found c rest ∧ inbox'.await tag = .found c rest' ∧
      Alike foreign begun rest rest') ∨
    ∃ ended error, inbox.await tag = missing ended error ∧
      inbox'.await tag = missing ended error := by
  obtain ⟨hcs, hds, hpadded⟩ := h
  obtain ⟨c, front, front', rest, rest', rfl, rfl, hc, hfront, hfront', hrest⟩ |
    ⟨hother, hother'⟩ := hpadded.first_cases htag
  · obtain ⟨more, hmore, hfound⟩ := exists_await_found hcs hfront hc begun _
    obtain ⟨more', hmore', hfound'⟩ := exists_await_found hds hfront' hc begun _
    exact .inl ⟨c, _, _, hfound, hfound', .mk hmore hmore' hrest⟩
  · exact .inr ⟨_, _, await_missing hcs hother hbegun.ending,
      await_missing hds hother' hbegun.ending⟩

end Inbox

namespace Client

variable {peer : Peer σ} {insertion : Nat → Nat → List Command} {client client' : Client}
  {progress : Progress}

/-! ## One exchange -/

/-- **What arrives differs in foreign frames only,** or nothing arrives for the same reason, and the
peers are in the same state. -/
inductive Arrived (foreign : Command → Prop) :
    Except ClientError Inbox × σ → Except ClientError Inbox × σ × Progress → Prop
  | inbox {inbox inbox' : Inbox} {s : σ} {progress : Progress}
    (hbegun : Frame.Frameless progress.begun) (h : inbox.Alike foreign progress.begun inbox') :
    Arrived foreign (.ok inbox, s) (.ok inbox', s, progress)
  | error {error : ClientError} {s : σ} {progress : Progress}
    (hbegun : Frame.Frameless progress.begun) :
    Arrived foreign (.error error, s) (.error error, s, progress)

/-- **Two clients that differ in foreign frames only.** -/
structure Alike (foreign : Command → Prop) (progress : Progress) (client client' : Client) :
    Prop where
  address : client'.address = client.address
  timeout : client'.timeout = client.timeout
  nextTag : client'.nextTag = client.nextTag
  frameless : Frame.Frameless progress.begun
  connection : Option.Rel (Inbox.Alike foreign progress.begun) client.connection client'.connection

/-- A new connection has got nothing yet. -/
theorem dial_arrived (peer : Peer σ) (insertion : Nat → Nat → List Command) (address : String)
    (s : σ) (hbegun : Frame.Frameless progress.begun) :
    Arrived foreign (dial peer address s)
      (dial (peer.interspersed insertion) address (s, progress)) := by
  unfold dial interspersed
  match hdial : peer.dial s with
  | (.ok (), s') =>
    simp only [hdial]
    exact .inbox Frame.frameless_empty (Inbox.alike_empty foreign)
  | (.error cause, s') =>
    simp only [hdial]
    exact .error hbegun

theorem Alike.reconnect (h : Alike foreign progress client client') (peer : Peer σ)
    (insertion : Nat → Nat → List Command) (s : σ) :
    Arrived foreign (client.reconnect peer s)
      (client'.reconnect (peer.interspersed insertion) (s, progress)) := by
  unfold Client.reconnect
  match hc : client.connection, hc' : client'.connection, h.connection with
  | none, none, .none =>
    rw [h.address]
    exact dial_arrived peer insertion client.address s h.frameless
  | some inbox, some inbox', .some hinbox => exact .inbox h.frameless hinbox

/-- The frames that are put into a reply are those of the insertion. -/
theorem of_mem_pads {P : Command → Prop} (h : ∀ i k, ∀ d ∈ insertion i k, P d)
    (progress : Progress) (k : Nat) : ∀ d ∈ pads insertion progress k, P d := by
  unfold pads
  split
  · exact nofun
  · exact h progress.replies k

/-- **A reply with foreign frames between its own** leaves alike inboxes alike. -/
theorem transmit_arrived (hfits : ∀ i k, ∀ d ∈ insertion i k, d.body.size ≤ maxBody)
    (hforeign : ∀ i k, ∀ d ∈ insertion i k, foreign d) {inbox inbox' : Inbox}
    (h : inbox.Alike foreign progress.begun inbox') (hbegun : Frame.Frameless progress.begun)
    (frame : ByteArray) (s : σ) :
    Arrived foreign
      (.ok (transmit peer inbox frame s).1, (transmit peer inbox frame s).2)
      (.ok (transmit (peer.interspersed insertion) inbox' frame (s, progress)).1,
        (transmit (peer.interspersed insertion) inbox' frame (s, progress)).2) := by
  obtain @⟨cs, ds, front, front', ended, hcs, hds, hpadded⟩ := h
  cases ended with
  | true => exact .inbox hbegun (.mk hcs hds hpadded)
  | false =>
    -- The whole frames in what has been sent since the last boundary, and what stands behind them.
    let stream := progress.begun ++ (peer.deliver s frame).1.bytes
    obtain ⟨hframes, hsplit, hremainder⟩ := Frame.eq_frames_append stream
    have hpads := of_mem_pads hfits progress
    have hmix := Frame.encodeAll_mix hpads (Frame.exists_encodeAll_iff.mp ⟨_, hframes⟩) 0
    -- What the reply holds is behind what was begun, since nothing is put in front of that.
    have hsent : progress.begun ++ _ = Frame.intersperse (pads insertion progress) stream :=
      Frame.append_extract_intersperse hbegun hpads fun hne => if_pos ⟨rfl, hne⟩
    have hinner : transmit peer ⟨front ++ progress.begun, false⟩ frame s =
        (⟨front ++ Frame.frames (Frame.readAll stream).commands ++ Frame.remainder stream,
          (peer.deliver s frame).1.ends⟩, (peer.deliver s frame).2) := by
      rw [ByteArray.append_assoc, ← hsplit, ← ByteArray.append_assoc]
      rfl
    have houter : transmit (peer.interspersed insertion) ⟨front' ++ progress.begun, false⟩ frame
          (s, progress) =
        (⟨front' ++ Frame.frames (Frame.mix (pads insertion progress) 0
            (Frame.readAll stream).commands) ++ Frame.remainder stream,
          (peer.deliver s frame).1.ends⟩, (peer.deliver s frame).2,
          ⟨Frame.remainder stream, progress.replies + 1⟩) := by
      rw [ByteArray.append_assoc, ← Frame.intersperse, ← hsent, ← ByteArray.append_assoc]
      rfl
    rw [hinner, houter]
    exact .inbox hremainder (.mk (Frame.encodeAll_append hcs hframes)
      (Frame.encodeAll_append hds hmix)
      (hpadded.append (Frame.padded_mix (of_mem_pads hforeign progress) 0 _)))

/-- **What arrives differs in foreign frames only.** -/
theorem Alike.arrival (h : Alike foreign progress client client')
    (hfits : ∀ i k, ∀ d ∈ insertion i k, d.body.size ≤ maxBody)
    (hforeign : ∀ i k, ∀ d ∈ insertion i k, foreign d) (peer : Peer σ) (c : Command) (s : σ) :
    Arrived foreign (client.arrival peer c s)
      (client'.arrival (peer.interspersed insertion) c (s, progress)) := by
  have hreconnect := h.reconnect peer insertion s
  unfold Client.arrival
  generalize client.reconnect peer s = left at hreconnect ⊢
  generalize client'.reconnect (peer.interspersed insertion) (s, progress) = right at hreconnect ⊢
  cases hreconnect with
  | error hbegun => exact .error hbegun
  | inbox hbegun hinbox =>
    cases Frame.encode c with
    | error error => exact .error hbegun
    | ok frame => exact transmit_arrived hfits hforeign hinbox hbegun frame _

/-! ## Calls -/

/-- **Calls come to the same,** and the clients and the peers afterwards are alike. -/
inductive Same (foreign : Command → Prop) {α : Type} :
    α × Client × σ → α × Client × σ × Progress → Prop
  | mk {result : α} {client client' : Client} {s : σ} {progress : Progress}
    (h : Alike foreign progress client client') :
    Same foreign (result, client, s) (result, client', s, progress)

theorem Alike.isSome_connection (h : Alike foreign progress client client') :
    client'.connection.isSome = client.connection.isSome := by
  match client.connection, client'.connection, h.connection with
  | none, none, .none => rfl
  | some _, some _, .some _ => rfl

/-- What calls that come to the same have in common. -/
theorem Same.eqs {α : Type} {left : α × Client × σ} {right : α × Client × σ × Progress}
    (h : Same foreign left right) :
    right.1 = left.1 ∧ right.2.2.1 = left.2.2 ∧ right.2.1.nextTag = left.2.1.nextTag ∧
      right.2.1.connection.isSome = left.2.1.connection.isSome := by
  obtain ⟨h⟩ := h
  exact ⟨rfl, rfl, h.nextTag, h.isSome_connection⟩

theorem Alike.next (h : Alike foreign progress client client') {progress' : Progress}
    (hbegun : Frame.Frameless progress'.begun) {connection connection' : Option Inbox}
    (hconnection : Option.Rel (Inbox.Alike foreign progress'.begun) connection connection') :
    Alike foreign progress' (client.next connection) (client'.next connection') where
  address := h.address
  timeout := h.timeout
  nextTag := congrArg (· + 1) h.nextTag
  frameless := hbegun
  connection := hconnection

/-- **One call comes to the same** if no foreign frame has its tag. -/
theorem Alike.ask (h : Alike foreign progress client client')
    (hfits : ∀ i k, ∀ d ∈ insertion i k, d.body.size ≤ maxBody)
    (hforeign : ∀ i k, ∀ d ∈ insertion i k, foreign d)
    (htag : ∀ d, foreign d → d.tag ≠ client.nextTag) (peer : Peer σ) (request : Request) (s : σ) :
    Same foreign (client.ask peer request s)
      (client'.ask (peer.interspersed insertion) request (s, progress)) := by
  rw [ask_eq, ask_eq]
  by_cases hsize : request.body.size > maxBody
  · rw [if_pos hsize, if_pos hsize]
    exact .mk (h.next h.frameless h.connection)
  · -- Both clients ask with the same tag, so the same frame is looked for in both inboxes.
    rw [if_neg hsize, if_neg hsize, exchange_eq, exchange_eq, h.nextTag, h.timeout]
    have harrival := h.arrival hfits hforeign peer (request.toCommand client.nextTag) s
    generalize client.arrival peer (request.toCommand client.nextTag) s = left at harrival ⊢
    generalize client'.arrival (peer.interspersed insertion) (request.toCommand client.nextTag)
      (s, progress) = right at harrival ⊢
    cases harrival with
    | error hbegun => exact .mk (h.next hbegun .none)
    | inbox hbegun hinbox =>
      simp only [Except.bind, Request.toCommand]
      obtain ⟨c, rest, rest', hfound, hfound', hrest⟩ | ⟨ended, error, hmissing, hmissing'⟩ :=
        hinbox.await hbegun htag
      · rw [hfound, hfound']
        exact .mk (h.next hbegun (.some hrest))
      · rw [hmissing, hmissing']
        obtain ⟨failure, hsettle⟩ := settle_missing client.timeout ended error
        rw [hsettle]
        exact .mk (h.next hbegun .none)

/-- **Any calls come to the same** if no foreign frame has the tag of one of them. -/
theorem Alike.run (h : Alike foreign progress client client')
    (hfits : ∀ i k, ∀ d ∈ insertion i k, d.body.size ≤ maxBody)
    (hforeign : ∀ i k, ∀ d ∈ insertion i k, foreign d) (peer : Peer σ) (requests : List Request)
    (htags : ∀ d, foreign d → ∀ i < requests.length, d.tag ≠ client.nextTag + Int64.ofNat i)
    (s : σ) :
    Same foreign (client.run peer s requests)
      (client'.run (peer.interspersed insertion) (s, progress) requests) := by
  induction requests generalizing client client' progress s with
  | nil => exact .mk h
  | cons request rest ih =>
    have hask := h.ask hfits hforeign
      (fun d hd => by simpa using htags d hd 0 (Nat.zero_lt_succ _)) peer request s
    obtain ⟨connection, hnext⟩ := exists_ask_eq_next peer client request s
    rw [Client.run, Client.run]
    generalize client.ask peer request s = left at hask hnext ⊢
    generalize client'.ask (peer.interspersed insertion) request (s, progress) = right at hask ⊢
    cases hask with
    | @mk result client₁ client₁' s₁ progress₁ h₁ =>
      -- The tags of the calls that are left are those behind the tag of this one.
      have htags₁ : ∀ d, foreign d → ∀ i < rest.length,
          d.tag ≠ client₁.nextTag + Int64.ofNat i := by
        intro d hd i hi
        have htag := htags d hd (1 + i) (by rw [List.length_cons]; omega)
        have hone : Int64.ofNat 1 = 1 := rfl
        have hclient₁ : client₁.nextTag = client.nextTag + 1 := congrArg Client.nextTag hnext
        rwa [Int64.ofNat_add, hone, ← Int64.add_assoc, ← hclient₁] at htag
      have hrest := ih h₁ htags₁ s₁
      dsimp only
      generalize client₁.run peer s₁ rest = left at hrest ⊢
      generalize client₁'.run (peer.interspersed insertion) (s₁, progress₁) rest = right at hrest ⊢
      cases hrest with
      | mk h₂ => exact .mk h₂

/-! ## The first frame with the tag -/

/-- **The response of a call is the first one with its tag** among the frames that had not been read
on its connection when the call began, and those that came then. -/
def FirstAnswer (peer : Peer σ) (client : Client) (request : Request) (s : σ)
    (response : Response) : Prop :=
  ∃ held more ended after c,
    (client.reconnect peer s).1 = .ok held ∧
    client.arrival peer (request.toCommand client.nextTag) s =
      (.ok ⟨held.unread ++ more, ended⟩, after) ∧
    (Frame.readAll (held.unread ++ more)).commands.find? (fun d => d.tag = client.nextTag) =
      some c ∧
    request.understand c = .ok response

/-- What arrives stands behind what had not been read before. -/
theorem arrival_append {c : Command} {s s' : σ} {inbox : Inbox}
    (h : client.arrival peer c s = (.ok inbox, s')) :
    ∃ held more, (client.reconnect peer s).1 = .ok held ∧ inbox.unread = held.unread ++ more := by
  unfold arrival at h
  match hreconnect : client.reconnect peer s with
  | (.error error, s₁) =>
    rw [hreconnect] at h
    cases h
  | (.ok held, s₁) =>
    rw [hreconnect] at h
    cases hc : Frame.encode c with
    | error error =>
      rw [hc] at h
      cases h
    | ok frame =>
      simp only [hc, transmit] at h
      refine ⟨held, ?_⟩
      split at h
      · -- The connection has ended, so nothing more arrives.
        cases h
        exact ⟨ByteArray.empty, rfl, ByteArray.append_empty.symm⟩
      · cases h
        exact ⟨_, rfl, rfl⟩

/-- **A successful call** returns the first response with its tag. -/
theorem firstAnswer_of_ask {request : Request} {s : σ} {response : Response}
    (h : (client.ask peer request s).1 = .ok response) :
    FirstAnswer peer client request s response := by
  rw [ask_eq] at h
  split at h
  · cases h
  · rw [exchange_eq] at h
    match harrival : client.arrival peer (request.toCommand client.nextTag) s with
    | (.error error, s') =>
      rw [harrival] at h
      cases h
    | (.ok inbox, s') =>
      rw [harrival] at h
      simp only [Except.bind, Request.toCommand] at h
      obtain ⟨held, more, hheld, hunread⟩ := arrival_append harrival
      obtain ⟨unread, ended⟩ := inbox
      obtain rfl : unread = held.unread ++ more := hunread
      obtain ⟨c, rest, hfirst, hawait⟩ | ⟨-, hawait⟩ := Inbox.await_cases _ client.nextTag
      · rw [hawait] at h
        exact ⟨held, more, ended, s', c, hheld, harrival, hfirst, h⟩
      · rw [hawait] at h
        obtain ⟨failure, hsettle⟩ := settle_missing client.timeout ended _
        rw [hsettle] at h
        cases h

/-! ## Any number of calls -/

/-- A peer that puts frames between those of another is connected to alike. -/
theorem connect_interspersed (insertion : Nat → Nat → List Command) {address : String} {s t : σ}
    (h : Client.connect peer address s = (.ok client, t)) :
    Client.connect (peer.interspersed insertion) address (s, .start) = (.ok client, t, .start) := by
  unfold connect dial at h ⊢
  unfold interspersed
  match hdial : peer.dial s with
  | (.ok (), s') =>
    rw [hdial] at h
    cases h
    simp only [hdial]
    rfl
  | (.error cause, s') =>
    rw [hdial] at h
    cases h

/-- **Foreign frames are invisible.** A client has connected to any peer, which keeps a record of
what it is sent, and makes any sequence of calls. If the same peer puts any commands that fit
frames, with tags that no call of the sequence has, between its own frames, then all calls have the
same results, and after each of them the peer has got the same requests on the same connections and
the client has a connection or not as before. In either case a successful call returns the first
response with its tag among the frames that were not read when it began. -/
theorem run_ignores_foreign (peer : Peer σ) {address : String} {s : σ} {t : σ × Journal}
    (hconnect : Client.connect peer.journaled address (s, .empty) = (.ok client, t))
    (timeout : Nat) (requests : List Request)
    (hinsertion : ∀ i k, ∀ d ∈ insertion i k, d.body.size ≤ maxBody ∧
      ∀ j < requests.length, d.tag ≠ Int64.ofNat (j + 1)) :
    let start : Client := { client with timeout := timeout }
    let padded := peer.journaled.interspersed insertion
    Client.connect padded address ((s, .empty), .start) = (.ok client, t, .start) ∧
    (∀ before after, requests = before ++ after →
      let plainly := start.run peer.journaled t before
      let calls := start.run padded (t, .start) before
      calls.1 = plainly.1 ∧ calls.2.2.1 = plainly.2.2 ∧
        calls.2.1.connection.isSome = plainly.2.1.connection.isSome) ∧
    ∀ before request after response, requests = before ++ request :: after →
      (start.run peer.journaled t requests).1[before.length]? = some (.ok response) →
      let here := (start.run peer.journaled t before).2
      let there := (start.run padded (t, .start) before).2
      here.1.nextTag = Int64.ofNat (before.length + 1) ∧ there.1.nextTag = here.1.nextTag ∧
      FirstAnswer peer.journaled here.1 request here.2 response ∧
      FirstAnswer padded there.1 request there.2 response := by
  intro start padded
  obtain rfl := eq_of_connect hconnect
  -- A frame that one call leaves may be read by any later one, so it has to be foreign to all.
  let foreign (d : Command) : Prop := ∀ j < requests.length, d.tag ≠ Int64.ofNat (j + 1)
  have hone : Int64.ofNat 1 = 1 := rfl
  have hstart : Alike foreign .start start start := {
    address := rfl
    timeout := rfl
    nextTag := rfl
    frameless := Frame.frameless_empty
    connection := .some (Inbox.alike_empty foreign) }
  have hsame (before after : List Request) (hrequests : requests = before ++ after) :
      Same foreign (start.run peer.journaled t before) (start.run padded (t, .start) before) := by
    refine hstart.run (fun i k d hd => (hinsertion i k d hd).1)
      (fun i k d hd => (hinsertion i k d hd).2) peer.journaled before (fun d hd i hi => ?_) t
    have htag := hd i (by rw [hrequests, List.length_append]; omega)
    rwa [Nat.add_comm, Int64.ofNat_add, hone] at htag
  refine ⟨connect_interspersed insertion hconnect, ?_, ?_⟩
  · intro before after hrequests
    obtain ⟨hresults, hstate, -, hconnection⟩ := (hsame before after hrequests).eqs
    exact ⟨hresults, hstate, hconnection⟩
  · rintro before request after response hrequests hresponse here there
    obtain ⟨-, -, htag, -⟩ := (hsame before (request :: after) hrequests).eqs
    have hresponse' := hresponse
    rw [← (hsame requests [] (List.append_nil _).symm).eqs.1] at hresponse'
    rw [hrequests, getElem?_run] at hresponse hresponse'
    refine ⟨?_, htag, firstAnswer_of_ask (Option.some.inj hresponse),
      firstAnswer_of_ask (Option.some.inj hresponse')⟩
    rw [run_nextTag, Nat.add_comm before.length, Int64.ofNat_add, hone]

/-- A stale frame stands around each of two answers. The second call reads past two of them, and the
one behind its answer is left. -/
theorem run_ignores_foreign_stale :
    let kind : CommandKind := ⟨.viewWholeLog, .response⟩
    let stale : Command := ⟨kind, 99, ByteArray.empty⟩
    let body := "\x7b\"content\":\"late\"\x7d".toUTF8
    let script : List (List Script.Action) :=
      [[.command kind 0 body none], [.command kind 0 body none]]
    let first : Request := .viewWholeLog ⟨"/logs/a.log"⟩
    let second : Request := .viewWholeLog ⟨"/logs/b.log"⟩
    let client : Client := ⟨"worker", defaultTimeout, 1, some .empty⟩
    let start : Client := { client with timeout := 50 }
    let t : List (List Script.Action) × Journal := (script, ⟨1, []⟩)
    let padded := Script.peer.journaled.interspersed fun _ _ => [stale]
    let results := (start.run padded (t, .start) [first, second]).1
    let left := (start.run padded (t, .start) [first, second]).2.1.connection
    Client.connect Script.peer.journaled "worker" (script, .empty) = (.ok client, t) ∧
      Client.connect padded "worker" ((script, .empty), .start) = (.ok client, t, .start) ∧
      results = (start.run Script.peer.journaled t [first, second]).1 ∧
      (∃ response, results[1]? = some (.ok response) ∧
        FirstAnswer padded (start.run padded (t, .start) [first]).2.1 second
          (start.run padded (t, .start) [first]).2.2 response) ∧
      left.map Inbox.unread = some (Script.frameOf stale none) := by
  intro kind stale body script first second client start t padded results left
  have hconnect : Client.connect Script.peer.journaled "worker" (script, .empty) =
      (.ok client, t) := rfl
  have hinsertion : ∀ _i _k : Nat, ∀ d ∈ [stale], d.body.size ≤ maxBody ∧
      ∀ j < [first, second].length, d.tag ≠ Int64.ofNat (j + 1) := by
    rintro - - d hd
    rw [List.mem_singleton.mp hd]
    decide +kernel
  obtain ⟨hpadded, hsame, hanswers⟩ :=
    run_ignores_foreign Script.peer hconnect 50 [first, second] hinsertion
  have hresults : results = (start.run Script.peer.journaled t [first, second]).1 :=
    (hsame [first, second] [] rfl).1
  have hsecond : results[1]?.map (·.toBool) = some true := by decide +kernel
  obtain ⟨response, hresponse⟩ : ∃ response, results[1]? = some (.ok response) := by
    match hresult : results[1]? with
    | none | some (.error _) =>
      rw [hresult] at hsecond
      cases hsecond
    | some (.ok response) => exact ⟨response, rfl⟩
  refine ⟨hconnect, hpadded, hresults, ⟨response, hresponse, ?_⟩, by decide +kernel⟩
  exact (hanswers [first] second [] response rfl (hresults ▸ hresponse)).2.2.2

end Client

end RemoteLog
