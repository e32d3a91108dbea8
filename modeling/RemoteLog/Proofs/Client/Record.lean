import RemoteLog.Client.Basic

/-! # Peers seen through others

A peer with more to its state than another may do just what the other does. A client cannot tell
the two apart, so what is observed of the larger one is true of the smaller one.

* **`Peer.Shows view outer inner`** — `outer` does what `inner` does, seen through `view`.
* **`Client.run_of_shows`** — a client's calls come to the same with both.
* **`Peer.Moves peer R`** — a relation between the states before and after all that a peer does.
* **`Client.run_moves`** — it holds before and after a client's calls.
* **`Peer.recorded`** — a peer that keeps a record of the bytes it sends on each connection. -/

namespace RemoteLog

open Message

variable {σ τ : Type}

namespace Peer

/-- **A peer that does what another does,** seen through `view`. -/
structure Shows (view : τ → σ) (outer : Peer τ) (inner : Peer σ) : Prop where
  dial : ∀ t, inner.dial (view t) = ((outer.dial t).1, view (outer.dial t).2)
  deliver : ∀ t request,
    inner.deliver (view t) request = ((outer.deliver t request).1, view (outer.deliver t request).2)

/-- **What all moves of a peer have in common,** as a relation between its states before and
after. -/
structure Moves (peer : Peer σ) (R : σ → σ → Prop) : Prop where
  refl : ∀ s, R s s
  trans : ∀ {s s' s''}, R s s' → R s' s'' → R s s''
  dial : ∀ s, R s (peer.dial s).2
  deliver : ∀ s request, R s (peer.deliver s request).2

/-- The record with more bytes on the newest connection. -/
def addToNewest (bytes : ByteArray) : List ByteArray → List ByteArray
  | [] => [bytes]
  | sent :: older => (sent ++ bytes) :: older

/-- **A peer that keeps a record of what it sends:** the bytes on each connection, the newest one
first. -/
def recorded (peer : Peer σ) : Peer (σ × List ByteArray) where
  dial s :=
    match peer.dial s.1 with
    | (.error cause, next) => (.error cause, next, s.2)
    | (.ok (), next) => (.ok (), next, ByteArray.empty :: s.2)
  deliver s request :=
    let (delivery, next) := peer.deliver s.1 request
    (delivery, next, addToNewest delivery.bytes s.2)

/-- The record makes no difference to what the peer does. -/
theorem recorded_shows (peer : Peer σ) : Shows Prod.fst peer.recorded peer where
  dial t := by
    unfold recorded
    dsimp only
    split <;> next h => rw [h]
  deliver _ _ := rfl

end Peer

namespace Client

open Peer

section

variable {view : τ → σ} {outer : Peer τ} {inner : Peer σ}

theorem dial_of_shows (h : Shows view outer inner) (address : String) (t : τ) :
    dial inner address (view t) = ((dial outer address t).1, view (dial outer address t).2) := by
  unfold dial
  rw [h.dial]
  match outer.dial t with
  | (.ok (), _) => rfl
  | (.error _, _) => rfl

theorem reconnect_of_shows (h : Shows view outer inner) (client : Client) (t : τ) :
    client.reconnect inner (view t) =
      ((client.reconnect outer t).1, view (client.reconnect outer t).2) := by
  unfold reconnect
  cases client.connection with
  | some inbox => rfl
  | none => exact dial_of_shows h client.address t

theorem transmit_of_shows (h : Shows view outer inner) (inbox : Inbox) (frame : ByteArray) (t : τ) :
    transmit inner inbox frame (view t) =
      ((transmit outer inbox frame t).1, view (transmit outer inbox frame t).2) := by
  unfold transmit
  cases inbox.ended with
  | true => rfl
  | false => rw [if_neg Bool.false_ne_true, if_neg Bool.false_ne_true, h.deliver]

theorem exchange_of_shows (h : Shows view outer inner) (client : Client) (c : Command) (t : τ) :
    client.exchange inner c (view t) =
      ((client.exchange outer c t).1, view (client.exchange outer c t).2) := by
  unfold exchange
  rw [reconnect_of_shows h]
  match client.reconnect outer t with
  | (.error _, _) => rfl
  | (.ok inbox, t) =>
    cases Frame.encode c with
    | error _ => rfl
    | ok frame =>
      dsimp only
      rw [transmit_of_shows h]

theorem send_of_shows (h : Shows view outer inner) {α : Type} [Body α] (β : Type) [Body β]
    (client : Client) (request : α) (t : τ) :
    client.send β inner request (view t) =
      ((client.send β outer request t).1, (client.send β outer request t).2.1,
        view (client.send β outer request t).2.2) := by
  unfold send
  dsimp only
  cases Body.toCommand request client.nextTag with
  | error _ => rfl
  | ok c =>
    dsimp only
    rw [exchange_of_shows h]
    match client.exchange outer c t with
    | (.error _, _) => rfl
    | (.ok (_, _), _) => rfl

theorem wrap_of_shows {β : Type} (constructor : β → Response)
    (r : Except ClientError β × Client × τ) :
    wrap constructor (r.1, r.2.1, view r.2.2) =
      ((wrap constructor r).1, (wrap constructor r).2.1, view (wrap constructor r).2.2) := by
  match r with
  | (.ok _, _) => rfl
  | (.error _, _) => rfl

theorem ask_of_shows (h : Shows view outer inner) (client : Client) (request : Request) (t : τ) :
    client.ask inner request (view t) =
      ((client.ask outer request t).1, (client.ask outer request t).2.1,
        view (client.ask outer request t).2.2) := by
  cases request with
  | getLogBytes | viewWholeLog | rollViewLog | removeTaskLog | getAppId =>
    rw [ask, send_of_shows h]
    exact wrap_of_shows _ _

/-- **A client's calls come to the same** with a peer and with one that shows it. -/
theorem run_of_shows (h : Shows view outer inner) (client : Client) (t : τ)
    (requests : List Request) :
    client.run inner (view t) requests =
      ((client.run outer t requests).1, (client.run outer t requests).2.1,
        view (client.run outer t requests).2.2) := by
  induction requests generalizing client t with
  | nil => rfl
  | cons request rest ih =>
    rw [run, ask_of_shows h]
    dsimp only
    rw [ih]
    rfl

end

section

variable {peer : Peer σ} {R : σ → σ → Prop}

theorem reconnect_moves (h : peer.Moves R) (client : Client) (s : σ) :
    R s (client.reconnect peer s).2 := by
  unfold reconnect
  cases client.connection with
  | some inbox => exact h.refl s
  | none =>
    have hdial := h.dial s
    unfold dial
    match hs : peer.dial s with
    | (.ok (), s') | (.error cause, s') => rwa [hs] at hdial

theorem transmit_moves (h : peer.Moves R) (inbox : Inbox) (frame : ByteArray) (s : σ) :
    R s (transmit peer inbox frame s).2 := by
  unfold transmit
  split
  · exact h.refl s
  · exact h.deliver s frame

theorem exchange_moves (h : peer.Moves R) (client : Client) (c : Command) (s : σ) :
    R s (client.exchange peer c s).2 := by
  have hreconnect := reconnect_moves h client s
  unfold exchange
  match hs : client.reconnect peer s with
  | (.error error, s') => rwa [hs] at hreconnect
  | (.ok inbox, s') =>
    rw [hs] at hreconnect
    cases Frame.encode c with
    | error error => exact hreconnect
    | ok frame => exact h.trans hreconnect (transmit_moves h inbox frame s')

theorem send_moves (h : peer.Moves R) {α : Type} [Body α] (β : Type) [Body β] (client : Client)
    (request : α) (s : σ) : R s (client.send β peer request s).2.2 := by
  unfold send
  dsimp only
  cases Body.toCommand request client.nextTag with
  | error error => exact h.refl s
  | ok c =>
    have hexchange := exchange_moves h client c s
    dsimp only
    match hs : client.exchange peer c s with
    | (.ok (_, _), s') | (.error _, s') => rwa [hs] at hexchange

theorem wrap_snd {β : Type} (constructor : β → Response) (r : Except ClientError β × Client × σ) :
    (wrap constructor r).2 = r.2 := by
  match r with
  | (.ok _, _) | (.error _, _) => rfl

theorem ask_moves (h : peer.Moves R) (client : Client) (request : Request) (s : σ) :
    R s (client.ask peer request s).2.2 := by
  cases request with
  | getLogBytes | viewWholeLog | rollViewLog | removeTaskLog | getAppId =>
    rw [ask, wrap_snd]
    exact send_moves h _ client _ s

/-- **What all moves of a peer have in common holds of a client's calls.** -/
theorem run_moves (h : peer.Moves R) (client : Client) (s : σ) (requests : List Request) :
    R s (client.run peer s requests).2.2 := by
  induction requests generalizing client s with
  | nil => exact h.refl s
  | cons request rest ih => exact h.trans (ask_moves h client request s) (ih _ _)

/-- A sequence of calls goes on from where its first part ends. -/
theorem run_append (peer : Peer σ) (client : Client) (s : σ) (before after : List Request) :
    client.run peer s (before ++ after) =
      ((client.run peer s before).1 ++
          ((client.run peer s before).2.1.run peer (client.run peer s before).2.2 after).1,
        ((client.run peer s before).2.1.run peer (client.run peer s before).2.2 after).2) := by
  induction before generalizing client s with
  | nil => rfl
  | cons request rest ih => simp only [List.cons_append, run, ih]

end

end Client

end RemoteLog
