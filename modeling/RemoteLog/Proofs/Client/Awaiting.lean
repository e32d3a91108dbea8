import RemoteLog.Proofs.Client.Exchange
import RemoteLog.Proofs.Frame.Boundary

/-! # What waiting finds

A client that waits for a tag reads one frame after the other and throws away those with other tags.
What it finds is the first frame with the tag among the whole frames that have arrived. If there is
none, the way in which these frames end decides.

* **`Inbox.missing ended error`** — what waiting comes to without the frame.
* **`Inbox.awaitFrom_skip`** — frames with other tags are passed over.
* **`Inbox.await_found`**, **`Inbox.await_missing`** — waiting for a frame that is there, and for
  one that is not.
* **`Inbox.await_cases`** — one or the other, by the transcript of what has arrived. -/

namespace RemoteLog

namespace Inbox

variable {inbox : Inbox} {tag : Int64} {ended : Bool} {cs : List Command} {c : Command}
  {front frame rest : ByteArray}

/-- **What waiting comes to without the frame,** by the error that ends the reading. -/
def missing (ended : Bool) : Option ProtocolError → Wait
  | none => if ended then .ended else .more
  | some (.stream cause) => if ended then .unreadable (.stream cause) else .more
  | some error => .unreadable error

/-- A frame with another tag is passed over. -/
theorem awaitFrom_of_other {i next : Nat} (h : Frame.read inbox.unread i = .frame c next)
    (htag : c.tag ≠ tag) : inbox.awaitFrom tag i = inbox.awaitFrom tag next := by
  rw [awaitFrom_eq, h]
  exact if_neg htag

/-- **Frames with other tags are passed over.** -/
theorem awaitFrom_skip (inbox : Inbox) {i : Nat} {after : List UInt8}
    (hcs : Frame.encodeAll cs = .ok front) (hother : ∀ d ∈ cs, d.tag ≠ tag)
    (hunread : (Bytes.toList inbox.unread).drop i = Bytes.toList front ++ after) :
    inbox.awaitFrom tag i = inbox.awaitFrom tag (i + front.size) := by
  induction cs generalizing i front with
  | nil =>
    cases hcs
    rfl
  | cons c cs ih =>
    obtain ⟨frame, more, hc, hmore, rfl⟩ := Frame.encodeAll_cons_eq_ok_iff.mp hcs
    obtain ⟨htag, hrest⟩ := List.forall_mem_cons.mp hother
    rw [Bytes.toList_append, List.append_assoc] at hunread
    have hnext := Frame.drop_add_of_drop_eq hunread
    rw [Bytes.length_toList] at hnext
    rw [awaitFrom_of_other (Frame.read_of_encode hc hunread) htag, ih hmore hrest hnext,
      ByteArray.size_append, Nat.add_assoc]

/-- Waiting goes on behind frames with other tags. -/
theorem await_skip (hcs : Frame.encodeAll cs = .ok front) (hother : ∀ d ∈ cs, d.tag ≠ tag) :
    await ⟨front ++ rest, ended⟩ tag = awaitFrom ⟨front ++ rest, ended⟩ tag front.size := by
  have hskip := awaitFrom_skip ⟨front ++ rest, ended⟩ hcs hother
    (by rw [List.drop_zero, Bytes.toList_append])
  rwa [Nat.zero_add] at hskip

/-- What stands behind some bytes. -/
theorem drop_size_append (front rest : ByteArray) :
    (Bytes.toList (front ++ rest)).drop front.size = Bytes.toList rest := by
  rw [Bytes.toList_append, List.drop_left' (Bytes.length_toList front)]

/-- **Waiting finds the first frame with the tag,** and what follows it is left. -/
theorem await_found (hcs : Frame.encodeAll cs = .ok front) (hother : ∀ d ∈ cs, d.tag ≠ tag)
    (hc : Frame.encode c = .ok frame) (htag : c.tag = tag) :
    await ⟨front ++ (frame ++ rest), ended⟩ tag = .found c ⟨rest, ended⟩ := by
  have hunread : (Bytes.toList (front ++ (frame ++ rest))).drop front.size =
      Bytes.toList frame ++ Bytes.toList rest := by
    rw [drop_size_append, Bytes.toList_append]
  have hread : Frame.read (Inbox.mk (front ++ (frame ++ rest)) ended).unread front.size =
      .frame c (front.size + frame.size) := Frame.read_of_encode hc hunread
  have hrest : (front ++ (frame ++ rest)).extract (front.size + frame.size)
      (front ++ (frame ++ rest)).size = rest := by
    rw [← ByteArray.append_assoc, ByteArray.size_append,
      ByteArray.extract_append_eq_right ByteArray.size_append.symm rfl]
  rw [await_skip hcs hother, awaitFrom_of_frame hread htag, hrest]

/-- The frames behind the first one with the tag are left. -/
theorem exists_await_found {cs ds : List Command} {whole : ByteArray}
    (hwhole : Frame.encodeAll (cs ++ c :: ds) = .ok whole) (hother : ∀ d ∈ cs, d.tag ≠ tag)
    (htag : c.tag = tag) (rest : ByteArray) (ended : Bool) :
    ∃ more, Frame.encodeAll ds = .ok more ∧
      await ⟨whole ++ rest, ended⟩ tag = .found c ⟨more ++ rest, ended⟩ := by
  obtain ⟨front, others, hfront, hothers, rfl⟩ := Frame.exists_of_encodeAll_append hwhole
  obtain ⟨frame, more, hc, hmore, rfl⟩ := Frame.encodeAll_cons_eq_ok_iff.mp hothers
  refine ⟨more, hmore, ?_⟩
  rw [ByteArray.append_assoc, ByteArray.append_assoc]
  exact await_found hfront hother hc htag

/-- **Waiting for a frame that has not arrived** comes to what ends the frames. -/
theorem await_missing (hcs : Frame.encodeAll cs = .ok front) (hother : ∀ d ∈ cs, d.tag ≠ tag)
    {error : Option ProtocolError} (hending : Frame.Ending (Bytes.toList rest) error) :
    await ⟨front ++ rest, ended⟩ tag = missing ended error := by
  have hdrop := drop_size_append front rest
  rw [await_skip hcs hother, awaitFrom_eq]
  cases error with
  | none =>
    rw [Frame.read_of_nil (hdrop.trans hending)]
    rfl
  | some error =>
    obtain ⟨left, hdamage⟩ := hending
    rw [Frame.read_of_damage hdamage hdrop]
    cases error <;> rfl

/-- **What waiting comes to,** by the transcript of what has arrived: its first command with the
tag, or what ends it. -/
theorem await_cases (inbox : Inbox) (tag : Int64) :
    (∃ c rest, (Frame.readAll inbox.unread).commands.find? (fun d => d.tag = tag) = some c ∧
      inbox.await tag = .found c rest) ∨
    (∀ d ∈ (Frame.readAll inbox.unread).commands, d.tag ≠ tag) ∧
      inbox.await tag = missing inbox.ended (Frame.readAll inbox.unread).error := by
  obtain ⟨unread, ended⟩ := inbox
  obtain ⟨front, rest, hfront, hunread, hending⟩ := Frame.exists_split unread
  dsimp only
  cases hfind : (Frame.readAll unread).commands.find? (fun d => d.tag = tag) with
  | none =>
    have hother : ∀ d ∈ (Frame.readAll unread).commands, d.tag ≠ tag := by simpa using hfind
    refine .inr ⟨hother, ?_⟩
    have hmissing : await ⟨front ++ rest, ended⟩ tag = missing ended _ :=
      await_missing hfront hother hending
    rwa [← hunread] at hmissing
  | some c =>
    obtain ⟨htag, before, behind, hcommands, hbefore⟩ := List.find?_eq_some_iff_append.mp hfind
    rw [hcommands] at hfront
    obtain ⟨more, -, hfound⟩ :=
      exists_await_found hfront (by simpa using hbefore) (by simpa using htag) rest ended
    rw [← hunread] at hfound
    exact .inl ⟨c, _, rfl, hfound⟩

end Inbox

/-- Without the frame, waiting ends in an error. -/
theorem Client.settle_missing (timeout : Nat) (ended : Bool) (error : Option ProtocolError) :
    ∃ failure, settle timeout (Inbox.missing ended error) = .error failure := by
  cases ended with
  | true | false =>
    cases error with
    | none => exact ⟨_, rfl⟩
    | some error => cases error <;> exact ⟨_, rfl⟩

end RemoteLog
