import RemoteLog.Proofs.Frame.Reading

/-! # Streams of frames

A stream is good when it is made of whole frames, one behind the other. Reading undoes writing for
good streams and accepts no other; behind the good frames of a damaged stream it reports the first
field that shows the damage.

* **`encodeAll cs`** — the frames of commands, one behind the other.
* **`readAllFrom_append`** — reading goes through the frames of commands and gives just these.
* **`readAll_eq_clean_iff`** — a stream is read to a clean end exactly if it is made of frames.
* **`readAll_damaged`** — what is read of frames with a damaged frame behind them. -/

namespace RemoteLog.Frame

/-- **The frames of commands, one behind the other.** -/
def encodeAll : List Command → Except ProtocolError ByteArray
  | [] => .ok ByteArray.empty
  | c :: rest => do return (← encode c) ++ (← encodeAll rest)

@[simp] theorem encodeAll_nil : encodeAll [] = .ok ByteArray.empty := rfl

/-- The frames of a list start with the frame of its first command. -/
theorem encodeAll_cons_eq_ok_iff {c : Command} {cs : List Command} {s : ByteArray} :
    encodeAll (c :: cs) = .ok s ↔
      ∃ frame more, encode c = .ok frame ∧ encodeAll cs = .ok more ∧ s = frame ++ more := by
  cases hc : encode c with
  | error e => simp [encodeAll, hc, bind, Except.bind]
  | ok frame =>
    cases hcs : encodeAll cs with
    | error e => simp [encodeAll, hc, hcs, bind, Except.bind]
    | ok more => simp [encodeAll, hc, hcs, bind, Except.bind, pure, Except.pure, eq_comm]

/-- Commands have frames exactly if none of their bodies is too large. -/
theorem exists_encodeAll_iff {cs : List Command} :
    (∃ s, encodeAll cs = .ok s) ↔ ∀ c ∈ cs, c.body.size ≤ maxBody := by
  induction cs with
  | nil => simp
  | cons c cs ih =>
    rw [List.forall_mem_cons, ← ih]
    constructor
    · rintro ⟨s, hs⟩
      obtain ⟨frame, more, hc, hcs, -⟩ := encodeAll_cons_eq_ok_iff.mp hs
      exact ⟨(encode_eq_ok_iff.mp hc).1, more, hcs⟩
    · rintro ⟨hbody, more, hcs⟩
      obtain ⟨frame, hc⟩ := exists_encode hbody
      exact ⟨_, encodeAll_cons_eq_ok_iff.mpr ⟨frame, more, hc, hcs, rfl⟩⟩

/-! ## One step of reading -/

section

variable {s : ByteArray} {i next : Nat} {seen : List Command}

/-- A frame is collected, and reading goes on behind it. -/
theorem readAllFrom_of_frame {c : Command} (h : read s i = .frame c next) :
    readAllFrom s i seen = readAllFrom s next (c :: seen) := by
  rw [readAllFrom_eq, h]

/-- The end is a clean end. -/
theorem readAllFrom_of_ended (h : read s i = .ended) :
    readAllFrom s i seen = ⟨seen.reverse, none, s.size - i⟩ := by
  rw [readAllFrom_eq, h]

/-- A failure ends the reading. -/
theorem readAllFrom_of_failed {error : ProtocolError} (h : read s i = .failed error next) :
    readAllFrom s i seen = ⟨seen.reverse, some error, s.size - next⟩ := by
  rw [readAllFrom_eq, h]

end

/-! ## Reading what was written -/

/-- **Reading goes through the frames of commands** and collects just these. -/
theorem readAllFrom_append {cs : List Command} {s front : ByteArray} {i : Nat}
    {seen : List Command} {rest : List UInt8} (hcs : encodeAll cs = .ok front)
    (h : (Bytes.toList s).drop i = Bytes.toList front ++ rest) :
    readAllFrom s i seen = readAllFrom s (i + front.size) (cs.reverse ++ seen) := by
  -- The position moves by one frame while the command of the frame is collected.
  induction cs generalizing i front seen with
  | nil =>
    cases hcs
    rfl
  | cons c cs ih =>
    obtain ⟨frame, more, hc, hmore, rfl⟩ := encodeAll_cons_eq_ok_iff.mp hcs
    rw [Bytes.toList_append, List.append_assoc] at h
    have hnext := drop_add_of_drop_eq h
    rw [Bytes.length_toList] at hnext
    rw [readAllFrom_of_frame (read_of_encode hc h), ih hmore hnext, ByteArray.size_append,
      Nat.add_assoc, List.reverse_cons, List.append_assoc, List.singleton_append]

/-- What is read of frames with more bytes behind them. -/
theorem readAll_append {cs : List Command} {front rest : ByteArray}
    (hcs : encodeAll cs = .ok front) :
    readAll (front ++ rest) = readAllFrom (front ++ rest) front.size cs.reverse := by
  have h : (Bytes.toList (front ++ rest)).drop 0 = Bytes.toList front ++ Bytes.toList rest :=
    Bytes.toList_append front rest
  rw [readAll, readAllFrom_append hcs h, Nat.zero_add, List.append_nil]

/-! ## Good streams -/

/-- **What is read to a clean end is made of the frames** of the commands that were read. -/
theorem encodeAll_of_readAllFrom {s : ByteArray} {i left : Nat} {seen cs : List Command}
    (h : readAllFrom s i seen = ⟨cs, none, left⟩) :
    ∃ more front, cs = seen.reverse ++ more ∧ encodeAll more = .ok front ∧
      (Bytes.toList s).drop i = Bytes.toList front := by
  fun_induction readAllFrom s i seen with
  | case1 i seen hread =>
    cases h
    exact ⟨[], ByteArray.empty, (List.append_nil _).symm, rfl, read_eq_ended_iff.mp hread⟩
  | case2 =>
    -- A failure is no clean end.
    cases h
  | case3 i seen c next hread ih =>
    -- The frame that is read stands in front of the frames that the hypothesis gives.
    obtain ⟨more, front, rfl, hmore, hrest⟩ := ih h
    obtain ⟨frame, after, hc, hdrop, rfl⟩ := read_eq_frame_iff.mp hread
    have hnext := drop_add_of_drop_eq hdrop
    rw [Bytes.length_toList, hrest] at hnext
    refine ⟨c :: more, frame ++ front, by simp,
      encodeAll_cons_eq_ok_iff.mpr ⟨frame, front, hc, hmore, rfl⟩, ?_⟩
    rw [hdrop, ← hnext, Bytes.toList_append]

/-- **Good streams.** A stream is read as given commands, to a clean end and with nothing unread,
exactly if all their bodies fit into frames and the stream is made of just these frames, in
order. -/
theorem readAll_eq_clean_iff {s : ByteArray} {cs : List Command} :
    readAll s = ⟨cs, none, 0⟩ ↔
      (∀ c ∈ cs, c.body.size ≤ maxBody) ∧ encodeAll cs = .ok s := by
  constructor
  · intro h
    obtain ⟨more, front, rfl, hmore, hs⟩ := encodeAll_of_readAllFrom h
    rw [List.drop_zero] at hs
    obtain rfl := Bytes.eq_of_toList hs
    exact ⟨exists_encodeAll_iff.mp ⟨_, hmore⟩, hmore⟩
  · rintro ⟨-, hcs⟩
    have hend : read (s ++ ByteArray.empty) s.size = .ended := read_of_nil (by simp)
    rw [← ByteArray.append_empty (b := s), readAll_append hcs, readAllFrom_of_ended hend]
    simp

/-! ## Damaged streams -/

/-- No more bytes stand behind a bad field than there are. -/
theorem Damage.left_le {rest : List UInt8} {error : ProtocolError} {left : Nat}
    (h : Damage rest error left) : left ≤ rest.length := by
  cases h with
  | magic | version | code | size =>
    simp only [List.length_cons, List.length_append]
    omega
  | cutHeader | cutBody => exact Nat.zero_le _

/-- **Damaged streams.** Behind the frames of given commands there are bytes that do not start with
a whole frame. Then these bytes are damaged in one of the ways of `Damage`, and reading gives just
the commands, the error of the first bad field, and as many unread bytes as stand behind it. -/
theorem readAll_damaged {cs : List Command} {rest : ByteArray}
    (hcs : ∀ c ∈ cs, c.body.size ≤ maxBody) (hne : rest ≠ ByteArray.empty)
    (hframe : ∀ c frame, encode c = .ok frame →
      ¬ Bytes.toList frame <+: Bytes.toList rest) :
    ∃ front, encodeAll cs = .ok front ∧
      (∃ error left, Damage (Bytes.toList rest) error left) ∧
      ∀ error left, Damage (Bytes.toList rest) error left →
        readAll (front ++ rest) = ⟨cs, some error, left⟩ := by
  obtain ⟨front, hfront⟩ := exists_encodeAll_iff.mpr hcs
  refine ⟨front, hfront, ?_, fun error left hdamage => ?_⟩
  · obtain hnil | ⟨c, frame, after, hc, hrest⟩ | hdamage := shape (Bytes.toList rest)
    · exact absurd (Bytes.eq_of_toList hnil) hne
    · exact absurd ⟨after, hrest.symm⟩ (hframe c frame hc)
    · exact hdamage
  · have hrest : (Bytes.toList (front ++ rest)).drop front.size = Bytes.toList rest := by
      rw [Bytes.toList_append, List.drop_left' (Bytes.length_toList front)]
    have hleft : left ≤ (front ++ rest).size := by
      have := hdamage.left_le
      rw [Bytes.length_toList] at this
      rw [ByteArray.size_append]
      omega
    rw [readAll_append hfront, readAllFrom_of_failed (read_of_damage hdamage hrest),
      List.reverse_reverse, Nat.sub_sub_self hleft]

/-- Behind one good frame, a header with a code of no kind. -/
theorem readAll_damaged_unknown_code :
    let c : Command := ⟨⟨.getAppId, .request⟩, -7, ByteArray.empty⟩
    let rest : ByteArray := [0xbe, 0x00, 0x0b, 0x01].toByteArray
    (∀ d ∈ [c], d.body.size ≤ maxBody) ∧ rest ≠ ByteArray.empty ∧
      (∀ d frame, encode d = .ok frame → ¬ Bytes.toList frame <+: Bytes.toList rest) ∧
      ∃ front, encodeAll [c] = .ok front ∧
        readAll (front ++ rest) = ⟨[c], some (.unknownCode 0x0b), 1⟩ := by
  intro c rest
  have hcs : ∀ d ∈ [c], d.body.size ≤ maxBody := by simp [c, maxBody]
  have hne : rest ≠ ByteArray.empty := by decide
  have hframe (d : Command) (frame : ByteArray) (hd : encode d = .ok frame) :
      ¬ Bytes.toList frame <+: Bytes.toList rest := by
    intro hstart
    have hlen := hstart.length_le
    rw [Bytes.length_toList, size_of_encode hd, Bytes.toList_toByteArray] at hlen
    exact absurd hlen (by simp only [headerSize, List.length_cons, List.length_nil]; omega)
  obtain ⟨front, hfront, -, hall⟩ := readAll_damaged hcs hne hframe
  refine ⟨hcs, hne, hframe, front, hfront, hall _ _ ?_⟩
  rw [Bytes.toList_toByteArray]
  refine .code fun kind => ?_
  obtain ⟨operation, direction⟩ := kind
  cases operation <;> cases direction <;> decide

end RemoteLog.Frame
