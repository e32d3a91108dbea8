import RemoteLog.Proofs.Frame.Stream

/-! # Where frames start

Every stream splits into the whole frames at its front and what is left behind them: nothing, or
bytes that are damaged. Both parts are known from the transcript of the stream, so all that is said
about streams that arrive piece by piece is said about their transcripts.

* **`Ending rest error`** — what is left behind the whole frames, by the error that ends a reading.
* **`exists_split`** — every stream splits; **`readAll_of_split`** — a split gives the transcript.
* **`readAll_frames_append`** — the transcript of a stream with frames put in front.
* **`Begun s`** — the start of some frames; **`Cut s`** — a stream that only its end damages;
  **`Begun.cut`** — the former is the latter.
* **`AtBoundary s i`** — a position between two frames. -/

namespace RemoteLog

/-- The bytes from a position on are an extract. -/
theorem Bytes.eq_extract_of_toList {s rest : ByteArray} {i : Nat}
    (h : toList rest = (toList s).drop i) : rest = s.extract i s.size := by
  apply eq_of_toList
  rw [h, toList_extract, List.take_of_length_le (Nat.le_of_eq (length_toList s))]

namespace Frame

/-- Lists of commands are encoded one behind the other. -/
theorem encodeAll_append {cs ds : List Command} {front more : ByteArray}
    (hcs : encodeAll cs = .ok front) (hds : encodeAll ds = .ok more) :
    encodeAll (cs ++ ds) = .ok (front ++ more) := by
  induction cs generalizing front with
  | nil =>
    cases hcs
    rw [List.nil_append, ByteArray.empty_append, hds]
  | cons c cs ih =>
    obtain ⟨frame, rest, hc, hrest, rfl⟩ := encodeAll_cons_eq_ok_iff.mp hcs
    exact encodeAll_cons_eq_ok_iff.mpr
      ⟨frame, rest ++ more, hc, ih hrest, ByteArray.append_assoc⟩

/-- The frames of a list are the frames of its first part and those of the rest. -/
theorem exists_of_encodeAll_append {cs ds : List Command} {whole : ByteArray}
    (h : encodeAll (cs ++ ds) = .ok whole) :
    ∃ front more, encodeAll cs = .ok front ∧ encodeAll ds = .ok more ∧ whole = front ++ more := by
  have hfits := exists_encodeAll_iff.mp ⟨whole, h⟩
  obtain ⟨front, hcs⟩ := exists_encodeAll_iff.mpr fun c hc => hfits c (List.mem_append_left ds hc)
  obtain ⟨more, hds⟩ := exists_encodeAll_iff.mpr fun d hd => hfits d (List.mem_append_right cs hd)
  rw [encodeAll_append hcs hds] at h
  exact ⟨front, more, hcs, hds, (Except.ok.inj h).symm⟩

theorem encodeAll_singleton {c : Command} {frame : ByteArray} (hc : encode c = .ok frame) :
    encodeAll [c] = .ok frame :=
  encodeAll_cons_eq_ok_iff.mpr ⟨frame, ByteArray.empty, hc, rfl, ByteArray.append_empty.symm⟩

/-- Fewer commands have fewer frames. -/
theorem encodeAll_mono {cs ds : List Command} {front whole : ByteArray}
    (hcs : encodeAll cs = .ok front) (hds : encodeAll ds = .ok whole) (hle : cs <+: ds) :
    Bytes.toList front <+: Bytes.toList whole := by
  obtain ⟨es, rfl⟩ := hle
  obtain ⟨more, hes⟩ := exists_encodeAll_iff.mpr fun e he =>
    exists_encodeAll_iff.mp ⟨whole, hds⟩ e (List.mem_append_right cs he)
  rw [encodeAll_append hcs hes] at hds
  cases hds
  rw [Bytes.toList_append]
  exact List.prefix_append _ _

/-! ## Splits -/

/-- **What is left behind the whole frames of a stream:** nothing if the reading ends without an
error, and bytes with just this damage otherwise. -/
def Ending (rest : List UInt8) : Option ProtocolError → Prop
  | none => rest = []
  | some error => ∃ left, Damage rest error left

/-- What fails to be read is damaged. -/
theorem damage_of_read_eq_failed {s : ByteArray} {i next : Nat} {error : ProtocolError}
    (h : read s i = .failed error next) : ∃ left, Damage ((Bytes.toList s).drop i) error left := by
  obtain hnil | ⟨c, frame, after, hc, hrest⟩ | ⟨error', left, hdamage⟩ :=
    shape ((Bytes.toList s).drop i)
  · rw [read_of_nil hnil] at h
    cases h
  · rw [read_of_encode hc hrest] at h
    cases h
  · rw [read_of_damage hdamage rfl] at h
    cases h
    exact ⟨left, hdamage⟩

/-- **A frame at a position** stands in front of all that is behind it. -/
theorem exists_of_read_eq_frame {s rest : ByteArray} {i next : Nat} {c : Command}
    (h : read s i = .frame c next) (hrest : Bytes.toList rest = (Bytes.toList s).drop i) :
    ∃ frame after, encode c = .ok frame ∧ rest = frame ++ after ∧
      Bytes.toList after = (Bytes.toList s).drop next := by
  obtain ⟨frame, after, hc, hdrop, rfl⟩ := read_eq_frame_iff.mp h
  refine ⟨frame, after.toByteArray, hc, Bytes.eq_of_toList ?_, ?_⟩
  · rw [hrest, hdrop, Bytes.toList_append, Bytes.toList_toByteArray]
  · rw [Bytes.toList_toByteArray, ← Bytes.length_toList frame, drop_add_of_drop_eq hdrop]

/-- Reading collects the whole frames from a position on and stops at what is left. -/
theorem exists_split_readAllFrom (s : ByteArray) (i : Nat) (seen : List Command) :
    ∃ cs front rest, encodeAll cs = .ok front ∧
      (Bytes.toList s).drop i = Bytes.toList front ++ rest ∧
      (readAllFrom s i seen).commands = seen.reverse ++ cs ∧
      Ending rest (readAllFrom s i seen).error := by
  fun_induction readAllFrom s i seen with
  | case1 i seen hread =>
    exact ⟨[], ByteArray.empty, [], rfl, read_eq_ended_iff.mp hread, (List.append_nil _).symm, rfl⟩
  | case2 i seen error next hread =>
    exact ⟨[], ByteArray.empty, _, rfl, rfl, (List.append_nil _).symm,
      damage_of_read_eq_failed hread⟩
  | case3 i seen c next hread ih =>
    -- The frame that is read stands in front of the frames that the hypothesis gives.
    obtain ⟨cs, front, rest, hcs, hdrop, hcommands, hending⟩ := ih
    obtain ⟨frame, after, hc, hdrop', rfl⟩ := read_eq_frame_iff.mp hread
    have hnext := drop_add_of_drop_eq hdrop'
    rw [Bytes.length_toList, hdrop] at hnext
    refine ⟨c :: cs, frame ++ front, rest,
      encodeAll_cons_eq_ok_iff.mpr ⟨frame, front, hc, hcs, rfl⟩, ?_, ?_, hending⟩
    · rw [hdrop', ← hnext, Bytes.toList_append, List.append_assoc]
    · rw [hcommands, List.reverse_cons, List.append_assoc, List.singleton_append]

/-- **Every stream splits** into the frames of the commands in its transcript and what is left. -/
theorem exists_split (s : ByteArray) :
    ∃ front rest, encodeAll (readAll s).commands = .ok front ∧ s = front ++ rest ∧
      Ending (Bytes.toList rest) (readAll s).error := by
  obtain ⟨cs, front, rest, hcs, hs, hcommands, hending⟩ := exists_split_readAllFrom s 0 []
  refine ⟨front, rest.toByteArray, ?_, Bytes.eq_of_toList ?_, ?_⟩
  · rw [readAll, hcommands]
    exact hcs
  · rw [Bytes.toList_append, Bytes.toList_toByteArray]
    exact hs
  · rw [Bytes.toList_toByteArray]
    exact hending

/-- **A split gives the transcript.** -/
theorem readAll_of_split {cs : List Command} {front rest : ByteArray} {error : Option ProtocolError}
    (hcs : encodeAll cs = .ok front) (hending : Ending (Bytes.toList rest) error) :
    (readAll (front ++ rest)).commands = cs ∧ (readAll (front ++ rest)).error = error := by
  have hrest : (Bytes.toList (front ++ rest)).drop front.size = Bytes.toList rest := by
    rw [Bytes.toList_append, List.drop_left' (Bytes.length_toList front)]
  rw [readAll_append hcs]
  cases error with
  | none =>
    rw [readAllFrom_of_ended (read_of_nil (hrest.trans hending))]
    exact ⟨List.reverse_reverse cs, rfl⟩
  | some error =>
    obtain ⟨left, hdamage⟩ := hending
    rw [readAllFrom_of_failed (read_of_damage hdamage hrest)]
    exact ⟨List.reverse_reverse cs, rfl⟩

/-- **Frames in front of a stream** are read first, and then the stream is read as if it stood
alone. -/
theorem readAll_frames_append {cs : List Command} {front : ByteArray}
    (hcs : encodeAll cs = .ok front) (s : ByteArray) :
    (readAll (front ++ s)).commands = cs ++ (readAll s).commands ∧
      (readAll (front ++ s)).error = (readAll s).error := by
  obtain ⟨more, rest, hmore, hs, hending⟩ := exists_split s
  have hall := readAll_of_split (encodeAll_append hcs hmore) hending
  rwa [ByteArray.append_assoc, ← hs] at hall

/-- Nothing is read of an empty stream. -/
theorem readAll_empty : readAll ByteArray.empty = ⟨[], none, 0⟩ :=
  readAll_eq_clean_iff.mpr ⟨nofun, rfl⟩

/-- More bytes only add commands. -/
theorem commands_readAll_prefix (s more : ByteArray) :
    (readAll s).commands <+: (readAll (s ++ more)).commands := by
  obtain ⟨front, rest, hfront, hs, -⟩ := exists_split s
  have hall := (readAll_frames_append hfront (rest ++ more)).1
  rw [← ByteArray.append_assoc, ← hs] at hall
  exact ⟨_, hall.symm⟩

/-! ## Streams that are cut -/

/-- A bad field stays bad, whatever follows. -/
theorem Damage.append {rest : List UInt8} {error : ProtocolError} {left : Nat}
    (h : Damage rest error left) (herror : ∀ cause, error ≠ .stream cause) (more : List UInt8) :
    ∃ left, Damage (rest ++ more) error left := by
  cases h with
  | magic h => exact ⟨_, .magic h⟩
  | version h => exact ⟨_, .version h⟩
  | code h => exact ⟨_, .code h⟩
  | size hlarge hfits =>
    rw [List.append_assoc]
    exact ⟨_, .size hlarge hfits⟩
  | cutHeader | cutBody => exact absurd rfl (herror _)

/-- **The start of some frames,** cut anywhere. -/
def Begun (s : ByteArray) : Prop :=
  ∃ cs whole, encodeAll cs = .ok whole ∧ Bytes.toList s <+: Bytes.toList whole

theorem Begun.mono {s s' : ByteArray} (h : Begun s')
    (hle : Bytes.toList s <+: Bytes.toList s') : Begun s :=
  let ⟨cs, whole, hcs, hs'⟩ := h
  ⟨cs, whole, hcs, hle.trans hs'⟩

/-- **A stream that is damaged by its end only,** if at all. -/
def Cut (s : ByteArray) : Prop :=
  ∀ error, (readAll s).error = some error → ∃ cause, error = .stream cause

/-- Frames in front of a stream do not damage it. -/
theorem cut_frames_append_iff {cs : List Command} {front s : ByteArray}
    (hcs : encodeAll cs = .ok front) : Cut (front ++ s) ↔ Cut s := by
  rw [Cut, Cut, (readAll_frames_append hcs s).2]

/-- **The start of some frames is damaged by its end only.** -/
theorem Begun.cut {s : ByteArray} (h : Begun s) : Cut s := by
  intro error herror
  obtain ⟨cs, whole, hcs, tail, hwhole⟩ := h
  obtain ⟨front, rest, hfront, hs, hending⟩ := exists_split s
  obtain ⟨left, hdamage⟩ : Ending (Bytes.toList rest) (some error) := herror ▸ hending
  apply Classical.byContradiction
  intro hcause
  -- A bad field would make the whole frames unreadable.
  obtain ⟨left', hdamage'⟩ := hdamage.append (fun cause h => hcause ⟨cause, h⟩) tail
  have hsplit : whole = front ++ (rest ++ tail.toByteArray) := by
    apply Bytes.eq_of_toList
    rw [← hwhole, hs]
    simp
  have hending' : Ending (Bytes.toList (rest ++ tail.toByteArray)) (some error) := by
    rw [Bytes.toList_append, Bytes.toList_toByteArray]
    exact ⟨left', hdamage'⟩
  have hbad := (readAll_of_split hfront hending').2
  have hclean := readAll_eq_clean_iff.mpr ⟨exists_encodeAll_iff.mp ⟨_, hcs⟩, hcs⟩
  rw [← hsplit, hclean] at hbad
  cases hbad

/-- What stands behind a bad field is not read. -/
theorem readAll_append_of_not_cut {s : ByteArray} (h : ¬ Cut s) (more : ByteArray) :
    (readAll (s ++ more)).commands = (readAll s).commands ∧
      (readAll (s ++ more)).error = (readAll s).error := by
  obtain ⟨bad, hbad⟩ := Classical.not_forall.mp h
  obtain ⟨herror, hfield⟩ := Classical.not_imp.mp hbad
  obtain ⟨front, rest, hfront, hs, hending⟩ := exists_split s
  obtain ⟨left, hdamage⟩ : Ending (Bytes.toList rest) (some bad) := herror ▸ hending
  have hmore : Ending (Bytes.toList (rest ++ more)) (some bad) := by
    rw [Bytes.toList_append]
    exact hdamage.append (fun cause hcause => hfield ⟨cause, hcause⟩) _
  have hall := readAll_of_split hfront hmore
  rwa [← ByteArray.append_assoc, ← hs, ← herror] at hall

/-! ## Boundaries -/

/-- **A position between two frames:** whole frames stand in front of it. -/
def AtBoundary (s : ByteArray) (i : Nat) : Prop :=
  ∃ cs front rest, encodeAll cs = .ok front ∧ s = front ++ rest ∧ front.size = i

theorem atBoundary_zero (s : ByteArray) : AtBoundary s 0 :=
  ⟨[], ByteArray.empty, s, rfl, ByteArray.empty_append.symm, rfl⟩

section

variable {s : ByteArray} {i next : Nat}

/-- Behind a frame is the next boundary. -/
theorem AtBoundary.of_frame (h : AtBoundary s i) {c : Command} (hread : read s i = .frame c next) :
    AtBoundary s next := by
  obtain ⟨cs, front, rest, hcs, rfl, rfl⟩ := h
  obtain ⟨frame, after, hc, hdrop, rfl⟩ := read_eq_frame_iff.mp hread
  rw [Bytes.toList_append, List.drop_left' (Bytes.length_toList front)] at hdrop
  refine ⟨cs ++ [c], front ++ frame, after.toByteArray,
    encodeAll_append hcs (encodeAll_singleton hc), Bytes.eq_of_toList ?_, ByteArray.size_append⟩
  simp [hdrop]

/-- What cannot be read at a boundary cannot be read in the stream. -/
theorem AtBoundary.error_readAll (h : AtBoundary s i) {error : ProtocolError}
    (hread : read s i = .failed error next) : (readAll s).error = some error := by
  obtain ⟨cs, front, rest, hcs, rfl, rfl⟩ := h
  obtain ⟨left, hdamage⟩ := damage_of_read_eq_failed hread
  rw [Bytes.toList_append, List.drop_left' (Bytes.length_toList front)] at hdamage
  have hending : Ending (Bytes.toList rest) (some error) := ⟨left, hdamage⟩
  exact (readAll_of_split hcs hending).2

end

end Frame

end RemoteLog
