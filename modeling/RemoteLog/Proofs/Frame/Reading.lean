import RemoteLog.Frame

/-! # What stands at a position of a stream

Reading a frame looks at nothing but the bytes from its position on, and there are three kinds of
such bytes: none at all, a whole frame with more bytes behind it, and a damaged frame.

* **`Damage rest error left`** — the first field of `rest` that shows that no frame starts there, as
  an error, and the number of bytes behind it.
* **`shape rest`** — every byte sequence is of one of the three kinds.
* **`read_of_nil`**, **`read_of_encode`**, **`read_of_damage`** — what is read in each case.
* **`read_eq_frame_iff`** — a command is read exactly where its frame stands. -/

namespace RemoteLog.Frame

/-! ## Frames as lists of bytes -/

/-- A frame is the header of its command and then the body. -/
theorem encode_eq_ok_iff {c : Command} {frame : ByteArray} :
    encode c = .ok frame ↔ c.body.size ≤ maxBody ∧
      Bytes.toList frame = header c.kind c.tag c.body.size ++ Bytes.toList c.body := by
  unfold encode
  by_cases hsize : c.body.size > maxBody
  · rw [if_pos hsize]
    constructor
    · intro h
      cases h
    · rintro ⟨hle, -⟩
      exact absurd hle (Nat.not_le_of_lt hsize)
  · rw [if_neg hsize]
    constructor
    · intro h
      cases h
      exact ⟨Nat.le_of_not_lt hsize, by simp⟩
    · rintro ⟨-, hbytes⟩
      exact congrArg Except.ok (Bytes.eq_of_toList (by simp [hbytes]))

/-- A command whose body is not too large has a frame. -/
theorem exists_encode {c : Command} (h : c.body.size ≤ maxBody) : ∃ frame, encode c = .ok frame :=
  ⟨_, encode_eq_ok_iff.mpr ⟨h, Bytes.toList_toByteArray _⟩⟩

theorem size_of_encode {c : Command} {frame : ByteArray} (h : encode c = .ok frame) :
    frame.size = headerSize + c.body.size := by
  rw [← Bytes.length_toList, (encode_eq_ok_iff.mp h).2]
  simp

/-! ## Damaged frames -/

/-- **Damage of the bytes where a frame should start:** the first field that shows it, as an error,
and the number of bytes that stand behind that field. -/
inductive Damage : (rest : List UInt8) → (error : ProtocolError) → (left : Nat) → Prop where
  /-- The first byte is not the magic byte. -/
  | magic {b : UInt8} {rest : List UInt8} (h : b ≠ Frame.magic) :
      Damage (b :: rest) (.badMagic b) rest.length
  /-- The second byte is not the version. -/
  | version {b : UInt8} {rest : List UInt8} (h : b ≠ Frame.version) :
      Damage (Frame.magic :: b :: rest) (.badVersion b) rest.length
  /-- The third byte is the code of no kind. -/
  | code {b : UInt8} {rest : List UInt8} (h : ∀ kind : CommandKind, kind.code ≠ b) :
      Damage (Frame.magic :: Frame.version :: b :: rest) (.unknownCode b) rest.length
  /-- The header is complete and announces a body that is too large. -/
  | size {kind : CommandKind} {tag : Int64} {size : Nat} {rest : List UInt8}
      (hlarge : maxBody < size) (hfits : size < Nat.pow 256 4) :
      Damage (header kind tag size ++ rest) (.tooLarge size) rest.length
  /-- The bytes end inside a header. -/
  | cutHeader {kind : CommandKind} {tag : Int64} {size : Nat} {rest : List UInt8}
      (hne : rest ≠ []) (hlen : rest.length < headerSize) (h : rest <+: header kind tag size) :
      Damage rest (.stream .endInField) 0
  /-- The bytes end behind a good header and before the end of the body. -/
  | cutBody {kind : CommandKind} {tag : Int64} {size : Nat} {body : List UInt8}
      (hsize : size ≤ maxBody) (hlen : body.length < size) :
      Damage (header kind tag size ++ body) (.stream .endInBlock) 0

/-! ## Reading by what stands there -/

section

variable {s : ByteArray} {i : Nat} {rest : List UInt8}

/-- The number in a field depends on the bytes from its position on only. -/
theorem field_eq_read_take (s : ByteArray) (i width : Nat) :
    field s i width = BigEndian.read (((Bytes.toList s).drop i).take width) := by
  rw [field, Bytes.toList_extract, List.drop_take, Nat.add_sub_cancel_left]

/-- A number that was written is found in its field. -/
theorem field_of_drop_eq {n width : Nat} (hn : n < Nat.pow 256 width)
    (h : (Bytes.toList s).drop i = BigEndian.write width n ++ rest) : field s i width = n := by
  rw [field_eq_read_take, h, List.take_left' (BigEndian.length_write _ _), BigEndian.read_write hn]

theorem length_of_drop_eq {front : List UInt8} (h : (Bytes.toList s).drop i = front ++ rest)
    (hne : front ≠ []) : s.size = i + front.length + rest.length := by
  have hlen := congrArg List.length h
  rw [List.length_drop, Bytes.length_toList, List.length_append] at hlen
  have hpos := List.length_pos_iff.mpr hne
  omega

/-- The bytes in front of the last ones, counted from the end of the stream. -/
theorem size_sub_of_drop_eq {front : List UInt8} (h : (Bytes.toList s).drop i = front ++ rest)
    (hne : front ≠ []) : s.size - rest.length = i + front.length := by
  rw [length_of_drop_eq h hne, Nat.add_sub_cancel]

theorem drop_add_of_drop_eq {front : List UInt8}
    (h : (Bytes.toList s).drop i = front ++ rest) :
    (Bytes.toList s).drop (i + front.length) = rest := by
  rw [← List.drop_drop, h, List.drop_left]

theorem drop_succ_of_drop_eq {b : UInt8} (h : (Bytes.toList s).drop i = b :: rest) :
    (Bytes.toList s).drop (i + 1) = rest := @drop_add_of_drop_eq s i rest [b] h

/-- Nothing is read where nothing stands. -/
theorem read_of_nil (h : (Bytes.toList s).drop i = []) : read s i = .ended := by
  have hlen : s.size ≤ i := by simpa using List.drop_eq_nil_iff.mp h
  rw [read, dif_neg (Nat.not_lt_of_le hlen)]

/-- What is read at a whole header is decided by the size that it announces. -/
theorem read_of_header {kind : CommandKind} {tag : Int64} {size : Nat}
    (h : (Bytes.toList s).drop i = header kind tag size ++ rest) (hfits : size < Nat.pow 256 4) :
    read s i =
      if size > maxBody then .failed (.tooLarge size) (i + headerSize)
      else if i + headerSize + size ≤ s.size then
        .frame ⟨kind, tag, s.extract (i + headerSize) (i + headerSize + size)⟩
          (i + headerSize + size)
      else .failed (.stream .endInBlock) s.size := by
  have htag : tag.toUInt64.toNat < Nat.pow 256 8 := tag.toUInt64.toNat_lt
  have hsize : s.size = i + headerSize + rest.length := by
    simpa using length_of_drop_eq h (by simp [header])
  -- The tail of the header from byte `k` on, with what stands behind it.
  have htail (k : Nat) (hk : k ≤ headerSize) : (Bytes.toList s).drop (i + k) =
      (header kind tag size).drop k ++ rest := by
    rw [← List.drop_drop, h, List.drop_append_of_le_length (by simpa using hk)]
  obtain ⟨h₀, hmagic⟩ := Bytes.getElem_of_drop_toList h
  obtain ⟨h₁, hversion⟩ := Bytes.getElem_of_drop_toList (htail 1 (by decide))
  obtain ⟨h₂, hcode⟩ := Bytes.getElem_of_drop_toList (htail 2 (by decide))
  have hkind : CommandKind.ofCode? s[i + 2] = some kind := by
    rw [hcode, CommandKind.ofCode?_code]
  have htagField : field s (i + 3) 8 = tag.toUInt64.toNat := by
    have hdrop : (header kind tag size).drop 3 =
        BigEndian.write 8 tag.toUInt64.toNat ++ BigEndian.write 4 size := rfl
    have hbytes := htail 3 (by decide)
    rw [hdrop, List.append_assoc] at hbytes
    exact field_of_drop_eq htag hbytes
  have hsizeField : field s (i + 11) 4 = size := by
    have hdrop : (header kind tag size).drop 11 = BigEndian.write 4 size :=
      List.drop_left' (BigEndian.length_write _ _)
    have hbytes := htail 11 (by decide)
    rw [hdrop] at hbytes
    exact field_of_drop_eq hfits hbytes
  have hle : i + headerSize ≤ s.size := hsize ▸ Nat.le_add_right _ _
  -- The checks are passed in wire order, and the size decides.
  rw [read, dif_pos h₀, if_neg (fun hne => hne hmagic), dif_pos h₁,
    if_neg (fun hne => hne hversion), dif_pos h₂]
  simp only [hkind, if_pos hle, htagField, hsizeField, UInt64.ofNat_toNat, Int64.toInt64_toUInt64]

/-- **A frame is read where it stands.** -/
theorem read_of_encode {c : Command} {frame : ByteArray} (hc : encode c = .ok frame)
    (h : (Bytes.toList s).drop i = Bytes.toList frame ++ rest) :
    read s i = .frame c (i + frame.size) := by
  obtain ⟨hbody, hbytes⟩ := encode_eq_ok_iff.mp hc
  rw [hbytes, List.append_assoc] at h
  have hfits : c.body.size < Nat.pow 256 4 := Nat.lt_of_le_of_lt hbody (by decide)
  have hsize : s.size = i + headerSize + (c.body.size + rest.length) := by
    simpa using length_of_drop_eq h (by simp [header])
  have hrest := drop_add_of_drop_eq h
  rw [length_header] at hrest
  have hextract : s.extract (i + headerSize) (i + headerSize + c.body.size) = c.body := by
    apply Bytes.eq_of_toList
    rw [Bytes.toList_extract, List.drop_take, Nat.add_sub_cancel_left, hrest,
      List.take_left' (Bytes.length_toList _)]
  rw [read_of_header h hfits, if_neg (Nat.not_lt_of_le hbody), if_pos (by omega), hextract,
    size_of_encode hc, Nat.add_assoc]

/-- A frame that has arrived alone is read, and the stream ends behind it. -/
theorem read_alone {c : Command} {frame : ByteArray} (hc : encode c = .ok frame) :
    read (ByteArray.empty ++ frame) 0 = .frame c frame.size ∧
      read (ByteArray.empty ++ frame) frame.size = .ended := by
  rw [ByteArray.empty_append]
  have hdrop : (Bytes.toList frame).drop 0 = Bytes.toList frame ++ [] := by simp
  refine ⟨?_, read_of_nil (by simp)⟩
  rw [read_of_encode hc hdrop, Nat.zero_add]

/-- **A frame is read between any other bytes.** -/
theorem read_between {c : Command} {frame : ByteArray} (hc : encode c = .ok frame)
    (before behind : ByteArray) :
    read (before ++ frame ++ behind) before.size = .frame c (before.size + frame.size) := by
  have hdrop : (Bytes.toList (before ++ frame ++ behind)).drop before.size =
      Bytes.toList frame ++ Bytes.toList behind := by
    rw [Bytes.toList_append, Bytes.toList_append, List.append_assoc,
      List.drop_left' (Bytes.length_toList before)]
  exact read_of_encode hc hdrop

/-- A code of no kind is refused. -/
theorem ofCode?_eq_none {b : UInt8} (h : ∀ kind : CommandKind, kind.code ≠ b) :
    CommandKind.ofCode? b = none :=
  Option.eq_none_iff_forall_ne_some.mpr fun kind hkind =>
    h kind (CommandKind.ofCode?_eq_some_iff.mp hkind)

/-- A stream that ends inside a header is cut in a field. -/
theorem read_of_cut_header {kind : CommandKind} {tag : Int64} {size : Nat} (hne : rest ≠ [])
    (hshort : rest.length < headerSize) (hstart : rest <+: header kind tag size)
    (h : (Bytes.toList s).drop i = rest) : read s i = .failed (.stream .endInField) s.size := by
  have hlen : s.size = i + rest.length := by
    simpa using length_of_drop_eq (h.trans (List.append_nil rest).symm) hne
  match rest, hstart with
  | [], _ => exact absurd rfl hne
  | m :: tail, hstart =>
    obtain ⟨rfl, hversions⟩ := List.cons_prefix_cons.mp hstart
    obtain ⟨h₀, hmagic⟩ := Bytes.getElem_of_drop_toList h
    have h' := drop_succ_of_drop_eq h
    rw [read, dif_pos h₀, if_neg (fun hbad => hbad hmagic)]
    match tail, hversions with
    | [], _ =>
      -- The bytes end in front of the version.
      rw [dif_neg (by simp [hlen])]
    | v :: tail, hversions =>
      obtain ⟨rfl, hcodes⟩ := List.cons_prefix_cons.mp hversions
      obtain ⟨h₁, hversion⟩ := Bytes.getElem_of_drop_toList h'
      have h'' : (Bytes.toList s).drop (i + 2) = tail := drop_succ_of_drop_eq h'
      rw [dif_pos h₁, if_neg (fun hbad => hbad hversion)]
      match tail, hcodes with
      | [], _ =>
        -- The bytes end in front of the code.
        rw [dif_neg (by simp [hlen])]
      | k :: tail, hcodes =>
        obtain ⟨rfl, -⟩ := List.cons_prefix_cons.mp hcodes
        obtain ⟨h₂, hcode⟩ := Bytes.getElem_of_drop_toList h''
        rw [dif_pos h₂]
        simp only [hcode, CommandKind.ofCode?_code]
        -- The bytes end in front of the body: the tag and the size are read in one step.
        rw [if_neg (by omega)]

/-- A byte that is not the magic byte is reported, and what stands behind it is left. -/
theorem read_of_bad_magic {b : UInt8} (hb : b ≠ Frame.magic)
    (h : (Bytes.toList s).drop i = b :: rest) : read s i = .failed (.badMagic b) (i + 1) := by
  obtain ⟨h₀, hmagic⟩ := Bytes.getElem_of_drop_toList h
  rw [read, dif_pos h₀, if_pos (by rwa [hmagic]), hmagic]

/-- So is a version that is not known. -/
theorem read_of_bad_version {b : UInt8} (hb : b ≠ Frame.version)
    (h : (Bytes.toList s).drop i = Frame.magic :: b :: rest) :
    read s i = .failed (.badVersion b) (i + 2) := by
  obtain ⟨h₀, hmagic⟩ := Bytes.getElem_of_drop_toList h
  obtain ⟨h₁, hversion⟩ := Bytes.getElem_of_drop_toList (drop_succ_of_drop_eq h)
  rw [read, dif_pos h₀, if_neg (fun hbad => hbad hmagic), dif_pos h₁, if_pos (by rwa [hversion]),
    hversion]

/-- So is a code of no kind. -/
theorem read_of_bad_code {b : UInt8} (hb : ∀ kind : CommandKind, kind.code ≠ b)
    (h : (Bytes.toList s).drop i = Frame.magic :: Frame.version :: b :: rest) :
    read s i = .failed (.unknownCode b) (i + 3) := by
  have h' := drop_succ_of_drop_eq h
  have h'' : (Bytes.toList s).drop (i + 2) = b :: rest := drop_succ_of_drop_eq h'
  obtain ⟨h₀, hmagic⟩ := Bytes.getElem_of_drop_toList h
  obtain ⟨h₁, hversion⟩ := Bytes.getElem_of_drop_toList h'
  obtain ⟨h₂, hcode⟩ := Bytes.getElem_of_drop_toList h''
  rw [read, dif_pos h₀, if_neg (fun hbad => hbad hmagic), dif_pos h₁,
    if_neg (fun hbad => hbad hversion), dif_pos h₂]
  simp only [hcode, ofCode?_eq_none hb]

/-- **The first bad field is reported,** and nothing behind it is consumed. -/
theorem read_of_damage {error : ProtocolError} {left : Nat} (hd : Damage rest error left)
    (h : (Bytes.toList s).drop i = rest) : read s i = .failed error (s.size - left) := by
  cases hd with
  | @magic b rest hb =>
    have hfield : (Bytes.toList s).drop i = [b] ++ rest := h
    rw [size_sub_of_drop_eq hfield (List.cons_ne_nil _ _)]
    exact read_of_bad_magic hb h
  | @version b rest hb =>
    have hfield : (Bytes.toList s).drop i = [Frame.magic, b] ++ rest := h
    rw [size_sub_of_drop_eq hfield (List.cons_ne_nil _ _)]
    exact read_of_bad_version hb h
  | @code b rest hb =>
    have hfield : (Bytes.toList s).drop i = [Frame.magic, Frame.version, b] ++ rest := h
    rw [size_sub_of_drop_eq hfield (List.cons_ne_nil _ _)]
    exact read_of_bad_code hb h
  | @size kind tag size rest hlarge hfits =>
    rw [size_sub_of_drop_eq h (List.cons_ne_nil _ _), length_header, read_of_header h hfits,
      if_pos hlarge]
  | @cutHeader kind tag size rest hne hshort hstart =>
    rw [read_of_cut_header hne hshort hstart h, Nat.sub_zero]
  | @cutBody kind tag size body hsize hshort =>
    have hfits : size < Nat.pow 256 4 := Nat.lt_of_le_of_lt hsize (by decide)
    have hlength := length_of_drop_eq h (List.cons_ne_nil _ _)
    rw [length_header] at hlength
    rw [read_of_header h hfits, if_neg (Nat.not_lt_of_le hsize), if_neg (by omega), Nat.sub_zero]

end

/-! ## The three kinds of byte sequences -/

/-- Enough bytes behind a code are the rest of a header. -/
theorem exists_header (kind : CommandKind) {tail : List UInt8} (hlen : 12 ≤ tail.length) :
    ∃ tag size, size < Nat.pow 256 4 ∧
      magic :: version :: kind.code :: tail = header kind tag size ++ tail.drop 12 := by
  have htag : (tail.take 8).length = 8 := List.length_take_of_le (by omega)
  have hsize : ((tail.drop 8).take 4).length = 4 :=
    List.length_take_of_le (by rw [List.length_drop]; omega)
  refine ⟨(UInt64.ofNat (BigEndian.read (tail.take 8))).toInt64,
    BigEndian.read ((tail.drop 8).take 4), BigEndian.read_lt hsize, ?_⟩
  have hread : (UInt64.ofNat (BigEndian.read (tail.take 8))).toNat =
      BigEndian.read (tail.take 8) := UInt64.toNat_ofNat_of_lt' (BigEndian.read_lt htag)
  have hsplit : tail.take 8 ++ ((tail.drop 8).take 4 ++ tail.drop 12) = tail := by
    have hdrop : tail.drop 12 = (tail.drop 8).drop 4 := by rw [List.drop_drop]
    rw [hdrop, List.take_append_drop, List.take_append_drop]
  simp only [header, UInt64.toUInt64_toInt64, hread, BigEndian.write_read htag,
    BigEndian.write_read hsize, List.cons_append, List.append_assoc, hsplit]

/-- Too few bytes behind a code are the start of the rest of a header. -/
theorem exists_prefix_header (kind : CommandKind) {tail : List UInt8} (hlen : tail.length < 12) :
    ∃ tag size, magic :: version :: kind.code :: tail <+: header kind tag size := by
  -- Zeros fill the bytes up to a whole header.
  let filled := tail ++ List.replicate (12 - tail.length) 0
  have hfilled : filled.length = 12 := by
    rw [List.length_append, List.length_replicate]
    omega
  obtain ⟨tag, size, -, heq⟩ := exists_header kind (Nat.le_of_eq hfilled.symm)
  rw [List.drop_of_length_le (Nat.le_of_eq hfilled), List.append_nil] at heq
  exact ⟨tag, size, List.replicate (12 - tail.length) 0, heq⟩

/-- Behind a whole header stand a body and more bytes, or there is damage. -/
theorem shape_of_header {kind : CommandKind} {tag : Int64} {size : Nat} {rest : List UInt8}
    (hfits : size < Nat.pow 256 4) :
    (∃ c frame after, encode c = .ok frame ∧
      header kind tag size ++ rest = Bytes.toList frame ++ after) ∨
    ∃ error left, Damage (header kind tag size ++ rest) error left := by
  by_cases hsize : size ≤ maxBody
  · by_cases hbody : size ≤ rest.length
    · have hlen : (rest.take size).toByteArray.size = size := by
        rw [← Bytes.length_toList, Bytes.toList_toByteArray, List.length_take_of_le hbody]
      obtain ⟨frame, hframe⟩ :=
        exists_encode (c := ⟨kind, tag, (rest.take size).toByteArray⟩) (by rwa [hlen])
      refine .inl ⟨_, frame, rest.drop size, hframe, ?_⟩
      rw [(encode_eq_ok_iff.mp hframe).2, hlen, Bytes.toList_toByteArray, List.append_assoc,
        List.take_append_drop]
    · exact .inr ⟨_, _, .cutBody hsize (Nat.lt_of_not_le hbody)⟩
  · exact .inr ⟨_, _, .size (Nat.lt_of_not_le hsize) hfits⟩

/-- Behind a known code stand the rest of a frame and more bytes, or there is damage. -/
theorem shape_of_code (kind : CommandKind) (tail : List UInt8) :
    (∃ c frame after, encode c = .ok frame ∧
      magic :: version :: kind.code :: tail = Bytes.toList frame ++ after) ∨
    ∃ error left, Damage (magic :: version :: kind.code :: tail) error left := by
  by_cases hlen : 12 ≤ tail.length
  · obtain ⟨tag, size, hfits, heq⟩ := exists_header kind hlen
    rw [heq]
    exact shape_of_header hfits
  · obtain ⟨tag, size, hstart⟩ := exists_prefix_header kind (Nat.lt_of_not_le hlen)
    refine .inr ⟨_, _, .cutHeader (List.cons_ne_nil _ _) ?_ hstart⟩
    simp only [List.length_cons, headerSize]
    omega

/-- **Bytes are none at all, or a whole frame with more bytes behind it, or damaged.** -/
theorem shape (rest : List UInt8) :
    rest = [] ∨
    (∃ c frame after, encode c = .ok frame ∧ rest = Bytes.toList frame ++ after) ∨
    ∃ error left, Damage rest error left := by
  match rest with
  | [] => exact .inl rfl
  | m :: tail =>
    refine .inr ?_
    by_cases hm : m = magic
    · subst hm
      match tail with
      | [] =>
        -- One byte is the start of any header.
        have hstart : [magic] <+: header ⟨.getLogBytes, .request⟩ 0 0 := ⟨_, rfl⟩
        exact .inr ⟨_, _, .cutHeader (List.cons_ne_nil _ _) (by decide) hstart⟩
      | v :: tail =>
        by_cases hv : v = version
        · subst hv
          match tail with
          | [] =>
            -- So are two bytes.
            have hstart : [magic, version] <+: header ⟨.getLogBytes, .request⟩ 0 0 := ⟨_, rfl⟩
            exact .inr ⟨_, _, .cutHeader (List.cons_ne_nil _ _) (by decide) hstart⟩
          | k :: tail =>
            cases hk : CommandKind.ofCode? k with
            | none =>
              refine .inr ⟨_, _, .code fun kind hcode => ?_⟩
              rw [CommandKind.ofCode?_eq_some_iff.mpr hcode] at hk
              cases hk
            | some kind =>
              obtain rfl := CommandKind.ofCode?_eq_some_iff.mp hk
              exact shape_of_code kind tail
        · exact .inr ⟨_, _, .version hv⟩
    · exact .inr ⟨_, _, .magic hm⟩

/-- **A command is read exactly where its frame stands.** -/
theorem read_eq_frame_iff {s : ByteArray} {i next : Nat} {c : Command} :
    read s i = .frame c next ↔
      ∃ frame after, encode c = .ok frame ∧
        (Bytes.toList s).drop i = Bytes.toList frame ++ after ∧ next = i + frame.size := by
  constructor
  · intro h
    obtain hnil | ⟨d, frame, after, hd, hrest⟩ | ⟨error, left, hdamage⟩ :=
      shape ((Bytes.toList s).drop i)
    · rw [read_of_nil hnil] at h
      cases h
    · rw [read_of_encode hd hrest] at h
      cases h
      exact ⟨frame, after, hd, hrest, rfl⟩
    · rw [read_of_damage hdamage rfl] at h
      cases h
  · rintro ⟨frame, after, hc, hrest, rfl⟩
    exact read_of_encode hc hrest

/-- **The end is read exactly where no byte is left.** -/
theorem read_eq_ended_iff {s : ByteArray} {i : Nat} :
    read s i = .ended ↔ (Bytes.toList s).drop i = [] := by
  refine ⟨fun h => ?_, read_of_nil⟩
  obtain hnil | ⟨d, frame, after, hd, hrest⟩ | ⟨error, left, hdamage⟩ :=
    shape ((Bytes.toList s).drop i)
  · exact hnil
  · rw [read_of_encode hd hrest] at h
    cases h
  · rw [read_of_damage hdamage rfl] at h
    cases h

end RemoteLog.Frame
