import RemoteLog.Proofs.Text.Utf8

/-! # Lossy decoding, there and back

Decoding takes one character after the other off the front of the bytes. An ASCII byte goes on with
no character, so decoding starts afresh at each of them, whatever stands before it. Bytes that spell a
text come back as this text, and so what was decoded once is not changed by decoding it again.

* **`Utf8.decode bytes`**, **`Utf8.encode chars`** — lossy decoding and spelling, on lists.
* **`Utf8.decode_append_ascii`** — decoding starts afresh at an ASCII byte.
* **`Utf8.first_of_encoded`**, **`Utf8.decode_encode`** — what was spelt comes back.
* **`Utf8.clean bytes`** — the spelling of what bytes are decoded to;
  **`Utf8.clean_append_ascii`**, **`Utf8.mem_of_mem_clean`**, **`Utf8.getLast?_of_clean`** — its ASCII
  bytes are those of the bytes, and they stand where they stood. -/

namespace RemoteLog.Text.Utf8

variable {lead b c d : UInt8}

/-! ## Characters of bytes -/

/-- **The characters of a byte sequence,** whatever the bytes. -/
def decode : List UInt8 → List Char
  | [] => []
  | lead :: rest => (first lead rest).1 :: decode (rest.drop (first lead rest).2)
termination_by bytes => bytes.length
decreasing_by simp only [List.length_drop, List.length_cons]; omega

theorem decodeOnto_eq (out : String) (bytes : List UInt8) :
    decodeOnto out bytes = out ++ String.ofList (decode bytes) := by
  fun_induction decodeOnto out bytes with
  | case1 out => simp [decode]
  | case2 out lead rest front ih => simp [ih, decode, front, String.ext_iff]

/-- **Decoding gives the characters.** -/
theorem decodeLossy_eq (bytes : ByteArray) :
    decodeLossy bytes = String.ofList (decode (Bytes.toList bytes)) := by
  rw [decodeLossy, decodeOnto_eq, String.empty_append]

theorem toList_decodeLossy (bytes : ByteArray) :
    (decodeLossy bytes).toList = decode (Bytes.toList bytes) := by
  rw [decodeLossy_eq, String.toList_ofList]

/-- **The bytes that spell characters.** -/
def encode (chars : List Char) : List UInt8 := chars.flatMap String.utf8EncodeChar

@[simp] theorem encode_append (chars more : List Char) :
    encode (chars ++ more) = encode chars ++ encode more := List.flatMap_append

@[simp] theorem encode_cons (c : Char) (chars : List Char) :
    encode (c :: chars) = String.utf8EncodeChar c ++ encode chars := List.flatMap_cons

/-- **The bytes of a text** spell its characters. -/
theorem toList_toUTF8 (text : String) : Bytes.toList text.toUTF8 = encode text.toList := by
  rw [String.toUTF8_eq_toByteArray, ← String.ofList_toList (s := text), String.toByteArray_ofList,
    List.utf8Encode, Bytes.toList_toByteArray, String.toList_ofList, encode]

theorem decode_eq_nil_iff {bytes : List UInt8} : decode bytes = [] ↔ bytes = [] := by
  cases bytes <;> simp [decode]

theorem encode_eq_nil_iff {chars : List Char} : encode chars = [] ↔ chars = [] := by
  cases chars <;> simp [encode]

/-! ## Starting afresh -/

/-- A character takes no more bytes than there are. -/
theorem first_snd_le (lead : UInt8) (rest : List UInt8) : (first lead rest).2 ≤ rest.length := by
  fun_cases first lead rest <;> simp

theorem not_isContinuation_of_ascii (h : b < 0x80) : isContinuation b = false := by
  rw [Bool.eq_false_iff, ne_eq, isContinuation_iff]
  exact fun hb => Nat.not_lt_of_le hb.1 (UInt8.lt_iff_toNat_lt.mp h)

theorem not_isSecondOfThree_of_ascii (h : b < 0x80) : isSecondOfThree lead b = false := by
  rw [Bool.eq_false_iff, ne_eq, isSecondOfThree_iff]
  exact fun hb => Nat.not_lt_of_le hb.1 (UInt8.lt_iff_toNat_lt.mp h)

theorem not_isSecondOfFour_of_ascii (h : b < 0x80) : isSecondOfFour lead b = false := by
  rw [Bool.eq_false_iff, ne_eq, isSecondOfFour_iff]
  exact fun hb => Nat.not_lt_of_le hb.1 (UInt8.lt_iff_toNat_lt.mp h)

/-- An ASCII byte ends a character that is not finished as the end of the bytes does. -/
theorem first_append_ascii (h : b < 0x80) (lead : UInt8) (front rest : List UInt8) :
    first lead (front ++ b :: rest) = first lead front := by
  have h₁ := not_isContinuation_of_ascii h
  have h₂ : isSecondOfThree lead b = false := not_isSecondOfThree_of_ascii h
  have h₃ : isSecondOfFour lead b = false := not_isSecondOfFour_of_ascii h
  match front with
  | [] => simp [first, h₁, h₂, h₃]
  | [x] => simp [first, h₁]
  | [x, y] => simp [first, h₁]
  | x :: y :: z :: more => simp [first]

/-- **Decoding starts afresh at an ASCII byte,** and the byte stands for itself. -/
theorem decode_append_ascii (h : b < 0x80) (front rest : List UInt8) :
    decode (front ++ b :: rest) = decode front ++ Char.ofNat b.toNat :: decode rest := by
  fun_induction decode front with
  | case1 => simp [decode, first_of_ascii h]
  | case2 lead front ih =>
    rw [List.cons_append, decode, first_append_ascii h,
      List.drop_append_of_le_length (first_snd_le lead front), ih, List.cons_append]

theorem decodeLossy_append_ascii (h : b < 0x80) (front back : ByteArray) :
    decodeLossy (front ++ [b].toByteArray ++ back) =
      decodeLossy front ++ String.singleton (Char.ofNat b.toNat) ++ decodeLossy back := by
  have hback : Bytes.toList (front ++ [b].toByteArray ++ back) =
      Bytes.toList front ++ b :: Bytes.toList back := by simp
  apply String.toList_inj.mp
  simp only [toList_decodeLossy, String.toList_append, hback, decode_append_ascii h]
  simp

/-! ## Spelling and reading back -/

/-- An ASCII byte is the number of a character. -/
theorem toNat_ofNat_ascii (h : b < 0x80) : (Char.ofNat b.toNat).toNat = b.toNat :=
  toNat_ofNat (.inl (Nat.lt_trans (UInt8.lt_iff_toNat_lt.mp h) (by decide)))

/-- A character below U+0080 is spelt by the byte of its number. -/
theorem utf8EncodeChar_ascii (h : b < 0x80) : String.utf8EncodeChar (Char.ofNat b.toNat) = [b] := by
  have hb : b.toNat ≤ 0x7f := Nat.le_of_lt_succ (UInt8.lt_iff_toNat_lt.mp h)
  have hvalue : (Char.ofNat b.toNat).val.toNat = b.toNat := toNat_ofNat_ascii h
  simp only [String.utf8EncodeChar, hvalue, if_pos hb, UInt8.ofNat_toNat]

theorem not_ascii_of_le (h : 0x80 ≤ lead.toNat) : ¬ lead < 0x80 := by
  rw [UInt8.lt_iff_toNat_lt]
  exact Nat.not_lt_of_le h

/-- A lead behind a range of leads is none of these. -/
theorem not_lead_of_lt {low high : UInt8} (h : high.toNat < lead.toNat) :
    ¬ (decide (low ≤ lead) && decide (lead ≤ high)) = true := by
  rw [lead_iff]
  exact fun hlead => Nat.not_lt_of_le hlead.2 h

/-- A character at the front of two bytes. -/
theorem first_two (hlead : 0xc2 ≤ lead.toNat ∧ lead.toNat ≤ 0xdf)
    (hb : 0x80 ≤ b.toNat ∧ b.toNat ≤ 0xbf) (rest : List UInt8) :
    first lead (b :: rest) = (Char.ofNat (lead.toNat % 32 * 64 + b.toNat % 64), 1) := by
  have htwo : (decide (0xc2 ≤ lead) && decide (lead ≤ 0xdf)) = true := lead_iff.mpr hlead
  unfold first
  rw [if_neg (not_ascii_of_le (by omega)), if_pos htwo]
  exact if_pos (isContinuation_iff.mpr hb)

/-- A character at the front of three bytes. -/
theorem first_three (hlead : 0xe0 ≤ lead.toNat ∧ lead.toNat ≤ 0xef)
    (hb : isSecondOfThree lead b = true) (hc : 0x80 ≤ c.toNat ∧ c.toNat ≤ 0xbf)
    (rest : List UInt8) :
    first lead (b :: c :: rest) =
      (Char.ofNat ((lead.toNat % 16 * 64 + b.toNat % 64) * 64 + c.toNat % 64), 2) := by
  have hthree : (decide (0xe0 ≤ lead) && decide (lead ≤ 0xef)) = true := lead_iff.mpr hlead
  unfold first
  rw [if_neg (not_ascii_of_le (by omega)),
    if_neg (not_lead_of_lt (Nat.lt_of_lt_of_le (by decide) hlead.1)), if_pos hthree]
  exact (if_pos hb).trans (if_pos (isContinuation_iff.mpr hc))

/-- A character at the front of four bytes. -/
theorem first_four (hlead : 0xf0 ≤ lead.toNat ∧ lead.toNat ≤ 0xf4)
    (hb : isSecondOfFour lead b = true) (hc : 0x80 ≤ c.toNat ∧ c.toNat ≤ 0xbf)
    (hd : 0x80 ≤ d.toNat ∧ d.toNat ≤ 0xbf) (rest : List UInt8) :
    first lead (b :: c :: d :: rest) =
      (Char.ofNat (((lead.toNat % 8 * 64 + b.toNat % 64) * 64 + c.toNat % 64) * 64 + d.toNat % 64),
        3) := by
  have hfour : (decide (0xf0 ≤ lead) && decide (lead ≤ 0xf4)) = true := lead_iff.mpr hlead
  unfold first
  rw [if_neg (not_ascii_of_le (by omega)),
    if_neg (not_lead_of_lt (Nat.lt_of_lt_of_le (by decide) hlead.1)),
    if_neg (not_lead_of_lt (Nat.lt_of_lt_of_le (by decide) hlead.1)), if_pos hfour]
  exact (if_pos hb).trans
    ((if_pos (isContinuation_iff.mpr hc)).trans (if_pos (isContinuation_iff.mpr hd)))

/-- **A character is read back** from the bytes that spell it, whatever follows. -/
theorem first_of_encoded (ch : Char) :
    ∃ lead tail, String.utf8EncodeChar ch = lead :: tail ∧
      ∀ rest, first lead (tail ++ rest) = (ch, tail.length) := by
  have hchar : Char.ofNat ch.val.toNat = ch := Char.ofNat_toNat ch
  have hvalid : ch.val.toNat < 0xd800 ∨ 0xdfff < ch.val.toNat ∧ ch.val.toNat < 0x110000 := ch.valid
  have hbyte {n : Nat} (hn : n < 256) : (UInt8.ofNat n).toNat = n := UInt8.toNat_ofNat_of_lt' hn
  rw [String.utf8EncodeChar]
  generalize ch.val.toNat = v at hchar hvalid ⊢
  split
  · -- One byte.
    next h =>
    refine ⟨_, _, rfl, fun rest => ?_⟩
    have hv : (UInt8.ofNat v).toNat = v := hbyte (by omega)
    have hascii : UInt8.ofNat v < 0x80 := by
      rw [UInt8.lt_iff_toNat_lt, hv]
      exact Nat.lt_succ_of_le h
    rw [first_of_ascii hascii, hv, hchar]
    rfl
  · split
    · -- Two bytes.
      next h₁ h₂ =>
      refine ⟨_, _, rfl, fun rest => ?_⟩
      have ha : (UInt8.ofNat (v / 64 % 32 + 192)).toNat = v / 64 % 32 + 192 := hbyte (by omega)
      have hb : (UInt8.ofNat (v % 64 + 128)).toNat = v % 64 + 128 := hbyte (by omega)
      have hvalue : (v / 64 % 32 + 192) % 32 * 64 + (v % 64 + 128) % 64 = v := by omega
      refine (first_two ?_ ?_ rest).trans ?_
      · omega
      · omega
      · rw [ha, hb, hvalue, hchar]
        rfl
    · split
      · -- Three bytes, neither a shorter spelling nor a surrogate.
        next h₁ h₂ h₃ =>
        refine ⟨_, _, rfl, fun rest => ?_⟩
        have ha : (UInt8.ofNat (v / 4096 % 16 + 224)).toNat = v / 4096 % 16 + 224 :=
          hbyte (by omega)
        have hb : (UInt8.ofNat (v / 64 % 64 + 128)).toNat = v / 64 % 64 + 128 := hbyte (by omega)
        have hc : (UInt8.ofNat (v % 64 + 128)).toNat = v % 64 + 128 := hbyte (by omega)
        have hvalue : ((v / 4096 % 16 + 224) % 16 * 64 + (v / 64 % 64 + 128) % 64) * 64 +
            (v % 64 + 128) % 64 = v := by omega
        refine (first_three ?_ (isSecondOfThree_iff.mpr ?_) ?_ rest).trans ?_
        · omega
        · omega
        · omega
        · rw [ha, hb, hc, hvalue, hchar]
          rfl
      · -- Four bytes, neither a shorter spelling nor a value beyond the last character.
        next h₁ h₂ h₃ =>
        refine ⟨_, _, rfl, fun rest => ?_⟩
        have ha : (UInt8.ofNat (v / 262144 % 8 + 240)).toNat = v / 262144 % 8 + 240 :=
          hbyte (by omega)
        have hb : (UInt8.ofNat (v / 4096 % 64 + 128)).toNat = v / 4096 % 64 + 128 :=
          hbyte (by omega)
        have hc : (UInt8.ofNat (v / 64 % 64 + 128)).toNat = v / 64 % 64 + 128 := hbyte (by omega)
        have hd : (UInt8.ofNat (v % 64 + 128)).toNat = v % 64 + 128 := hbyte (by omega)
        have hvalue : (((v / 262144 % 8 + 240) % 8 * 64 + (v / 4096 % 64 + 128) % 64) * 64 +
            (v / 64 % 64 + 128) % 64) * 64 + (v % 64 + 128) % 64 = v := by omega
        refine (first_four ?_ (isSecondOfFour_iff.mpr ?_) ?_ ?_ rest).trans ?_
        · omega
        · omega
        · omega
        · omega
        · rw [ha, hb, hc, hd, hvalue, hchar]
          rfl

/-- **What was spelt comes back.** -/
theorem decode_encode (chars : List Char) : decode (encode chars) = chars := by
  induction chars with
  | nil => simp [encode, decode]
  | cons c chars ih =>
    obtain ⟨lead, tail, hspelt, hfirst⟩ := first_of_encoded c
    rw [encode_cons, hspelt, List.cons_append, decode, hfirst, List.drop_left, ih]

/-- **The bytes of a text** are decoded to the text. -/
theorem decodeLossy_encode (chars : List Char) :
    decodeLossy (encode chars).toByteArray = String.ofList chars := by
  rw [decodeLossy_eq, Bytes.toList_toByteArray, decode_encode]

/-! ## ASCII bytes of a spelling -/

/-- An ASCII byte spells a character alone. -/
theorem eq_ofNat_of_mem_utf8EncodeChar {ch : Char} (h : b < 0x80)
    (hb : b ∈ String.utf8EncodeChar ch) : ch = Char.ofNat b.toNat := by
  have hlt : b.toNat < 0x80 := UInt8.lt_iff_toNat_lt.mp h
  have hchar : Char.ofNat ch.val.toNat = ch := Char.ofNat_toNat ch
  rw [String.utf8EncodeChar] at hb
  generalize ch.val.toNat = v at hchar hb
  -- All bytes of a longer spelling are at least 0x80.
  have hhigh {n : Nat} (hn : n < 256) (hle : 0x80 ≤ n) : b ≠ UInt8.ofNat n := by
    rintro rfl
    rw [UInt8.toNat_ofNat_of_lt' hn] at hlt
    exact Nat.not_lt_of_le hle hlt
  split at hb
  · next hv =>
    obtain rfl := List.mem_singleton.mp hb
    rw [UInt8.toNat_ofNat_of_lt' (Nat.lt_of_le_of_lt hv (by decide)), hchar]
  · exfalso
    split at hb
    · simp only [List.mem_cons, List.not_mem_nil, or_false] at hb
      rcases hb with hb | hb <;> exact hhigh (by omega) (by omega) hb
    · split at hb <;> simp only [List.mem_cons, List.not_mem_nil, or_false] at hb
      · rcases hb with hb | hb | hb <;> exact hhigh (by omega) (by omega) hb
      · rcases hb with hb | hb | hb | hb <;> exact hhigh (by omega) (by omega) hb

/-- **The ASCII bytes of a spelling** spell its ASCII characters. -/
theorem mem_of_mem_encode {chars : List Char} (h : b < 0x80) (hb : b ∈ encode chars) :
    Char.ofNat b.toNat ∈ chars := by
  obtain ⟨c, hc, hspelt⟩ := List.mem_flatMap.mp hb
  exact eq_ofNat_of_mem_utf8EncodeChar h hspelt ▸ hc

/-- **An ASCII byte at the end of a spelling** spells the last character. -/
theorem getLast?_of_encode {chars : List Char} (h : b < 0x80)
    (hb : (encode chars).getLast? = some b) : chars.getLast? = some (Char.ofNat b.toNat) := by
  rcases List.eq_nil_or_concat chars with rfl | ⟨front, c, rfl⟩
  · cases hb
  · have hlast := List.getLast?_eq_some_getLast (String.utf8EncodeChar_ne_nil (c := c))
    have hspelt : encode (front ++ [c]) = encode front ++ String.utf8EncodeChar c := by
      simp [encode]
    rw [List.concat_eq_append] at hb ⊢
    rw [hspelt, List.getLast?_append, hlast, Option.some_or, ← hlast] at hb
    rw [List.getLast?_concat, eq_ofNat_of_mem_utf8EncodeChar h (List.mem_of_getLast? hb)]

/-! ## Bytes as they are read -/

/-- **Bytes as they are read:** the spelling of the characters that they are decoded to. -/
def clean (bytes : List UInt8) : List UInt8 := encode (decode bytes)

/-- The bytes of a decoded text. -/
theorem toList_toUTF8_decodeLossy (bytes : ByteArray) :
    Bytes.toList (decodeLossy bytes).toUTF8 = clean (Bytes.toList bytes) := by
  rw [toList_toUTF8, toList_decodeLossy, clean]

/-- **Decoding again** changes nothing. -/
theorem decode_clean (bytes : List UInt8) : decode (clean bytes) = decode bytes :=
  decode_encode _

theorem clean_nil : clean [] = [] := by
  rw [clean, decode]
  rfl

theorem clean_eq_nil_iff {bytes : List UInt8} : clean bytes = [] ↔ bytes = [] := by
  rw [clean, encode_eq_nil_iff, decode_eq_nil_iff]

/-- **An ASCII byte stays,** and so do the bytes before it and behind it. -/
theorem clean_append_ascii (h : b < 0x80) (front rest : List UInt8) :
    clean (front ++ b :: rest) = clean front ++ b :: clean rest := by
  rw [clean, decode_append_ascii h, encode_append, encode_cons, utf8EncodeChar_ascii h]
  rfl

/-- **No ASCII byte comes up** that was not there. -/
theorem mem_of_mem_clean {bytes : List UInt8} (h : b < 0x80) (hb : b ∈ clean bytes) : b ∈ bytes := by
  have hvalue := toNat_ofNat_ascii h
  have hchar := mem_of_mem_encode h hb
  rw [← Bytes.toList_toByteArray bytes, ← toList_decodeLossy] at hchar
  obtain ⟨b', hb', heq⟩ := mem_of_mem_decodeLossy hchar
    (by rw [hvalue]; exact UInt8.lt_iff_toNat_lt.mp h)
  obtain rfl : b' = b := UInt8.toNat_inj.mp (heq.trans hvalue)
  rwa [Bytes.toList_toByteArray] at hb'

/-- An ASCII character at the end stands for the byte at the end. -/
theorem getLast?_of_decode {bytes : List UInt8} (h : b < 0x80)
    (hb : (decode bytes).getLast? = some (Char.ofNat b.toNat)) : bytes.getLast? = some b := by
  fun_induction decode bytes with
  | case1 => cases hb
  | case2 lead rest ih =>
    by_cases hnil : decode (rest.drop (first lead rest).2) = []
    · -- One character is left, and its byte is the last one.
      rw [hnil, List.getLast?_singleton, Option.some.injEq] at hb
      have hlead : lead < 0x80 := Decidable.not_not.mp fun hlead => by
        have hle := le_toNat_first hlead rest
        rw [hb, toNat_ofNat_ascii h] at hle
        exact Nat.not_lt_of_le hle (UInt8.lt_iff_toNat_lt.mp h)
      rw [first_of_ascii hlead] at hb hnil
      obtain rfl : lead = b := by
        rw [← UInt8.toNat_inj, ← toNat_ofNat_ascii hlead, ← toNat_ofNat_ascii h]
        exact congrArg Char.toNat hb
      rw [show rest = [] from decode_eq_nil_iff.mp hnil]
      rfl
    · have hrest := List.getLast?_eq_some_getLast hnil
      rw [List.getLast?_cons, hrest, Option.getD_some, ← hrest] at hb
      have hlast := ih hb
      rw [List.getLast?_drop] at hlast
      split at hlast
      · cases hlast
      · rw [List.getLast?_cons, hlast]
        rfl

/-- **No ASCII byte comes up at the end** that was not there. -/
theorem getLast?_of_clean {bytes : List UInt8} (h : b < 0x80)
    (hb : (clean bytes).getLast? = some b) : bytes.getLast? = some b :=
  getLast?_of_decode h (getLast?_of_encode h hb)

end RemoteLog.Text.Utf8
