import RemoteLog.Proofs.Base64
import RemoteLog.Proofs.Result

/-! # The one spelling of bytes

The symbols of bytes are all that is read: what is refused is not written, and what is read is just
what is written for the bytes it gives. So a text is read if it is made of full groups of letters, with
padding only for what the last byte leaves, and with zeros in the bits that carry nothing.

* **`Base64.symbols_byte₃`**, **`Base64.symbols_byte₂`**, **`Base64.symbols_byte₁`** — the symbols of the
  bytes that a group of sextets gives.
* **`Base64.decode_eq_ok_iff`** — only the symbols of bytes are read as the bytes.
* **`Base64.letter`**, **`Base64.Canonical`** — the alphabet, and texts of full groups;
  **`Base64.exists_decode_eq_ok_iff`** — these are read. -/

namespace RemoteLog.Base64

/-! ## Sextets -/

/-- A value of six bits. -/
def IsSextet (v : UInt8) : Prop := v &&& 0x3f = v

instance (v : UInt8) : Decidable (IsSextet v) := inferInstanceAs (Decidable (_ = _))

/-- A sextet is what a mask of six bits leaves. -/
theorem IsSextet.exists_mask {v : UInt8} (h : IsSextet v) : ∃ a, v = a &&& 0x3f := ⟨v, h.symm⟩

/-- **A symbol is known from its value,** which is a sextet. -/
theorem eq_symbol_of_value? {s v : UInt8} (h : value? s = some v) : s = symbol v ∧ IsSextet v := by
  have htable : ∀ n < 256, (value? (UInt8.ofNat n)).all fun v =>
      UInt8.ofNat n == symbol v && v &&& 0x3f == v := by
    decide +kernel
  have hs := htable s.toNat s.toNat_lt
  rw [UInt8.ofNat_toNat, h, Option.all_some, Bool.and_eq_true, beq_iff_eq, beq_iff_eq] at hs
  exact hs

section

variable {u v w x : UInt8} (hu : IsSextet u) (hv : IsSextet v) (hw : IsSextet w) (hx : IsSextet x)

include hu hv in
/-- The first sextet comes back from the first byte. -/
theorem symbol₁_byte₁ : symbol₁ (byte₁ u v) = symbol u := by
  obtain ⟨a, rfl⟩ := hu.exists_mask
  obtain ⟨b, rfl⟩ := hv.exists_mask
  have hbits : byte₁ (a &&& 0x3f) (b &&& 0x3f) >>> 2 = a &&& 0x3f := by
    apply eq_of_bits <;> simp [byte₁]
  rw [symbol₁, hbits]

include hv hw in
/-- The second sextet comes back from the first two bytes. -/
theorem symbol₂_bytes : symbol₂ (byte₁ u v) (byte₂ v w) = symbol v := by
  obtain ⟨a, rfl⟩ := hv.exists_mask
  obtain ⟨b, rfl⟩ := hw.exists_mask
  have hbits : (byte₁ u (a &&& 0x3f) &&& 0x03) <<< 4 |||
      byte₂ (a &&& 0x3f) (b &&& 0x3f) >>> 4 = a &&& 0x3f := by
    apply eq_of_bits <;> simp [byte₁, byte₂]
  rw [symbol₂, hbits]

include hw hx in
/-- The third sextet comes back from the last two bytes. -/
theorem symbol₃_bytes : symbol₃ (byte₂ v w) (byte₃ w x) = symbol w := by
  obtain ⟨a, rfl⟩ := hw.exists_mask
  obtain ⟨b, rfl⟩ := hx.exists_mask
  have hbits : (byte₂ v (a &&& 0x3f) &&& 0x0f) <<< 2 |||
      byte₃ (a &&& 0x3f) (b &&& 0x3f) >>> 6 = a &&& 0x3f := by
    apply eq_of_bits <;> simp [byte₂, byte₃]
  rw [symbol₃, hbits]

include hx in
/-- The fourth sextet comes back from the last byte. -/
theorem symbol₄_byte₃ : symbol₄ (byte₃ w x) = symbol x := by
  obtain ⟨a, rfl⟩ := hx.exists_mask
  have hbits : byte₃ w (a &&& 0x3f) &&& 0x3f = a &&& 0x3f := by
    apply eq_of_bits <;> simp [byte₃]
  rw [symbol₄, hbits]

/-! ## Groups -/

include hu hv hw hx in
/-- **Four sextets** are spelled for the bytes that they give. -/
theorem symbols_byte₃ (rest : List UInt8) :
    symbols (byte₁ u v :: byte₂ v w :: byte₃ w x :: rest) =
      symbol u :: symbol v :: symbol w :: symbol x :: symbols rest := by
  rw [symbols, symbol₁_byte₁ hu hv, symbol₂_bytes hv hw, symbol₃_bytes hw hx, symbol₄_byte₃ hx]

include hu hv hw in
/-- **Three sextets,** the last one without spare bits, are spelled for the bytes that they give. -/
theorem symbols_byte₂ (hspare : w &&& 0x03 = 0) :
    symbols [byte₁ u v, byte₂ v w] = [symbol u, symbol v, symbol w, padding] := by
  -- The missing byte gives a zero for the missing sextet.
  have hlast : symbol₃ (byte₂ v w) 0 = symbol w := by
    have hzero : byte₃ w 0 = 0 := by
      have hlow : w.toBitVec[0] = false ∧ w.toBitVec[1] = false :=
        ⟨by simpa using congrArg (·.toBitVec[0]) hspare,
          by simpa using congrArg (·.toBitVec[1]) hspare⟩
      apply eq_of_bits <;> simp [byte₃, hlow]
    rw [← hzero]
    exact symbol₃_bytes hw (by decide)
  rw [symbols, symbol₁_byte₁ hu hv, symbol₂_bytes hv hw, hlast]

include hu hv in
/-- **Two sextets,** the last one without spare bits, are spelled for the byte that they give. -/
theorem symbols_byte₁ (hspare : v &&& 0x0f = 0) :
    symbols [byte₁ u v] = [symbol u, symbol v, padding, padding] := by
  have hlast : symbol₂ (byte₁ u v) 0 = symbol v := by
    have hzero : byte₂ v 0 = 0 := by
      have hlow : v.toBitVec[0] = false ∧ v.toBitVec[1] = false ∧ v.toBitVec[2] = false ∧
          v.toBitVec[3] = false :=
        ⟨by simpa using congrArg (·.toBitVec[0]) hspare,
          by simpa using congrArg (·.toBitVec[1]) hspare,
          by simpa using congrArg (·.toBitVec[2]) hspare,
          by simpa using congrArg (·.toBitVec[3]) hspare⟩
      apply eq_of_bits <;> simp [byte₂, hlow]
    rw [← hzero]
    exact symbol₂_bytes hv (by decide)
  rw [symbols, symbol₁_byte₁ hu hv, hlast]

end

/-! ## What is read -/

theorem valueAt_eq_ok_iff {s v : UInt8} {offset : Nat} :
    valueAt s offset = .ok v ↔ value? s = some v := by
  unfold valueAt
  split <;> simp_all

/-- Values are read from their symbols. -/
theorem eq_map_of_valuesAt {offset : Nat} {s values : List UInt8}
    (h : valuesAt offset s = .ok values) :
    s = values.map symbol ∧ ∀ v ∈ values, IsSextet v := by
  induction s generalizing offset values with
  | nil =>
    cases h
    exact ⟨rfl, nofun⟩
  | cons first s ih =>
    obtain ⟨v, hv, h⟩ := exists_of_bind_eq_ok h
    obtain ⟨vs, hvs, h⟩ := exists_of_bind_eq_ok h
    cases h
    obtain ⟨rfl, hsextet⟩ := eq_symbol_of_value? (valueAt_eq_ok_iff.mp hv)
    obtain ⟨rfl, hsextets⟩ := ih hvs
    exact ⟨rfl, List.forall_mem_cons.mpr ⟨hsextet, hsextets⟩⟩

/-- **A last group that is read** is spelled for the bytes that it gives. -/
theorem eq_symbols_of_decodeLast {offset : Nat} {out b : ByteArray} {group : List UInt8}
    (hlen : group.length ≤ 4) (h : decodeLast offset out group = .ok b) :
    ∃ bytes, group = symbols bytes ∧ b = out ++ bytes.toByteArray := by
  obtain ⟨values, hvalues, h⟩ := exists_of_bind_eq_ok h
  obtain ⟨hsymbols, hsextets⟩ := eq_map_of_valuesAt hvalues
  generalize hfill : group.dropWhile (· != padding) = fill at h
  have hgroup : group = values.map symbol ++ fill := by
    rw [← hsymbols, ← hfill, List.takeWhile_append_dropWhile]
  -- Two checks come before the number of values is looked at: what follows them is all padding.
  obtain ⟨-, h⟩ := of_unless_throw h
  obtain ⟨hpadding, h⟩ := of_unless_throw h
  have hreplicate : fill = List.replicate fill.length padding :=
    List.eq_replicate_iff.mpr ⟨rfl, by simpa using hpadding⟩
  match values, h with
  | [], h =>
    by_cases hempty : group = [] ∧ offset = 0
    · rw [if_pos hempty] at h
      cases h
      exact ⟨[], hempty.1, Bytes.eq_of_toList (by simp)⟩
    · rw [if_neg hempty] at h
      cases h
  | [_], h => cases h
  | [u, v], h =>
    obtain ⟨htwo, h⟩ := of_unless_throw h
    obtain ⟨hspare, h⟩ := of_unless_throw h
    cases h
    have hu : IsSextet u := hsextets u (by simp)
    have hv : IsSextet v := hsextets v (by simp)
    refine ⟨[byte₁ u v], ?_, Bytes.eq_of_toList (by simp)⟩
    rw [symbols_byte₁ hu hv (Decidable.not_not.mp hspare), hgroup, hreplicate,
      Decidable.not_not.mp htwo]
    rfl
  | [u, v, w], h =>
    obtain ⟨hone, h⟩ := of_unless_throw h
    obtain ⟨hspare, h⟩ := of_unless_throw h
    cases h
    have hu : IsSextet u := hsextets u (by simp)
    have hv : IsSextet v := hsextets v (by simp)
    have hw : IsSextet w := hsextets w (by simp)
    refine ⟨[byte₁ u v, byte₂ v w], ?_, Bytes.eq_of_toList (by simp)⟩
    rw [symbols_byte₂ hu hv hw (Decidable.not_not.mp hspare), hgroup, hreplicate,
      Decidable.not_not.mp hone]
    rfl
  | u :: v :: w :: x :: more, h =>
    cases h
    -- The group is full, so nothing else stands in it.
    have hmore : more = [] ∧ fill = [] := by
      rw [hgroup] at hlen
      simp only [List.length_append, List.length_map, List.length_cons] at hlen
      exact ⟨List.length_eq_zero_iff.mp (by omega), List.length_eq_zero_iff.mp (by omega)⟩
    obtain ⟨rfl, rfl⟩ := hmore
    have hu : IsSextet u := hsextets u (by simp)
    have hv : IsSextet v := hsextets v (by simp)
    have hw : IsSextet w := hsextets w (by simp)
    have hx : IsSextet x := hsextets x (by simp)
    refine ⟨[byte₁ u v, byte₂ v w, byte₃ w x], ?_, Bytes.eq_of_toList (by simp)⟩
    rw [symbols_byte₃ hu hv hw hx, hgroup]
    rfl

/-- **Symbols that are read** are spelled for the bytes that they give. -/
theorem eq_symbols_of_decodeFrom {offset : Nat} {out b : ByteArray} {text : List UInt8}
    (h : decodeFrom offset out text = .ok b) :
    ∃ bytes, text = symbols bytes ∧ b = out ++ bytes.toByteArray := by
  -- A group with more behind it is full; the last one is read on its own.
  fun_induction decodeFrom offset out text with
  | case1 offset out s t r q next rest ih =>
    obtain ⟨u, hreadu, h⟩ := exists_of_bind_eq_ok h
    obtain ⟨v, hreadv, h⟩ := exists_of_bind_eq_ok h
    obtain ⟨w, hreadw, h⟩ := exists_of_bind_eq_ok h
    obtain ⟨x, hreadx, h⟩ := exists_of_bind_eq_ok h
    obtain ⟨hs, hu⟩ := eq_symbol_of_value? (valueAt_eq_ok_iff.mp hreadu)
    obtain ⟨ht, hv⟩ := eq_symbol_of_value? (valueAt_eq_ok_iff.mp hreadv)
    obtain ⟨hr, hw⟩ := eq_symbol_of_value? (valueAt_eq_ok_iff.mp hreadw)
    obtain ⟨hq, hx⟩ := eq_symbol_of_value? (valueAt_eq_ok_iff.mp hreadx)
    obtain ⟨bytes, hrest, rfl⟩ := ih u v w x h
    refine ⟨byte₁ u v :: byte₂ v w :: byte₃ w x :: bytes, ?_, Bytes.eq_of_toList (by simp)⟩
    rw [symbols_byte₃ hu hv hw hx, ← hs, ← ht, ← hr, ← hq, ← hrest]
  | case2 offset out group hshort =>
    refine eq_symbols_of_decodeLast ?_ h
    match group, hshort with
    | [], _ | [_], _ | [_, _], _ | [_, _, _], _ | [_, _, _, _], _ => simp
    | s :: t :: u :: v :: next :: rest, hshort => exact (hshort s t u v next rest rfl).elim

/-- **Only the symbols of bytes are read as the bytes.** -/
theorem decode_eq_ok_iff {text : List UInt8} {b : ByteArray} :
    decode text = .ok b ↔ text = symbols (Bytes.toList b) := by
  constructor
  · intro h
    rw [decode] at h
    split at h
    · cases h
    · obtain ⟨bytes, rfl, rfl⟩ := eq_symbols_of_decodeFrom h
      simp
  · rintro rfl
    exact decode_symbols b

/-! ## What is spelled -/

/-- The letters of the alphabet, in the order of their values. -/
def letters : List Char :=
  "ABCDEFGHIJKLMNOPQRSTUVWXYZabcdefghijklmnopqrstuvwxyz0123456789+/".toList

theorem length_letters : letters.length = 64 := by decide +kernel

/-- The letter of a digit with base 64. -/
def letter (digit : Fin 64) : UInt8 := (letters.get (digit.cast length_letters.symm)).toUInt8

/-- **A last digit without spare bits.** It has two bits that carry nothing for each letter that the
group lacks, and these are zero. -/
def NoSpare (fill : Nat) (last : Fin 64) : Prop :=
  (fill = 1 → last.val % 4 = 0) ∧ (fill = 2 → last.val % 16 = 0)

/-- **A text of full groups:** letters, with padding for at most two that the last group of four
lacks, and without spare bits. -/
def Canonical (text : List UInt8) : Prop :=
  ∃ (digits : List (Fin 64)) (fill : Nat),
    text = digits.map letter ++ List.replicate fill padding ∧
    fill ≤ 2 ∧ (digits.length + fill) % 4 = 0 ∧ ∀ last ∈ digits.getLast?, NoSpare fill last

/-- The letter of a digit is its symbol. -/
theorem letter_eq_symbol (digit : Fin 64) :
    letter digit = symbol (UInt8.ofNat digit) ∧ IsSextet (UInt8.ofNat digit) := by
  revert digit
  decide +kernel

/-- The spare bits of a digit. -/
theorem spare_bits_digit (digit : Fin 64) :
    (UInt8.ofNat digit &&& 0x03 = 0 ↔ digit.val % 4 = 0) ∧
      (UInt8.ofNat digit &&& 0x0f = 0 ↔ digit.val % 16 = 0) := by
  revert digit
  decide +kernel

/-- A sextet is a digit. -/
theorem IsSextet.exists_digit {v : UInt8} (h : IsSextet v) :
    ∃ digit : Fin 64, v = UInt8.ofNat digit := by
  have hlt : v.toNat < 64 := by
    rw [← show v &&& 0x3f = v from h, UInt8.toNat_and]
    exact Nat.lt_succ_of_le Nat.and_le_right
  exact ⟨⟨v.toNat, hlt⟩, UInt8.ofNat_toNat.symm⟩

/-- A symbol with a value is the letter of a digit, which is its value. -/
theorem exists_letter {s v : UInt8} (h : value? s = some v) :
    ∃ digit : Fin 64, s = letter digit ∧ v = UInt8.ofNat digit := by
  obtain ⟨rfl, hsextet⟩ := eq_symbol_of_value? h
  obtain ⟨digit, rfl⟩ := hsextet.exists_digit
  exact ⟨digit, (letter_eq_symbol digit).1.symm, rfl⟩

/-- The symbols of bytes make full groups. -/
theorem canonical_symbols (bytes : List UInt8) : Canonical (symbols bytes) := by
  fun_induction symbols bytes with
  | case1 => exact ⟨[], 0, rfl, by decide, rfl, by simp⟩
  | case2 x =>
    obtain ⟨d, hd, -⟩ := exists_letter (value?_symbol₁ x)
    obtain ⟨e, he, hvalue⟩ := exists_letter (value?_symbol₂ x 0)
    have hspare : e.val % 16 = 0 := by
      rw [← (spare_bits_digit e).2, ← hvalue]
      simpa using spare_bits₂ x
    refine ⟨[d, e], 2, by rw [hd, he]; rfl, by decide, by simp, ?_⟩
    rintro last ⟨⟩
    exact ⟨fun hone => absurd hone (by decide), fun _ => hspare⟩
  | case3 x y =>
    obtain ⟨d, hd, -⟩ := exists_letter (value?_symbol₁ x)
    obtain ⟨e, he, -⟩ := exists_letter (value?_symbol₂ x y)
    obtain ⟨f, hf, hvalue⟩ := exists_letter (value?_symbol₃ y 0)
    have hspare : f.val % 4 = 0 := by
      rw [← (spare_bits_digit f).1, ← hvalue]
      simpa using spare_bits₃ y
    refine ⟨[d, e, f], 1, by rw [hd, he, hf]; rfl, by decide, by simp, ?_⟩
    rintro last ⟨⟩
    exact ⟨fun _ => hspare, fun htwo => absurd htwo (by decide)⟩
  | case4 x y z rest ih =>
    obtain ⟨d, hd, -⟩ := exists_letter (value?_symbol₁ x)
    obtain ⟨e, he, -⟩ := exists_letter (value?_symbol₂ x y)
    obtain ⟨f, hf, -⟩ := exists_letter (value?_symbol₃ y z)
    obtain ⟨g, hg, -⟩ := exists_letter (value?_symbol₄ z)
    obtain ⟨digits, fill, hrest, hfill, hfull, hspare⟩ := ih
    refine ⟨[d, e, f, g] ++ digits, fill, by rw [hd, he, hf, hg, hrest]; rfl, hfill, ?_,
      fun last hlast => ?_⟩
    · simp only [List.length_append, List.length_cons, List.length_nil]
      omega
    · rw [List.getLast?_append] at hlast
      cases hmore : digits.getLast? with
      | some l =>
        rw [hmore] at hlast hspare
        exact hspare last hlast
      | none =>
        -- The group is the last one, so no letter is lacking.
        obtain rfl := List.getLast?_eq_none_iff.mp hmore
        obtain rfl : fill = 0 := by
          simp only [List.length_nil] at hfull
          omega
        exact ⟨fun hone => absurd hone (by decide), fun htwo => absurd htwo (by decide)⟩

/-- Full groups are the symbols of bytes. -/
theorem exists_symbols_eq {fill : Nat} (hfill : fill ≤ 2) (digits : List (Fin 64))
    (hfull : (digits.length + fill) % 4 = 0)
    (hspare : ∀ last ∈ digits.getLast?, NoSpare fill last) :
    ∃ bytes, symbols bytes = digits.map letter ++ List.replicate fill padding := by
  have hletter (digit : Fin 64) : letter digit = symbol (UInt8.ofNat digit) :=
    (letter_eq_symbol digit).1
  have hsextet (digit : Fin 64) : IsSextet (UInt8.ofNat digit) := (letter_eq_symbol digit).2
  match digits with
  | [] =>
    obtain rfl : fill = 0 := by
      simp only [List.length_nil] at hfull
      omega
    exact ⟨[], rfl⟩
  | [_] =>
    -- One letter has no bits for a byte, and three more are too much padding.
    simp only [List.length_cons, List.length_nil] at hfull
    omega
  | [d, e] =>
    obtain rfl : fill = 2 := by
      simp only [List.length_cons, List.length_nil] at hfull
      omega
    have hzero := (spare_bits_digit e).2.mpr ((hspare e rfl).2 rfl)
    refine ⟨_, (symbols_byte₁ (hsextet d) (hsextet e) hzero).trans ?_⟩
    rw [← hletter, ← hletter]
    rfl
  | [d, e, f] =>
    obtain rfl : fill = 1 := by
      simp only [List.length_cons, List.length_nil] at hfull
      omega
    have hzero := (spare_bits_digit f).1.mpr ((hspare f rfl).1 rfl)
    refine ⟨_, (symbols_byte₂ (hsextet d) (hsextet e) (hsextet f) hzero).trans ?_⟩
    rw [← hletter, ← hletter, ← hletter]
    rfl
  | d :: e :: f :: g :: digits =>
    have hrest : (digits.length + fill) % 4 = 0 := by
      simp only [List.length_cons] at hfull
      omega
    have hlast : ∀ last ∈ digits.getLast?, NoSpare fill last := by
      intro last hlast
      refine hspare last ?_
      rw [show d :: e :: f :: g :: digits = [d, e, f, g] ++ digits from rfl, List.getLast?_append,
        Option.mem_def.mp hlast]
      rfl
    obtain ⟨bytes, hbytes⟩ := exists_symbols_eq hfill digits hrest hlast
    refine ⟨_, (symbols_byte₃ (hsextet d) (hsextet e) (hsextet f) (hsextet g) bytes).trans ?_⟩
    rw [← hletter, ← hletter, ← hletter, ← hletter, hbytes]
    rfl

/-- **What is read is what is spelled canonically.** -/
theorem exists_decode_eq_ok_iff {text : List UInt8} :
    (∃ b, decode text = .ok b) ↔ Canonical text := by
  constructor
  · rintro ⟨b, hb⟩
    rw [decode_eq_ok_iff.mp hb]
    exact canonical_symbols _
  · intro h
    obtain ⟨digits, fill, rfl, hfill, hfull, hspare⟩ := h
    obtain ⟨bytes, hbytes⟩ := exists_symbols_eq hfill digits hfull hspare
    exact ⟨bytes.toByteArray, decode_eq_ok_iff.mpr (by simp [hbytes])⟩

end RemoteLog.Base64
