import RemoteLog.Base64

/-! # Base64 there and back

* **`symbols bytes`** — the symbols of a list of bytes, group by group; `toList_encodeOnto` says
  that these are written.
* **`decode_symbols`** — reading the symbols of bytes gives the bytes. -/

namespace RemoteLog.Base64

/-! ## Sextets -/

/-- Bytes are compared bit by bit. -/
theorem eq_of_bits {a b : UInt8} (h₀ : a.toBitVec[0] = b.toBitVec[0])
    (h₁ : a.toBitVec[1] = b.toBitVec[1]) (h₂ : a.toBitVec[2] = b.toBitVec[2])
    (h₃ : a.toBitVec[3] = b.toBitVec[3]) (h₄ : a.toBitVec[4] = b.toBitVec[4])
    (h₅ : a.toBitVec[5] = b.toBitVec[5]) (h₆ : a.toBitVec[6] = b.toBitVec[6])
    (h₇ : a.toBitVec[7] = b.toBitVec[7]) : a = b := by
  refine UInt8.toBitVec_inj.mp (BitVec.eq_of_getElem_eq fun i hi => ?_)
  match i, hi with
  | 0, _ => exact h₀
  | 1, _ => exact h₁
  | 2, _ => exact h₂
  | 3, _ => exact h₃
  | 4, _ => exact h₄
  | 5, _ => exact h₅
  | 6, _ => exact h₆
  | 7, _ => exact h₇

/-- **A six-bit value is known from its symbol.** -/
theorem value?_symbol {v : UInt8} (h : v &&& 0x3f = v) : value? (symbol v) = some v := by
  have htable : ∀ n < 64, value? (symbol (UInt8.ofNat n)) = some (UInt8.ofNat n) := by
    decide +kernel
  have hlt : v.toNat < 64 := by
    rw [← h, UInt8.toNat_and]
    exact Nat.lt_succ_of_le Nat.and_le_right
  rw [← UInt8.ofNat_toNat (x := v)]
  exact htable v.toNat hlt

/-- Symbols are printable ASCII characters, neither the padding nor a backslash. -/
theorem symbol_printable (v : UInt8) :
    0x2b ≤ symbol v ∧ symbol v ≤ 0x7a ∧ symbol v ≠ padding ∧ symbol v ≠ 0x5c := by
  have htable : ∀ n < 256, let s := symbol (UInt8.ofNat n)
      0x2b ≤ s ∧ s ≤ 0x7a ∧ s ≠ padding ∧ s ≠ 0x5c := by decide +kernel
  rw [← UInt8.ofNat_toNat (x := v)]
  exact htable v.toNat v.toNat_lt

theorem symbol_ne_padding (v : UInt8) : symbol v ≠ padding := (symbol_printable v).2.2.1

section

variable (x y z : UInt8)

theorem value?_symbol₁ : value? (symbol₁ x) = some (x >>> 2) := by
  apply value?_symbol
  apply eq_of_bits <;> simp

theorem value?_symbol₂ : value? (symbol₂ x y) = some ((x &&& 0x03) <<< 4 ||| y >>> 4) := by
  apply value?_symbol
  apply eq_of_bits <;> simp

theorem value?_symbol₃ : value? (symbol₃ y z) = some ((y &&& 0x0f) <<< 2 ||| z >>> 6) := by
  apply value?_symbol
  apply eq_of_bits <;> simp

theorem value?_symbol₄ : value? (symbol₄ z) = some (z &&& 0x3f) := by
  apply value?_symbol
  apply eq_of_bits <;> simp

/-- The first byte of a group comes back from its sextets. -/
theorem byte₁_sextets : byte₁ (x >>> 2) ((x &&& 0x03) <<< 4 ||| y >>> 4) = x := by
  apply eq_of_bits <;> simp [byte₁]

/-- The second byte of a group comes back from its sextets. -/
theorem byte₂_sextets :
    byte₂ ((x &&& 0x03) <<< 4 ||| y >>> 4) ((y &&& 0x0f) <<< 2 ||| z >>> 6) = y := by
  apply eq_of_bits <;> simp [byte₂]

/-- The third byte of a group comes back from its sextets. -/
theorem byte₃_sextets : byte₃ ((y &&& 0x0f) <<< 2 ||| z >>> 6) (z &&& 0x3f) = z := by
  apply eq_of_bits <;> simp [byte₃]

/-- A last byte fills its second sextet up with zeros. -/
theorem spare_bits₂ : (x &&& 0x03) <<< 4 &&& 0x0f = 0 := by
  apply eq_of_bits <;> simp

/-- Two last bytes fill their third sextet up with zeros. -/
theorem spare_bits₃ : (y &&& 0x0f) <<< 2 &&& 0x03 = 0 := by
  apply eq_of_bits <;> simp

end

/-! ## Symbols of bytes -/

/-- **The symbols of bytes,** three bytes at a time. -/
def symbols : List UInt8 → List UInt8
  | [] => []
  | [x] => [symbol₁ x, symbol₂ x 0, padding, padding]
  | [x, y] => [symbol₁ x, symbol₂ x y, symbol₃ y 0, padding]
  | x :: y :: z :: rest =>
    symbol₁ x :: symbol₂ x y :: symbol₃ y z :: symbol₄ z :: symbols rest

/-- Groups are full. -/
theorem length_symbols (bytes : List UInt8) :
    (symbols bytes).length = encodedSize bytes.length := by
  fun_induction symbols bytes with
  | case1 | case2 | case3 => simp [encodedSize]
  | case4 x y z rest ih =>
    simp only [List.length_cons, ih, encodedSize]
    omega

/-- What is written is printable ASCII without backslashes. -/
theorem printable_of_mem_symbols {bytes : List UInt8} {s : UInt8} (h : s ∈ symbols bytes) :
    0x2b ≤ s ∧ s ≤ 0x7a ∧ s ≠ 0x5c := by
  have hsymbol (v : UInt8) : 0x2b ≤ symbol v ∧ symbol v ≤ 0x7a ∧ symbol v ≠ 0x5c :=
    have hv := symbol_printable v
    ⟨hv.1, hv.2.1, hv.2.2.2⟩
  have hpadding : 0x2b ≤ padding ∧ padding ≤ 0x7a ∧ padding ≠ 0x5c := by decide
  fun_induction symbols bytes with
  | case1 => cases h
  | case2 x =>
    simp only [List.mem_cons, List.not_mem_nil, or_false] at h
    obtain rfl | rfl | rfl | rfl := h
    · exact hsymbol _
    · exact hsymbol _
    · exact hpadding
    · exact hpadding
  | case3 x y =>
    simp only [List.mem_cons, List.not_mem_nil, or_false] at h
    obtain rfl | rfl | rfl | rfl := h
    · exact hsymbol _
    · exact hsymbol _
    · exact hsymbol _
    · exact hpadding
  | case4 x y z rest ih =>
    simp only [List.mem_cons] at h
    obtain rfl | rfl | rfl | rfl | h := h
    · exact hsymbol _
    · exact hsymbol _
    · exact hsymbol _
    · exact hsymbol _
    · exact ih h

theorem toList_encodeFrom (b : ByteArray) (i : Nat) (out : ByteArray) :
    Bytes.toList (encodeFrom b i out) =
      Bytes.toList out ++ symbols ((Bytes.toList b).drop i) := by
  -- The writer goes through the bytes as `symbols` does, group by group.
  fun_induction encodeFrom b i out with
  | case1 i out h x y z ih =>
    rw [ih, Bytes.drop_toList_eq_cons (Nat.lt_of_add_right_lt h),
      Bytes.drop_toList_eq_cons (i := i + 1) (by omega), Bytes.drop_toList_eq_cons h, symbols]
    simp [x, y, z]
  | case2 i out h₂ h₁ x y =>
    -- Two bytes are left.
    have hend : (Bytes.toList b).drop (i + 2) = [] := List.drop_of_length_le (by simp; omega)
    rw [Bytes.drop_toList_eq_cons (Nat.lt_of_add_right_lt h₁), Bytes.drop_toList_eq_cons h₁, hend]
    simp [x, y, symbols]
  | case3 i out h₂ h₁ h x =>
    -- One byte is left.
    have hend : (Bytes.toList b).drop (i + 1) = [] := List.drop_of_length_le (by simp; omega)
    rw [Bytes.drop_toList_eq_cons h, hend]
    simp [x, symbols]
  | case4 i out h₂ h₁ h =>
    have hend : (Bytes.toList b).drop i = [] := List.drop_of_length_le (by simp; omega)
    rw [hend, symbols, List.append_nil]

/-- **The symbols of the bytes are written.** -/
theorem toList_encodeOnto (out b : ByteArray) :
    Bytes.toList (encodeOnto out b) = Bytes.toList out ++ symbols (Bytes.toList b) :=
  toList_encodeFrom b 0 out

/-! ## Reading symbols -/

/-- A last group of one byte. -/
theorem decodeLast_one (offset : Nat) (out : ByteArray) (x : UInt8) :
    decodeLast offset out (symbols [x]) = .ok (out.push x) := by
  have h₁ : symbol₁ x ≠ padding := symbol_ne_padding _
  have h₂ : symbol₂ x 0 ≠ padding := symbol_ne_padding _
  have hbyte : byte₁ (x >>> 2) ((x &&& 0x03) <<< 4) = x := by simpa using byte₁_sextets x 0
  simp [decodeLast, symbols, h₁, h₂, valuesAt, valueAt, value?_symbol₁, value?_symbol₂, hbyte,
    spare_bits₂, bind, Except.bind, pure, Except.pure]

/-- A last group of two bytes. -/
theorem decodeLast_two (offset : Nat) (out : ByteArray) (x y : UInt8) :
    decodeLast offset out (symbols [x, y]) = .ok ((out.push x).push y) := by
  have h₁ : symbol₁ x ≠ padding := symbol_ne_padding _
  have h₂ : symbol₂ x y ≠ padding := symbol_ne_padding _
  have h₃ : symbol₃ y 0 ≠ padding := symbol_ne_padding _
  have hbyte : byte₂ ((x &&& 0x03) <<< 4 ||| y >>> 4) ((y &&& 0x0f) <<< 2) = y := by
    simpa using byte₂_sextets x y 0
  simp [decodeLast, symbols, h₁, h₂, h₃, valuesAt, valueAt, value?_symbol₁, value?_symbol₂,
    value?_symbol₃, byte₁_sextets, hbyte, spare_bits₃, bind, Except.bind, pure, Except.pure]

/-- A last group of three bytes. -/
theorem decodeLast_three (offset : Nat) (out : ByteArray) (x y z : UInt8) :
    decodeLast offset out (symbols [x, y, z]) = .ok (((out.push x).push y).push z) := by
  have h₁ : symbol₁ x ≠ padding := symbol_ne_padding _
  have h₂ : symbol₂ x y ≠ padding := symbol_ne_padding _
  have h₃ : symbol₃ y z ≠ padding := symbol_ne_padding _
  have h₄ : symbol₄ z ≠ padding := symbol_ne_padding _
  simp [decodeLast, symbols, h₁, h₂, h₃, h₄, valuesAt, valueAt, value?_symbol₁, value?_symbol₂,
    value?_symbol₃, value?_symbol₄, byte₁_sextets, byte₂_sextets, byte₃_sextets, bind,
    Except.bind, pure, Except.pure]

/-- Reading a full group goes on behind it if more symbols follow. -/
theorem decodeFrom_group (offset : Nat) (out : ByteArray) (x y z : UInt8) {rest : List UInt8}
    (hrest : rest ≠ []) :
    decodeFrom offset out (symbols (x :: y :: z :: rest)) =
      decodeFrom (offset + 4) (((out.push x).push y).push z) (symbols rest) := by
  have hne : symbols rest ≠ [] := by
    fun_cases symbols rest <;> simp_all
  obtain ⟨s, more, hmore⟩ := List.exists_cons_of_ne_nil hne
  rw [symbols, hmore, decodeFrom]
  simp [valueAt, value?_symbol₁, value?_symbol₂, value?_symbol₃, value?_symbol₄, byte₁_sextets,
    byte₂_sextets, byte₃_sextets, bind, Except.bind]

/-- Reading the symbols of bytes puts the bytes behind those read before. -/
theorem decodeFrom_symbols {offset : Nat} {bytes : List UInt8} (h : bytes ≠ [] ∨ offset = 0)
    (out : ByteArray) :
    decodeFrom offset out (symbols bytes) = .ok (out ++ bytes.toByteArray) := by
  fun_induction symbols bytes generalizing offset out with
  | case1 =>
    obtain rfl : offset = 0 := by simpa using h
    exact congrArg Except.ok (Bytes.eq_of_toList (by simp))
  | case2 x =>
    refine (decodeLast_one offset out x).trans (congrArg Except.ok (Bytes.eq_of_toList ?_))
    simp
  | case3 x y =>
    refine (decodeLast_two offset out x y).trans (congrArg Except.ok (Bytes.eq_of_toList ?_))
    simp
  | case4 x y z rest ih =>
    -- The last group is read on its own, also when it is full.
    by_cases hrest : rest = []
    · subst hrest
      refine (decodeLast_three offset out x y z).trans (congrArg Except.ok (Bytes.eq_of_toList ?_))
      simp
    · refine (decodeFrom_group offset out x y z hrest).trans ?_
      rw [ih (.inl hrest)]
      exact congrArg Except.ok (Bytes.eq_of_toList (by simp))

/-- **Reading undoes writing.** -/
theorem decode_symbols (b : ByteArray) : decode (symbols (Bytes.toList b)) = .ok b := by
  -- The symbols make full groups, so there is no single one too many.
  have hlen : (symbols (Bytes.toList b)).length % 4 ≠ 1 := by
    rw [length_symbols, encodedSize]
    omega
  rw [decode]
  simp only [hlen, false_and, if_false]
  rw [decodeFrom_symbols (.inr rfl)]
  exact congrArg Except.ok (Bytes.eq_of_toList (by simp))

end RemoteLog.Base64
