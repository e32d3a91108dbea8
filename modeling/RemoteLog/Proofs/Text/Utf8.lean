import RemoteLog.Text.Utf8

/-! # What lossy decoding makes of bytes

A byte below 0x80 stands for itself, and no other byte takes part in a character below U+0080. So the
ASCII characters of a decoded text are the ASCII bytes that were decoded, and nothing but a line feed
becomes one.

* **`Utf8.first_of_ascii`**, **`Utf8.le_toNat_first`** — the character at the front of bytes.
* **`Utf8.mem_of_mem_decodeLossy`** — the ASCII characters of a decoded text. -/

namespace RemoteLog.Text.Utf8

variable {lead b c d : UInt8}

/-- A byte below 0x80 stands for itself. -/
theorem first_of_ascii (h : lead < 0x80) (rest : List UInt8) :
    first lead rest = (Char.ofNat lead.toNat, 0) := by
  unfold first
  rw [if_pos h]

theorem toNat_ofNat {n : Nat} (h : n.isValidChar) : (Char.ofNat n).toNat = n := by
  unfold Char.ofNat
  rw [dif_pos h]
  rfl

/-! ## The values of sequences -/

theorem isContinuation_iff : isContinuation b = true ↔ 0x80 ≤ b.toNat ∧ b.toNat ≤ 0xbf := by
  simp [isContinuation, UInt8.le_iff_toNat_le]

/-- The second byte of three excludes values below U+0800 and surrogates. -/
theorem isSecondOfThree_iff : isSecondOfThree lead b = true ↔
    0x80 ≤ b.toNat ∧ b.toNat ≤ 0xbf ∧ (lead.toNat = 0xe0 → 0xa0 ≤ b.toNat) ∧
      (lead.toNat = 0xed → b.toNat ≤ 0x9f) := by
  unfold isSecondOfThree
  split
  · next h =>
    subst h
    simp [UInt8.le_iff_toNat_le]
    omega
  · next h =>
    have hlead : lead.toNat ≠ 0xe0 := fun heq => h (UInt8.toNat_inj.mp heq)
    split
    · next h =>
      subst h
      simp [UInt8.le_iff_toNat_le]
      omega
    · next h =>
      have hlead' : lead.toNat ≠ 0xed := fun heq => h (UInt8.toNat_inj.mp heq)
      simp [isContinuation_iff, hlead, hlead']

/-- The second byte of four excludes values below U+10000 and above U+10FFFF. -/
theorem isSecondOfFour_iff : isSecondOfFour lead b = true ↔
    0x80 ≤ b.toNat ∧ b.toNat ≤ 0xbf ∧ (lead.toNat = 0xf0 → 0x90 ≤ b.toNat) ∧
      (lead.toNat = 0xf4 → b.toNat ≤ 0x8f) := by
  unfold isSecondOfFour
  split
  · next h =>
    subst h
    simp [UInt8.le_iff_toNat_le]
    omega
  · next h =>
    have hlead : lead.toNat ≠ 0xf0 := fun heq => h (UInt8.toNat_inj.mp heq)
    split
    · next h =>
      subst h
      simp [UInt8.le_iff_toNat_le]
      omega
    · next h =>
      have hlead' : lead.toNat ≠ 0xf4 := fun heq => h (UInt8.toNat_inj.mp heq)
      simp [isContinuation_iff, hlead, hlead']

/-- The leads of sequences of a length, as numbers. -/
theorem lead_iff {low high : UInt8} :
    (decide (low ≤ lead) && decide (lead ≤ high)) = true ↔
      low.toNat ≤ lead.toNat ∧ lead.toNat ≤ high.toNat := by
  simp [UInt8.le_iff_toNat_le]

/-- **A byte that is not ASCII** is the lead of a character that is not ASCII, or is replaced. -/
theorem le_toNat_first (h : ¬ lead < 0x80) (rest : List UInt8) :
    0x80 ≤ (first lead rest).1.toNat := by
  have hreplaced : 0x80 ≤ replacement.toNat := by decide
  fun_cases first lead rest with
  | case1 => contradiction
  | case2 _ hlead b rest hb =>
    rw [lead_iff] at hlead
    rw [isContinuation_iff] at hb
    have hvalue : 0x80 ≤ lead.toNat % 32 * 64 + payload b ∧
        lead.toNat % 32 * 64 + payload b < 0x800 := by
      simp only [payload, UInt8.reduceToNat] at hlead ⊢
      omega
    rw [toNat_ofNat (.inl (by omega))]
    exact hvalue.1
  | case5 _ _ hlead b hb c rest hc =>
    rw [lead_iff] at hlead
    rw [isSecondOfThree_iff] at hb
    rw [isContinuation_iff] at hc
    have hvalue : 0x800 ≤ (lead.toNat % 16 * 64 + payload b) * 64 + payload c ∧
        ((lead.toNat % 16 * 64 + payload b) * 64 + payload c).isValidChar := by
      simp only [payload, UInt8.reduceToNat, Nat.isValidChar] at hlead ⊢
      omega
    rw [toNat_ofNat hvalue.2]
    omega
  | case10 _ _ _ hlead b hb c hc d rest hd =>
    rw [lead_iff] at hlead
    rw [isSecondOfFour_iff] at hb
    rw [isContinuation_iff] at hc hd
    have hvalue : 0x10000 ≤ ((lead.toNat % 8 * 64 + payload b) * 64 + payload c) * 64 + payload d ∧
        (((lead.toNat % 8 * 64 + payload b) * 64 + payload c) * 64 + payload d).isValidChar := by
      simp only [payload, UInt8.reduceToNat, Nat.isValidChar] at hlead ⊢
      omega
    rw [toNat_ofNat hvalue.2]
    omega
  | _ => exact hreplaced

/-! ## ASCII characters of a decoded text -/

/-- A character that is put behind a text is not ASCII, or is a byte that was decoded. -/
theorem mem_of_mem_decodeOnto {c : Char} {out : String} {bytes : List UInt8}
    (h : c ∈ (decodeOnto out bytes).toList) (hascii : c.toNat < 0x80) :
    c ∈ out.toList ∨ ∃ b ∈ bytes, b.toNat = c.toNat := by
  fun_induction decodeOnto out bytes with
  | case1 => exact .inl h
  | case2 out lead rest front ih =>
    rcases ih h with hc | ⟨b, hb, hvalue⟩
    · rw [String.toList_push, List.mem_append, List.mem_singleton] at hc
      rcases hc with hc | rfl
      · exact .inl hc
      · -- An ASCII character at the front is the lead.
        have hlead : lead < 0x80 := Decidable.not_not.mp fun hlead =>
          absurd (le_toNat_first hlead rest) (Nat.not_le.mpr hascii)
        have hvalid : lead.toNat.isValidChar :=
          .inl (Nat.lt_trans (UInt8.lt_iff_toNat_lt.mp hlead) (by decide))
        refine .inr ⟨lead, List.mem_cons_self .., ?_⟩
        rw [show front = _ from first_of_ascii hlead rest, toNat_ofNat hvalid]
    · exact .inr ⟨b, List.mem_cons_of_mem _ (List.mem_of_mem_drop hb), hvalue⟩

/-- **The ASCII characters of a decoded text** are bytes that were decoded. -/
theorem mem_of_mem_decodeLossy {c : Char} {bytes : ByteArray}
    (h : c ∈ (decodeLossy bytes).toList) (hascii : c.toNat < 0x80) :
    ∃ b ∈ Bytes.toList bytes, b.toNat = c.toNat :=
  (mem_of_mem_decodeOnto h hascii).resolve_left List.not_mem_nil

end RemoteLog.Text.Utf8
