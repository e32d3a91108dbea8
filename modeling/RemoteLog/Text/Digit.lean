import RemoteLog.Text.Blank

/-! # Decimal digits

A character is a decimal digit when its general category is Nd (Unicode 16.0: 76 scripts
and styles of ten digits each).

* **`digitZeros`** — the code points of the zeros; nine more digits follow each of them.
* **`isDigit c`** — whether `c` is one of these digits. -/

namespace RemoteLog.Text

/-- The zero of every row of ten decimal digits, ascending. -/
def digitZeros : List Nat :=
  [0x30, 0x660, 0x6f0, 0x7c0, 0x966, 0x9e6, 0xa66, 0xae6, 0xb66, 0xbe6, 0xc66, 0xce6, 0xd66,
   0xde6, 0xe50, 0xed0, 0xf20, 0x1040, 0x1090, 0x17e0, 0x1810, 0x1946, 0x19d0, 0x1a80, 0x1a90,
   0x1b50, 0x1bb0, 0x1c40, 0x1c50, 0xa620, 0xa8d0, 0xa900, 0xa9d0, 0xa9f0, 0xaa50, 0xabf0, 0xff10,
   0x104a0, 0x10d30, 0x10d40, 0x11066, 0x110f0, 0x11136, 0x111d0, 0x112f0, 0x11450, 0x114d0,
   0x11650, 0x116c0, 0x116d0, 0x116da, 0x11730, 0x118e0, 0x11950, 0x11bf0, 0x11c50, 0x11d50,
   0x11da0, 0x11f50, 0x16130, 0x16a60, 0x16ac0, 0x16b50, 0x16d70, 0x1ccf0, 0x1d7ce,
   0x1d7d8, 0x1d7e2, 0x1d7ec, 0x1d7f6, 0x1e140, 0x1e2f0, 0x1e4f0, 0x1e5f1, 0x1e950, 0x1fbf0]

/-- Whether `c` is a decimal digit of any script. -/
def isDigit (c : Char) : Bool :=
  digitZeros.any fun first => first ≤ c.toNat && c.toNat < first + 10

theorem digitZeros_length : digitZeros.length = 76 := rfl

/-- The ASCII digits are decimal digits. -/
theorem isDigit_of_ascii (c : Char) (h : c.isDigit = true) : isDigit c = true := by
  have hc : 48 ≤ c.toNat ∧ c.toNat ≤ 57 := by
    have hv := h
    unfold Char.isDigit at hv
    rw [Bool.and_eq_true, decide_eq_true_eq, decide_eq_true_eq] at hv
    exact ⟨UInt32.le_iff_toNat_le.mp hv.1, UInt32.le_iff_toNat_le.mp hv.2⟩
  have hmem : 48 ∈ digitZeros := List.mem_cons_self
  refine List.any_eq_true.mpr ⟨48, hmem, ?_⟩
  simp only [Bool.and_eq_true, decide_eq_true_eq]
  omega

end RemoteLog.Text
