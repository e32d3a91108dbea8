/-! # Big-endian words

* **`BigEndian.write width n`** — the last `width` bytes of `n`, most significant first.
* **`BigEndian.read bytes`** — the number that bytes spell.

Reading undoes writing for every number that fits. -/

namespace RemoteLog.BigEndian

/-- The `width` low bytes of `n`, most significant first. -/
def write : (width n : Nat) → List UInt8
  | 0, _ => []
  | width + 1, n => write width (n / 256) ++ [UInt8.ofNat n]

/-- The number that bytes spell, most significant first. -/
def read (bytes : List UInt8) : Nat := bytes.foldl (fun n b => n * 256 + b.toNat) 0

@[simp] theorem length_write (width n : Nat) : (write width n).length = width := by
  induction width generalizing n with
  | zero => rfl
  | succ width ih => rw [write, List.length_append, ih, List.length_singleton]

theorem read_append_singleton (bytes : List UInt8) (b : UInt8) :
    read (bytes ++ [b]) = read bytes * 256 + b.toNat := by
  rw [read, List.foldl_append]
  rfl

/-- Reading gives the number back up to what does not fit. -/
theorem read_write_mod (width n : Nat) : read (write width n) = n % Nat.pow 256 width := by
  induction width generalizing n with
  | zero => exact (Nat.mod_one n).symm
  | succ width ih =>
    have hpow : Nat.pow 256 (width + 1) = 256 * Nat.pow 256 width := Nat.mul_comm _ _
    rw [write, read_append_singleton, ih, hpow, Nat.mod_mul, UInt8.toNat_ofNat',
      Nat.mul_comm, Nat.add_comm]

/-- **Reading undoes writing.** -/
theorem read_write {width n : Nat} (h : n < Nat.pow 256 width) : read (write width n) = n := by
  rw [read_write_mod, Nat.mod_eq_of_lt h]

/-- What bytes spell fits into as many bytes. -/
theorem read_lt {width : Nat} {bytes : List UInt8} (h : bytes.length = width) :
    read bytes < Nat.pow 256 width := by
  induction width generalizing bytes with
  | zero =>
    rw [List.eq_nil_of_length_eq_zero h]
    exact Nat.one_pos
  | succ width ih =>
    have hne : bytes ≠ [] := List.ne_nil_of_length_eq_add_one h
    have hfront := @ih bytes.dropLast (by simp [h])
    have hlast := (bytes.getLast hne).toNat_lt
    have hpow : Nat.pow 256 (width + 1) = Nat.pow 256 width * 256 := rfl
    rw [← List.dropLast_concat_getLast hne, read_append_singleton]
    omega

/-- **Writing undoes reading,** in as many bytes as were read. -/
theorem write_read {width : Nat} {bytes : List UInt8} (h : bytes.length = width) :
    write width (read bytes) = bytes := by
  induction width generalizing bytes with
  | zero => exact (List.eq_nil_of_length_eq_zero h).symm
  | succ width ih =>
    have hne : bytes ≠ [] := List.ne_nil_of_length_eq_add_one h
    have hfront := @ih bytes.dropLast (by simp [h])
    have hlast := (bytes.getLast hne).toNat_lt
    have hsplit := List.dropLast_concat_getLast hne
    have hhigh : (read bytes.dropLast * 256 + (bytes.getLast hne).toNat) / 256
        = read bytes.dropLast := by omega
    rw [← hsplit, read_append_singleton, write, hhigh, hfront, UInt8.ofNat_add, UInt8.ofNat_mul,
      UInt8.ofNat_toNat]
    simp

end RemoteLog.BigEndian
