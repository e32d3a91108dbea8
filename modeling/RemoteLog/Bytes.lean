/-! # Byte sequences

File contents, frame bodies and streams are packed `ByteArray`s. Everything said about them is said
about the list of their bytes.

* **`Bytes.toList b`** — the bytes in order, the view that every statement goes through.
* **`Bytes.fold f init b`** — the left fold over the bytes, without building the list.
* **`Bytes.replicate n x`** — `n` copies of one byte. -/

namespace RemoteLog.Bytes

/-- The first `n` bytes put in front of `tail`, taken from the last to the first. -/
def collect (b : ByteArray) : (n : Nat) → n ≤ b.size → List UInt8 → List UInt8
  | 0, _, tail => tail
  | n + 1, h, tail => collect b n (Nat.le_of_succ_le h) (b[n] :: tail)

/-- The bytes of `b` in order. -/
def toList (b : ByteArray) : List UInt8 := collect b b.size (Nat.le_refl _) []

theorem collect_eq (b : ByteArray) (n : Nat) (h : n ≤ b.size) (tail : List UInt8) :
    collect b n h tail = b.data.toList.take n ++ tail := by
  induction n generalizing tail with
  | zero => simp [collect]
  | succ n ih =>
    have hn : n < b.data.toList.length := by simpa using Nat.lt_of_succ_le h
    rw [collect, ih, List.take_succ_eq_append_getElem hn, List.append_assoc]
    rfl

/-- The view is the list of the underlying array. -/
theorem toList_eq (b : ByteArray) : toList b = b.data.toList := by
  rw [toList, collect_eq, List.append_nil]
  exact List.take_of_length_le (by simp)

@[simp] theorem toList_empty : toList ByteArray.empty = [] := rfl

@[simp] theorem toList_append (a b : ByteArray) : toList (a ++ b) = toList a ++ toList b := by
  simp [toList_eq]

@[simp] theorem toList_push (b : ByteArray) (x : UInt8) :
    toList (b.push x) = toList b ++ [x] := by
  simp [toList_eq]

@[simp] theorem toList_toByteArray (l : List UInt8) : toList l.toByteArray = l := by
  simp [toList_eq]

@[simp] theorem length_toList (b : ByteArray) : (toList b).length = b.size := by
  simp [toList_eq]

@[simp] theorem toList_extract (b : ByteArray) (i j : Nat) :
    toList (b.extract i j) = ((toList b).take j).drop i := by
  simp [toList_eq, List.drop_take]

/-- The bytes from a position on start with the byte there. -/
theorem drop_toList_eq_cons {b : ByteArray} {i : Nat} (h : i < b.size) :
    (toList b).drop i = b[i] :: (toList b).drop (i + 1) := by
  rw [List.drop_eq_getElem_cons (by simpa using h)]
  simp [toList_eq, ByteArray.getElem_eq_getElem_data]

/-- The byte at a position is the head of the bytes from there on. -/
theorem getElem_of_drop_toList {b : ByteArray} {i : Nat} {x : UInt8} {rest : List UInt8}
    (h : (toList b).drop i = x :: rest) : ∃ hi : i < b.size, b[i] = x := by
  have hi : i < b.size := by
    refine Nat.lt_of_not_le fun hlen => ?_
    rw [List.drop_of_length_le (by simpa using hlen)] at h
    cases h
  rw [drop_toList_eq_cons hi] at h
  exact ⟨hi, (List.cons.inj h).1⟩

/-- Two sequences with the same bytes are equal. -/
theorem eq_of_toList {a b : ByteArray} (h : toList a = toList b) : a = b := by
  rw [toList_eq, toList_eq] at h
  exact ByteArray.ext (Array.toList_inj.mp h)

/-- **Left fold over the bytes from position `i` on.** -/
def foldFrom {σ : Type} (f : σ → UInt8 → σ) (b : ByteArray) (i : Nat) (state : σ) : σ :=
  if h : i < b.size then foldFrom f b (i + 1) (f state b[i]) else state
termination_by b.size - i

/-- Left fold over all bytes. -/
def fold {σ : Type} (f : σ → UInt8 → σ) (init : σ) (b : ByteArray) : σ := foldFrom f b 0 init

theorem foldFrom_eq {σ : Type} (f : σ → UInt8 → σ) (b : ByteArray) (i : Nat) (state : σ) :
    foldFrom f b i state = ((toList b).drop i).foldl f state := by
  fun_induction foldFrom f b i state with
  | case1 i state h ih =>
    rw [ih, drop_toList_eq_cons h, List.foldl_cons]
  | case2 i state h =>
    rw [List.drop_of_length_le (by simpa using h), List.foldl_nil]

/-- The fold is the fold of the list of bytes. -/
theorem fold_eq {σ : Type} (f : σ → UInt8 → σ) (init : σ) (b : ByteArray) :
    fold f init b = (toList b).foldl f init := by
  simp [fold, foldFrom_eq]

/-- **`n` copies of `x`,** built by doubling. -/
def replicate (n : Nat) (x : UInt8) : ByteArray :=
  if n = 0 then ByteArray.empty
  else
    let half := replicate (n / 2) x
    if n % 2 = 0 then half ++ half else (half ++ half).push x
termination_by n

@[simp] theorem toList_replicate (n : Nat) (x : UInt8) :
    toList (replicate n x) = List.replicate n x := by
  fun_induction replicate n x with
  | case1 => rfl
  | case2 n _ half heven ih =>
    rw [toList_append, ih, List.replicate_append_replicate]
    congr 1
    omega
  | case3 n _ half hodd ih =>
    rw [toList_push, toList_append, ih, List.replicate_append_replicate, ← List.replicate_succ']
    congr 1
    omega

end RemoteLog.Bytes
