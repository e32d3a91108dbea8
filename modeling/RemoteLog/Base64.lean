import RemoteLog.Bytes

/-! # Base64

Raw bytes travel as text: three bytes become four symbols of six bits each, most significant first,
and a last group of one or two bytes is filled up with `=`. Only this one spelling is read: padding
must be complete, and the bits that carry nothing must be zero.

* **`Base64.symbol v`**, **`Base64.value? s`** — the alphabet, both ways.
* **`Base64.encodeOnto out b`** — the symbols of `b` behind `out`.
* **`Base64.decode symbols`** — the bytes, or the first `Fault`. -/

namespace RemoteLog.Base64

/-- The filling symbol `=`. -/
def padding : UInt8 := 0x3d

/-- The symbol of a six-bit value: `A` to `Z`, `a` to `z`, `0` to `9`, `+` and `/`. -/
def symbol (v : UInt8) : UInt8 :=
  if v < 26 then v + 0x41
  else if v < 52 then v + 71
  else if v < 62 then v - 4
  else if v = 62 then 0x2b
  else 0x2f

/-- The six-bit value of a symbol. -/
def value? (s : UInt8) : Option UInt8 :=
  if 0x41 ≤ s && s ≤ 0x5a then some (s - 0x41)
  else if 0x61 ≤ s && s ≤ 0x7a then some (s - 71)
  else if 0x30 ≤ s && s ≤ 0x39 then some (s + 4)
  else if s = 0x2b then some 62
  else if s = 0x2f then some 63
  else none

/-! ## Writing -/

/-- The first symbol of a group: the high six bits of the first byte. -/
def symbol₁ (a : UInt8) : UInt8 := symbol (a >>> 2)

/-- The second symbol of a group. -/
def symbol₂ (a b : UInt8) : UInt8 := symbol ((a &&& 0x03) <<< 4 ||| b >>> 4)

/-- The third symbol of a group. -/
def symbol₃ (b c : UInt8) : UInt8 := symbol ((b &&& 0x0f) <<< 2 ||| c >>> 6)

/-- The fourth symbol of a group: the low six bits of the last byte. -/
def symbol₄ (c : UInt8) : UInt8 := symbol (c &&& 0x3f)

/-- The symbols of the bytes of `b` from position `i` on, behind `out`. -/
def encodeFrom (b : ByteArray) (i : Nat) (out : ByteArray) : ByteArray :=
  if h : i + 2 < b.size then
    let x := b[i]
    let y := b[i + 1]
    let z := b[i + 2]
    encodeFrom b (i + 3) <|
      (((out.push (symbol₁ x)).push (symbol₂ x y)).push (symbol₃ y z)).push (symbol₄ z)
  else if h : i + 1 < b.size then
    let x := b[i]
    let y := b[i + 1]
    (((out.push (symbol₁ x)).push (symbol₂ x y)).push (symbol₃ y 0)).push padding
  else if h : i < b.size then
    let x := b[i]
    (((out.push (symbol₁ x)).push (symbol₂ x 0)).push padding).push padding
  else out
termination_by b.size - i

/-- **The symbols of `b` behind `out`.** -/
def encodeOnto (out b : ByteArray) : ByteArray := encodeFrom b 0 out

/-- The number of symbols for `n` bytes. -/
def encodedSize (n : Nat) : Nat := (n + 2) / 3 * 4

/-! ## Reading -/

/-- Why symbols are refused. Offsets count symbols from zero. -/
inductive Fault where
  /-- A byte that is no symbol of the alphabet, or padding where none may stand. -/
  | badSymbol (byte : UInt8) (offset : Nat)
  /-- A number of symbols that no bytes have. -/
  | badLength (length : Nat)
  /-- A last symbol that carries bits beyond the last byte. -/
  | badLastSymbol (byte : UInt8) (offset : Nat)
  /-- Padding that does not fill the last group. -/
  | badPadding
  deriving DecidableEq

/-- The text of a fault. -/
def Fault.message : Fault → String
  | badSymbol byte offset => s!"Invalid symbol {byte}, offset {offset}."
  | badLength length => s!"Invalid input length: {length}"
  | badLastSymbol byte offset => s!"Invalid last symbol {byte}, offset {offset}."
  | badPadding => "Invalid padding"

/-- The value of the symbol at an offset. -/
def valueAt (s : UInt8) (offset : Nat) : Except Fault UInt8 :=
  match value? s with
  | some v => .ok v
  | none => .error (.badSymbol s offset)

/-- The values of symbols that start at an offset. -/
def valuesAt (offset : Nat) : List UInt8 → Except Fault (List UInt8)
  | [] => .ok []
  | s :: rest => do
    let v ← valueAt s offset
    let vs ← valuesAt (offset + 1) rest
    return v :: vs

/-- The first byte of a group. -/
def byte₁ (u v : UInt8) : UInt8 := u <<< 2 ||| v >>> 4

/-- The second byte of a group. -/
def byte₂ (v w : UInt8) : UInt8 := v <<< 4 ||| w >>> 2

/-- The third byte of a group. -/
def byte₃ (w x : UInt8) : UInt8 := w <<< 6 ||| x

/-- The last group, of at most four symbols that start at `offset`, behind `out`. -/
def decodeLast (offset : Nat) (out : ByteArray) (group : List UInt8) : Except Fault ByteArray := do
  let symbols := group.takeWhile (· != padding)
  let fill := group.dropWhile (· != padding)
  let values ← valuesAt offset symbols
  if fill ≠ [] ∧ symbols.length < 2 then
    throw (.badSymbol padding (offset + symbols.length))
  if fill.any (· != padding) then
    throw (.badSymbol padding (offset + symbols.length))
  match values with
  | [] => if group = [] ∧ offset = 0 then return out else throw (.badLength offset)
  | [_] => throw (.badLength (offset + 1))
  | [u, v] =>
    if fill.length ≠ 2 then throw .badPadding
    if v &&& 0x0f ≠ 0 then throw (.badLastSymbol (symbols.getLastD 0) (offset + 1))
    return out.push (byte₁ u v)
  | [u, v, w] =>
    if fill.length ≠ 1 then throw .badPadding
    if w &&& 0x03 ≠ 0 then throw (.badLastSymbol (symbols.getLastD 0) (offset + 2))
    return (out.push (byte₁ u v)).push (byte₂ v w)
  | u :: v :: w :: x :: _ =>
    return ((out.push (byte₁ u v)).push (byte₂ v w)).push (byte₃ w x)

/-- Symbols that start at `offset`, behind `out`. Every group but the last must be full. -/
def decodeFrom (offset : Nat) (out : ByteArray) : List UInt8 → Except Fault ByteArray
  | s :: t :: u :: v :: next :: rest => do
    let a ← valueAt s offset
    let b ← valueAt t (offset + 1)
    let c ← valueAt u (offset + 2)
    let d ← valueAt v (offset + 3)
    decodeFrom (offset + 4) (((out.push (byte₁ a b)).push (byte₂ b c)).push (byte₃ c d))
      (next :: rest)
  | group => decodeLast offset out group

/-- **The bytes of a text of symbols.** A single symbol too many that is foreign to the alphabet,
such as a line feed at the end, is reported before anything else. -/
def decode (symbols : List UInt8) : Except Fault ByteArray :=
  let n := symbols.length
  let last := symbols.getLastD padding
  if n % 4 = 1 ∧ last ≠ padding ∧ value? last = none then .error (.badSymbol last (n - 1))
  else decodeFrom 0 ByteArray.empty symbols

end RemoteLog.Base64
