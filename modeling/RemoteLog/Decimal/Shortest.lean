/-! # Shortest decimals

A binary64 number is shown by the fewest decimal digits that read back as the same number; of
several such decimals, by the one nearest to it. All arithmetic is exact, over naturals.

* **`Binary`** — a finite non-negative number `m * 2 ^ q`.
* **`Binary.readsBack x d`** — whether the decimal `d` lies among the reals that round to `x`.
* **`Binary.shortest x`** — the shortest decimal that does.
* **`text x`** — how a number is laid out: with a point for exponents from -5 to 15, and otherwise
  with one digit before the point and a signed exponent. -/

namespace RemoteLog.Decimal

/-- A finite non-negative binary64 number, `m * 2 ^ q`. -/
structure Binary where
  /-- The significand. -/
  m : Nat
  /-- The exponent of two. -/
  q : Int
  /-- The gap to the number below is half the gap to the number above. -/
  narrowBelow : Bool

/-- The number with these bits, sign apart. Infinities and NaN are no such number. -/
def Binary.ofBits (bits : UInt64) : Binary :=
  let exponent := ((bits >>> 52) &&& 0x7ff).toNat
  let fraction := (bits &&& 0xfffffffffffff).toNat
  if exponent = 0 then ⟨fraction, -1074, false⟩
  else ⟨Nat.pow 2 52 + fraction, (exponent : Int) - 1075, fraction = 0 && exponent > 1⟩

/-- A decimal, `digits * 10 ^ exponent`. -/
structure Scaled where
  /-- The digits read as one number. -/
  digits : Nat
  /-- The exponent of ten. -/
  exponent : Int
  deriving DecidableEq

/-- Compares `a * 10 ^ i` with `n * 2 ^ j`. -/
def compareScaled (a : Nat) (i : Int) (n : Nat) (j : Int) : Ordering :=
  compare (a * Nat.pow 10 i.toNat * Nat.pow 2 (-j).toNat)
    (n * Nat.pow 2 j.toNat * Nat.pow 10 (-i).toNat)

namespace Binary

/-- **Whether `d` rounds to `x`:** it lies between the midpoints to the neighbours of `x`, ends
included when the significand is even. -/
def readsBack (x : Binary) (d : Scaled) : Bool :=
  let low := if x.narrowBelow then 4 * x.m - 1 else 4 * x.m - 2
  let high := 4 * x.m + 2
  let closed := x.m % 2 = 0
  let below := compareScaled d.digits d.exponent low (x.q - 2)
  let above := compareScaled d.digits d.exponent high (x.q - 2)
  (below = .gt || (closed && below = .eq)) && (above = .lt || (closed && above = .eq))

/-- The whole number of steps `10 ^ k` below `x`. -/
def floorScaled (x : Binary) (k : Int) : Nat :=
  (x.m * Nat.pow 2 x.q.toNat * Nat.pow 10 (-k).toNat) /
    (Nat.pow 10 k.toNat * Nat.pow 2 (-x.q).toNat)

/-- The least exponent `k` from `start` on, within `steps`, with `x < 10 ^ k`. -/
def scaleFrom (x : Binary) (start : Int) : (steps : Nat) → Int
  | 0 => start
  | steps + 1 =>
    if compareScaled 1 start x.m x.q = .gt then start else scaleFrom x (start + 1) steps

/-- The least exponent `k` with `x < 10 ^ k`. -/
def scale (x : Binary) : Int :=
  let estimate := ((Nat.log2 x.m : Int) + x.q) * 30103 / 100000 - 1
  scaleFrom x estimate 4

/-- The decimal on the grid of `10 ^ k` that stands for `x`, when one of the two neighbours of `x`
on that grid does; the nearer one when both do, and the even one when both are as near. -/
def onGrid? (x : Binary) (k : Int) : Option Scaled :=
  let below := x.floorScaled k
  let above := below + 1
  match x.readsBack ⟨below, k⟩, x.readsBack ⟨above, k⟩ with
  | false, false => none
  | true, false => some ⟨below, k⟩
  | false, true => some ⟨above, k⟩
  | true, true =>
    match compareScaled (below + above) k (2 * x.m) x.q with
    | .gt => some ⟨below, k⟩
    | .lt => some ⟨above, k⟩
    | .eq => some ⟨if below % 2 = 0 then below else above, k⟩

/-- The first hit on ever finer grids. -/
def search (x : Binary) (k : Int) : (grids : Nat) → Option Scaled
  | 0 => none
  | grids + 1 =>
    match x.onGrid? k with
    | some d => some d
    | none => search x (k - 1) grids

/-- The value of `x` itself as a decimal. -/
def exact (x : Binary) : Scaled :=
  if x.q < 0 then ⟨x.m * Nat.pow 5 (-x.q).toNat, x.q⟩ else ⟨x.m * Nat.pow 2 x.q.toNat, 0⟩

/-- **The shortest decimal that stands for `x`.** -/
def shortest (x : Binary) : Scaled :=
  if x.m = 0 then ⟨0, 0⟩ else (x.search (x.scale - 1) 17).getD x.exact

end Binary

/-- Leaves out up to `limit` zeros at the end of the digits. -/
def Scaled.trim (d : Scaled) : (limit : Nat) → Scaled
  | 0 => d
  | limit + 1 =>
    if d.digits ≠ 0 ∧ d.digits % 10 = 0 then Scaled.trim ⟨d.digits / 10, d.exponent + 1⟩ limit
    else d

/-! ## Layout -/

/-- `n` zeros. -/
def zeros (n : Nat) : String := String.ofList (List.replicate n '0')

/-- The digits with a point after the first `place` of them. -/
def withPoint (digits : String) (place : Nat) : String :=
  String.ofList (digits.toList.take place) ++ "." ++ String.ofList (digits.toList.drop place)

/-- **How a decimal is laid out.** The exponent of its first digit decides: from -5 to 15 the
number is written with a point and at least one digit on each side, and otherwise with a power of
ten whose sign is always shown for a large number. -/
def Scaled.text (d : Scaled) : String :=
  let digits := toString d.digits
  let count := digits.length
  let leading : Int := d.exponent + count - 1
  if d.digits = 0 then "0.0"
  else if -5 ≤ leading ∧ leading < 0 then "0." ++ zeros (-leading - 1).toNat ++ digits
  else if 0 ≤ leading ∧ leading < 16 then
    let place := (leading + 1).toNat
    if count ≤ place then digits ++ zeros (place - count) ++ ".0" else withPoint digits place
  else
    let head := if count = 1 then digits else withPoint digits 1
    let sign := if 0 ≤ leading then "+" else "-"
    head ++ "e" ++ sign ++ toString leading.natAbs

/-- **The text of a finite number.** -/
def text (x : Float) : String :=
  let bits := x.toBits
  let sign := if bits >>> 63 = 1 then "-" else ""
  sign ++ ((Binary.ofBits bits).shortest.trim 400).text

end RemoteLog.Decimal
