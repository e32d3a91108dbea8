import RemoteLog.Json.Lexeme

/-! # Numbers of a JSON text

A number without point and exponent that fits into 64 bits is an integer. Every other number is a
binary64 number: the digits that fit into 64 bits make up its significand, the remaining ones only
count, and the power of ten is applied in floating point.

* **`readNumber positive s`** — the number behind its sign.
* **`skipNumber s`** — the bytes behind a number that nobody reads.
* **`writeNatural n`** — the decimal digits of a natural number. -/

namespace RemoteLog.Json

/-- Whether a byte is a decimal digit. -/
def isDigit (b : UInt8) : Bool := 0x30 ≤ b && b ≤ 0x39

/-- The value of a decimal digit. -/
def digitValue (b : UInt8) : Nat := b.toNat - 48

/-- The largest natural number of 64 bits. -/
def maxWord64 : Nat := UInt64.size - 1

/-- The largest exponent that is added up. -/
def maxExponent : Nat := UInt32.size / 2 - 1

/-- What a number turned out to be. -/
inductive Number where
  | natural (n : Nat)
  /-- The negative of a positive number up to `2 ^ 63`. -/
  | negative (n : Nat)
  | fraction (x : Float)

/-- A number where something else was wanted. -/
def Number.found : Number → Found
  | natural n => .integer n
  | negative n => .integer (-n)
  | fraction x => .fraction x

/-! ## Floating point -/

/-- `10 ^ k` as a binary64 number. -/
def powerOfTen (k : Nat) : Float := Float.ofScientific 1 false k

/-- `x * 10 ^ exponent`, with a power of at most `10 ^ 308` at a time. A result beyond all numbers
is refused; one that is too small becomes zero. -/
def applyExponent (x : Float) (exponent : Int) : Except Fault Float :=
  if exponent.natAbs ≤ 308 then
    if 0 ≤ exponent then
      let y := x * powerOfTen exponent.natAbs
      if y.isInf then .error .numberOutOfRange else .ok y
    else .ok (x / powerOfTen exponent.natAbs)
  else if x == 0.0 then .ok x
  else if 0 ≤ exponent then .error .numberOutOfRange
  else applyExponent (x / powerOfTen 308) (exponent + 308)
termination_by (-exponent).toNat
decreasing_by omega

/-- The number with this sign, significand and power of ten. -/
def ofParts (positive : Bool) (significand : Nat) (exponent : Int) : Except Fault Float := do
  let x ← applyExponent significand.toUInt64.toFloat exponent
  return if positive then x else -x

/-! ## Digits -/

/-- The digits of a number so far: those that fit into 64 bits as one number, and how many more
there were. -/
structure Significand where
  /-- The digits that fit. -/
  value : Nat
  /-- The number of further digits. -/
  dropped : Nat

/-- One more digit before the point. -/
def Significand.addDigit (s : Significand) (digit : UInt8) : Significand :=
  if s.dropped > 0 ∨ s.value * 10 + digitValue digit > maxWord64 then
    ⟨s.value, s.dropped + 1⟩
  else ⟨s.value * 10 + digitValue digit, 0⟩

/-- The digits behind the point so far: the significand, how many digits it took, and whether one
has been left out. -/
structure Fraction where
  /-- The significand with the digits that fit. -/
  value : Nat
  /-- The number of digits it took. -/
  taken : Nat
  /-- Whether a digit did not fit. -/
  full : Bool

/-- One more digit behind the point. -/
def Fraction.addDigit (s : Fraction) (digit : UInt8) : Fraction :=
  if s.full ∨ s.value * 10 + digitValue digit > maxWord64 then { s with full := true }
  else ⟨s.value * 10 + digitValue digit, s.taken + 1, false⟩

/-- The value of the digits of an exponent, or anything larger than `maxExponent` if that is
exceeded. -/
def exponentValue (digits : List UInt8) : Nat :=
  digits.foldl (fun n d => min (n * 10 + digitValue d) (maxExponent + 1)) 0

/-- An exponent kept within 32 bits. -/
def clampExponent (n : Int) : Int := max (-(maxExponent + 1)) (min n maxExponent)

/-! ## Reading -/

/-- Drops the sign of an exponent. -/
def dropSign : List UInt8 → List UInt8
  | [] => []
  | b :: rest => if b = 0x2b ∨ b = 0x2d then rest else b :: rest

theorem dropSign_length_le (s : List UInt8) : (dropSign s).length ≤ s.length := by
  unfold dropSign
  split
  · exact Nat.le_refl _
  · split
    · exact Nat.le_succ _
    · exact Nat.le_refl _

/-- An exponent behind its letter. -/
def readExponent (positive : Bool) (significand : Nat) (start : Int) (s : List UInt8) :
    Except Fault (Number × List UInt8) := do
  let down := s.head? = some 0x2d
  let s := dropSign s
  let digits := s.takeWhile isDigit
  let rest := s.dropWhile isDigit
  if digits.isEmpty then
    throw (if s.isEmpty then .endInValue else .invalidNumber)
  let n := exponentValue digits
  if n > maxExponent then
    if significand ≠ 0 ∧ ¬down then throw .numberOutOfRange
    return (.fraction (if positive then 0.0 else -0.0), rest)
  let exponent := clampExponent (if down then start - n else start + n)
  return (.fraction (← ofParts positive significand exponent), rest)

/-- The digits behind a point, with an exponent if there is one. -/
def readFraction (positive : Bool) (significand : Nat) (start : Int) (s : List UInt8) :
    Except Fault (Number × List UInt8) := do
  let digits := s.takeWhile isDigit
  let rest := s.dropWhile isDigit
  if digits.isEmpty then
    throw (if s.isEmpty then .endInValue else .invalidNumber)
  let f := digits.foldl Fraction.addDigit ⟨significand, 0, false⟩
  let exponent := start - f.taken
  match rest with
  | 0x65 :: more | 0x45 :: more => readExponent positive f.value exponent more
  | _ => return (.fraction (← ofParts positive f.value exponent), rest)

/-- An integer of 64 bits, or the binary64 number that stands for it. There is no negative zero
among the integers. -/
def ofSignificand (positive : Bool) (significand : Nat) : Number :=
  if positive then .natural significand
  else if 0 < significand ∧ significand ≤ UInt64.size / 2 then .negative significand
  else .fraction (-significand.toUInt64.toFloat)

/-- What follows the digits before the point. -/
def readRest (positive : Bool) (whole : Significand) (s : List UInt8) :
    Except Fault (Number × List UInt8) := do
  match s with
  | 0x2e :: more => readFraction positive whole.value whole.dropped more
  | 0x65 :: more | 0x45 :: more => readExponent positive whole.value whole.dropped more
  | _ =>
    if whole.dropped = 0 then return (ofSignificand positive whole.value, s)
    return (.fraction (← ofParts positive whole.value whole.dropped), s)

/-- **A number behind its sign.** No digit may follow a zero at the front. -/
def readNumber (positive : Bool) (s : List UInt8) : Except Fault (Number × List UInt8) :=
  match s with
  | [] => .error .endInValue
  | b :: rest =>
    if b = 0x30 then
      if rest.head?.any isDigit then .error .invalidNumber
      else readRest positive ⟨0, 0⟩ rest
    else if isDigit b then
      readRest positive ((s.takeWhile isDigit).foldl Significand.addDigit ⟨0, 0⟩)
        (s.dropWhile isDigit)
    else .error .invalidNumber

/-! ## Skipping -/

/-- The bytes behind an exponent, from behind its letter. -/
def skipExponent (s : List UInt8) : Except Fault (List UInt8) :=
  if (dropSign s).head?.any isDigit then .ok ((dropSign s).dropWhile isDigit)
  else .error .invalidNumber

/-- The bytes behind a fraction, from behind its point. -/
def skipFraction (s : List UInt8) : Except Fault (List UInt8) :=
  if s.head?.any isDigit then
    match s.dropWhile isDigit with
    | 0x65 :: more | 0x45 :: more => skipExponent more
    | rest => .ok rest
  else .error .invalidNumber

/-- **The bytes behind a number,** from behind its sign. -/
def skipNumber (s : List UInt8) : Except Fault (List UInt8) :=
  match s with
  | [] => .error .invalidNumber
  | b :: rest =>
    if b = 0x30 ∧ rest.head?.any isDigit then .error .invalidNumber
    else if isDigit b then
      match if b = 0x30 then rest else rest.dropWhile isDigit with
      | 0x2e :: more => skipFraction more
      | 0x65 :: more | 0x45 :: more => skipExponent more
      | rest => .ok rest
    else .error .invalidNumber

theorem length_le_of_dropWhile {p : UInt8 → Bool} {s t : List UInt8} {b : UInt8}
    (h : s.dropWhile p = b :: t) : t.length ≤ s.length := by
  have := (List.dropWhile_suffix p (l := s)).length_le
  rw [h, List.length_cons] at this
  omega

theorem skipExponent_length_le {s r : List UInt8} (h : skipExponent s = .ok r) :
    r.length ≤ s.length := by
  unfold skipExponent at h
  split at h
  · cases h
    exact Nat.le_trans (List.dropWhile_suffix _).length_le (dropSign_length_le s)
  · cases h

theorem skipFraction_length_le {s r : List UInt8} (h : skipFraction s = .ok r) :
    r.length ≤ s.length := by
  unfold skipFraction at h
  split at h
  · split at h
    · next hd => exact Nat.le_trans (skipExponent_length_le h) (length_le_of_dropWhile hd)
    · next hd => exact Nat.le_trans (skipExponent_length_le h) (length_le_of_dropWhile hd)
    · cases h; exact (List.dropWhile_suffix _).length_le
  · cases h

theorem skipNumber_length_lt {s r : List UInt8} (h : skipNumber s = .ok r) :
    r.length < s.length := by
  unfold skipNumber at h
  split at h
  · cases h
  · next b rest =>
    have hrest : (if b = 0x30 then rest else rest.dropWhile isDigit).length ≤ rest.length := by
      split
      · exact Nat.le_refl _
      · exact (List.dropWhile_suffix _).length_le
    rw [List.length_cons]
    split at h
    · cases h
    · split at h
      · split at h
        · next hd =>
          rw [hd, List.length_cons] at hrest
          have := skipFraction_length_le h
          omega
        · next hd =>
          rw [hd, List.length_cons] at hrest
          have := skipExponent_length_le h
          omega
        · next hd =>
          rw [hd, List.length_cons] at hrest
          have := skipExponent_length_le h
          omega
        · cases h; omega
      · cases h

/-! ## Writing -/

/-- The decimal digits of `n` in front of `tail`. -/
def naturalBefore (n : Nat) (tail : List UInt8) : List UInt8 :=
  let digit := UInt8.ofNat (48 + n % 10)
  if n < 10 then digit :: tail else naturalBefore (n / 10) (digit :: tail)

/-- **The decimal digits of `n`,** without leading zeros. -/
def writeNatural (n : Nat) : List UInt8 := naturalBefore n []

end RemoteLog.Json
