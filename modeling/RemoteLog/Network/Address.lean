/-! # Socket addresses

The address of a listener is a host address and a port: four decimal octets, or eight groups of
hexadecimal digits in brackets, where `::` stands for groups of zeros and the last two groups may be
written as octets.

* **`HostAddress`**, **`SocketAddress`** — the addresses.
* **`SocketAddress.ofText? text`** — the address that a text writes, all of it. -/

namespace RemoteLog.Network

/-- The address of a host. -/
inductive HostAddress where
  /-- Four octets. -/
  | four (octets : List Nat)
  /-- Eight groups, and the zone that they are valid in. -/
  | six (groups : List Nat) (zone : Nat)
  deriving DecidableEq

/-- **The address of a listener.** -/
structure SocketAddress where
  host : HostAddress
  port : Nat
  deriving DecidableEq

/-! ## Numbers in addresses -/

/-- How one kind of number is written. -/
structure NumberRule where
  radix : Nat
  /-- The number is below this. -/
  bound : Nat
  /-- The most digits it may have. -/
  longest : Option Nat
  /-- Whether zeros may stand in front. -/
  leadingZeros : Bool

/-- An octet has at most three digits and no zero in front. -/
def octetRule : NumberRule := ⟨10, 256, some 3, false⟩

/-- A group has at most four hexadecimal digits. -/
def groupRule : NumberRule := ⟨16, 65536, some 4, true⟩

/-- A port. -/
def portRule : NumberRule := ⟨10, 65536, none, true⟩

/-- A zone. -/
def zoneRule : NumberRule := ⟨10, UInt32.size, none, true⟩

/-- The value of a digit; letters count in either case. -/
def digitValue? (radix : Nat) (c : Char) : Option Nat :=
  let v :=
    if '0' ≤ c && c ≤ '9' then c.toNat - '0'.toNat
    else if 'a' ≤ c && c ≤ 'f' then c.toNat - 'a'.toNat + 10
    else if 'A' ≤ c && c ≤ 'F' then c.toNat - 'A'.toNat + 10
    else radix
  if v < radix then some v else none

/-- Reads the longest run of digits, which has to follow the rule. A number that has reached the
bound only has to stay there. -/
def readNumber (rule : NumberRule) (text : List Char) : Option (Nat × List Char) :=
  let digits := text.takeWhile fun c => (digitValue? rule.radix c).isSome
  let add (n : Nat) (c : Char) := min rule.bound (rule.radix * n + (digitValue? rule.radix c).getD 0)
  let value := digits.foldl add 0
  let tooLong := match rule.longest with
    | some longest => longest < digits.length
    | none => false
  let zeroInFront := digits.head? = some '0' && 1 < digits.length
  if digits.isEmpty || tooLong || (zeroInFront && !rule.leadingZeros) || rule.bound ≤ value then none
  else some (value, text.drop digits.length)

/-- Drops one character, which has to be there. -/
def dropMark (mark : Char) : List Char → Option (List Char)
  | [] => none
  | c :: rest => if c = mark then some rest else none

/-! ## Host addresses -/

/-- Reads four octets with dots between them. -/
def readOctets (text : List Char) : Option (List Nat × List Char) := do
  let (a, text) ← readNumber octetRule text
  let text ← dropMark '.' text
  let (b, text) ← readNumber octetRule text
  let text ← dropMark '.' text
  let (c, text) ← readNumber octetRule text
  let text ← dropMark '.' text
  let (d, text) ← readNumber octetRule text
  return ([a, b, c, d], text)

/-- Drops the colon that stands in front of every group but the first. -/
def dropColon (isFirst : Bool) (text : List Char) : Option (List Char) :=
  if isFirst then some text else dropMark ':' text

/-- Two groups out of four octets. -/
def groupsOfOctets : List Nat → List Nat
  | [a, b, c, d] => [256 * a + b, 256 * c + d]
  | _ => []

/-- A run of groups. -/
structure GroupRun where
  groups : List Nat
  /-- Whether the last two were written as octets. -/
  endsInOctets : Bool
  rest : List Char

/-- Reads as many groups as there are, up to `most`. Octets end the run. -/
def readGroups (isFirst : Bool) (text : List Char) : (most : Nat) → GroupRun
  | 0 => ⟨[], false, text⟩
  | most + 1 =>
    match if most = 0 then none else dropColon isFirst text >>= readOctets with
    | some (octets, rest) => ⟨groupsOfOctets octets, true, rest⟩
    | none =>
      match dropColon isFirst text >>= readNumber groupRule with
      | some (group, rest) =>
        let run := readGroups false rest most
        { run with groups := group :: run.groups }
      | none => ⟨[], false, text⟩

/-- Reads eight groups. A `::` stands for at least one group of zeros, and no octets stand before
it. -/
def readEightGroups (text : List Char) : Option (List Nat × List Char) :=
  let front := readGroups true text 8
  if front.groups.length = 8 then some (front.groups, front.rest)
  else if front.endsInOctets then none
  else
    match front.rest with
    | ':' :: ':' :: rest =>
      let back := readGroups true rest (7 - front.groups.length)
      let zeros := 8 - front.groups.length - back.groups.length
      some (front.groups ++ List.replicate zeros 0 ++ back.groups, back.rest)
    | _ => none

/-- Reads a zone behind its percent sign; without one the zone is zero. -/
def readZone (text : List Char) : Nat × List Char :=
  match dropMark '%' text with
  | none => (0, text)
  | some rest =>
    match readNumber zoneRule rest with
    | none => (0, text)
    | some (zone, rest) => (zone, rest)

/-! ## Socket addresses -/

/-- Reads a port behind its colon. -/
def readPort (text : List Char) : Option (Nat × List Char) := do
  let text ← dropMark ':' text
  readNumber portRule text

/-- Reads octets and a port. -/
def readFour (text : List Char) : Option (SocketAddress × List Char) := do
  let (octets, text) ← readOctets text
  let (port, text) ← readPort text
  return (⟨.four octets, port⟩, text)

/-- Reads bracketed groups, perhaps with a zone, and a port. -/
def readSix (text : List Char) : Option (SocketAddress × List Char) := do
  let text ← dropMark '[' text
  let (groups, text) ← readEightGroups text
  let (zone, text) := readZone text
  let text ← dropMark ']' text
  let (port, text) ← readPort text
  return (⟨.six groups zone, port⟩, text)

/-- **The socket address that a text writes.** -/
def SocketAddress.ofText? (text : String) : Option SocketAddress :=
  match readFour text.toList <|> readSix text.toList with
  | some (address, []) => some address
  | _ => none

end RemoteLog.Network
