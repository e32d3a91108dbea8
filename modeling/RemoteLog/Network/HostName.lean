import RemoteLog.BigEndian
import RemoteLog.Decimal.Count
import RemoteLog.Network.Address

/-! # Host names

Where a host is wanted, a text may write its address out or name it. A written address has up to four
parts, the last of which fills all octets that are left, or eight groups with a zone behind a percent
sign. A name consists of labels with dots between them.

* **`HostAddress.ofText? interface? text`** — the address that a text writes.
* **`isHostName text`** — whether a text has the form of a name. -/

namespace RemoteLog.Network

/-! ## Octets -/

/-- A part of an address stays below 32 bits. -/
def partRule (radix : Nat) : NumberRule := ⟨radix, UInt32.size, none, true⟩

/-- Reads one part: hexadecimal behind `0x`, octal behind another zero, decimal otherwise. -/
def readPart : List Char → Option (Nat × List Char)
  | '0' :: 'x' :: text => readNumber (partRule 16) text
  | '0' :: 'X' :: text => readNumber (partRule 16) text
  | '0' :: text => readNumber (partRule 8) ('0' :: text)
  | text => readNumber (partRule 10) text

/-- Reads parts into `room` octets: one octet for each part but the last, which fills the rest. -/
def readParts : (room : Nat) → List Char → Option (List Nat)
  | 0, _ => none
  | room + 1, text =>
    match readPart text with
    | none => none
    | some (part, []) =>
      if part < Nat.pow 256 (room + 1) then some ((BigEndian.write (room + 1) part).map UInt8.toNat)
      else none
    | some (part, mark :: rest) =>
      if mark = '.' ∧ part < 256 then (readParts room rest).map (part :: ·) else none

/-- Parts fill the room that they are given. -/
theorem length_of_readParts {room : Nat} {text : List Char} {octets : List Nat}
    (h : readParts room text = some octets) : octets.length = room := by
  induction room generalizing text octets with
  | zero => simp [readParts] at h
  | succ room ih =>
    unfold readParts at h
    split at h
    · cases h
    · split at h
      · cases h; simp
      · cases h
    · split at h
      · obtain ⟨more, hmore, rfl⟩ := Option.map_eq_some_iff.mp h
        rw [List.length_cons, ih hmore]
      · cases h

/-! ## Groups with a zone -/

/-- Whether an address is valid on one link only. -/
def isLinkLocal (groups : List Nat) : Bool := groups.head?.any fun g => g / 64 = 0xfe80 / 64

/-- Whether an address stands for many hosts at once. -/
def isMulticast (groups : List Nat) : Bool := groups.head?.any fun g => g / 256 = 0xff

/-- Whether an address stands for many hosts on one link. -/
def isLinkMulticast (groups : List Nat) : Bool :=
  isMulticast groups && groups.head?.any fun g => g % 16 = 2

/-- The zone that a text names: an interface, if the address is valid on one link only, or a
number. -/
def zoneOf? (interface? : String → Option Nat) (groups : List Nat) (zone : List Char) : Option Nat :=
  let named :=
    if isLinkLocal groups || isLinkMulticast groups then interface? (String.ofList zone) else none
  named <|> (Decimal.digits? zone).filter fun n => n < UInt32.size

/-- Reads eight groups and a zone. -/
def readGroupsAndZone (interface? : String → Option Nat) (text : List Char) : Option HostAddress :=
  match readEightGroups (text.takeWhile (· ≠ '%')), text.dropWhile (· ≠ '%') with
  | some (groups, []), [] => some (.six groups 0)
  | some (groups, []), _ :: zone => (zoneOf? interface? groups zone).map (.six groups)
  | _, _ => none

/-- **The address that a text writes;** `interface?` numbers the interfaces of the host. -/
def HostAddress.ofText? (interface? : String → Option Nat) (text : String) : Option HostAddress :=
  (readParts 4 text.toList).map .four <|> readGroupsAndZone interface? text.toList

/-! ## Names -/

/-- The character with the code that three decimal digits write. -/
def ofCode? (a b c : Char) : Option Char :=
  match Decimal.digits? [a, b, c] with
  | some code => if code < 256 then some (Char.ofNat code) else none
  | none => none

/-- The labels of a name, from behind a label that has been read in reverse up to here. A backslash
takes a special meaning from the character behind it, or three digits for the character of that
code. -/
def labelsFrom? (label : List Char) : List Char → Option (List (List Char))
  | [] => some (if label.isEmpty then [] else [label.reverse])
  | c :: rest =>
    if c = '\\' then
      match rest with
      | [] => none
      | a :: more =>
        if a.isDigit then
          match more with
          | b :: d :: after => (ofCode? a b d).bind fun e => labelsFrom? (e :: label) after
          | _ => none
        else labelsFrom? (a :: label) more
    else if c = '.' then
      if label.isEmpty then none else (labelsFrom? [] rest).map (label.reverse :: ·)
    else labelsFrom? (c :: label) rest

/-- **The labels of a name.** A dot may stand at the end, and a lone dot is the root. -/
def labels? (text : List Char) : Option (List (List Char)) :=
  if text = ['.'] then some [] else labelsFrom? [] text

/-- The longest label. -/
def labelLimit : Nat := 63

/-- The most bytes that labels may take, each with one byte more, and one for the root. -/
def nameLimit : Nat := 255

/-- Whether a label may hold a character. -/
def isLabelChar (c : Char) : Bool := c.isAlphanum || c = '-' || c = '_'

/-- **Whether a text has the form of a host name:** labels of letters, digits, hyphens and
underscores, not too long, the first of which does not start with a hyphen. -/
def isHostName (text : String) : Bool :=
  !text.isEmpty && text.toList.all (fun c => '!' ≤ c && c ≤ '~') &&
    match labels? text.toList with
    | none => false
    | some labels =>
      labels.all (fun label => label.length ≤ labelLimit && label.all isLabelChar) &&
        (labels.foldl (fun n label => n + label.length + 1) 1 ≤ nameLimit) &&
        !(labels.head?.any fun label => label.head? = some '-')

end RemoteLog.Network
