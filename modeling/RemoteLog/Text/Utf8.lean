import RemoteLog.Bytes

/-! # Lossy decoding of UTF-8

A log may be cut in the middle of a character or hold bytes that are no text at all. Decoding never
fails: every well-formed sequence becomes its character, and every longest run of bytes that starts
a sequence but does not finish it becomes one U+FFFD.

* **`Utf8.first lead rest`** — the character at the front of `lead :: rest`, with the number of
  bytes of `rest` that belong to it.
* **`Utf8.decodeLossy bytes`** — the text. -/

namespace RemoteLog.Text.Utf8

/-- What stands for bytes that are no character. -/
def replacement : Char := '\uFFFD'

/-- Whether `b` may continue a sequence. -/
def isContinuation (b : UInt8) : Bool := 0x80 ≤ b && b ≤ 0xbf

/-- Whether `b` may follow `lead` at the start of a sequence of three: shorter spellings and
surrogates are excluded. -/
def isSecondOfThree (lead b : UInt8) : Bool :=
  if lead = 0xe0 then 0xa0 ≤ b && b ≤ 0xbf
  else if lead = 0xed then 0x80 ≤ b && b ≤ 0x9f
  else isContinuation b

/-- Whether `b` may follow `lead` at the start of a sequence of four: shorter spellings and values
past U+10FFFF are excluded. -/
def isSecondOfFour (lead b : UInt8) : Bool :=
  if lead = 0xf0 then 0x90 ≤ b && b ≤ 0xbf
  else if lead = 0xf4 then 0x80 ≤ b && b ≤ 0x8f
  else isContinuation b

/-- The six bits that a continuation byte carries. -/
def payload (b : UInt8) : Nat := b.toNat % 64

/-- **The character at the front of `lead :: rest`** and how many bytes of `rest` it takes. -/
def first (lead : UInt8) (rest : List UInt8) : Char × Nat :=
  if lead < 0x80 then (Char.ofNat lead.toNat, 0)
  else if 0xc2 ≤ lead && lead ≤ 0xdf then
    match rest with
    | b :: _ =>
      if isContinuation b then (Char.ofNat (lead.toNat % 32 * 64 + payload b), 1)
      else (replacement, 0)
    | [] => (replacement, 0)
  else if 0xe0 ≤ lead && lead ≤ 0xef then
    match rest with
    | b :: more =>
      if isSecondOfThree lead b then
        match more with
        | c :: _ =>
          if isContinuation c then
            (Char.ofNat ((lead.toNat % 16 * 64 + payload b) * 64 + payload c), 2)
          else (replacement, 1)
        | [] => (replacement, 1)
      else (replacement, 0)
    | [] => (replacement, 0)
  else if 0xf0 ≤ lead && lead ≤ 0xf4 then
    match rest with
    | b :: more =>
      if isSecondOfFour lead b then
        match more with
        | c :: last =>
          if isContinuation c then
            match last with
            | d :: _ =>
              if isContinuation d then
                (Char.ofNat
                  (((lead.toNat % 8 * 64 + payload b) * 64 + payload c) * 64 + payload d), 3)
              else (replacement, 2)
            | [] => (replacement, 2)
          else (replacement, 1)
        | [] => (replacement, 1)
      else (replacement, 0)
    | [] => (replacement, 0)
  else (replacement, 0)

/-- The text of `bytes` put behind `out`. -/
def decodeOnto (out : String) (bytes : List UInt8) : String :=
  match bytes with
  | [] => out
  | lead :: rest =>
    let front := first lead rest
    decodeOnto (out.push front.1) (rest.drop front.2)
termination_by bytes.length
decreasing_by simp only [List.length_drop, List.length_cons]; omega

/-- **The text of a byte sequence,** whatever the bytes. -/
def decodeLossy (bytes : ByteArray) : String := decodeOnto "" (Bytes.toList bytes)

@[simp] theorem decodeLossy_empty : decodeLossy ByteArray.empty = "" := by
  rw [decodeLossy, Bytes.toList_empty, decodeOnto]

end RemoteLog.Text.Utf8
