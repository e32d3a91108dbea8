import RemoteLog.BigEndian
import RemoteLog.Bytes
import RemoteLog.ProtocolError

/-! # Frames

A command travels as one frame: the magic byte, the version, the code of its kind, the tag in eight
bytes, the size of the body in four, and the body. Numbers are big-endian.

* **`Frame.encode c`** — the frame of a command whose body is not too large.
* **`Frame.read s i`** — the frame that starts at position `i` of a stream. Fields are checked one
  by one, and nothing behind the first bad field is consumed.
* **`Frame.readAll s`** — the commands of a whole stream, how it ends, and what is left unread. -/

namespace RemoteLog.Frame

/-- The first byte of every frame. -/
def magic : UInt8 := 0xbe

/-- The only version. -/
def version : UInt8 := 0

/-- The number of bytes before the body. -/
def headerSize : Nat := 15

/-- The bytes before a body of `size` bytes. -/
def header (kind : CommandKind) (tag : Int64) (size : Nat) : List UInt8 :=
  magic :: version :: kind.code ::
    (BigEndian.write 8 tag.toUInt64.toNat ++ BigEndian.write 4 size)

@[simp] theorem length_header (kind : CommandKind) (tag : Int64) (size : Nat) :
    (header kind tag size).length = headerSize := by
  simp [header, headerSize]

/-- **The frame of a command.** -/
def encode (c : Command) : Except ProtocolError ByteArray :=
  if c.body.size > maxBody then .error (.tooLarge c.body.size)
  else .ok ((header c.kind c.tag c.body.size).toByteArray ++ c.body)

/-- What stands at a position of a stream. -/
inductive Reading where
  /-- The stream ends before a frame starts. -/
  | ended
  /-- A whole frame, and the position behind it. -/
  | frame (command : Command) (next : Nat)
  /-- No frame, and the position behind the field that shows it. -/
  | failed (error : ProtocolError) (next : Nat)

/-- The number in the `width` bytes from position `i` on. -/
def field (s : ByteArray) (i width : Nat) : Nat :=
  BigEndian.read (Bytes.toList (s.extract i (i + width)))

/-- **The frame at position `i`.** -/
def read (s : ByteArray) (i : Nat) : Reading :=
  if _ : i < s.size then
    if s[i] ≠ magic then .failed (.badMagic s[i]) (i + 1)
    else if _ : i + 1 < s.size then
      if s[i + 1] ≠ version then .failed (.badVersion s[i + 1]) (i + 2)
      else if _ : i + 2 < s.size then
        match CommandKind.ofCode? s[i + 2] with
        | none => .failed (.unknownCode s[i + 2]) (i + 3)
        | some kind =>
          if i + headerSize ≤ s.size then
            let tag := (UInt64.ofNat (field s (i + 3) 8)).toInt64
            let size := field s (i + 11) 4
            let start := i + headerSize
            if size > maxBody then .failed (.tooLarge size) start
            else if start + size ≤ s.size then
              .frame ⟨kind, tag, s.extract start (start + size)⟩ (start + size)
            else .failed (.stream .endInBlock) s.size
          else .failed (.stream .endInField) s.size
      else .failed (.stream .endInField) s.size
    else .failed (.stream .endInField) s.size
  else .ended

/-- A frame takes at least its header and ends within the stream. -/
theorem read_frame_bounds {s : ByteArray} {i next : Nat} {c : Command}
    (h : read s i = .frame c next) : i + headerSize ≤ next ∧ next ≤ s.size := by
  unfold read at h
  grind

/-- What a stream holds. -/
structure Transcript where
  /-- The commands before the end or the first error. -/
  commands : List Command
  /-- The error that ended the reading, if the stream did not end cleanly. -/
  error : Option ProtocolError
  /-- How many bytes were left when the reading stopped. -/
  unread : Nat

set_option linter.unusedVariables false in
/-- The transcript from position `i` on, behind the commands of `seen`, which are in reverse
order. -/
def readAllFrom (s : ByteArray) (i : Nat) (seen : List Command) : Transcript :=
  match h : read s i with
  | .ended => ⟨seen.reverse, none, s.size - i⟩
  | .failed error next => ⟨seen.reverse, some error, s.size - next⟩
  | .frame command next => readAllFrom s next (command :: seen)
termination_by s.size - i
decreasing_by
  have := read_frame_bounds h
  simp only [headerSize] at this
  omega

/-- One step of reading all frames. -/
theorem readAllFrom_eq (s : ByteArray) (i : Nat) (seen : List Command) :
    readAllFrom s i seen =
      match read s i with
      | .ended => ⟨seen.reverse, none, s.size - i⟩
      | .failed error next => ⟨seen.reverse, some error, s.size - next⟩
      | .frame command next => readAllFrom s next (command :: seen) := by
  rw [readAllFrom]
  split <;> simp only [*]

/-- **The transcript of a stream.** -/
def readAll (s : ByteArray) : Transcript := readAllFrom s 0 []

end RemoteLog.Frame
