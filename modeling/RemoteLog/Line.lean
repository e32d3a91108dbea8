import RemoteLog.Bytes
import RemoteLog.SystemError
import RemoteLog.Text.Utf8

/-! # Lines of a log

A log is read while another process appends to it, so its last line may be cut anywhere. Bytes are
split at line feeds before they are decoded, and decoding never fails.

* **`ReadEvent`** — what a reader offers next; a script is a list of events.
* **`stripTerminator raw`** — a line without its line feed and one carriage return before it.
* **`rawLines script`** — the lines with their terminators, and the failures between them.
* **`lines script`** — the decoded lines and the failures.
* **`countLines script`** — the number of lines, or the first failure. -/

namespace RemoteLog

/-- What a reader offers next. -/
inductive ReadEvent where
  /-- Some bytes, perhaps none. -/
  | chunk (bytes : ByteArray)
  /-- An interruption, after which reading is tried again. -/
  | interrupted
  /-- A failure, after which reading may go on. -/
  | failure (cause : SystemError)

namespace Line

/-- A line feed. -/
def lineFeed : UInt8 := 0x0a

/-- A carriage return. -/
def carriageReturn : UInt8 := 0x0d

/-- Drops the last byte if it is `b`. -/
def dropLast (b : UInt8) (raw : ByteArray) : ByteArray :=
  if h : 0 < raw.size then
    if raw[raw.size - 1] = b then raw.extract 0 (raw.size - 1) else raw
  else raw

/-- **A line without its terminator:** the line feed, if there is one, and then one carriage
return. -/
def stripTerminator (raw : ByteArray) : ByteArray := dropLast carriageReturn (dropLast lineFeed raw)

/-- The text of a line. -/
def text (raw : ByteArray) : String := Text.Utf8.decodeLossy (stripTerminator raw)

/-! ## Splitting -/

/-- A line with its terminator, or the failure that stands in its place. -/
abbrev RawItem := Except SystemError ByteArray

/-- The lines so far: the bytes behind the last line feed, and the finished items in reverse
order. -/
structure Splitter where
  /-- The bytes of the line that is not finished. -/
  pending : ByteArray
  /-- The finished items, last one first. -/
  done : List RawItem

namespace Splitter

/-- Nothing read yet. -/
def start : Splitter := ⟨ByteArray.empty, []⟩

/-- Takes the bytes of a chunk from position `i` on; the line at hand goes on at `begin`. -/
def takeFrom (chunk : ByteArray) (i begin : Nat) (s : Splitter) : Splitter :=
  if h : i < chunk.size then
    if chunk[i] = lineFeed then
      takeFrom chunk (i + 1) (i + 1)
        ⟨ByteArray.empty, .ok (s.pending ++ chunk.extract begin (i + 1)) :: s.done⟩
    else takeFrom chunk (i + 1) begin s
  else ⟨s.pending ++ chunk.extract begin chunk.size, s.done⟩
termination_by chunk.size - i

/-- **Takes an event.** A failure drops the line at hand. -/
def take (s : Splitter) : ReadEvent → Splitter
  | .chunk bytes => takeFrom bytes 0 0 s
  | .interrupted => s
  | .failure cause => ⟨ByteArray.empty, .error cause :: s.done⟩

/-- The items once the script has ended; an unfinished line counts if it is not empty. -/
def finish (s : Splitter) : List RawItem :=
  if s.pending.isEmpty then s.done.reverse else (.ok s.pending :: s.done).reverse

end Splitter

/-- **The lines of a script with their terminators,** and the failures between them. -/
def rawLines (script : List ReadEvent) : List RawItem := (script.foldl Splitter.take .start).finish

/-- **The decoded lines of a script** and the failures between them. -/
def lines (script : List ReadEvent) : List (Except SystemError String) :=
  (rawLines script).map fun item => item.map text

/-- The values of items up to the first failure, behind those of `read` in reverse order. -/
def allOkFrom {α : Type} (read : List α) : List (Except SystemError α) → Except SystemError (List α)
  | [] => .ok read.reverse
  | .ok a :: rest => allOkFrom (a :: read) rest
  | .error cause :: _ => .error cause

/-- **The values of all items,** or the first failure. -/
def allOk {α : Type} (items : List (Except SystemError α)) : Except SystemError (List α) :=
  allOkFrom [] items

/-- **The number of lines of a script,** or its first failure. -/
def countLines (script : List ReadEvent) : Except SystemError Nat :=
  (allOk (rawLines script)).map List.length

/-- All bytes of a script, or its first failure. -/
def allBytes (script : List ReadEvent) : Except SystemError ByteArray :=
  script.foldlM (fun out event =>
    match event with
    | .chunk bytes => .ok (out ++ bytes)
    | .interrupted => .ok out
    | .failure cause => .error cause) ByteArray.empty

end Line

end RemoteLog
