import RemoteLog.Command
import RemoteLog.Json.Value
import RemoteLog.Message.WindowStatus

/-! # Records

A body is a record of named fields. It is written as an object with the fields in declared order,
and it is read from an object in any order, members with other names aside, or from the list of its
values in declared order.

* **`FieldType`** — what a field can hold, with its values, its reader and its writer.
* **`Values fields`** — the values of all fields.
* **`readRecord`**, **`writeRecord`** — from and to JSON. -/

namespace RemoteLog.Message

/-- What a field can hold. -/
inductive FieldType where
  /-- Text. -/
  | text
  /-- Raw bytes, which travel as Base64. -/
  | bytes
  /-- A natural number of 32 bits. -/
  | word32
  /-- A natural number of 64 bits. -/
  | word64
  /-- A truth value. -/
  | flag
  /-- How the reading of a window ended. -/
  | status
  /-- A list of texts. -/
  | texts
  deriving DecidableEq

namespace FieldType

/-- The values of a field. -/
abbrev Value : FieldType → Type
  | text => String
  | bytes => ByteArray
  | word32 => UInt32
  | word64 => UInt64
  | flag => Bool
  | status => WindowStatus
  | texts => List String

/-- Reads a value at the front of a JSON text. -/
def read : (type : FieldType) → List UInt8 → Except Json.Fault (type.Value × List UInt8)
  | text, s => Json.readString "a string" s
  | bytes, s => do
    let (symbols, rest) ← Json.readString "a string" s
    match Base64.decode (Bytes.toList symbols.toUTF8) with
    | .ok value => return (value, rest)
    | .error fault => throw (.badBytes fault)
  | word32, s => do
    let (n, rest) ← Json.readWord (UInt32.size - 1) "u32" s
    return (UInt32.ofNat n, rest)
  | word64, s => do
    let (n, rest) ← Json.readWord (UInt64.size - 1) "u64" s
    return (UInt64.ofNat n, rest)
  | flag, s => Json.readFlag s
  | status, s => Json.readChoice WindowStatus.names s
  | texts, s => Json.readStrings s

/-- Writes texts one by one, with a comma before all but the first. -/
def writeTexts (out : ByteArray) : List String → ByteArray
  | [] => out
  | item :: rest => writeTexts (Json.writeString (out.push Json.comma) item) rest

/-- Writes a value behind `out`. -/
def write : (type : FieldType) → ByteArray → type.Value → ByteArray
  | text, out, value => Json.writeString out value
  | bytes, out, value => (Base64.encodeOnto (out.push Json.quote) value).push Json.quote
  | word32, out, value => Json.pushAll out (Json.writeNatural value.toNat)
  | word64, out, value => Json.pushAll out (Json.writeNatural value.toNat)
  | flag, out, value =>
    if value then Json.pushAll (out.push 0x74) Json.restOfTrue
    else Json.pushAll (out.push 0x66) Json.restOfFalse
  | status, out, value => Json.writeString out value.name
  | texts, out, [] => (out.push Json.openList).push Json.Bracket.list.closing
  | texts, out, item :: rest =>
    (writeTexts (Json.writeString (out.push Json.openList) item) rest).push
      Json.Bracket.list.closing

end FieldType

/-- A named field. -/
structure Field where
  name : String
  type : FieldType
  deriving DecidableEq

/-- The values of fields, in declared order. -/
def Values : List Field → Type
  | [] => Unit
  | field :: fields => field.type.Value × Values fields

/-- The values read so far. -/
def Slots : List Field → Type
  | [] => Unit
  | field :: fields => Option field.type.Value × Slots fields

/-- No value yet. -/
def Slots.none : (fields : List Field) → Slots fields
  | [] => ()
  | _ :: fields => (Option.none, Slots.none fields)

/-- The values once all of them have been read; the first missing field is reported. -/
def Slots.toValues : (fields : List Field) → Slots fields → Except Json.Fault (Values fields)
  | [], () => .ok ()
  | field :: fields, (slot, slots) =>
    match slot with
    | .none => .error (.missingField field.name)
    | some value =>
      match slots.toValues fields with
      | .error e => .error e
      | .ok values => .ok (value, values)

/-! ## Reading -/

/-- **Reads the member `key` from behind its key.** A member of a field that has its value already
is refused before its value is looked at; a member of no field is passed over. -/
def readMember : (fields : List Field) → Slots fields → (key : String) → List UInt8 →
    Except Json.Fault (Slots fields × List UInt8)
  | [], (), _, s => do
    let rest ← Json.expectColon s
    return ((), ← Json.skipValue rest)
  | field :: fields, (slot, slots), key, s => do
    if field.name = key then
      if slot.isSome then throw (.duplicateField field.name)
      let (value, rest) ← field.type.read (← Json.expectColon s)
      return ((some value, slots), rest)
    else
      let (slots, rest) ← readMember fields slots key s
      return ((slot, slots), rest)

/-- The members of an object from behind its bracket, or from behind a member. Every member takes
at least one byte, so that a text of at most `fuel` bytes is read to its end. -/
def readMembers (fields : List Field) : (fuel : Nat) → Slots fields → (isFirst : Bool) →
    List UInt8 → Except Json.Fault (Slots fields × List UInt8)
  | 0, _, _, _ => .error .endInObject
  | fuel + 1, slots, isFirst, s => do
    match ← Json.nextMember isFirst s with
    | .closed rest => return (slots, rest)
    | .more rest =>
      let (key, rest) ← Json.readText rest
      let (slots, rest) ← readMember fields slots key rest
      readMembers fields fuel slots false rest

/-- The values of a list in declared order, from behind its bracket or from behind a value. -/
def readItems (expected : String) : (fields : List Field) → (done : Nat) → List UInt8 →
    Except Json.Fault (Values fields × List UInt8)
  | [], _, s => .ok ((), s)
  | field :: fields, done, s => do
    match ← Json.nextItem (done = 0) s with
    | .closed _ => throw (.wrongLength done expected)
    | .more rest =>
      let (value, rest) ← field.type.read rest
      let (values, rest) ← readItems expected fields (done + 1) rest
      return ((value, values), rest)

/-- What a list of the wrong length should have been. -/
def expectedItems (name : String) (count : Nat) : String :=
  "struct " ++ name ++ s!" with {count} element" ++ if count = 1 then "" else "s"

/-- **Reads a record** at the front of a JSON text. -/
def readRecord (name : String) (fields : List Field) (s : List UInt8) :
    Except Json.Fault (Values fields × List UInt8) := do
  match Json.skipSpace s with
  | [] => throw .endInValue
  | b :: rest =>
    if b = Json.openList then
      let (values, rest) ← readItems (expectedItems name fields.length) fields 0 rest
      return (values, ← Json.closeList rest)
    else if b = Json.openObject then
      let (slots, rest) ← readMembers fields rest.length (Slots.none fields) true rest
      return (← slots.toValues fields, rest)
    else throw (Json.refuse ("struct " ++ name) (b :: rest))

/-! ## Writing -/

/-- Writes the fields as members, with a comma before all but the first. -/
def writeMembers : (fields : List Field) → (isFirst : Bool) → ByteArray → Values fields → ByteArray
  | [], _, out, () => out
  | field :: fields, isFirst, out, (value, values) =>
    let out := if isFirst then out else out.push Json.comma
    let out := (Json.writeString out field.name).push 0x3a
    writeMembers fields false (field.type.write out value) values

/-- **Writes a record,** without blanks. -/
def writeRecord (fields : List Field) (values : Values fields) : ByteArray :=
  (writeMembers fields true (ByteArray.empty.push Json.openObject) values).push
    Json.Bracket.object.closing

end RemoteLog.Message
