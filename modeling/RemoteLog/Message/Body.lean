import RemoteLog.Message.Record
import RemoteLog.ProtocolError

/-! # Bodies

Every kind of command has one type of body, which is a record.

* **`Body α`** — the kind that `α` is the body of, and its fields.
* **`Body.toCommand a tag`** — the command with this body, unless the body is too large for a frame.
* **`Body.ofCommand c`** — the body of a command of the right kind. -/

namespace RemoteLog.Message

/-- **The body type of one kind of command:** its record has the declared fields, and its values
are just the values of these fields. -/
class Body (α : Type) where
  /-- The name of the record in messages. -/
  name : String
  /-- The kind of command. -/
  kind : CommandKind
  /-- The fields in declared order. -/
  fields : List Field
  /-- The values of the fields. -/
  toValues : α → Values fields
  /-- The body with given values. -/
  ofValues : Values fields → α
  ofValues_toValues : ∀ a, ofValues (toValues a) = a
  toValues_ofValues : ∀ v, toValues (ofValues v) = v

namespace Body

variable {α : Type} [Body α]

/-- The JSON text of a body. -/
def encode (a : α) : ByteArray := writeRecord (fields α) (toValues a)

/-- The body that a JSON text holds. -/
def decode (text : ByteArray) : Except Json.Fault α := do
  return ofValues (← Json.readWhole (readRecord (name α) (fields α)) (Bytes.toList text))

/-- **The command with this body.** -/
def toCommand (a : α) (tag : Int64) : Except ProtocolError Command :=
  let body := encode a
  if body.size > maxBody then .error (.tooLarge body.size) else .ok ⟨kind α, tag, body⟩

/-- **The body of a command.** Its kind is checked before its text is read. -/
def ofCommand (c : Command) : Except ProtocolError α :=
  if c.kind ≠ kind α then .error (.wrongKind (kind α) c.kind)
  else
    match decode c.body with
    | .ok a => .ok a
    | .error fault => .error (.badBody fault)

end Body

end RemoteLog.Message
