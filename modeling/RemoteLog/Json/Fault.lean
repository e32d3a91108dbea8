import RemoteLog.Base64
import RemoteLog.Decimal.Shortest
import RemoteLog.Text.Quoted

/-! # Why a JSON text is refused

A text is refused because it ends too early, because it breaks the grammar, or because it is good
JSON that does not have the wanted shape.

* **`Found`** — what stood where something else was wanted.
* **`Fault`** — the causes, with `Fault.category` and `Fault.message`. -/

namespace RemoteLog.Json

/-- What stood where something else was wanted. -/
inductive Found where
  | null
  | flag (b : Bool)
  /-- A number that is no fraction. -/
  | integer (n : Int)
  /-- A fraction, or a number too large for an integer. -/
  | fraction (x : Float)
  | text (s : String)
  | list
  | object

/-- How a message names what it found. -/
def Found.describe : Found → String
  | null => "null"
  | flag b => s!"boolean `{b}`"
  | integer n => s!"integer `{n}`"
  | fraction x => "floating point `" ++ Decimal.text x ++ "`"
  | text s => "string " ++ Text.Quoted.quote s
  | list => "sequence"
  | object => "map"

/-- The three ways in which a text can be refused. -/
inductive Category where
  /-- The text breaks the grammar. -/
  | grammar
  /-- The text is JSON of another shape. -/
  | shape
  /-- The text ends too early. -/
  | ended
  deriving DecidableEq

/-- Why a JSON text is refused. -/
inductive Fault where
  /-- The text ends inside a list. -/
  | endInList
  /-- The text ends inside an object. -/
  | endInObject
  /-- The text ends inside a string. -/
  | endInString
  /-- The text ends where a value has to come. -/
  | endInValue
  | expectedColon
  | expectedCommaOrListEnd
  | expectedCommaOrObjectEnd
  /-- A literal is misspelt. -/
  | expectedLiteral
  | expectedValue
  | invalidEscape
  | invalidNumber
  /-- A number is larger than every floating-point number. -/
  | numberOutOfRange
  /-- The bytes of a string are no UTF-8. -/
  | invalidCodePoint
  | controlCharacter
  | keyNotString
  | loneSurrogate
  /-- A first surrogate is followed by no second one. -/
  | endOfHexEscape
  | trailingComma
  | trailingCharacters
  /-- A value of another type stands here. -/
  | wrongType (found : Found) (expected : String)
  /-- A number does not fit. -/
  | wrongValue (found : Int) (expected : String)
  /-- A list of fields is too short. -/
  | wrongLength (length : Nat) (expected : String)
  /-- A name is none of the known ones. -/
  | unknownName (name : String) (known : List String)
  | missingField (name : String)
  | duplicateField (name : String)
  /-- The text of a byte field is no Base64. -/
  | badBytes (fault : Base64.Fault)

namespace Fault

/-- Which of the three ways it is. -/
def category : Fault → Category
  | endInList | endInObject | endInString | endInValue => .ended
  | wrongType .. | wrongValue .. | wrongLength .. | unknownName .. => .shape
  | missingField _ | duplicateField _ | badBytes _ => .shape
  | _ => .grammar

/-- The known names, each between backticks. -/
def quotedNames (known : List String) : String :=
  ", ".intercalate (known.map fun name => "`" ++ name ++ "`")

/-- The text of a fault. -/
def message : Fault → String
  | endInList => "EOF while parsing a list"
  | endInObject => "EOF while parsing an object"
  | endInString => "EOF while parsing a string"
  | endInValue => "EOF while parsing a value"
  | expectedColon => "expected `:`"
  | expectedCommaOrListEnd => "expected `,` or `]`"
  | expectedCommaOrObjectEnd => "expected `,` or `\x7d`"
  | expectedLiteral => "expected ident"
  | expectedValue => "expected value"
  | invalidEscape => "invalid escape"
  | invalidNumber => "invalid number"
  | numberOutOfRange => "number out of range"
  | invalidCodePoint => "invalid unicode code point"
  | controlCharacter => "control character (\\u0000-\\u001F) found while parsing a string"
  | keyNotString => "key must be a string"
  | loneSurrogate => "lone leading surrogate in hex escape"
  | endOfHexEscape => "unexpected end of hex escape"
  | trailingComma => "trailing comma"
  | trailingCharacters => "trailing characters"
  | wrongType found expected => "invalid type: " ++ found.describe ++ ", expected " ++ expected
  | wrongValue found expected => s!"invalid value: integer `{found}`, expected {expected}"
  | wrongLength length expected => s!"invalid length {length}, expected {expected}"
  | unknownName name known =>
    "unknown variant `" ++ name ++ "`, expected one of " ++ quotedNames known
  | missingField name => "missing field `" ++ name ++ "`"
  | duplicateField name => "duplicate field `" ++ name ++ "`"
  | badBytes fault => fault.message

end Fault

end RemoteLog.Json
