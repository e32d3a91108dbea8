import RemoteLog.Json.Skip

/-! # Values of a wanted type

Each reader takes the bytes that are left, drops blanks, and reads one value of the type it stands
for. Anything else is refused with a description of what stands there.

* **`refuse expected s`** — the fault of a value that is not the `expected` one.
* **`readString`**, **`readWord`**, **`readFlag`**, **`readStrings`**, **`readChoice`** — the readers.
* **`Next`**, **`nextItem`**, **`nextMember`** — the steps through a list and through an object.
* **`readWhole reader s`** — a text that holds one value and nothing else.
* **`writeString`** — the escaped text of a string. -/

namespace RemoteLog.Json

/-- The fault of a value at the front of `s` where `expected` was wanted. The value is read as far
as its description needs. -/
def refuse (expected : String) (s : List UInt8) : Fault :=
  match s with
  | [] => .expectedValue
  | b :: rest =>
    let literal (word : List UInt8) (found : Found) : Fault :=
      match expectLiteral word rest with
      | .error e => e
      | .ok _ => .wrongType found expected
    let number (positive : Bool) (digits : List UInt8) : Fault :=
      match readNumber positive digits with
      | .error e => e
      | .ok (n, _) => .wrongType n.found expected
    if b = 0x6e then literal restOfNull .null
    else if b = 0x74 then literal restOfTrue (.flag true)
    else if b = 0x66 then literal restOfFalse (.flag false)
    else if b = 0x2d then number false rest
    else if isDigit b then number true s
    else if b = quote then
      match readText rest with
      | .error e => e
      | .ok (text, _) => .wrongType (.text text) expected
    else if b = openList then .wrongType .list expected
    else if b = openObject then .wrongType .object expected
    else .expectedValue

/-! ## Scalars -/

/-- A string. -/
def readString (expected : String) (s : List UInt8) : Except Fault (String × List UInt8) :=
  match skipSpace s with
  | [] => .error .endInValue
  | b :: rest => if b = quote then readText rest else .error (refuse expected (b :: rest))

theorem readString_length_lt {expected : String} {s : List UInt8} {v : String} {r : List UInt8}
    (h : readString expected s = .ok (v, r)) : r.length < s.length := by
  unfold readString at h
  split at h
  · cases h
  · next hs =>
    split at h
    · exact Nat.lt_trans (readText_length_lt h) (length_lt_of_skipSpace hs)
    · cases h

/-- A natural number up to `largest`. -/
def readWord (largest : Nat) (expected : String) (s : List UInt8) :
    Except Fault (Nat × List UInt8) := do
  let check (read : Number × List UInt8) : Except Fault (Nat × List UInt8) :=
    match read with
    | (.natural n, rest) =>
      if n ≤ largest then .ok (n, rest) else .error (.wrongValue n expected)
    | (.negative n, _) => .error (.wrongValue (-n) expected)
    | (.fraction x, _) => .error (.wrongType (.fraction x) expected)
  match skipSpace s with
  | [] => throw .endInValue
  | b :: rest =>
    if b = 0x2d then check (← readNumber false rest)
    else if isDigit b then check (← readNumber true (b :: rest))
    else throw (refuse expected (b :: rest))

/-- A truth value. -/
def readFlag (s : List UInt8) : Except Fault (Bool × List UInt8) := do
  match skipSpace s with
  | [] => throw .endInValue
  | b :: rest =>
    if b = 0x74 then return (true, ← expectLiteral restOfTrue rest)
    else if b = 0x66 then return (false, ← expectLiteral restOfFalse rest)
    else throw (refuse "a boolean" (b :: rest))

/-- Nothing, which is all that a name without content carries. -/
def readNull (s : List UInt8) : Except Fault (List UInt8) :=
  match skipSpace s with
  | [] => .error .endInValue
  | b :: rest =>
    if b = 0x6e then expectLiteral restOfNull rest else .error (refuse "unit" (b :: rest))

/-! ## Steps through containers -/

/-- What comes next in a container. -/
inductive Next where
  /-- The container is closed; the bytes behind it. -/
  | closed (rest : List UInt8)
  /-- One more value; the bytes from where it starts. -/
  | more (rest : List UInt8)

/-- **The next value of a list,** from behind the bracket or the value before it. -/
def nextItem (isFirst : Bool) (s : List UInt8) : Except Fault Next :=
  match skipSpace s with
  | [] => .error .endInList
  | b :: rest =>
    if b = Bracket.list.closing then .ok (.closed rest)
    else if isFirst then .ok (.more (b :: rest))
    else if b = comma then
      match skipSpace rest with
      | [] => .error .endInValue
      | c :: after =>
        if c = Bracket.list.closing then .error .trailingComma else .ok (.more (c :: after))
    else .error .expectedCommaOrListEnd

theorem nextItem_length_le {isFirst : Bool} {s r : List UInt8}
    (h : nextItem isFirst s = .ok (.more r)) : r.length ≤ s.length := by
  unfold nextItem at h
  grind [→ length_lt_of_skipSpace, skipSpace_length_le]

/-- **The next member of an object:** the bytes from behind the opening quote of its key. -/
def nextMember (isFirst : Bool) (s : List UInt8) : Except Fault Next :=
  match skipSpace s with
  | [] => .error .endInObject
  | b :: rest =>
    if b = Bracket.object.closing then .ok (.closed rest)
    else if isFirst then
      if b = quote then .ok (.more rest) else .error .keyNotString
    else if b = comma then
      match skipSpace rest with
      | [] => .error .endInValue
      | c :: after =>
        if c = quote then .ok (.more after)
        else if c = Bracket.object.closing then .error .trailingComma
        else .error .keyNotString
    else .error .expectedCommaOrObjectEnd

theorem nextMember_length_lt {isFirst : Bool} {s r : List UInt8}
    (h : nextMember isFirst s = .ok (.more r)) : r.length < s.length := by
  unfold nextMember at h
  grind [→ length_lt_of_skipSpace, skipSpace_length_le]

/-! ## Choices -/

/-- One of the known names from behind its opening quote, with what it stands for. -/
def readName {α : Type} (known : List (String × α)) (s : List UInt8) :
    Except Fault (α × List UInt8) := do
  let (name, rest) ← readText s
  match known.find? (·.1 = name) with
  | some (_, value) => return (value, rest)
  | none => throw (.unknownName name (known.map (·.1)))

/-- **A choice among names:** the name as a string, or as the only key of an object whose value is
null. -/
def readChoice {α : Type} (known : List (String × α)) (s : List UInt8) :
    Except Fault (α × List UInt8) := do
  match skipSpace s with
  | [] => throw .endInValue
  | b :: rest =>
    if b = openObject then
      match ← nextMember true rest with
      | .closed _ => throw .expectedValue
      | .more rest =>
        let (value, rest) ← readName known rest
        let rest ← readNull (← expectColon rest)
        match skipSpace rest with
        | [] => throw .endInObject
        | c :: rest =>
          if c = Bracket.object.closing then return (value, rest) else throw .expectedValue
    else if b = quote then readName known rest
    else throw .expectedValue

/-! ## Lists -/

/-- The end of a list all of whose values have been read. -/
def closeList (s : List UInt8) : Except Fault (List UInt8) :=
  match skipSpace s with
  | [] => .error .endInList
  | b :: rest =>
    if b = Bracket.list.closing then .ok rest
    else if b = comma ∧ (skipSpace rest).head? = some Bracket.list.closing then
      .error .trailingComma
    else .error .trailingCharacters

set_option linter.unusedVariables false in
/-- The strings of a list behind those of `read`, which are in reverse order. -/
def readItems (read : List String) (isFirst : Bool) (s : List UInt8) :
    Except Fault (List String × List UInt8) :=
  match hn : nextItem isFirst s with
  | .error e => .error e
  | .ok (.closed rest) => .ok (read.reverse, rest)
  | .ok (.more rest) =>
    match hv : readString "a string" rest with
    | .error e => .error e
    | .ok (text, after) => readItems (text :: read) false after
termination_by s.length
decreasing_by
  have := nextItem_length_le hn
  have := readString_length_lt hv
  omega

/-- One step of reading the items of a list. -/
theorem readItems_eq (read : List String) (isFirst : Bool) (s : List UInt8) :
    readItems read isFirst s =
      match nextItem isFirst s with
      | .error e => .error e
      | .ok (.closed rest) => .ok (read.reverse, rest)
      | .ok (.more rest) =>
        match readString "a string" rest with
        | .error e => .error e
        | .ok (text, after) => readItems (text :: read) false after := by
  rw [readItems]
  split
  · simp only [*]
  · simp only [*]
  · next heq =>
    simp only [heq]
    split <;> simp only [*]

/-- **A list of strings.** -/
def readStrings (s : List UInt8) : Except Fault (List String × List UInt8) :=
  match skipSpace s with
  | [] => .error .endInValue
  | b :: rest =>
    if b = openList then readItems [] true rest else .error (refuse "a sequence" (b :: rest))

/-- **A value that takes up the whole text,** blanks behind it aside. -/
def readWhole {α : Type} (reader : List UInt8 → Except Fault (α × List UInt8)) (s : List UInt8) :
    Except Fault α := do
  let (value, rest) ← reader s
  if skipSpace rest = [] then return value else throw .trailingCharacters

/-! ## Writing -/

/-- The digit for a value below sixteen, in lower case. -/
def hexDigit (n : Nat) : UInt8 := UInt8.ofNat (if n < 10 then 48 + n else 87 + n)

/-- How one byte of a string is written. -/
def escapeByte (b : UInt8) : List UInt8 :=
  if b = quote then [backslash, quote]
  else if b = backslash then [backslash, backslash]
  else if b = 0x08 then [backslash, 0x62]
  else if b = 0x09 then [backslash, 0x74]
  else if b = 0x0a then [backslash, 0x6e]
  else if b = 0x0c then [backslash, 0x66]
  else if b = 0x0d then [backslash, 0x72]
  else if b < 0x20 then
    [backslash, letterU, 0x30, 0x30, hexDigit (b.toNat / 16), hexDigit (b.toNat % 16)]
  else [b]

/-- Appends bytes one by one. -/
def pushAll (out : ByteArray) (bytes : List UInt8) : ByteArray := bytes.foldl ByteArray.push out

@[simp] theorem toList_pushAll (out : ByteArray) (bytes : List UInt8) :
    Bytes.toList (pushAll out bytes) = Bytes.toList out ++ bytes := by
  induction bytes generalizing out with
  | nil => simp [pushAll]
  | cons b bytes ih =>
    rw [pushAll, List.foldl_cons, ← pushAll, ih, Bytes.toList_push, List.append_assoc]
    rfl

/-- **A string behind `out`,** between quotes and with its escapes. -/
def writeString (out : ByteArray) (text : String) : ByteArray :=
  (Bytes.fold (fun out b => pushAll out (escapeByte b)) (out.push quote) text.toUTF8).push quote

end RemoteLog.Json
