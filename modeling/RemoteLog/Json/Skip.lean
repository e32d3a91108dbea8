import RemoteLog.Json.Number

/-! # Skipping a value

A value that nobody wants is passed over: its form is checked, its content is not. The containers
that are still open are kept in a list, so that values may be nested to any depth.

* **`Bracket`** — a kind of container.
* **`skipFrom phase open s`** — passes over what is left of the value and of the open containers.
* **`skipValue s`** — the bytes behind one value. -/

namespace RemoteLog.Json

/-- A kind of container. -/
inductive Bracket where
  | list
  | object
  deriving DecidableEq

namespace Bracket

/-- The byte that closes the container. -/
def closing : Bracket → UInt8
  | list => 0x5d
  | object => 0x7d

/-- The text ends inside the container. -/
def ended : Bracket → Fault
  | list => .endInList
  | object => .endInObject

/-- Something else stands behind a value of the container. -/
def expectedComma : Bracket → Fault
  | list => .expectedCommaOrListEnd
  | object => .expectedCommaOrObjectEnd

end Bracket

/-- The byte that opens a list. -/
def openList : UInt8 := 0x5b

/-- The byte that opens an object. -/
def openObject : UInt8 := 0x7b

/-- The byte between two values. -/
def comma : UInt8 := 0x2c

/-- Takes the colon behind a key. -/
def expectColon (s : List UInt8) : Except Fault (List UInt8) :=
  match skipSpace s with
  | [] => .error .endInObject
  | b :: rest => if b = 0x3a then .ok rest else .error .expectedColon

theorem expectColon_length_lt {s r : List UInt8} (h : expectColon s = .ok r) :
    r.length < s.length := by
  unfold expectColon at h
  split at h
  · cases h
  · next hs =>
    split at h
    · cases h; exact length_lt_of_skipSpace hs
    · cases h

/-- Passes over a key and its colon. -/
def skipKey (s : List UInt8) : Except Fault (List UInt8) :=
  match skipSpace s with
  | [] => .error .endInObject
  | b :: rest =>
    if b = quote then
      match skipString rest with
      | .error e => .error e
      | .ok after => expectColon after
    else .error .keyNotString

theorem skipKey_length_lt {s r : List UInt8} (h : skipKey s = .ok r) : r.length < s.length := by
  unfold skipKey at h
  split at h
  · cases h
  · next hs =>
    split at h
    · split at h
      · cases h
      · next hk =>
        have h₁ := length_lt_of_skipSpace hs
        have h₂ := skipString_length_lt hk
        have h₃ := expectColon_length_lt h
        omega
    · cases h

/-- Passes over a value that is no container and starts with `b`. -/
def skipScalar (b : UInt8) (rest : List UInt8) : Except Fault (List UInt8) :=
  if b = 0x6e then expectLiteral restOfNull rest
  else if b = 0x74 then expectLiteral restOfTrue rest
  else if b = 0x66 then expectLiteral restOfFalse rest
  else if b = 0x2d then skipNumber rest
  else if isDigit b then skipNumber (b :: rest)
  else if b = quote then skipString rest
  else .error .expectedValue

theorem skipScalar_length_le {b : UInt8} {rest r : List UInt8} (h : skipScalar b rest = .ok r) :
    r.length ≤ rest.length := by
  unfold skipScalar at h
  split at h
  · exact expectLiteral_length_le h
  split at h
  · exact expectLiteral_length_le h
  split at h
  · exact expectLiteral_length_le h
  split at h
  · exact Nat.le_of_lt (skipNumber_length_lt h)
  split at h
  · exact Nat.le_of_lt_succ (skipNumber_length_lt h)
  split at h
  · exact Nat.le_of_lt (skipString_length_lt h)
  · cases h

/-- What comes next while a value is passed over. -/
inductive Phase where
  /-- A value. -/
  | value
  /-- A comma or the end of the innermost open container. -/
  | after

set_option linter.unusedVariables false in
/-- **Passes over the rest of a value,** given the containers that are still open, innermost
first. -/
def skipFrom (phase : Phase) (opened : List Bracket) (s : List UInt8) :
    Except Fault (List UInt8) :=
  match phase with
  | .value =>
    match hs : skipSpace s with
    | [] => .error .endInValue
    | b :: rest =>
      if b = openList then
        match hr : skipSpace rest with
        | [] => .error .endInList
        | c :: more =>
          if c = Bracket.list.closing then skipFrom .after opened more
          else skipFrom .value (.list :: opened) (c :: more)
      else if b = openObject then
        match hr : skipSpace rest with
        | [] => .error .endInObject
        | c :: more =>
          if c = Bracket.object.closing then skipFrom .after opened more
          else
            match hk : skipKey (c :: more) with
            | .error e => .error e
            | .ok r => skipFrom .value (.object :: opened) r
      else
        match hv : skipScalar b rest with
        | .error e => .error e
        | .ok r => skipFrom .after opened r
  | .after =>
    match opened with
    | [] => .ok s
    | top :: outer =>
      match hs : skipSpace s with
      | [] => .error top.ended
      | b :: rest =>
        if b = comma then
          match top with
          | .list => skipFrom .value (.list :: outer) rest
          | .object =>
            match hk : skipKey rest with
            | .error e => .error e
            | .ok r => skipFrom .value (.object :: outer) r
        else if b = top.closing then skipFrom .after outer rest
        else .error top.expectedComma
termination_by s.length
decreasing_by
  · have := length_lt_of_skipSpace hs
    have := length_lt_of_skipSpace hr
    omega
  · have h₁ := length_lt_of_skipSpace hs
    have h₂ := skipSpace_length_le rest
    rw [hr] at h₂
    omega
  · have := length_lt_of_skipSpace hs
    have := length_lt_of_skipSpace hr
    omega
  · have h₁ := length_lt_of_skipSpace hs
    have h₂ := skipSpace_length_le rest
    have h₃ := skipKey_length_lt hk
    rw [hr] at h₂
    omega
  · have := length_lt_of_skipSpace hs
    have := skipScalar_length_le hv
    omega
  · exact length_lt_of_skipSpace hs
  · have := length_lt_of_skipSpace hs
    have := skipKey_length_lt hk
    omega
  · exact length_lt_of_skipSpace hs

/-- **The bytes behind one value,** whatever it is. -/
def skipValue (s : List UInt8) : Except Fault (List UInt8) := skipFrom .value [] s

theorem skipFrom_length_le {phase : Phase} {opened : List Bracket} {s r : List UInt8}
    (h : skipFrom phase opened s = .ok r) : r.length ≤ s.length := by
  fun_induction skipFrom phase opened s <;>
    grind [→ length_lt_of_skipSpace, → skipKey_length_lt, → skipScalar_length_le,
      skipSpace_length_le]

theorem skipValue_length_le {s r : List UInt8} (h : skipValue s = .ok r) : r.length ≤ s.length :=
  skipFrom_length_le h

end RemoteLog.Json
