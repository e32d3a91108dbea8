import RemoteLog.Json.Fault

/-! # Blanks, literals and strings of a JSON text

A reader takes the bytes that are left and gives back its value with the bytes behind it.

* **`skipSpace s`** — drops blanks.
* **`expectLiteral word s`** — takes the rest of `null`, `true` or `false`.
* **`readBytes out s`** — takes a string up to its closing quote and undoes its escapes.
* **`readText s`** — the same, as text.
* **`skipString s`** — the end of a string that nobody reads: escapes are checked for their form
  only, and the bytes may be any. -/

namespace RemoteLog.Json

/-- A quotation mark. -/
def quote : UInt8 := 0x22

/-- A backslash. -/
def backslash : UInt8 := 0x5c

/-- The letter that starts an escape by number. -/
def letterU : UInt8 := 0x75

/-- Whether a byte separates tokens: a space, a line feed, a tabulator or a carriage return. -/
def isSpace (b : UInt8) : Bool := b = 0x20 || b = 0x0a || b = 0x09 || b = 0x0d

/-- Drops the blanks at the front. -/
def skipSpace (s : List UInt8) : List UInt8 := s.dropWhile isSpace

theorem skipSpace_length_le (s : List UInt8) : (skipSpace s).length ≤ s.length :=
  (List.dropWhile_suffix _).length_le

theorem length_lt_of_skipSpace {s : List UInt8} {b : UInt8} {rest : List UInt8}
    (h : skipSpace s = b :: rest) : rest.length < s.length := by
  have := skipSpace_length_le s
  rw [h, List.length_cons] at this
  omega

/-- Takes the letters of `word` one by one. -/
def expectLiteral : (word s : List UInt8) → Except Fault (List UInt8)
  | [], s => .ok s
  | _ :: _, [] => .error .endInValue
  | w :: word, b :: s => if b = w then expectLiteral word s else .error .expectedLiteral

theorem expectLiteral_length_le {word s r : List UInt8} (h : expectLiteral word s = .ok r) :
    r.length ≤ s.length := by
  fun_induction expectLiteral word s with
  | case1 s => cases h; exact Nat.le_refl _
  | case2 => cases h
  | case3 word b s ih => exact Nat.le_trans (ih h) (Nat.le_succ _)
  | case4 => cases h

/-- The letters of `null` behind the first. -/
def restOfNull : List UInt8 := [0x75, 0x6c, 0x6c]

/-- The letters of `true` behind the first. -/
def restOfTrue : List UInt8 := [0x72, 0x75, 0x65]

/-- The letters of `false` behind the first. -/
def restOfFalse : List UInt8 := [0x61, 0x6c, 0x73, 0x65]

/-! ## Escapes -/

/-- The byte that a letter stands for behind a backslash. -/
def shortEscape? (letter : UInt8) : Option UInt8 :=
  if letter = quote ∨ letter = backslash ∨ letter = 0x2f then some letter
  else if letter = 0x62 then some 0x08
  else if letter = 0x66 then some 0x0c
  else if letter = 0x6e then some 0x0a
  else if letter = 0x72 then some 0x0d
  else if letter = 0x74 then some 0x09
  else none

/-- The value of a hexadecimal digit of either case. -/
def hexDigit? (b : UInt8) : Option Nat :=
  if 0x30 ≤ b && b ≤ 0x39 then some (b.toNat - 48)
  else if 0x41 ≤ b && b ≤ 0x46 then some (b.toNat - 55)
  else if 0x61 ≤ b && b ≤ 0x66 then some (b.toNat - 87)
  else none

/-- The number that four hexadecimal digits at the front spell. -/
def readHex : List UInt8 → Except Fault Nat
  | a :: b :: c :: d :: _ =>
    match hexDigit? a, hexDigit? b, hexDigit? c, hexDigit? d with
    | some w, some x, some y, some z => .ok (((w * 16 + x) * 16 + y) * 16 + z)
    | _, _, _, _ => .error .invalidEscape
  | _ => .error .endInString

/-- Whether `n` is the first half of a pair that stands for one character. -/
def isFirstSurrogate (n : Nat) : Bool := 0xd800 ≤ n && n ≤ 0xdbff

/-- Whether `n` is the second half of such a pair. -/
def isSecondSurrogate (n : Nat) : Bool := 0xdc00 ≤ n && n ≤ 0xdfff

/-- The code point of a pair. -/
def ofSurrogates (n m : Nat) : Nat := 0x10000 + (n - 0xd800) * 0x400 + (m - 0xdc00)

/-- The UTF-8 bytes of a code point. -/
def utf8 (n : Nat) : List UInt8 := String.utf8EncodeChar (Char.ofNat n)

/-- An escape by number behind its letter: the bytes it stands for, and the number of bytes it
takes with its letter. A character beyond U+FFFF is written as two escapes. -/
def readNumericEscape (s : List UInt8) : Except Fault (List UInt8 × Nat) := do
  let n ← readHex s
  if isSecondSurrogate n then throw .loneSurrogate
  if !isFirstSurrogate n then return (utf8 n, 5)
  match s.drop 4 with
  | [] => throw .endInString
  | b :: after =>
    if b ≠ backslash then throw .endOfHexEscape
    match after with
    | [] => throw .endInString
    | u :: more =>
      if u ≠ letterU then throw .endOfHexEscape
      let m ← readHex more
      if !isSecondSurrogate m then throw .loneSurrogate
      return (utf8 (ofSurrogates n m), 11)

/-- An escape behind its backslash: the bytes it stands for, and the number of bytes it takes. -/
def readEscape : List UInt8 → Except Fault (List UInt8 × Nat)
  | [] => .error .endInString
  | letter :: rest =>
    if letter = letterU then readNumericEscape rest
    else
      match shortEscape? letter with
      | some b => .ok ([b], 1)
      | none => .error .invalidEscape

/-! ## Strings -/

/-- **A string behind its opening quote.** Its bytes are put behind `out`; controls must be
escaped. -/
def readBytes (out : ByteArray) (s : List UInt8) : Except Fault (ByteArray × List UInt8) :=
  match s with
  | [] => .error .endInString
  | b :: rest =>
    if b = quote then .ok (out, rest)
    else if b = backslash then
      match readEscape rest with
      | .error e => .error e
      | .ok (bytes, taken) => readBytes (out ++ bytes.toByteArray) (rest.drop taken)
    else if b < 0x20 then .error .controlCharacter
    else readBytes (out.push b) rest
termination_by s.length
decreasing_by
  all_goals simp only [List.length_drop, List.length_cons]
  all_goals omega

theorem readBytes_length_lt {out : ByteArray} {s : List UInt8} {v : ByteArray} {r : List UInt8}
    (h : readBytes out s = .ok (v, r)) : r.length < s.length := by
  fun_induction readBytes out s with
  | case1 => cases h
  | case2 out rest => cases h; exact Nat.lt_succ_self _
  | case3 => cases h
  | case4 out rest _ bytes taken _ ih =>
    have := ih h
    rw [List.length_drop] at this
    rw [List.length_cons]
    omega
  | case5 => cases h
  | case6 out b rest _ _ _ ih => exact Nat.lt_succ_of_lt (ih h)

/-- **A string behind its opening quote, as text.** -/
def readText (s : List UInt8) : Except Fault (String × List UInt8) :=
  match readBytes ByteArray.empty s with
  | .error e => .error e
  | .ok (bytes, rest) =>
    match String.fromUTF8? bytes with
    | some text => .ok (text, rest)
    | none => .error .invalidCodePoint

theorem readText_length_lt {s : List UInt8} {v : String} {r : List UInt8}
    (h : readText s = .ok (v, r)) : r.length < s.length := by
  unfold readText at h
  split at h
  · cases h
  · next bytes rest hb =>
    split at h
    · cases h; exact readBytes_length_lt hb
    · cases h

/-- **The bytes behind a string that nobody reads.** -/
def skipString : List UInt8 → Except Fault (List UInt8)
  | [] => .error .endInString
  | b :: rest =>
    if b = quote then .ok rest
    else if b = backslash then
      match rest with
      | [] => .error .endInString
      | letter :: more =>
        if letter = letterU then
          match readHex more with
          | .error e => .error e
          | .ok _ =>
            match more with
            | _ :: _ :: _ :: _ :: after => skipString after
            | _ => .error .endInString
        else
          match shortEscape? letter with
          | some _ => skipString more
          | none => .error .invalidEscape
    else if b < 0x20 then .error .controlCharacter
    else skipString rest

theorem skipString_length_lt {s r : List UInt8} (h : skipString s = .ok r) :
    r.length < s.length := by
  fun_induction skipString s with
  | case1 | case3 | case4 | case6 | case8 | case9 => cases h
  | case2 => cases h; exact Nat.lt_succ_self _
  | case5 =>
    next ih =>
    have := ih h
    simp only [List.length_cons]
    omega
  | case7 =>
    next ih =>
    have := ih h
    simp only [List.length_cons]
    omega
  | case10 => next ih => exact Nat.lt_succ_of_lt (ih h)

end RemoteLog.Json
