import RemoteLog.Json.Value

/-! # Values read back as they were written

For every kind of value there is the list of bytes that the writer puts behind its output, and the
reader takes just these bytes off the front of whatever follows.

* **`spell text`** — a string between quotes; **`readString_spell`** reads it.
* **`readWord_writeNatural`** — a number, if no more of a number follows.
* **`spellAll texts`** — the strings of a list; **`readStrings_spellAll`** reads them. -/

namespace RemoteLog.Json

/-! ## Blanks -/

/-- Nothing is skipped in front of a byte that is no blank. -/
theorem skipSpace_cons {b : UInt8} (h : isSpace b = false) (rest : List UInt8) :
    skipSpace (b :: rest) = b :: rest := by
  rw [skipSpace, List.dropWhile_cons_of_neg (by simp [h])]

/-! ## Strings -/

/-- **The bytes of a string,** between quotes and with its escapes. -/
def spell (text : String) : List UInt8 :=
  quote :: ((Bytes.toList text.toUTF8).flatMap escapeByte ++ [quote])

theorem toList_fold_escape (out : ByteArray) (bytes : List UInt8) :
    Bytes.toList (bytes.foldl (fun out b => pushAll out (escapeByte b)) out) =
      Bytes.toList out ++ bytes.flatMap escapeByte := by
  induction bytes generalizing out with
  | nil => simp
  | cons b bytes ih =>
    rw [List.foldl_cons, ih, toList_pushAll, List.flatMap_cons, List.append_assoc]

/-- **The bytes of the string are written.** -/
@[simp] theorem toList_writeString (out : ByteArray) (text : String) :
    Bytes.toList (writeString out text) = Bytes.toList out ++ spell text := by
  rw [writeString, Bytes.toList_push, Bytes.fold_eq, toList_fold_escape, Bytes.toList_push, spell]
  simp

theorem fromUTF8?_toUTF8 (text : String) : String.fromUTF8? text.toUTF8 = some text :=
  dif_pos text.isValidUTF8

theorem hexDigit?_hexDigit {n : Nat} (h : n < 16) : hexDigit? (hexDigit n) = some n := by
  revert n
  decide

/-- A character of ASCII is one byte. -/
theorem utf8_ascii {b : UInt8} (h : b < 0x80) : utf8 b.toNat = [b] := by
  have htable : ∀ n < 128, utf8 n = [UInt8.ofNat n] := by decide +kernel
  rw [htable b.toNat h, UInt8.ofNat_toNat]

/-- A control character comes back from its number. -/
theorem readNumericEscape_control {b : UInt8} (h : b < 0x20) (s : List UInt8) :
    readNumericEscape (0x30 :: 0x30 :: hexDigit (b.toNat / 16) :: hexDigit (b.toNat % 16) :: s) =
      .ok ([b], 5) := by
  have hlt : b.toNat < 32 := h
  have hhigh := hexDigit?_hexDigit (show b.toNat / 16 < 16 by omega)
  have hlow := hexDigit?_hexDigit (show b.toNat % 16 < 16 by omega)
  have hzero : hexDigit? 0x30 = some 0 := by decide
  have hread : readHex (0x30 :: 0x30 :: hexDigit (b.toNat / 16) :: hexDigit (b.toNat % 16) :: s) =
      .ok b.toNat := by
    simp only [readHex, hzero, hhigh, hlow]
    congr 1
    omega
  have hutf8 : utf8 b.toNat = [b] := utf8_ascii (Nat.lt_trans hlt (by decide))
  have hfirst : isFirstSurrogate b.toNat = false := by
    simp [isFirstSurrogate]
    omega
  have hsecond : isSecondSurrogate b.toNat = false := by
    simp [isSecondSurrogate]
    omega
  simp [readNumericEscape, hread, hfirst, hsecond, hutf8, bind, Except.bind, pure, Except.pure]

/-- A byte comes back from an escape by letter. -/
theorem readBytes_shortEscape {letter b : UInt8} (hletter : letter ≠ letterU)
    (h : shortEscape? letter = some b) (out : ByteArray) (s : List UInt8) :
    readBytes out (backslash :: letter :: s) = readBytes (out.push b) s := by
  have hescape : readEscape (letter :: s) = .ok ([b], 1) := by simp [readEscape, hletter, h]
  have hpush : out ++ [b].toByteArray = out.push b := Bytes.eq_of_toList (by simp)
  rw [readBytes, if_neg (by decide), if_pos rfl]
  simp only [hescape, hpush, List.drop_one, List.tail_cons]

/-- A control character comes back from an escape by number. -/
theorem readBytes_control {b : UInt8} (h : b < 0x20) (out : ByteArray) (s : List UInt8) :
    readBytes out (backslash :: letterU :: 0x30 :: 0x30 :: hexDigit (b.toNat / 16) ::
      hexDigit (b.toNat % 16) :: s) = readBytes (out.push b) s := by
  have hpush : out ++ [b].toByteArray = out.push b := Bytes.eq_of_toList (by simp)
  rw [readBytes, if_neg (by decide), if_pos rfl]
  simp only [readEscape, if_true, readNumericEscape_control h, hpush]
  rfl

/-- **A byte comes back from its escape.** -/
theorem readBytes_escapeByte (out : ByteArray) (b : UInt8) (s : List UInt8) :
    readBytes out (escapeByte b ++ s) = readBytes (out.push b) s := by
  by_cases hshort : b = quote ∨ b = backslash ∨ b = 0x08 ∨ b = 0x09 ∨ b = 0x0a ∨ b = 0x0c ∨
      b = 0x0d
  · -- The seven bytes with a letter of their own.
    obtain rfl | rfl | rfl | rfl | rfl | rfl | rfl := hshort <;>
      exact readBytes_shortEscape (by decide) (by decide) out s
  · simp only [not_or] at hshort
    obtain ⟨hquote, hbackslash, h₁, h₂, h₃, h₄, h₅⟩ := hshort
    simp only [escapeByte, hquote, hbackslash, h₁, h₂, h₃, h₄, h₅, if_false]
    -- Other control characters have an escape by number; all other bytes stand for themselves.
    by_cases hcontrol : b < 0x20
    · rw [if_pos hcontrol]
      exact readBytes_control hcontrol out s
    · rw [if_neg hcontrol, List.singleton_append, readBytes, if_neg hquote, if_neg hbackslash,
        if_neg hcontrol]

/-- The bytes of a string come back, up to the closing quote. -/
theorem readBytes_escaped (out : ByteArray) (bytes rest : List UInt8) :
    readBytes out (bytes.flatMap escapeByte ++ quote :: rest) =
      .ok (out ++ bytes.toByteArray, rest) := by
  induction bytes generalizing out with
  | nil =>
    rw [List.flatMap_nil, List.nil_append, readBytes, if_pos rfl]
    exact congrArg (fun bytes => Except.ok (bytes, rest)) (Bytes.eq_of_toList (by simp))
  | cons b bytes ih =>
    rw [List.flatMap_cons, List.append_assoc, readBytes_escapeByte, ih]
    exact congrArg (fun bytes => Except.ok (bytes, rest)) (Bytes.eq_of_toList (by simp))

/-- **A text comes back from behind its opening quote.** -/
theorem readText_escaped (text : String) (rest : List UInt8) :
    readText ((Bytes.toList text.toUTF8).flatMap escapeByte ++ quote :: rest) =
      .ok (text, rest) := by
  have hbytes : ByteArray.empty ++ (Bytes.toList text.toUTF8).toByteArray = text.toUTF8 :=
    Bytes.eq_of_toList (by simp)
  rw [readText, readBytes_escaped, hbytes]
  simp only [fromUTF8?_toUTF8]

/-- **A string comes back.** -/
theorem readString_spell (expected text : String) (rest : List UInt8) :
    readString expected (spell text ++ rest) = .ok (text, rest) := by
  rw [spell, List.cons_append, List.append_assoc, readString, skipSpace_cons (by decide)]
  exact (if_pos rfl).trans (readText_escaped text rest)

/-- The text of bytes of ASCII. -/
theorem exists_text_of_ascii {bytes : List UInt8} (h : ∀ b ∈ bytes, b < 0x80) :
    ∃ text : String, Bytes.toList text.toUTF8 = bytes := by
  refine ⟨String.ofList (bytes.map fun b => Char.ofNat b.toNat), ?_⟩
  rw [String.toUTF8_eq_toByteArray, String.toByteArray_ofList]
  induction bytes with
  | nil => rfl
  | cons b bytes ih =>
    have hb : String.utf8EncodeChar (Char.ofNat b.toNat) = [b] :=
      utf8_ascii (h b (List.mem_cons_self ..))
    rw [List.map_cons, List.utf8Encode_cons, List.utf8Encode_singleton, hb, Bytes.toList_append,
      ih fun c hc => h c (List.mem_cons_of_mem _ hc)]
    simp

/-- Bytes that need no escape are written as they are. -/
theorem flatMap_escapeByte {bytes : List UInt8} (h : ∀ b ∈ bytes, 0x23 ≤ b ∧ b ≠ backslash) :
    bytes.flatMap escapeByte = bytes := by
  have htable : ∀ n < 256, 0x23 ≤ UInt8.ofNat n → UInt8.ofNat n ≠ backslash →
      escapeByte (UInt8.ofNat n) = [UInt8.ofNat n] := by decide +kernel
  induction bytes with
  | nil => rfl
  | cons b bytes ih =>
    obtain ⟨hlow, hbackslash⟩ := h b (List.mem_cons_self ..)
    have hb := htable b.toNat b.toNat_lt
    rw [UInt8.ofNat_toNat] at hb
    rw [List.flatMap_cons, hb hlow hbackslash, ih fun c hc => h c (List.mem_cons_of_mem _ hc)]
    rfl

/-- **Printable ASCII comes back as it stands,** if nothing in it needs an escape. -/
theorem readText_plain {bytes : List UInt8}
    (h : ∀ b ∈ bytes, 0x23 ≤ b ∧ b < 0x80 ∧ b ≠ backslash) :
    ∃ text : String, Bytes.toList text.toUTF8 = bytes ∧
      ∀ rest, readText (bytes ++ quote :: rest) = .ok (text, rest) := by
  obtain ⟨text, htext⟩ := exists_text_of_ascii fun b hb => (h b hb).2.1
  refine ⟨text, htext, fun rest => ?_⟩
  have hescape : bytes.flatMap escapeByte = bytes :=
    flatMap_escapeByte fun b hb => ⟨(h b hb).1, (h b hb).2.2⟩
  have hread := readText_escaped text rest
  rwa [htext, hescape] at hread

/-! ## Numbers -/

/-- What may stand behind a number: nothing that a number could go on with. -/
def EndsNumber (rest : List UInt8) : Prop :=
  ∀ b more, rest = b :: more → isDigit b = false ∧ b ≠ 0x2e ∧ b ≠ 0x65 ∧ b ≠ 0x45

/-- No digit comes next. -/
def EndsDigits (s : List UInt8) : Prop := s.head?.any isDigit = false

theorem EndsNumber.endsDigits {s : List UInt8} (h : EndsNumber s) : EndsDigits s := by
  cases s with
  | nil => rfl
  | cons b more => simpa [EndsDigits] using (h b more rfl).1

/-- A run of digits is found where no digit follows it. -/
theorem span_digits {digits rest : List UInt8} (hdigits : ∀ b ∈ digits, isDigit b = true)
    (hrest : EndsDigits rest) :
    (digits ++ rest).takeWhile isDigit = digits ∧ (digits ++ rest).dropWhile isDigit = rest := by
  rw [List.takeWhile_append_of_pos hdigits, List.dropWhile_append_of_pos hdigits]
  cases rest with
  | nil => exact ⟨List.append_nil _, rfl⟩
  | cons b more =>
    have hb : ¬ isDigit b = true := by simpa [EndsDigits] using hrest
    rw [List.takeWhile_cons_of_neg hb, List.dropWhile_cons_of_neg hb, List.append_nil]
    exact ⟨rfl, rfl⟩

theorem naturalBefore_eq (n : Nat) (tail : List UInt8) :
    naturalBefore n tail = writeNatural n ++ tail := by
  induction n using Nat.strongRecOn generalizing tail with
  | ind n ih =>
    have hstep (tail : List UInt8) : naturalBefore n tail =
        if n < 10 then UInt8.ofNat (48 + n % 10) :: tail
        else naturalBefore (n / 10) (UInt8.ofNat (48 + n % 10) :: tail) := by rw [naturalBefore]
    rw [writeNatural, hstep, hstep []]
    by_cases hn : n < 10
    · rw [if_pos hn, if_pos hn, List.singleton_append]
    · have hlt : n / 10 < n := by omega
      rw [if_neg hn, if_neg hn, ih _ hlt, ih _ hlt, List.append_assoc, List.singleton_append]

/-- The last digit stands behind the digits of the other places. -/
theorem writeNatural_eq (n : Nat) :
    writeNatural n =
      if n < 10 then [UInt8.ofNat (48 + n % 10)]
      else writeNatural (n / 10) ++ [UInt8.ofNat (48 + n % 10)] := by
  rw [writeNatural, naturalBefore]
  by_cases hn : n < 10
  · rw [if_pos hn, if_pos hn]
  · rw [if_neg hn, if_neg hn, naturalBefore_eq]

theorem isDigit_ofNat {n : Nat} (h : n < 10) : isDigit (UInt8.ofNat (48 + n)) = true := by
  revert n
  decide

theorem digitValue_ofNat {n : Nat} (h : n < 10) : digitValue (UInt8.ofNat (48 + n)) = n := by
  revert n
  decide

theorem isDigit_of_mem_writeNatural {n : Nat} {b : UInt8} (h : b ∈ writeNatural n) :
    isDigit b = true := by
  induction n using Nat.strongRecOn with
  | ind n ih =>
    have hdigit := isDigit_ofNat (Nat.mod_lt n (show 0 < 10 by decide))
    rw [writeNatural_eq] at h
    by_cases hn : n < 10
    · rw [if_pos hn, List.mem_singleton] at h
      rwa [h]
    · rw [if_neg hn, List.mem_append, List.mem_singleton] at h
      obtain h | rfl := h
      · exact ih (n / 10) (by omega) h
      · exact hdigit

/-- The first digit of a number that is not zero is not zero. -/
theorem exists_writeNatural_eq_cons {n : Nat} (h : 0 < n) :
    ∃ b more, writeNatural n = b :: more ∧ b ≠ 0x30 := by
  induction n using Nat.strongRecOn with
  | ind n ih =>
    rw [writeNatural_eq]
    by_cases hn : n < 10
    · rw [if_pos hn]
      refine ⟨_, [], rfl, ?_⟩
      have htable : ∀ k < 10, 0 < k → UInt8.ofNat (48 + k % 10) ≠ 0x30 := by decide
      exact htable n hn h
    · rw [if_neg hn]
      obtain ⟨b, more, heq, hb⟩ := ih (n / 10) (by omega) (by omega)
      exact ⟨b, _, by rw [heq, List.cons_append], hb⟩

theorem addDigit_of_le {m : Nat} {digit : UInt8} (h : m * 10 + digitValue digit ≤ maxWord64) :
    Significand.addDigit ⟨m, 0⟩ digit = ⟨m * 10 + digitValue digit, 0⟩ := by
  refine if_neg ?_
  rintro (hpos | hlarge)
  · exact absurd hpos (Nat.lt_irrefl 0)
  · exact absurd h (Nat.not_le_of_lt hlarge)

/-- The digits of a number that fits are added up. -/
theorem foldl_addDigit_writeNatural {n : Nat} (h : n ≤ maxWord64) :
    (writeNatural n).foldl Significand.addDigit ⟨0, 0⟩ = ⟨n, 0⟩ := by
  induction n using Nat.strongRecOn with
  | ind n ih =>
    have hvalue := digitValue_ofNat (Nat.mod_lt n (show 0 < 10 by decide))
    rw [writeNatural_eq]
    by_cases hn : n < 10
    · have hsum : 0 * 10 + digitValue (UInt8.ofNat (48 + n % 10)) = n := by omega
      rw [if_pos hn, List.foldl_cons, List.foldl_nil, addDigit_of_le (by rwa [hsum]), hsum]
    · have hsum : n / 10 * 10 + digitValue (UInt8.ofNat (48 + n % 10)) = n := by omega
      rw [if_neg hn, List.foldl_append, ih (n / 10) (by omega) (by omega), List.foldl_cons,
        List.foldl_nil, addDigit_of_le (by rwa [hsum]), hsum]

/-- A number that nothing follows is a whole number. -/
theorem readRest_of_endsNumber {n : Nat} {rest : List UInt8} (h : EndsNumber rest) :
    readRest true ⟨n, 0⟩ rest = .ok (.natural n, rest) := by
  unfold readRest
  split
  · exact absurd rfl (h _ _ rfl).2.1
  · exact absurd rfl (h _ _ rfl).2.2.1
  · exact absurd rfl (h _ _ rfl).2.2.2
  · rfl

/-- **A natural number comes back** if it fits into 64 bits. -/
theorem readNumber_writeNatural {n : Nat} {rest : List UInt8} (hn : n ≤ maxWord64)
    (h : EndsNumber rest) :
    readNumber true (writeNatural n ++ rest) = .ok (.natural n, rest) := by
  have hends : EndsDigits rest := h.endsDigits
  -- Zero is a case of its own: no other number may start with the digit.
  by_cases hzero : n = 0
  · have hdigit : ¬ rest.head?.any isDigit = true := by simpa [EndsDigits] using hends
    rw [hzero, writeNatural_eq, if_pos (by decide), List.singleton_append, readNumber,
      if_pos (by decide), if_neg hdigit]
    exact readRest_of_endsNumber h
  · obtain ⟨b, more, heq, hb⟩ := exists_writeNatural_eq_cons (Nat.pos_of_ne_zero hzero)
    have hdigits : ∀ c ∈ b :: more, isDigit c = true := fun c hc =>
      isDigit_of_mem_writeNatural (heq ▸ hc)
    obtain ⟨htake, hdrop⟩ := span_digits hdigits hends
    rw [List.cons_append] at htake hdrop
    rw [heq, List.cons_append, readNumber, if_neg hb, if_pos (hdigits b (List.mem_cons_self ..)),
      htake, hdrop, ← heq, foldl_addDigit_writeNatural hn]
    exact readRest_of_endsNumber h

/-- **A word comes back** if it is not too large. -/
theorem readWord_writeNatural {n largest : Nat} {rest : List UInt8} (hn : n ≤ largest)
    (hlargest : largest ≤ maxWord64) (expected : String) (h : EndsNumber rest) :
    readWord largest expected (writeNatural n ++ rest) = .ok (n, rest) := by
  have hread := readNumber_writeNatural (Nat.le_trans hn hlargest) h
  have hne : writeNatural n ≠ [] := by
    rw [writeNatural_eq]
    split <;> simp
  -- The first digit is neither a blank nor a sign.
  obtain ⟨b, more, heq⟩ := List.exists_cons_of_ne_nil hne
  have hdigit : isDigit b = true := isDigit_of_mem_writeNatural (n := n) (by simp [heq])
  have htable : ∀ k < 256, isDigit (UInt8.ofNat k) = true →
      isSpace (UInt8.ofNat k) = false ∧ UInt8.ofNat k ≠ 0x2d := by decide +kernel
  obtain ⟨hspace, hminus⟩ := htable b.toNat b.toNat_lt (by rwa [UInt8.ofNat_toNat])
  rw [UInt8.ofNat_toNat] at hspace hminus
  rw [heq, List.cons_append] at hread ⊢
  rw [readWord, skipSpace_cons hspace]
  simp [hminus, hdigit, hread, hn, bind, Except.bind]

/-! ## Truth values -/

theorem expectLiteral_append (word rest : List UInt8) :
    expectLiteral word (word ++ rest) = .ok rest := by
  induction word with
  | nil => rfl
  | cons b word ih => exact (if_pos rfl).trans ih

/-- **The bytes of a truth value.** -/
def spellFlag (value : Bool) : List UInt8 :=
  if value then 0x74 :: restOfTrue else 0x66 :: restOfFalse

/-- **A truth value comes back.** -/
theorem readFlag_spellFlag (value : Bool) (rest : List UInt8) :
    readFlag (spellFlag value ++ rest) = .ok (value, rest) := by
  cases value with
  | true =>
    have hliteral := expectLiteral_append restOfTrue rest
    simp [spellFlag, readFlag, skipSpace_cons (show isSpace 0x74 = false by decide), hliteral,
      bind, Except.bind, pure, Except.pure]
  | false =>
    have hliteral := expectLiteral_append restOfFalse rest
    simp [spellFlag, readFlag, skipSpace_cons (show isSpace 0x66 = false by decide), hliteral,
      bind, Except.bind, pure, Except.pure]

/-! ## Choices -/

/-- **A name comes back as what it stands for.** -/
theorem readChoice_spell {α : Type} {known : List (String × α)} {name : String} {entry : String × α}
    (h : known.find? (·.1 = name) = some entry) (rest : List UInt8) :
    readChoice known (spell name ++ rest) = .ok (entry.2, rest) := by
  have hname : readName known ((Bytes.toList name.toUTF8).flatMap escapeByte ++ quote :: rest) =
      .ok (entry.2, rest) := by
    simp only [readName, readText_escaped, h, bind, Except.bind, pure, Except.pure]
  rw [spell, List.cons_append, List.append_assoc, readChoice, skipSpace_cons (by decide)]
  exact (if_neg (by decide)).trans ((if_pos rfl).trans hname)

/-! ## Objects -/

/-- The bytes of a string behind its opening quote. -/
theorem spell_append (text : String) (rest : List UInt8) :
    spell text ++ rest =
      quote :: ((Bytes.toList text.toUTF8).flatMap escapeByte ++ quote :: rest) := by
  rw [spell, List.cons_append, List.append_assoc, List.singleton_append]

theorem nextMember_closing (isFirst : Bool) (rest : List UInt8) :
    nextMember isFirst (Bracket.object.closing :: rest) = .ok (.closed rest) := by
  rw [nextMember, skipSpace_cons (by decide)]
  exact if_pos rfl

/-- The first member of an object starts with its key. -/
theorem nextMember_first (rest : List UInt8) :
    nextMember true (quote :: rest) = .ok (.more rest) := by
  rw [nextMember, skipSpace_cons (by decide)]
  exact (if_neg (by decide)).trans ((if_pos rfl).trans (if_pos rfl))

/-- Every other member has a comma before it. -/
theorem nextMember_comma (rest : List UInt8) :
    nextMember false (comma :: quote :: rest) = .ok (.more rest) := by
  rw [nextMember, skipSpace_cons (by decide)]
  refine (if_neg (by decide)).trans ((if_neg (by decide)).trans ((if_pos rfl).trans ?_))
  rw [skipSpace_cons (by decide)]
  exact if_pos rfl

/-- The colon behind a key. -/
theorem expectColon_colon (rest : List UInt8) : expectColon (0x3a :: rest) = .ok rest := by
  rw [expectColon, skipSpace_cons (by decide)]
  exact if_pos rfl

/-! ## Lists -/

/-- The bytes of further strings of a list, each with the comma before it. -/
def spellMore (texts : List String) : List UInt8 := texts.flatMap fun text => comma :: spell text

/-- **The bytes of a list of strings.** -/
def spellAll : List String → List UInt8
  | [] => [openList, Bracket.list.closing]
  | text :: texts => openList :: (spell text ++ (spellMore texts ++ [Bracket.list.closing]))

theorem nextItem_closing (isFirst : Bool) (rest : List UInt8) :
    nextItem isFirst (Bracket.list.closing :: rest) = .ok (.closed rest) := by
  rw [nextItem, skipSpace_cons (by decide)]
  exact if_pos rfl

theorem nextItem_first (text : String) (rest : List UInt8) :
    nextItem true (spell text ++ rest) = .ok (.more (spell text ++ rest)) := by
  rw [spell, List.cons_append, nextItem, skipSpace_cons (by decide)]
  exact (if_neg (by decide)).trans (if_pos rfl)

theorem nextItem_comma (text : String) (rest : List UInt8) :
    nextItem false (comma :: (spell text ++ rest)) = .ok (.more (spell text ++ rest)) := by
  rw [spell, List.cons_append, nextItem, skipSpace_cons (by decide)]
  refine (if_neg (by decide)).trans ((if_neg (by decide)).trans ((if_pos rfl).trans ?_))
  rw [skipSpace_cons (by decide)]
  exact if_neg (by decide)

theorem readItems_closing (read : List String) (isFirst : Bool) (rest : List UInt8) :
    readItems read isFirst (Bracket.list.closing :: rest) = .ok (read.reverse, rest) := by
  rw [readItems_eq, nextItem_closing]

/-- A string is collected, and reading goes on behind it. -/
theorem readItems_of_more {isFirst : Bool} {s rest : List UInt8} {text : String}
    (h : nextItem isFirst s = .ok (.more (spell text ++ rest))) (read : List String) :
    readItems read isFirst s = readItems (text :: read) false rest := by
  rw [readItems_eq, h]
  simp only [readString_spell]

/-- The further strings of a list come back. -/
theorem readItems_spellMore (read texts : List String) (rest : List UInt8) :
    readItems read false (spellMore texts ++ Bracket.list.closing :: rest) =
      .ok (read.reverse ++ texts, rest) := by
  induction texts generalizing read with
  | nil => rw [List.append_nil]; exact readItems_closing read false rest
  | cons text texts ih =>
    rw [spellMore, List.flatMap_cons, List.cons_append, List.cons_append, List.append_assoc,
      ← spellMore, readItems_of_more (nextItem_comma text _), ih]
    simp

/-- **A list of strings comes back.** -/
theorem readStrings_spellAll (texts : List String) (rest : List UInt8) :
    readStrings (spellAll texts ++ rest) = .ok (texts, rest) := by
  have hopen (s : List UInt8) : readStrings (openList :: s) = readItems [] true s := by
    rw [readStrings, skipSpace_cons (by decide)]
    exact if_pos rfl
  cases texts with
  | nil =>
    rw [spellAll, List.cons_append, List.singleton_append, hopen, readItems_closing]
    rfl
  | cons text texts =>
    rw [spellAll, List.cons_append, List.append_assoc, List.append_assoc, List.singleton_append,
      hopen, readItems_of_more (nextItem_first text _), readItems_spellMore]
    rfl

end RemoteLog.Json
