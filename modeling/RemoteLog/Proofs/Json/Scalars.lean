import Mathlib.Data.List.Induction
import RemoteLog.Proofs.Json.Token
import RemoteLog.Proofs.Result

/-! # What scalars stand for

A reader of strings or of numbers takes one token off the front of a text. What the token stands for
does not depend on what follows it, and a token of another type is refused. A number is a word just if it
is written with its digits alone: without a sign, a point or an exponent, and without zeros in front.

* **`toOption_bind`** — results of readers, apart from their faults.
* **`textOf? body`**, **`readText_body`** — the text of a string.
* **`stringOf? token`**, **`wordOf? largest token`**, **`flagOf? token`** — what a scalar stands for;
  **`readString_scalar`**, **`readWord_scalar`**, **`readFlag_scalar`** — it is read. -/

namespace RemoteLog.Json

/-! ## Results -/

section

variable {ε α β : Type}

@[simp] theorem toOption_ok (a : α) : (Except.ok a : Except ε α).toOption = some a := rfl

@[simp] theorem toOption_error (e : ε) : (Except.error e : Except ε α).toOption = none := rfl

@[simp] theorem toOption_throw (e : ε) : (throw e : Except ε α).toOption = none := rfl

@[simp] theorem ok_bind (a : α) (next : α → Except ε β) : (Except.ok a >>= next) = next a := rfl

/-- A reading in two steps has a result if both steps have one. -/
theorem toOption_bind (first : Except ε α) (next : α → Except ε β) :
    (first >>= next).toOption = first.toOption.bind fun a => (next a).toOption := by
  cases first <;> rfl

theorem toOption_map (f : α → β) (result : Except ε α) :
    (result.map f).toOption = result.toOption.map f := by
  cases result <;> rfl

theorem toOption_eq_some_iff {result : Except ε α} {a : α} :
    result.toOption = some a ↔ result = .ok a := by
  cases result <;> simp

theorem toOption_eq_none_iff {result : Except ε α} :
    result.toOption = none ↔ ∃ e, result = .error e := by
  cases result <;> simp

end

/-! ## Strings -/

/-- **An escape by number** stands for nothing, for a character of its own, or for one together with the
escape behind it. Which of them it is does not depend on what follows the string. -/
theorem readNumericEscape_cases {a b c d : UInt8} {body : List UInt8} {n : Nat}
    (hn : ∀ rest, readHex (a :: b :: c :: d :: rest) = .ok n) (h : StringBody body) :
    (∀ rest, (readNumericEscape (a :: b :: c :: d :: (body ++ quote :: rest))).toOption = none) ∨
    (∃ bytes, ∀ rest,
      readNumericEscape (a :: b :: c :: d :: (body ++ quote :: rest)) = .ok (bytes, 5)) ∨
    ∃ bytes a' b' c' d' behind, body = backslash :: letterU :: a' :: b' :: c' :: d' :: behind ∧
      StringBody behind ∧ ∀ rest,
        readNumericEscape (a :: b :: c :: d :: (body ++ quote :: rest)) = .ok (bytes, 11) := by
  by_cases hsecond : isSecondSurrogate n = true
  · exact .inl fun rest => by simp [readNumericEscape, hn, hsecond, toOption_bind]
  by_cases hfirst : isFirstSurrogate n = true
  · -- The first half of a pair needs an escape of the second half behind it.
    cases h with
    | nil =>
      exact .inl fun rest => by
        simp [readNumericEscape, hn, hsecond, hfirst, toOption_bind, quote, backslash]
    | byte _ hbackslash =>
      exact .inl fun rest => by
        simp [readNumericEscape, hn, hsecond, hfirst, toOption_bind, hbackslash]
    | letter hletter =>
      exact .inl fun rest => by
        simp [readNumericEscape, hn, hsecond, hfirst, toOption_bind, hletter]
    | number ha' hb' hc' hd' hbehind =>
      obtain ⟨m, hm⟩ := exists_readHex ha' hb' hc' hd'
      by_cases hpair : isSecondSurrogate m = true
      · refine .inr (.inr ⟨utf8 (ofSurrogates n m), _, _, _, _, _, rfl, hbehind, fun rest => ?_⟩)
        simp [readNumericEscape, hn, hsecond, hfirst, hm, hpair, pure, Except.pure]
      · exact .inl fun rest => by
          simp [readNumericEscape, hn, hsecond, hfirst, hm, hpair, Functor.map, toOption_map]
  · refine .inr (.inl ⟨utf8 n, fun rest => ?_⟩)
    simp [readNumericEscape, hn, hsecond, hfirst, pure, Except.pure]

/-- One escape, then the rest of the string. -/
theorem readBytes_number (out : ByteArray) (s : List UInt8) :
    readBytes out (backslash :: letterU :: s) =
      match readNumericEscape s with
      | .error e => .error e
      | .ok (bytes, taken) => readBytes (out ++ bytes.toByteArray) ((letterU :: s).drop taken) := by
  rw [readBytes, if_neg (by decide), if_pos rfl]
  rfl

/-- **The bytes of a string** do not depend on what follows it. -/
theorem exists_readBytes_body {body : List UInt8} (h : StringBody body) (out : ByteArray) :
    ∃ result : Option ByteArray, ∀ rest,
      (readBytes out (body ++ quote :: rest)).toOption = result.map fun bytes => (bytes, rest) := by
  -- Two escapes may stand for one character, so the induction is on the length.
  induction hlength : body.length using Nat.strongRecOn generalizing body out with
  | ind length ih =>
    subst hlength
    cases h with
    | nil =>
      refine ⟨some out, fun rest => ?_⟩
      rw [List.nil_append, readBytes, if_pos rfl]
      rfl
    | @byte b body hquote hbackslash hcontrol hbody =>
      obtain ⟨result, hresult⟩ := ih body.length (by simp) hbody (out.push b) rfl
      refine ⟨result, fun rest => ?_⟩
      rw [List.cons_append, readBytes, if_neg hquote, if_neg hbackslash, if_neg hcontrol, hresult]
    | @letter letter b body hletter hescape hbody =>
      have hshort : body.length < (backslash :: letter :: body).length := by
        simp only [List.length_cons]
        omega
      obtain ⟨result, hresult⟩ := ih _ hshort hbody (out.push b) rfl
      refine ⟨result, fun rest => ?_⟩
      rw [List.cons_append, List.cons_append, readBytes_shortEscape hletter hescape, hresult]
    | @number a b c d body ha hb hc hd hbody =>
      obtain ⟨n, hn⟩ := exists_readHex ha hb hc hd
      simp only [List.cons_append, readBytes_number]
      obtain hnone | ⟨bytes, hone⟩ | ⟨bytes, a', b', c', d', behind, rfl, hbehind, hpair⟩ :=
        readNumericEscape_cases hn hbody
      · refine ⟨none, fun rest => ?_⟩
        obtain ⟨e, he⟩ := toOption_eq_none_iff.mp (hnone rest)
        rw [he]
        rfl
      · have hshort : body.length < (backslash :: letterU :: a :: b :: c :: d :: body).length := by
          simp only [List.length_cons]
          omega
        obtain ⟨result, hresult⟩ := ih _ hshort hbody (out ++ bytes.toByteArray) rfl
        refine ⟨result, fun rest => ?_⟩
        rw [hone]
        exact hresult rest
      · have hshort : behind.length < (backslash :: letterU :: a :: b :: c :: d :: backslash ::
            letterU :: a' :: b' :: c' :: d' :: behind).length := by
          simp only [List.length_cons]
          omega
        obtain ⟨result, hresult⟩ := ih _ hshort hbehind (out ++ bytes.toByteArray) rfl
        refine ⟨result, fun rest => ?_⟩
        rw [hpair]
        exact hresult rest

/-- **The text of a string,** by what stands between its quotes, if it is text at all. -/
def textOf? (body : List UInt8) : Option String :=
  (readText (body ++ [quote])).toOption.map (·.1)

/-- **A string is read** up to its closing quote. -/
theorem readText_body {body : List UInt8} (h : StringBody body) (rest : List UInt8) :
    (readText (body ++ quote :: rest)).toOption = (textOf? body).map fun text => (text, rest) := by
  obtain ⟨result, hresult⟩ := exists_readBytes_body h ByteArray.empty
  have htext (rest : List UInt8) : (readText (body ++ quote :: rest)).toOption =
      (result.bind String.fromUTF8?).map fun text => (text, rest) := by
    have hbytes := hresult rest
    unfold readText
    cases result with
    | none =>
      obtain ⟨e, he⟩ := toOption_eq_none_iff.mp hbytes
      rw [he]
      rfl
    | some bytes =>
      rw [toOption_eq_some_iff.mp hbytes]
      dsimp only [Option.bind_some]
      cases String.fromUTF8? bytes <;> rfl
  rw [textOf?, htext, htext]
  cases result.bind String.fromUTF8? <;> rfl

/-- A written text stands for itself. -/
theorem textOf?_escaped (text : String) :
    textOf? ((Bytes.toList text.toUTF8).flatMap escapeByte) = some text := by
  rw [textOf?, readText_escaped]
  rfl

/-- **The text that a scalar stands for.** -/
def stringOf? : List UInt8 → Option String
  | [] => none
  | b :: more => if b = quote then (readText more).toOption.map (·.1) else none

theorem stringOf?_string (body : List UInt8) :
    stringOf? (quote :: (body ++ [quote])) = textOf? body := by
  rw [stringOf?, if_pos rfl, textOf?]

/-- **A string is read** just if a scalar is one. -/
theorem readString_scalar {token rest : List UInt8} (h : Scalar token) (expected : String) :
    (readString expected (token ++ rest)).toOption =
      (stringOf? token).map fun text => (text, rest) := by
  have hother {b : UInt8} {more : List UInt8} (hspace : isSpace b = false) (hquote : b ≠ quote) :
      (readString expected (b :: more ++ rest)).toOption =
        (stringOf? (b :: more)).map fun text => (text, rest) := by
    rw [stringOf?, if_neg hquote, List.cons_append, readString, skipSpace_cons hspace]
    exact congrArg Except.toOption (if_neg hquote)
  cases h with
  | null => exact hother (by decide) (by decide)
  | flag value => cases value <;> exact hother (by decide) (by decide)
  | negative => exact hother (by decide) (by decide)
  | number h =>
    obtain ⟨b, more, rfl, hb⟩ := h.exists_digit
    exact hother (starts_of_isDigit hb).not_space (ne_of_isDigit hb (by decide))
  | @string body h =>
    rw [stringOf?_string, ← readText_body h, List.cons_append, List.append_assoc,
      List.singleton_append, readString, skipSpace_cons (by decide)]
    exact congrArg Except.toOption (if_pos rfl)

/-! ## Digits -/

/-- The number that digits stand for. -/
def digitsValue (digits : List UInt8) : Nat :=
  digits.foldl (fun n digit => n * 10 + digitValue digit) 0

theorem digitsValue_append_singleton (digits : List UInt8) (digit : UInt8) :
    digitsValue (digits ++ [digit]) = digitsValue digits * 10 + digitValue digit := by
  rw [digitsValue, List.foldl_append]
  rfl

theorem ofNat_digitValue {b : UInt8} (h : isDigit b = true) :
    UInt8.ofNat (48 + digitValue b) = b ∧ digitValue b < 10 := by
  have hbounds : 48 ≤ b.toNat ∧ b.toNat ≤ 57 := by
    simpa [isDigit, UInt8.le_iff_toNat_le] using h
  have hvalue : 48 + digitValue b = b.toNat := by
    unfold digitValue
    omega
  exact ⟨by rw [hvalue, UInt8.ofNat_toNat], by unfold digitValue; omega⟩

theorem digitsValue_writeNatural (n : Nat) : digitsValue (writeNatural n) = n := by
  induction n using Nat.strongRecOn with
  | ind n ih =>
    have hvalue := digitValue_ofNat (Nat.mod_lt n (show 0 < 10 by decide))
    rw [writeNatural_eq]
    by_cases hn : n < 10
    · rw [if_pos hn]
      show 0 * 10 + digitValue (UInt8.ofNat (48 + n % 10)) = n
      omega
    · rw [if_neg hn, digitsValue_append_singleton, ih (n / 10) (by omega)]
      omega

/-- Digits of which the first is not zero do not stand for zero. -/
theorem digitsValue_pos {b : UInt8} (hb : isDigit b = true) (hzero : b ≠ 0x30) (more : List UInt8) :
    0 < digitsValue (b :: more) := by
  induction more using List.reverseRecOn with
  | nil =>
    obtain ⟨hback, -⟩ := ofNat_digitValue hb
    show 0 < 0 * 10 + digitValue b
    rcases Nat.eq_zero_or_pos (digitValue b) with h | h
    · rw [h] at hback
      exact absurd hback.symm hzero
    · omega
  | append_singleton more digit ih =>
    rw [← List.cons_append, digitsValue_append_singleton]
    omega

/-- **Digits without zeros in front** are those of the number that they stand for. -/
theorem writeNatural_digitsValue {whole : List UInt8} (h : WholePart whole) :
    writeNatural (digitsValue whole) = whole := by
  cases h with
  | zero => decide +kernel
  | @digits b more hb hzero hmore =>
    induction more using List.reverseRecOn with
    | nil =>
      obtain ⟨hback, hlt⟩ := ofNat_digitValue hb
      have hvalue : digitsValue [b] = digitValue b := Nat.zero_add _
      rw [hvalue, writeNatural_eq, if_pos hlt, Nat.mod_eq_of_lt hlt, hback]
    | append_singleton more digit ih =>
      obtain ⟨hback, hlt⟩ := ofNat_digitValue (hmore digit (by simp))
      have hfront := ih fun c hc => hmore c (List.mem_append_left _ hc)
      have hpos := digitsValue_pos hb hzero more
      have hdiv : (digitsValue (b :: more) * 10 + digitValue digit) / 10 = digitsValue (b :: more) := by
        omega
      have hmod : (digitsValue (b :: more) * 10 + digitValue digit) % 10 = digitValue digit := by
        omega
      rw [← List.cons_append, digitsValue_append_singleton, writeNatural_eq, if_neg (by omega), hdiv,
        hmod, hback, hfront]

/-- Digits that all fit are added up. -/
theorem value_of_dropped_eq_zero {digits : List UInt8}
    (h : (digits.foldl Significand.addDigit ⟨0, 0⟩).dropped = 0) :
    (digits.foldl Significand.addDigit ⟨0, 0⟩).value = digitsValue digits := by
  induction digits using List.reverseRecOn with
  | nil => rfl
  | append_singleton digits digit ih =>
    rw [List.foldl_append, List.foldl_cons, List.foldl_nil, Significand.addDigit] at h ⊢
    split at h
    · cases h
    · next hfits =>
      have hdropped : (digits.foldl Significand.addDigit ⟨0, 0⟩).dropped = 0 :=
        Nat.le_zero.mp (Nat.le_of_not_lt (not_or.mp hfits).1)
      rw [if_neg hfits, digitsValue_append_singleton, ih hdropped]

/-! ## Numbers -/

/-- **The word that a scalar stands for:** a number up to `largest`, written with its digits. -/
def wordOf? (largest : Nat) (token : List UInt8) : Option Nat :=
  if digitsValue token ≤ largest ∧ token = writeNatural (digitsValue token) then
    some (digitsValue token)
  else none

theorem wordOf?_eq_some_iff {largest n : Nat} {token : List UInt8} :
    wordOf? largest token = some n ↔ n ≤ largest ∧ token = writeNatural n := by
  unfold wordOf?
  constructor
  · intro h
    split at h
    · next hword =>
      cases h
      exact hword
    · cases h
  · rintro ⟨hn, rfl⟩
    rw [digitsValue_writeNatural, if_pos ⟨hn, rfl⟩]

section

variable {positive : Bool} {significand : Nat} {start : Int} {whole : Significand}
  {s rest : List UInt8} {n : Nat}

/-- What has an exponent is no whole number. -/
theorem readExponent_ne_natural :
    readExponent positive significand start s ≠ .ok (.natural n, rest) := by
  intro h
  unfold readExponent at h
  simp only [bind, Except.bind, throw, throwThe, MonadExceptOf.throw, pure, Except.pure] at h
  repeat' split at h
  all_goals cases h

/-- What has a point is no whole number. -/
theorem readFraction_ne_natural :
    readFraction positive significand start s ≠ .ok (.natural n, rest) := by
  intro h
  unfold readFraction at h
  simp only [bind, Except.bind, throw, throwThe, MonadExceptOf.throw, pure, Except.pure] at h
  split at h
  · cases h
  · split at h
    · exact readExponent_ne_natural h
    · exact readExponent_ne_natural h
    · split at h <;> cases h

/-- A whole number is found behind no sign, if no digit was left out and neither a point nor an exponent
follows. -/
theorem of_readRest (h : readRest positive whole s = .ok (.natural n, rest)) :
    positive = true ∧ whole.dropped = 0 ∧ whole.value = n ∧
      ∀ more, s ≠ 0x2e :: more ∧ s ≠ 0x65 :: more ∧ s ≠ 0x45 :: more := by
  unfold readRest at h
  simp only [bind, Except.bind, pure, Except.pure] at h
  split at h
  · exact absurd h readFraction_ne_natural
  · exact absurd h readExponent_ne_natural
  · exact absurd h readExponent_ne_natural
  · next hpoint hsmall hlarge =>
    split at h
    · next hdropped =>
      unfold ofSignificand at h
      split at h
      · next hpositive =>
        cases h
        exact ⟨hpositive, hdropped, rfl, fun more => ⟨hpoint more, hsmall more, hlarge more⟩⟩
      · split at h <;> cases h
    · split at h <;> cases h

/-- The digits before the point are read first. -/
theorem readNumber_whole {digits tail : List UInt8} (hwhole : WholePart digits)
    (htail : EndsDigits tail) :
    readNumber positive (digits ++ tail) =
      readRest positive (digits.foldl Significand.addDigit ⟨0, 0⟩) tail := by
  cases hwhole with
  | zero =>
    have hdigit : ¬ tail.head?.any isDigit = true := by simpa [EndsDigits] using htail
    rw [List.singleton_append, readNumber, if_pos rfl, if_neg hdigit]
    rfl
  | @digits b more hb hzero hmore =>
    have hall : ∀ c ∈ b :: more, isDigit c = true := List.forall_mem_cons.mpr ⟨hb, hmore⟩
    obtain ⟨htake, hdrop⟩ := span_digits hall htail
    rw [List.cons_append] at htake hdrop
    rw [List.cons_append, readNumber, if_neg hzero, if_pos hb, htake, hdrop]

/-- **A whole number has been written with its digits.** -/
theorem eq_writeNatural_of_readNumber {token tail : List UInt8} (h : Unsigned token)
    (htail : EndsNumber tail) (hread : readNumber positive (token ++ tail) = .ok (.natural n, rest)) :
    positive = true ∧ token = writeNatural n := by
  obtain @⟨digits, fraction, exponent, hwhole, hfraction, hexponent⟩ := h
  rw [List.append_assoc, List.append_assoc,
    readNumber_whole hwhole (endsDigits_parts hfraction hexponent htail)] at hread
  obtain ⟨hpositive, hdropped, hvalue, hnone⟩ := of_readRest hread
  cases hfraction with
  | digits => exact absurd rfl (hnone _).1
  | none =>
    cases hexponent with
    | digits hletter =>
      obtain rfl | rfl := hletter
      · exact absurd rfl (hnone _).2.1
      · exact absurd rfl (hnone _).2.2
    | none =>
      refine ⟨hpositive, ?_⟩
      rw [List.append_nil, List.append_nil, ← hvalue, value_of_dropped_eq_zero hdropped,
        writeNatural_digitsValue hwhole]

end

/-- What the reader of words has found. -/
theorem of_readWord {largest n : Nat} {expected : String} {s rest : List UInt8}
    (h : readWord largest expected s = .ok (n, rest)) :
    ∃ b more, skipSpace s = b :: more ∧
      ((b = 0x2d ∧ readNumber false more = .ok (.natural n, rest)) ∨
        (isDigit b = true ∧ readNumber true (b :: more) = .ok (.natural n, rest))) ∧
      n ≤ largest := by
  have hfits {m : Nat} {behind : List UInt8} {fault : Fault}
      (h : (if m ≤ largest then .ok (m, behind) else .error fault) = Except.ok (n, rest)) :
      (m, behind) = (n, rest) ∧ n ≤ largest := by
    split at h
    · next hm =>
      cases h
      exact ⟨rfl, hm⟩
    · cases h
  unfold readWord at h
  cases hs : skipSpace s with
  | nil =>
    rw [hs] at h
    cases h
  | cons b more =>
    rw [hs] at h
    dsimp only at h
    refine ⟨b, more, rfl, ?_⟩
    split at h
    · next hminus =>
      obtain ⟨⟨number, behind⟩, hread, hcheck⟩ := exists_of_bind_eq_ok h
      cases number with
      | negative | fraction => cases hcheck
      | natural m =>
        obtain ⟨heq, hn⟩ := hfits hcheck
        cases heq
        exact ⟨.inl ⟨hminus, hread⟩, hn⟩
    · split at h
      · next hdigit =>
        obtain ⟨⟨number, behind⟩, hread, hcheck⟩ := exists_of_bind_eq_ok h
        cases number with
        | negative | fraction => cases hcheck
        | natural m =>
          obtain ⟨heq, hn⟩ := hfits hcheck
          cases heq
          exact ⟨.inr ⟨hdigit, hread⟩, hn⟩
      · cases h

/-- What the reader of words takes from a scalar is a word that the scalar stands for. -/
theorem wordOf?_of_readWord {token rest behind : List UInt8} (h : Scalar token)
    (hrest : EndsNumber rest) {largest n : Nat} {expected : String}
    (hread : readWord largest expected (token ++ rest) = .ok (n, behind)) :
    wordOf? largest token = some n := by
  obtain ⟨b, more, hskip, hnumber, hn⟩ := of_readWord hread
  obtain ⟨b', more', heq, hstarts, -⟩ := h.exists_starts
  rw [heq, List.cons_append, skipSpace_cons hstarts.not_space, ← List.cons_append, ← heq] at hskip
  have hother (hb : b' ≠ 0x2d) (hdigit : isDigit b' = false) : False := by
    rw [heq] at hskip
    cases hskip
    obtain ⟨hminus, -⟩ | ⟨hdigit', -⟩ := hnumber
    · exact hb hminus
    · rw [hdigit] at hdigit'
      cases hdigit'
  cases h with
  | null =>
    cases heq
    exact (hother (by decide) (by decide)).elim
  | flag value => cases value <;> (cases heq; exact (hother (by decide) (by decide)).elim)
  | string =>
    cases heq
    exact (hother (by decide) (by decide)).elim
  | negative h =>
    cases hskip
    obtain ⟨-, hread⟩ | ⟨hdigit, -⟩ := hnumber
    · exact absurd (eq_writeNatural_of_readNumber h hrest hread).1 (by decide)
    · cases hdigit
  | number h =>
    rw [← hskip] at hnumber
    obtain ⟨hminus, -⟩ | ⟨-, hread⟩ := hnumber
    · obtain ⟨c, tail, heq', hc⟩ := h.exists_digit
      rw [heq', List.cons_append] at hskip
      cases hskip
      exact absurd hminus (ne_of_isDigit hc (by decide))
    · exact wordOf?_eq_some_iff.mpr ⟨hn, (eq_writeNatural_of_readNumber h hrest hread).2⟩

/-- **A word is read** just if a scalar is one. -/
theorem readWord_scalar {token rest : List UInt8} (h : Scalar token) (hrest : EndsNumber rest)
    {largest : Nat} (hlargest : largest ≤ maxWord64) (expected : String) :
    (readWord largest expected (token ++ rest)).toOption =
      (wordOf? largest token).map fun n => (n, rest) := by
  cases hword : wordOf? largest token with
  | some n =>
    obtain ⟨hn, rfl⟩ := wordOf?_eq_some_iff.mp hword
    rw [readWord_writeNatural hn hlargest expected hrest]
    rfl
  | none =>
    cases hread : readWord largest expected (token ++ rest) with
    | error e => rfl
    | ok read =>
      rw [wordOf?_of_readWord h hrest hread] at hword
      cases hword

/-! ## Truth values -/

/-- **The truth value that a scalar stands for.** -/
def flagOf? (token : List UInt8) : Option Bool :=
  if token = spellFlag true then some true
  else if token = spellFlag false then some false
  else none

/-- **A truth value is read** just if a scalar is one. -/
theorem readFlag_scalar {token rest : List UInt8} (h : Scalar token) :
    (readFlag (token ++ rest)).toOption = (flagOf? token).map fun value => (value, rest) := by
  have hother {b : UInt8} {more : List UInt8} (hspace : isSpace b = false) (htrue : b ≠ 0x74)
      (hfalse : b ≠ 0x66) :
      (readFlag (b :: more ++ rest)).toOption =
        (flagOf? (b :: more)).map fun value => (value, rest) := by
    have hflag : flagOf? (b :: more) = none := by
      simp [flagOf?, spellFlag, htrue, hfalse]
    rw [hflag, List.cons_append, readFlag, skipSpace_cons hspace]
    simp only [if_neg htrue, if_neg hfalse]
    rfl
  cases h with
  | null => exact hother (by decide) (by decide) (by decide)
  | negative => exact hother (by decide) (by decide) (by decide)
  | string => exact hother (by decide) (by decide) (by decide)
  | number h =>
    obtain ⟨b, more, rfl, hb⟩ := h.exists_digit
    exact hother (starts_of_isDigit hb).not_space (ne_of_isDigit hb (by decide))
      (ne_of_isDigit hb (by decide))
  | flag value =>
    rw [readFlag_spellFlag]
    cases value <;> rfl

end RemoteLog.Json
