import Mathlib.Data.List.TakeWhile
import RemoteLog.Proofs.Json.Spelling

/-! # JSON tokens

The grammar of blanks, strings, numbers and literals, apart from their readers. Each token tells where
it ends, if only a number is followed by nothing that it could go on with. A token that nobody wants is
passed over to just this place.

* **`Blank`**, **`StringBody`**, **`Unsigned`**, **`Scalar`** — the grammar.
* **`Starts`** — the bytes that a value can start with.
* **`skipString_body`**, **`skipNumber_unsigned`**, **`skipScalar_token`** — tokens are passed over. -/

namespace RemoteLog.Json

/-! ## Blanks -/

/-- **Blanks,** which may stand between tokens. -/
def Blank (s : List UInt8) : Prop := ∀ b ∈ s, isSpace b = true

theorem blank_nil : Blank [] := nofun

theorem blank_singleton {b : UInt8} (h : isSpace b = true) : Blank [b] := fun _ hb =>
  List.mem_singleton.mp hb ▸ h

theorem skipSpace_append {blanks : List UInt8} (h : Blank blanks) (s : List UInt8) :
    skipSpace (blanks ++ s) = skipSpace s := List.dropWhile_append_of_pos h

theorem skipSpace_eq_nil_iff {s : List UInt8} : skipSpace s = [] ↔ Blank s :=
  List.dropWhile_eq_nil_iff

/-! ## Strings -/

/-- Whether a byte is a hexadecimal digit. -/
def IsHexDigit (b : UInt8) : Prop := (hexDigit? b).isSome = true

/-- **What may stand between the quotes of a string.** The bytes need not be text, and the numbers
behind `u` need not be those of characters. -/
inductive StringBody : List UInt8 → Prop where
  | nil : StringBody []
  /-- A byte that stands for itself. -/
  | byte {b : UInt8} {body : List UInt8} (hquote : b ≠ quote) (hbackslash : b ≠ backslash)
      (hcontrol : ¬ b < 0x20) (hbody : StringBody body) : StringBody (b :: body)
  /-- An escape by letter. -/
  | letter {letter b : UInt8} {body : List UInt8} (hletter : letter ≠ letterU)
      (hescape : shortEscape? letter = some b) (hbody : StringBody body) :
      StringBody (backslash :: letter :: body)
  /-- An escape by number. -/
  | number {a b c d : UInt8} {body : List UInt8} (ha : IsHexDigit a) (hb : IsHexDigit b)
      (hc : IsHexDigit c) (hd : IsHexDigit d) (hbody : StringBody body) :
      StringBody (backslash :: letterU :: a :: b :: c :: d :: body)

/-- Four hexadecimal digits are a number, whatever follows. -/
theorem exists_readHex {a b c d : UInt8} (ha : IsHexDigit a) (hb : IsHexDigit b)
    (hc : IsHexDigit c) (hd : IsHexDigit d) :
    ∃ n, ∀ rest, readHex (a :: b :: c :: d :: rest) = .ok n := by
  obtain ⟨w, hw⟩ := Option.isSome_iff_exists.mp ha
  obtain ⟨x, hx⟩ := Option.isSome_iff_exists.mp hb
  obtain ⟨y, hy⟩ := Option.isSome_iff_exists.mp hc
  obtain ⟨z, hz⟩ := Option.isSome_iff_exists.mp hd
  exact ⟨((w * 16 + x) * 16 + y) * 16 + z, fun rest => by simp only [readHex, hw, hx, hy, hz]⟩

/-- **A string that nobody wants** ends at its closing quote. -/
theorem skipString_body {body : List UInt8} (h : StringBody body) (rest : List UInt8) :
    skipString (body ++ quote :: rest) = .ok rest := by
  induction h with
  | nil => rw [List.nil_append, skipString.eq_def]; exact if_pos rfl
  | byte hquote hbackslash hcontrol _ ih =>
    rw [List.cons_append, skipString.eq_def]
    simp only [if_neg hquote, if_neg hbackslash, if_neg hcontrol, ih]
  | letter hletter hescape _ ih =>
    rw [List.cons_append, List.cons_append, skipString.eq_def]
    refine (if_neg (by decide)).trans ((if_pos rfl).trans ?_)
    simp only [if_neg hletter, hescape, ih]
  | number ha hb hc hd _ ih =>
    obtain ⟨n, hn⟩ := exists_readHex ha hb hc hd
    simp only [List.cons_append]
    rw [skipString.eq_def]
    refine (if_neg (by decide)).trans ((if_pos rfl).trans ?_)
    simp only [if_true, hn, ih]

/-! ## Numbers -/

/-- A run of digits, at least one. -/
def Digits (s : List UInt8) : Prop := s ≠ [] ∧ ∀ b ∈ s, isDigit b = true

/-- What stands before the point: a zero alone, or digits of which the first is not zero. -/
inductive WholePart : List UInt8 → Prop where
  | zero : WholePart [0x30]
  | digits {b : UInt8} {more : List UInt8} (hb : isDigit b = true) (hzero : b ≠ 0x30)
      (hmore : ∀ c ∈ more, isDigit c = true) : WholePart (b :: more)

/-- A point with the digits behind it, or nothing. -/
inductive FractionPart : List UInt8 → Prop where
  | none : FractionPart []
  | digits {digits : List UInt8} (h : Digits digits) : FractionPart (0x2e :: digits)

/-- An exponent, or nothing. -/
inductive ExponentPart : List UInt8 → Prop where
  | none : ExponentPart []
  | digits {letter : UInt8} {sign digits : List UInt8} (hletter : letter = 0x65 ∨ letter = 0x45)
      (hsign : sign = [] ∨ sign = [0x2b] ∨ sign = [0x2d]) (h : Digits digits) :
      ExponentPart (letter :: (sign ++ digits))

/-- **A number without a sign.** -/
inductive Unsigned : List UInt8 → Prop where
  | mk {whole fraction exponent : List UInt8} (hwhole : WholePart whole)
      (hfraction : FractionPart fraction) (hexponent : ExponentPart exponent) :
      Unsigned (whole ++ (fraction ++ exponent))

/-- What stands behind the digits before the point starts with no digit. -/
theorem endsDigits_parts {fraction exponent rest : List UInt8} (hfraction : FractionPart fraction)
    (hexponent : ExponentPart exponent) (hrest : EndsNumber rest) :
    EndsDigits (fraction ++ (exponent ++ rest)) := by
  cases hfraction with
  | digits => rfl
  | none =>
    cases hexponent with
    | none => exact hrest.endsDigits
    | digits hletter => obtain rfl | rfl := hletter <;> rfl

/-- An exponent that nobody wants ends with its digits. -/
theorem skipExponent_digits {sign digits rest : List UInt8}
    (hsign : sign = [] ∨ sign = [0x2b] ∨ sign = [0x2d]) (hdigits : Digits digits)
    (hrest : EndsDigits rest) : skipExponent (sign ++ digits ++ rest) = .ok rest := by
  obtain ⟨hne, hall⟩ := hdigits
  obtain ⟨b, more, rfl⟩ := List.exists_cons_of_ne_nil hne
  have hb : isDigit b = true := hall b (List.mem_cons_self ..)
  have hdrop : dropSign (sign ++ (b :: more) ++ rest) = b :: more ++ rest := by
    obtain rfl | rfl | rfl := hsign
    · have hsigns : ¬ (b = 0x2b ∨ b = 0x2d) := by
        rintro (rfl | rfl) <;> cases hb
      exact if_neg hsigns
    · rfl
    · rfl
  have hhead : (b :: more ++ rest).head?.any isDigit = true := by simpa using hb
  rw [skipExponent, hdrop, if_pos hhead, (span_digits hall hrest).2]

/-- A fraction and an exponent that nobody wants end with their digits. -/
theorem skipFraction_digits {digits exponent rest : List UInt8} (hdigits : Digits digits)
    (hexponent : ExponentPart exponent) (hrest : EndsNumber rest) :
    skipFraction (digits ++ (exponent ++ rest)) = .ok rest := by
  obtain ⟨hne, hall⟩ := hdigits
  have hends : EndsDigits (exponent ++ rest) := endsDigits_parts .none hexponent hrest
  have hhead : (digits ++ (exponent ++ rest)).head?.any isDigit = true := by
    obtain ⟨b, more, rfl⟩ := List.exists_cons_of_ne_nil hne
    simpa using hall b (List.mem_cons_self ..)
  rw [skipFraction, if_pos hhead, (span_digits hall hends).2]
  cases hexponent with
  | none =>
    rw [List.nil_append]
    split
    · exact absurd rfl (hrest _ _ rfl).2.2.1
    · exact absurd rfl (hrest _ _ rfl).2.2.2
    · rfl
  | digits hletter hsign hdigits =>
    have hskip := skipExponent_digits hsign hdigits hrest.endsDigits
    obtain rfl | rfl := hletter <;> exact hskip

/-- Passes over what is left of a number behind the digits before the point. -/
def skipRest : List UInt8 → Except Fault (List UInt8)
  | 0x2e :: more => skipFraction more
  | 0x65 :: more | 0x45 :: more => skipExponent more
  | rest => .ok rest

/-- The digits before the point are passed over first. -/
theorem skipNumber_whole {whole tail : List UInt8} (hwhole : WholePart whole)
    (htail : EndsDigits tail) : skipNumber (whole ++ tail) = skipRest tail := by
  cases hwhole with
  | zero =>
    have hdigit : ¬ tail.head?.any isDigit = true := by simpa [EndsDigits] using htail
    rw [List.singleton_append, skipNumber, if_neg (fun h => hdigit h.2), if_pos (by decide)]
    simp only [if_true]
    rfl
  | digits hb hzero hmore =>
    rw [List.cons_append, skipNumber, if_neg (fun h => hzero h.1), if_pos hb]
    simp only [if_neg hzero, (span_digits hmore htail).2]
    rfl

/-- **A number that nobody wants** ends where no more of a number follows. -/
theorem skipNumber_unsigned {token rest : List UInt8} (h : Unsigned token)
    (hrest : EndsNumber rest) : skipNumber (token ++ rest) = .ok rest := by
  obtain ⟨hwhole, hfraction, hexponent⟩ := h
  rw [List.append_assoc, List.append_assoc,
    skipNumber_whole hwhole (endsDigits_parts hfraction hexponent hrest)]
  cases hfraction with
  | digits hdigits => exact skipFraction_digits hdigits hexponent hrest
  | none =>
    cases hexponent with
    | digits hletter hsign hdigits =>
      have hskip := skipExponent_digits hsign hdigits hrest.endsDigits
      obtain rfl | rfl := hletter <;> exact hskip
    | none =>
      rw [List.nil_append, List.nil_append]
      unfold skipRest
      split
      · exact absurd rfl (hrest _ _ rfl).2.1
      · exact absurd rfl (hrest _ _ rfl).2.2.1
      · exact absurd rfl (hrest _ _ rfl).2.2.2
      · rfl

/-! ## Scalars -/

/-- **A value without parts.** -/
inductive Scalar : List UInt8 → Prop where
  | null : Scalar (0x6e :: restOfNull)
  | flag (value : Bool) : Scalar (spellFlag value)
  | number {token : List UInt8} (h : Unsigned token) : Scalar token
  | negative {token : List UInt8} (h : Unsigned token) : Scalar (0x2d :: token)
  | string {body : List UInt8} (h : StringBody body) : Scalar (quote :: (body ++ [quote]))

/-- A number starts with a digit. -/
theorem Unsigned.exists_digit {token : List UInt8} (h : Unsigned token) :
    ∃ b more, token = b :: more ∧ isDigit b = true := by
  obtain ⟨hwhole, -, -⟩ := h
  cases hwhole with
  | zero => exact ⟨_, _, rfl, by decide⟩
  | digits hb => exact ⟨_, _, rfl, hb⟩

/-- **What a value starts with.** It can be told from a blank, from a comma and from the end of a
list or an object. -/
structure Starts (b : UInt8) : Prop where
  not_space : isSpace b = false
  ne_list : b ≠ Bracket.list.closing
  ne_object : b ≠ Bracket.object.closing
  ne_comma : b ≠ comma

theorem ne_of_isDigit {b c : UInt8} (h : isDigit b = true) (hc : isDigit c = false) : b ≠ c := by
  rintro rfl
  rw [h] at hc
  cases hc

theorem starts_of_isDigit {b : UInt8} (h : isDigit b = true) : Starts b where
  not_space := by
    have hspace := ne_of_isDigit h (show isDigit 0x20 = false by decide)
    have hfeed := ne_of_isDigit h (show isDigit 0x0a = false by decide)
    have htab := ne_of_isDigit h (show isDigit 0x09 = false by decide)
    have hreturn := ne_of_isDigit h (show isDigit 0x0d = false by decide)
    simp [isSpace, hspace, hfeed, htab, hreturn]
  ne_list := ne_of_isDigit h (by decide)
  ne_object := ne_of_isDigit h (by decide)
  ne_comma := ne_of_isDigit h (by decide)

/-- A scalar starts with a byte that opens neither a list nor an object. -/
theorem Scalar.exists_starts {token : List UInt8} (h : Scalar token) :
    ∃ b more, token = b :: more ∧ Starts b ∧ b ≠ openList ∧ b ≠ openObject := by
  cases h with
  | null => exact ⟨_, _, rfl, ⟨by decide, by decide, by decide, by decide⟩, by decide, by decide⟩
  | flag value =>
    cases value <;>
      exact ⟨_, _, rfl, ⟨by decide, by decide, by decide, by decide⟩, by decide, by decide⟩
  | number h =>
    obtain ⟨b, more, heq, hb⟩ := h.exists_digit
    exact ⟨b, more, heq, starts_of_isDigit hb, ne_of_isDigit hb (by decide),
      ne_of_isDigit hb (by decide)⟩
  | negative =>
    exact ⟨_, _, rfl, ⟨by decide, by decide, by decide, by decide⟩, by decide, by decide⟩
  | string =>
    exact ⟨_, _, rfl, ⟨by decide, by decide, by decide, by decide⟩, by decide, by decide⟩

/-- **A scalar that nobody wants** is passed over. -/
theorem skipScalar_token {b : UInt8} {more rest : List UInt8} (h : Scalar (b :: more))
    (hrest : EndsNumber rest) : skipScalar b (more ++ rest) = .ok rest := by
  generalize htoken : b :: more = token at h
  cases h with
  | null =>
    cases htoken
    exact (if_pos rfl).trans (expectLiteral_append restOfNull rest)
  | flag value =>
    cases value with
    | true =>
      cases htoken
      exact (if_neg (by decide)).trans ((if_pos rfl).trans (expectLiteral_append restOfTrue rest))
    | false =>
      cases htoken
      exact (if_neg (by decide)).trans ((if_neg (by decide)).trans
        ((if_pos rfl).trans (expectLiteral_append restOfFalse rest)))
  | number h =>
    obtain ⟨b', more', heq, hb⟩ := h.exists_digit
    rw [heq] at htoken
    cases htoken
    have hskip := skipNumber_unsigned h hrest
    rw [heq, List.cons_append] at hskip
    rw [skipScalar, if_neg (ne_of_isDigit hb (by decide)), if_neg (ne_of_isDigit hb (by decide)),
      if_neg (ne_of_isDigit hb (by decide)), if_neg (ne_of_isDigit hb (by decide)), if_pos hb, hskip]
  | negative h =>
    cases htoken
    rw [skipScalar, if_neg (by decide), if_neg (by decide), if_neg (by decide), if_pos rfl,
      skipNumber_unsigned h hrest]
  | string h =>
    cases htoken
    rw [skipScalar, if_neg (by decide), if_neg (by decide), if_neg (by decide),
      if_neg (by decide), if_neg (by decide), if_pos rfl, List.append_assoc, List.singleton_append,
      skipString_body h]

/-! ## Tokens that are written -/

/-- An escape is part of a string. -/
theorem stringBody_escapeByte (b : UInt8) {body : List UInt8} (h : StringBody body) :
    StringBody (escapeByte b ++ body) := by
  by_cases hshort : b = quote ∨ b = backslash ∨ b = 0x08 ∨ b = 0x09 ∨ b = 0x0a ∨ b = 0x0c ∨
      b = 0x0d
  · -- The seven bytes with a letter of their own.
    obtain rfl | rfl | rfl | rfl | rfl | rfl | rfl := hshort <;>
      exact .letter (by decide) rfl h
  · simp only [not_or] at hshort
    obtain ⟨hquote, hbackslash, h₁, h₂, h₃, h₄, h₅⟩ := hshort
    simp only [escapeByte, hquote, hbackslash, h₁, h₂, h₃, h₄, h₅, if_false]
    by_cases hcontrol : b < 0x20
    · have hlt : b.toNat < 32 := hcontrol
      have hdigit {n : Nat} (hn : n < 16) : IsHexDigit (hexDigit n) := by
        rw [IsHexDigit, hexDigit?_hexDigit hn]
        rfl
      rw [if_pos hcontrol]
      exact .number rfl rfl (hdigit (by omega)) (hdigit (by omega)) h
    · rw [if_neg hcontrol]
      exact .byte hquote hbackslash hcontrol h

/-- **A string is written as a token.** -/
theorem stringBody_escaped (bytes : List UInt8) : StringBody (bytes.flatMap escapeByte) := by
  induction bytes with
  | nil => exact .nil
  | cons b bytes ih => exact stringBody_escapeByte b ih

theorem scalar_spell (text : String) : Scalar (spell text) := .string (stringBody_escaped _)

/-- **A number is written as a token.** -/
theorem scalar_writeNatural (n : Nat) : Scalar (writeNatural n) := by
  have hwhole : WholePart (writeNatural n) := by
    by_cases hzero : n = 0
    · rw [hzero, writeNatural_eq, if_pos (by decide)]
      exact .zero
    · obtain ⟨b, more, heq, hb⟩ := exists_writeNatural_eq_cons (Nat.pos_of_ne_zero hzero)
      have hdigits : ∀ c ∈ b :: more, isDigit c = true := fun c hc =>
        isDigit_of_mem_writeNatural (heq ▸ hc)
      rw [heq]
      exact .digits (hdigits b (List.mem_cons_self ..)) hb fun c hc =>
        hdigits c (List.mem_cons_of_mem _ hc)
  have hnumber := Scalar.number (Unsigned.mk hwhole .none .none)
  rwa [List.append_nil, List.append_nil] at hnumber

end RemoteLog.Json
