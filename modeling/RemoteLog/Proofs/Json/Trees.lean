import RemoteLog.Proofs.Json.Document
import RemoteLog.Proofs.Json.Scalars

/-! # What documents stand for

A reader of some type takes the text of one document off the front of a text, whatever blanks are in it.
What the document stands for is told by its tree.

* **`Spelt.nextItem_cons`**, **`Spelt.nextMember_cons`** — the steps through a list and an object.
* **`Tree.text?`**, **`Tree.word?`**, **`Tree.flag?`**, **`Tree.choice?`**, **`Tree.texts?`** — what a
  document stands for.
* **`readString_spelt`**, **`readWord_spelt`**, **`readFlag_spelt`**, **`readChoice_spelt`**,
  **`readStrings_spelt`** — it is read. -/

namespace RemoteLog.Json

/-! ## Steps through containers -/

section

variable {isFirst : Bool} {item tree : Tree} {items : List Tree} {key text blanks : List UInt8}
  {members : List (List UInt8 × Tree)}

theorem Lead.skipSpace_first {lead : List UInt8} (h : Lead true lead) (s : List UInt8) :
    skipSpace (lead ++ s) = skipSpace s := by
  cases h with
  | first hblanks => exact skipSpace_append hblanks s

theorem Lead.exists_further {lead : List UInt8} (h : Lead false lead) :
    ∃ behind, Blank behind ∧ ∀ s, skipSpace (lead ++ s) = comma :: (behind ++ s) := by
  cases h with
  | @further before behind hbefore hbehind =>
    refine ⟨behind, hbehind, fun s => ?_⟩
    rw [List.append_assoc, skipSpace_append hbefore]
    exact skipSpace_cons (by decide) _

/-- The end of a list. -/
theorem Spelt.nextItem_nil (h : Spelt (.items isFirst []) text) (rest : List UInt8) :
    nextItem isFirst (text ++ rest) = .ok (.closed rest) := by
  cases h with
  | noItem hblanks =>
    rw [List.append_assoc, nextItem, skipSpace_append hblanks, List.singleton_append,
      skipSpace_cons (by decide)]
    exact if_pos rfl

/-- **The next item of a list.** -/
theorem Spelt.nextItem_cons (h : Spelt (.items isFirst (item :: items)) text) :
    ∃ value more, Spelt (.value item) value ∧ Spelt (.items false items) more ∧
      ∀ rest, nextItem isFirst (text ++ rest) = .ok (.more (value ++ (more ++ rest))) := by
  cases h with
  | @item _ _ _ lead value more hlead hitem hmore =>
    refine ⟨value, more, hitem, hmore, fun rest => ?_⟩
    obtain ⟨b, tail, rfl, hstarts⟩ := hitem.exists_starts
    have hskip (s : List UInt8) : skipSpace (b :: tail ++ s) = b :: (tail ++ s) :=
      skipSpace_cons hstarts.not_space _
    rw [List.append_assoc, List.append_assoc, nextItem]
    cases isFirst with
    | true =>
      rw [hlead.skipSpace_first, hskip]
      exact (if_neg hstarts.ne_list).trans (if_pos rfl)
    | false =>
      obtain ⟨behind, hbehind, hcomma⟩ := hlead.exists_further
      rw [hcomma]
      refine (if_neg (by decide)).trans ((if_neg (by decide)).trans ((if_pos rfl).trans ?_))
      rw [skipSpace_append hbehind, hskip]
      exact if_neg hstarts.ne_list

/-- The end of an object. -/
theorem Spelt.nextMember_nil (h : Spelt (.members isFirst []) text) (rest : List UInt8) :
    nextMember isFirst (text ++ rest) = .ok (.closed rest) := by
  cases h with
  | noMember hblanks =>
    rw [List.append_assoc, nextMember, skipSpace_append hblanks, List.singleton_append,
      skipSpace_cons (by decide)]
    exact if_pos rfl

/-- **The next member of an object.** Its key is followed by a colon and a value, and the text that is
left is shorter. -/
theorem Spelt.nextMember_cons (h : Spelt (.members isFirst ((key, tree) :: members)) text) :
    ∃ before behind value more, StringBody key ∧ Blank before ∧ Blank behind ∧
      Spelt (.value tree) value ∧ Spelt (.members false members) more ∧ more.length < text.length ∧
      ∀ rest, nextMember isFirst (text ++ rest) = .ok (.more
        (key ++ quote :: (before ++ 0x3a :: (behind ++ (value ++ (more ++ rest)))))) := by
  cases h with
  | @member _ _ _ _ lead before behind value more hlead hkey hbefore hbehind hvalue hmore =>
    refine ⟨before, behind, value, more, hkey, hbefore, hbehind, hvalue, hmore, ?_, fun rest => ?_⟩
    · simp only [List.length_append, List.length_cons]
      omega
    · simp only [List.append_assoc, List.cons_append]
      rw [nextMember]
      cases isFirst with
      | true =>
        rw [hlead.skipSpace_first, skipSpace_cons (by decide)]
        exact (if_neg (by decide)).trans ((if_pos rfl).trans (if_pos rfl))
      | false =>
        obtain ⟨back, hback, hcomma⟩ := hlead.exists_further
        rw [hcomma]
        refine (if_neg (by decide)).trans ((if_neg (by decide)).trans ((if_pos rfl).trans ?_))
        rw [skipSpace_append hback, skipSpace_cons (by decide)]
        exact if_pos rfl

/-- The colon behind a key. -/
theorem expectColon_append (hblanks : Blank blanks) (rest : List UInt8) :
    expectColon (blanks ++ 0x3a :: rest) = .ok rest := by
  rw [expectColon, skipSpace_append hblanks, skipSpace_cons (by decide)]
  exact if_pos rfl

end

/-! ## Scalars -/

namespace Tree

/-- The token of a scalar. -/
def token? : Tree → Option (List UInt8)
  | scalar token => some token
  | _ => none

/-- **The text that a document stands for.** -/
def text? (tree : Tree) : Option String := tree.token?.bind stringOf?

/-- **The word that a document stands for,** up to `largest`. -/
def word? (largest : Nat) (tree : Tree) : Option Nat := tree.token?.bind (wordOf? largest)

/-- **The truth value that a document stands for.** -/
def flag? (tree : Tree) : Option Bool := tree.token?.bind flagOf?

/-- Whether a document is `null`. -/
def isNull (tree : Tree) : Bool := tree.token? = some (0x6e :: restOfNull)

end Tree

section

variable {tree : Tree} {text rest : List UInt8}

theorem readString_spelt (h : Spelt (.value tree) text) (expected : String) (rest : List UInt8) :
    (readString expected (text ++ rest)).toOption = tree.text?.map fun value => (value, rest) := by
  cases h with
  | scalar h => exact readString_scalar h expected
  | list | object =>
    rw [List.cons_append, readString, skipSpace_cons (by decide)]
    exact congrArg Except.toOption (if_neg (by decide))

theorem readWord_spelt (h : Spelt (.value tree) text) (hrest : EndsNumber rest) {largest : Nat}
    (hlargest : largest ≤ maxWord64) (expected : String) :
    (readWord largest expected (text ++ rest)).toOption =
      (tree.word? largest).map fun value => (value, rest) := by
  cases h with
  | scalar h => exact readWord_scalar h hrest hlargest expected
  | list | object =>
    rw [List.cons_append, readWord, skipSpace_cons (by decide)]
    exact congrArg Except.toOption ((if_neg (by decide)).trans (if_neg (by decide)))

theorem readFlag_spelt (h : Spelt (.value tree) text) (rest : List UInt8) :
    (readFlag (text ++ rest)).toOption = tree.flag?.map fun value => (value, rest) := by
  cases h with
  | scalar h => exact readFlag_scalar h
  | list | object =>
    rw [List.cons_append, readFlag, skipSpace_cons (by decide)]
    exact congrArg Except.toOption ((if_neg (by decide)).trans (if_neg (by decide)))

theorem readNull_blanks {blanks : List UInt8} (h : Blank blanks) (s : List UInt8) :
    readNull (blanks ++ s) = readNull s := by
  rw [readNull, skipSpace_append h, ← readNull]

/-- **Nothing is read** just if a document is `null`. -/
theorem readNull_spelt (h : Spelt (.value tree) text) (rest : List UInt8) :
    (readNull (text ++ rest)).toOption = if tree.isNull then some rest else none := by
  have hother {b : UInt8} {more : List UInt8} (hspace : isSpace b = false) (hnull : b ≠ 0x6e) :
      (readNull (b :: more ++ rest)).toOption = none := by
    rw [List.cons_append, readNull, skipSpace_cons hspace]
    exact congrArg Except.toOption (if_neg hnull)
  have hscalar {b : UInt8} {more : List UInt8} (hspace : isSpace b = false) (hnull : b ≠ 0x6e) :
      (readNull (b :: more ++ rest)).toOption =
        if (Tree.scalar (b :: more)).isNull then some rest else none := by
    have hisNull : (Tree.scalar (b :: more)).isNull = false := by
      simp [Tree.isNull, Tree.token?, hnull]
    rw [hother hspace hnull, hisNull]
    rfl
  cases h with
  | list | object => exact hother (by decide) (by decide)
  | scalar h =>
    cases h with
    | null =>
      rw [List.cons_append, readNull, skipSpace_cons (by decide)]
      refine (congrArg Except.toOption (if_pos rfl)).trans ?_
      rw [expectLiteral_append]
      rfl
    | flag value => cases value <;> exact hscalar (by decide) (by decide)
    | negative => exact hscalar (by decide) (by decide)
    | string => exact hscalar (by decide) (by decide)
    | number h =>
      obtain ⟨b, more, rfl, hb⟩ := h.exists_digit
      exact hscalar (starts_of_isDigit hb).not_space (ne_of_isDigit hb (by decide))

end

/-! ## Choices -/

section

variable {α : Type} {tree : Tree} {text : List UInt8}

/-- What a known name stands for. -/
def named? (known : List (String × α)) (name : String) : Option α :=
  (known.find? (·.1 = name)).map (·.2)

/-- **The choice that a document stands for:** its name, or an object of just the name and `null`. -/
def Tree.choice? (known : List (String × α)) : Tree → Option α
  | .object [(key, tree)] => if tree.isNull then (textOf? key).bind (named? known) else none
  | tree => tree.text?.bind (named? known)

theorem choice?_object (known : List (String × α)) (key : List UInt8) (tree : Tree)
    (members : List (List UInt8 × Tree)) :
    (Tree.object ((key, tree) :: members)).choice? known =
      if tree.isNull && members.isEmpty then (textOf? key).bind (named? known) else none := by
  cases members with
  | nil => rw [Tree.choice?, List.isEmpty_nil, Bool.and_true]
  | cons => rw [List.isEmpty_cons, Bool.and_false]; rfl

theorem readName_body {key : List UInt8} (h : StringBody key) (known : List (String × α))
    (rest : List UInt8) :
    (readName known (key ++ quote :: rest)).toOption =
      ((textOf? key).bind (named? known)).map fun value => (value, rest) := by
  rw [readName, toOption_bind, readText_body h]
  cases textOf? key with
  | none => rfl
  | some name =>
    dsimp only [Option.map_some, Option.bind_some, named?]
    cases known.find? (·.1 = name) <;> rfl

/-- What follows the value of the only member. -/
theorem readChoice_end {members : List (List UInt8 × Tree)} {more : List UInt8}
    (h : Spelt (.members false members) more) (value : α) (rest : List UInt8) :
    (match skipSpace (more ++ rest) with
      | [] => throw .endInObject
      | c :: rest =>
        if c = Bracket.object.closing then return (value, rest) else throw .expectedValue
        : Except Fault (α × List UInt8)).toOption =
      if members.isEmpty then some (value, rest) else none := by
  cases h with
  | noMember hblanks =>
    rw [List.append_assoc, skipSpace_append hblanks, List.singleton_append,
      skipSpace_cons (by decide)]
    rfl
  | member hlead =>
    obtain ⟨behind, -, hcomma⟩ := hlead.exists_further
    rw [List.append_assoc, hcomma]
    rfl

/-- A name alone is a choice. -/
theorem readChoice_scalar {token : List UInt8} (h : Scalar token) (known : List (String × α))
    (rest : List UInt8) :
    (readChoice known (token ++ rest)).toOption =
      ((stringOf? token).bind (named? known)).map fun value => (value, rest) := by
  have hother {b : UInt8} {more : List UInt8} (hspace : isSpace b = false) (hquote : b ≠ quote)
      (hobject : b ≠ openObject) :
      (readChoice known (b :: more ++ rest)).toOption =
        ((stringOf? (b :: more)).bind (named? known)).map fun value => (value, rest) := by
    rw [stringOf?, if_neg hquote, List.cons_append, readChoice, skipSpace_cons hspace]
    exact congrArg Except.toOption ((if_neg hobject).trans (if_neg hquote))
  cases h with
  | null => exact hother (by decide) (by decide) (by decide)
  | flag value => cases value <;> exact hother (by decide) (by decide) (by decide)
  | negative => exact hother (by decide) (by decide) (by decide)
  | number h =>
    obtain ⟨b, more, rfl, hb⟩ := h.exists_digit
    exact hother (starts_of_isDigit hb).not_space (ne_of_isDigit hb (by decide))
      (ne_of_isDigit hb (by decide))
  | @string body h =>
    rw [stringOf?_string, ← readName_body h, List.cons_append, List.append_assoc,
      List.singleton_append, readChoice, skipSpace_cons (by decide)]
    exact congrArg Except.toOption ((if_neg (by decide)).trans (if_pos rfl))

/-- An object is a choice if it has one member, which is `null`. -/
theorem readChoice_object {members : List (List UInt8 × Tree)}
    (h : Spelt (.members true members) text) (known : List (String × α)) (rest : List UInt8) :
    (readChoice known (openObject :: (text ++ rest))).toOption =
      ((Tree.object members).choice? known).map fun value => (value, rest) := by
  rw [readChoice, skipSpace_cons (by decide)]
  refine (congrArg Except.toOption (if_pos rfl)).trans ?_
  cases members with
  | nil =>
    rw [h.nextMember_nil]
    rfl
  | cons member members =>
    obtain ⟨key, tree⟩ := member
    obtain ⟨before, behind, value, more, hkey, hbefore, hbehind, hvalue, hmore, -, hnext⟩ :=
      h.nextMember_cons
    have hname := readName_body hkey known
      (before ++ 0x3a :: (behind ++ (value ++ (more ++ rest))))
    have hnull := readNull_spelt hvalue (more ++ rest)
    rw [hnext, choice?_object]
    simp only [bind, Except.bind]
    cases hchoice : (textOf? key).bind (named? known) with
    | none =>
      rw [hchoice] at hname
      obtain ⟨e, he⟩ := toOption_eq_none_iff.mp hname
      rw [he, ite_self]
      rfl
    | some choice =>
      rw [hchoice] at hname
      rw [toOption_eq_some_iff.mp hname]
      dsimp only
      rw [expectColon_append hbefore]
      dsimp only
      rw [readNull_blanks hbehind]
      cases htree : tree.isNull with
      | false =>
        rw [htree] at hnull
        obtain ⟨e, he⟩ := toOption_eq_none_iff.mp hnull
        rw [he]
        rfl
      | true =>
        rw [htree] at hnull
        rw [toOption_eq_some_iff.mp hnull]
        dsimp only
        refine (readChoice_end hmore choice rest).trans ?_
        cases members <;> rfl

/-- **A choice is read** from a name alone or from an object. -/
theorem readChoice_spelt (h : Spelt (.value tree) text) (known : List (String × α))
    (rest : List UInt8) :
    (readChoice known (text ++ rest)).toOption =
      (tree.choice? known).map fun value => (value, rest) := by
  cases h with
  | scalar h => exact readChoice_scalar h known rest
  | list =>
    rw [List.cons_append, readChoice, skipSpace_cons (by decide)]
    exact congrArg Except.toOption ((if_neg (by decide)).trans (if_neg (by decide)))
  | object h => exact readChoice_object h known rest

/-! ## Lists -/

/-- **The texts that a document stands for.** -/
def Tree.texts? : Tree → Option (List String)
  | .list items => items.mapM Tree.text?
  | _ => none

theorem readItems_spelt {items : List Tree} {isFirst : Bool} {text : List UInt8}
    (h : Spelt (.items isFirst items) text) (read : List String) (rest : List UInt8) :
    (readItems read isFirst (text ++ rest)).toOption =
      (items.mapM Tree.text?).map fun texts => (read.reverse ++ texts, rest) := by
  induction items generalizing isFirst text read with
  | nil =>
    rw [readItems_eq, h.nextItem_nil]
    simp
  | cons item items ih =>
    obtain ⟨value, more, hvalue, hmore, hnext⟩ := h.nextItem_cons
    have hread := readString_spelt hvalue "a string" (more ++ rest)
    rw [readItems_eq, hnext, List.mapM_cons]
    dsimp only
    cases htext : item.text? with
    | none =>
      rw [htext] at hread
      obtain ⟨e, he⟩ := toOption_eq_none_iff.mp hread
      rw [he]
      rfl
    | some first =>
      rw [htext] at hread
      rw [toOption_eq_some_iff.mp hread]
      dsimp only
      rw [ih hmore]
      cases items.mapM Tree.text? <;> simp

/-- **A list of strings is read** item by item. -/
theorem readStrings_spelt (h : Spelt (.value tree) text) (rest : List UInt8) :
    (readStrings (text ++ rest)).toOption = tree.texts?.map fun texts => (texts, rest) := by
  cases h with
  | scalar h =>
    obtain ⟨b, more, rfl, hstarts, hlist, -⟩ := h.exists_starts
    rw [List.cons_append, readStrings, skipSpace_cons hstarts.not_space]
    exact congrArg Except.toOption (if_neg hlist)
  | object =>
    rw [List.cons_append, readStrings, skipSpace_cons (by decide)]
    exact congrArg Except.toOption (if_neg (by decide))
  | list h =>
    rw [List.cons_append, readStrings, skipSpace_cons (by decide)]
    exact (congrArg Except.toOption (if_pos rfl)).trans (readItems_spelt h [] rest)

end

end RemoteLog.Json
