import RemoteLog.Message.Body
import RemoteLog.Proofs.Json.Trees

/-! # Records out of documents

The reader of a record goes through the text of a document from left to right. What it has in the end is
told by the tree of the document: neither the blanks nor the members of no field leave a trace.

* **`FieldType.value? type tree`** — the value of a field that a document stands for;
  **`FieldType.read_spelt`** reads it.
* **`Slots.take fields slots key tree`** — what one member does to the slots;
  **`readMember_spelt`** reads it, and **`readMembers_spelt`** reads all members.
* **`listValues? fields items`** — the values of a list; **`readItems_spelt`** reads them. -/

namespace RemoteLog.Message

open Json (Blank Spelt Tree EndsNumber toOption_bind toOption_map skipSpace_append skipSpace_cons)

/-! ## Values of fields -/

/-- **The value of a field that a document stands for.** -/
def FieldType.value? : (type : FieldType) → Tree → Option type.Value
  | .text, tree => tree.text?
  | .bytes, tree => tree.text?.bind fun symbols =>
    (Base64.decode (Bytes.toList symbols.toUTF8)).toOption
  | .word32, tree => (tree.word? (UInt32.size - 1)).map UInt32.ofNat
  | .word64, tree => (tree.word? (UInt64.size - 1)).map UInt64.ofNat
  | .flag, tree => tree.flag?
  | .status, tree => tree.choice? WindowStatus.names
  | .texts, tree => tree.texts?

section

variable {tree : Tree} {items : List Tree} {members : List (List UInt8 × Tree)} {isFirst : Bool}
  {before behind text rest : List UInt8}

namespace FieldType

/-- Blanks in front of a value do not matter. -/
theorem read_blanks (type : FieldType) (h : Blank before) (s : List UInt8) :
    type.read (before ++ s) = type.read s := by
  have hstring : Json.readString "a string" (before ++ s) = Json.readString "a string" s := by
    rw [Json.readString, skipSpace_append h, ← Json.readString]
  have hword (largest : Nat) (expected : String) :
      Json.readWord largest expected (before ++ s) = Json.readWord largest expected s := by
    rw [Json.readWord, skipSpace_append h, ← Json.readWord]
  cases type with
  | text => exact hstring
  | bytes => rw [FieldType.read, hstring, FieldType.read]
  | word32 | word64 => rw [FieldType.read, hword, FieldType.read]
  | flag => rw [FieldType.read, Json.readFlag, skipSpace_append h, ← Json.readFlag, FieldType.read]
  | status =>
    rw [FieldType.read, Json.readChoice, skipSpace_append h, ← Json.readChoice, FieldType.read]
  | texts =>
    rw [FieldType.read, Json.readStrings, skipSpace_append h, ← Json.readStrings, FieldType.read]

/-- **A value is read** if the document stands for one. -/
theorem read_spelt (type : FieldType) (h : Spelt (.value tree) text) (hrest : EndsNumber rest) :
    (type.read (text ++ rest)).toOption = (type.value? tree).map fun value => (value, rest) := by
  cases type with
  | text => exact Json.readString_spelt h "a string" rest
  | bytes =>
    rw [FieldType.read, toOption_bind, Json.readString_spelt h]
    cases htext : tree.text? with
    | none => simp [value?, htext]
    | some symbols =>
      simp only [value?, htext, Option.map_some, Option.bind_some]
      cases Base64.decode (Bytes.toList symbols.toUTF8) <;> rfl
  | word32 =>
    rw [FieldType.read, toOption_bind, Json.readWord_spelt h hrest (by decide), value?]
    cases tree.word? (UInt32.size - 1) <;> rfl
  | word64 =>
    rw [FieldType.read, toOption_bind, Json.readWord_spelt h hrest (by decide), value?]
    cases tree.word? (UInt64.size - 1) <;> rfl
  | flag => exact Json.readFlag_spelt h rest
  | status => exact Json.readChoice_spelt h WindowStatus.names rest
  | texts => exact Json.readStrings_spelt h rest

end FieldType

/-! ## Members -/

/-- The slot of the first field with those of the others. -/
def Slots.cons {field : Field} {fields : List Field} (slot : Option field.type.Value)
    (slots : Slots fields) : Slots (field :: fields) := (slot, slots)

/-- **What a member does to the slots:** it fills the empty slot of its field. A member of no field
does nothing. -/
def Slots.take : (fields : List Field) → Slots fields → (key : String) → Tree →
    Option (Slots fields)
  | [], (), _, _ => some ()
  | field :: fields, (slot, slots), key, tree =>
    if field.name = key then
      if slot.isSome then Option.none
      else (field.type.value? tree).map fun value => Slots.cons (some value) slots
    else (Slots.take fields slots key tree).map (Slots.cons slot)

/-- **A member is read** from behind its key. -/
theorem readMember_spelt (hbefore : Blank before) (hbehind : Blank behind)
    (h : Spelt (.value tree) text) (hrest : EndsNumber rest) (fields : List Field)
    (slots : Slots fields) (key : String) :
    (readMember fields slots key (before ++ 0x3a :: (behind ++ (text ++ rest)))).toOption =
      (Slots.take fields slots key tree).map fun slots => (slots, rest) := by
  induction fields with
  | nil =>
    -- No field has the name, so the value is passed over.
    show (Json.expectColon _ >>= fun rest => Json.skipValue rest >>= fun rest =>
      Except.ok ((), rest)).toOption = _
    rw [Json.expectColon_append hbefore]
    show (Json.skipValue _ >>= fun rest => Except.ok ((), rest)).toOption = _
    rw [Json.skipValue_spelt hbehind h hrest]
    rfl
  | cons field fields ih =>
    obtain ⟨slot, slots⟩ := slots
    rw [readMember, Slots.take]
    by_cases hkey : field.name = key
    · rw [if_pos hkey, if_pos hkey]
      cases slot with
      | some value => rfl -- A second member is refused before its value is looked at.
      | none =>
        have hread := field.type.read_spelt h hrest
        rw [Json.expectColon_append hbefore]
        show ((field.type.read (behind ++ (text ++ rest))) >>= fun read =>
          Except.ok ((some read.1, slots), read.2)).toOption = _
        rw [toOption_bind, field.type.read_blanks hbehind, hread]
        cases field.type.value? tree <;> rfl
    · rw [if_neg hkey, if_neg hkey, toOption_bind, ih slots]
      cases Slots.take fields slots key tree <;> rfl

/-- The members of an object with the texts of their keys. The bytes of a key need not be a text. -/
def named (members : List (List UInt8 × Tree)) : List (Option String × Tree) :=
  members.map fun member => (Json.textOf? member.1, member.2)

/-- **What members do to the slots,** one after another. -/
def Slots.takeAll (fields : List Field) : Slots fields → List (Option String × Tree) →
    Option (Slots fields)
  | slots, [] => some slots
  | _, (.none, _) :: _ => Option.none
  | slots, (some key, tree) :: members =>
    (Slots.take fields slots key tree).bind fun slots => Slots.takeAll fields slots members

/-- **The members of an object are read.** -/
theorem readMembers_spelt (h : Spelt (.members isFirst members) text) {fields : List Field}
    (slots : Slots fields) {fuel : Nat} (hfuel : text.length ≤ fuel) (rest : List UInt8) :
    (readMembers fields fuel slots isFirst (text ++ rest)).toOption =
      (Slots.takeAll fields slots (named members)).map fun slots => (slots, rest) := by
  -- The induction is on the members, and every one of them takes fuel for its bytes.
  induction members generalizing isFirst text slots fuel with
  | nil =>
    have hnext := h.nextMember_nil rest
    cases h with
    | noMember =>
      match fuel, hfuel with
      | 0, hfuel => simp at hfuel
      | fuel + 1, _ =>
        simp only [readMembers, hnext, bind, Except.bind]
        rfl
  | cons member members ih =>
    obtain ⟨key, tree⟩ := member
    obtain ⟨before, behind, value, more, hkey, hbefore, hbehind, hvalue, hmore, hshort, hnext⟩ :=
      h.nextMember_cons
    match fuel, hfuel with
    | 0, hfuel => omega
    | fuel + 1, hfuel =>
      have hends := hmore.endsNumber_members rest
      rw [readMembers, hnext, named, List.map_cons]
      show ((Json.readText (key ++ Json.quote :: _)) >>= fun read =>
        readMember fields slots read.1 read.2 >>= fun read =>
          readMembers fields fuel read.1 false read.2).toOption = _
      rw [toOption_bind, Json.readText_body hkey]
      cases Json.textOf? key with
      | none => rfl
      | some name =>
        show ((readMember fields slots name _) >>= fun read =>
          readMembers fields fuel read.1 false read.2).toOption = _
        rw [toOption_bind, readMember_spelt hbefore hbehind hvalue hends, Slots.takeAll]
        cases Slots.take fields slots name tree with
        | none => rfl
        | some slots => exact ih hmore slots (by omega)

/-! ## Lists -/

/-- The value of the first field with those of the others. -/
def Values.cons {field : Field} {fields : List Field} (value : field.type.Value)
    (values : Values fields) : Values (field :: fields) := (value, values)

/-- **The values of a list,** of which there are as many as fields. -/
def listValues? : (fields : List Field) → List Tree → Option (Values fields)
  | [], [] => some ()
  | field :: fields, item :: items =>
    (field.type.value? item).bind fun value => (listValues? fields items).map (Values.cons value)
  | _, _ => none

/-- A list has ended just if no item is left. -/
theorem closeList_spelt (h : Spelt (.items isFirst items) text) (rest : List UInt8) :
    (Json.closeList (text ++ rest)).toOption = if items.isEmpty then some rest else none := by
  -- Only the closing bracket is taken, and what stands in front of an item is none.
  have hother {b : UInt8} {s more : List UInt8} (hs : Json.skipSpace s = b :: more)
      (hb : b ≠ Json.Bracket.list.closing) : (Json.closeList s).toOption = none := by
    rw [Json.closeList, hs]
    refine (congrArg Except.toOption (if_neg hb)).trans ?_
    split <;> rfl
  cases h with
  | noItem hblanks =>
    rw [List.append_assoc, Json.closeList, skipSpace_append hblanks, List.singleton_append,
      skipSpace_cons (by decide)]
    exact congrArg Except.toOption (if_pos rfl)
  | @item _ _ _ lead value more hlead hitem =>
    rw [List.append_assoc, List.append_assoc]
    cases isFirst with
    | true =>
      obtain ⟨b, tail, rfl, hstarts⟩ := hitem.exists_starts
      refine @hother b _ (tail ++ (more ++ rest)) ?_ hstarts.ne_list
      rw [hlead.skipSpace_first, List.cons_append]
      exact skipSpace_cons hstarts.not_space _
    | false =>
      obtain ⟨behind, -, hcomma⟩ := hlead.exists_further
      exact hother (hcomma _) (by decide)

/-- The first item is read for the first field. -/
theorem readItems_of_more {expected : String} {field : Field} {fields : List Field} {done : Nat}
    {s : List UInt8} (h : Json.nextItem (done = 0) s = .ok (.more rest)) :
    readItems expected (field :: fields) done s =
      field.type.read rest >>= fun read =>
        (readItems expected fields (done + 1) read.2).map fun later =>
          (Values.cons read.1 later.1, later.2) := by
  rw [readItems, h]
  show (field.type.read rest >>= fun read => readItems expected fields (done + 1) read.2 >>= _) = _
  congr 1

/-- **The items of a list are read** as the values of the fields, and none may be left. -/
theorem readItems_spelt (expected : String) (fields : List Field) (done : Nat)
    (h : Spelt (.items (done = 0) items) text) (rest : List UInt8) :
    ((readItems expected fields done (text ++ rest)).toOption.bind fun read =>
        (Json.closeList read.2).toOption.map fun rest => (read.1, rest)) =
      (listValues? fields items).map fun values => (values, rest) := by
  induction fields generalizing items done text with
  | nil =>
    -- The reader stops behind the last field, and it is the end of the list that must follow.
    show (Json.closeList (text ++ rest)).toOption.map (fun rest => ((), rest)) = _
    rw [closeList_spelt h]
    cases items <;> rfl
  | cons field fields ih =>
    cases items with
    | nil =>
      rw [readItems, h.nextItem_nil]
      rfl
    | cons item items =>
      obtain ⟨value, more, hvalue, hmore, hnext⟩ := h.nextItem_cons
      have hread := field.type.read_spelt hvalue (hmore.endsNumber_items rest)
      have hlater := ih (done + 1) (by simpa using hmore)
      rw [readItems_of_more (hnext rest), toOption_bind, hread, listValues?]
      cases field.type.value? item with
      | none => rfl
      | some first =>
        simp only [Option.map_some, Option.bind_some, toOption_map]
        -- Both sides put the first value in front of what the other items come to.
        refine Eq.trans ?_ ((congrArg (Option.map fun read =>
          (Values.cons first read.1, read.2)) hlater).trans ?_)
        · cases (readItems expected fields (done + 1) (more ++ rest)).toOption with
          | none => rfl
          | some later =>
            simp only [Option.map_some, Option.bind_some, Option.map_map]
            rfl
        · rw [Option.map_map, Option.map_map]
          rfl

end

end RemoteLog.Message
