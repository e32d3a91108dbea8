import RemoteLog.Proofs.Message.Members
import RemoteLog.Proofs.Message.Wire

/-! # Bodies out of documents

Peers may write the members of a body in any order, with any blanks, and with members that nobody here
knows. The command is then read as the same body or refused as before. What is no body of the kind is
refused as such.

* **`Spells tree body`**, **`Overruns tree body`** — a body is a document, and a document with something
  behind it.
* **`accepted? kind tag body`**, **`Refused kind tag body`** — what becomes of the command.
* **`accepted?_of_spells`**, **`refused_of_overruns`** — the document alone tells.
* **`ofCommand_of_spells`** — for every kind: the members that count, in any order, the list of the same
  values, and what is refused. -/

namespace RemoteLog.Message

open Json (Tree Blank Spelt)

/-! ## Texts -/

/-- **A body is a document,** with any blanks between its tokens and around it. -/
def Spells (tree : Tree) (body : ByteArray) : Prop :=
  ∃ before text behind, Bytes.toList body = before ++ (text ++ behind) ∧ Blank before ∧
    Spelt (.value tree) text ∧ Blank behind

/-- **A body starts with a document,** but something other than blanks stands behind it. -/
def Overruns (tree : Tree) (body : ByteArray) : Prop :=
  ∃ before text behind, Bytes.toList body = before ++ (text ++ behind) ∧ Blank before ∧
    Spelt (.value tree) text ∧ ¬ Blank behind

/-- **A document is a natural number of 32 bits.** It is written with its digits. -/
def IsWord32 (tree : Tree) : Prop :=
  ∃ n, n ≤ 4294967295 ∧ tree = .scalar (Json.writeNatural n)

/-- A document that is no such number stands for no value of a field of this type. -/
theorem value?_word32_eq_none {tree : Tree} (h : ¬ IsWord32 tree) :
    FieldType.word32.value? tree = none := by
  cases hword : tree.word? (UInt32.size - 1) with
  | none => rw [FieldType.value?, hword]; rfl
  | some n =>
    refine absurd ?_ h
    cases tree with
    | list | object => cases hword
    | scalar token =>
      obtain ⟨hn, rfl⟩ := Json.wordOf?_eq_some_iff.mp hword
      exact ⟨n, hn, rfl⟩

/-! ## Commands -/

section

variable {kind : CommandKind} {tag : Int64} {tree : Tree} {body : ByteArray}

/-- **The body that a command is read as.** -/
def accepted? (kind : CommandKind) (tag : Int64) (body : ByteArray) : Option (BodyOf kind) :=
  (Body.ofCommand ⟨kind, tag, body⟩ : Except ProtocolError (BodyOf kind)).toOption

/-- **A command is refused for its body.** -/
def Refused (kind : CommandKind) (tag : Int64) (body : ByteArray) : Prop :=
  ∃ fault, (Body.ofCommand ⟨kind, tag, body⟩ : Except ProtocolError (BodyOf kind)) =
    .error (.badBody fault)

/-- A command is read as what its body is decoded to. -/
theorem ofCommand_eq (kind : CommandKind) (tag : Int64) (body : ByteArray) :
    (Body.ofCommand ⟨kind, tag, body⟩ : Except ProtocolError (BodyOf kind)) =
      (Body.decode body : Except Json.Fault (BodyOf kind)).mapError .badBody := by
  have h := Body.ofCommand_eq_of_kind (α := BodyOf kind) tag body
  rwa [kind_bodyOf] at h

theorem accepted?_eq (kind : CommandKind) (tag : Int64) (body : ByteArray) :
    accepted? kind tag body = (Body.decode body : Except Json.Fault (BodyOf kind)).toOption := by
  rw [accepted?, ofCommand_eq]
  cases (Body.decode body : Except Json.Fault (BodyOf kind)) <;> rfl

theorem refused_of_accepted? (h : accepted? kind tag body = none) : Refused kind tag body := by
  rw [accepted?_eq, Json.toOption_eq_none_iff] at h
  obtain ⟨fault, hfault⟩ := h
  refine ⟨fault, ?_⟩
  rw [ofCommand_eq, hfault]
  rfl

/-- **What becomes of a command** is told by the document in its body. -/
theorem accepted?_of_spells (h : Spells tree body) : accepted? kind tag body = Body.value? tree := by
  obtain ⟨before, text, behind, hbody, hbefore, htext, hbehind⟩ := h
  rw [accepted?_eq, Body.decode_spelt (distinct_bodyOf kind) hbody hbefore htext,
    if_pos (Json.skipSpace_eq_nil_iff.mpr hbehind)]

/-- Nothing may stand behind the document. -/
theorem refused_of_overruns (h : Overruns tree body) : Refused kind tag body := by
  obtain ⟨before, text, behind, hbody, hbefore, htext, hbehind⟩ := h
  refine refused_of_accepted? ?_
  rw [accepted?_eq, Body.decode_spelt (distinct_bodyOf kind) hbody hbefore htext,
    if_neg fun hempty => hbehind (Json.skipSpace_eq_nil_iff.mp hempty)]

/-- A document that stands for no record is refused. -/
theorem refused_of_recordValues? (h : Spells tree body)
    (hnone : recordValues? (Body.fields (BodyOf kind)) tree = none) : Refused kind tag body := by
  refine refused_of_accepted? ?_
  rw [accepted?_of_spells h, Body.value?, hnone]
  rfl

end

/-- The fields that count lines are numbers of 32 bits. -/
theorem type_of_countsLines {kind : CommandKind} {field : Field}
    (hfield : field ∈ Body.fields (BodyOf kind))
    (hname : field.name = "skipLineNum" ∨ field.name = "limit") : field.type = .word32 := by
  have htable : ∀ field ∈ Body.fields (BodyOf kind),
      field.name = "skipLineNum" ∨ field.name = "limit" → field.type = .word32 := by
    obtain ⟨operation, direction⟩ := kind
    cases operation <;> cases direction <;> decide
  exact htable field hfield hname

/-- **A body is read out of its document.** What a command is read as is told by the tree of the
document, whatever the blanks.

Of an object, only the members of fields count, in any order, and those whose keys are no texts: members
with other names may be added or removed, with any values. An object of just the fields, together with
such members, is read as the list of the same values in declared order is.

The command is refused for its body if a field has no member or more than one, if a list has not one item
for every field, if a count of lines is not a natural number of 32 bits, and if something other than
blanks stands behind the document. -/
theorem ofCommand_of_spells (kind : CommandKind) (tag : Int64) :
    let fields := Body.fields (BodyOf kind)
    let names := fields.map (·.name)
    (∀ tree body, Spells tree body → accepted? kind tag body = Body.value? tree) ∧
    (∀ members members' body body',
      (known names (named members)).Perm (known names (named members')) →
      Spells (.object members) body → Spells (.object members') body' →
      accepted? kind tag body = accepted? kind tag body') ∧
    (∀ members items body body', items.length = fields.length →
      (known names (named members)).Perm (zipNames fields items) →
      Spells (.object members) body → Spells (.list items) body' →
      accepted? kind tag body = accepted? kind tag body') ∧
    (∀ name ∈ names, ∀ members body, (named members).countP (·.1 = some name) ≠ 1 →
      Spells (.object members) body → Refused kind tag body) ∧
    (∀ items body, items.length ≠ fields.length → Spells (.list items) body →
      Refused kind tag body) ∧
    (∀ name ∈ names, name = "skipLineNum" ∨ name = "limit" → ∀ tree, ¬ IsWord32 tree →
      (∀ members body, (some name, tree) ∈ named members → Spells (.object members) body →
        Refused kind tag body) ∧
      ∀ items body, (some name, tree) ∈ zipNames fields items → Spells (.list items) body →
        Refused kind tag body) ∧
    ∀ tree body, Overruns tree body → Refused kind tag body := by
  intro fields names
  refine ⟨fun _ _ => accepted?_of_spells, ?_, ?_, ?_, ?_, ?_, fun _ _ => refused_of_overruns⟩
  · intro members members' body body' hperm h h'
    rw [accepted?_of_spells h, accepted?_of_spells h']
    exact congrArg (Option.map Body.ofValues) (objectValues?_of_perm hperm)
  · -- The list is that of the object with the names of the fields in front of its items.
    intro members items body body' hlength hperm h h'
    have hobject : objectValues? fields (named members) = listValues? fields items := by
      rw [← objectValues?_zipNames (distinct_bodyOf kind) hlength]
      refine objectValues?_of_perm ?_
      rwa [known_zipNames]
    rw [accepted?_of_spells h, accepted?_of_spells h']
    exact congrArg (Option.map Body.ofValues) hobject
  · intro name hname members body hcount h
    obtain ⟨field, hfield, rfl⟩ := List.mem_map.mp hname
    rw [List.countP_eq_length_filter] at hcount
    exact refused_of_recordValues? h
      (objectValues?_eq_none hfield (fieldValue?_eq_none_of_length hcount))
  · intro items body hlength h
    exact refused_of_recordValues? h (listValues?_eq_none_of_length hlength)
  · intro name hname hcounts tree hword
    have hnone (field : Field) (hfield : field ∈ fields) (heq : field.name = name) :
        field.type.value? tree = none := by
      rw [type_of_countsLines hfield (heq ▸ hcounts)]
      exact value?_word32_eq_none hword
    refine ⟨fun members body hmem h => ?_, fun items body hmem h => ?_⟩
    · obtain ⟨field, hfield, rfl⟩ := List.mem_map.mp hname
      exact refused_of_recordValues? h
        (objectValues?_eq_none hfield (fieldValue?_eq_none_of_mem hmem (hnone field hfield rfl)))
    · obtain ⟨field, hzip, heq⟩ := exists_of_mem_zipNames hmem
      exact refused_of_recordValues? h (listValues?_eq_none_of_mem hzip
        (hnone field (List.of_mem_zip hzip).1 (Option.some.inj heq).symm))

/-! ## A request in several spellings -/

/-- A member with a written name and a token. -/
def memberOf (member : String × List UInt8) : List UInt8 × Tree :=
  ((Bytes.toList member.1.toUTF8).flatMap Json.escapeByte, .scalar member.2)

theorem named_map_memberOf (written : List (String × List UInt8)) :
    named (written.map memberOf) = written.map fun member => (some member.1, .scalar member.2) := by
  rw [named, List.map_map]
  refine List.map_congr_left fun member _ => ?_
  exact congrArg (·, _) (Json.textOf?_escaped member.1)

/-- Written members are the members of an object. -/
theorem spelt_join {written : List (String × List UInt8)} (isFirst : Bool)
    (h : ∀ member ∈ written, Json.Scalar member.2) :
    Spelt (.members isFirst (written.map memberOf))
      (join isFirst written ++ [Json.Bracket.object.closing]) := by
  induction written generalizing isFirst with
  | nil => exact .noMember Json.blank_nil
  | cons member written ih =>
    obtain ⟨name, token⟩ := member
    obtain ⟨htoken, hwritten⟩ := List.forall_mem_cons.mp h
    have hlead : Json.Lead isFirst (if isFirst then [] else [Json.comma]) := by
      cases isFirst with
      | true => exact .first Json.blank_nil
      | false => exact .further Json.blank_nil Json.blank_nil
    have hmember := Spelt.member hlead (Json.stringBody_escaped (Bytes.toList name.toUTF8))
      Json.blank_nil Json.blank_nil (.scalar htoken) (ih false hwritten)
    simpa [join, Json.spell, memberOf] using hmember

theorem spells_object {written : List (String × List UInt8)} {body : ByteArray}
    (h : ∀ member ∈ written, Json.Scalar member.2)
    (hbody : Bytes.toList body =
      Json.openObject :: (join true written ++ [Json.Bracket.object.closing])) :
    Spells (.object (written.map memberOf)) body :=
  ⟨[], _, [], by rw [hbody, List.append_nil]; rfl, Json.blank_nil, .object (spelt_join true h),
    Json.blank_nil⟩

/-- Written items are the items of a list. -/
theorem spelt_flatMap {tokens : List (List UInt8)} (h : ∀ token ∈ tokens, Json.Scalar token) :
    Spelt (.items false (tokens.map Tree.scalar))
      (tokens.flatMap (Json.comma :: ·) ++ [Json.Bracket.list.closing]) := by
  induction tokens with
  | nil => exact .noItem Json.blank_nil
  | cons token tokens ih =>
    obtain ⟨htoken, htokens⟩ := List.forall_mem_cons.mp h
    have hlead : Json.Lead false [Json.comma] := .further Json.blank_nil Json.blank_nil
    rw [List.flatMap_cons, List.append_assoc]
    show Spelt _ ([Json.comma] ++ (token ++ _))
    exact .item hlead (.scalar htoken) (ih htokens)

theorem spells_list {token : List UInt8} {tokens : List (List UInt8)} {body : ByteArray}
    (h : ∀ item ∈ token :: tokens, Json.Scalar item)
    (hbody : Bytes.toList body = Json.openList ::
      (token ++ (tokens.flatMap (Json.comma :: ·) ++ [Json.Bracket.list.closing]))) :
    Spells (.list ((token :: tokens).map Tree.scalar)) body := by
  obtain ⟨htoken, htokens⟩ := List.forall_mem_cons.mp h
  exact ⟨[], _, [], by rw [hbody, List.append_nil]; rfl, Json.blank_nil,
    .list (.item (.first Json.blank_nil) (.scalar htoken) (spelt_flatMap htokens)), Json.blank_nil⟩

/-- The members of a request for a window. -/
def windowMembers (limit : Nat) : List (String × List UInt8) :=
  [("path", Json.spell "/a"), ("skipLineNum", Json.writeNatural 0),
    ("limit", Json.writeNatural limit)]

theorem scalar_windowMembers (limit : Nat) :
    ∀ member ∈ windowMembers limit, Json.Scalar member.2 := by
  simp [windowMembers, Json.scalar_spell, Json.scalar_writeNatural]

/-- The items of a request for a window. -/
def windowItems (limit : Nat) : List (List UInt8) :=
  [Json.spell "/a", Json.writeNatural 0, Json.writeNatural limit]

theorem scalar_windowItems (limit : Nat) : ∀ item ∈ windowItems limit, Json.Scalar item := by
  simp [windowItems, Json.scalar_spell, Json.scalar_writeNatural]

theorem named_windowMembers (limit : Nat) :
    named ((windowMembers limit).map memberOf) =
      zipNames (Body.fields RollViewLogRequest) ((windowItems limit).map Tree.scalar) := by
  rw [named_map_memberOf]
  rfl

theorem value?_windowMembers {limit : Nat} (h : limit ≤ 4294967295) :
    Body.value? (.object ((windowMembers limit).map memberOf)) =
      some (RollViewLogRequest.mk "/a" 0 (UInt32.ofNat limit)) := by
  have hpath : FieldType.text.value? (.scalar (Json.spell "/a")) = some "/a" :=
    (Json.stringOf?_string _).trans (Json.textOf?_escaped _)
  have hword {n : Nat} (hn : n ≤ 4294967295) :
      FieldType.word32.value? (.scalar (Json.writeNatural n)) = some (UInt32.ofNat n) :=
    congrArg (Option.map UInt32.ofNat) (Json.wordOf?_eq_some_iff.mpr ⟨hn, rfl⟩)
  rw [Body.value?, recordValues?, named_windowMembers, objectValues?_zipNames (by decide) rfl]
  simp only [Body.fields, windowItems, List.map_cons, List.map_nil, listValues?, hpath,
    hword (Nat.zero_le _), hword h, Option.bind_some]
  rfl

theorem not_isWord32 : ¬ IsWord32 (.scalar (Json.writeNatural 4294967296)) := by
  rintro ⟨n, hn, heq⟩
  have hvalues := congrArg Json.digitsValue (Tree.scalar.inj heq)
  rw [Json.digitsValue_writeNatural, Json.digitsValue_writeNatural] at hvalues
  omega

/-- A member that no request has: a list of a number and an object. -/
def foreignMember : List UInt8 × Tree :=
  ((Bytes.toList "more".toUTF8).flatMap Json.escapeByte,
    .list [.scalar (Json.writeNatural 1), .object ([("of", 0x6e :: Json.restOfNull)].map memberOf)])

/-- The member may stand in front of others, with blanks around its tokens. -/
theorem spells_foreignMember {written : List (String × List UInt8)} {body : ByteArray}
    (h : ∀ member ∈ written, Json.Scalar member.2)
    (hbody : Bytes.toList body =
      Bytes.toList " \x7b \"more\" : [1, \x7b\"of\":null\x7d]".toUTF8 ++
        (join false written ++ [Json.Bracket.object.closing, 0x0a])) :
    Spells (.object (foreignMember :: written.map memberOf)) body := by
  have hspace : Blank [0x20] := Json.blank_singleton rfl
  have hinner := @spelt_join [("of", 0x6e :: Json.restOfNull)] true (by simpa using .null)
  have hvalue := Spelt.list (.item (.first Json.blank_nil) (.scalar (Json.scalar_writeNatural 1))
    (.item (.further Json.blank_nil hspace) (.object hinner) (.noItem Json.blank_nil)))
  have hmembers := Spelt.member (.first hspace)
    (Json.stringBody_escaped (Bytes.toList "more".toUTF8)) hspace hspace hvalue (spelt_join false h)
  have hfront : Bytes.toList " \x7b \"more\" : [1, \x7b\"of\":null\x7d]".toUTF8 =
      0x20 :: Json.openObject :: 0x20 :: (Json.spell "more" ++ 0x20 :: 0x3a :: 0x20 ::
        Json.openList :: (Json.writeNatural 1 ++ Json.comma :: 0x20 :: Json.openObject ::
          (join true [("of", 0x6e :: Json.restOfNull)] ++
            [Json.Bracket.object.closing, Json.Bracket.list.closing]))) := by
    decide +kernel
  refine ⟨[0x20], _, [0x0a], ?_, hspace, .object hmembers, Json.blank_singleton rfl⟩
  rw [hbody, hfront, Json.spell]
  simp

/-- A request for a window is read from its members in declared order, from the same members turned
around behind one that nobody knows, and from the list of its values. It is refused without a field, with
a field twice, without an item, with too large a limit, and with a byte behind it. -/
theorem ofCommand_of_spells_window :
    let kind : CommandKind := ⟨.rollViewLog, .request⟩
    let plain := "\x7b\"path\":\"/a\",\"skipLineNum\":0,\"limit\":5\x7d".toUTF8
    let turned := (" \x7b \"more\" : [1, \x7b\"of\":null\x7d],\"limit\":5,\"path\":\"/a\"," ++
      "\"skipLineNum\":0\x7d\n").toUTF8
    let listed := "[\"/a\",0,5]".toUTF8
    let missing := "\x7b\"path\":\"/a\",\"limit\":5\x7d".toUTF8
    let twice := "\x7b\"path\":\"/a\",\"skipLineNum\":0,\"limit\":5,\"limit\":5\x7d".toUTF8
    let short := "[\"/a\",0]".toUTF8
    let large := "\x7b\"path\":\"/a\",\"skipLineNum\":0,\"limit\":4294967296\x7d".toUTF8
    let largeItem := "[\"/a\",0,4294967296]".toUTF8
    let overrun := "\x7b\"path\":\"/a\",\"skipLineNum\":0,\"limit\":5\x7d;".toUTF8
    accepted? kind 7 plain = some (RollViewLogRequest.mk "/a" 0 5) ∧
    accepted? kind 7 turned = accepted? kind 7 plain ∧
    accepted? kind 7 plain = accepted? kind 7 listed ∧
    Refused kind 7 missing ∧ Refused kind 7 twice ∧ Refused kind 7 short ∧
    Refused kind 7 large ∧ Refused kind 7 largeItem ∧ Refused kind 7 overrun := by
  intro kind plain turned listed missing twice short large largeItem overrun
  obtain ⟨hvalue, horder, hlist, hcount, hlength, hnumber, hoverrun⟩ := ofCommand_of_spells kind 7
  have hpath := Json.scalar_spell "/a"
  have hskip := Json.scalar_writeNatural 0
  have hlimit := Json.scalar_writeNatural 5
  have hplain : Spells (.object ((windowMembers 5).map memberOf)) plain :=
    spells_object (scalar_windowMembers 5) (by decide +kernel)
  have hlisted : Spells (.list ((windowItems 5).map Tree.scalar)) listed :=
    spells_list (scalar_windowItems 5) (by decide +kernel)
  refine ⟨?_, ?_, ?_, ?_, ?_, ?_, ?_, ?_, ?_⟩
  · exact (hvalue _ plain hplain).trans (value?_windowMembers (by decide))
  · have hturned := @spells_foreignMember [("limit", Json.writeNatural 5),
      ("path", Json.spell "/a"), ("skipLineNum", Json.writeNatural 0)] turned
      (by simp [hpath, hskip, hlimit]) (by decide +kernel)
    have hnamed : named (foreignMember :: [("limit", Json.writeNatural 5),
        ("path", Json.spell "/a"), ("skipLineNum", Json.writeNatural 0)].map memberOf) =
        (some "more", foreignMember.2) :: [(some "limit", .scalar (Json.writeNatural 5)),
          (some "path", .scalar (Json.spell "/a")),
          (some "skipLineNum", .scalar (Json.writeNatural 0))] := by
      have hmore := Json.textOf?_escaped "more"
      rw [named, List.map_cons, ← named, named_map_memberOf]
      exact congrArg (fun key => (key, foreignMember.2) :: _) hmore
    refine horder _ _ turned plain ?_ hturned hplain
    rw [hnamed, named_windowMembers]
    exact @List.perm_append_comm _ [(some "limit", Tree.scalar (Json.writeNatural 5))]
      [(some "path", Tree.scalar (Json.spell "/a")),
        (some "skipLineNum", Tree.scalar (Json.writeNatural 0))]
  · refine hlist _ _ plain listed rfl ?_ hplain hlisted
    rw [named_windowMembers]
    exact .of_eq (known_zipNames _ _)
  · have hmissing := @spells_object [("path", Json.spell "/a"), ("limit", Json.writeNatural 5)]
      missing (by simp [hpath, hlimit]) (by decide +kernel)
    refine hcount "skipLineNum" (by decide) _ missing ?_ hmissing
    rw [named_map_memberOf]
    decide
  · have htwice := @spells_object (windowMembers 5 ++ [("limit", Json.writeNatural 5)]) twice
      (by simp [windowMembers, hpath, hskip, hlimit]) (by decide +kernel)
    refine hcount "limit" (by decide) _ twice ?_ htwice
    rw [named_map_memberOf]
    decide
  · have hshort := @spells_list (Json.spell "/a") [Json.writeNatural 0] short
      (by simp [hpath, hskip]) (by decide +kernel)
    exact hlength _ short (by decide) hshort
  · have hlarge := @spells_object (windowMembers 4294967296) large (scalar_windowMembers _)
      (by decide +kernel)
    refine (hnumber "limit" (by decide) (.inr rfl) _ not_isWord32).1 _ large ?_ hlarge
    rw [named_windowMembers]
    exact .tail _ (.tail _ (.head _))
  · have hlargeItem := @spells_list (Json.spell "/a")
      [Json.writeNatural 0, Json.writeNatural 4294967296] largeItem (scalar_windowItems _)
      (by decide +kernel)
    refine (hnumber "limit" (by decide) (.inr rfl) _ not_isWord32).2 _ largeItem ?_ hlargeItem
    exact .tail _ (.tail _ (.head _))
  · have hmembers := spelt_join true (scalar_windowMembers 5)
    refine hoverrun _ overrun ⟨[], _, [0x3b], ?_, Json.blank_nil, .object hmembers, fun hblank => ?_⟩
    · decide +kernel
    · exact absurd (hblank 0x3b (List.mem_singleton_self _)) (by decide)

end RemoteLog.Message
