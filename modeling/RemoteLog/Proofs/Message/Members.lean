import RemoteLog.Proofs.Message.Fields
import RemoteLog.Proofs.Message.RoundTrip

/-! # Members in any order

The slots of a record do not tell in which order they were filled. An object stands for a record if every
field has one member and the member stands for a value; whatever else the object has does not count, as
long as its keys are texts.

* **`memberValues? fields members`** — one value for every field; **`objectValues?`** — the same if all
  keys are texts.
* **`takeAll_toValues`** — it is what the slots hold in the end, if the fields have different names.
* **`known names members`**, **`objectValues?_of_perm`** — only the members of fields count, in any
  order.
* **`objectValues?_zip`** — an object of just the fields stands for what the list of its values stands
  for. -/

namespace RemoteLog.Message

open Json (Tree)

/-! ## One member for a field -/

/-- The element of a list of one. -/
def sole? {α : Type} : List α → Option α
  | [a] => some a
  | _ => none

theorem sole?_eq_some_iff {α : Type} {l : List α} {a : α} : sole? l = some a ↔ l = [a] := by
  constructor
  · intro h
    match l, h with
    | [_], h => cases h; rfl
  · rintro rfl
    rfl

theorem sole?_of_perm {α : Type} {l l' : List α} (h : l.Perm l') : sole? l = sole? l' := by
  ext a
  rw [sole?_eq_some_iff, sole?_eq_some_iff]
  constructor
  · rintro rfl
    exact (List.singleton_perm.mp h).symm
  · rintro rfl
    exact List.perm_singleton.mp h

/-- **The value of a field among members:** the field has one of them, and it stands for a value. -/
def fieldValue? (field : Field) (members : List (Option String × Tree)) : Option field.type.Value :=
  (sole? (members.filter (·.1 = some field.name))).bind fun member => field.type.value? member.2

/-- **The values of all fields among members.** -/
def memberValues? : (fields : List Field) → List (Option String × Tree) → Option (Values fields)
  | [], _ => some ()
  | field :: fields, members => (fieldValue? field members).bind fun value =>
    (memberValues? fields members).map (Values.cons value)

/-- **The values of all fields in an object:** all of its keys are texts. -/
def objectValues? (fields : List Field) (members : List (Option String × Tree)) :
    Option (Values fields) :=
  if ∀ member ∈ members, member.1.isSome then memberValues? fields members else none

/-! ## Slots in the end -/

section

variable {field : Field} {fields : List Field} {members : List (Option String × Tree)}

theorem Slots.take_cons (slot : Option field.type.Value) (slots : Slots fields) (key : String)
    (tree : Tree) :
    Slots.take (field :: fields) (Slots.cons slot slots) key tree =
      if field.name = key then
        if slot.isSome then Option.none
        else (field.type.value? tree).map fun value => Slots.cons (some value) slots
      else (Slots.take fields slots key tree).map (Slots.cons slot) := rfl

theorem Slots.takeAll_some (slots : Slots fields) (key : String) (tree : Tree)
    (members : List (Option String × Tree)) :
    Slots.takeAll fields slots ((some key, tree) :: members) =
      (Slots.take fields slots key tree).bind fun slots => Slots.takeAll fields slots members := rfl

/-- A member of no field does nothing. -/
theorem Slots.take_of_not_mem {key : String} (h : key ∉ fields.map (·.name)) (slots : Slots fields)
    (tree : Tree) : Slots.take fields slots key tree = some slots := by
  induction fields with
  | nil => rfl
  | cons field fields ih =>
    rw [List.map_cons, List.mem_cons, not_or] at h
    obtain ⟨slot, slots⟩ := slots
    rw [Slots.take, if_neg (Ne.symm h.1), ih h.2]
    rfl

/-- A key that is no text is refused. -/
theorem Slots.takeAll_of_none {member : Option String × Tree} (h : member ∈ members)
    (hkey : member.1.isSome = false) (slots : Slots fields) :
    Slots.takeAll fields slots members = Option.none := by
  induction members generalizing slots with
  | nil => cases h
  | cons first members ih =>
    obtain ⟨key, tree⟩ := first
    cases key with
    | none => rfl
    | some key =>
      obtain h | h := List.mem_cons.mp h
      · rw [h] at hkey
        cases hkey
      · rw [Slots.takeAll_some]
        cases Slots.take fields slots key tree with
        | none => rfl
        | some slots => exact ih h slots

/-- Without fields, there is nothing to fill. -/
theorem Slots.takeAll_nil (hkeys : ∀ member ∈ members, member.1.isSome) (slots : Slots []) :
    Slots.takeAll [] slots members = some slots := by
  induction members with
  | nil => rfl
  | cons member members ih =>
    obtain ⟨key, tree⟩ := member
    match key, hkeys (key, tree) (List.mem_cons_self ..) with
    | some key, _ => exact ih fun member h => hkeys member (List.mem_cons_of_mem _ h)

/-- What the members of one field do to its slot. -/
def fillSlot (field : Field) : Option field.type.Value → List (Option String × Tree) →
    Option (Option field.type.Value)
  | slot, [] => some slot
  | slot, member :: members =>
    if slot.isSome then none
    else (field.type.value? member.2).bind fun value => fillSlot field (some value) members

/-- **The slots of different fields are filled apart.** -/
theorem Slots.takeAll_cons (hname : field.name ∉ fields.map (·.name))
    (hkeys : ∀ member ∈ members, member.1.isSome) (slot : Option field.type.Value)
    (slots : Slots fields) :
    Slots.takeAll (field :: fields) (Slots.cons slot slots) members =
      (fillSlot field slot (members.filter (·.1 = some field.name))).bind fun slot =>
        (Slots.takeAll fields slots members).map (Slots.cons slot) := by
  induction members generalizing slot slots with
  | nil => rfl
  | cons member members ih =>
    obtain ⟨key, tree⟩ := member
    have hlater := ih fun member h => hkeys member (List.mem_cons_of_mem _ h)
    match key, hkeys (key, tree) (List.mem_cons_self ..) with
    | some key, _ =>
      rw [Slots.takeAll_some, Slots.takeAll_some, Slots.take_cons]
      by_cases hkey : field.name = key
      · -- The member fills the slot of this field, and the other slots are left alone.
        rw [if_pos hkey, Slots.take_of_not_mem (hkey ▸ hname),
          List.filter_cons_of_pos (by simp [hkey]), fillSlot]
        by_cases hslot : slot.isSome
        · rw [if_pos hslot, if_pos hslot]
          rfl
        · rw [if_neg hslot, if_neg hslot]
          cases field.type.value? tree with
          | none => rfl
          | some value => exact hlater (some value) slots
      · rw [if_neg hkey, List.filter_cons_of_neg (by simpa using fun h => hkey h.symm)]
        cases Slots.take fields slots key tree with
        | none => cases fillSlot field slot (members.filter (·.1 = some field.name)) <;> rfl
        | some slots => exact hlater slot slots

theorem Slots.toValues_cons (slot : Option field.type.Value) (slots : Slots fields) :
    ((Slots.cons slot slots).toValues (field :: fields)).toOption =
      slot.bind fun value => (slots.toValues fields).toOption.map (Values.cons value) := by
  cases slot with
  | none => rfl
  | some value =>
    cases hvalues : slots.toValues fields <;> simp only [Slots.cons, Slots.toValues, hvalues] <;> rfl

/-- The slot of a field holds a value just if one member filled it. -/
theorem fillSlot_none (field : Field) (members : List (Option String × Tree)) :
    (fillSlot field none members).bind id =
      (sole? members).bind fun member => field.type.value? member.2 := by
  -- The slot stays empty without a member, and a second member is refused.
  match members with
  | [] => rfl
  | [member] => cases hvalue : field.type.value? member.2 <;> simp [fillSlot, sole?, hvalue]
  | member :: _ :: _ =>
    cases hvalue : field.type.value? member.2 <;> simp [fillSlot, sole?, hvalue]

/-- **What the slots hold in the end** does not depend on the order of the members. -/
theorem takeAll_toValues (hnames : (fields.map (·.name)).Nodup)
    (members : List (Option String × Tree)) :
    ((Slots.takeAll fields (Slots.none fields) members).bind fun slots =>
        (slots.toValues fields).toOption) = objectValues? fields members := by
  rw [objectValues?]
  split
  · next hkeys =>
    -- One field is taken away at a time; what the others hold does not depend on its members.
    induction fields with
    | nil => rw [Slots.takeAll_nil hkeys]; rfl
    | cons field fields ih =>
      rw [List.map_cons, List.nodup_cons] at hnames
      have hlater := ih hnames.2
      have hfirst := Slots.takeAll_cons hnames.1 hkeys Option.none (Slots.none fields)
      rw [memberValues?, ← hlater, fieldValue?, ← fillSlot_none]
      refine (congrArg (Option.bind · _) hfirst).trans ?_
      cases fillSlot field none (members.filter (·.1 = some field.name)) with
      | none => rfl
      | some slot =>
        cases Slots.takeAll fields (Slots.none fields) members with
        | none => cases slot <;> rfl
        | some slots => exact Slots.toValues_cons slot slots
  · next hkeys =>
    obtain ⟨member, hmember, hkey⟩ : ∃ member ∈ members, member.1.isSome = false := by
      simpa using hkeys
    rw [Slots.takeAll_of_none hmember hkey]
    rfl

/-! ## Which members count -/

/-- **The members that count:** those of the named fields, and those whose keys are no texts. -/
def known (names : List String) (members : List (Option String × Tree)) :
    List (Option String × Tree) :=
  members.filter fun member => member.1.all (· ∈ names)

theorem isSome_known_iff {names : List String} :
    (∀ member ∈ known names members, member.1.isSome) ↔ ∀ member ∈ members, member.1.isSome := by
  constructor
  · intro h member hmember
    cases hkey : member.1 with
    | some key => rfl
    | none =>
      -- A key that is no text is always among those that count.
      have hknown := h member (List.mem_filter.mpr ⟨hmember, by rw [hkey]; rfl⟩)
      rwa [hkey] at hknown
  · exact fun h member hmember => h member (List.mem_filter.mp hmember).1

theorem fieldValue?_known {names : List String} (h : field.name ∈ names) :
    fieldValue? field (known names members) = fieldValue? field members := by
  have hfilter : (known names members).filter (·.1 = some field.name) =
      members.filter (·.1 = some field.name) := by
    rw [known, List.filter_filter]
    refine List.filter_congr fun member _ => ?_
    by_cases hkey : member.1 = some field.name
    · simp [hkey, h]
    · simp [hkey]
  rw [fieldValue?, fieldValue?, hfilter]

theorem fieldValue?_of_perm {members' : List (Option String × Tree)} (h : members.Perm members') :
    fieldValue? field members = fieldValue? field members' := by
  rw [fieldValue?, fieldValue?, sole?_of_perm (h.filter _)]

/-- A member of another field does not count. -/
theorem fieldValue?_cons_of_ne {member : Option String × Tree} (h : member.1 ≠ some field.name) :
    fieldValue? field (member :: members) = fieldValue? field members := by
  rw [fieldValue?, List.filter_cons_of_neg (by simpa using h), ← fieldValue?]

/-- The only member of a field stands for its value. -/
theorem fieldValue?_cons_of_not_mem (h : ∀ member ∈ members, member.1 ≠ some field.name)
    (tree : Tree) : fieldValue? field ((some field.name, tree) :: members) = field.type.value? tree := by
  have hfilter : members.filter (·.1 = some field.name) = [] :=
    List.filter_eq_nil_iff.mpr (by simpa using h)
  rw [fieldValue?, List.filter_cons_of_pos (by simp), hfilter]
  rfl

theorem memberValues?_congr {members' : List (Option String × Tree)}
    (h : ∀ field ∈ fields, fieldValue? field members = fieldValue? field members') :
    memberValues? fields members = memberValues? fields members' := by
  induction fields with
  | nil => rfl
  | cons field fields ih =>
    rw [memberValues?, memberValues?, h field (List.mem_cons_self ..),
      ih fun field hfield => h field (List.mem_cons_of_mem _ hfield)]

/-- **Only the members of fields count, in any order.** -/
theorem objectValues?_of_perm {members' : List (Option String × Tree)}
    (h : (known (fields.map (·.name)) members).Perm (known (fields.map (·.name)) members')) :
    objectValues? fields members = objectValues? fields members' := by
  have hvalues : memberValues? fields members = memberValues? fields members' := by
    refine memberValues?_congr fun field hfield => ?_
    have hname : field.name ∈ fields.map (·.name) := List.mem_map_of_mem hfield
    rw [← fieldValue?_known hname, fieldValue?_of_perm h, fieldValue?_known hname]
  have hkeys : (∀ member ∈ members, member.1.isSome) ↔ ∀ member ∈ members', member.1.isSome := by
    rw [← @isSome_known_iff members, ← @isSome_known_iff members']
    exact forall_congr' fun member => imp_congr_left h.mem_iff
  rw [objectValues?, objectValues?, hvalues]
  exact if_congr hkeys rfl rfl

/-- The names of fields with items. -/
def zipNames (fields : List Field) (items : List Tree) : List (Option String × Tree) :=
  (fields.map fun field => some field.name).zip items

theorem zipNames_cons (item : Tree) (items : List Tree) :
    zipNames (field :: fields) (item :: items) =
      (some field.name, item) :: zipNames fields items := rfl

theorem exists_of_mem_zipNames {items : List Tree} {member : Option String × Tree}
    (h : member ∈ zipNames fields items) :
    ∃ field, (field, member.2) ∈ fields.zip items ∧ member.1 = some field.name := by
  rw [zipNames, List.zip_map_left] at h
  obtain ⟨⟨field, item⟩, hmem, rfl⟩ := List.mem_map.mp h
  exact ⟨field, hmem, rfl⟩

/-- Every name of a field counts. -/
theorem known_zipNames (fields : List Field) (items : List Tree) :
    known (fields.map (·.name)) (zipNames fields items) = zipNames fields items := by
  refine List.filter_eq_self.mpr fun member hmember => ?_
  obtain ⟨field, hmem, hname⟩ := exists_of_mem_zipNames hmember
  rw [hname]
  exact decide_eq_true (List.mem_map_of_mem (List.of_mem_zip hmem).1)

/-- An object of just the fields stands for what the list of its values stands for. -/
theorem memberValues?_zipNames (hnames : (fields.map (·.name)).Nodup) {items : List Tree}
    (h : items.length = fields.length) :
    memberValues? fields (zipNames fields items) = listValues? fields items := by
  induction fields generalizing items with
  | nil =>
    rw [List.length_eq_zero_iff.mp h]
    rfl
  | cons field fields ih =>
    match items, h with
    | item :: items, h =>
      rw [List.map_cons, List.nodup_cons] at hnames
      have hother : ∀ member ∈ zipNames fields items, member.1 ≠ some field.name := by
        intro member hmember hkey
        obtain ⟨other, hmem, hname⟩ := exists_of_mem_zipNames hmember
        rw [hname, Option.some_inj] at hkey
        exact hnames.1 (hkey ▸ List.mem_map_of_mem (List.of_mem_zip hmem).1)
      have hlater : memberValues? fields ((some field.name, item) :: zipNames fields items) =
          memberValues? fields (zipNames fields items) := by
        refine memberValues?_congr fun other hmem => fieldValue?_cons_of_ne ?_
        intro hkey
        rw [Option.some_inj] at hkey
        exact hnames.1 (hkey ▸ List.mem_map_of_mem hmem)
      rw [zipNames_cons, memberValues?, fieldValue?_cons_of_not_mem hother, hlater, ih hnames.2 (Nat.succ.inj h), listValues?]

/-- **An object of just the fields** stands for what the list of its values stands for. -/
theorem objectValues?_zipNames (hnames : (fields.map (·.name)).Nodup) {items : List Tree}
    (h : items.length = fields.length) :
    objectValues? fields (zipNames fields items) = listValues? fields items := by
  rw [objectValues?, if_pos, memberValues?_zipNames hnames h]
  intro member hmember
  obtain ⟨field, -, hname⟩ := exists_of_mem_zipNames hmember
  rw [hname]
  rfl

/-! ## What is refused -/

theorem fieldValue?_eq_none_of_length (h : (members.filter (·.1 = some field.name)).length ≠ 1) :
    fieldValue? field members = none := by
  cases hsole : sole? (members.filter (·.1 = some field.name)) with
  | none => rw [fieldValue?, hsole]; rfl
  | some member => 
    rw [sole?_eq_some_iff.mp hsole] at h
    exact absurd rfl h

theorem fieldValue?_eq_none_of_mem {tree : Tree} (hmem : (some field.name, tree) ∈ members)
    (h : field.type.value? tree = none) : fieldValue? field members = none := by
  cases hsole : sole? (members.filter (·.1 = some field.name)) with
  | none => rw [fieldValue?, hsole]; rfl
  | some member => 
    have hmem' : (some field.name, tree) ∈ members.filter (·.1 = some field.name) :=
      List.mem_filter.mpr ⟨hmem, by simp⟩
    rw [sole?_eq_some_iff.mp hsole, List.mem_singleton] at hmem'
    rw [fieldValue?, hsole, ← hmem']
    exact h

/-- An object stands for nothing if one of the fields has no value in it. -/
theorem objectValues?_eq_none (hmem : field ∈ fields) (h : fieldValue? field members = none) :
    objectValues? fields members = none := by
  have hvalues : memberValues? fields members = none := by
    induction fields with
    | nil => cases hmem
    | cons first fields ih =>
      rw [memberValues?]
      obtain rfl | hmem := List.mem_cons.mp hmem
      · rw [h]
        rfl
      · rw [ih hmem]
        cases fieldValue? first members <;> rfl
  rw [objectValues?, hvalues, ite_self]

/-- A list stands for nothing if it has not one item for every field. -/
theorem listValues?_eq_none_of_length {items : List Tree} (h : items.length ≠ fields.length) :
    listValues? fields items = none := by
  induction fields generalizing items with
  | nil =>
    cases items with
    | nil => exact absurd rfl h
    | cons => rfl
  | cons field fields ih =>
    cases items with
    | nil => rfl
    | cons item items =>
      have hlater := ih fun heq => h (congrArg Nat.succ heq)
      rw [listValues?, hlater]
      cases field.type.value? item <;> rfl

/-- A list stands for nothing if one of its items does not stand for a value of its field. -/
theorem listValues?_eq_none_of_mem {items : List Tree} {tree : Tree}
    (hmem : (field, tree) ∈ fields.zip items) (h : field.type.value? tree = none) :
    listValues? fields items = none := by
  induction fields generalizing items with
  | nil => cases hmem
  | cons first fields ih =>
    cases items with
    | nil => cases hmem
    | cons item items =>
      rw [listValues?]
      rw [List.zip_cons_cons, List.mem_cons] at hmem
      obtain heq | hmem := hmem
      · cases heq
        rw [h]
        rfl
      · rw [ih hmem]
        cases first.type.value? item <;> rfl

end

/-! ## Records -/

/-- **The record that a document stands for:** the members of an object in any order, or the items of a
list in declared order. -/
def recordValues? (fields : List Field) : Tree → Option (Values fields)
  | .list items => listValues? fields items
  | .object members => objectValues? fields (named members)
  | .scalar _ => none

/-- **A record is read,** with the blanks in front of it. -/
theorem readRecord_spelt {fields : List Field} (hnames : (fields.map (·.name)).Nodup) {tree : Tree}
    {before text : List UInt8} (hbefore : Json.Blank before) (h : Json.Spelt (.value tree) text)
    (name : String) (rest : List UInt8) :
    (readRecord name fields (before ++ (text ++ rest))).toOption =
      (recordValues? fields tree).map fun values => (values, rest) := by
  rw [readRecord, Json.skipSpace_append hbefore]
  cases h with
  | scalar h =>
    obtain ⟨b, more, rfl, hstarts, hlist, hobject⟩ := h.exists_starts
    rw [List.cons_append, Json.skipSpace_cons hstarts.not_space]
    exact congrArg Except.toOption ((if_neg hlist).trans (if_neg hobject))
  | list h =>
    have hread := readItems_spelt (expectedItems name fields.length) fields 0 h rest
    rw [List.cons_append, Json.skipSpace_cons (by decide)]
    refine (congrArg Except.toOption (if_pos rfl)).trans ?_
    show (readItems _ fields 0 _ >>= fun read => Json.closeList read.2 >>= fun rest =>
      Except.ok (read.1, rest)).toOption = _
    rw [Json.toOption_bind, recordValues?, ← hread]
    congr 1
    funext read
    cases Json.closeList read.2 <;> rfl
  | @object members text h =>
    have hread := readMembers_spelt h (Slots.none fields) (Nat.le_add_right _ rest.length) rest
    rw [← List.length_append] at hread
    rw [List.cons_append, Json.skipSpace_cons (by decide)]
    refine (congrArg Except.toOption ((if_neg (by decide)).trans (if_pos rfl))).trans ?_
    show (readMembers _ _ _ _ _ >>= fun read => Slots.toValues fields read.1 >>= fun values =>
      Except.ok (values, read.2)).toOption = _
    rw [Json.toOption_bind, hread, recordValues?, ← takeAll_toValues hnames]
    cases Slots.takeAll fields (Slots.none fields) (named members) with
    | none => rfl
    | some slots =>
      show (Slots.toValues fields slots >>= fun values => Except.ok (values, rest)).toOption =
        (Slots.toValues fields slots).toOption.map fun values => (values, rest)
      cases slots.toValues fields <;> rfl

namespace Body

variable {α : Type} [Body α]

/-- **The body that a document stands for.** -/
def value? (tree : Tree) : Option α := (recordValues? (fields α) tree).map ofValues

/-- **A body is decoded** just if its document stands for one and only blanks follow. -/
theorem decode_spelt (hnames : Distinct α) {tree : Tree} {body : ByteArray}
    {before text behind : List UInt8} (hbody : Bytes.toList body = before ++ (text ++ behind))
    (hbefore : Json.Blank before) (h : Json.Spelt (.value tree) text) :
    (decode body : Except Json.Fault α).toOption =
      if Json.skipSpace behind = [] then value? tree else none := by
  have hread := readRecord_spelt hnames hbefore h (name α) behind
  rw [decode, Json.readWhole, hbody, Json.toOption_bind, Json.toOption_bind, hread, value?]
  cases recordValues? (fields α) tree with
  | none => exact (ite_self _).symm
  | some values =>
    simp only [Option.map_some, Option.bind_some]
    split <;> rfl

end Body

end RemoteLog.Message
