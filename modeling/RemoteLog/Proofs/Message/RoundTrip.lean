import RemoteLog.Message.Request
import RemoteLog.Message.Response
import RemoteLog.Proofs.Base64
import RemoteLog.Proofs.Json.Spelling

/-! # Bodies there and back

A record is written member by member, and the reader fills the slots of its fields one by one. The
states in between are those where the slots of the first `k` fields are filled.

* **`FieldType.spell type value`** — the bytes of a value; **`FieldType.read_spell`** reads it.
* **`members fields values`** — the keys of a record with the bytes of their values.
* **`Slots.fill fields k values`** — the slots once the first `k` fields have been read.
* **`toList_writeRecord`** — the bytes of a record; **`readRecord_writeRecord`** — it comes back if
  its fields have different names.
* **`Body.decode_encode`**, **`Body.ofCommand_encode`** — a body comes back, alone and from its
  command. -/

namespace RemoteLog.Message

/-! ## Values of fields -/

namespace FieldType

/-- **The bytes of a value.** -/
def spell : (type : FieldType) → type.Value → List UInt8
  | text, value => Json.spell value
  | bytes, value => Json.quote :: (Base64.symbols (Bytes.toList value) ++ [Json.quote])
  | word32, value => Json.writeNatural value.toNat
  | word64, value => Json.writeNatural value.toNat
  | flag, value => Json.spellFlag value
  | status, value => Json.spell value.name
  | texts, value => Json.spellAll value

theorem toList_writeTexts (out : ByteArray) (texts : List String) :
    Bytes.toList (writeTexts out texts) = Bytes.toList out ++ Json.spellMore texts := by
  induction texts generalizing out with
  | nil => rw [writeTexts, Json.spellMore, List.flatMap_nil, List.append_nil]
  | cons text texts ih => simp [writeTexts, ih, Json.spellMore]

/-- **The bytes of a value are written.** -/
theorem toList_write (type : FieldType) (out : ByteArray) (value : type.Value) :
    Bytes.toList (type.write out value) = Bytes.toList out ++ type.spell value := by
  cases type with
  | text | status => exact Json.toList_writeString ..
  | bytes => simp [write, spell, Base64.toList_encodeOnto]
  | word32 | word64 => exact Json.toList_pushAll ..
  | flag => cases value <;> simp [write, spell, Json.spellFlag]
  | texts =>
    cases value with
    | nil => simp [write, spell, Json.spellAll]
    | cons text texts => simp [write, spell, Json.spellAll, toList_writeTexts]

/-- Bytes come back from their symbols. -/
theorem read_bytes_spell (value : ByteArray) (rest : List UInt8) :
    bytes.read (bytes.spell value ++ rest) = .ok (value, rest) := by
  have hplain : ∀ b ∈ Base64.symbols (Bytes.toList value),
      0x23 ≤ b ∧ b < 0x80 ∧ b ≠ Json.backslash := by
    intro b hb
    obtain ⟨hlow, hhigh, hbackslash⟩ := Base64.printable_of_mem_symbols hb
    exact ⟨UInt8.le_trans (by decide) hlow, UInt8.lt_of_le_of_lt hhigh (by decide), hbackslash⟩
  obtain ⟨text, htext, hread⟩ := Json.readText_plain hplain
  have hstring : Json.readString "a string" (bytes.spell value ++ rest) = .ok (text, rest) := by
    rw [spell, List.cons_append, List.append_assoc, Json.readString,
      Json.skipSpace_cons (by decide)]
    exact (if_pos rfl).trans (hread rest)
  rw [FieldType.read, hstring]
  simp only [bind, Except.bind, htext, Base64.decode_symbols, pure, Except.pure]

/-- **A value comes back** if no more of a number follows. -/
theorem read_spell (type : FieldType) (value : type.Value) {rest : List UInt8}
    (h : Json.EndsNumber rest) : type.read (type.spell value ++ rest) = .ok (value, rest) := by
  cases type with
  | text => exact Json.readString_spell "a string" value rest
  | bytes => exact read_bytes_spell value rest
  | word32 =>
    have hlarge : value.toNat ≤ UInt32.size - 1 := Nat.le_pred_of_lt (UInt32.toNat_lt value)
    have hread := Json.readWord_writeNatural hlarge (by decide) "u32" h
    rw [FieldType.read, spell, hread]
    simp only [bind, Except.bind, pure, Except.pure, UInt32.ofNat_toNat]
  | word64 =>
    have hlarge : value.toNat ≤ UInt64.size - 1 := Nat.le_pred_of_lt (UInt64.toNat_lt value)
    have hread := Json.readWord_writeNatural hlarge (by decide) "u64" h
    rw [FieldType.read, spell, hread]
    simp only [bind, Except.bind, pure, Except.pure, UInt64.ofNat_toNat]
  | flag => exact Json.readFlag_spellFlag value rest
  | status =>
    have hknown : WindowStatus.names.find? (·.1 = value.name) = some (value.name, value) := by
      cases value <;> decide
    exact Json.readChoice_spell hknown rest
  | texts => exact Json.readStrings_spellAll value rest

end FieldType

/-! ## Members -/

/-- **The keys of a record** with the bytes of their values, in declared order. -/
def members : (fields : List Field) → Values fields → List (String × List UInt8)
  | [], () => []
  | field :: fields, (value, values) =>
    (field.name, field.type.spell value) :: members fields values

theorem length_members (fields : List Field) (values : Values fields) :
    (members fields values).length = fields.length := by
  induction fields with
  | nil => rfl
  | cons field fields ih => exact congrArg Nat.succ (ih values.2)

theorem map_fst_members (fields : List Field) (values : Values fields) :
    (members fields values).map (·.1) = fields.map (·.name) := by
  induction fields with
  | nil => rfl
  | cons field fields ih => exact congrArg (field.name :: ·) (ih values.2)

/-- The bytes of members, with a comma before all but the first. -/
def join (isFirst : Bool) : List (String × List UInt8) → List UInt8
  | [] => []
  | (key, value) :: more =>
    (if isFirst then [] else [Json.comma]) ++
      (Json.spell key ++ 0x3a :: (value ++ join false more))

/-- **The bytes of the members are written.** -/
theorem toList_writeMembers (fields : List Field) (isFirst : Bool) (out : ByteArray)
    (values : Values fields) :
    Bytes.toList (writeMembers fields isFirst out values) =
      Bytes.toList out ++ join isFirst (members fields values) := by
  induction fields generalizing isFirst out with
  | nil => exact (List.append_nil _).symm
  | cons field fields ih =>
    obtain ⟨value, values⟩ := values
    rw [writeMembers, ih, FieldType.toList_write, members, join]
    cases isFirst <;> simp

/-- **The slots once the first `k` fields have been read.** -/
def Slots.fill : (fields : List Field) → (k : Nat) → Values fields → Slots fields
  | [], _, () => ()
  | _ :: fields, 0, (_, values) => (Option.none, fill fields 0 values)
  | _ :: fields, k + 1, (value, values) => (some value, fill fields k values)

theorem Slots.fill_zero (fields : List Field) (values : Values fields) :
    Slots.fill fields 0 values = Slots.none fields := by
  induction fields with
  | nil => rfl
  | cons field fields ih => exact congrArg (Prod.mk Option.none) (ih values.2)

/-- All values are there once all fields have been read. -/
theorem Slots.toValues_fill {fields : List Field} {k : Nat} (h : fields.length ≤ k)
    (values : Values fields) : (Slots.fill fields k values).toValues fields = .ok values := by
  induction fields generalizing k with
  | nil => rfl
  | cons field fields ih =>
    obtain ⟨value, values⟩ := values
    match k, h with
    | k + 1, h =>
      have hrest := ih (Nat.le_of_succ_le_succ h) values
      simp only [Slots.fill, Slots.toValues, hrest]

/-- **The member of the next field fills its slot.** -/
theorem readMember_fill {fields : List Field} (hnames : (fields.map (·.name)).Nodup)
    {values : Values fields} {k : Nat} {key : String} {value : List UInt8}
    (hk : (members fields values)[k]? = some (key, value)) {rest : List UInt8}
    (hends : Json.EndsNumber rest) :
    readMember fields (Slots.fill fields k values) key (0x3a :: (value ++ rest)) =
      .ok (Slots.fill fields (k + 1) values, rest) := by
  induction fields generalizing k with
  | nil => cases hk
  | cons field fields ih =>
    obtain ⟨head, values⟩ := values
    rw [List.map_cons, List.nodup_cons] at hnames
    match k with
    | 0 =>
      -- The field is the next one, and its slot is still empty.
      obtain ⟨rfl, rfl⟩ : field.name = key ∧ field.type.spell head = value := by
        simpa [members] using hk
      have hread := field.type.read_spell head hends
      simp only [readMember, Slots.fill, Slots.fill_zero, Json.expectColon_colon, hread, bind,
        Except.bind, pure, Except.pure, if_true]
      exact if_neg Bool.false_ne_true
    | k + 1 =>
      -- The key belongs to a later field, so it is not the name of this one.
      have hk' : (members fields values)[k]? = some (key, value) := hk
      have hkey : field.name ≠ key := by
        rintro rfl
        have hmem := List.mem_map_of_mem (f := (·.1)) (List.mem_of_getElem? hk')
        rw [map_fst_members] at hmem
        exact hnames.1 hmem
      simp only [readMember, if_neg hkey, Slots.fill, ih hnames.2 hk', bind, Except.bind, pure,
        Except.pure]

/-- What follows a member ends a number. -/
theorem endsNumber_join (more : List (String × List UInt8)) (rest : List UInt8) :
    Json.EndsNumber (join false more ++ Json.Bracket.object.closing :: rest) := by
  rintro b tail h
  cases more with
  | nil =>
    obtain ⟨rfl, -⟩ := List.cons.inj h
    decide
  | cons first more =>
    obtain ⟨rfl, -⟩ := List.cons.inj h
    decide

/-- A member starts with its key, behind a comma if it is not the first. -/
theorem nextMember_join (isFirst : Bool) (key : String) (value : List UInt8)
    (more : List (String × List UInt8)) (rest : List UInt8) :
    Json.nextMember isFirst (join isFirst ((key, value) :: more) ++ rest) =
      .ok (.more ((Bytes.toList key.toUTF8).flatMap Json.escapeByte ++ Json.quote :: 0x3a ::
        (value ++ (join false more ++ rest)))) := by
  cases isFirst with
  | true =>
    simp only [join, if_true, List.nil_append, List.append_assoc, List.cons_append,
      Json.spell_append]
    exact Json.nextMember_first _
  | false =>
    simp only [join, List.append_assoc, List.cons_append, Json.spell_append]
    exact Json.nextMember_comma _

/-- **The members that are left fill their slots.** -/
theorem readMembers_join {fields : List Field} (hnames : (fields.map (·.name)).Nodup)
    (values : Values fields) {k : Nat} {left : List (String × List UInt8)}
    (hleft : (members fields values).drop k = left) {isFirst : Bool} {fuel : Nat}
    {rest : List UInt8} (hfuel : (join isFirst left).length < fuel) :
    readMembers fields fuel (Slots.fill fields k values) isFirst
        (join isFirst left ++ Json.Bracket.object.closing :: rest) =
      .ok (Slots.fill fields (k + left.length) values, rest) := by
  -- The induction is on the members that are left; `k` counts those whose slots are full.
  induction left generalizing k isFirst fuel with
  | nil =>
    match fuel, hfuel with
    | fuel + 1, _ =>
      simp only [join, List.nil_append, readMembers, Json.nextMember_closing, bind, Except.bind,
        pure, Except.pure]
      rfl
  | cons first left ih =>
    obtain ⟨key, value⟩ := first
    have hk : (members fields values)[k]? = some (key, value) := by
      rw [← List.head?_drop, hleft]
      rfl
    have hdrop : (members fields values).drop (k + 1) = left := by
      rw [← List.drop_drop, hleft]
      rfl
    match fuel, hfuel with
    | fuel + 1, hfuel =>
      have hmember := readMember_fill hnames hk (endsNumber_join left rest)
      -- One unit of fuel is spent on a member, which has at least its quotes and its colon.
      have hshort : (join false left).length < fuel := by
        simp only [join, Json.spell, List.length_append, List.length_cons] at hfuel
        omega
      simp only [readMembers, nextMember_join, Json.readText_escaped, hmember, ih hdrop hshort,
        bind, Except.bind, List.length_cons]
      congr 3
      omega

/-! ## Records -/

/-- **The bytes of a record** are its members between braces. -/
theorem toList_writeRecord (fields : List Field) (values : Values fields) :
    Bytes.toList (writeRecord fields values) =
      Json.openObject :: (join true (members fields values) ++ [Json.Bracket.object.closing]) := by
  rw [writeRecord, Bytes.toList_push, toList_writeMembers]
  simp

/-- **A record comes back** if its fields have different names. -/
theorem readRecord_writeRecord (name : String) {fields : List Field}
    (hnames : (fields.map (·.name)).Nodup) (values : Values fields) :
    Json.readWhole (readRecord name fields) (Bytes.toList (writeRecord fields values)) =
      .ok values := by
  have hread : readMembers fields
      (join true (members fields values) ++ [Json.Bracket.object.closing]).length
      (Slots.none fields) true
      (join true (members fields values) ++ [Json.Bracket.object.closing]) =
        .ok (Slots.fill fields fields.length values, []) := by
    rw [← Slots.fill_zero fields values, readMembers_join hnames values List.drop_zero (by simp),
      length_members, Nat.zero_add]
  have hvalues := Slots.toValues_fill (Nat.le_refl fields.length) values
  -- Behind the closing brace nothing is left, so the whole text was read.
  have hrecord : readRecord name fields (Json.openObject ::
      (join true (members fields values) ++ [Json.Bracket.object.closing])) = .ok (values, []) := by
    rw [readRecord, Json.skipSpace_cons (by decide)]
    refine (if_neg (by decide)).trans ((if_pos rfl).trans ?_)
    simp only [hread, hvalues, bind, Except.bind, pure, Except.pure]
  rw [toList_writeRecord, Json.readWhole, hrecord]
  simp only [bind, Except.bind]
  exact if_pos rfl

namespace Body

variable {α : Type} [Body α]

/-- The fields of a body have different names. -/
def Distinct (α : Type) [Body α] : Prop := ((fields α).map (·.name)).Nodup

instance (α : Type) [Body α] : Decidable (Distinct α) :=
  inferInstanceAs (Decidable (List.Nodup _))

/-- **A body comes back.** -/
theorem decode_encode (h : Distinct α) (a : α) : decode (encode a) = .ok a := by
  rw [decode, encode, readRecord_writeRecord (name α) h]
  exact congrArg Except.ok (ofValues_toValues a)

/-- A body fits a frame, or its size is reported. -/
theorem toCommand_eq (a : α) (tag : Int64) :
    toCommand a tag =
      if (encode a).size > maxBody then .error (.tooLarge (encode a).size)
      else .ok ⟨kind α, tag, encode a⟩ := rfl

/-- A body makes a command exactly if it fits a frame. -/
theorem toCommand_eq_ok_iff {a : α} {tag : Int64} {c : Command} :
    toCommand a tag = .ok c ↔ (encode a).size ≤ maxBody ∧ c = ⟨kind α, tag, encode a⟩ := by
  rw [toCommand_eq]
  by_cases hsize : (encode a).size > maxBody
  · simp [hsize, Nat.not_le_of_lt hsize]
  · simp [hsize, Nat.le_of_not_lt hsize, eq_comm]

/-- A command of the right kind is judged by its body alone. -/
theorem ofCommand_eq_of_kind (tag : Int64) (body : ByteArray) :
    ofCommand ⟨kind α, tag, body⟩ =
      (decode body : Except Json.Fault α).mapError .badBody := by
  rw [ofCommand, if_neg (fun hne => hne rfl)]
  cases (decode body : Except Json.Fault α) <;> rfl

/-- **A body comes back from its command.** -/
theorem ofCommand_encode (h : Distinct α) (a : α) (tag : Int64) :
    ofCommand ⟨kind α, tag, encode a⟩ = .ok a := by
  rw [ofCommand_eq_of_kind, decode_encode h]
  rfl

/-- A command of another kind is refused before its text is read. -/
theorem ofCommand_of_kind_ne {c : Command} (h : c.kind ≠ kind α) :
    (ofCommand c : Except ProtocolError α) = .error (.wrongKind (kind α) c.kind) := by
  rw [ofCommand, if_pos h]

end Body

end RemoteLog.Message
