import RemoteLog.Proofs.Base64.Canonical
import RemoteLog.Proofs.Message.RoundTrip

/-! # Log bytes in their field

The bytes of a log travel as text, in the only field of their body. The body is read like one with the
text itself in this field, wherever the field stands in it and however its characters are written; and
the text is then read as symbols. So a body of log bytes is refused if its text is not the one that is
written for any bytes.

* **`Follows convert first second`** — a reading that converts what another one gives.
* **`readRecord_follows`** — bytes in a field against the text in it.
* **`bytesText body`** — the text in the field of a body of log bytes.
* **`log_bytes_have_one_spelling`** — only what is written for log bytes is read as them. -/

namespace RemoteLog.Message

/-! ## Readings that convert -/

/-- **A reading converts what another one gives,** and leaves the same behind it. It fails where the
other one fails, perhaps for another reason, which was found before. -/
def Follows {α β γ : Type} (convert : α → Except Json.Fault β) (first : Except Json.Fault (α × γ))
    (second : Except Json.Fault (β × γ)) : Prop :=
  match first with
  | .ok (a, rest) => second = (convert a).map (·, rest)
  | .error _ => ∃ fault, second = .error fault

/-- What can be converted is read, with the same behind it. -/
theorem Follows.of_ok {α β γ : Type} {convert : α → Except Json.Fault β} {a : α} {b : β}
    (h : convert a = .ok b) (rest : γ) : Follows convert (.ok (a, rest)) (.ok (b, rest)) := by
  show _ = Except.map _ (convert a)
  rw [h]
  rfl

/-- **Readings go on behind each other.** What cannot be converted is kept by the next step, so that
in the end it is still what cannot be converted. -/
theorem Follows.bind {α β γ α' β' γ' : Type} {convert : α → Except Json.Fault β}
    {convert' : α' → Except Json.Fault β'} {first : Except Json.Fault (α × γ)}
    {second : Except Json.Fault (β × γ)} (h : Follows convert first second)
    {next : α × γ → Except Json.Fault (α' × γ')} {next' : β × γ → Except Json.Fault (β' × γ')}
    (hok : ∀ a b rest, convert a = .ok b → Follows convert' (next (a, rest)) (next' (b, rest)))
    (hkept : ∀ a fault rest a' rest', convert a = .error fault → next (a, rest) = .ok (a', rest') →
      convert' a' = .error fault) :
    Follows convert' (first >>= next) (second >>= next') := by
  match first, h with
  | .error _, ⟨fault, hfault⟩ =>
    subst hfault
    exact ⟨fault, rfl⟩
  | .ok (a, rest), hsecond =>
    subst hsecond
    cases hconvert : convert a with
    | ok b => exact hok a b rest hconvert
    | error fault =>
      -- The second reading has failed already. The first one goes on, and either fails later or
      -- still has what cannot be converted.
      show Follows convert' (next (a, rest)) (.error fault)
      cases hnext : next (a, rest) with
      | error _ => exact ⟨fault, rfl⟩
      | ok pair =>
        show Except.error fault = (convert' pair.1).map (·, pair.2)
        rw [hkept a fault rest pair.1 pair.2 hconvert hnext]
        rfl

/-- A reading that converts what another one gives does so to the end of the text. -/
theorem Follows.readWhole {α β : Type} {convert : α → Except Json.Fault β}
    {reader : List UInt8 → Except Json.Fault (α × List UInt8)}
    {reader' : List UInt8 → Except Json.Fault (β × List UInt8)} {s : List UInt8}
    (h : Follows convert (reader s) (reader' s)) :
    (∀ a, Json.readWhole reader s = .ok a → Json.readWhole reader' s = convert a) ∧
      ∀ fault, Json.readWhole reader s = .error fault →
        ∃ fault', Json.readWhole reader' s = .error fault' := by
  cases hfirst : reader s with
  | error fault =>
    rw [hfirst] at h
    obtain ⟨fault', hsecond⟩ := h
    rw [Json.readWhole, Json.readWhole, hfirst, hsecond]
    refine ⟨fun a h => ?_, fun _ _ => ⟨fault', rfl⟩⟩
    cases h
  | ok read =>
    obtain ⟨a, rest⟩ := read
    rw [hfirst] at h
    have hwhole : Json.readWhole reader s =
        if Json.skipSpace rest = [] then .ok a else .error .trailingCharacters := by
      rw [Json.readWhole, hfirst]
      rfl
    have hwhole' : Json.readWhole reader' s = convert a >>= fun b =>
        if Json.skipSpace rest = [] then .ok b else .error .trailingCharacters := by
      rw [Json.readWhole, show reader' s = (convert a).map (·, rest) from h]
      cases convert a <;> rfl
    rw [hwhole, hwhole']
    by_cases hrest : Json.skipSpace rest = []
    · simp only [if_pos hrest]
      constructor
      · rintro _ ⟨⟩
        cases convert a <;> rfl
      · rintro _ ⟨⟩
    · simp only [if_neg hrest]
      constructor
      · rintro _ ⟨⟩
      · intro _ _
        cases convert a with
        | error fault => exact ⟨fault, rfl⟩
        | ok b => exact ⟨_, rfl⟩

/-! ## A field of bytes -/

/-- The bytes that a text of symbols stands for. -/
def bytesOf (text : String) : Except Json.Fault ByteArray :=
  match Base64.decode (Bytes.toList text.toUTF8) with
  | .ok value => .ok value
  | .error fault => .error (.badBytes fault)

theorem bytesOf_eq_ok_iff {text : String} {b : ByteArray} :
    bytesOf text = .ok b ↔ Bytes.toList text.toUTF8 = Base64.symbols (Bytes.toList b) := by
  rw [← Base64.decode_eq_ok_iff, bytesOf]
  split <;> simp_all

/-- What is wrong with a text of symbols is wrong with its symbols. -/
theorem exists_of_bytesOf_error {text : String} {fault : Json.Fault}
    (h : bytesOf text = .error fault) : ∃ symbols, fault = .badBytes symbols := by
  unfold bytesOf at h
  split at h
  · cases h
  · cases h
    exact ⟨_, rfl⟩

/-- Bytes are read as the text of their symbols. -/
theorem read_bytes_follows (s : List UInt8) :
    Follows bytesOf (FieldType.text.read s) (FieldType.bytes.read s) := by
  rw [FieldType.read, FieldType.read]
  cases Json.readString "a string" s with
  | error fault => exact ⟨fault, rfl⟩
  | ok read =>
    show _ = Except.map _ (bytesOf _)
    unfold bytesOf
    simp only [bind, Except.bind]
    split <;> simp_all [Except.map, pure, Except.pure, throw, throwThe, MonadExceptOf.throw]

/-- A member of a record with one field. -/
theorem readMember_one (field : Field) (slot : Option field.type.Value) (key : String)
    (s : List UInt8) :
    readMember [field] (slot, ()) key s =
      if field.name = key then
        if slot.isSome then .error (.duplicateField field.name)
        else do
          let (value, rest) ← field.type.read (← Json.expectColon s)
          return ((some value, ()), rest)
      else do
        let rest ← Json.skipValue (← Json.expectColon s)
        return ((slot, ()), rest) := by
  simp only [readMember]
  split
  · cases slot <;> rfl
  · cases Json.expectColon s with
    | error => rfl
    | ok rest =>
      simp only [bind, Except.bind]
      cases Json.skipValue rest <;> rfl

section

variable {name : String}

/-- What has been read so far of a record with one text, with bytes for the text. -/
def slotsOf : Slots [⟨name, .text⟩] → Except Json.Fault (Slots [⟨name, .bytes⟩])
  | (none, ()) => .ok (none, ())
  | (some text, ()) => (bytesOf text).map fun b => (some b, ())

/-- A record with one text, with bytes for the text. -/
def valuesOf : Values [⟨name, .text⟩] → Except Json.Fault (Values [⟨name, .bytes⟩])
  | (text, ()) => (bytesOf text).map fun b => (b, ())

/-- What is converted is empty, or full with bytes for the text. -/
theorem of_slotsOf_ok {slots : Slots [⟨name, .text⟩]} {slots' : Slots [⟨name, .bytes⟩]}
    (h : slotsOf slots = .ok slots') :
    slots = (none, ()) ∧ slots' = (none, ()) ∨
      ∃ text b, bytesOf text = .ok b ∧ slots = (some text, ()) ∧ slots' = (some b, ()) := by
  obtain ⟨_ | text, ⟨⟩⟩ := slots
  · cases h
    exact .inl ⟨rfl, rfl⟩
  · obtain ⟨b, hbytes, rfl⟩ := exists_of_map_eq_ok h
    exact .inr ⟨text, b, hbytes, rfl, rfl⟩

/-- What cannot be converted is full. -/
theorem of_slotsOf_error {slots : Slots [⟨name, .text⟩]} {fault : Json.Fault}
    (h : slotsOf slots = .error fault) :
    ∃ text, bytesOf text = .error fault ∧ slots = (some text, ()) := by
  obtain ⟨_ | text, ⟨⟩⟩ := slots
  · cases h
  · exact ⟨text, of_map_eq_error h, rfl⟩

/-- What is full stays as it is. -/
theorem readMember_full {text : String} {slots : Slots [⟨name, .text⟩]} {key : String}
    {s rest : List UInt8}
    (h : readMember [⟨name, .text⟩] (some text, ()) key s = .ok (slots, rest)) :
    slots = (some text, ()) := by
  rw [readMember_one ⟨name, .text⟩ (some text)] at h
  by_cases hkey : name = key
  · -- The field has its value already, so the member is refused.
    rw [if_pos hkey] at h
    cases h
  · rw [if_neg hkey] at h
    obtain ⟨colon, -, h⟩ := exists_of_bind_eq_ok h
    obtain ⟨behind, -, h⟩ := exists_of_bind_eq_ok h
    cases h
    rfl

/-- What is full stays as it is, whatever members follow. -/
theorem readMembers_full {text : String} {fuel : Nat} {slots : Slots [⟨name, .text⟩]}
    {isFirst : Bool} {s rest : List UInt8}
    (h : readMembers [⟨name, .text⟩] fuel (some text, ()) isFirst s = .ok (slots, rest)) :
    slots = (some text, ()) := by
  induction fuel generalizing isFirst s with
  | zero => cases h
  | succ fuel ih =>
    obtain ⟨next, -, h⟩ := exists_of_bind_eq_ok h
    cases next with
    | closed after =>
      cases h
      rfl
    | more after =>
      obtain ⟨⟨key, behind⟩, -, h⟩ := exists_of_bind_eq_ok h
      obtain ⟨⟨full, behind⟩, hmember, h⟩ := exists_of_bind_eq_ok h
      obtain rfl := readMember_full hmember
      exact ih h

/-- A member of a record with bytes is read like one with text. -/
theorem readMember_follows {slots : Slots [⟨name, .text⟩]} {slots' : Slots [⟨name, .bytes⟩]}
    (h : slotsOf slots = .ok slots') (key : String) (s : List UInt8) :
    Follows slotsOf (readMember [⟨name, .text⟩] slots key s)
      (readMember [⟨name, .bytes⟩] slots' key s) := by
  obtain ⟨slot, ⟨⟩⟩ := slots
  obtain ⟨slot', ⟨⟩⟩ := slots'
  have hsome : slot'.isSome = slot.isSome := by
    obtain ⟨hslot, hslot'⟩ | ⟨text, b, -, hslot, hslot'⟩ := of_slotsOf_ok h
    · cases hslot
      cases hslot'
      rfl
    · cases hslot
      cases hslot'
      rfl
  rw [readMember_one ⟨name, .text⟩ slot, readMember_one ⟨name, .bytes⟩ slot', hsome]
  by_cases hkey : name = key
  · rw [if_pos hkey, if_pos hkey]
    split
    · exact ⟨_, rfl⟩
    · cases Json.expectColon s with
      | error fault => exact ⟨fault, rfl⟩
      | ok colon =>
        refine (read_bytes_follows colon).bind ?_ ?_
        · intro text b rest hbytes
          exact .of_ok (by rw [slotsOf, hbytes]; rfl) rest
        · intro text fault rest slots rest' hbytes hnext
          cases hnext
          rw [slotsOf, hbytes]
          rfl
  · rw [if_neg hkey, if_neg hkey]
    cases Json.expectColon s with
    | error fault => exact ⟨fault, rfl⟩
    | ok colon =>
      simp only [bind, Except.bind]
      cases Json.skipValue colon with
      | error fault => exact ⟨fault, rfl⟩
      | ok rest => exact .of_ok h rest

/-- The members of a record with bytes are read like those of one with text. -/
theorem readMembers_follows {fuel : Nat} {slots : Slots [⟨name, .text⟩]}
    {slots' : Slots [⟨name, .bytes⟩]} (h : slotsOf slots = .ok slots') (isFirst : Bool)
    (s : List UInt8) :
    Follows slotsOf (readMembers [⟨name, .text⟩] fuel slots isFirst s)
      (readMembers [⟨name, .bytes⟩] fuel slots' isFirst s) := by
  -- Both readers take the same members with the same fuel; their slots go on in step.
  induction fuel generalizing slots slots' isFirst s with
  | zero => exact ⟨_, rfl⟩
  | succ fuel ih =>
    rw [readMembers, readMembers]
    cases Json.nextMember isFirst s with
    | error fault => exact ⟨fault, rfl⟩
    | ok next =>
      cases next with
      | closed rest => exact .of_ok h rest
      | more after =>
        simp only [bind, Except.bind]
        cases Json.readText after with
        | error fault => exact ⟨fault, rfl⟩
        | ok read =>
          refine (readMember_follows h read.1 read.2).bind ?_ ?_
          · intro slots slots' rest hslots
            exact ih hslots false rest
          · intro slots fault rest slots' rest' hslots hnext
            -- What cannot be converted is in its slot already, and nothing changes it.
            obtain ⟨text, -, rfl⟩ := of_slotsOf_error hslots
            obtain rfl := readMembers_full hnext
            exact hslots

/-- The values of a list with bytes are read like those of one with text. -/
theorem readItems_follows (expected : String) (s : List UInt8) :
    Follows valuesOf (readItems expected [⟨name, .text⟩] 0 s)
      (readItems expected [⟨name, .bytes⟩] 0 s) := by
  rw [readItems, readItems]
  cases Json.nextItem (decide (0 = 0)) s with
  | error fault => exact ⟨fault, rfl⟩
  | ok next =>
    cases next with
    | closed _ => exact ⟨_, rfl⟩
    | more after =>
      refine (read_bytes_follows after).bind ?_ ?_
      · intro text b rest hbytes
        exact .of_ok (by rw [valuesOf, hbytes]; rfl) rest
      · intro text fault rest values rest' hbytes hnext
        cases hnext
        rw [valuesOf, hbytes]
        rfl

/-- **A record with bytes** is read like one with text. -/
theorem readRecord_follows (record : String) (s : List UInt8) :
    Follows valuesOf (readRecord record [⟨name, .text⟩] s)
      (readRecord record [⟨name, .bytes⟩] s) := by
  unfold readRecord
  cases Json.skipSpace s with
  | nil => exact ⟨_, rfl⟩
  | cons b rest =>
    dsimp only
    by_cases hlist : b = Json.openList
    · rw [if_pos hlist, if_pos hlist]
      refine (readItems_follows _ rest).bind ?_ ?_
      · intro values values' after hvalues
        simp only [bind, Except.bind]
        cases Json.closeList after with
        | error fault => exact ⟨fault, rfl⟩
        | ok rest => exact .of_ok hvalues rest
      · intro values fault after values' rest' hvalues hnext
        obtain ⟨closed, -, hnext⟩ := exists_of_bind_eq_ok hnext
        cases hnext
        exact hvalues
    · rw [if_neg hlist, if_neg hlist]
      by_cases hobject : b = Json.openObject
      · rw [if_pos hobject, if_pos hobject]
        refine (readMembers_follows rfl true rest).bind ?_ ?_
        · intro slots slots' after hslots
          obtain ⟨rfl, rfl⟩ | ⟨text, b, hbytes, rfl, rfl⟩ := of_slotsOf_ok hslots
          · exact ⟨_, rfl⟩
          · exact .of_ok (by rw [valuesOf, hbytes]; rfl) after
        · intro slots fault after values rest' hslots hnext
          obtain ⟨text, hbytes, rfl⟩ := of_slotsOf_error hslots
          cases hnext
          rw [valuesOf, hbytes]
          rfl
      · rw [if_neg hobject, if_neg hobject]
        exact ⟨_, rfl⟩

end

/-! ## Log bytes -/

/-- **The text in the field of a body of log bytes,** whatever it spells. -/
def bytesText (body : ByteArray) : Except Json.Fault String :=
  (Json.readWhole (readRecord "GetLogBytesResponse" [⟨"bytes", .text⟩]) (Bytes.toList body)).map
    (·.1)

/-- **The body that is written with a text in the field of log bytes.** -/
def textBody (text : String) : ByteArray := writeRecord [⟨"bytes", .text⟩] (text, ())

/-- Any text can stand in the field. -/
theorem bytesText_textBody (text : String) : bytesText (textBody text) = .ok text := by
  have hread : Json.readWhole (readRecord "GetLogBytesResponse" [⟨"bytes", .text⟩])
      (Bytes.toList (textBody text)) = .ok (text, ()) :=
    readRecord_writeRecord _ (by decide) _
  rw [bytesText, hread]
  rfl

/-- The text that stands in a body comes out of it. -/
theorem textBody_inj {text text' : String} (h : textBody text = textBody text') : text = text' := by
  have hread := bytesText_textBody text
  rw [h, bytesText_textBody] at hread
  exact (Except.ok.inj hread).symm

/-- The body of log bytes has the text of their symbols in its field. -/
theorem encode_eq_textBody {b : ByteArray} {text : String}
    (h : Bytes.toList text.toUTF8 = Base64.symbols (Bytes.toList b)) :
    Body.encode (GetLogBytesResponse.mk b) = textBody text := by
  have hplain : (Bytes.toList text.toUTF8).flatMap Json.escapeByte = Bytes.toList text.toUTF8 := by
    refine Json.flatMap_escapeByte fun s hs => ?_
    obtain ⟨hlow, -, hbackslash⟩ := Base64.printable_of_mem_symbols (h ▸ hs)
    exact ⟨UInt8.le_trans (by decide) hlow, hbackslash⟩
  have hspell : FieldType.bytes.spell b = FieldType.text.spell text := by
    rw [FieldType.spell, FieldType.spell, Json.spell, hplain, h]
  apply Bytes.eq_of_toList
  refine (toList_writeRecord [⟨"bytes", .bytes⟩] (b, ())).trans
    (Eq.trans ?_ (toList_writeRecord [⟨"bytes", .text⟩] (text, ())).symm)
  show Json.openObject :: (join true [("bytes", FieldType.bytes.spell b)] ++ _) =
    Json.openObject :: (join true [("bytes", FieldType.text.spell text)] ++ _)
  rw [hspell]

/-- Bytes have a text of their symbols. -/
theorem exists_text (b : ByteArray) :
    ∃ text : String, Bytes.toList text.toUTF8 = Base64.symbols (Bytes.toList b) :=
  Json.exists_text_of_ascii fun _ hs =>
    UInt8.lt_of_le_of_lt (Base64.printable_of_mem_symbols hs).2.1 (by decide)

/-- **The text that is written for log bytes** is the one that they are read from. -/
theorem encode_eq_textBody_iff {b : ByteArray} {text : String} :
    Body.encode (GetLogBytesResponse.mk b) = textBody text ↔ bytesOf text = .ok b := by
  rw [bytesOf_eq_ok_iff]
  refine ⟨fun h => ?_, encode_eq_textBody⟩
  obtain ⟨written, hwritten⟩ := exists_text b
  rw [textBody_inj (h.symm.trans (encode_eq_textBody hwritten)), hwritten]

/-- The reading of log bytes from the body of their command. -/
abbrev readLogBytes (tag : Int64) (body : ByteArray) : Except ProtocolError GetLogBytesResponse :=
  Body.ofCommand ⟨Body.kind GetLogBytesResponse, tag, body⟩

/-- **Log bytes are read from the text in their field,** and nowhere else. -/
theorem readLogBytes_eq (tag : Int64) (body : ByteArray) :
    (∀ text, bytesText body = .ok text → readLogBytes tag body =
      match bytesOf text with
      | .ok b => .ok ⟨b⟩
      | .error fault => .error (.badBody fault)) ∧
    ∀ fault, bytesText body = .error fault →
      ∃ fault', readLogBytes tag body = .error (.badBody fault') := by
  have hfollows : Follows valuesOf
      (readRecord "GetLogBytesResponse" [⟨"bytes", .text⟩] (Bytes.toList body))
      (readRecord "GetLogBytesResponse" [⟨"bytes", .bytes⟩] (Bytes.toList body)) :=
    readRecord_follows _ _
  obtain ⟨hok, herror⟩ := hfollows.readWhole
  have hdecode : (Body.decode body : Except Json.Fault GetLogBytesResponse) =
      (Json.readWhole (readRecord "GetLogBytesResponse" [⟨"bytes", .bytes⟩])
        (Bytes.toList body)).map (⟨·.1⟩) := by
    show Json.readWhole (readRecord "GetLogBytesResponse" [⟨"bytes", .bytes⟩])
      (Bytes.toList body) >>= (fun values => pure (GetLogBytesResponse.mk values.1)) = _
    cases Json.readWhole (readRecord "GetLogBytesResponse" [⟨"bytes", .bytes⟩])
      (Bytes.toList body) <;> rfl
  rw [readLogBytes, Body.ofCommand_eq_of_kind, hdecode, bytesText]
  cases hfirst : Json.readWhole (readRecord "GetLogBytesResponse" [⟨"bytes", .text⟩])
    (Bytes.toList body) with
  | error fault =>
    obtain ⟨fault', hsecond⟩ := herror fault hfirst
    rw [hsecond]
    exact ⟨nofun, fun _ _ => ⟨fault', rfl⟩⟩
  | ok values =>
    obtain ⟨text, ⟨⟩⟩ := values
    rw [hok (text, ()) hfirst, valuesOf]
    refine ⟨?_, nofun⟩
    rintro _ ⟨⟩
    cases bytesOf text <;> rfl

/-- Log bytes are read if the text in their field stands for them. -/
theorem readLogBytes_eq_ok_iff {tag : Int64} {body b : ByteArray} :
    readLogBytes tag body = .ok ⟨b⟩ ↔ ∃ text, bytesText body = .ok text ∧ bytesOf text = .ok b := by
  obtain ⟨htext, hnone⟩ := readLogBytes_eq tag body
  cases hbody : bytesText body with
  | error fault =>
    obtain ⟨fault', hfault⟩ := hnone fault hbody
    rw [hfault]
    exact ⟨nofun, nofun⟩
  | ok text =>
    rw [htext text hbody]
    cases hbytes : bytesOf text <;> simp [hbytes]

/-! ## One spelling -/

/-- **Log bytes have one spelling.** Any text can stand in the field of their body, and the text that is
written there for some bytes is read as these bytes, with the body and alone. A body is read as bytes
just if the text in its field, however its characters are escaped and wherever it stands, is the one
that is written for the bytes. So what is read is made of full groups of letters, without other
characters, with just the padding that is needed and no spare bits; and of any other text it is the
symbols that are refused. -/
theorem log_bytes_have_one_spelling :
    (∀ text, bytesText (textBody text) = .ok text) ∧
    (∀ b tag, readLogBytes tag (Body.encode (GetLogBytesResponse.mk b)) = .ok ⟨b⟩ ∧
      ∃ text, Body.encode (GetLogBytesResponse.mk b) = textBody text ∧
        Base64.decode (Bytes.toList text.toUTF8) = .ok b) ∧
    ∀ tag body,
      (∀ b, readLogBytes tag body = .ok ⟨b⟩ ↔
        ∃ text, bytesText body = .ok text ∧
          Body.encode (GetLogBytesResponse.mk b) = textBody text) ∧
      ((∃ response, readLogBytes tag body = .ok response) ↔
        ∃ text, bytesText body = .ok text ∧ Base64.Canonical (Bytes.toList text.toUTF8)) ∧
      ∀ text, bytesText body = .ok text → ¬ Base64.Canonical (Bytes.toList text.toUTF8) →
        ∃ fault, readLogBytes tag body = .error (.badBody (.badBytes fault)) := by
  have hcanonical : ∀ text, (∃ b, bytesOf text = .ok b) ↔
      Base64.Canonical (Bytes.toList text.toUTF8) := by
    intro text
    simp only [bytesOf_eq_ok_iff, ← Base64.decode_eq_ok_iff, Base64.exists_decode_eq_ok_iff]
  refine ⟨bytesText_textBody, fun b tag => ?_, fun tag body => ⟨fun b => ?_, ?_, ?_⟩⟩
  · obtain ⟨text, htext⟩ := exists_text b
    have hbytes : bytesOf text = .ok b := bytesOf_eq_ok_iff.mpr htext
    have hwritten := encode_eq_textBody_iff.mpr hbytes
    refine ⟨readLogBytes_eq_ok_iff.mpr ⟨text, ?_, hbytes⟩, text, hwritten,
      Base64.decode_eq_ok_iff.mpr htext⟩
    rw [hwritten, bytesText_textBody]
  · simp only [readLogBytes_eq_ok_iff, encode_eq_textBody_iff]
  · constructor
    · rintro ⟨⟨b⟩, hread⟩
      obtain ⟨text, htext, hbytes⟩ := readLogBytes_eq_ok_iff.mp hread
      exact ⟨text, htext, (hcanonical text).mp ⟨b, hbytes⟩⟩
    · rintro ⟨text, htext, hfull⟩
      obtain ⟨b, hbytes⟩ := (hcanonical text).mpr hfull
      exact ⟨⟨b⟩, readLogBytes_eq_ok_iff.mpr ⟨text, htext, hbytes⟩⟩
  · intro text htext hfull
    rw [(readLogBytes_eq tag body).1 text htext]
    cases hbytes : bytesOf text with
    | ok b => exact absurd ((hcanonical text).mp ⟨b, hbytes⟩) hfull
    | error fault =>
      obtain ⟨symbols, rfl⟩ := exists_of_bytesOf_error hbytes
      exact ⟨symbols, rfl⟩

/-- The symbols of three bytes, with a slash that is escaped, behind a member that nobody asks for. And a
text with a bit to spare behind two bytes. -/
theorem log_bytes_have_one_spelling_escaped :
    let body : ByteArray := "\x7b\"more\":[1], \"bytes\":\"aGn\\/\"\x7d".toUTF8
    let bytes : ByteArray := [0x68, 0x69, 0xff].toByteArray
    bytesText body = .ok "aGn/" ∧ Body.encode (GetLogBytesResponse.mk bytes) = textBody "aGn/" ∧
      readLogBytes 7 body = .ok ⟨bytes⟩ ∧
      ¬ Base64.Canonical (Bytes.toList "aGl=".toUTF8) ∧
      ∃ fault, readLogBytes 7 (textBody "aGl=") = .error (.badBody (.badBytes fault)) := by
  intro body bytes
  have htext : bytesText body = .ok "aGn/" := by
    have hread : (bytesText body).toOption = some "aGn/" := by decide +kernel
    cases hbody : bytesText body with
    | error fault =>
      rw [hbody] at hread
      cases hread
    | ok text =>
      rw [hbody] at hread
      exact congrArg Except.ok (Option.some.inj hread)
  have hwritten : Body.encode (GetLogBytesResponse.mk bytes) = textBody "aGn/" :=
    encode_eq_textBody (by decide +kernel)
  have hspare : ¬ Base64.Canonical (Bytes.toList "aGl=".toUTF8) := by
    have hfault : (Base64.decode (Bytes.toList "aGl=".toUTF8)).isOk = false := by decide +kernel
    rw [← Base64.exists_decode_eq_ok_iff]
    rintro ⟨b, hb⟩
    rw [hb] at hfault
    cases hfault
  obtain ⟨hany, -, hread⟩ := log_bytes_have_one_spelling
  exact ⟨htext, hwritten, ((hread 7 body).1 bytes).mpr ⟨_, htext, hwritten⟩, hspare,
    (hread 7 (textBody "aGl=")).2.2 _ (hany "aGl=") hspare⟩

end RemoteLog.Message
