import RemoteLog.Proofs.Frame.Reading
import RemoteLog.Proofs.Message.RoundTrip

/-! # Bodies on the wire

Every kind of command has a body type of its own. A body that makes a command comes back from it,
also when the command has travelled as a frame, and no other body type is read from it.

* **`BodyOf kind`** — the body type of a kind.
* **`kind_bodyOf`**, **`distinct_bodyOf`** — it belongs to this kind and has no two fields of one
  name.
* **`toCommand_survives_wire`** — a body of any kind comes back, and only as what it was. -/

namespace RemoteLog.Message

/-! ## Body types -/

/-- **The body type of a kind of command.** -/
def BodyOf : CommandKind → Type
  | ⟨.getLogBytes, .request⟩ => GetLogBytesRequest
  | ⟨.getLogBytes, .response⟩ => GetLogBytesResponse
  | ⟨.viewWholeLog, .request⟩ => ViewLogRequest
  | ⟨.viewWholeLog, .response⟩ => ViewLogResponse
  | ⟨.rollViewLog, .request⟩ => RollViewLogRequest
  | ⟨.rollViewLog, .response⟩ => RollViewLogResponse
  | ⟨.removeTaskLog, .request⟩ => RemoveTaskLogRequest
  | ⟨.removeTaskLog, .response⟩ => RemoveTaskLogResponse
  | ⟨.getAppId, .request⟩ => GetAppIdRequest
  | ⟨.getAppId, .response⟩ => GetAppIdResponse

instance : (kind : CommandKind) → Body (BodyOf kind)
  | ⟨.getLogBytes, .request⟩ => inferInstanceAs (Body GetLogBytesRequest)
  | ⟨.getLogBytes, .response⟩ => inferInstanceAs (Body GetLogBytesResponse)
  | ⟨.viewWholeLog, .request⟩ => inferInstanceAs (Body ViewLogRequest)
  | ⟨.viewWholeLog, .response⟩ => inferInstanceAs (Body ViewLogResponse)
  | ⟨.rollViewLog, .request⟩ => inferInstanceAs (Body RollViewLogRequest)
  | ⟨.rollViewLog, .response⟩ => inferInstanceAs (Body RollViewLogResponse)
  | ⟨.removeTaskLog, .request⟩ => inferInstanceAs (Body RemoveTaskLogRequest)
  | ⟨.removeTaskLog, .response⟩ => inferInstanceAs (Body RemoveTaskLogResponse)
  | ⟨.getAppId, .request⟩ => inferInstanceAs (Body GetAppIdRequest)
  | ⟨.getAppId, .response⟩ => inferInstanceAs (Body GetAppIdResponse)

/-- The body type of a kind belongs to just this kind. -/
theorem kind_bodyOf (kind : CommandKind) : Body.kind (BodyOf kind) = kind := by
  obtain ⟨operation, direction⟩ := kind
  cases operation <;> cases direction <;> rfl

/-- No body type has two fields of one name. -/
theorem distinct_bodyOf (kind : CommandKind) : Body.Distinct (BodyOf kind) := by
  obtain ⟨operation, direction⟩ := kind
  cases operation <;> cases direction <;> decide

/-! ## Commands and frames -/

/-- **Every body survives the wire.** A body of any kind makes a command exactly if its text fits a
frame. The command has its kind and the given tag, and it has a frame, from which it is read
wherever that stands in a stream. The body comes back from the command, and the body type of every
other kind refuses the command, naming both kinds. -/
theorem toCommand_survives_wire (kind : CommandKind) (a : BodyOf kind) (tag : Int64) :
    ((∃ c, Body.toCommand a tag = .ok c) ↔ (Body.encode a).size ≤ maxBody) ∧
    ∀ c, Body.toCommand a tag = .ok c →
      c.kind = kind ∧ c.tag = tag ∧ Body.ofCommand c = .ok a ∧
      (∃ frame, Frame.encode c = .ok frame ∧ ∀ before behind,
        Frame.read (before ++ frame ++ behind) before.size =
          .frame c (before.size + frame.size)) ∧
      ∀ other, other ≠ kind →
        (Body.ofCommand c : Except ProtocolError (BodyOf other)) =
          .error (.wrongKind other kind) := by
  refine ⟨⟨?_, fun hfits => ⟨_, Body.toCommand_eq_ok_iff.mpr ⟨hfits, rfl⟩⟩⟩, fun c hc => ?_⟩
  · rintro ⟨c, hc⟩
    exact (Body.toCommand_eq_ok_iff.mp hc).1
  · obtain ⟨hfits, rfl⟩ := Body.toCommand_eq_ok_iff.mp hc
    obtain ⟨frame, hframe⟩ :=
      Frame.exists_encode (c := ⟨Body.kind (BodyOf kind), tag, Body.encode a⟩) hfits
    refine ⟨kind_bodyOf kind, rfl, Body.ofCommand_encode (distinct_bodyOf kind) a tag,
      ⟨frame, hframe, Frame.read_between hframe⟩, fun other hother => ?_⟩
    have hkind : Body.kind (BodyOf kind) ≠ Body.kind (BodyOf other) := by
      rw [kind_bodyOf, kind_bodyOf]
      exact hother.symm
    have hrefused := Body.ofCommand_of_kind_ne (α := BodyOf other)
      (c := ⟨Body.kind (BodyOf kind), tag, Body.encode a⟩) hkind
    rw [hrefused, kind_bodyOf, kind_bodyOf]

/-- A quote, a backslash, a control character and a character beyond the basic plane come back, with
a negative tag. -/
theorem toCommand_survives_wire_escapes :
    let view : BodyOf ⟨.viewWholeLog, .response⟩ := ViewLogResponse.mk "\"\\\x01😀"
    ∃ c frame, Body.toCommand view (-7) = .ok c ∧ Frame.encode c = .ok frame ∧
      Frame.read (ByteArray.empty ++ frame ++ ByteArray.empty) 0 = .frame c (0 + frame.size) ∧
      Body.ofCommand c = .ok view ∧
      (Body.ofCommand c : Except ProtocolError (BodyOf ⟨.getAppId, .response⟩)) =
        .error (.wrongKind ⟨.getAppId, .response⟩ ⟨.viewWholeLog, .response⟩) := by
  intro view
  have hfits : (Body.encode view).size ≤ maxBody := by decide +kernel
  obtain ⟨⟨-, hmakes⟩, hsurvives⟩ := toCommand_survives_wire _ view (-7)
  obtain ⟨c, hc⟩ := hmakes hfits
  obtain ⟨-, -, hback, ⟨frame, hframe, hread⟩, hother⟩ := hsurvives c hc
  exact ⟨c, frame, hc, hframe, hread ByteArray.empty ByteArray.empty, hback,
    hother _ (by decide)⟩

end RemoteLog.Message
