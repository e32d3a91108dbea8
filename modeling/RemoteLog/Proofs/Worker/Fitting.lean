import RemoteLog.Proofs.Frame.Reading
import RemoteLog.Proofs.Log.Window
import RemoteLog.Proofs.Worker.Rejection

/-! # Responses fit

What the log service has to say may be too large for a frame. Then a response that gives nothing
takes its place, as a whole: every response fits a frame, and what is read from it is either all of
the result or nothing of it.

* **`Response.ofCommand operation c`** — the response in a command.
* **`fullResponse guard fs request`** — the result of the service, however large it is;
  **`Response.degraded`** — what takes its place.
* **`serve_eq`** — which of the two is served.
* **`size_encode_bytes`** — the size of a body of raw bytes; **`fits_bytes_iff`** — how many of them
  fit.
* **`process_fits`** — every response fits a frame and gives all or nothing. -/

namespace RemoteLog

namespace Message

/-! ## Reading responses -/

/-- **The response in a command,** as an answer to an operation. -/
def Response.ofCommand : Operation → Command → Except ProtocolError Response
  | .getLogBytes, c => getLogBytes <$> Body.ofCommand c
  | .viewWholeLog, c => viewWholeLog <$> Body.ofCommand c
  | .rollViewLog, c => rollViewLog <$> Body.ofCommand c
  | .removeTaskLog, c => removeTaskLog <$> Body.ofCommand c
  | .getAppId, c => getAppId <$> Body.ofCommand c

/-- **A response comes back from its command.** -/
theorem Response.ofCommand_body (response : Response) (tag : Int64) :
    Response.ofCommand response.operation
      ⟨⟨response.operation, .response⟩, tag, response.body⟩ = .ok response := by
  cases response with
  | getLogBytes body => exact congrArg (Functor.map _) (Body.ofCommand_encode (by decide) body tag)
  | viewWholeLog body => exact congrArg (Functor.map _) (Body.ofCommand_encode (by decide) body tag)
  | rollViewLog body => exact congrArg (Functor.map _) (Body.ofCommand_encode (by decide) body tag)
  | removeTaskLog body =>
    exact congrArg (Functor.map _) (Body.ofCommand_encode (by decide) body tag)
  | getAppId body => exact congrArg (Functor.map _) (Body.ofCommand_encode (by decide) body tag)

/-- **The response that gives nothing,** in the place of one that is too large. A removal has none:
whatever it says is short. -/
def Response.degraded : Response → Response
  | .getLogBytes _ => .getLogBytes ⟨ByteArray.empty⟩
  | .viewWholeLog _ => .viewWholeLog ⟨""⟩
  | .rollViewLog _ => .rollViewLog ⟨.unknownError, 0, 0, ""⟩
  | .removeTaskLog body => .removeTaskLog body
  | .getAppId _ => .getAppId ⟨[]⟩

/-! ## Sizes of raw bytes -/

/-- **The size of a body of raw bytes:** twelve bytes stand around their symbols. -/
theorem size_encode_bytes (bytes : ByteArray) :
    (Body.encode (GetLogBytesResponse.mk bytes)).size = 12 + Base64.encodedSize bytes.size := by
  have hkey : (Json.spell "bytes").length = 7 := by decide +kernel
  have hmembers : members (Body.fields GetLogBytesResponse)
      (Body.toValues (GetLogBytesResponse.mk bytes)) =
        [("bytes", Json.quote :: (Base64.symbols (Bytes.toList bytes) ++ [Json.quote]))] := rfl
  rw [← Bytes.length_toList, Body.encode, toList_writeRecord, hmembers]
  simp only [join, if_true, List.nil_append, List.append_nil, List.length_cons, List.length_append,
    List.length_nil, hkey, Base64.length_symbols, Bytes.length_toList]
  omega

/-- **How many raw bytes fit a frame.** -/
theorem fits_bytes_iff {bytes : ByteArray} :
    (Body.encode (GetLogBytesResponse.mk bytes)).size ≤ maxBody ↔ bytes.size ≤ 50331639 := by
  rw [size_encode_bytes, Base64.encodedSize, maxBody]
  omega

end Message

namespace Log

/-- The bytes of a file that can be read to its end. -/
theorem bytes_eq {fs : FileSystem} {path : String} {place : List String} {bytes : ByteArray}
    (h : fs.resolve .use path = .ok (.entry place (.file (.ofBytes bytes)))) :
    Log.bytes fs path = bytes := by
  rw [Log.bytes, openFile_ofBytes h]
  exact ByteArray.empty_append

end Log

namespace Worker

open Message

variable {guard : PathGuard} {fs : FileSystem} {c response : Command} {request : Request}

/-! ## All or nothing -/

/-- **The result of the log service,** however large it is. -/
def fullResponse (guard : PathGuard) (fs : FileSystem) : Request → Response
  | .getLogBytes request => .getLogBytes ⟨Log.bytes fs request.path⟩
  | .viewWholeLog request => .viewWholeLog ⟨Log.text fs request.path⟩
  | .rollViewLog request => .rollViewLog (Log.window guard fs request)
  | .removeTaskLog request => .removeTaskLog ⟨(Log.remove fs request.path).1⟩
  | .getAppId request => .getAppId ⟨Log.applicationIds fs request.path⟩

theorem operation_serve (guard : PathGuard) (fs : FileSystem) (request : Request) :
    (serve guard fs request).1.operation = request.operation := by
  cases request <;> rfl

/-- A response that fits is the full one. -/
theorem wrap_fit {β : Type} [Body β] (constructor : β → Response) (full degraded : β)
    (h : (constructor full).body = Body.encode full) :
    constructor (fit full degraded) =
      if (constructor full).body.size ≤ maxBody then constructor full
      else constructor degraded := by
  rw [h, fit]
  by_cases hsize : (Body.encode full).size > maxBody
  · rw [if_pos hsize, if_neg (Nat.not_le_of_lt hsize)]
  · rw [if_neg hsize, if_pos (Nat.le_of_not_lt hsize)]

/-- **What is served is the full result or nothing of it,** by its size. -/
theorem serve_eq (guard : PathGuard) (fs : FileSystem) (request : Request) :
    (serve guard fs request).1 =
      if (fullResponse guard fs request).body.size ≤ maxBody then fullResponse guard fs request
      else (fullResponse guard fs request).degraded := by
  cases request with
  | getLogBytes => exact wrap_fit Response.getLogBytes _ _ rfl
  | viewWholeLog => exact wrap_fit Response.viewWholeLog _ _ rfl
  | rollViewLog => exact wrap_fit Response.rollViewLog _ _ rfl
  | removeTaskLog => exact (ite_self _).symm
  | getAppId => exact wrap_fit Response.getAppId _ _ rfl

/-- **The bytes of a file are sent if not too many,** and otherwise none of them. -/
theorem bytes_fit (bytes : ByteArray) :
    (fit ⟨bytes⟩ ⟨ByteArray.empty⟩ : GetLogBytesResponse).bytes =
      if bytes.size ≤ 50331639 then bytes else ByteArray.empty := by
  by_cases hsize : bytes.size ≤ 50331639
  · rw [fit, if_neg (Nat.not_lt_of_le (fits_bytes_iff.mpr hsize)), if_pos hsize]
  · rw [fit, if_pos (Nat.lt_of_not_le fun hfits => hsize (fits_bytes_iff.mp hfits)), if_neg hsize]

/-! ## What is written -/

/-- Whatever is written answers a request, with what is served. -/
theorem exists_of_result {slot : Slot} (h : (process guard fs slot c).result = .ok response) :
    ∃ request, Request.ofCommand c = .ok request ∧
      response = ⟨⟨request.operation, .response⟩, c.tag, (serve guard fs request).1.body⟩ := by
  cases slot with
  | sent =>
    -- Nothing is written through a slot that has been used.
    unfold process at h
    split at h <;> cases h
  | unsent =>
    rw [process_unsent_result, answer] at h
    split at h
    · cases h
    · next request hrequest =>
      split at h
      · cases h
      · rw [perform_eq] at h
        cases h
        exact ⟨request, hrequest, rfl⟩

/-- No response is refused for its size. -/
theorem result_ne_tooLarge (guard : PathGuard) (fs : FileSystem) (slot : Slot) (c : Command)
    (size : Nat) : (process guard fs slot c).result ≠ .error (.protocol (.tooLarge size)) := by
  intro h
  unfold process at h
  obtain ⟨-, body, files, hanswer⟩ | ⟨cause, hrejection, hanswer⟩ := answer_cases guard fs c
  · rw [hanswer] at h
    cases slot <;> cases h
  · rw [hanswer] at h
    cases h
    cases hrejection

/-- **Every response fits a frame and gives all or nothing.** No command fails because its response
is too large. A response that is written to a command has a body of at most 64 MiB and a frame, from
which it is read wherever that stands in a stream. What it holds is the full result of the service
if the body of this has at most 67108864 bytes, and otherwise nothing of it. So the bytes of a file
that can be read are sent if there are at most 50331639 of them, and no byte of it is sent if there
are more. -/
theorem process_fits (guard : PathGuard) (fs : FileSystem) (c : Command) :
    (∀ slot size, (process guard fs slot c).result ≠ .error (.protocol (.tooLarge size))) ∧
    (Answerable guard c → ∃ response, (process guard fs .unsent c).result = .ok response) ∧
    ∀ slot response, (process guard fs slot c).result = .ok response →
      response.body.size ≤ 64 * 1024 * 1024 ∧
      (∃ frame, Frame.encode response = .ok frame ∧ ∀ before behind,
        Frame.read (before ++ frame ++ behind) before.size =
          .frame response (before.size + frame.size)) ∧
      ∃ request, Request.ofCommand c = .ok request ∧
        Response.ofCommand request.operation response =
          .ok (if (fullResponse guard fs request).body.size ≤ 67108864
            then fullResponse guard fs request
            else (fullResponse guard fs request).degraded) ∧
        ∀ path place bytes, request = .getLogBytes ⟨path⟩ →
          fs.resolve .use path = .ok (.entry place (.file (.ofBytes bytes))) →
          ∃ got : GetLogBytesResponse, Body.ofCommand response = .ok got ∧
            (got.bytes = bytes ↔ bytes.size ≤ 50331639) ∧
            (50331639 < bytes.size → got.bytes = ByteArray.empty) := by
  refine ⟨fun slot size => result_ne_tooLarge guard fs slot c size, fun hanswerable => ?_,
    fun slot response hresult => ?_⟩
  · exact ((process_once_or_rejected guard).1 fs c).1.mpr hanswerable
  · obtain ⟨request, hrequest, rfl⟩ := exists_of_result hresult
    have hfits := size_serve_le guard fs request
    obtain ⟨frame, hframe⟩ := Frame.exists_encode
      (c := ⟨⟨request.operation, .response⟩, c.tag, (serve guard fs request).1.body⟩) hfits
    refine ⟨hfits, ⟨frame, hframe, Frame.read_between hframe⟩, request, hrequest, ?_, ?_⟩
    · rw [← operation_serve guard fs request, Response.ofCommand_body, serve_eq]
      rfl
    · rintro path place bytes rfl hfile
      have hgot := bytes_fit bytes
      rw [← Log.bytes_eq hfile] at hgot ⊢
      refine ⟨_, Body.ofCommand_encode (by decide) _ _, ?_, fun hlarge => ?_⟩
      · rw [hgot]
        split
        · next hsize => exact iff_of_true rfl hsize
        · next hsize =>
          -- A file that is too large is not empty, so its bytes are not sent by chance.
          refine iff_of_false (fun hempty => hsize ?_) hsize
          rw [← hempty]
          exact Nat.zero_le _
      · rw [hgot, if_neg (Nat.not_le_of_lt hlarge)]

/-- The largest file whose bytes are sent, and a file with one byte more. -/
theorem process_fits_boundary :
    let guard : PathGuard := ⟨"/logs"⟩
    let fs (bytes : ByteArray) : FileSystem :=
      ⟨[(["logs"], .directory), (["logs", "a.log"], .file (.ofBytes bytes))], []⟩
    let c : Command :=
      ⟨⟨.getLogBytes, .request⟩, 7, Body.encode (GetLogBytesRequest.mk "/logs/a.log")⟩
    let largest := Bytes.replicate 50331639 0x61
    let larger := Bytes.replicate 50331640 0x61
    Answerable guard c ∧
      (∃ response got, (process guard (fs largest) .unsent c).result = .ok response ∧
        Body.ofCommand response = .ok (got : GetLogBytesResponse) ∧ got.bytes = largest) ∧
      ∃ response got, (process guard (fs larger) .unsent c).result = .ok response ∧
        Body.ofCommand response = .ok (got : GetLogBytesResponse) ∧ got.bytes = ByteArray.empty := by
  intro guard fs c largest larger
  have haccepts : guard.accepts "/logs/a.log" = true := by decide +kernel
  have hdecode : Request.decode .getLogBytes c.body = .ok (.getLogBytes ⟨"/logs/a.log"⟩) :=
    congrArg (Functor.map _) (Body.decode_encode (by decide) (GetLogBytesRequest.mk _))
  have hanswerable : Answerable guard c := ⟨rfl, _, hdecode, .inr haccepts⟩
  have hfile (bytes : ByteArray) : (fs bytes).resolve .use "/logs/a.log" =
      .ok (.entry ["logs", "a.log"] (.file (.ofBytes bytes))) := by
    have hnames : FileSystem.steps .use "/logs/a.log" = ["logs", "a.log"] := by decide +kernel
    have horigin : (fs bytes).origin "/logs/a.log" = [] := if_pos (by decide +kernel)
    have hrefusal : FileSystem.refusal? "/logs/a.log" = none := by decide +kernel
    have hlogs : "logs".utf8ByteSize = 4 := by decide +kernel
    have hlog : "a.log".utf8ByteSize = 5 := by decide +kernel
    rw [FileSystem.resolve, hrefusal, hnames, horigin]
    simp [FileSystem.walk, FileSystem.isDirectory, FileSystem.entry?, FileSystem.nameLimit, fs,
      hlogs, hlog]
  have hgot (bytes : ByteArray) : ∃ response got,
      (process guard (fs bytes) .unsent c).result = .ok response ∧
      Body.ofCommand response = .ok (got : GetLogBytesResponse) ∧
      (got.bytes = bytes ↔ bytes.size ≤ 50331639) ∧
      (50331639 < bytes.size → got.bytes = ByteArray.empty) := by
    obtain ⟨-, hanswers, hwritten⟩ := process_fits guard (fs bytes) c
    obtain ⟨response, hresult⟩ := hanswers hanswerable
    obtain ⟨-, -, request, hrequest, -, hbytes⟩ := hwritten .unsent response hresult
    rw [Request.ofCommand_request, hdecode] at hrequest
    obtain ⟨got, hbody, hall, hnone⟩ :=
      hbytes _ _ bytes (Except.ok.inj hrequest).symm (hfile bytes)
    exact ⟨response, got, hresult, hbody, hall, hnone⟩
  have hsize (n : Nat) : (Bytes.replicate n 0x61).size = n := by
    rw [← Bytes.length_toList, Bytes.toList_replicate, List.length_replicate]
  obtain ⟨response, got, hresult, hbody, hall, -⟩ := hgot largest
  obtain ⟨response', got', hresult', hbody', -, hnone⟩ := hgot larger
  exact ⟨hanswerable, ⟨response, got, hresult, hbody, hall.mpr (Nat.le_of_eq (hsize _))⟩,
    response', got', hresult', hbody', hnone (by rw [hsize]; decide)⟩

end Worker

end RemoteLog
