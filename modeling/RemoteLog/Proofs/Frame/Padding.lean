import RemoteLog.Proofs.Frame.Boundary

/-! # Frames put between frames

Between any two frames of a stream there is room for more frames. The stream then holds the same
commands in the same order with others between them.

* **`Padded foreign cs ds`** — `ds` are the commands of `cs` with foreign ones between them.
* **`Frame.mix pads k cs`** — commands with pads put between them; **`Frame.padded_mix`**.
* **`Frame.frames cs`**, **`Frame.remainder s`** — the frames of commands, and what stands behind
  the whole frames of a stream.
* **`Frame.intersperse pads s`** — a stream with the frames of pads put at its boundaries.
* **`Frame.prefix_intersperse`** — the start of a first frame is left in front. -/

namespace RemoteLog

/-! ## Padded lists -/

/-- **Commands with foreign ones between them.** -/
inductive Padded (foreign : Command → Prop) : List Command → List Command → Prop
  | nil : Padded foreign [] []
  | keep (c : Command) {cs ds : List Command} (h : Padded foreign cs ds) :
    Padded foreign (c :: cs) (c :: ds)
  | pad {d : Command} (hd : foreign d) {cs ds : List Command} (h : Padded foreign cs ds) :
    Padded foreign cs (d :: ds)

namespace Padded

variable {foreign : Command → Prop} {cs ds cs' ds' pads : List Command} {tag : Int64}

/-- Foreign commands may be put in front. -/
theorem pads_append (hpads : ∀ d ∈ pads, foreign d) (h : Padded foreign cs ds) :
    Padded foreign cs (pads ++ ds) := by
  induction pads with
  | nil => exact h
  | cons d pads ih =>
    obtain ⟨hd, hpads⟩ := List.forall_mem_cons.mp hpads
    exact .pad hd (ih hpads)

theorem append (h : Padded foreign cs ds) (h' : Padded foreign cs' ds') :
    Padded foreign (cs ++ cs') (ds ++ ds') := by
  induction h with
  | nil => exact h'
  | keep c _ ih => exact .keep c ih
  | pad hd _ ih => exact .pad hd ih

/-- **The first command with a tag** that no foreign command has is the same in both, and what
follows it is padded again. -/
theorem first_cases (h : Padded foreign cs ds) (htag : ∀ d, foreign d → d.tag ≠ tag) :
    (∃ c front front' rest rest', cs = front ++ c :: rest ∧ ds = front' ++ c :: rest' ∧
      c.tag = tag ∧ (∀ d ∈ front, d.tag ≠ tag) ∧ (∀ d ∈ front', d.tag ≠ tag) ∧
      Padded foreign rest rest') ∨
    (∀ d ∈ cs, d.tag ≠ tag) ∧ ∀ d ∈ ds, d.tag ≠ tag := by
  induction h with
  | nil => exact .inr ⟨nofun, nofun⟩
  | @keep c cs ds h ih =>
    by_cases hc : c.tag = tag
    · exact .inl ⟨c, [], [], cs, ds, rfl, rfl, hc, nofun, nofun, h⟩
    · obtain ⟨d, front, front', rest, rest', rfl, rfl, hd, hfront, hfront', hrest⟩ |
        ⟨hcs, hds⟩ := ih
      · exact .inl ⟨d, c :: front, c :: front', rest, rest', rfl, rfl, hd,
          List.forall_mem_cons.mpr ⟨hc, hfront⟩, List.forall_mem_cons.mpr ⟨hc, hfront'⟩, hrest⟩
      · exact .inr ⟨List.forall_mem_cons.mpr ⟨hc, hcs⟩, List.forall_mem_cons.mpr ⟨hc, hds⟩⟩
  | @pad d hd cs ds h ih =>
    obtain ⟨c, front, front', rest, rest', rfl, rfl, hc, hfront, hfront', hrest⟩ | ⟨hcs, hds⟩ := ih
    · exact .inl ⟨c, front, d :: front', rest, rest', rfl, rfl, hc, hfront,
        List.forall_mem_cons.mpr ⟨htag d hd, hfront'⟩, hrest⟩
    · exact .inr ⟨hcs, List.forall_mem_cons.mpr ⟨htag d hd, hds⟩⟩

end Padded

namespace Frame

/-! ## Streams -/

/-- **Commands with pads put between them:** the pads with number `k` come first. -/
def mix (pads : Nat → List Command) : (k : Nat) → List Command → List Command
  | k, [] => pads k
  | k, c :: cs => pads k ++ c :: mix pads (k + 1) cs

/-- **The frames of commands.** -/
def frames (cs : List Command) : ByteArray :=
  match encodeAll cs with
  | .ok s => s
  | .error _ => ByteArray.empty

/-- **What stands behind the whole frames of a stream.** -/
def remainder (s : ByteArray) : ByteArray := s.extract (frames (readAll s).commands).size s.size

/-- **A stream with the frames of pads put at its boundaries:** those with number `k` behind its
first `k` frames. -/
def intersperse (pads : Nat → List Command) (s : ByteArray) : ByteArray :=
  frames (mix pads 0 (readAll s).commands) ++ remainder s

/-- A stream without a whole frame. -/
def Frameless (s : ByteArray) : Prop := (readAll s).commands = []

theorem frameless_empty : Frameless ByteArray.empty := congrArg Transcript.commands readAll_empty

variable {foreign : Command → Prop} {pads : Nat → List Command} {cs : List Command} {s : ByteArray}

theorem frames_of_encodeAll (h : encodeAll cs = .ok s) : frames cs = s := by
  rw [frames, h]

theorem padded_mix (hpads : ∀ k, ∀ d ∈ pads k, foreign d) (k : Nat) (cs : List Command) :
    Padded foreign cs (mix pads k cs) := by
  fun_induction mix pads k cs with
  | case1 k =>
    have hnil : Padded foreign [] [] := .nil
    rw [← List.append_nil (pads k)]
    exact .pads_append (hpads k) hnil
  | case2 k c cs ih => exact .pads_append (hpads k) (.keep c ih)

/-- Commands and pads that fit frames have frames together. -/
theorem encodeAll_mix (hpads : ∀ k, ∀ d ∈ pads k, d.body.size ≤ maxBody)
    (hcs : ∀ c ∈ cs, c.body.size ≤ maxBody) (k : Nat) :
    encodeAll (mix pads k cs) = .ok (frames (mix pads k cs)) := by
  have hfits : ∀ d ∈ mix pads k cs, d.body.size ≤ maxBody := by
    fun_induction mix pads k cs with
    | case1 k => exact hpads k
    | case2 k c cs ih =>
      obtain ⟨hc, hcs⟩ := List.forall_mem_cons.mp hcs
      exact List.forall_mem_append.mpr ⟨hpads k, List.forall_mem_cons.mpr ⟨hc, ih hcs⟩⟩
  obtain ⟨s, hs⟩ := exists_encodeAll_iff.mpr hfits
  rw [frames_of_encodeAll hs, hs]

/-- **A stream is its whole frames and what stands behind them,** which holds no whole frame. -/
theorem eq_frames_append (s : ByteArray) :
    encodeAll (readAll s).commands = .ok (frames (readAll s).commands) ∧
      s = frames (readAll s).commands ++ remainder s ∧ Frameless (remainder s) := by
  obtain ⟨front, rest, hfront, hs, hending⟩ := exists_split s
  have hframes := frames_of_encodeAll hfront
  have hdrop : Bytes.toList rest = (Bytes.toList s).drop front.size := by
    rw [hs, Bytes.toList_append, List.drop_left' (Bytes.length_toList front)]
  have hrest : remainder s = rest := by
    rw [remainder, hframes]
    exact (Bytes.eq_extract_of_toList hdrop).symm
  rw [hframes, hrest]
  refine ⟨hfront, hs, ?_⟩
  have hread := (readAll_of_split encodeAll_nil hending).1
  rwa [ByteArray.empty_append] at hread

/-- A stream without a whole frame is what ends it. -/
theorem Frameless.ending (h : Frameless s) : Ending (Bytes.toList s) (readAll s).error := by
  obtain ⟨front, rest, hfront, hs, hending⟩ := exists_split s
  rw [h] at hfront
  cases hfront
  rw [ByteArray.empty_append] at hs
  rwa [← hs] at hending

/-- The start of a stream that holds no whole frame is no longer than the first frame. -/
theorem Frameless.prefix_frame {c : Command} {frame : ByteArray} {stream : List UInt8}
    (h : Frameless s) (hc : encode c = .ok frame) (hstart : Bytes.toList s <+: stream)
    (hframe : Bytes.toList frame <+: stream) : Bytes.toList s <+: Bytes.toList frame := by
  obtain hle | ⟨rest, hrest⟩ := List.prefix_or_prefix_of_prefix hstart hframe
  · exact hle
  · -- Otherwise the frame would stand in it whole.
    have hs : s = frame ++ rest.toByteArray := by
      apply Bytes.eq_of_toList
      rw [← hrest, Bytes.toList_append, Bytes.toList_toByteArray]
    have hread := (readAll_frames_append (encodeAll_singleton hc) rest.toByteArray).1
    rw [← hs, h] at hread
    cases hread

/-- **The start of a first frame is left in front** if no pads are put there. -/
theorem prefix_intersperse {begun bytes : ByteArray} (hbegun : Frameless begun)
    (hpads : ∀ k, ∀ d ∈ pads k, d.body.size ≤ maxBody)
    (hfirst : begun.isEmpty = false → pads 0 = []) :
    Bytes.toList begun <+: Bytes.toList (intersperse pads (begun ++ bytes)) := by
  cases hempty : begun.isEmpty with
  | true =>
    have hnil : Bytes.toList begun = [] := by
      rw [← List.length_eq_zero_iff, Bytes.length_toList]
      simpa [ByteArray.isEmpty] using hempty
    rw [hnil]
    exact List.nil_prefix
  | false =>
    obtain ⟨hall, hsplit, -⟩ := eq_frames_append (begun ++ bytes)
    have hstart : Bytes.toList begun <+: Bytes.toList (begun ++ bytes) := by
      rw [Bytes.toList_append]
      exact List.prefix_append _ _
    unfold intersperse
    cases hcommands : (readAll (begun ++ bytes)).commands with
    | nil =>
      -- Nothing is a whole frame yet, so nothing is put in.
      rw [hcommands] at hsplit
      rw [mix, hfirst hempty, ← hsplit]
      exact hstart
    | cons c cs =>
      rw [hcommands] at hall hsplit
      obtain ⟨frame, more, hc, hmore, hframes⟩ := encodeAll_cons_eq_ok_iff.mp hall
      have hmix := encodeAll_mix hpads (exists_encodeAll_iff.mp ⟨more, hmore⟩) 1
      have hfront : frames (c :: mix pads 1 cs) = frame ++ frames (mix pads 1 cs) :=
        frames_of_encodeAll (encodeAll_cons_eq_ok_iff.mpr ⟨frame, _, hc, hmix, rfl⟩)
      have hframe : Bytes.toList frame <+: Bytes.toList (begun ++ bytes) := by
        rw [hsplit, hframes, Bytes.toList_append, Bytes.toList_append, List.append_assoc]
        exact List.prefix_append _ _
      rw [mix, hfirst hempty, List.nil_append, hfront, Bytes.toList_append, Bytes.toList_append,
        List.append_assoc]
      exact (hbegun.prefix_frame hc hstart hframe).trans (List.prefix_append _ _)

/-- So what is put in stands behind what was begun before. -/
theorem append_extract_intersperse {begun bytes : ByteArray} (hbegun : Frameless begun)
    (hpads : ∀ k, ∀ d ∈ pads k, d.body.size ≤ maxBody)
    (hfirst : begun.isEmpty = false → pads 0 = []) :
    let sent := intersperse pads (begun ++ bytes)
    begun ++ sent.extract begun.size sent.size = sent := by
  intro sent
  obtain ⟨rest, hrest⟩ := prefix_intersperse hbegun hpads hfirst
  have hdrop : Bytes.toList rest.toByteArray = (Bytes.toList sent).drop begun.size := by
    rw [← hrest, List.drop_left' (Bytes.length_toList begun), Bytes.toList_toByteArray]
  rw [← Bytes.eq_extract_of_toList hdrop]
  apply Bytes.eq_of_toList
  rw [Bytes.toList_append, Bytes.toList_toByteArray, hrest]

end Frame

end RemoteLog
