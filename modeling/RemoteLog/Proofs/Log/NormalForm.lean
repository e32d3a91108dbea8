import RemoteLog.Proofs.Line.Decoding
import RemoteLog.Proofs.Line.Writing
import RemoteLog.Proofs.Log.ApplicationIds
import RemoteLog.Proofs.Log.Recovery

/-! # The text of a file as a file

The text that is shown for a whole file ends each of its lines in one way and spells all of its
characters. Kept in a file of its own, it is a normal form of the first one: it has the same lines, so
whatever else is read from the two files is the same, and its own text is the text again.

* **`Log.withLineBreaks_eq_written`**, **`Log.texts_withLineBreaks`** — the lines of a text are found
  again in it.
* **`Log.text_congr`**, **`Log.applicationIds_congr`**, **`Log.window_congr`** — what is read from files
  with the same lines.
* **`Log.text_is_normal_form`** — the text of a file as a file. -/

namespace RemoteLog.Log

/-! ## Lines of a text -/

/-- A text with line breaks has one behind each line. -/
theorem withLineBreaks_eq_written (lines : List String) :
    withLineBreaks lines = Line.written lineBreak lines := by
  simp only [withLineBreaks, Line.written, String.join, List.foldl_map, String.append_assoc]

/-- **The lines of bytes are found again** in their text with line breaks. -/
theorem texts_withLineBreaks (bytes : ByteArray) :
    Line.texts (withLineBreaks (Line.texts bytes)).toUTF8 = Line.texts bytes := by
  rw [withLineBreaks_eq_written]
  exact Line.texts_written fun line hline =>
    ⟨Line.lineFeed_notMem_of_mem_texts hline, .inl rfl⟩

/-! ## Files with the same lines -/

section

variable {fs fs' : FileSystem} {path path' : String} {bytes bytes' : ByteArray}
  (h : fs.Holds path bytes) (h' : fs'.Holds path' bytes')
  (hsame : Line.texts bytes' = Line.texts bytes)

include h h' hsame

/-- Files with the same lines have the same text. -/
theorem text_congr : text fs' path' = text fs path := by
  obtain ⟨place, hplace⟩ := h
  obtain ⟨place', hplace'⟩ := h'
  rw [text_eq hplace, text_eq hplace', hsame]

/-- Files with the same lines have the same application ids. -/
theorem applicationIds_congr : applicationIds fs' path' = applicationIds fs path := by
  rw [applicationIds_eq h, applicationIds_eq h', hsame]

/-- Files with the same lines have the same windows, if both paths are accepted or both are not. -/
theorem window_congr {guard guard' : PathGuard}
    (hguards : guard'.accepts path' = guard.accepts path) (skip limit : UInt32) :
    window guard' fs' ⟨path', skip, limit⟩ = window guard fs ⟨path, skip, limit⟩ := by
  rw [← windowDuring_self, ← windowDuring_self]
  cases haccepts : guard.accepts path with
  | false =>
    have hview : windowDuring guard fs fs ⟨path, skip, limit⟩ = .failure .pathNotSecure :=
      windowDuring_refused haccepts
    have hview' : windowDuring guard' fs' fs' ⟨path', skip, limit⟩ = .failure .pathNotSecure :=
      windowDuring_refused (hguards.trans haccepts)
    rw [hview, hview']
  | true =>
    have haccepts' : guard'.accepts path' = true := hguards.trans haccepts
    rw [windowDuring_eq ⟨path, skip, limit⟩ haccepts h h,
      windowDuring_eq ⟨path', skip, limit⟩ haccepts' h' h', hsame]

end

/-! ## The normal form of a file -/

/-- **The text of a file is a normal form of it.** It has the lines of the file, each ended by a carriage
return and a line feed. A file that holds its bytes has the same lines and the same number of them, the
same application ids and, under a path that is accepted just if the other one is, the same window
whatever is skipped and asked for; and its text is the text again. -/
theorem text_is_normal_form {fs fs' : FileSystem} {path path' : String} {bytes : ByteArray}
    (hfile : fs.Holds path bytes) (hnormal : fs'.Holds path' (text fs path).toUTF8) :
    (∃ lines, Line.lines [.chunk bytes] = lines.map Except.ok ∧
      text fs path = Line.written "\r\n" lines) ∧
    Line.lines [.chunk (text fs path).toUTF8] = Line.lines [.chunk bytes] ∧
    Line.countLines [.chunk (text fs path).toUTF8] = Line.countLines [.chunk bytes] ∧
    applicationIds fs' path' = applicationIds fs path ∧
    (∀ guard guard' : PathGuard, guard'.accepts path' = guard.accepts path → ∀ skip limit,
      window guard' fs' ⟨path', skip, limit⟩ = window guard fs ⟨path, skip, limit⟩) ∧
    text fs' path' = text fs path := by
  have htext : text fs path = withLineBreaks (Line.texts bytes) := by
    obtain ⟨place, hplace⟩ := hfile
    exact text_eq hplace
  have hsame : Line.texts (text fs path).toUTF8 = Line.texts bytes := by
    rw [htext, texts_withLineBreaks]
  refine ⟨⟨Line.texts bytes, Line.lines_chunk bytes, ?_⟩, ?_, ?_,
    applicationIds_congr hfile hnormal hsame,
    fun guard guard' hguards => window_congr hfile hnormal hsame hguards,
    text_congr hfile hnormal hsame⟩
  · exact htext.trans (withLineBreaks_eq_written _)
  · rw [Line.lines_chunk, Line.lines_chunk, hsame]
  · rw [Line.countLines_chunk, Line.countLines_chunk, hsame]

/-- A carriage return of its own, a blank line, a character that is cut, and a last line with a carriage
return that no line feed follows. The text is written over the file. -/
theorem text_is_normal_form_stray_returns :
    let bytes : ByteArray :=
      "1\r\r\n\n".toUTF8 ++ [0xe4, 0xb8].toByteArray ++ "\r\napplication_1\r".toUTF8
    let fs := FileSystem.oneLog (.ofBytes bytes)
    let path := "/logs/a.log"
    let guard : PathGuard := ⟨"/logs"⟩
    fs.Holds path bytes ∧ text fs path = "1\r\r\n\r\n\uFFFD\r\napplication_1\r\n" ∧
      ∃ fs', fs.writeFile path (text fs path).toUTF8 = .ok fs' ∧
        fs'.Holds path (text fs path).toUTF8 ∧
        Line.lines [.chunk (text fs path).toUTF8] = Line.lines [.chunk bytes] ∧
        Line.lines [.chunk bytes] = [.ok "1\r", .ok "", .ok "\uFFFD", .ok "application_1"] ∧
        applicationIds fs' path = applicationIds fs path ∧
        window guard fs' ⟨path, 1, 2⟩ = window guard fs ⟨path, 1, 2⟩ ∧
        text fs' path = text fs path := by
  intro bytes fs path guard
  have hholds : fs.Holds path bytes := FileSystem.holds_oneLog bytes
  have htexts : Line.texts bytes = ["1\r", "", "\uFFFD", "application_1"] := by decide +kernel
  have htext : text fs path = "1\r\r\n\r\n\uFFFD\r\napplication_1\r\n" := by
    rw [text_eq (FileSystem.resolve_oneLog _), htexts]
    decide +kernel
  obtain ⟨fs', hwrite, hwritten⟩ := hholds.changeFile fun _ => (text fs path).toUTF8
  obtain ⟨-, hlines, -, hids, hwindow, hagain⟩ := text_is_normal_form hholds hwritten
  exact ⟨hholds, htext, fs', hwrite, hwritten, hlines, by rw [Line.lines_chunk, htexts]; rfl, hids,
    hwindow guard guard rfl 1 2, hagain⟩

end RemoteLog.Log
