import RemoteLog.Proofs.Line.Stretches

/-! # Whole lines

Bytes that are empty or end with a line feed hold whole lines. What is put behind them begins a line
of its own, so their lines and those behind them are the lines of both together, and a line is told by
its own bytes whatever stands before it and behind it.

* **`Line.allTexts_append`** — lines that are finished come first, whatever is put behind them.
* **`Line.Whole bytes`** — bytes that hold whole lines; **`Line.texts_append`** — bytes behind them.
* **`Line.allTexts_finished`**, **`Line.allTexts_unfinished`** — one line by its own bytes. -/

namespace RemoteLog.Line

theorem texts_eq_allTexts (bytes : ByteArray) : texts bytes = allTexts (Bytes.toList bytes) := by
  rw [← map_text_segments, texts, ofBytes, List.map_map]
  rfl

/-- **Lines that are finished come first,** whatever is put behind them. -/
theorem allTexts_append (bytes more : List UInt8) :
    allTexts (bytes ++ more) = finishedTexts bytes ++ allTexts ((cut bytes).2 ++ more) := by
  rw [← map_text_segments, segments_append, List.map_append, map_text_cut, map_text_segments]

/-- The lines of bytes are those that are finished and what is behind them. -/
theorem allTexts_eq (bytes : List UInt8) :
    allTexts bytes = finishedTexts bytes ++ allTexts (cut bytes).2 := by
  simpa using allTexts_append bytes []

/-! ## Whole lines -/

/-- **Bytes that hold whole lines:** none, or a line feed stands at their end. -/
def Whole (bytes : ByteArray) : Prop :=
  Bytes.toList bytes = [] ∨ (Bytes.toList bytes).getLast? = some lineFeed

instance (bytes : ByteArray) : Decidable (Whole bytes) := inferInstanceAs (Decidable (_ ∨ _))

/-- Behind whole lines nothing is left over. -/
theorem Whole.cut_snd {bytes : ByteArray} (h : Whole bytes) : (cut (Bytes.toList bytes)).2 = [] := by
  rcases h with hnil | hlast
  · rw [hnil, cut]
  · obtain ⟨front, hfront⟩ := List.getLast?_eq_some_iff.mp hlast
    have hfeed : cut ((cut front).2 ++ [lineFeed]) = ([(cut front).2 ++ [lineFeed]], []) :=
      cut_append_lineFeed (lineFeed_notMem_tail front) []
    rw [hfront, cut_append, hfeed]

theorem allTexts_nil : allTexts [] = [] := rfl

/-- **Whole lines and what is behind them** have the lines of both. -/
theorem texts_append {bytes : ByteArray} (h : Whole bytes) (more : ByteArray) :
    texts (bytes ++ more) = texts bytes ++ texts more := by
  rw [texts_eq_allTexts, texts_eq_allTexts bytes, texts_eq_allTexts more, Bytes.toList_append,
    allTexts_append, allTexts_eq (Bytes.toList bytes), h.cut_snd, List.nil_append, allTexts_nil,
    List.append_nil]

/-! ## One line -/

/-- **A line that a line feed ends** comes first, told by its own bytes. -/
theorem allTexts_finished {content : List UInt8} (h : lineFeed ∉ content) (rest : List UInt8) :
    allTexts (content ++ lineFeed :: rest) = contentText content :: allTexts rest := by
  rw [← map_text_segments, segments, cut_append_lineFeed h, List.cons_append, List.map_cons,
    text_finished, ← map_text_segments, segments]

/-- **A line that nothing ends** is told by its own bytes. -/
theorem allTexts_unfinished {content : List UInt8} (h : lineFeed ∉ content) (hne : content ≠ []) :
    allTexts content = [contentText content] := by
  rw [← map_text_segments, segments, cut_of_notMem h, if_neg hne, List.nil_append,
    List.map_singleton, text_unfinished h]

theorem text_eq_contentText {content : ByteArray} (h : lineFeed ∉ Bytes.toList content) :
    text content = contentText (Bytes.toList content) := by
  apply text_of_content
  rw [toList_dropLast, if_neg fun hlast => h (List.mem_of_getLast? hlast)]

/-- A line with its line feed, in front of any bytes. -/
theorem texts_finished {content : ByteArray} (h : lineFeed ∉ Bytes.toList content)
    (back : ByteArray) :
    texts (content ++ [lineFeed].toByteArray ++ back) = text content :: texts back := by
  rw [texts_eq_allTexts, texts_eq_allTexts, text_eq_contentText h]
  simpa using allTexts_finished h (Bytes.toList back)

/-- A line without an end. -/
theorem texts_unfinished {content : ByteArray} (h : lineFeed ∉ Bytes.toList content)
    (hne : content ≠ ByteArray.empty) : texts content = [text content] := by
  rw [texts_eq_allTexts, text_eq_contentText h]
  refine allTexts_unfinished h fun hnil => hne (Bytes.eq_of_toList ?_)
  rw [hnil, Bytes.toList_empty]

end RemoteLog.Line
