import RemoteLog.Proofs.Line.Whole
import RemoteLog.Proofs.Text.Lossy

/-! # Lines before and after decoding

A log is split at line feeds before it is decoded, and each line on its own. Decoding it as a whole
first would give the same lines: no character that is cut or invalid takes a line feed or a carriage
return with it, and what is put in its place has none.

* **`Line.cut_clean`**, **`Line.segments_clean`** — bytes as they are read are split at the same places.
* **`Line.text_clean`** — a line as it is read has the same text.
* **`Line.decoding_keeps_lines`** — decoding first or splitting first. -/

namespace RemoteLog.Line

open Text.Utf8

/-! ## Splitting bytes as they are read -/

/-- **Bytes as they are read** are cut at the line feeds of the bytes. -/
theorem cut_clean (bytes : List UInt8) :
    cut (clean bytes) = ((cut bytes).1.map clean, clean (cut bytes).2) := by
  have hascii : lineFeed < 0x80 := by decide
  by_cases hfeed : lineFeed ∈ bytes
  · obtain ⟨front, rest, hbytes, hfront⟩ := List.eq_append_cons_of_mem hfeed
    have hshort : rest.length < bytes.length := by
      rw [hbytes, List.length_append, List.length_cons]
      omega
    have hline : clean (front ++ [lineFeed]) = clean front ++ [lineFeed] := by
      rw [clean_append_ascii hascii, clean_nil]
    rw [hbytes, clean_append_ascii hascii, cut_append_lineFeed (mt (mem_of_mem_clean hascii) hfront),
      cut_append_lineFeed hfront, cut_clean rest, List.map_cons, hline]
  · rw [cut_of_notMem hfeed, cut_of_notMem (mt (mem_of_mem_clean hascii) hfeed), List.map_nil]
termination_by bytes.length

/-- **The lines of bytes as they are read** are the lines of the bytes, each as it is read. -/
theorem segments_clean (bytes : List UInt8) :
    segments (clean bytes) = (segments bytes).map clean := by
  simp only [segments, cut_clean, clean_eq_nil_iff, List.map_append]
  split <;> rfl

/-! ## Texts of lines as they are read -/

/-- An ASCII byte is dropped at the end of bytes as they are read just if it is dropped at the end of
the bytes. -/
theorem toList_dropLast_clean {b : UInt8} (h : b < 0x80) {raw raw' : ByteArray}
    (hclean : Bytes.toList raw' = clean (Bytes.toList raw)) :
    Bytes.toList (dropLast b raw') = clean (Bytes.toList (dropLast b raw)) := by
  rw [toList_dropLast, toList_dropLast, hclean]
  by_cases hlast : (Bytes.toList raw).getLast? = some b
  · obtain ⟨front, hfront⟩ := List.getLast?_eq_some_iff.mp hlast
    have hback : clean (front ++ [b]) = clean front ++ [b] := by
      rw [clean_append_ascii h, clean_nil]
    simp [hfront, hback]
  · rw [if_neg hlast, if_neg (mt (getLast?_of_clean h) hlast)]

/-- **A line as it is read** has the text of the line. -/
theorem text_clean (raw : List UInt8) : text (clean raw).toByteArray = text raw.toByteArray := by
  have hfeed : Bytes.toList (dropLast lineFeed (clean raw).toByteArray) =
      clean (Bytes.toList (dropLast lineFeed raw.toByteArray)) :=
    toList_dropLast_clean (by decide) (by simp)
  have hstrip := toList_dropLast_clean (b := carriageReturn) (by decide) hfeed
  rw [text, text, stripTerminator, decodeLossy_eq, hstrip, decode_clean, decodeLossy_eq,
    stripTerminator]

/-- **Bytes as they are read** have the lines of the bytes. -/
theorem allTexts_clean (bytes : List UInt8) : allTexts (clean bytes) = allTexts bytes := by
  rw [← map_text_segments, segments_clean, List.map_map, ← map_text_segments]
  exact List.map_congr_left fun raw _ => text_clean raw

/-- **A decoded text** has the lines of the bytes that it was decoded from. -/
theorem texts_decodeLossy (bytes : ByteArray) :
    texts (decodeLossy bytes).toUTF8 = texts bytes := by
  rw [texts_eq_allTexts, toList_toUTF8_decodeLossy, allTexts_clean, ← texts_eq_allTexts]

/-! ## Decoding first or splitting first -/

/-- **Decoding keeps lines.** Whatever the bytes are, they have the same lines as the bytes of the text
that they are decoded to as a whole, and so the same number of them. Decoding starts afresh at each
ASCII byte, which stands for itself: nothing in front of a line feed or a carriage return can take it
away. And the lines in front of a line and those behind it are what they are without it: whatever
stands in a line can change the text of this line and nothing else. -/
theorem decoding_keeps_lines (bytes : ByteArray) :
    lines [.chunk (decodeLossy bytes).toUTF8] = lines [.chunk bytes] ∧
    countLines [.chunk (decodeLossy bytes).toUTF8] = countLines [.chunk bytes] ∧
    (∀ front b back, b < 0x80 → bytes = front ++ [b].toByteArray ++ back →
      decodeLossy bytes =
        decodeLossy front ++ String.singleton (Char.ofNat b.toNat) ++ decodeLossy back) ∧
    ∀ front content, Whole front → lineFeed ∉ Bytes.toList content →
      (∀ back, bytes = front ++ content ++ [lineFeed].toByteArray ++ back →
        lines [.chunk bytes] = lines [.chunk front] ++ .ok (text content) :: lines [.chunk back]) ∧
      (content ≠ ByteArray.empty → bytes = front ++ content →
        lines [.chunk bytes] = lines [.chunk front] ++ [.ok (text content)]) := by
  refine ⟨?_, ?_, fun front b back hb hbytes => ?_, fun front content hfront hcontent =>
    ⟨fun back hbytes => ?_, fun hne hbytes => ?_⟩⟩
  · rw [lines_chunk, lines_chunk, texts_decodeLossy]
  · rw [countLines_chunk, countLines_chunk, texts_decodeLossy]
  · rw [hbytes, decodeLossy_append_ascii hb]
  · have hassoc : bytes = front ++ (content ++ [lineFeed].toByteArray ++ back) := by
      rw [hbytes]
      exact Bytes.eq_of_toList (by simp)
    simp only [lines_chunk, hassoc, texts_append hfront, texts_finished hcontent, List.map_append,
      List.map_cons]
  · simp only [lines_chunk, hbytes, texts_append hfront, texts_unfinished hcontent hne,
      List.map_append, List.map_singleton]

/-- A carriage return cuts the character at the end of its line, and the line behind it is a stray byte
that nothing ends. Each of them changes its line and nothing else. -/
theorem decoding_keeps_lines_cut_character :
    let front : ByteArray := "1\n".toUTF8
    let cutOff : ByteArray := [0xe4, 0xb8].toByteArray
    let content : ByteArray := cutOff ++ [carriageReturn].toByteArray
    let back : ByteArray := [0xff].toByteArray
    let bytes := front ++ content ++ [lineFeed].toByteArray ++ back
    lines [.chunk bytes] = [.ok "1", .ok "\uFFFD", .ok "\uFFFD"] ∧
      decodeLossy bytes = "1\n\uFFFD\r\n\uFFFD" ∧
      lines [.chunk (decodeLossy bytes).toUTF8] = lines [.chunk bytes] ∧
      (carriageReturn < 0x80 ∧
        decodeLossy bytes = decodeLossy (front ++ cutOff) ++ "\r" ++ decodeLossy ("\n".toUTF8 ++ back)) ∧
      (Whole front ∧ lineFeed ∉ Bytes.toList content ∧
        lines [.chunk bytes] =
          lines [.chunk front] ++ .ok (text content) :: lines [.chunk back]) ∧
      (Whole (front ++ content ++ [lineFeed].toByteArray) ∧ back ≠ ByteArray.empty ∧
        lines [.chunk bytes] =
          lines [.chunk (front ++ content ++ [lineFeed].toByteArray)] ++ [.ok (text back)]) := by
  intro front cutOff content back bytes
  have hascii : carriageReturn < 0x80 := by decide
  have hfront : Whole front := by decide +kernel
  have hcontent : lineFeed ∉ Bytes.toList content := by decide +kernel
  have hwhole : Whole (front ++ content ++ [lineFeed].toByteArray) := by decide +kernel
  have hback : lineFeed ∉ Bytes.toList back := by decide +kernel
  have hne : back ≠ ByteArray.empty := fun h => nomatch congrArg ByteArray.size h
  have htexts : texts bytes = ["1", "\uFFFD", "\uFFFD"] := by decide +kernel
  have hbytes : bytes = front ++ cutOff ++ [carriageReturn].toByteArray ++ ("\n".toUTF8 ++ back) := by
    decide +kernel
  have hreturn : String.singleton (Char.ofNat carriageReturn.toNat) = "\r" := by decide +kernel
  obtain ⟨hlines, -, hafresh, hline⟩ := decoding_keeps_lines bytes
  have hreturns := hafresh (front ++ cutOff) carriageReturn _ hascii hbytes
  rw [hreturn] at hreturns
  refine ⟨by rw [lines_chunk, htexts]; rfl, by decide +kernel, hlines, ⟨hascii, hreturns⟩,
    ⟨hfront, hcontent, (hline front content hfront hcontent).1 back rfl⟩,
    hwhole, hne, (hline _ back hwhole hback).2 hne rfl⟩

end RemoteLog.Line
