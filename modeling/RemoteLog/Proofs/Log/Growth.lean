import RemoteLog.Proofs.Line.Whole
import RemoteLog.Proofs.Log.Window

/-! # Windows of a file that grows

Logs are written while they are read. Bytes put behind a file may go on with its last line, in the
middle of a character or of a line break, but the lines in front of a line feed are there to stay. A
window of those is the same before and after, and a window that is read while the file grows still
ends within the lines that are counted, or where it begins.

* **`Line.finished bytes`** — the number of lines that a line feed ends.
* **`Line.length_texts_le_append`** — no line is lost.
* **`Log.window_append`**, **`Log.windowDuring_current_le`** — windows before, behind and during an
  append.
* **`Log.append_keeps_windows`** — appending to a file. -/

namespace RemoteLog

namespace Line

/-! ## Lines of bytes that grow -/

/-- **The number of finished lines:** one for each line feed. -/
def finished (bytes : ByteArray) : Nat := (Bytes.toList bytes).count lineFeed

theorem length_finishedTexts (bytes : ByteArray) :
    (finishedTexts (Bytes.toList bytes)).length = finished bytes := by
  rw [← map_text_cut, List.length_map, length_cut, finished]

/-- Bytes without a line feed are a line unless there are none. -/
theorem length_allTexts_tail (bytes : List UInt8) :
    (allTexts (cut bytes).2).length = if (cut bytes).2 = [] then 0 else 1 := by
  rw [← map_text_segments, List.length_map, segments, cut_of_notMem (lineFeed_notMem_tail bytes)]
  split <;> rfl

/-- Bytes are a line or more. -/
theorem length_allTexts_pos {bytes : List UInt8} (h : bytes ≠ []) :
    0 < (allTexts bytes).length := by
  rw [← map_text_segments, List.length_map, List.length_pos_iff]
  intro hnil
  apply h
  rw [← flatten_segments bytes, hnil, List.flatten_nil]

/-- **Lines that are finished stay:** they are the first lines of all that begins with their
bytes. -/
theorem prefix_texts_append (c d : ByteArray) :
    finishedTexts (Bytes.toList c) <+: texts (c ++ d) := by
  rw [texts_eq_allTexts, Bytes.toList_append, allTexts_append]
  exact List.prefix_append _ _

/-- As many lines as are finished can be taken from bytes with more behind them. -/
theorem take_texts_append (c d : ByteArray) {n : Nat} (hn : n ≤ finished c) :
    (texts (c ++ d)).take n = (finishedTexts (Bytes.toList c)).take n := by
  rw [← length_finishedTexts] at hn
  rw [List.prefix_iff_eq_take.mp (prefix_texts_append c d), List.take_take,
    Nat.min_eq_left hn]

theorem take_texts (c : ByteArray) {n : Nat} (hn : n ≤ finished c) :
    (texts c).take n = (finishedTexts (Bytes.toList c)).take n := by
  have happend : c ++ ByteArray.empty = c := Bytes.eq_of_toList (by simp)
  simpa only [happend] using take_texts_append c ByteArray.empty hn

/-- **No line is lost** when bytes are put behind others. -/
theorem length_texts_le_append (c d : ByteArray) :
    (texts c).length ≤ (texts (c ++ d)).length := by
  rw [texts_eq_allTexts, texts_eq_allTexts, Bytes.toList_append, allTexts_append, allTexts_eq,
    List.length_append, List.length_append, length_allTexts_tail]
  apply Nat.add_le_add_left
  -- A line that was not finished goes on, so it still is a line.
  split
  · exact Nat.zero_le _
  · next htail =>
    exact length_allTexts_pos (List.append_ne_nil_of_left_ne_nil htail _)

/-- Each line takes a byte at least. -/
theorem length_texts_le_size (bytes : ByteArray) : (texts bytes).length ≤ bytes.size := by
  have hcut := flatten_cut (Bytes.toList bytes)
  have hcount := congrArg (List.count lineFeed) hcut
  have hlength := congrArg List.length hcut
  have hfeeds := List.count_le_length (a := lineFeed) (l := (cut (Bytes.toList bytes)).1.flatten)
  rw [List.count_append, List.count_eq_zero.mpr (lineFeed_notMem_tail _)] at hcount
  rw [List.length_append, Bytes.length_toList] at hlength
  rw [texts_eq_allTexts, allTexts_eq, List.length_append, length_finishedTexts,
    finished, length_allTexts_tail]
  split
  · omega
  · next htail =>
    have := List.length_pos_iff.mpr htail
    omega

end Line

namespace Log

open Message

/-! ## Windows of a file that grows -/

variable {guard : PathGuard} {fs fs' : FileSystem} {request : RollViewLogRequest}

/-- The page of a window is known from the lines up to its end. -/
theorem page_eq (lines : List String) (skip limit : Nat) :
    (lines.drop skip).take limit = (lines.take (skip + limit)).drop skip := by
  rw [List.drop_take, Nat.add_sub_cancel_left]

/-- **A window of finished lines** is the same before and after an append. -/
theorem window_append {c d : ByteArray} (hbefore : fs.Holds request.path c)
    (hafter : fs'.Holds request.path (c ++ d))
    (hfinished : request.skip.toNat + request.limit.toNat ≤ Line.finished c) :
    (window guard fs' request).log = (window guard fs request).log ∧
      (window guard fs' request).current = (window guard fs request).current := by
  simp only [← windowDuring_self]
  cases haccepts : guard.accepts request.path with
  | false => simp only [windowDuring_refused haccepts, and_self]
  | true =>
    have hpage : ((Line.texts (c ++ d)).drop request.skip.toNat).take request.limit.toNat =
        ((Line.texts c).drop request.skip.toNat).take request.limit.toNat := by
      rw [page_eq, page_eq, Line.take_texts_append c d hfinished, Line.take_texts c hfinished]
    rw [windowDuring_eq request haccepts hbefore hbefore,
      windowDuring_eq request haccepts hafter hafter, hpage]
    exact ⟨rfl, rfl⟩

/-- **A window that is read while the file grows** ends within the lines that are counted, or where
it begins. -/
theorem windowDuring_current_le {c d : ByteArray} (hbefore : fs.Holds request.path c)
    (hafter : fs'.Holds request.path (c ++ d)) (hsize : (c ++ d).size < UInt64.size) :
    (windowDuring guard fs fs' request).current.toNat ≤
      max request.skip.toNat (windowDuring guard fs fs' request).total.toNat := by
  cases haccepts : guard.accepts request.path with
  | false =>
    rw [windowDuring_refused haccepts]
    exact Nat.zero_le _
  | true =>
    have hgrown := Line.length_texts_le_append c d
    have hlines := Nat.lt_of_le_of_lt (Line.length_texts_le_size (c ++ d)) hsize
    have htotal := UInt64.toNat_ofNat_of_lt' hlines
    rw [windowDuring_eq request haccepts hbefore hafter]
    simp only [RollViewLogResponse.ok, htotal, List.length_take, List.length_drop]
    -- The number of a line cannot wrap around to more than it is.
    refine Nat.le_trans (Nat.mod_le _ _) ?_
    omega

/-- **Appending to a file keeps what could be read.** Whatever is put behind the bytes of a file, the
lines that are finished stay the first ones, and the count does not go down. So each window of
finished lines has the same text and ends at the same line before and after. A window that is read
while the file grows, its lines before and the count behind, is read without a failure, and it ends
within the lines that are counted or where it begins. A file has fewer than `2 ^ 64` bytes. -/
theorem append_keeps_windows (c d : ByteArray) :
    (Line.finished c ≤ (Line.lines [.chunk c]).length ∧
      (Line.lines [.chunk (c ++ d)]).take (Line.finished c) =
        (Line.lines [.chunk c]).take (Line.finished c)) ∧
    (∃ before after, Line.countLines [.chunk c] = .ok before ∧
      Line.countLines [.chunk (c ++ d)] = .ok after ∧ before ≤ after) ∧
    ∀ (guard : PathGuard) (fs fs' : FileSystem) (request : RollViewLogRequest),
      fs.Holds request.path c → fs'.Holds request.path (c ++ d) →
      (request.skip.toNat + request.limit.toNat ≤ Line.finished c →
        (window guard fs' request).log = (window guard fs request).log ∧
          (window guard fs' request).current = (window guard fs request).current) ∧
      (guard.accepts request.path = true → (windowDuring guard fs fs' request).status = .ok) ∧
      ((c ++ d).size < UInt64.size →
        (windowDuring guard fs fs' request).current.toNat ≤
          max request.skip.toNat (windowDuring guard fs fs' request).total.toNat) := by
  refine ⟨⟨?_, ?_⟩, ⟨_, _, Line.countLines_chunk c, Line.countLines_chunk (c ++ d),
    Line.length_texts_le_append c d⟩, fun guard fs fs' request hbefore hafter =>
      ⟨window_append hbefore hafter, ?_, windowDuring_current_le hbefore hafter⟩⟩
  · rw [Line.lines_chunk, List.length_map, Line.texts_eq_allTexts, Line.allTexts_eq,
      List.length_append, Line.length_finishedTexts]
    exact Nat.le_add_right _ _
  · rw [Line.lines_chunk, Line.lines_chunk, ← List.map_take, ← List.map_take,
      Line.take_texts_append c d (Nat.le_refl _), Line.take_texts c (Nat.le_refl _)]
  · intro haccepts
    rw [windowDuring_eq request haccepts hbefore hafter]
    rfl

/-- Another process appends within a line break. The first line stays, and a window of five lines
behind it, read while the file grows, ends within the lines that are counted. -/
theorem append_keeps_windows_split_break :
    let c : ByteArray := "1\n2\r".toUTF8
    let d : ByteArray := "\n3".toUTF8
    let fs : FileSystem :=
      ⟨[(["logs"], .directory), (["logs", "a.log"], .file (.ofBytes c))], []⟩
    let path := "/logs/a.log"
    (0 : UInt32).toNat + (1 : UInt32).toNat ≤ Line.finished c ∧ (c ++ d).size < UInt64.size ∧
      fs.Holds path c ∧
      ∃ fs', fs.appendFile path d = .ok fs' ∧ fs'.Holds path (c ++ d) ∧
        (window ⟨"/logs"⟩ fs' ⟨path, 0, 1⟩).log = (window ⟨"/logs"⟩ fs ⟨path, 0, 1⟩).log ∧
        (windowDuring ⟨"/logs"⟩ fs fs' ⟨path, 1, 5⟩).status = .ok ∧
        (windowDuring ⟨"/logs"⟩ fs fs' ⟨path, 1, 5⟩).current.toNat ≤
          max 1 (windowDuring ⟨"/logs"⟩ fs fs' ⟨path, 1, 5⟩).total.toNat := by
  intro c d fs path
  have hholds : fs.Holds path c := by
    have hsteps : FileSystem.steps .use path = ["logs", "a.log"] := by decide +kernel
    refine .of_names (by decide +kernel) (by decide +kernel) hsteps (List.cons_ne_nil _ _)
      (by decide +kernel) ?_ rfl
    intro n hn
    match n, hn with
    | 0, _ => rfl
    | 1, _ => rfl
  have hfinished : (0 : UInt32).toNat + (1 : UInt32).toNat ≤ Line.finished c := by
    decide +kernel
  have hsize : (c ++ d).size < UInt64.size := by decide +kernel
  obtain ⟨fs', happend, hgrown⟩ := hholds.changeFile (· ++ d)
  obtain ⟨-, -, hwindows⟩ := append_keeps_windows c d
  obtain ⟨hbefore, -⟩ := hwindows ⟨"/logs"⟩ fs fs' ⟨path, 0, 1⟩ hholds hgrown
  obtain ⟨-, hread, hduring⟩ := hwindows ⟨"/logs"⟩ fs fs' ⟨path, 1, 5⟩ hholds hgrown
  exact ⟨hfinished, hsize, hholds, fs', happend, hgrown, (hbefore hfinished).1,
    hread (by decide +kernel), hduring hsize⟩

end Log

end RemoteLog
