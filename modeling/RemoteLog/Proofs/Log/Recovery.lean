import RemoteLog.Proofs.Log.Growth
import RemoteLog.Proofs.Text.Utf8

/-! # The lines of a window, told from its answer

An answer to a window joins its lines with line breaks, and the lines are found again by splitting
the text at every line break: no line has a line feed within, whatever bytes the file holds. A text
without a character is no line or one blank line; the numbers in the answer tell which.

* **`Line.lineFeed_notMem_of_mem_texts`** — no line has a line feed.
* **`Log.betweenBreaks text`** — the texts between the line breaks of a text;
  **`Log.betweenBreaks_joinLines`** — of joined lines these are the lines.
* **`Log.shownLines skip view`** — the lines that an answer tells of.
* **`Log.window_exactly`** — the answer for a readable file. -/

namespace RemoteLog

namespace Line

/-- The text of bytes without a line feed has none. -/
theorem lineFeed_notMem_contentText {content : List UInt8} (h : lineFeed ∉ content) :
    '\n' ∉ (contentText content).toList := by
  intro hmem
  obtain ⟨b, hb, hvalue⟩ := Text.Utf8.mem_of_mem_decodeLossy hmem (by decide)
  obtain rfl : b = lineFeed := UInt8.toNat_inj.mp hvalue
  rw [Bytes.toList_toByteArray, withoutReturn] at hb
  split at hb
  · exact h (List.dropLast_subset _ hb)
  · exact h hb

/-- **No line has a line feed.** -/
theorem lineFeed_notMem_of_mem_texts {bytes : ByteArray} {line : String} (h : line ∈ texts bytes) :
    '\n' ∉ line.toList := by
  rw [texts_eq_allTexts, ← map_text_segments] at h
  obtain ⟨raw, hraw, rfl⟩ := List.mem_map.mp h
  rcases List.mem_append.mp hraw with hraw | hraw
  · obtain ⟨front, hfront, rfl⟩ := exists_of_mem_cut hraw
    rw [text_finished]
    exact lineFeed_notMem_contentText hfront
  · have htail := lineFeed_notMem_tail (Bytes.toList bytes)
    obtain rfl : raw = (cut (Bytes.toList bytes)).2 := by
      split at hraw
      · cases hraw
      · exact List.mem_singleton.mp hraw
    rw [text_unfinished htail]
    exact lineFeed_notMem_contentText htail

end Line

namespace Log

open Message

/-! ## Line breaks -/

/-- **The texts between the line breaks of a text,** from left to right. -/
def betweenBreaks : List Char → List (List Char)
  | [] => [[]]
  | '\r' :: '\n' :: rest => [] :: betweenBreaks rest
  | c :: rest => (betweenBreaks rest).modifyHead (c :: ·)

/-- A text without a line feed has no line break. -/
theorem betweenBreaks_of_notMem {line : List Char} (h : '\n' ∉ line) :
    betweenBreaks line = [line] := by
  fun_induction betweenBreaks line with
  | case1 => rfl
  | case2 rest ih => simp at h
  | case3 c rest _ ih => rw [ih (List.not_mem_of_not_mem_cons h), List.modifyHead_cons]

/-- The first line break ends the first text. -/
theorem betweenBreaks_append {line : List Char} (h : '\n' ∉ line) (rest : List Char) :
    betweenBreaks (line ++ '\r' :: '\n' :: rest) = line :: betweenBreaks rest := by
  induction line with
  | nil => rfl
  | cons c line ih =>
    have hline := List.not_mem_of_not_mem_cons h
    -- What stands behind the first character is no line feed, so no line break begins here.
    have hnobreak : ∀ more, c = '\r' → line ++ '\r' :: '\n' :: rest = '\n' :: more → False := by
      intro more _ hmore
      cases line with
      | nil => cases hmore
      | cons d line => exact hline ((List.cons.inj hmore).1 ▸ List.mem_cons_self ..)
    rw [List.cons_append, betweenBreaks, ih hline, List.modifyHead_cons]
    exact hnobreak

/-- **Lines that were joined are found again** between the line breaks, if none of them has a line
feed. -/
theorem betweenBreaks_joinLines {lines : List String} (hne : lines ≠ [])
    (h : ∀ line ∈ lines, '\n' ∉ line.toList) :
    betweenBreaks (joinLines lines).toList = lines.map String.toList := by
  induction lines with
  | nil => exact absurd rfl hne
  | cons line rest ih =>
    have hline := h line (List.mem_cons_self ..)
    cases rest with
    | nil => simp [joinLines, betweenBreaks_of_notMem hline]
    | cons next rest =>
      have hjoined : (joinLines (line :: next :: rest)).toList =
          line.toList ++ '\r' :: '\n' :: (joinLines (next :: rest)).toList := by
        simp [joinLines, lineBreak, String.intercalate_cons_cons]
      have hrest := ih (List.cons_ne_nil _ _) fun line hmem => h line (List.mem_cons_of_mem _ hmem)
      rw [hjoined, betweenBreaks_append hline, hrest]
      rfl

/-! ## What an answer tells -/

/-- **The lines that an answer tells of,** if `skip` lines were to be in front of them: none if its
last line is the last one in front, and otherwise the texts between its line breaks. -/
def shownLines (skip : UInt32) (view : RollViewLogResponse) : List String :=
  if view.current.toNat = skip.toNat then []
  else (betweenBreaks view.log.toList).map String.ofList

/-- The number of the last line of a window never overflows. -/
theorem toNat_current {skip limit : UInt32} {n : Nat} (hn : n ≤ limit.toNat) :
    (UInt64.ofNat (skip.toNat + n)).toNat = skip.toNat + n := by
  have hskip := skip.toNat_lt
  have hlimit := limit.toNat_lt
  have hsize : UInt64.size = 2 ^ 64 := rfl
  exact UInt64.toNat_ofNat_of_lt' (by omega)

/-- **The lines of a page are found again** in the answer that holds them. -/
theorem shownLines_ok {skip limit : UInt32} {page : List String} (total : UInt64)
    (hlength : page.length ≤ limit.toNat) (h : ∀ line ∈ page, '\n' ∉ line.toList) :
    shownLines skip (.ok (UInt64.ofNat (skip.toNat + page.length)) total (joinLines page)) =
      page := by
  rw [shownLines, RollViewLogResponse.ok, toNat_current hlength]
  by_cases hnil : page = []
  · rw [hnil, List.length_nil, Nat.add_zero, if_pos rfl]
  · have hpos := List.length_pos_iff.mpr hnil
    rw [if_neg (by omega), betweenBreaks_joinLines hnil h, List.map_map]
    simp [Function.comp_def]

/-- A page holds the lines behind those that are skipped, up to its last one. -/
theorem drop_take_length_page (lines : List String) (skip limit : Nat) :
    (lines.take (skip + ((lines.drop skip).take limit).length)).drop skip =
      (lines.drop skip).take limit := by
  rw [← page_eq, List.take_eq_take_iff, List.length_take]
  omega

/-- **The answer for a readable file.** The window is read, whatever is skipped and asked for. The
answer has the number of all lines, and the number of the last line of the window, which never
overflows: as many lines behind those that are skipped as there are, up to the limit. From the answer
alone the lines from the first behind those that are skipped up to the last one are found again. A file
has fewer than `2 ^ 64` bytes. -/
theorem window_exactly {guard : PathGuard} {fs : FileSystem} {request : RollViewLogRequest}
    {bytes : ByteArray} (haccepts : guard.accepts request.path = true)
    (hfile : fs.Holds request.path bytes) :
    ∃ lines : List String, Line.lines [.chunk bytes] = lines.map Except.ok ∧
      let view := window guard fs request
      view.status = .ok ∧
      view.total = UInt64.ofNat lines.length ∧
      (bytes.size < UInt64.size → view.total.toNat = lines.length) ∧
      view.current.toNat =
        request.skip.toNat + min request.limit.toNat (lines.length - request.skip.toNat) ∧
      request.skip.toNat ≤ view.current.toNat ∧
      view.current.toNat ≤ request.skip.toNat + request.limit.toNat ∧
      shownLines request.skip view = (lines.take view.current.toNat).drop request.skip.toNat := by
  obtain ⟨page, hpage⟩ :
      ∃ page, ((Line.texts bytes).drop request.skip.toNat).take request.limit.toNat = page :=
    ⟨_, rfl⟩
  have hlength : page.length =
      min request.limit.toNat ((Line.texts bytes).length - request.skip.toNat) := by
    rw [← hpage, List.length_take, List.length_drop]
  have hfits : page.length ≤ request.limit.toNat := by omega
  have hfeeds : ∀ line ∈ page, '\n' ∉ line.toList := fun line hline =>
    Line.lineFeed_notMem_of_mem_texts (List.mem_of_mem_drop (List.mem_of_mem_take (hpage ▸ hline)))
  have hview := windowDuring_eq request haccepts hfile hfile
  simp only [windowDuring_self, hpage] at hview
  have htotal : (window guard fs request).total = UInt64.ofNat (Line.texts bytes).length := by
    rw [hview]
    rfl
  have hcurrent : (window guard fs request).current.toNat = request.skip.toNat + page.length := by
    rw [hview]
    exact toNat_current hfits
  have hshown : shownLines request.skip (window guard fs request) = page := by
    rw [hview]
    exact shownLines_ok _ hfits hfeeds
  refine ⟨Line.texts bytes, Line.lines_chunk bytes, by rw [hview]; rfl, htotal, fun hsize => ?_,
    by rw [hcurrent, hlength], by omega, by omega, ?_⟩
  · rw [htotal]
    exact UInt64.toNat_ofNat_of_lt' (Nat.lt_of_le_of_lt (Line.length_texts_le_size bytes) hsize)
  · rw [hshown, hcurrent, ← hpage, drop_take_length_page]

/-- Four lines: one with a carriage return of its own, one that no line feed ends, and a blank one. A
window of three lines ends with the blank one, and all three are found again. -/
theorem window_exactly_blank_last :
    let bytes : ByteArray := "1\r\r\n2\n\n4".toUTF8
    let fs := FileSystem.oneLog (.ofBytes bytes)
    let guard : PathGuard := ⟨"/logs"⟩
    let view := window guard fs ⟨"/logs/a.log", 0, 3⟩
    guard.accepts "/logs/a.log" = true ∧ fs.Holds "/logs/a.log" bytes ∧
      bytes.size < UInt64.size ∧ view.status = .ok ∧ view.total.toNat = 4 ∧
      view.current.toNat = 3 ∧ shownLines 0 view = ["1\r", "2", ""] := by
  intro bytes fs guard view
  have haccepts : guard.accepts "/logs/a.log" = true := by decide +kernel
  have hholds : fs.Holds "/logs/a.log" bytes := FileSystem.holds_oneLog bytes
  have hsize : bytes.size < UInt64.size := by decide +kernel
  obtain ⟨lines, hlines, hstatus, -, htotal, hcurrent, -, -, hshown⟩ :=
    @window_exactly guard fs ⟨"/logs/a.log", 0, 3⟩ bytes haccepts hholds
  have htexts : Line.texts bytes = ["1\r", "2", "", "4"] := by decide +kernel
  obtain rfl : ["1\r", "2", "", "4"] = lines := by
    rw [Line.lines_chunk, htexts] at hlines
    exact (List.map_inj_right fun _ _ => Except.ok.inj).mp hlines
  refine ⟨haccepts, hholds, hsize, hstatus, htotal hsize, hcurrent, hshown.trans ?_⟩
  rw [hcurrent]
  rfl

end Log

end RemoteLog
