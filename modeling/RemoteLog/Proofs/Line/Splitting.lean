import RemoteLog.Line

/-! # How bytes split into lines

A splitter goes through the bytes that it is offered one by one. What it has found depends on the
bytes alone: the finished lines, each with its line feed, and the bytes behind the last one.

* **`Line.cut bytes`** — the finished lines and the bytes behind them. Nothing is lost, and line
  feeds stand just at the ends of the finished lines; **`Line.cut_append`** — cutting goes on.
* **`Line.segments bytes`**, **`Line.texts bytes`** — all lines, with their terminators and as text.
* **`Line.contentText content`** — the text of a line from the bytes in front of its line feed.
* **`Line.take_chunk`** — a splitter takes a chunk by cutting the bytes.
* **`Line.rawLines_chunk`**, **`Line.countLines_chunk`**, **`Line.lines_chunk`** — the lines of
  bytes that can all be read. -/

namespace RemoteLog

/-- An extract that reaches one byte further has this byte behind it. -/
theorem Bytes.toList_extract_succ {b : ByteArray} {i j : Nat} (hij : i ≤ j) (hj : j < b.size) :
    toList (b.extract i (j + 1)) = toList (b.extract i j) ++ [b[j]] := by
  have hlength : j < (toList b).length := by rwa [length_toList]
  have hbyte : (toList b)[j] = b[j] := by
    simp [toList_eq, ByteArray.getElem_eq_getElem_data]
  have htake : i ≤ ((toList b).take j).length := by
    rwa [List.length_take_of_le (Nat.le_of_lt hlength)]
  rw [toList_extract, toList_extract, List.take_succ_eq_append_getElem hlength, hbyte,
    List.drop_append_of_le_length htake]

namespace Line

/-! ## Lines of bytes -/

/-- **The finished lines of a byte sequence,** each with its line feed, and the bytes behind the
last line feed. -/
def cut : List UInt8 → List (List UInt8) × List UInt8
  | [] => ([], [])
  | b :: rest =>
    if b = lineFeed then ([b] :: (cut rest).1, (cut rest).2)
    else
      match cut rest with
      | ([], tail) => ([], b :: tail)
      | (line :: lines, tail) => ((b :: line) :: lines, tail)

/-- **Nothing is lost by cutting.** -/
theorem flatten_cut (bytes : List UInt8) : (cut bytes).1.flatten ++ (cut bytes).2 = bytes := by
  fun_induction cut bytes with
  | case1 => rfl
  | case2 rest ih => rw [List.flatten_cons, List.append_assoc, ih, List.singleton_append]
  | case3 b rest _ tail hcut ih | case4 b rest _ line lines tail hcut ih =>
    rw [hcut] at ih
    exact congrArg (b :: ·) ih

/-- **All lines of a byte sequence** with their terminators. Bytes behind the last line feed are a
line of their own. -/
def segments (bytes : List UInt8) : List (List UInt8) :=
  (cut bytes).1 ++ if (cut bytes).2 = [] then [] else [(cut bytes).2]

/-- The lines of bytes with their terminators, as bytes. -/
def ofBytes (bytes : ByteArray) : List ByteArray :=
  (segments (Bytes.toList bytes)).map List.toByteArray

/-- **The lines of bytes as text.** -/
def texts (bytes : ByteArray) : List String := (ofBytes bytes).map text

/-- Bytes without a line feed are not finished. -/
theorem cut_of_notMem {bytes : List UInt8} (h : lineFeed ∉ bytes) : cut bytes = ([], bytes) := by
  induction bytes with
  | nil => rfl
  | cons b rest ih =>
    rw [cut, if_neg (List.ne_of_not_mem_cons h).symm, ih (List.not_mem_of_not_mem_cons h)]

/-- The first line feed finishes the first line. -/
theorem cut_append_lineFeed {front : List UInt8} (h : lineFeed ∉ front) (rest : List UInt8) :
    cut (front ++ lineFeed :: rest) = ((front ++ [lineFeed]) :: (cut rest).1, (cut rest).2) := by
  induction front with
  | nil => rw [List.nil_append, cut, if_pos rfl, List.nil_append]
  | cons b front ih =>
    rw [List.cons_append, cut, if_neg (List.ne_of_not_mem_cons h).symm,
      ih (List.not_mem_of_not_mem_cons h), List.cons_append]

/-- **A finished line** has a line feed at its end and nowhere else. -/
theorem exists_of_mem_cut {bytes line : List UInt8} (h : line ∈ (cut bytes).1) :
    ∃ front, lineFeed ∉ front ∧ line = front ++ [lineFeed] := by
  fun_induction cut bytes generalizing line with
  | case1 | case3 => cases h
  | case2 rest ih =>
    cases h with
    | head => exact ⟨[], List.not_mem_nil, rfl⟩
    | tail _ hrest => exact ih hrest
  | case4 b rest hb first lines tail hcut ih =>
    rw [hcut] at ih
    cases h with
    | head =>
      obtain ⟨front, hfront, rfl⟩ := ih (List.mem_cons_self ..)
      exact ⟨b :: front, List.not_mem_cons_of_ne_of_not_mem (Ne.symm hb) hfront, rfl⟩
    | tail _ hrest => exact ih (List.mem_cons_of_mem _ hrest)

/-- The bytes behind the last line feed have none. -/
theorem lineFeed_notMem_tail (bytes : List UInt8) : lineFeed ∉ (cut bytes).2 := by
  fun_induction cut bytes with
  | case1 => exact List.not_mem_nil
  | case2 rest ih => exact ih
  | case3 b rest hb tail hcut ih =>
    rw [hcut] at ih
    exact List.not_mem_cons_of_ne_of_not_mem (Ne.symm hb) ih
  | case4 b rest _ line lines tail hcut ih => rwa [hcut] at ih

/-- **Cutting goes on where it stopped:** the bytes behind the last line feed stand in front of all
that follow. -/
theorem cut_append (bytes more : List UInt8) :
    cut (bytes ++ more) =
      ((cut bytes).1 ++ (cut ((cut bytes).2 ++ more)).1, (cut ((cut bytes).2 ++ more)).2) := by
  fun_induction cut bytes with
  | case1 => rfl
  | case2 rest ih => simp [cut, ih]
  | case3 b rest hb tail hcut ih =>
    -- Nothing is finished, so all bytes are still at hand.
    have hrest : rest = tail := by simpa [hcut] using (flatten_cut rest).symm
    simp [hrest]
  | case4 b rest hb line lines tail hcut ih =>
    rw [hcut] at ih
    simp [cut, hb, ih]

/-- A line is finished by each line feed. -/
theorem length_cut (bytes : List UInt8) : (cut bytes).1.length = bytes.count lineFeed := by
  fun_induction cut bytes with
  | case1 => rfl
  | case2 rest ih => simp [ih]
  | case3 b rest hb tail hcut ih =>
    rw [hcut] at ih
    simp [← ih, hb]
  | case4 b rest hb line lines tail hcut ih =>
    rw [hcut] at ih
    simp [← ih, hb]

/-- **Finished lines stand between line feeds,** and what stands behind the last line feed is the
last piece. -/
theorem splitOn_lineFeed (bytes : List UInt8) :
    ∃ pieces, bytes.splitOn lineFeed = pieces ++ [(cut bytes).2] ∧
      (cut bytes).1 = pieces.map (· ++ [lineFeed]) := by
  fun_induction cut bytes with
  | case1 => exact ⟨[], by simp⟩
  | case2 rest ih =>
    obtain ⟨pieces, hpieces, hlines⟩ := ih
    exact ⟨[] :: pieces, by simp [List.splitOn_cons_eq_if_modifyHead, hpieces], by simp [hlines]⟩
  | case3 b rest hb tail hcut ih =>
    obtain ⟨pieces, hpieces, hlines⟩ := ih
    obtain rfl : pieces = [] := by simpa [hcut] using hlines
    exact ⟨[], by simp [List.splitOn_cons_eq_if_modifyHead, hb, hpieces, hcut], rfl⟩
  | case4 b rest hb line lines tail hcut ih =>
    obtain ⟨pieces, hpieces, hlines⟩ := ih
    rw [hcut] at hpieces hlines
    cases pieces with
    | nil => cases hlines
    | cons first pieces =>
      obtain ⟨rfl, rfl⟩ : line = first ++ [lineFeed] ∧ lines = pieces.map (· ++ [lineFeed]) := by
        simpa using hlines
      exact ⟨(b :: first) :: pieces,
        by simp [List.splitOn_cons_eq_if_modifyHead, hb, hpieces], rfl⟩

/-- The lines of a byte sequence are its bytes. -/
theorem flatten_segments (bytes : List UInt8) : (segments bytes).flatten = bytes := by
  have hcut := flatten_cut bytes
  unfold segments
  split
  · next hnil => rwa [List.append_nil, ← List.append_nil (cut bytes).1.flatten, ← hnil]
  · rwa [List.flatten_append, List.flatten_singleton]

/-- **Lines that are finished stay,** whatever is put behind them. -/
theorem segments_append (bytes more : List UInt8) :
    segments (bytes ++ more) = (cut bytes).1 ++ segments ((cut bytes).2 ++ more) := by
  simp only [segments, cut_append bytes more, List.append_assoc]

theorem length_texts (bytes : ByteArray) : (texts bytes).length = (ofBytes bytes).length :=
  List.length_map text

/-! ## Texts of lines -/

theorem toList_dropLast (b : UInt8) (raw : ByteArray) :
    Bytes.toList (dropLast b raw) =
      if (Bytes.toList raw).getLast? = some b then (Bytes.toList raw).dropLast
      else Bytes.toList raw := by
  have hlength : (Bytes.toList raw).length = raw.size := Bytes.length_toList raw
  unfold dropLast
  split
  · next hpos =>
    have hlast : (Bytes.toList raw).getLast? = some raw[raw.size - 1] := by
      rw [List.getLast?_eq_getElem?, hlength, List.getElem?_eq_getElem (by omega)]
      simp [Bytes.toList_eq, ByteArray.getElem_eq_getElem_data]
    simp only [hlast, Option.some.injEq]
    split
    · simp [List.dropLast_eq_take, hlength]
    · rfl
  · next hpos =>
    have hnil : Bytes.toList raw = [] := by
      apply List.eq_nil_of_length_eq_zero
      omega
    simp [hnil]

/-- Bytes without the one carriage return at their end, if there is one. -/
def withoutReturn (content : List UInt8) : List UInt8 :=
  if content.getLast? = some carriageReturn then content.dropLast else content

/-- **The text of a line** from the bytes in front of its line feed. -/
def contentText (content : List UInt8) : String :=
  Text.Utf8.decodeLossy (withoutReturn content).toByteArray

theorem text_of_content {raw : ByteArray} {content : List UInt8}
    (h : Bytes.toList (dropLast lineFeed raw) = content) : text raw = contentText content := by
  rw [text, contentText, stripTerminator]
  congr 1
  apply Bytes.eq_of_toList
  rw [toList_dropLast, h, Bytes.toList_toByteArray]
  rfl

/-- The text of a finished line. -/
theorem text_finished (content : List UInt8) :
    text (content ++ [lineFeed]).toByteArray = contentText content := by
  apply text_of_content
  simp [toList_dropLast]

/-- The text of a line that no line feed ends. -/
theorem text_unfinished {content : List UInt8} (h : lineFeed ∉ content) :
    text content.toByteArray = contentText content := by
  apply text_of_content
  have hlast : content.getLast? ≠ some lineFeed := fun hlast => h (List.mem_of_getLast? hlast)
  simp [toList_dropLast, hlast]

/-! ## Splitters -/

/-- A splitter that has gone through bytes, with items that were done before. -/
def Splitter.behind (bytes : List UInt8) (done : List RawItem) : Splitter :=
  ⟨(cut bytes).2.toByteArray,
    ((cut bytes).1.map fun raw => Except.ok raw.toByteArray).reverse ++ done⟩

/-- **A splitter within a chunk** has the bytes of the line at hand in front of all that follow. -/
theorem takeFrom_eq (chunk : ByteArray) (i start : Nat) (s : Splitter) (hstart : start ≤ i)
    (hfeed : lineFeed ∉ Bytes.toList (s.pending ++ chunk.extract start i)) :
    Splitter.takeFrom chunk i start s = .behind
      (Bytes.toList (s.pending ++ chunk.extract start i) ++ (Bytes.toList chunk).drop i)
      s.done := by
  fun_induction Splitter.takeFrom chunk i start s with
  | case1 i start s h hbyte ih =>
    -- The line at hand is finished, and the next one starts empty.
    have hempty : ByteArray.empty ++ chunk.extract (i + 1) (i + 1) = ByteArray.empty :=
      Bytes.eq_of_toList (by simp)
    have hline : s.pending ++ chunk.extract start (i + 1) =
        (Bytes.toList (s.pending ++ chunk.extract start i) ++ [lineFeed]).toByteArray := by
      apply Bytes.eq_of_toList
      rw [Bytes.toList_append, Bytes.toList_extract_succ hstart h, hbyte,
        Bytes.toList_toByteArray, Bytes.toList_append, List.append_assoc]
    rw [ih (Nat.le_refl _) (by rw [hempty]; exact List.not_mem_nil), hempty,
      Bytes.drop_toList_eq_cons h, hbyte, Splitter.behind, Splitter.behind,
      cut_append_lineFeed hfeed, hline]
    simp
  | case2 i start s h hbyte ih =>
    -- The line at hand grows by one byte.
    have hline : Bytes.toList (s.pending ++ chunk.extract start (i + 1)) =
        Bytes.toList (s.pending ++ chunk.extract start i) ++ [chunk[i]] := by
      rw [Bytes.toList_append, Bytes.toList_extract_succ hstart h, ← List.append_assoc,
        ← Bytes.toList_append]
    have hfeed' : lineFeed ∉ Bytes.toList (s.pending ++ chunk.extract start (i + 1)) := by
      rw [hline, List.mem_append, List.mem_singleton]
      exact not_or.mpr ⟨hfeed, fun heq => hbyte heq.symm⟩
    rw [ih (Nat.le_succ_of_le hstart) hfeed', hline, Bytes.drop_toList_eq_cons h,
      List.append_assoc, List.singleton_append]
  | case3 i start s h =>
    have hle := Nat.le_of_not_lt h
    have hall : chunk.extract start chunk.size = chunk.extract start i := by
      apply Bytes.eq_of_toList
      simp [List.take_of_length_le, hle]
    have hnil : (Bytes.toList chunk).drop i = [] :=
      List.drop_of_length_le (by rwa [Bytes.length_toList])
    rw [hnil, List.append_nil, Splitter.behind, cut_of_notMem hfeed, hall]
    congr 1
    exact Bytes.eq_of_toList (Bytes.toList_toByteArray _).symm

/-- **A splitter takes a chunk** by cutting the bytes of the line at hand and of the chunk. -/
theorem take_chunk {s : Splitter} (hfeed : lineFeed ∉ Bytes.toList s.pending) (chunk : ByteArray) :
    s.take (.chunk chunk) = .behind (Bytes.toList s.pending ++ Bytes.toList chunk) s.done := by
  have hline : s.pending ++ chunk.extract 0 0 = s.pending := Bytes.eq_of_toList (by simp)
  rw [Splitter.take, takeFrom_eq chunk 0 0 s (Nat.le_refl 0) (by rwa [hline]), hline,
    List.drop_zero]

/-- The items of a splitter that has gone through bytes. -/
theorem finish_behind (bytes : List UInt8) :
    (Splitter.behind bytes []).finish = ((segments bytes).map List.toByteArray).map Except.ok := by
  unfold Splitter.finish Splitter.behind segments
  by_cases hnil : (cut bytes).2 = []
  · simp [hnil, ByteArray.isEmpty]
  · simp [hnil, ByteArray.isEmpty]

/-! ## Bytes that can all be read -/

/-- **The lines of bytes that can all be read.** -/
theorem rawLines_chunk (bytes : ByteArray) :
    rawLines [.chunk bytes] = (ofBytes bytes).map Except.ok := by
  have htake : Splitter.start.take (.chunk bytes) = .behind (Bytes.toList bytes) [] :=
    take_chunk List.not_mem_nil bytes
  rw [rawLines, List.foldl_cons, List.foldl_nil, htake, finish_behind, ofBytes]

theorem allOkFrom_map_ok {α : Type} (read items : List α) :
    allOkFrom read (items.map Except.ok) = .ok (read.reverse ++ items) := by
  induction items generalizing read with
  | nil => rw [List.map_nil, allOkFrom, List.append_nil]
  | cons a rest ih =>
    rw [List.map_cons, allOkFrom, ih, List.reverse_cons, List.append_assoc, List.singleton_append]

/-- Items without a failure are all there. -/
theorem allOk_map_ok {α : Type} (items : List α) : allOk (items.map Except.ok) = .ok items :=
  allOkFrom_map_ok [] items

/-- **The number of lines** of bytes that can all be read. -/
theorem countLines_chunk (bytes : ByteArray) :
    countLines [.chunk bytes] = .ok (texts bytes).length := by
  rw [countLines, rawLines_chunk, allOk_map_ok, length_texts]
  rfl

/-- **The decoded lines** of bytes that can all be read. -/
theorem lines_chunk (bytes : ByteArray) : lines [.chunk bytes] = (texts bytes).map Except.ok := by
  rw [lines, rawLines_chunk, texts, List.map_map, List.map_map]
  rfl

end Line

end RemoteLog
