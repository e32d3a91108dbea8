import RemoteLog.Proofs.Line.Reader
import RemoteLog.Proofs.Line.Writing

/-! # Terminators of lines

The terminator of a line is a line feed, with the carriage return that stands directly before it if there
is one. A plain reader of text takes terminators away and nothing else; what no line feed ends has none
and is given as it stands. The lines of a log are trimmed once more: a carriage return at the end of the
last line is taken away although no line feed stands behind it. So both readers agree just on the texts
that do not end with a carriage return, and otherwise differ in their last line.

* **`Line.withoutTerminator line`** — a line without its terminator.
* **`Line.Reader.plainLines script`** — the loop of a plain reader; **`Line.Reader.plainLines_eq`** — it
  goes through the stretches, too.
* **`Line.exists_cut_encode`** — how a text splits into lines.
* **`Line.lines_eq_plainLines_iff`** — where both readers agree, and what is lost where they do not. -/

namespace RemoteLog.Line

open Text.Utf8

/-! ## A plain reader -/

/-- **A line without its terminator.** A line that no line feed ends has none. -/
def withoutTerminator (line : List UInt8) : List UInt8 :=
  if line.getLast? = some lineFeed then withoutReturn line.dropLast else line

/-- What a plain reader says of bytes that spell no text. -/
def notText : SystemError := .other "stream did not contain valid UTF-8"

/-- **The text of a line for a plain reader,** which does not guess at bytes that spell none. -/
def plainText (line : List UInt8) : Except SystemError String :=
  match String.fromUTF8? (withoutTerminator line).toByteArray with
  | some text => .ok text
  | none => .error notText

namespace Reader

/-- The next line of a plain reader, or the failure in its place; none if nothing is left. -/
def nextPlain (script : List ReadEvent) : Option (Except SystemError String) × List ReadEvent :=
  match readLine [] script with
  | (.error cause, rest) => (some (.error cause), rest)
  | (.ok [], rest) => (none, rest)
  | (.ok line, rest) => (some (plainText line), rest)

theorem weight_of_nextPlain {script rest : List ReadEvent} {item : Except SystemError String}
    (h : nextPlain script = (some item, rest)) : weight rest < weight script := by
  have hrest : (readLine [] script).2 = rest := by
    unfold nextPlain at h
    split at h <;> simp_all
  rw [← hrest]
  apply weight_readLine_lt
  rintro rfl
  simp [nextPlain, readLine] at h

set_option linter.unusedVariables false in
/-- **All lines of a plain reader,** and the failures between them, until nothing is left. -/
def plainLines (script : List ReadEvent) : List (Except SystemError String) :=
  match h : nextPlain script with
  | (none, _) => []
  | (some item, rest) => item :: plainLines rest
termination_by weight script
decreasing_by exact weight_of_nextPlain h

/-- **The loop of a plain reader** goes through the stretches. -/
theorem plainLines_eq (script : List ReadEvent) :
    plainLines script = (stretches script).items.map (· >>= plainText) := by
  fun_induction plainLines script with
  | case1 script rest h =>
    unfold nextPlain at h
    split at h
    · cases h
    · next hread => rw [items_of_readLine hread]; rfl
    · cases h
  | case2 script item rest h ih =>
    unfold nextPlain at h
    split at h
    · next hread =>
      cases h
      rw [items_of_readLine hread, ih]
      rfl
    · cases h
    · next line _ hline hread =>
      cases h
      cases line with
      | nil => exact absurd rfl hline
      | cons b line =>
        rw [items_of_readLine hread, ih]
        rfl

end Reader

/-! ## Lines of characters -/

/-- Characters are read from the bytes that spell them. -/
theorem fromUTF8?_encode (chars : List Char) :
    String.fromUTF8? (encode chars).toByteArray = some (String.ofList chars) := by
  have hbytes : (encode chars).toByteArray = (String.ofList chars).toUTF8 :=
    Bytes.eq_of_toList (by rw [toList_toUTF8, String.toList_ofList, Bytes.toList_toByteArray])
  rw [hbytes]
  exact dif_pos (String.ofList chars).isValidUTF8

/-- In front of a line feed, both readers take a carriage return away. -/
theorem plainText_finished (chars : List Char) :
    plainText (encode chars ++ [lineFeed]) = .ok (String.ofList (trimReturn chars)) := by
  rw [plainText, withoutTerminator, if_pos List.getLast?_concat, List.dropLast_concat,
    withoutReturn_encode, fromUTF8?_encode]

/-- A plain reader takes nothing away from what no line feed ends. -/
theorem plainText_unfinished {chars : List Char} (h : '\n' ∉ chars) :
    plainText (encode chars) = .ok (String.ofList chars) := by
  have hlast : (encode chars).getLast? ≠ some lineFeed :=
    fun hlast => lineFeed_notMem_encode h (List.mem_of_getLast? hlast)
  rw [plainText, withoutTerminator, if_neg hlast, fromUTF8?_encode]

/-- **How a text splits into lines:** into finished lines and what stands behind the last line feed. A
carriage return at the end of the text is at the end of that. -/
theorem exists_cut_encode (chars : List Char) :
    ∃ (finished : List (List Char)) (last : List Char),
      (cut (encode chars)).1 = finished.map (fun content => encode content ++ [lineFeed]) ∧
      (cut (encode chars)).2 = encode last ∧ '\n' ∉ last ∧
      (chars.getLast? = some '\r' ↔ last.getLast? = some '\r') := by
  induction hlength : chars.length using Nat.strongRecOn generalizing chars with
  | ind n ih =>
    by_cases hfeed : '\n' ∈ chars
    · obtain ⟨front, rest, rfl, hfront⟩ := List.eq_append_cons_of_mem hfeed
      have hshort : rest.length < n := by
        rw [← hlength, List.length_append, List.length_cons]
        omega
      obtain ⟨finished, last, hlines, htail, hlast, hreturn⟩ := ih _ hshort rest rfl
      have hbytes : encode (front ++ '\n' :: rest) = encode front ++ lineFeed :: encode rest := by
        rw [encode_append]
        rfl
      rw [hbytes, cut_append_lineFeed (lineFeed_notMem_encode hfront)]
      refine ⟨front :: finished, last, by rw [hlines, List.map_cons], htail, hlast, ?_⟩
      rw [← hreturn, List.getLast?_append, List.getLast?_cons]
      -- If nothing stands behind the line feed, that is the last character.
      cases rest.getLast? <;> simp
    · rw [cut_of_notMem (lineFeed_notMem_encode hfeed)]
      exact ⟨[], chars, rfl, rfl, hfeed, Iff.rfl⟩

/-! ## Both readers -/

/-- A reader that offers bytes without a failure has them in one stretch. -/
theorem stretches_of_allBytes {script : List ReadEvent} {bytes : ByteArray}
    (h : allBytes script = .ok bytes) : stretches script = ⟨[], Bytes.toList bytes⟩ := by
  unfold allBytes at h
  suffices hfrom : (stretches script).behind (Bytes.toList ByteArray.empty) =
      ⟨[], Bytes.toList bytes⟩ by simpa using hfrom
  generalize ByteArray.empty = out at h ⊢
  -- The induction is on the script, for any bytes that have been put out before.
  induction script generalizing out with
  | nil =>
    cases h
    rw [stretches, Stretches.behind_last, List.append_nil]
  | cons event rest ih =>
    rw [List.foldlM_cons] at h
    cases event with
    | chunk more =>
      rw [stretches, Stretches.behind_behind, ← Bytes.toList_append]
      exact ih _ h
    | interrupted => exact ih _ h
    | failure cause => cases h

/-- **The lines of a text for both readers:** finished lines are the same, and what stands behind them
differs in a carriage return at its end. -/
theorem lines_of_text {script : List ReadEvent} {text : String}
    (h : allBytes script = .ok text.toUTF8) :
    ∃ (finished : List String) (last : List Char),
      (text.toList.getLast? = some '\r' ↔ last.getLast? = some '\r') ∧
      lines script = (finished ++
        if last = [] then [] else [String.ofList (trimReturn last)]).map Except.ok ∧
      Reader.plainLines script =
        (finished ++ if last = [] then [] else [String.ofList last]).map Except.ok := by
  have hstretches := stretches_of_allBytes h
  rw [toList_toUTF8] at hstretches
  obtain ⟨finished, last, hlines, htail, hlast, hreturn⟩ := exists_cut_encode text.toList
  have hsegments : segments (encode text.toList) =
      finished.map (fun content => encode content ++ [lineFeed]) ++
        if last = [] then [] else [encode last] := by
    rw [segments, hlines, htail]
    simp only [encode_eq_nil_iff]
  refine ⟨finished.map fun content => String.ofList (trimReturn content), last, hreturn, ?_, ?_⟩
  · rw [lines_eq, hstretches, ← map_text_segments, hsegments]
    simp only [List.flatMap_nil, List.nil_append, List.map_append, List.map_map, Function.comp_def,
      text_finished, contentText_encode]
    by_cases hnil : last = []
    · simp only [hnil, if_true, List.map_nil]
    · simp only [if_neg hnil, List.map_singleton, text_unfinished (lineFeed_notMem_encode hlast),
        contentText_encode]
  · rw [Reader.plainLines_eq, hstretches, Stretches.items, hsegments]
    simp only [List.flatMap_nil, List.nil_append, List.map_append, List.map_map, Function.comp_def,
      bind, Except.bind, plainText_finished]
    by_cases hnil : last = []
    · simp only [hnil, if_true, List.map_nil]
    · simp only [if_neg hnil, List.map_singleton, plainText_unfinished hlast]

/-- **Where log lines are plain lines.** A reader offers the bytes of a text, in any chunks and with any
interruptions. Then the lines of a log are those of a plain reader just if the text does not end with a
carriage return. If it does, the last line of the plain reader ends with it too, the log line lacks it,
and all lines before are the same. -/
theorem lines_eq_plainLines_iff {script : List ReadEvent} {text : String}
    (h : allBytes script = .ok text.toUTF8) :
    (lines script = Reader.plainLines script ↔ text.toList.getLast? ≠ some '\r') ∧
    (text.toList.getLast? = some '\r' → ∃ (before : List String) (last : String),
      Reader.plainLines script = (before ++ [last ++ "\r"]).map Except.ok ∧
      lines script = (before ++ [last]).map Except.ok) := by
  obtain ⟨finished, last, hreturn, hlines, hplain⟩ := lines_of_text h
  have hend : text.toList.getLast? = some '\r' → ∃ (before : List String) (last : String),
      Reader.plainLines script = (before ++ [last ++ "\r"]).map Except.ok ∧
      lines script = (before ++ [last]).map Except.ok := by
    intro hlast
    obtain ⟨front, rfl⟩ := List.getLast?_eq_some_iff.mp (hreturn.mp hlast)
    refine ⟨finished, String.ofList front, ?_, ?_⟩
    · rw [hplain, if_neg (by simp), String.ofList_append]
    · rw [hlines, if_neg (by simp), trimReturn, if_pos List.getLast?_concat, List.dropLast_concat]
  refine ⟨⟨fun hsame hlast => ?_, fun hlast => ?_⟩, hend⟩
  · -- The lines before the last are the same, so the last ones would be, too.
    obtain ⟨before, line, hplain, hlines⟩ := hend hlast
    rw [hlines, hplain] at hsame
    have hline : line = line ++ "\r" := by simpa using hsame
    have hlength := congrArg String.length hline
    simp at hlength
  · have htrim : trimReturn last = last := if_neg (mt hreturn.mpr hlast)
    rw [hlines, hplain, htrim]

/-- Two carriage returns in a row, the second one cut off from its line feed, and a blank line. -/
theorem lines_eq_plainLines_iff_cut_terminator :
    let script : List ReadEvent :=
      [.chunk "a\r\r".toUTF8, .interrupted, .chunk "\n\r\nb".toUTF8]
    allBytes script = .ok "a\r\r\n\r\nb".toUTF8 ∧ lines script = Reader.plainLines script ∧
      (lines script).map Except.toOption = [some "a\r", some "", some "b"] := by
  intro script
  have hbytes : allBytes script = .ok "a\r\r\n\r\nb".toUTF8 := rfl
  exact ⟨hbytes, (lines_eq_plainLines_iff hbytes).1.mpr (by decide), by decide +kernel⟩

/-- **A carriage return that belongs to no terminator is lost.** A log of two bytes has a line of one,
which a plain reader gives as it stands. -/
theorem lines_ne_plainLines :
    lines [.chunk "a\r".toUTF8] = [.ok "a"] ∧
      Reader.plainLines [.chunk "a\r".toUTF8] = [.ok "a\r"] ∧
      lines [.chunk "a\r".toUTF8] ≠ Reader.plainLines [.chunk "a\r".toUTF8] := by
  have hbytes : allBytes [.chunk "a\r".toUTF8] = .ok "a\r".toUTF8 := rfl
  have htexts : texts "a\r".toUTF8 = ["a"] := by decide +kernel
  have hlines : lines [.chunk "a\r".toUTF8] = [.ok "a"] := by
    rw [lines_chunk, htexts, List.map_singleton]
  have hplain : Reader.plainLines [.chunk "a\r".toUTF8] = [.ok "a\r"] := by
    have hline : plainText (encode "a\r".toList) = .ok (String.ofList "a\r".toList) :=
      plainText_unfinished (by decide)
    rw [Reader.plainLines_eq, stretches_of_allBytes hbytes, toList_toUTF8,
      Stretches.items_last (lineFeed_notMem_encode (by decide)), if_neg (by decide)]
    exact congrArg (fun line => [line]) hline
  refine ⟨hlines, hplain, ?_⟩
  rw [hlines, hplain]
  simp

end RemoteLog.Line
