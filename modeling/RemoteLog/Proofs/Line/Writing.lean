import RemoteLog.Proofs.Line.Whole
import RemoteLog.Proofs.Text.Lossy

/-! # Lines that are written

Texts that are written one per line are read back as lines, if no text has a line feed of its own. A
reader takes away one carriage return with the line feed behind it, so a text may end with one if the
writer puts another one behind it, and must not if it does not.

* **`Line.written ending lines`** — lines with an end behind each of them.
* **`Line.ComesBack ending line`** — a line that is read back from in front of its end.
* **`Line.texts_written`**, **`Line.texts_joined`** — lines are read back, with an end behind the last one
  and without. -/

namespace RemoteLog.Line

open Text.Utf8

/-- **Lines, each with an end behind it.** -/
def written (ending : String) (lines : List String) : String :=
  String.join (lines.map (· ++ ending))

/-! ## One line -/

/-- **A line that comes back** from in front of its end: it has no line feed, and no carriage return of
its own would be taken away. -/
def ComesBack (ending line : String) : Prop :=
  '\n' ∉ line.toList ∧
    (ending = "\r\n" ∨ ending = "\n" ∧ line.toList.getLast? ≠ some '\r')

/-- The bytes of a text without a line feed have none. -/
theorem lineFeed_notMem_encode {chars : List Char} (h : '\n' ∉ chars) : lineFeed ∉ encode chars :=
  fun hmem => h (mem_of_mem_encode (by decide) hmem)

/-- Characters without the one carriage return at their end, if there is one. -/
def trimReturn (chars : List Char) : List Char :=
  if chars.getLast? = some '\r' then chars.dropLast else chars

theorem trimReturn_eq_self {chars : List Char} (h : chars.getLast? ≠ some '\r') :
    trimReturn chars = chars := if_neg h

theorem trimReturn_concat (chars : List Char) : trimReturn (chars ++ ['\r']) = chars := by
  rw [trimReturn, if_pos List.getLast?_concat, List.dropLast_concat]

theorem withoutReturn_encode (chars : List Char) :
    withoutReturn (encode chars) = encode (trimReturn chars) := by
  unfold withoutReturn trimReturn
  by_cases h : chars.getLast? = some '\r'
  · obtain ⟨front, rfl⟩ := List.getLast?_eq_some_iff.mp h
    have hreturn : encode ['\r'] = [carriageReturn] := by decide
    rw [encode_append, hreturn, if_pos List.getLast?_concat, if_pos h, List.dropLast_concat,
      List.dropLast_concat]
  · have hlast : (encode chars).getLast? ≠ some carriageReturn :=
      fun hlast => h (getLast?_of_encode (by decide) hlast)
    rw [if_neg hlast, if_neg h]

/-- **The text of a line** is told by its characters. -/
theorem contentText_encode (chars : List Char) :
    contentText (encode chars) = String.ofList (trimReturn chars) := by
  rw [contentText, withoutReturn_encode, decodeLossy_encode]

/-- **A line comes back** from in front of its end, whatever follows. -/
theorem allTexts_encode_line {ending line : String} (h : ComesBack ending line)
    (rest : List UInt8) :
    allTexts (encode (line ++ ending).toList ++ rest) = line :: allTexts rest := by
  obtain ⟨hfeed, rfl | ⟨rfl, hreturn⟩⟩ := h
  · have hcontent : '\n' ∉ line.toList ++ ['\r'] := by
      simpa using hfeed
    have hbytes : encode (line ++ "\r\n").toList ++ rest =
        encode (line.toList ++ ['\r']) ++ lineFeed :: rest := by
      rw [String.toList_append, encode_append, encode_append, List.append_assoc, List.append_assoc]
      rfl
    rw [hbytes, allTexts_finished (lineFeed_notMem_encode hcontent), contentText_encode,
      trimReturn_concat, String.ofList_toList]
  · have hbytes : encode (line ++ "\n").toList ++ rest = encode line.toList ++ lineFeed :: rest := by
      rw [String.toList_append, encode_append, List.append_assoc]
      rfl
    rw [hbytes, allTexts_finished (lineFeed_notMem_encode hfeed), contentText_encode,
      trimReturn_eq_self hreturn, String.ofList_toList]

/-! ## All lines -/

/-- **Lines with their ends are read back.** -/
theorem texts_written {ending : String} {lines : List String}
    (h : ∀ line ∈ lines, ComesBack ending line) : texts (written ending lines).toUTF8 = lines := by
  rw [texts_eq_allTexts, toList_toUTF8, written]
  induction lines with
  | nil => rfl
  | cons line lines ih =>
    have hrest := ih fun line hline => h line (List.mem_cons_of_mem _ hline)
    simp only [String.toList_join, List.map_cons, List.flatMap_cons, encode_append] at hrest ⊢
    rw [allTexts_encode_line (h line (List.mem_cons_self ..)), hrest]

/-- **Lines with ends between them are read back,** if the last one is no blank line and ends with no
carriage return. -/
theorem texts_joined {ending : String} {lines : List String}
    (h : ∀ line ∈ lines, ComesBack ending line)
    (hlast : ∀ line ∈ lines, line ≠ "" ∧ line.toList.getLast? ≠ some '\r') :
    texts (ending.intercalate lines).toUTF8 = lines := by
  rw [texts_eq_allTexts, toList_toUTF8]
  induction lines with
  | nil => rfl
  | cons line lines ih =>
    have hline := h line (List.mem_cons_self ..)
    cases lines with
    | nil =>
      obtain ⟨hne, hreturn⟩ := hlast line (List.mem_cons_self ..)
      have hbytes : encode line.toList ≠ [] :=
        mt encode_eq_nil_iff.mp (mt String.toList_eq_nil_iff.mp hne)
      rw [String.intercalate_singleton,
        allTexts_unfinished (lineFeed_notMem_encode hline.1) hbytes, contentText_encode,
        trimReturn_eq_self hreturn, String.ofList_toList]
    | cons next lines =>
      have hrest := ih (fun line hmem => h line (List.mem_cons_of_mem _ hmem))
        (fun line hmem => hlast line (List.mem_cons_of_mem _ hmem))
      rw [String.intercalate_cons_cons, String.toList_append, encode_append,
        allTexts_encode_line hline, hrest]

end RemoteLog.Line
