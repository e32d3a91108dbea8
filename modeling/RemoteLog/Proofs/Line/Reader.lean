import RemoteLog.Proofs.Line.Stretches

/-! # Lines from a reader

A line is read by asking a reader again and again until a line feed has been found or there is
nothing left. Two loops do so: one gives the lines, the other only counts them.

* **`Line.Reader.readLine`** — reads one line; **`Line.Reader.collect`**, **`Line.Reader.count`** —
  the two loops over it.
* **`Line.Reader.reads_readLine`** — what reading one line takes away from the stretches of bytes
  between the failures.
* **`Line.Reader.collect_eq`**, **`Line.Reader.count_eq`** — both loops go through the stretches.
* **`Line.lines_of_any_reader`** — the lines and their number, whatever the reader does. -/

namespace RemoteLog.Line

/-! ## The loops of a reader -/

namespace Reader

/-- The bytes up to the first line feed, with it, and the bytes behind it. -/
def splitFirst : List UInt8 → Option (List UInt8 × List UInt8)
  | [] => none
  | b :: rest =>
    if b = lineFeed then some ([b], rest)
    else (splitFirst rest).map fun (front, back) => (b :: front, back)

/-- **Reads on behind `line`** until a line feed has been taken or nothing is left, and gives what
the reader offers after that. A chunk without a line feed, perhaps without any bytes, is taken whole;
an interruption is passed over; a failure ends the attempt, and what has been taken so far is lost
with it. -/
def readLine (line : List UInt8) :
    List ReadEvent → Except SystemError (List UInt8) × List ReadEvent
  | [] => (.ok line, [])
  | .interrupted :: rest => readLine line rest
  | .failure cause :: rest => (.error cause, rest)
  | .chunk bytes :: rest =>
    match splitFirst (Bytes.toList bytes) with
    | some (front, back) => (.ok (line ++ front), .chunk back.toByteArray :: rest)
    | none => readLine (line ++ Bytes.toList bytes) rest

/-- **The next line,** or the failure in its place; none if nothing is left. -/
def next (script : List ReadEvent) : Option (Except SystemError String) × List ReadEvent :=
  match readLine [] script with
  | (.error cause, rest) => (some (.error cause), rest)
  | (.ok [], rest) => (none, rest)
  | (.ok line, rest) => (some (.ok (text line.toByteArray)), rest)

theorem exists_of_splitFirst {bytes front back : List UInt8}
    (h : splitFirst bytes = some (front, back)) :
    ∃ content, lineFeed ∉ content ∧ front = content ++ [lineFeed] ∧ bytes = front ++ back := by
  induction bytes generalizing front with
  | nil => cases h
  | cons b rest ih =>
    by_cases hb : b = lineFeed
    · obtain ⟨rfl, rfl⟩ : [b] = front ∧ rest = back := by simpa [splitFirst, hb] using h
      exact ⟨[], by simp, by simp [hb], rfl⟩
    · obtain ⟨front', hrest, rfl⟩ : ∃ front', splitFirst rest = some (front', back) ∧
          b :: front' = front := by simpa [splitFirst, hb] using h
      obtain ⟨content, hcontent, rfl, rfl⟩ := ih hrest
      exact ⟨b :: content, by simp [hcontent, Ne.symm hb], rfl, rfl⟩

theorem lineFeed_notMem_of_splitFirst {bytes : List UInt8} (h : splitFirst bytes = none) :
    lineFeed ∉ bytes := by
  induction bytes with
  | nil => simp
  | cons b rest ih =>
    by_cases hb : b = lineFeed
    · simp [splitFirst, hb] at h
    · have hrest : splitFirst rest = none := by simpa [splitFirst, hb] using h
      simp [Ne.symm hb, ih hrest]

/-- How much a reader has to offer. -/
def weight : List ReadEvent → Nat
  | [] => 0
  | .chunk bytes :: rest => bytes.size + 1 + weight rest
  | .interrupted :: rest => 1 + weight rest
  | .failure _ :: rest => 1 + weight rest

/-- Whatever comes of reading a line, less is left. -/
theorem weight_readLine_lt (line : List UInt8) {script : List ReadEvent} (h : script ≠ []) :
    weight (readLine line script).2 < weight script := by
  have hall : weight (readLine line script).2 < weight script ∨ script = [] := by
    clear h
    fun_induction readLine line script with
    | case1 => exact .inr rfl
    | case3 => simp [weight]
    | case4 line bytes rest front back h =>
      obtain ⟨content, -, rfl, hbytes⟩ := exists_of_splitFirst h
      have hlength := congrArg List.length hbytes
      simp [weight] at hlength ⊢
      omega
    | case2 line rest ih | case5 line _ rest _ ih =>
      -- What is behind the event is the end or has its own smaller rest.
      rcases ih with hlt | rfl
      · simp only [weight]
        omega
      · simp [readLine, weight]
  exact hall.resolve_right h

theorem weight_of_next {script rest : List ReadEvent} {item : Except SystemError String}
    (h : next script = (some item, rest)) : weight rest < weight script := by
  have hrest : (readLine [] script).2 = rest := by
    unfold next at h
    split at h <;> simp_all
  rw [← hrest]
  apply weight_readLine_lt
  rintro rfl
  simp [next, readLine] at h

set_option linter.unusedVariables false in
/-- **All lines,** and the failures between them, until nothing is left. -/
def collect (script : List ReadEvent) : List (Except SystemError String) :=
  match h : next script with
  | (none, _) => []
  | (some item, rest) => item :: collect rest
termination_by weight script
decreasing_by exact weight_of_next h

set_option linter.unusedVariables false in
/-- **Counts on from `n`** until nothing is left; the first failure ends the count. -/
def count (n : Nat) (script : List ReadEvent) : Except SystemError Nat :=
  match h : readLine [] script with
  | (.error cause, _) => .error cause
  | (.ok [], _) => .ok n
  | (.ok (_ :: _), rest) => count (n + 1) rest
termination_by weight script
decreasing_by
  have hne : script ≠ [] := by
    rintro rfl
    simp [readLine] at h
  have hlt := weight_readLine_lt [] hne
  rwa [h] at hlt

/-! ## The loops go through stretches -/

/-- **What reading one line takes away** from the stretches. -/
inductive Reads : Stretches → Except SystemError (List UInt8) → Stretches → Prop where
  /-- A line that a line feed ends. -/
  | line {content : List UInt8} (h : lineFeed ∉ content) (left : Stretches) :
      Reads (left.behind (content ++ [lineFeed])) (.ok (content ++ [lineFeed])) left
  /-- A failure, and the bytes in front of it, which are no finished line. -/
  | failure {bytes : List UInt8} {cause : SystemError} (h : lineFeed ∉ bytes) (left : Stretches) :
      Reads ⟨(bytes, cause) :: left.failed, left.last⟩ (.error cause) left
  /-- All that is left. -/
  | last {bytes : List UInt8} (h : lineFeed ∉ bytes) : Reads ⟨[], bytes⟩ (.ok bytes) ⟨[], []⟩

theorem reads_readLine (line : List UInt8) (script : List ReadEvent) (hline : lineFeed ∉ line) :
    Reads ((stretches script).behind line) (readLine line script).1
      (stretches (readLine line script).2) := by
  fun_induction readLine line script with
  | case1 line => simpa [stretches] using Reads.last hline
  | case2 line rest ih => exact ih hline
  | case3 line cause rest =>
    simpa [stretches] using Reads.failure hline (stretches rest)
  | case4 line bytes rest front back h =>
    obtain ⟨content, hcontent, rfl, hbytes⟩ := exists_of_splitFirst h
    have hwhole : lineFeed ∉ line ++ content := by simp [hline, hcontent]
    simpa [stretches, hbytes] using Reads.line hwhole ((stretches rest).behind back)
  | case5 line bytes rest h ih =>
    have hmore := lineFeed_notMem_of_splitFirst h
    simpa [stretches] using ih (by simp [hline, hmore])

/-- **A line that is read** is the first item, and the others are left; if nothing is read, there are
no items. -/
theorem items_of_readLine {script rest : List ReadEvent}
    {result : Except SystemError (List UInt8)} (h : readLine [] script = (result, rest)) :
    (stretches script).items =
      match result with
      | .ok [] => []
      | result => result :: (stretches rest).items := by
  have hreads := reads_readLine [] script (by simp)
  rw [Stretches.behind_nil, h] at hreads
  generalize stretches script = before at hreads ⊢
  generalize hleft : stretches rest = left at hreads ⊢
  cases hreads with
  | @line content hcontent =>
    rw [Stretches.items_line hcontent]
    cases content <;> rfl
  | failure hbytes => rw [Stretches.items_failure hbytes]
  | @last bytes hbytes =>
    rw [Stretches.items_last hbytes]
    cases bytes <;> rfl

/-- **The loop that gives lines** goes through the stretches. -/
theorem collect_eq (script : List ReadEvent) :
    collect script = (stretches script).items.map (Except.map fun raw => text raw.toByteArray) := by
  fun_induction collect script with
  | case1 script rest h =>
    unfold next at h
    split at h
    · cases h
    · next hread => rw [items_of_readLine hread]; rfl
    · cases h
  | case2 script item rest h ih =>
    unfold next at h
    split at h
    · next hread =>
      cases h
      rw [items_of_readLine hread, ih]
      rfl
    · cases h
    · next line _ hline hread =>
      cases h
      cases line with
      | nil => exact absurd rfl hline
      | cons b line =>
        rw [items_of_readLine hread, ih]
        rfl

/-- **The loop that counts lines** goes through the stretches. -/
theorem count_eq (n : Nat) (script : List ReadEvent) :
    count n script = (allOk (stretches script).items).map fun lines => n + lines.length := by
  fun_induction count n script with
  | case1 n script cause rest h => rw [items_of_readLine h]; rfl
  | case2 n script rest h => rw [items_of_readLine h]; rfl
  | case3 n script b line rest h ih =>
    rw [items_of_readLine h, ih, allOk_cons_ok]
    cases allOk (stretches rest).items with
    | error cause => rfl
    | ok lines =>
      simp only [Except.map, List.length_cons]
      congr 1
      omega

end Reader

/-! ## Lines from any reader -/

/-- **Lines from any reader.** Both loops over a reader give what a splitter gives. The lines are, for
each stretch of bytes that a failure ends, the texts between its line feeds, and then the failure:
what stands behind the last line feed is lost. The last stretch has this as its last line, unless it
is empty. The count is the first failure if there is one, and otherwise the number of lines. Where
chunks end, chunks without bytes and interruptions cannot be seen. -/
theorem lines_of_any_reader (script : List ReadEvent) :
    Reader.collect script = lines script ∧ Reader.count 0 script = countLines script ∧
      lines script = (stretches script).failed.flatMap (fun stretch =>
          (finishedTexts stretch.1).map Except.ok ++ [.error stretch.2]) ++
        (allTexts (stretches script).last).map Except.ok ∧
      countLines script =
        (script.findSome? ReadEvent.failure?).elim (.ok (lines script).length) .error ∧
      ∀ before after,
        (∀ front back, SameReading (before ++ .chunk (front ++ back) :: after)
          (before ++ .chunk front :: .chunk back :: after)) ∧
        SameReading (before ++ .chunk ByteArray.empty :: after) (before ++ after) ∧
        SameReading (before ++ .interrupted :: after) (before ++ after) := by
  refine ⟨?_, ?_, lines_eq script, ?_, fun before after => ⟨fun front back => ?_, ?_, ?_⟩⟩
  · simp only [Reader.collect_eq, lines, rawLines_eq, List.map_map]
    refine List.map_congr_left fun item _ => ?_
    cases item <;> rfl
  · rw [Reader.count_eq, countLines_eq]
    simp only [Nat.zero_add]
  · rw [countLines_eq, allOk_items, ← head?_failed]
    cases hfailed : (stretches script).failed with
    | nil => simp [lines_eq, hfailed, ← map_text_segments, Except.map]
    | cons stretch more => rfl
  · exact sameReading_of_stretches (stretches_append_congr (by simp [stretches]) before)
  · exact sameReading_of_stretches (stretches_append_congr (by simp [stretches]) before)
  · exact sameReading_of_stretches (stretches_append_congr (by simp [stretches]) before)

/-- A line feed comes late, and a failure loses the line before it. -/
example : (lines [.chunk "a\r".toUTF8, .interrupted, .chunk "\nb".toUTF8, .failure .inputOutput,
    .chunk "c".toUTF8]).map Except.toOption = [some "a", none, some "c"] := by
  decide +kernel

end RemoteLog.Line
