import RemoteLog.Proofs.Line.Splitting

/-! # The bytes between failures

A reader offers bytes in chunks of any size, is interrupted now and then, and may fail and go on. The
lines that it gives depend on nothing but the bytes between its failures: each failure loses what
stands behind the last line feed before it.

* **`Line.stretches script`** — the bytes between the failures of a script;
  **`Line.Stretches.items`** — the lines and failures that they come to.
* **`Line.rawLines_eq`**, **`Line.lines_eq`**, **`Line.countLines_eq`** — the lines of a script, and
  their number, from its stretches.
* **`Line.SameReading`** — scripts with the same lines and the same count;
  **`Line.sameReading_of_stretches`** — scripts with the same stretches. -/

namespace RemoteLog

/-- The failure that a reader offers. -/
def ReadEvent.failure? : ReadEvent → Option SystemError
  | .failure cause => some cause
  | _ => none

namespace Line

/-! ## Stretches -/

/-- **The bytes that a reader offers,** in stretches: each failure ends one, and the last one reaches
the end. -/
structure Stretches where
  failed : List (List UInt8 × SystemError)
  last : List UInt8

namespace Stretches

/-- Bytes in front of the first stretch. -/
def behind (front : List UInt8) : Stretches → Stretches
  | ⟨[], last⟩ => ⟨[], front ++ last⟩
  | ⟨(bytes, cause) :: more, last⟩ => ⟨(front ++ bytes, cause) :: more, last⟩

@[simp] theorem behind_last (front last : List UInt8) :
    behind front ⟨[], last⟩ = ⟨[], front ++ last⟩ := rfl

@[simp] theorem behind_cons (front bytes last : List UInt8) (cause : SystemError)
    (more : List (List UInt8 × SystemError)) :
    behind front ⟨(bytes, cause) :: more, last⟩ = ⟨(front ++ bytes, cause) :: more, last⟩ := rfl

@[simp] theorem behind_nil (s : Stretches) : s.behind [] = s := by
  obtain ⟨_ | ⟨⟨bytes, cause⟩, more⟩, last⟩ := s <;> rfl

@[simp] theorem behind_behind (front back : List UInt8) (s : Stretches) :
    (s.behind back).behind front = s.behind (front ++ back) := by
  obtain ⟨_ | ⟨⟨bytes, cause⟩, more⟩, last⟩ := s <;> simp

/-- **What stretches come to:** the finished lines of each, and behind them its failure; of the last
one all lines. -/
def items (s : Stretches) : List (Except SystemError (List UInt8)) :=
  s.failed.flatMap (fun stretch => (cut stretch.1).1.map Except.ok ++ [.error stretch.2]) ++
    (segments s.last).map Except.ok

/-- The lines that the front finishes come first, and what is behind its last line feed stays. -/
theorem items_behind (front : List UInt8) (s : Stretches) :
    (s.behind front).items = (cut front).1.map Except.ok ++ (s.behind (cut front).2).items := by
  obtain ⟨_ | ⟨⟨bytes, cause⟩, more⟩, last⟩ := s
  · simp [items, segments_append front last]
  · simp [items, cut_append front bytes]

/-- A finished line in front is the first item. -/
theorem items_line {content : List UInt8} (h : lineFeed ∉ content) (s : Stretches) :
    (s.behind (content ++ [lineFeed])).items = .ok (content ++ [lineFeed]) :: s.items := by
  have hcut : cut (content ++ [lineFeed]) = ([content ++ [lineFeed]], []) :=
    cut_append_lineFeed h []
  simp [items_behind, hcut]

/-- Bytes without a line feed are lost with the failure behind them. -/
theorem items_failure {bytes : List UInt8} (h : lineFeed ∉ bytes) (cause : SystemError)
    (more : List (List UInt8 × SystemError)) (last : List UInt8) :
    items ⟨(bytes, cause) :: more, last⟩ = .error cause :: items ⟨more, last⟩ := by
  simp [items, cut_of_notMem h]

/-- Bytes without a line feed at the end are a line unless there are none. -/
theorem items_last {bytes : List UInt8} (h : lineFeed ∉ bytes) :
    items ⟨[], bytes⟩ = if bytes = [] then [] else [.ok bytes] := by
  simp only [items, segments, cut_of_notMem h]
  split <;> simp

end Stretches

/-- **The bytes between the failures of a script.** Chunks are put together, and interruptions leave
no trace. -/
def stretches : List ReadEvent → Stretches
  | [] => ⟨[], []⟩
  | .chunk bytes :: rest => (stretches rest).behind (Bytes.toList bytes)
  | .interrupted :: rest => stretches rest
  | .failure cause :: rest => ⟨([], cause) :: (stretches rest).failed, (stretches rest).last⟩

/-! ## A splitter goes through stretches -/

/-- **A splitter** has the bytes of the line at hand in front of the stretches to come. -/
theorem finish_foldl_take (script : List ReadEvent) (s : Splitter)
    (hfeed : lineFeed ∉ Bytes.toList s.pending) :
    (script.foldl Splitter.take s).finish =
      s.done.reverse ++ ((stretches script).behind (Bytes.toList s.pending)).items.map
        (Except.map List.toByteArray) := by
  induction script generalizing s with
  | nil =>
    rw [stretches, Stretches.behind_last, List.append_nil, Stretches.items_last hfeed]
    simp only [List.foldl_nil, Splitter.finish]
    by_cases hnil : Bytes.toList s.pending = []
    · obtain hpending : s.pending = ByteArray.empty := Bytes.eq_of_toList hnil
      simp [hpending, ByteArray.isEmpty]
    · have hpending : s.pending.isEmpty = false := by
        simpa [ByteArray.isEmpty, ← Bytes.length_toList] using hnil
      have hline : (Bytes.toList s.pending).toByteArray = s.pending :=
        Bytes.eq_of_toList (Bytes.toList_toByteArray _)
      simp [hnil, hpending, hline, Except.map]
  | cons event rest ih =>
    cases event with
    | chunk bytes =>
      rw [List.foldl_cons, take_chunk hfeed, stretches, Stretches.behind_behind,
        ih _ (by simpa [Splitter.behind] using lineFeed_notMem_tail _),
        Stretches.items_behind (Bytes.toList s.pending ++ Bytes.toList bytes)]
      simp [Splitter.behind, Function.comp_def, Except.map]
    | interrupted => exact ih s hfeed
    | failure cause =>
      rw [List.foldl_cons, Splitter.take, ih _ (by simp)]
      simp [stretches, Stretches.items_failure hfeed, Except.map]

/-- **The raw lines of a script** are those of its stretches. -/
theorem rawLines_eq (script : List ReadEvent) :
    rawLines script = (stretches script).items.map (Except.map List.toByteArray) := by
  rw [rawLines, finish_foldl_take script .start (by simp [Splitter.start])]
  simp [Splitter.start]

/-! ## Items without their failures -/

section

variable {α β : Type}

theorem allOkFrom_eq (read : List α) (items : List (Except SystemError α)) :
    allOkFrom read items = (allOk items).map (read.reverse ++ ·) := by
  induction items generalizing read with
  | nil => simp [allOk, allOkFrom, Except.map]
  | cons item rest ih =>
    cases item with
    | error cause => rfl
    | ok a =>
      show allOkFrom (a :: read) rest = (allOkFrom [a] rest).map (read.reverse ++ ·)
      rw [ih, ih [a]]
      cases allOk rest <;> simp [Except.map]

theorem allOk_cons_error (cause : SystemError) (rest : List (Except SystemError α)) :
    allOk (.error cause :: rest) = .error cause := rfl

theorem allOk_cons_ok (a : α) (rest : List (Except SystemError α)) :
    allOk (.ok a :: rest) = (allOk rest).map (a :: ·) := allOkFrom_eq [a] rest

/-- Items in front of others are all there if those are. -/
theorem allOk_append (front : List α) (rest : List (Except SystemError α)) :
    allOk (front.map Except.ok ++ rest) = (allOk rest).map (front ++ ·) := by
  induction front with
  | nil => cases h : allOk rest <;> simp [h, Except.map]
  | cons a front ih =>
    rw [List.map_cons, List.cons_append, allOk_cons_ok, ih]
    cases allOk rest <;> rfl

/-- What is made of items has no say in which of them failed. -/
theorem allOk_map (f : α → β) (items : List (Except SystemError α)) :
    allOk (items.map (Except.map f)) = (allOk items).map (List.map f) := by
  induction items with
  | nil => rfl
  | cons item rest ih =>
    cases item with
    | error cause => rfl
    | ok a =>
      rw [List.map_cons, Except.map, allOk_cons_ok, allOk_cons_ok, ih]
      cases allOk rest <;> rfl

end

/-- **The items of stretches are all there** if no stretch ends in a failure; otherwise the first
failure comes to light. -/
theorem allOk_items (s : Stretches) :
    allOk s.items =
      match s.failed.head? with
      | none => .ok (segments s.last)
      | some (_, cause) => .error cause := by
  obtain ⟨_ | ⟨⟨bytes, cause⟩, more⟩, last⟩ := s
  · simp [Stretches.items, allOk_map_ok]
  · simp only [Stretches.items, List.flatMap_cons, List.append_assoc, List.cons_append]
    rw [allOk_append, allOk_cons_error]
    rfl

/-! ## What the lines are -/

/-- **The number of lines of a script,** or its first failure. -/
theorem countLines_eq (script : List ReadEvent) :
    countLines script = (allOk (stretches script).items).map List.length := by
  rw [countLines, rawLines_eq, allOk_map]
  cases allOk (stretches script).items <;> simp [Except.map]

/-- The first stretch that a failure ends is ended by the first failure. -/
theorem head?_failed (script : List ReadEvent) :
    (stretches script).failed.head?.map (·.2) = script.findSome? ReadEvent.failure? := by
  induction script with
  | nil => rfl
  | cons event rest ih =>
    cases event with
    | chunk bytes =>
      -- Bytes in front of a stretch leave the failure that ends it.
      show ((stretches rest).behind (Bytes.toList bytes)).failed.head?.map (·.2) =
        rest.findSome? ReadEvent.failure?
      rw [← ih]
      obtain ⟨_ | ⟨⟨bytes, cause⟩, more⟩, last⟩ := stretches rest <;> rfl
    | interrupted => exact ih
    | failure cause => rfl

/-- **The texts of finished lines,** from what stands in front of each line feed. -/
def finishedTexts (bytes : List UInt8) : List String :=
  (bytes.splitOn lineFeed).dropLast.map contentText

/-- **The texts of all lines.** What stands behind the last line feed is one too, unless it is
empty. -/
def allTexts (bytes : List UInt8) : List String :=
  let pieces := bytes.splitOn lineFeed
  (if pieces.getLast? = some [] then pieces.dropLast else pieces).map contentText

theorem map_text_finished (contents : List (List UInt8)) :
    (contents.map (· ++ [lineFeed])).map (fun raw => text raw.toByteArray) =
      contents.map contentText := by
  rw [List.map_map]
  exact List.map_congr_left fun content _ => text_finished content

theorem map_text_cut (bytes : List UInt8) :
    (cut bytes).1.map (fun raw => text raw.toByteArray) = finishedTexts bytes := by
  obtain ⟨pieces, hpieces, hcut⟩ := splitOn_lineFeed bytes
  rw [hcut, map_text_finished, finishedTexts, hpieces, List.dropLast_concat]

theorem map_text_segments (bytes : List UInt8) :
    (segments bytes).map (fun raw => text raw.toByteArray) = allTexts bytes := by
  obtain ⟨pieces, hpieces, hcut⟩ := splitOn_lineFeed bytes
  rw [segments, List.map_append, hcut, map_text_finished]
  by_cases hnil : (cut bytes).2 = []
  · simp [allTexts, hpieces, hnil]
  · simp [allTexts, hpieces, hnil, text_unfinished (lineFeed_notMem_tail bytes)]

/-- **The lines of a script** are those of its stretches. -/
theorem lines_eq (script : List ReadEvent) :
    lines script = (stretches script).failed.flatMap (fun stretch =>
        (finishedTexts stretch.1).map Except.ok ++ [.error stretch.2]) ++
      (allTexts (stretches script).last).map Except.ok := by
  simp only [lines, rawLines_eq, Stretches.items, ← map_text_cut, ← map_text_segments]
  simp [List.map_flatMap, Function.comp_def, Except.map]

/-! ## What cannot be seen -/

/-- Two readers that give the same lines and the same count. -/
def SameReading (script script' : List ReadEvent) : Prop :=
  lines script = lines script' ∧ countLines script = countLines script'

/-- **Lines depend on the stretches** and on nothing else. -/
theorem sameReading_of_stretches {script script' : List ReadEvent}
    (h : stretches script = stretches script') : SameReading script script' := by
  exact ⟨by simp only [lines, rawLines_eq, h], by simp only [countLines_eq, h]⟩

theorem stretches_append_congr {after after' : List ReadEvent}
    (h : stretches after = stretches after') (before : List ReadEvent) :
    stretches (before ++ after) = stretches (before ++ after') := by
  induction before with
  | nil => exact h
  | cons event rest ih => cases event <;> simp [stretches, ih]

end Line

end RemoteLog
