import RemoteLog.Proofs.Line.Reader

/-! # Passes that a failure cuts short

A pass over the lines of a reader ends at its first failure. The pass that takes a window reads no
further than its last line, so a failure behind that stays unseen; a pass that counts or takes everything
meets every failure. Whether a pass is cut short depends on nothing but the failures and the line feeds
that are offered in front of them.

* **`Line.FailsWithin n script`** — a failure comes before `n` lines are finished; **`Line.Fails`** —
  there is a failure.
* **`Line.Reader.skipLines`**, **`Line.Reader.takeLines`** — the loops of the window pass;
  **`Line.Reader.skipLines_takeLines`** — what they come to.
* **`Line.allOk_take_items`** — the first lines of a script, or its first failure.
* **`Line.allBytes_eq_error_iff`**, **`Line.allOk_lines_eq_error_iff`**,
  **`Line.countLines_eq_error_iff`** — the passes over everything. -/

namespace RemoteLog

/-- The bytes that a reader offers. -/
def ReadEvent.offered : ReadEvent → List UInt8
  | .chunk bytes => Bytes.toList bytes
  | .interrupted => []
  | .failure _ => []

namespace Line

/-! ## Failures of a reader -/

/-- **A failure comes before `n` lines are finished:** fewer line feeds are offered in front of it. -/
def FailsWithin (n : Nat) (script : List ReadEvent) : Prop :=
  ∃ before cause after, script = before ++ .failure cause :: after ∧
    (before.flatMap ReadEvent.offered).count lineFeed < n

/-- **A reader fails** somewhere. -/
def Fails (script : List ReadEvent) : Prop :=
  ∃ before cause after, script = before ++ .failure cause :: after

theorem not_failsWithin_nil (n : Nat) : ¬ FailsWithin n [] := by
  rintro ⟨before, cause, after, h, -⟩
  simp at h

/-- A failure is met at once, if anything is to be read. -/
theorem failsWithin_failure_iff {n : Nat} {cause : SystemError} {rest : List ReadEvent} :
    FailsWithin n (.failure cause :: rest) ↔ 0 < n :=
  ⟨fun ⟨_, _, _, _, hn⟩ => Nat.zero_lt_of_lt hn, fun hn => ⟨[], cause, rest, rfl, hn⟩⟩

/-- Line feeds that are offered first leave fewer lines to be finished. -/
theorem failsWithin_cons_iff {n : Nat} {event : ReadEvent} {rest : List ReadEvent}
    (h : event.failure? = none) :
    FailsWithin n (event :: rest) ↔ FailsWithin (n - event.offered.count lineFeed) rest := by
  constructor
  · rintro ⟨before, cause, after, hscript, hn⟩
    cases before with
    | nil =>
      obtain ⟨rfl, -⟩ := List.cons.inj hscript
      cases h
    | cons first before =>
      obtain ⟨rfl, rfl⟩ := List.cons.inj hscript
      rw [List.flatMap_cons, List.count_append] at hn
      exact ⟨before, cause, after, rfl, by omega⟩
  · rintro ⟨before, cause, after, rfl, hn⟩
    refine ⟨event :: before, cause, after, rfl, ?_⟩
    rw [List.flatMap_cons, List.count_append]
    omega

/-- **The first stretch that a failure ends** tells whether the reader fails in time. -/
theorem failsWithin_iff (n : Nat) (script : List ReadEvent) :
    FailsWithin n script ↔
      ∃ stretch ∈ (stretches script).failed.head?, stretch.1.count lineFeed < n := by
  induction script generalizing n with
  | nil => simp [not_failsWithin_nil, stretches]
  | cons event rest ih =>
    cases event with
    | chunk bytes =>
      rw [failsWithin_cons_iff rfl, ih, stretches]
      obtain ⟨_ | ⟨⟨front, cause⟩, more⟩, last⟩ := stretches rest
      · simp
      · simp [ReadEvent.offered]
        omega
    | interrupted => rw [failsWithin_cons_iff rfl, ih]; rfl
    | failure cause => simp [failsWithin_failure_iff, stretches]

/-- A reader fails if a stretch ends in a failure. -/
theorem fails_iff (script : List ReadEvent) :
    Fails script ↔ (stretches script).failed ≠ [] := by
  have hwithin : Fails script ↔ ∃ n, FailsWithin n script := by
    constructor
    · rintro ⟨before, cause, after, h⟩
      exact ⟨_, before, cause, after, h, Nat.lt_succ_self _⟩
    · rintro ⟨n, before, cause, after, h, -⟩
      exact ⟨before, cause, after, h⟩
  simp only [hwithin, failsWithin_iff]
  cases (stretches script).failed with
  | nil => simp
  | cons stretch more => simpa using ⟨_, Nat.lt_succ_self _⟩

/-! ## What a pass comes to -/

/-- **The first lines of a script:** the first failure, if it comes before so many lines are finished,
and otherwise as many lines as there are. -/
theorem allOk_take_items (s : Stretches) (n : Nat) :
    allOk (s.items.take n) =
      match s.failed.head? with
      | none => .ok ((segments s.last).take n)
      | some (bytes, cause) =>
        if bytes.count lineFeed < n then .error cause else .ok ((cut bytes).1.take n) := by
  obtain ⟨_ | ⟨⟨bytes, cause⟩, more⟩, last⟩ := s
  · simp [Stretches.items, ← List.map_take, allOk_map_ok]
  · simp only [Stretches.items, List.flatMap_cons, List.append_assoc, List.cons_append,
      List.head?_cons]
    have hlength : ((cut bytes).1.map (Except.ok (ε := SystemError))).length =
        bytes.count lineFeed := by
      rw [List.length_map, length_cut]
    by_cases hn : bytes.count lineFeed < n
    · obtain ⟨k, hk⟩ : ∃ k, n - bytes.count lineFeed = k + 1 := ⟨n - bytes.count lineFeed - 1, by omega⟩
      rw [if_pos hn, List.take_append, hlength, hk, List.take_succ_cons, ← List.map_take, allOk_append,
        allOk_cons_error]
      rfl
    · rw [if_neg hn, List.take_append_of_le_length (by omega), ← List.map_take, allOk_map_ok]

/-- **The first lines of a script cannot be taken** just if a failure comes before them. -/
theorem allOk_take_items_eq_error_iff (script : List ReadEvent) (n : Nat) :
    (∃ cause, allOk ((stretches script).items.take n) = .error cause) ↔ FailsWithin n script := by
  rw [allOk_take_items, failsWithin_iff]
  cases (stretches script).failed.head? with
  | none => simp
  | some stretch => by_cases hn : stretch.1.count lineFeed < n <;> simp [hn]

/-- **All lines of a script cannot be taken** just if there is a failure. -/
theorem allOk_items_eq_error_iff (script : List ReadEvent) :
    (∃ cause, allOk (stretches script).items = .error cause) ↔ Fails script := by
  rw [allOk_items, fails_iff]
  cases (stretches script).failed with
  | nil => simp
  | cons stretch more => simp

section

variable {α β : Type} {f : α → β} {result : Except SystemError α}

/-- What is made of a value has no say in whether there is one. -/
theorem map_eq_error_iff :
    (∃ cause, result.map f = .error cause) ↔ ∃ cause, result = .error cause := by
  cases result <;> simp [Except.map]

end

/-- **Counting fails** just if there is a failure. -/
theorem countLines_eq_error_iff (script : List ReadEvent) :
    (∃ cause, countLines script = .error cause) ↔ Fails script := by
  rw [countLines_eq, map_eq_error_iff, allOk_items_eq_error_iff]

/-- **Taking all lines fails** just if there is a failure. -/
theorem allOk_lines_eq_error_iff (script : List ReadEvent) :
    (∃ cause, allOk (lines script) = .error cause) ↔ Fails script := by
  have hlines : lines script = (rawLines script).map (Except.map text) := rfl
  rw [hlines, rawLines_eq, allOk_map, allOk_map, map_eq_error_iff, map_eq_error_iff,
    allOk_items_eq_error_iff]

/-- **Taking all bytes fails** just if there is a failure. -/
theorem allBytes_eq_error_iff (script : List ReadEvent) :
    (∃ cause, allBytes script = .error cause) ↔ Fails script := by
  rw [fails_iff, allBytes]
  generalize ByteArray.empty = out
  induction script generalizing out with
  | nil => simp [stretches, pure, Except.pure]
  | cons event rest ih =>
    rw [List.foldlM_cons]
    cases event with
    | chunk bytes =>
      refine (ih (out ++ bytes)).trans ?_
      rw [stretches]
      obtain ⟨_ | ⟨⟨front, cause⟩, more⟩, last⟩ := stretches rest <;> simp
    | interrupted => exact ih out
    | failure cause => simp [stretches, bind, Except.bind]

/-! ## The loops of the window pass -/

namespace Reader

/-- **Passes over `n` lines,** or over as many as there are, and gives what is left. -/
def skipLines : (n : Nat) → List ReadEvent → Except SystemError (List ReadEvent)
  | 0, script => .ok script
  | n + 1, script =>
    match next script with
    | (none, rest) => .ok rest
    | (some (.error cause), _) => .error cause
    | (some (.ok _), rest) => skipLines n rest

/-- **Takes `n` lines,** or as many as there are, and reads no further. -/
def takeLines : (n : Nat) → List ReadEvent → Except SystemError (List String)
  | 0, _ => .ok []
  | n + 1, script =>
    match next script with
    | (none, _) => .ok []
    | (some (.error cause), _) => .error cause
    | (some (.ok line), rest) => (takeLines n rest).map (line :: ·)

/-- All lines are the next one and those of what is left. -/
theorem collect_of_next {script rest : List ReadEvent} {item : Option (Except SystemError String)}
    (h : next script = (item, rest)) :
    collect script = item.elim [] fun item => item :: collect rest := by
  rw [collect]
  split
  · next hnext => rw [h] at hnext; cases hnext; rfl
  · next hnext => rw [h] at hnext; cases hnext; rfl

/-- Where nothing is left, nothing comes later. -/
theorem collect_of_next_none {script rest : List ReadEvent} (h : next script = (none, rest)) :
    collect rest = [] := by
  have hread : readLine [] script = (.ok [], rest) := by
    unfold next at h
    split at h <;> simp_all
  have hreads := reads_readLine [] script (by simp)
  rw [Stretches.behind_nil, hread] at hreads
  generalize stretches script = before at hreads
  rw [collect_eq]
  generalize stretches rest = left at hreads ⊢
  -- No finished line is empty, so this was the last one.
  generalize hline : ([] : List UInt8) = line at hreads
  cases hreads with
  | line => simp at hline
  | last => rfl

theorem takeLines_eq (n : Nat) (script : List ReadEvent) :
    takeLines n script = allOk ((collect script).take n) := by
  induction n generalizing script with
  | zero => rfl
  | succ n ih =>
    rw [takeLines]
    split
    · next h => rw [collect_of_next h]; rfl
    · next h => rw [collect_of_next h]; rfl
    · next h =>
      rw [collect_of_next h, ih, Option.elim_some, List.take_succ_cons, allOk_cons_ok]

/-- **The window pass** passes over `n` lines and takes `m` more. It comes to the first `n + m` lines,
without the first `n`, or to the first failure before the last of them. -/
theorem skipLines_takeLines (n m : Nat) (script : List ReadEvent) :
    (skipLines n script).bind (takeLines m) =
      (allOk ((collect script).take (n + m))).map (List.drop n) := by
  induction n generalizing script with
  | zero =>
    rw [Nat.zero_add, ← takeLines_eq]
    show takeLines m script = _
    cases takeLines m script <;> rfl
  | succ n ih =>
    rw [skipLines]
    split
    · next h =>
      show takeLines m _ = _
      rw [takeLines_eq, collect_of_next_none h, collect_of_next h, Option.elim_none, List.take_nil,
        List.take_nil]
      exact congrArg Except.ok List.drop_nil.symm
    · next h =>
      rw [collect_of_next h, Option.elim_some, Nat.add_right_comm, List.take_succ_cons,
        allOk_cons_error]
      rfl
    · next h =>
      rw [collect_of_next h, ih, Option.elim_some, Nat.add_right_comm, List.take_succ_cons,
        allOk_cons_ok]
      cases allOk ((collect _).take (n + m)) <;> rfl

end Reader

end Line

end RemoteLog
