import RemoteLog.Proofs.Log.Token
import RemoteLog.Proofs.Log.Window

/-! # The application ids of a file

The ids that are shown for a file are the ids at all places of its lines, each one once, in the order
in which they occur first.

* **`ApplicationId.distinct_eq_eraseDups`** — repetitions are left out as by the list function.
* **`ApplicationId.Position`**, **`ApplicationId.Position.Before`** — places in lines, in reading order.
* **`ApplicationId.OccursAt lines position id`** — an id stands at a place of some lines.
* **`ApplicationId.OccurrencesOf lines occurrences`** — the ids of lines with their places;
  **`ApplicationId.flatMap_find_eq_occurrences`** — the search finds just these.
* **`ApplicationId.firstOccurrences`** — the order in which distinct texts are shown.
* **`Log.applicationIds_exactly`** — the ids of a file. -/

namespace RemoteLog

namespace ApplicationId

/-! ## Distinct texts -/

theorem foldl_add_order (texts : List String) (d : Distinct) :
    (texts.foldl Distinct.add d).order.reverse =
      d.order.reverse ++ (texts.filter fun text => !d.seen.contains text).eraseDups := by
  induction texts generalizing d with
  | nil => simp
  | cons text texts ih =>
    rw [List.foldl_cons, ih, Distinct.add]
    cases hseen : d.seen.contains text with
    | true => simp [hseen]
    | false =>
      -- What has been seen from here on is left out by the first `text` as well.
      simp [hseen, List.eraseDups_cons, List.filter_filter, BEq.comm (a := text)]

/-- **Repetitions are left out:** of equal texts the first one stays. -/
theorem distinct_eq_eraseDups (texts : List String) : distinct texts = texts.eraseDups := by
  rw [distinct, foldl_add_order, List.filter_eq_self.mpr (by simp)]
  rfl

/-! ## Places in lines -/

/-- **A place in the lines of a file:** a line and a character of it, from zero. -/
structure Position where
  line : Nat
  column : Nat

/-- **Reading order:** lines in order, and a line from left to right. -/
def Position.Before (p q : Position) : Prop :=
  p.line < q.line ∨ p.line = q.line ∧ p.column < q.column

theorem Position.not_before_self (p : Position) : ¬ p.Before p := by
  simp [Before]

/-- **An id stands at a place,** as the longest one there. -/
def OccursAt (lines : List String) (position : Position) (id : String) : Prop :=
  ∃ line, lines[position.line]? = some line ∧ TokenAt line.toList position.column id.toList

/-- **The ids of lines with their places,** in reading order. -/
structure OccurrencesOf (lines : List String) (occurrences : List (Position × String)) : Prop where
  sorted : occurrences.Pairwise fun x y => x.1.Before y.1
  mem_iff : ∀ x, x ∈ occurrences ↔ OccursAt lines x.1 x.2

/-- An id of the first line, with its place in the lines. -/
def inFirst (token : Nat × List Char) : Position × String := (⟨0, token.1⟩, String.ofList token.2)

/-- An id with its place, one line further down. -/
def down (x : Position × String) : Position × String := (⟨x.1.line + 1, x.1.column⟩, x.2)

theorem occursAt_cons_iff {line : String} {lines : List String} {position : Position} {id : String} :
    OccursAt (line :: lines) position id ↔
      position.line = 0 ∧ TokenAt line.toList position.column id.toList ∨
        ∃ n, position.line = n + 1 ∧ OccursAt lines ⟨n, position.column⟩ id := by
  obtain ⟨n, column⟩ := position
  cases n with
  | zero => simp [OccursAt]
  | succ n => simp [OccursAt]

/-- **A line in front of others:** its ids come first, and those of the others stand one line further
down. -/
theorem OccurrencesOf.cons {line : String} {lines : List String} {tokens : List (Nat × List Char)}
    {occurrences : List (Position × String)} (hline : TokensOf line.toList tokens)
    (h : OccurrencesOf lines occurrences) :
    OccurrencesOf (line :: lines) (tokens.map inFirst ++ occurrences.map down) := by
  refine ⟨List.pairwise_append.mpr ⟨?_, ?_, ?_⟩, fun x => ?_⟩
  · exact List.pairwise_map.mpr (hline.sorted.imp fun hlt => .inr ⟨rfl, hlt⟩)
  · refine List.pairwise_map.mpr (h.sorted.imp fun hbefore => ?_)
    exact hbefore.imp Nat.succ_lt_succ (And.imp_left (congrArg Nat.succ))
  · intro x hx y hy
    obtain ⟨token, -, rfl⟩ := List.mem_map.mp hx
    obtain ⟨y, -, rfl⟩ := List.mem_map.mp hy
    exact .inl (Nat.succ_pos _)
  · rw [List.mem_append, occursAt_cons_iff, List.mem_map, List.mem_map]
    refine or_congr ⟨?_, ?_⟩ ⟨?_, ?_⟩
    · rintro ⟨token, hmem, rfl⟩
      refine ⟨rfl, ?_⟩
      rw [inFirst, String.toList_ofList]
      exact (hline.mem_iff token).mp hmem
    · rintro ⟨hzero, hat⟩
      refine ⟨(x.1.column, x.2.toList), (hline.mem_iff _).mpr hat, ?_⟩
      rw [inFirst, String.ofList_toList, ← hzero]
    · rintro ⟨y, hmem, rfl⟩
      exact ⟨y.1.line, rfl, (h.mem_iff y).mp hmem⟩
    · rintro ⟨n, hn, hat⟩
      refine ⟨(⟨n, x.1.column⟩, x.2), (h.mem_iff _).mpr hat, ?_⟩
      rw [down, ← hn]

/-- **The search finds all the ids of some lines,** in reading order. -/
theorem flatMap_find_eq_occurrences (lines : List String) :
    ∃ occurrences, OccurrencesOf lines occurrences ∧
      lines.flatMap find = occurrences.map (·.2) := by
  induction lines with
  | nil => exact ⟨[], ⟨.nil, fun x => ⟨nofun, fun ⟨line, hline, _⟩ => nomatch hline⟩⟩, rfl⟩
  | cons line lines ih =>
    obtain ⟨occurrences, hoccurrences, hlines⟩ := ih
    obtain ⟨tokens, htokens, hline⟩ := find_eq_tokens line
    refine ⟨_, .cons htokens hoccurrences, ?_⟩
    rw [List.flatMap_cons, hline, hlines]
    simp [Function.comp_def, inFirst, down]

/-! ## The order of first occurrences -/

/-- **Distinct texts are shown in the order of their first occurrence:** of two of them, the first one
has a place before all places of the second one. -/
theorem firstOccurrences (occurrences : List (Position × String))
    (h : occurrences.Pairwise fun x y => x.1.Before y.1) :
    (occurrences.map (·.2)).eraseDups.Pairwise fun id id' =>
      ∃ x ∈ occurrences, x.2 = id ∧ ∀ y ∈ occurrences, y.2 = id' → x.1.Before y.1 := by
  match occurrences with
  | [] => exact .nil
  | x :: others =>
    obtain ⟨hfirst, hsorted⟩ := List.pairwise_cons.mp h
    let kept := others.filter fun y => !y.2 == x.2
    have hdistinct : ((x :: others).map (·.2)).eraseDups =
        x.2 :: (kept.map (·.2)).eraseDups := by
      rw [List.map_cons, List.eraseDups_cons, List.filter_map]
      rfl
    -- Only what is kept has a text that is shown behind the first one.
    have hkept : ∀ id' ∈ (kept.map (·.2)).eraseDups, ∀ y ∈ x :: others, y.2 = id' → y ∈ kept := by
      intro id' hid' y hy hyid
      obtain ⟨z, hz, hzid⟩ := List.mem_map.mp (List.mem_eraseDups.mp hid')
      have hne : (!y.2 == x.2) = true := by
        rw [hyid, ← hzid]
        exact (List.mem_filter.mp hz).2
      refine List.mem_filter.mpr ⟨(List.mem_cons.mp hy).resolve_left ?_, hne⟩
      rintro rfl
      simp at hne
    rw [hdistinct]
    refine List.pairwise_cons.mpr ⟨fun id' hid' => ?_, ?_⟩
    · refine ⟨x, List.mem_cons_self .., rfl, fun y hy hyid => hfirst y ?_⟩
      exact (List.mem_filter.mp (hkept id' hid' y hy hyid)).1
    · refine (firstOccurrences kept (hsorted.filter _)).imp_of_mem ?_
      rintro id id' - hid' ⟨z, hz, hzid, hbefore⟩
      exact ⟨z, List.mem_cons_of_mem _ (List.mem_filter.mp hz).1, hzid,
        fun y hy hyid => hbefore y (hkept id' hid' y hy hyid) hyid⟩
termination_by occurrences.length
decreasing_by exact Nat.lt_succ_of_le (List.length_filter_le ..)

end ApplicationId

namespace Log

open ApplicationId

/-- The ids of a file whose bytes can all be read. -/
theorem applicationIds_eq {fs : FileSystem} {path : String} {bytes : ByteArray}
    (h : fs.Holds path bytes) :
    applicationIds fs path = ((Line.texts bytes).flatMap find).eraseDups := by
  obtain ⟨place, hplace⟩ := h
  have hisFile : fs.isFile path = true := by simp only [FileSystem.isFile, hplace]
  simp only [applicationIds, hisFile, openFile_ofBytes hplace, Line.lines_chunk, bind, Except.bind,
    Line.allOk_map_ok, distinct_eq_eraseDups]
  rfl

/-- **The application ids of a file** are the ids at all places of its lines, each of them once, in the
order in which they occur first. The longest id at a place counts, and at each place where the word and
a digit stand there is one. -/
theorem applicationIds_exactly {fs : FileSystem} {path : String} {bytes : ByteArray}
    (h : fs.Holds path bytes) :
    ∃ lines : List String, Line.lines [.chunk bytes] = lines.map Except.ok ∧
      let ids := applicationIds fs path
      ids.Nodup ∧
      (∀ id, id ∈ ids ↔ ∃ position, OccursAt lines position id) ∧
      (ids.Pairwise fun id id' => ∃ position, OccursAt lines position id ∧
        ∀ position', OccursAt lines position' id' → position.Before position') ∧
      ∀ n line i, lines[n]? = some line → StartsAt line.toList i →
        ∃ id ∈ ids, OccursAt lines ⟨n, i⟩ id := by
  refine ⟨Line.texts bytes, Line.lines_chunk bytes, ?_⟩
  intro ids
  obtain ⟨occurrences, hoccurrences, hfind⟩ := flatMap_find_eq_occurrences (Line.texts bytes)
  have hids : ids = (occurrences.map (·.2)).eraseDups :=
    (applicationIds_eq h).trans (congrArg List.eraseDups hfind)
  have hmem : ∀ id, id ∈ ids ↔ ∃ position, OccursAt (Line.texts bytes) position id := fun id => by
    simp [hids, List.mem_eraseDups, hoccurrences.mem_iff]
  have horder : ids.Pairwise fun id id' => ∃ position, OccursAt (Line.texts bytes) position id ∧
      ∀ position', OccursAt (Line.texts bytes) position' id' → position.Before position' := by
    rw [hids]
    refine (firstOccurrences occurrences hoccurrences.sorted).imp ?_
    rintro id id' ⟨x, hx, rfl, hbefore⟩
    exact ⟨x.1, (hoccurrences.mem_iff x).mp hx, fun position' hat =>
      hbefore (position', id') ((hoccurrences.mem_iff _).mpr hat) rfl⟩
  refine ⟨horder.imp ?_, hmem, horder, fun n line i hline hstart => ?_⟩
  · rintro id _ ⟨position, hat, hbefore⟩ rfl
    exact position.not_before_self (hbefore position hat)
  · obtain ⟨id, hat⟩ := hstart.exists_tokenAt
    have hoccurs : OccursAt (Line.texts bytes) ⟨n, i⟩ (String.ofList id) :=
      ⟨line, hline, by rwa [String.toList_ofList]⟩
    exact ⟨String.ofList id, (hmem _).mpr ⟨_, hoccurs⟩, hoccurs⟩

/-- Behind the word alone an id begins, right behind it another one, and one of them again in the next
line. Two underscores end an id. -/
theorem applicationIds_exactly_adjacent :
    let first := "application_application_1_2application_3__4"
    let lines := [first, "application_1_2"]
    let bytes : ByteArray := "application_application_1_2application_3__4\napplication_1_2".toUTF8
    let fs := FileSystem.oneLog (.ofBytes bytes)
    fs.Holds "/logs/a.log" bytes ∧ Line.lines [.chunk bytes] = lines.map Except.ok ∧
      applicationIds fs "/logs/a.log" = ["application_1_2", "application_3"] ∧
      (∃ position, OccursAt lines position "application_1_2" ∧
        ∀ position', OccursAt lines position' "application_3" → position.Before position') ∧
      StartsAt first.toList 27 ∧
      ∃ id ∈ ["application_1_2", "application_3"], OccursAt lines ⟨0, 27⟩ id := by
  intro first lines bytes fs
  have hholds : fs.Holds "/logs/a.log" bytes := FileSystem.holds_oneLog bytes
  have htexts : Line.texts bytes = lines := by decide +kernel
  have hids : applicationIds fs "/logs/a.log" = ["application_1_2", "application_3"] := by
    rw [applicationIds_eq hholds, htexts]
    decide +kernel
  have hstarts : StartsAt first.toList 27 := ⟨'3', "__4".toList, by decide +kernel, by decide⟩
  obtain ⟨lines', hlines, -, -, horder, hfound⟩ := applicationIds_exactly hholds
  obtain rfl : lines = lines' := by
    rw [Line.lines_chunk, htexts] at hlines
    exact (List.map_inj_right fun _ _ => Except.ok.inj).mp hlines
  rw [hids] at horder hfound
  exact ⟨hholds, hlines, hids, (List.pairwise_cons.mp horder).1 _ (List.mem_singleton.mpr rfl),
    hstarts, hfound 0 first 27 rfl hstarts⟩

end Log

end RemoteLog
