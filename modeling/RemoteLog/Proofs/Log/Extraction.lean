import RemoteLog.Proofs.Line.Writing
import RemoteLog.Proofs.Log.ApplicationIds

/-! # Application ids of files that are put together

Ids are sought in each line on its own, and of equal ones the first counts. So the ids of whole lines
with more behind them are the ids of the lines, and then those of the rest that are new. An id alone on
its line is found as it is, so a list of ids that was written to a file is found again.

* **`ApplicationId.eraseDups_filter`**, **`ApplicationId.eraseDups_append_eq`**,
  **`ApplicationId.eraseDups_again`** — distinct texts of lists that are put together, and of distinct
  texts.
* **`ApplicationId.find_token`** — an id alone on its line.
* **`Log.exists_applicationIds_eq`** — ids are always found in some lines, perhaps none.
* **`Log.extraction_composes`** — files that are put together, and files of ids. -/

namespace RemoteLog

namespace ApplicationId

/-! ## Distinct texts -/

section

variable {α : Type} [BEq α] [LawfulBEq α]

/-- **Some of the distinct elements** are the distinct ones among some. -/
theorem eraseDups_filter (p : α → Bool) (items : List α) :
    (items.filter p).eraseDups = items.eraseDups.filter p := by
  match items with
  | [] => rfl
  | a :: rest =>
    have ih := eraseDups_filter p (rest.filter fun b => !b == a)
    rw [List.eraseDups_cons]
    cases ha : p a with
    | true =>
      rw [List.filter_cons_of_pos ha, List.filter_cons_of_pos ha, List.eraseDups_cons, ← ih,
        List.filter_filter, List.filter_filter]
      simp only [Bool.and_comm]
    | false =>
      -- What is kept is not `a`, so nothing else is left out with it.
      have hkept : (rest.filter fun b => !b == a).filter p = rest.filter p := by
        rw [List.filter_filter]
        refine List.filter_congr fun b _ => ?_
        cases hb : p b with
        | false => rfl
        | true =>
          have hne : b ≠ a := fun h => Bool.false_ne_true (ha.symm.trans (h ▸ hb))
          simp [hne]
      have hno : ¬ p a = true := by simp [ha]
      rw [List.filter_cons_of_neg hno, List.filter_cons_of_neg hno, ← ih, hkept]
termination_by items.length
decreasing_by exact Nat.lt_succ_of_le (List.length_filter_le ..)

/-- **The distinct elements of two lists** are those of the first, and those of the second that are
new. -/
theorem eraseDups_append_eq (front back : List α) :
    (front ++ back).eraseDups =
      front.eraseDups ++ back.eraseDups.filter fun b => !front.eraseDups.contains b := by
  rw [List.eraseDups_append, List.removeAll, eraseDups_filter]
  congr 1
  refine List.filter_congr fun b _ => ?_
  rw [Bool.eq_iff_iff]
  simp [List.mem_eraseDups]

/-- **Distinct elements** stay as they are. -/
theorem eraseDups_again (items : List α) : items.eraseDups.eraseDups = items.eraseDups := by
  match items with
  | [] => rfl
  | a :: rest =>
    have ih := eraseDups_again (rest.filter fun b => !b == a)
    rw [List.eraseDups_cons, List.eraseDups_cons, ← eraseDups_filter, List.filter_filter]
    simp only [Bool.and_self]
    rw [ih]
termination_by items.length
decreasing_by exact Nat.lt_succ_of_le (List.length_filter_le ..)

end

/-! ## Ids alone on their line -/

/-- The characters of an id: those of the word, digits and underscores. -/
theorem IsToken.mem {id : List Char} (h : IsToken id) :
    ∀ c ∈ id, c ∈ word ∨ Text.isDigit c = true ∨ c = '_' := by
  obtain ⟨run, tail, hrun, htail, rfl⟩ := h
  intro c hc
  rw [List.mem_append, List.mem_append] at hc
  rcases hc with hc | hc | hc
  · exact .inl hc
  · exact .inr (.inl (hrun.2 c hc))
  · exact .inr (htail.digit_or_underscore c hc)

/-- An id is found at the front of itself, and nowhere else. -/
theorem IsToken.tokenAt_iff {id : List Char} (h : IsToken id) (i : Nat) (id' : List Char) :
    TokenAt id i id' ↔ i = 0 ∧ id' = id := by
  have hstarts : StartsAt id 0 := by
    obtain ⟨run, tail, hrun, -, rfl⟩ := h
    obtain ⟨c, run, rfl⟩ := List.exists_cons_of_ne_nil hrun.1
    exact ⟨c, run ++ tail, rfl, hrun.2 c (List.mem_cons_self ..)⟩
  have hself : TokenAt id 0 id := ⟨hstarts, h, List.prefix_refl _, fun _ _ hhere => hhere.length_le⟩
  constructor
  · intro hat
    rcases Nat.eq_zero_or_pos i with rfl | hpos
    · exact ⟨rfl, hat.unique hself⟩
    · refine absurd hat.starts ?_
      rcases Nat.lt_or_ge i id.length with hlt | hge
      · exact not_startsAt_within h hself.here hpos (by rwa [Nat.zero_add])
      · rintro ⟨c, rest, hdrop, -⟩
        rw [List.drop_of_length_le hge] at hdrop
        cases hdrop
  · rintro ⟨rfl, rfl⟩
    exact hself

/-- **An id alone on its line** is found as it is. -/
theorem find_token {id : String} (h : IsToken id.toList) : find id = [id] := by
  obtain ⟨tokens, ⟨hsorted, hmem⟩, hfind⟩ := find_eq_tokens id
  have htoken (token : Nat × List Char) : token ∈ tokens ↔ token = (0, id.toList) := by
    rw [hmem, h.tokenAt_iff, Prod.ext_iff]
  rw [hfind]
  match tokens, hsorted, htoken with
  | [], _, htoken => cases (htoken _).mpr rfl
  | [token], _, htoken =>
    rw [(htoken token).mp (List.mem_singleton.mpr rfl), List.map_singleton, String.ofList_toList]
  | token :: next :: _, hsorted, htoken =>
    -- Two places are not the same.
    have hlt := (List.pairwise_cons.mp hsorted).1 next (List.mem_cons_self ..)
    rw [(htoken token).mp (by simp), (htoken next).mp (by simp)] at hlt
    exact absurd hlt (Nat.lt_irrefl _)

/-- What is found is an id. -/
theorem isToken_of_mem_find {id line : String} (h : id ∈ find line) : IsToken id.toList := by
  obtain ⟨tokens, htokens, hfind⟩ := find_eq_tokens line
  rw [hfind] at h
  obtain ⟨token, hmem, rfl⟩ := List.mem_map.mp h
  rw [String.toList_ofList]
  exact ((htokens.mem_iff token).mp hmem).token

/-- No character of an id ends a line. -/
theorem IsToken.notMem {id : List Char} (h : IsToken id) {c : Char} (hc : c = '\n' ∨ c = '\r') :
    c ∉ id := by
  intro hmem
  rcases h.mem c hmem with hword | hdigit | hunderscore
  · rcases hc with rfl | rfl <;> exact absurd hword (by decide)
  · rcases hc with rfl | rfl <;> exact absurd hdigit (by decide)
  · rcases hc with rfl | rfl <;> cases hunderscore

/-- An id ends with no carriage return. -/
theorem IsToken.getLast?_ne {id : List Char} (h : IsToken id) : id.getLast? ≠ some '\r' :=
  fun hlast => absurd (List.mem_of_getLast? hlast) (h.notMem (.inr rfl))

/-- **An id comes back** from in front of an end of its line. -/
theorem IsToken.comesBack {id ending : String} (h : IsToken id.toList)
    (hending : ending = "\n" ∨ ending = "\r\n") : Line.ComesBack ending id :=
  ⟨h.notMem (.inl rfl), hending.symm.imp_right fun hfeed => ⟨hfeed, h.getLast?_ne⟩⟩

/-- An id is no blank line. -/
theorem IsToken.ne_empty {id : String} (h : IsToken id.toList) : id ≠ "" := by
  rintro rfl
  obtain ⟨run, tail, -, -, hnil⟩ := h
  cases hnil

/-- Ids alone on their lines are found as they are. -/
theorem flatMap_find_ids {ids : List String} (h : ∀ id ∈ ids, IsToken id.toList) :
    ids.flatMap find = ids := by
  induction ids with
  | nil => rfl
  | cons id ids ih =>
    rw [List.flatMap_cons, find_token (h id (List.mem_cons_self ..)),
      ih fun id hid => h id (List.mem_cons_of_mem _ hid), List.singleton_append]

end ApplicationId

namespace Log

open ApplicationId

/-! ## The ids of files -/

/-- **Ids are always found in some lines,** perhaps none: what cannot be read has no ids. -/
theorem exists_applicationIds_eq (fs : FileSystem) (path : String) :
    ∃ lines : List String, applicationIds fs path = (lines.flatMap find).eraseDups := by
  unfold applicationIds
  split
  · exact ⟨[], rfl⟩
  · split
    · exact ⟨_, distinct_eq_eraseDups _⟩
    · exact ⟨[], rfl⟩

/-- What is shown as an id is one. -/
theorem isToken_of_mem_applicationIds {fs : FileSystem} {path id : String}
    (h : id ∈ applicationIds fs path) : IsToken id.toList := by
  obtain ⟨lines, hids⟩ := exists_applicationIds_eq fs path
  rw [hids, List.mem_eraseDups, List.mem_flatMap] at h
  obtain ⟨line, -, hfind⟩ := h
  exact isToken_of_mem_find hfind

/-- **A file whose lines are the ids of another one** has these ids. -/
theorem applicationIds_of_ids {fs fs' : FileSystem} {path path' : String} {bytes : ByteArray}
    (h : fs'.Holds path' bytes) (hlines : Line.texts bytes = applicationIds fs path) :
    applicationIds fs' path' = applicationIds fs path := by
  obtain ⟨lines, hids⟩ := exists_applicationIds_eq fs path
  rw [applicationIds_eq h, hlines, flatMap_find_ids fun _ => isToken_of_mem_applicationIds, hids,
    eraseDups_again]

/-- **Extraction composes.** A file of whole lines with more behind them has the ids of the lines, as
they were, and then those of the rest that are new. A file with the ids of another one, of any kind, on
a line each has these ids again, whether the lines end with line feeds or with carriage returns too,
and whether the last one is ended or not. -/
theorem extraction_composes :
    (∀ {front : ByteArray}, Line.Whole front → ∀ (back : ByteArray) {fs fs' fs'' : FileSystem}
      {path path' path'' : String}, fs.Holds path front → fs'.Holds path' back →
        fs''.Holds path'' (front ++ back) →
        applicationIds fs'' path'' = applicationIds fs path ++
          (applicationIds fs' path').filter (· ∉ applicationIds fs path) ∧
        applicationIds fs path <+: applicationIds fs'' path'') ∧
    ∀ (fs : FileSystem) (path : String) {fs' : FileSystem} {path' ending : String},
      ending = "\n" ∨ ending = "\r\n" →
      let ids := applicationIds fs path
      fs'.Holds path' (Line.written ending ids).toUTF8 ∨
        fs'.Holds path' (ending.intercalate ids).toUTF8 →
      applicationIds fs' path' = ids := by
  constructor
  · intro front hwhole back fs fs' fs'' path path' path'' hfront hback hboth
    have happend : applicationIds fs'' path'' = applicationIds fs path ++
        (applicationIds fs' path').filter (· ∉ applicationIds fs path) := by
      rw [applicationIds_eq hboth, Line.texts_append hwhole, List.flatMap_append,
        eraseDups_append_eq, ← applicationIds_eq hfront, ← applicationIds_eq hback]
      simp only [List.contains_eq_mem, decide_not]
    exact ⟨happend, happend ▸ List.prefix_append _ _⟩
  · intro fs path fs' path' ending hending ids hholds
    have hcomes : ∀ id ∈ ids, Line.ComesBack ending id :=
      fun id hid => (isToken_of_mem_applicationIds hid).comesBack hending
    have hblank : ∀ id ∈ ids, id ≠ "" ∧ id.toList.getLast? ≠ some '\r' :=
      fun id hid =>
      have htoken := isToken_of_mem_applicationIds hid
      ⟨htoken.ne_empty, htoken.getLast?_ne⟩
    rcases hholds with hwritten | hjoined
    · exact applicationIds_of_ids hwritten (Line.texts_written hcomes)
    · exact applicationIds_of_ids hjoined (Line.texts_joined hcomes hblank)

/-- A log whose whole line ends in a byte that is no character grows by an id with a digit of another
script and the id that was there. Then its ids are written over it. -/
theorem extraction_composes_growing_log :
    let front : ByteArray := "application_1".toUTF8 ++ [0xff, 0x0a].toByteArray
    let back : ByteArray := "application_\u0663\rapplication_1".toUTF8
    let fs := FileSystem.oneLog (.ofBytes front)
    let path := "/logs/a.log"
    let ids := applicationIds fs path
    Line.Whole front ∧ fs.Holds path front ∧ ids = ["application_1"] ∧
      (∃ fs', fs.changeFile path (· ++ back) = .ok fs' ∧ fs'.Holds path (front ++ back) ∧
        applicationIds fs' path = ids ++ ["application_\u0663"]) ∧
      ∃ fs', fs.writeFile path (Line.written "\n" ids).toUTF8 = .ok fs' ∧
        fs'.Holds path (Line.written "\n" ids).toUTF8 ∧ applicationIds fs' path = ids := by
  intro front back fs path ids
  have hwhole : Line.Whole front := by decide +kernel
  have hfront : fs.Holds path front := FileSystem.holds_oneLog front
  have hback : (FileSystem.oneLog (.ofBytes back)).Holds path back := FileSystem.holds_oneLog back
  have hids : applicationIds fs path = ["application_1"] := by
    rw [applicationIds_eq hfront]
    decide +kernel
  have hnew : (applicationIds (FileSystem.oneLog (.ofBytes back)) path).filter
      (· ∉ applicationIds fs path) = ["application_\u0663"] := by
    rw [hids, applicationIds_eq hback]
    decide +kernel
  obtain ⟨fs', hchange, hboth⟩ := hfront.changeFile (· ++ back)
  obtain ⟨fs'', hwrite, hwritten⟩ := hfront.changeFile fun _ => (Line.written "\n" ids).toUTF8
  refine ⟨hwhole, hfront, hids, ⟨fs', hchange, hboth, ?_⟩, fs'', hwrite, hwritten,
    extraction_composes.2 fs path (.inl rfl) (.inl hwritten)⟩
  rw [(extraction_composes.1 hwhole back hfront hback hboth).1, hnew]

end Log

end RemoteLog
