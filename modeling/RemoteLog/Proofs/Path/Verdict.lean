import RemoteLog.Proofs.Path.Pieces

/-! # The verdict of the path guard

The guard looks at a path in two ways: as a text, in which it searches for `../` and for the suffix,
and by its components. Its verdict can be told by the suffix and the components alone, so it does not
matter how the separators between the names are spelled.

* **`Component.text c`** — the text that a component stands for.
* **`PathGuard.endsInDots_components_iff`** — names and components step up alike.
* **`Path.Separator text`** — slashes, with nothing or a dot between them;
  **`Path.Separator.components_append`** — the components behind any spelling of a separator.
* **`PathGuard.accepts_exactly`** — the verdict. -/

namespace RemoteLog

/-- **The text that a component stands for.** -/
def Component.text : Component → String
  | .root => "/"
  | .current => "."
  | .parent => ".."
  | .name text => text

namespace Path

@[simp] theorem text_ofName (name : String) : (ofName name).text = name := by
  unfold ofName
  by_cases hname : name = ".."
  · rw [if_pos hname, hname]
    rfl
  · rw [if_neg hname]
    rfl

/-- No anchor ends in `..`. -/
theorem not_endsInDots_anchor {path : String} {c : Component} (h : c ∈ anchor path) :
    ¬ EndsInDots c.text := by
  have hc : c = .root ∨ c = .current := by
    unfold anchor at h
    grind
  rcases hc with rfl | rfl <;> decide

/-! ## Separators -/

/-- **A separator in any spelling:** slashes, with nothing or a dot between one and the next. -/
inductive Separator : List Char → Prop
  | slash : Separator ['/']
  | slashes {rest : List Char} (h : Separator rest) : Separator ('/' :: rest)
  | dot {rest : List Char} (h : Separator rest) : Separator ('/' :: '.' :: rest)

variable {sep : List Char}

theorem Separator.exists_cons (h : Separator sep) : ∃ rest, sep = '/' :: rest := by
  cases h <;> exact ⟨_, rfl⟩

theorem Separator.exists_concat (h : Separator sep) : ∃ front, sep = front ++ ['/'] := by
  induction h with
  | slash => exact ⟨[], rfl⟩
  | slashes _ ih =>
    obtain ⟨front, rfl⟩ := ih
    exact ⟨'/' :: front, rfl⟩
  | dot _ ih =>
    obtain ⟨front, rfl⟩ := ih
    exact ⟨'/' :: '.' :: front, rfl⟩

/-- The names that count among those of a text. -/
def solidOf (chars : List Char) : List String :=
  (namesOf (chars.splitOn '/')).filter fun name => name ≠ "."

theorem solid_eq (path : String) : solid path = solidOf path.toList := by
  rw [solid, names_eq, pieces, solidOf]

theorem solidOf_append_slash (front back : List Char) :
    solidOf (front ++ '/' :: back) = solidOf front ++ solidOf back := by
  rw [solidOf, namesOf_append_slash, List.filter_append, solidOf, solidOf]

/-- **A separator parts the names that count,** however it is spelled. -/
theorem Separator.solidOf_append (h : Separator sep) (front back : List Char) :
    solidOf (front ++ sep ++ back) = solidOf front ++ solidOf back := by
  induction h generalizing front with
  | slash => rw [List.append_assoc, List.singleton_append, solidOf_append_slash]
  | @slashes rest _ ih =>
    have hnext := ih []
    rw [List.nil_append] at hnext
    rw [List.append_assoc, List.cons_append, solidOf_append_slash, hnext]
    rfl
  | @dot rest _ ih =>
    -- The dot is a name, but none that counts.
    have hnext := ih ['.']
    have hdot : solidOf ['.'] = [] := by decide
    rw [hdot, List.nil_append, List.singleton_append, List.cons_append] at hnext
    rw [List.append_assoc, List.cons_append, List.cons_append, solidOf_append_slash, hnext]

/-- The anchor of a path stands in front of its first slash. -/
theorem anchor_of_slash {path front : String} {more : List Char}
    (h : path.toList = front.toList ++ '/' :: more) :
    anchor path = if front = "" then [.root] else anchor front := by
  by_cases hfront : front = ""
  · rw [if_pos hfront, anchor_eq_root_iff]
    simp [isAbsolute, h, hfront]
  · obtain ⟨c, chars, hchars⟩ :=
      List.exists_cons_of_ne_nil (mt String.toList_eq_nil_iff.mp hfront)
    have habsolute : isAbsolute path = isAbsolute front := by
      rw [isAbsolute, h, hchars, isAbsolute, hchars]
      rfl
    have hnames : names path = names front ++ namesOf (more.splitOn '/') := by
      rw [names_eq, pieces, h, namesOf_append_slash, names_eq, pieces]
    rw [if_neg hfront]
    unfold anchor
    rw [habsolute, hnames]
    cases hrel : isAbsolute front with
    | true => rfl
    | false =>
      obtain ⟨first, rest, hfirst⟩ := List.exists_cons_of_ne_nil (names_ne_nil hfront hrel)
      rw [hfirst]
      rfl

/-- **The components behind a separator** do not depend on its spelling. -/
theorem Separator.components_append (h : Separator sep) (front back : String) :
    components (front ++ String.ofList sep ++ back) = components (front ++ "/" ++ back) := by
  obtain ⟨rest, hrest⟩ := h.exists_cons
  have hlong : (front ++ String.ofList sep ++ back).toList =
      front.toList ++ '/' :: (rest ++ back.toList) := by simp [hrest]
  have hshort : (front ++ "/" ++ back).toList = front.toList ++ '/' :: back.toList := by simp
  have hsolid : solid (front ++ String.ofList sep ++ back) = solid (front ++ "/" ++ back) := by
    rw [solid_eq, solid_eq, hshort, solidOf_append_slash, String.toList_append,
      String.toList_append, String.toList_ofList, h.solidOf_append]
  rw [components_eq, components_eq, anchor_of_slash hlong, anchor_of_slash hshort, hsolid]

/-- What has no slash is the end of a text if it is the end of what stands behind a slash. -/
theorem suffix_append_slash_iff {word : List Char} (hword : '/' ∉ word) (front back : List Char) :
    word <:+ front ++ '/' :: back ↔ word <:+ back := by
  refine ⟨fun h => ?_, fun h => (h.trans (List.suffix_cons '/' back)).trans (List.suffix_append _ _)⟩
  rcases List.suffix_or_suffix_of_suffix h (List.suffix_append front ('/' :: back)) with h | h
  · refine (List.suffix_cons_iff.mp h).resolve_left ?_
    rintro rfl
    exact hword (List.mem_cons_self ..)
  · exact absurd (h.subset (List.mem_cons_self ..)) hword

end Path

namespace PathGuard

open RemoteLog.Path

/-- **Components step up where names do.** The last component of a log file's path is its last
name. -/
theorem endsInDots_components_iff {path : String} (hlog : logSuffix.toList <:+ path.toList) :
    (∃ c ∈ (components path).dropLast, EndsInDots c.text) ↔
      ∃ name ∈ (names path).dropLast, EndsInDots name := by
  obtain ⟨before, last, -, hnames, hlast⟩ := exists_pieces_of_log hlog
  have hcounts : String.ofList last ≠ "." := by
    intro hdot
    have hdots : logSuffix.toList <:+ ".".toList := by rwa [← hdot, String.toList_ofList]
    exact absurd hdots (by decide)
  have hsolid : solid path = (namesOf before).filter (fun name => name ≠ ".") ++
      [String.ofList last] := by
    simp [solid, hnames, List.filter_append, hcounts]
  rw [components_eq, hsolid, List.map_append, List.map_singleton, ← List.append_assoc,
    List.dropLast_concat, hnames, List.dropLast_concat]
  constructor
  · rintro ⟨c, hc, hdots⟩
    rcases List.mem_append.mp hc with hc | hc
    · exact absurd hdots (not_endsInDots_anchor hc)
    · obtain ⟨name, hname, rfl⟩ := List.mem_map.mp hc
      exact ⟨name, (List.mem_filter.mp hname).1, by rwa [text_ofName] at hdots⟩
  · rintro ⟨name, hname, hdots⟩
    have hdot : name ≠ "." := by
      rintro rfl
      exact absurd hdots (by decide)
    refine ⟨ofName name, List.mem_append_right _ (List.mem_map_of_mem ?_), by rwa [text_ofName]⟩
    exact List.mem_filter.mpr ⟨hname, by simpa using hdot⟩

/-- **The verdict by components.** -/
theorem accepts_iff_components {guard : PathGuard} {path : String} :
    guard.accepts path = true ↔
      logSuffix.toList <:+ path.toList ∧ components guard.root <+: components path ∧
        ∀ c ∈ (components path).dropLast, ¬ EndsInDots c.text := by
  by_cases hlog : logSuffix.toList <:+ path.toList
  · have hdots := not_congr (endsInDots_components_iff hlog)
    simp only [not_exists, not_and] at hdots
    rw [accepts_log_iff hlog, and_iff_right hlog, hdots]
  · exact ⟨fun h => absurd (accepts_iff.mp h).2.2.2 hlog, fun h => absurd h.1 hlog⟩

/-- **The verdict does not depend on how a separator is spelled.** -/
theorem accepts_separator (guard : PathGuard) {sep : List Char} (h : Separator sep)
    (front back : String) :
    guard.accepts (front ++ String.ofList sep ++ back) = guard.accepts (front ++ "/" ++ back) := by
  obtain ⟨start, hsep⟩ := h.exists_concat
  have hword : '/' ∉ logSuffix.toList := by decide
  have hlong : (front ++ String.ofList sep ++ back).toList =
      (front.toList ++ start) ++ '/' :: back.toList := by simp [hsep]
  have hshort : (front ++ "/" ++ back).toList = front.toList ++ '/' :: back.toList := by simp
  rw [Bool.eq_iff_iff, accepts_iff_components, accepts_iff_components, h.components_append, hlong,
    hshort, suffix_append_slash_iff hword, suffix_append_slash_iff hword]

/-- **The verdict of the guard.** A path is let through if it ends in `.log`, if its components start
with those of the root, and if none of them but the last ends in `..`. So a path that is let through
has no step up among its components, and it is absolute if the root is. A separator of the path may be
spelled with more slashes, or with dots between them, and the verdict is the same. -/
theorem accepts_exactly (guard : PathGuard) (path : String) :
    (guard.accepts path = true ↔
      logSuffix.toList <:+ path.toList ∧ components guard.root <+: components path ∧
        ∀ c ∈ (components path).dropLast, ¬ EndsInDots c.text) ∧
    (guard.accepts path = true →
      Component.parent ∉ components path ∧
        (isAbsolute guard.root = true → isAbsolute path = true)) ∧
    ∀ (front back : String) (sep : List Char), Separator sep → path = front ++ "/" ++ back →
      guard.accepts (front ++ String.ofList sep ++ back) = guard.accepts path := by
  refine ⟨accepts_iff_components, fun h => ⟨?_, fun hroot => ?_⟩, ?_⟩
  · exact mt parent_mem_components_iff.mp (parent_notMem_names h)
  · rw [(below_root h (ne_empty_of_isAbsolute hroot)).1, hroot]
  · rintro front back sep hsep rfl
    exact accepts_separator guard hsep front back

/-- A path with a name that starts with two dots, and the same path with a dot and more slashes at
its second separator. -/
theorem accepts_exactly_dot_segment :
    let guard : PathGuard := ⟨"/opt//worker/"⟩
    guard.accepts "/opt/worker/..a/b.log" = true ∧
      Component.parent ∉ components "/opt/worker/..a/b.log" ∧
      isAbsolute guard.root = true ∧ isAbsolute "/opt/worker/..a/b.log" = true ∧
      Separator "/.//".toList ∧
      "/opt/worker/..a/b.log" = "/opt" ++ "/" ++ "worker/..a/b.log" ∧
      guard.accepts ("/opt" ++ String.ofList "/.//".toList ++ "worker/..a/b.log") = true := by
  intro guard
  have haccepts : guard.accepts "/opt/worker/..a/b.log" = true := by decide +kernel
  have hroot : isAbsolute guard.root = true := by decide +kernel
  have hsep : Separator "/.//".toList := .dot (.slashes .slash)
  have hpath : "/opt/worker/..a/b.log" = "/opt" ++ "/" ++ "worker/..a/b.log" := by decide +kernel
  obtain ⟨-, hfacts, hspelled⟩ := accepts_exactly guard "/opt/worker/..a/b.log"
  obtain ⟨hparent, habsolute⟩ := hfacts haccepts
  exact ⟨haccepts, hparent, hroot, habsolute hroot, hsep, hpath,
    (hspelled _ _ _ hsep hpath).trans haccepts⟩

end PathGuard

end RemoteLog
