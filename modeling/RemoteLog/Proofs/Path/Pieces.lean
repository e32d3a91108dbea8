import RemoteLog.Proofs.Path.Guard

/-! # The pieces of a path

Slashes cut a path into pieces. The names are the pieces that are not empty, so a name that is put
behind a path with a slash between them is one more name. The text `../` stands where a piece ends in
`..`, but not at the last piece, which has no slash behind it.

* **`Path.pieces path`** — the texts between the slashes of a path; **`Path.names_eq`**.
* **`Path.EndsInDots name`** — a name ends in `..`.
* **`PathGuard.traverses_iff`**, **`PathGuard.accepts_log_iff`** — which names make a path step up,
  and which paths the guard lets through.
* **`Path.join base names`** — a path with names put behind it; **`Path.names_join`**. -/

namespace RemoteLog

namespace Path

/-! ## Pieces and names -/

/-- **The texts between the slashes of a path,** the empty ones too. -/
def pieces (path : String) : List (List Char) := path.toList.splitOn '/'

/-- The names that pieces are: those that are not empty. -/
def namesOf (found : List (List Char)) : List String :=
  (found.filter (· ≠ [])).map String.ofList

@[simp] theorem namesOf_append (found more : List (List Char)) :
    namesOf (found ++ more) = namesOf found ++ namesOf more := by
  rw [namesOf, List.filter_append, List.map_append, namesOf, namesOf]

/-- A piece is one name or none. -/
theorem reverse_addName (name : List Char) (found : List String) :
    (addName name found).reverse = found.reverse ++ namesOf [name.reverse] := by
  by_cases hnil : name = [] <;> simp [addName, namesOf, hnil]

/-- The names of the characters that are left are their pieces, the first of which goes on with the
name that has been read. -/
theorem namesFrom_eq (found : List String) (name chars : List Char) :
    namesFrom found name chars =
      found.reverse ++ namesOf ((chars.splitOn '/').modifyHead (name.reverse ++ ·)) := by
  induction chars generalizing found name with
  | nil =>
    rw [namesFrom, reverse_addName, List.splitOn_nil, List.modifyHead_cons, List.append_nil]
  | cons c chars ih =>
    rw [namesFrom, List.splitOn_cons_eq_if_modifyHead]
    by_cases hc : c = '/'
    · -- The name ends here, and the next one starts empty.
      have hhead : (chars.splitOn '/').modifyHead (([] : List Char).reverse ++ ·) =
          chars.splitOn '/' := congrFun List.modifyHead_id _
      rw [if_pos hc, if_pos (beq_iff_eq.mpr hc), ih, reverse_addName, hhead,
        List.modifyHead_cons, List.append_nil, List.append_assoc, ← namesOf_append,
        List.singleton_append]
    · rw [if_neg hc, if_neg (by simpa using hc), ih, List.modifyHead_modifyHead]
      simp [Function.comp_def]

/-- **The names of a path** are its pieces that are not empty. -/
theorem names_eq (path : String) : names path = namesOf (pieces path) := by
  rw [names, namesFrom_eq, List.reverse_nil, List.nil_append, pieces]
  exact congrArg namesOf (congrFun List.modifyHead_id _)

/-! ## Steps up -/

/-- **A name ends in `..`.** -/
def EndsInDots (name : String) : Prop := ['.', '.'] <:+ name.toList

instance (name : String) : Decidable (EndsInDots name) :=
  inferInstanceAs (Decidable (_ <:+ _))

/-- Without a slash there is no step up. -/
theorem hasParentStep_of_notMem {chars : List Char} (h : '/' ∉ chars) :
    hasParentStep chars = false := by
  induction chars with
  | nil => rfl
  | cons c rest ih =>
    have hstart : ['.', '.', '/'].isPrefixOf (c :: rest) = false := by
      rw [Bool.eq_false_iff, ne_eq, List.isPrefixOf_iff_prefix]
      intro hdots
      exact h (hdots.subset (by simp))
    rw [hasParentStep, hstart, ih (List.not_mem_of_not_mem_cons h), Bool.or_false]

/-- The first slash ends a step up if `..` stands in front of it. -/
theorem hasParentStep_append_slash {front : List Char} (h : '/' ∉ front) (rest : List Char) :
    hasParentStep (front ++ '/' :: rest) =
      (['.', '.'].isSuffixOf front || hasParentStep rest) := by
  induction front with
  | nil => simp [hasParentStep]
  | cons c front ih =>
    have hfront := List.not_mem_of_not_mem_cons h
    -- The slash is the third character, or it stands further in front or behind.
    have hstart : ['.', '.', '/'] <+: c :: (front ++ '/' :: rest) ↔ ['.', '.'] = c :: front := by
      rcases front with _ | ⟨a, _ | ⟨b, front⟩⟩
      · simp [List.cons_prefix_cons]
      · simp [List.cons_prefix_cons]
      · have hb : '/' ≠ b := List.ne_of_not_mem_cons (List.not_mem_of_not_mem_cons hfront)
        simp [List.cons_prefix_cons, hb]
    rw [List.cons_append, hasParentStep, ih hfront, Bool.eq_iff_iff]
    simp [List.suffix_cons_iff, hstart, or_assoc]

/-- **A text steps up** where a piece that is not the last one ends in `..`. -/
theorem hasParentStep_iff (chars : List Char) :
    hasParentStep chars = true ↔
      ∃ piece ∈ (chars.splitOn '/').dropLast, ['.', '.'] <:+ piece := by
  by_cases hslash : '/' ∈ chars
  · obtain ⟨front, rest, rfl, hfront⟩ := List.eq_append_cons_of_mem hslash
    have hdrop : ((front ++ '/' :: rest).splitOn '/').dropLast =
        front :: (rest.splitOn '/').dropLast := by
      rw [List.splitOn_append_cons_self, List.splitOn_eq_singleton hfront,
        List.singleton_append, List.dropLast_cons_of_ne_nil (List.splitOn_ne_nil _ _)]
    rw [hasParentStep_append_slash hfront, hdrop, Bool.or_eq_true, hasParentStep_iff rest]
    simp
  · rw [hasParentStep_of_notMem hslash, List.splitOn_eq_singleton hslash]
    simp
termination_by chars.length
decreasing_by simp_all; omega

/-- What has no slash goes on with the last piece. -/
theorem splitOn_append (front : List Char) {back : List Char} (h : '/' ∉ back) :
    ∃ before last, front.splitOn '/' = before ++ [last] ∧
      (front ++ back).splitOn '/' = before ++ [last ++ back] := by
  induction front with
  | nil => exact ⟨[], [], List.splitOn_nil _, List.splitOn_eq_singleton h⟩
  | cons c front ih =>
    obtain ⟨before, last, hfront, hall⟩ := ih
    rw [List.cons_append, List.splitOn_cons_eq_if_modifyHead, List.splitOn_cons_eq_if_modifyHead,
      hfront, hall]
    by_cases hc : c = '/'
    · exact ⟨[] :: before, last, by simp [hc], by simp [hc]⟩
    · cases before with
      | nil => exact ⟨[], c :: last, by simp [hc], by simp [hc]⟩
      | cons first before => exact ⟨(c :: first) :: before, last, by simp [hc], by simp [hc]⟩

/-- A piece that ends in `..` is a name that does. -/
theorem exists_endsInDots_iff (found : List (List Char)) :
    (∃ piece ∈ found, ['.', '.'] <:+ piece) ↔ ∃ name ∈ namesOf found, EndsInDots name := by
  constructor
  · rintro ⟨piece, hpiece, hdots⟩
    have hne : piece ≠ [] := fun hnil => by simp [hnil] at hdots
    refine ⟨String.ofList piece, ?_, by simpa [EndsInDots] using hdots⟩
    exact List.mem_map_of_mem (List.mem_filter.mpr ⟨hpiece, by simpa using hne⟩)
  · rintro ⟨name, hname, hdots⟩
    obtain ⟨piece, hpiece, rfl⟩ := List.mem_map.mp hname
    exact ⟨piece, (List.mem_filter.mp hpiece).1, by simpa [EndsInDots] using hdots⟩

end Path

namespace PathGuard

open RemoteLog.Path

/-- The last piece of a log file's path is its last name. -/
theorem exists_pieces_of_log {path : String} (hlog : logSuffix.toList <:+ path.toList) :
    ∃ before last, pieces path = before ++ [last] ∧
      names path = namesOf before ++ [String.ofList last] ∧ logSuffix.toList <:+ last := by
  obtain ⟨front, hpath⟩ := hlog
  obtain ⟨before, last, -, hpieces⟩ := splitOn_append front (show '/' ∉ logSuffix.toList by decide)
  rw [hpath] at hpieces
  refine ⟨before, last ++ logSuffix.toList, hpieces, ?_, List.suffix_append _ _⟩
  rw [names_eq, pieces, hpieces, namesOf_append]
  simp [namesOf, logSuffix]

/-- **A log file's path steps up** where a name that is not the last one ends in `..`. -/
theorem traverses_iff {path : String} (hlog : logSuffix.toList <:+ path.toList) :
    traverses path = true ↔ ∃ name ∈ (names path).dropLast, EndsInDots name := by
  obtain ⟨before, last, hpieces, hnames, hlast⟩ := exists_pieces_of_log hlog
  have hparent : ".." ∈ names path → ∃ name ∈ namesOf before, EndsInDots name := by
    intro hmem
    rw [hnames, List.mem_append, List.mem_singleton] at hmem
    rcases hmem with hmem | hmem
    · exact ⟨"..", hmem, by decide⟩
    · -- The last name is a log file's, so it does not end in a dot.
      have hdots : logSuffix.toList <:+ "..".toList := by rwa [hmem, String.toList_ofList]
      exact absurd hdots (by decide)
  rw [traverses, Bool.or_eq_true, List.contains_iff_mem, parent_mem_components_iff,
    hasParentStep_iff, ← pieces, hpieces, List.dropLast_concat, exists_endsInDots_iff, hnames,
    List.dropLast_concat, ← hnames]
  exact or_iff_left_of_imp hparent

/-- A log file's path is not blank. -/
theorem allBlank_of_log {path : String} (hlog : logSuffix.toList <:+ path.toList) :
    Text.allBlank path = false := by
  rw [Text.allBlank, List.all_eq_false]
  exact ⟨'g', hlog.subset (by decide), by decide⟩

/-- **What the guard lets through,** told by names: a log file's path whose components start with
those of the root, where no name but the last one ends in `..`. -/
theorem accepts_log_iff {guard : PathGuard} {path : String}
    (hlog : logSuffix.toList <:+ path.toList) :
    guard.accepts path = true ↔
      components guard.root <+: components path ∧
        ∀ name ∈ (names path).dropLast, ¬ EndsInDots name := by
  have htraverses := traverses_iff hlog
  rw [accepts_iff, allBlank_of_log hlog, ← Bool.not_eq_true (traverses path), htraverses]
  simp [hlog]

end PathGuard

namespace Path

/-! ## Joining names -/

/-- Puts a name behind a path, with a slash between them where there is none. An absolute name takes
the place of the path. -/
def push (base name : String) : String :=
  if isAbsolute name then name
  else if base = "" ∨ endsInSlash base then base ++ name
  else base ++ "/" ++ name

/-- **A path with names put behind it,** one after the other. -/
def join (base : String) (more : List String) : String := more.foldl push base

/-- **A name that leads down:** not empty, one piece, and with no dots that mean or end in a
step up. -/
structure Plain (name : String) : Prop where
  ne_empty : name ≠ ""
  one_piece : '/' ∉ name.toList
  no_nul : '\x00' ∉ name.toList
  ne_dot : name ≠ "."
  ne_parent : name ≠ ".."
  not_endsInDots : ¬ EndsInDots name

instance (name : String) : Decidable (Plain name) :=
  decidable_of_iff (name ≠ "" ∧ '/' ∉ name.toList ∧ '\x00' ∉ name.toList ∧ name ≠ "." ∧
      name ≠ ".." ∧ ¬ EndsInDots name)
    ⟨fun ⟨hne, hslash, hnul, hdot, hparent, hdots⟩ => ⟨hne, hslash, hnul, hdot, hparent, hdots⟩,
      fun ⟨hne, hslash, hnul, hdot, hparent, hdots⟩ => ⟨hne, hslash, hnul, hdot, hparent, hdots⟩⟩

variable {base name : String}

/-- A plain name is not absolute. -/
theorem Plain.isAbsolute_eq (h : Plain name) : isAbsolute name = false := by
  rw [isAbsolute, decide_eq_false_iff_not]
  intro hhead
  exact h.one_piece (List.mem_of_mem_head? hhead)

/-- The names of two texts with a slash between them. -/
theorem namesOf_append_slash (front back : List Char) :
    namesOf ((front ++ '/' :: back).splitOn '/') =
      namesOf (front.splitOn '/') ++ namesOf (back.splitOn '/') := by
  rw [List.splitOn_append_cons_self, namesOf_append]

/-- The one name of a plain name. -/
theorem Plain.namesOf_eq (h : Plain name) : namesOf (name.toList.splitOn '/') = [name] := by
  have hne : name.toList ≠ [] := mt String.toList_eq_nil_iff.mp h.ne_empty
  rw [List.splitOn_eq_singleton h.one_piece]
  simp [namesOf, hne]

/-- **A name that is put behind a path** is one more name. -/
theorem names_push (hbase : base ≠ "") (h : Plain name) :
    names (push base name) = names base ++ [name] := by
  rw [push, if_neg (Bool.eq_false_iff.mp h.isAbsolute_eq)]
  by_cases hslash : endsInSlash base = true
  · -- The slash at the end has an empty piece behind it.
    obtain ⟨front, hfront⟩ := List.getLast?_eq_some_iff.mp (of_decide_eq_true hslash)
    have hall : (base ++ name).toList = front ++ '/' :: name.toList := by simp [hfront]
    rw [if_pos (.inr hslash), names_eq, names_eq, pieces, pieces, hall, hfront,
      namesOf_append_slash, namesOf_append_slash, h.namesOf_eq]
    simp [namesOf]
  · have hall : (base ++ "/" ++ name).toList = base.toList ++ '/' :: name.toList := by simp
    rw [if_neg (not_or.mpr ⟨hbase, hslash⟩), names_eq, names_eq, pieces, pieces, hall,
      namesOf_append_slash, h.namesOf_eq]

/-- What a path begins with stays when a plain name is put behind it, and the name is its end. -/
theorem exists_push (base : String) (h : Plain name) :
    ∃ slash, (push base name).toList = base.toList ++ slash ++ name.toList := by
  rw [push, if_neg (Bool.eq_false_iff.mp h.isAbsolute_eq)]
  split
  · exact ⟨[], by simp⟩
  · exact ⟨['/'], by simp⟩

theorem isAbsolute_push (hbase : isAbsolute base = true) (h : Plain name) :
    isAbsolute (push base name) = true := by
  obtain ⟨slash, hpush⟩ := exists_push base h
  rw [isAbsolute, decide_eq_true_iff] at hbase ⊢
  rw [hpush, List.append_assoc, List.head?_append, hbase, Option.some_or]

/-- An absolute path is not empty. -/
theorem ne_empty_of_isAbsolute (h : isAbsolute base = true) : base ≠ "" := by
  rintro rfl
  exact absurd h (by decide)

/-- **Names that are put behind an absolute path** are more names of an absolute path. -/
theorem names_join {more : List String} (hbase : isAbsolute base = true)
    (h : ∀ name ∈ more, Plain name) :
    isAbsolute (join base more) = true ∧ names (join base more) = names base ++ more := by
  induction more generalizing base with
  | nil => exact ⟨hbase, (List.append_nil _).symm⟩
  | cons name more ih =>
    have hname := h name (List.mem_cons_self ..)
    obtain ⟨habsolute, hnames⟩ := ih (isAbsolute_push hbase hname) fun name hmem =>
      h name (List.mem_cons_of_mem _ hmem)
    rw [names_push (ne_empty_of_isAbsolute hbase) hname, List.append_assoc,
      List.singleton_append] at hnames
    exact ⟨habsolute, hnames⟩

/-- The last name is the end of the path. -/
theorem suffix_join (base : String) (front : List String) {last : String} (h : Plain last) :
    last.toList <:+ (join base (front ++ [last])).toList := by
  obtain ⟨slash, hpush⟩ := exists_push (join base front) h
  rw [join, List.foldl_append, List.foldl_cons, List.foldl_nil, ← join, hpush]
  exact List.suffix_append _ _

end Path

end RemoteLog
