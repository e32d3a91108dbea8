import RemoteLog.FileSystem
import RemoteLog.Proofs.Association
import RemoteLog.Proofs.Path.Guard

/-! # Resolving paths where there are no links

In a file system without links the place that a path names is known from its text, as long as the
text does not step up. What is found there depends on the entries along the path only.

* **`LinkFree fs`** — no entry is a link; **`walk_eq_file`** — a file in directories is found.
* **`lexical here names`**, **`place fs path`** — the place, by the names alone.
* **`SameAlong path fs₁ fs₂`** — two file systems have the same entries along a path.
* **`resolve_congr`**, **`unlink_congr`** — such file systems cannot be told apart by the path. -/

namespace RemoteLog.FileSystem

/-- The file system has no links. -/
def LinkFree (fs : FileSystem) : Prop :=
  ∀ (path : List String) (target : String), fs.entry? path ≠ some (.link target)

theorem linkFree_of_forall {fs : FileSystem}
    (h : ∀ e ∈ fs.entries, ∀ target : String, e.2 ≠ .link target) : fs.LinkFree := by
  intro path target hentry
  unfold entry? at hentry
  split at hentry
  · cases hentry
  · obtain ⟨e, hfind, he⟩ := Option.map_eq_some_iff.mp hentry
    exact h e (List.mem_of_find?_eq_some hfind) target he

/-- **An erased entry is gone** and all others stay. The root cannot be erased. -/
theorem entry?_erase (fs : FileSystem) (gone path : List String) :
    entry? (fs.erase gone) path = if path = gone ∧ path ≠ [] then none else fs.entry? path := by
  unfold entry? erase
  by_cases hpath : path = []
  · simp [hpath]
  · have hempty : ¬ path.isEmpty = true := by simpa using hpath
    simp only [if_neg hempty]
    by_cases hgone : path = gone
    · rw [if_pos ⟨hgone, hpath⟩, hgone, Association.find?_filter_self]
      rfl
    · rw [if_neg (fun h => hgone h.1), Association.find?_filter_other _ hgone]

/-- Erasing an entry makes no link. -/
theorem LinkFree.erase {fs : FileSystem} (h : fs.LinkFree) (gone : List String) :
    (fs.erase gone).LinkFree := by
  intro path target
  rw [entry?_erase]
  split
  · exact fun hnone => nomatch hnone
  · exact h path target

theorem isDirectory_iff {fs : FileSystem} {path : List String} :
    fs.isDirectory path = true ↔ fs.entry? path = some .directory := by
  unfold isDirectory
  split
  · next hentry => simp [hentry]
  · next hother => simpa using hother

/-- **A file is found** where names lead through directories, if none of them is one dot or two dots
or too long. -/
theorem walk_eq_file {fs : FileSystem} {here names : List String} {content : Content}
    (hne : names ≠ [])
    (hdown : ∀ name ∈ names, name ≠ "." ∧ name ≠ ".." ∧ name.utf8ByteSize ≤ nameLimit)
    (hway : ∀ n < names.length, fs.isDirectory (here ++ names.take n) = true)
    (hfile : fs.entry? (here ++ names) = some (.file content)) (purpose : Purpose) (links : Nat) :
    walk fs purpose links here names = .ok (.entry (here ++ names) (.file content)) := by
  induction names generalizing here with
  | nil => exact absurd rfl hne
  | cons name rest ih =>
    obtain ⟨hdot, hup, hshort⟩ := hdown name (List.mem_cons_self ..)
    have hhere : fs.isDirectory here = true := by simpa using hway 0 (Nat.zero_lt_succ _)
    rw [walk, if_neg (by simpa using hhere), if_neg hdot, if_neg hup,
      if_neg (Nat.not_lt.mpr hshort)]
    cases rest with
    | nil => simp [hfile]
    | cons next rest =>
      -- There is a directory behind the name, and the walk goes on from it.
      have hdirectory := isDirectory_iff.mp (show fs.isDirectory (here ++ [name]) = true by
        simpa using hway 1 (by simp))
      have hnext := @ih (here ++ [name]) (List.cons_ne_nil _ _)
        (fun name hmem => hdown name (List.mem_cons_of_mem _ hmem))
        (fun n hn => by simpa using hway (n + 1) (Nat.succ_lt_succ hn)) (by simpa using hfile)
      simpa [hdirectory] using hnext

/-! ## Places by their names -/

/-- **The place that names lead to,** if none of them is a link. -/
def lexical (here : List String) : List String → List String
  | [] => here
  | name :: rest =>
    if name = "." then lexical here rest
    else if name = ".." then lexical here.dropLast rest
    else lexical (here ++ [name]) rest

/-- **The place that a path text names,** if there are no links. -/
def place (fs : FileSystem) (path : String) : List String :=
  lexical (fs.origin path) (Path.names path)

theorem lexical_append (here names more : List String) :
    lexical here (names ++ more) = lexical (lexical here names) more := by
  fun_induction lexical here names with
  | case1 => rfl
  | case2 here rest ih => rw [List.cons_append, lexical, if_pos rfl, ih]
  | case3 here rest _ ih => rw [List.cons_append, lexical, if_neg (by decide), if_pos rfl, ih]
  | case4 here name rest hdot hparent ih =>
    rw [List.cons_append, lexical, if_neg hdot, if_neg hparent, ih]

/-- A `.` at the end leads nowhere. -/
@[simp] theorem lexical_append_dot (here names : List String) :
    lexical here (names ++ ["."]) = lexical here names := by
  rw [lexical_append]
  rfl

/-- Names that do not step up are put behind the place where they start. -/
theorem lexical_eq_append {names : List String} (h : ".." ∉ names) (here : List String) :
    lexical here names = here ++ names.filter fun name => name ≠ "." := by
  fun_induction lexical here names with
  | case1 => simp
  | case2 here rest ih => simp [ih (fun hmem => h (List.mem_cons_of_mem _ hmem))]
  | case3 here rest _ ih => exact absurd (List.mem_cons_self ..) h
  | case4 here name rest hdot hparent ih =>
    simp [hdot, ih (fun hmem => h (List.mem_cons_of_mem _ hmem))]

theorem prefix_lexical {names : List String} (h : ".." ∉ names) (here : List String) :
    here <+: lexical here names := ⟨_, (lexical_eq_append h here).symm⟩

/-- The place of a path that does not step up. -/
theorem place_eq_append {path : String} (h : ".." ∉ Path.names path) (fs : FileSystem) :
    fs.place path = fs.origin path ++ Path.solid path := lexical_eq_append h _

/-! ## Walking -/

section

variable {fs fs₁ fs₂ : FileSystem} {purpose : Purpose} {links : Nat} {here names : List String}

/-- **A walk depends on the entries along its way only.** -/
theorem walk_congr (hfree : fs₁.LinkFree) (hup : ".." ∉ names)
    (h : ∀ path, path <+: lexical here names → fs₁.entry? path = fs₂.entry? path) :
    walk fs₁ purpose links here names = walk fs₂ purpose links here names := by
  induction names generalizing here with
  | nil =>
    rw [walk, walk, h here (List.prefix_refl _)]
  | cons name rest ih =>
    have hrest : ".." ∉ rest := fun hmem => hup (List.mem_cons_of_mem _ hmem)
    have hname : name ≠ ".." := fun heq => hup (heq ▸ List.mem_cons_self ..)
    have hdirectory : fs₁.isDirectory here = fs₂.isDirectory here := by
      rw [isDirectory, isDirectory, h here (prefix_lexical hup here)]
    rw [walk, walk, hdirectory]
    by_cases hdot : name = "."
    · subst hdot
      rw [if_pos rfl, if_pos rfl, ih hrest h]
    · rw [if_neg hdot, if_neg hdot, if_neg hname, if_neg hname]
      rw [lexical, if_neg hdot, if_neg hname] at h
      rw [← h _ (prefix_lexical hrest _), ih hrest h]
      -- A link is the only entry that leads a walk off the way of its names.
      cases hentry : fs₁.entry? (here ++ [name]) with
      | none => rfl
      | some entry =>
        cases entry with
        | link target => exact absurd hentry (hfree _ target)
        | file content => rfl
        | directory => rfl

/-- A walk that finds an entry finds it at the place that its names lead to. -/
theorem walk_eq_entry (hfree : fs.LinkFree) (hup : ".." ∉ names) {path : List String}
    {entry : Entry} (h : walk fs purpose links here names = .ok (.entry path entry)) :
    path = lexical here names ∧ fs.entry? path = some entry := by
  induction names generalizing here with
  | nil =>
    rw [walk] at h
    split at h
    · next heq =>
      cases h
      exact ⟨rfl, heq⟩
    · cases h
  | cons name rest ih =>
    have hrest : ".." ∉ rest := fun hmem => hup (List.mem_cons_of_mem _ hmem)
    have hname : name ≠ ".." := fun heq => hup (heq ▸ List.mem_cons_self ..)
    rw [walk] at h
    by_cases hdirectory : fs.isDirectory here
    · rw [if_neg (by simpa using hdirectory)] at h
      by_cases hdot : name = "."
      · rw [if_pos hdot] at h
        rw [lexical, if_pos hdot]
        exact ih hrest h
      · rw [if_neg hdot, if_neg hname] at h
        rw [lexical, if_neg hdot, if_neg hname]
        by_cases hlong : name.utf8ByteSize > nameLimit
        · rw [if_pos hlong] at h
          cases h
        · rw [if_neg hlong] at h
          split at h
          · -- Nothing is there, so no entry is found.
            split at h <;> cases h
          · next heq => exact absurd heq (hfree _ _)
          · next heq =>
            split at h
            · next hempty =>
              cases h
              rw [List.isEmpty_iff.mp hempty]
              exact ⟨rfl, heq⟩
            · exact ih hrest h
    · rw [if_pos (by simpa using hdirectory)] at h
      cases h

end

/-! ## File systems that agree along a path -/

/-- **Two file systems have the same entries along a path,** which names the same place in both. -/
structure SameAlong (path : String) (fs₁ fs₂ : FileSystem) : Prop where
  origin : fs₁.origin path = fs₂.origin path
  entry? : ∀ place, place <+: fs₁.place path → fs₁.entry? place = fs₂.entry? place

section

variable {fs₁ fs₂ : FileSystem} {path : String}

theorem SameAlong.place (h : SameAlong path fs₁ fs₂) : fs₁.place path = fs₂.place path := by
  rw [FileSystem.place, FileSystem.place, h.origin]

/-- A path names the same in both. -/
theorem resolve_congr (hfree : fs₁.LinkFree) (hup : ".." ∉ Path.names path)
    (h : SameAlong path fs₁ fs₂) : fs₁.resolve .use path = fs₂.resolve .use path := by
  unfold resolve
  cases refusal? path with
  | some cause => rfl
  | none =>
    show walk _ _ _ _ _ = walk _ _ _ _ _
    rw [← h.origin, steps]
    by_cases hslash : Path.endsInSlash path
    · -- A slash at the end is walked as a `.`, which names the same place.
      rw [if_pos hslash]
      refine walk_congr hfree (by simpa using hup) fun place hplace => h.entry? place ?_
      rwa [lexical_append_dot] at hplace
    · rw [if_neg hslash]
      exact walk_congr hfree hup h.entry?

theorem openFile_congr (hfree : fs₁.LinkFree) (hup : ".." ∉ Path.names path)
    (h : SameAlong path fs₁ fs₂) : fs₁.openFile path = fs₂.openFile path := by
  rw [openFile, openFile, resolve_congr hfree hup h]

theorem isFile_congr (hfree : fs₁.LinkFree) (hup : ".." ∉ Path.names path)
    (h : SameAlong path fs₁ fs₂) : fs₁.isFile path = fs₂.isFile path := by
  rw [isFile, isFile, resolve_congr hfree hup h]

/-- The directory that holds the last name is the same in both. -/
theorem parent_congr (hfree : fs₁.LinkFree) (hup : ".." ∉ Path.names path)
    (h : SameAlong path fs₁ fs₂) : fs₁.parent path = fs₂.parent path := by
  have hfront : ".." ∉ (Path.names path).dropLast := fun hmem =>
    hup (List.dropLast_subset _ hmem)
  have hstart : lexical (fs₁.origin path) (Path.names path).dropLast <+: fs₁.place path := by
    rw [lexical_eq_append hfront, place, lexical_eq_append hup]
    exact (List.prefix_append_right_inj _).mpr ((List.dropLast_prefix _).filter _)
  rw [parent, parent, ← h.origin,
    walk_congr hfree (by simpa using hfront) fun place hplace => h.entry? place ?_]
  rw [lexical_append_dot] at hplace
  exact hplace.trans hstart

/-- The last name stands in the directory that holds it, at the place of the path. -/
theorem place_of_parent {fs : FileSystem} (hfree : fs.LinkFree) (hup : ".." ∉ Path.names path)
    {directory : List String} {name : String} (hparent : fs.parent path = .ok directory)
    (hlast : (Path.names path).getLast? = some name) (hdot : name ≠ ".") :
    directory ++ [name] = fs.place path := by
  have hfront : ".." ∉ (Path.names path).dropLast := fun hmem =>
    hup (List.dropLast_subset _ hmem)
  obtain ⟨front, hnames⟩ := List.getLast?_eq_some_iff.mp hlast
  have hname : name ≠ ".." := fun heq => hup (by simp [hnames, heq])
  have hdirectory : directory = lexical (fs.origin path) (Path.names path).dropLast := by
    unfold parent at hparent
    split at hparent
    · cases hparent
    · next hwalk =>
      cases hparent
      have := (walk_eq_entry hfree (by simpa using hfront) hwalk).1
      rwa [lexical_append_dot] at this
    · cases hparent
  rw [hdirectory, place, hnames, List.dropLast_concat, lexical_append]
  simp [lexical, hdot, hname]

/-- **Unlinking fails alike in both,** or erases the place of the path in both. -/
theorem unlink_congr (hfree₁ : fs₁.LinkFree) (hup : ".." ∉ Path.names path)
    (h : SameAlong path fs₁ fs₂) :
    (∃ cause, fs₁.unlink path = .error cause ∧ fs₂.unlink path = .error cause) ∨
      fs₁.unlink path = .ok (fs₁.erase (fs₁.place path)) ∧
        fs₂.unlink path = .ok (fs₂.erase (fs₂.place path)) := by
  unfold unlink
  rw [← parent_congr hfree₁ hup h]
  cases refusal? path with
  | some cause => exact .inl ⟨cause, rfl, rfl⟩
  | none =>
    cases hparent : fs₁.parent path with
    | error cause => exact .inl ⟨cause, rfl, rfl⟩
    | ok directory =>
      cases hlast : (Path.names path).getLast? with
      | none => exact .inl ⟨_, rfl, rfl⟩
      | some name =>
        by_cases hdots : name = "." ∨ name = ".."
        · simp [hdots]
        · -- The name is removed from its directory, which is at the place of the path.
          have hplace := place_of_parent hfree₁ hup hparent hlast (fun hdot => hdots (.inl hdot))
          simp only [if_neg hdots, hplace, ← h.entry? _ (List.prefix_refl _), ← h.place]
          by_cases hlong : name.utf8ByteSize > nameLimit
          · exact .inl ⟨_, if_pos hlong, if_pos hlong⟩
          · simp only [if_neg hlong]
            cases fs₁.entry? (fs₁.place path) with
            | none => exact .inl ⟨_, rfl, rfl⟩
            | some entry =>
              by_cases hslash : Path.endsInSlash path
              · cases entry <;> simp [hslash]
              · cases entry <;> simp [hslash]

end

end RemoteLog.FileSystem
