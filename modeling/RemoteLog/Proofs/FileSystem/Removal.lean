import RemoteLog.Log.Removal
import RemoteLog.Proofs.FileSystem.Walk

/-! # What a removal removes

The last name of a path is looked up in the directory that the names before it lead to, links
followed. A removal takes away what stands there, which is not followed itself: a file or a link.
The way to the directory may have gone through the very link that is removed, and then it leads
nowhere afterwards.

* **`FileSystem.lead fs links here names`** — where names lead that more names follow.
* **`FileSystem.Names fs path place`** — the place that a path names, a link at the end not
  followed; **`FileSystem.Absent fs path`** — nothing exists there.
* **`FileSystem.lead_erase`**, **`FileSystem.parent_erase`** — ways after a removal.
* **`FileSystem.Removes fs path files`** — one entry is gone and nothing else has changed.
* **`Log.remove_cases`** — what a removal does; **`Log.remove_again`**, **`Log.remove_failed`** —
  what its result tells about the files. -/

namespace RemoteLog

namespace FileSystem

/-! ## The way to the last name -/

/-- **Walks along names that more names follow.** The result is the place that is reached and the
number of links that may still be followed. -/
def lead (fs : FileSystem) (links : Nat) (here : List String) (names : List String) :
    Except SystemError (Nat × List String) :=
  match names with
  | [] => .ok (links, here)
  | name :: rest =>
    if !fs.isDirectory here then .error .notDirectory
    else if name = "." then lead fs links here rest
    else if name = ".." then lead fs links here.dropLast rest
    else if name.utf8ByteSize > nameLimit then .error .nameTooLong
    else
      match fs.entry? (here ++ [name]) with
      | none => .error .notFound
      | some (.link target) =>
        match links with
        | 0 => .error .tooManyLinks
        | links + 1 =>
          lead fs links (if Path.isAbsolute target then [] else here) (Path.names target ++ rest)
      | some _ => lead fs links (here ++ [name]) rest
termination_by (links, names.length)

variable {fs files : FileSystem} {purpose : Purpose} {links : Nat}
  {here names more gone place : List String} {path : String}

/-- **A walk goes on from where the names lead.** -/
theorem walk_append (hmore : more ≠ []) :
    walk fs purpose links here (names ++ more) =
      (fs.lead links here names).bind fun there => walk fs purpose there.1 there.2 more := by
  fun_induction lead fs links here names with
  | case1 links here => rfl
  | case2 links here name rest hfile =>
    rw [List.cons_append, walk, if_pos hfile]
    rfl
  | case3 links here rest hdirectory ih =>
    rw [List.cons_append, walk, if_neg hdirectory, if_pos rfl, ih]
  | case4 links here rest hdirectory _ ih =>
    rw [List.cons_append, walk, if_neg hdirectory, if_neg (by decide), if_pos rfl, ih]
  | case5 links here name rest hdirectory hdot hup hlong =>
    rw [List.cons_append, walk, if_neg hdirectory, if_neg hdot, if_neg hup, if_pos hlong]
    rfl
  | case6 links here name rest hdirectory hdot hup hlong hnone =>
    rw [List.cons_append, walk, if_neg hdirectory, if_neg hdot, if_neg hup, if_neg hlong]
    simp [hnone, hmore, Except.bind]
  | case7 here name rest hdirectory hdot hup hlong target hlink =>
    rw [List.cons_append, walk, if_neg hdirectory, if_neg hdot, if_neg hup, if_neg hlong]
    simp [hlink, Except.bind]
  | case8 here name rest hdirectory hdot hup hlong target hlink links ih =>
    rw [List.cons_append, walk, if_neg hdirectory, if_neg hdot, if_neg hup, if_neg hlong]
    simpa [hlink, hmore] using ih
  | case9 links here name rest hdirectory hdot hup hlong entry hlink hentry ih =>
    rw [List.cons_append, walk, if_neg hdirectory, if_neg hdot, if_neg hup, if_neg hlong]
    cases entry with
    | link target => exact absurd rfl (hlink target)
    | file | directory => simpa [hentry, hmore] using ih

/-- Erasing what is no directory changes no directory. -/
theorem isDirectory_erase (hgone : fs.isDirectory gone = false) (place : List String) :
    isDirectory (fs.erase gone) place = fs.isDirectory place := by
  unfold isDirectory
  rw [entry?_erase]
  by_cases h : place = gone ∧ place ≠ []
  · rw [if_pos h, h.1]
    exact hgone.symm
  · rw [if_neg h]

/-- Erasing an entry leaves nothing at a place, or what was there. -/
theorem entry?_erase_cases (fs : FileSystem) (gone place : List String) :
    entry? (fs.erase gone) place = none ∨ entry? (fs.erase gone) place = fs.entry? place := by
  rw [entry?_erase]
  split
  · exact .inl rfl
  · exact .inr rfl

/-- Names that are looked up in a directory. -/
theorem lead_lookUp {name : String} (hdirectory : fs.isDirectory here = true) (hdot : name ≠ ".")
    (hup : name ≠ "..") (hshort : ¬ name.utf8ByteSize > nameLimit) (rest : List String) :
    fs.lead links here (name :: rest) =
      match fs.entry? (here ++ [name]) with
      | none => .error .notFound
      | some (.link target) =>
        match links with
        | 0 => .error .tooManyLinks
        | links + 1 =>
          fs.lead links (if Path.isAbsolute target then [] else here) (Path.names target ++ rest)
      | some _ => fs.lead links (here ++ [name]) rest := by
  rw [lead, if_neg (by simp [hdirectory]), if_neg hdot, if_neg hup, if_neg hshort]

/-- **The way to a place** leads there as before when an entry has been erased that is no directory,
or it leads nowhere. -/
theorem lead_erase (hgone : fs.isDirectory gone = false) (links : Nat) (here names : List String) :
    lead (fs.erase gone) links here names = fs.lead links here names ∨
      lead (fs.erase gone) links here names = .error .notFound := by
  have hsame := isDirectory_erase hgone
  fun_induction lead fs links here names with
  | case1 links here => exact .inl (by rw [lead])
  | case2 links here name rest hfile =>
    rw [lead, hsame, if_pos hfile]
    exact .inl rfl
  | case3 links here rest hdirectory ih => rwa [lead, hsame, if_neg hdirectory, if_pos rfl]
  | case4 links here rest hdirectory _ ih =>
    rwa [lead, hsame, if_neg hdirectory, if_neg (by decide), if_pos rfl]
  | case5 links here name rest hdirectory hdot hup hlong =>
    rw [lead, hsame, if_neg hdirectory, if_neg hdot, if_neg hup, if_pos hlong]
    exact .inl rfl
  | case6 links here name rest hdirectory hdot hup hshort hnone =>
    rw [lead_lookUp (by simpa [hsame] using hdirectory) hdot hup hshort, entry?_erase, hnone,
      ite_self]
    exact .inl rfl
  | case7 here name rest hdirectory hdot hup hshort target hlink =>
    rw [lead_lookUp (by simpa [hsame] using hdirectory) hdot hup hshort]
    obtain herased | hkept := entry?_erase_cases fs gone (here ++ [name])
    · rw [herased]
      exact .inr rfl
    · rw [hkept, hlink]
      exact .inl rfl
  | case8 here name rest hdirectory hdot hup hshort target hlink links ih =>
    rw [lead_lookUp (by simpa [hsame] using hdirectory) hdot hup hshort]
    obtain herased | hkept := entry?_erase_cases fs gone (here ++ [name])
    · rw [herased]
      exact .inr rfl
    · rw [hkept, hlink]
      exact ih
  | case9 links here name rest hdirectory hdot hup hshort entry hlink hentry ih =>
    rw [lead_lookUp (by simpa [hsame] using hdirectory) hdot hup hshort]
    obtain herased | hkept := entry?_erase_cases fs gone (here ++ [name])
    · rw [herased]
      exact .inr rfl
    · rw [hkept, hentry]
      cases entry with
      | link target => exact absurd rfl (hlink target)
      | file | directory => exact ih

/-! ## The place of the last name -/

/-- **The directory that holds the last name** is where the names before it lead, if that is a
directory. -/
theorem parent_eq (fs : FileSystem) (path : String) :
    fs.parent path =
      (fs.lead linkLimit (fs.origin path) (Path.names path).dropLast).bind fun there =>
        if fs.isDirectory there.2 then .ok there.2 else .error .notDirectory := by
  rw [parent, walk_append (List.cons_ne_nil _ _)]
  cases fs.lead linkLimit (fs.origin path) (Path.names path).dropLast with
  | error cause => rfl
  | ok there =>
    obtain ⟨links, there⟩ := there
    simp only [Except.bind]
    rw [walk]
    by_cases hdirectory : fs.isDirectory there
    · have hentry := isDirectory_iff.mp hdirectory
      simp [hdirectory, walk, hentry]
    · simp [hdirectory]

/-- The directory of a path is the same when an entry has been erased that is no directory, or it is
not found. -/
theorem parent_erase (hgone : fs.isDirectory gone = false) (path : String) :
    parent (fs.erase gone) path = fs.parent path ∨
      parent (fs.erase gone) path = .error .notFound := by
  rw [parent_eq, parent_eq]
  obtain hsame | hlost :=
    lead_erase hgone linkLimit (fs.origin path) (Path.names path).dropLast
  · simp only [isDirectory_erase hgone]
    exact .inl (congrArg (Except.bind · _) hsame)
  · exact .inr (congrArg (Except.bind · _) hlost)

/-- A directory that holds the last name is where the names before it lead. -/
theorem exists_lead_of_parent {directory : List String} (h : fs.parent path = .ok directory) :
    ∃ links, fs.lead linkLimit (fs.origin path) (Path.names path).dropLast =
        .ok (links, directory) ∧
      fs.isDirectory directory = true := by
  rw [parent_eq] at h
  match hlead : fs.lead linkLimit (fs.origin path) (Path.names path).dropLast with
  | .error cause =>
    rw [hlead] at h
    cases h
  | .ok (links, there) =>
    rw [hlead, Except.bind] at h
    split at h
    · next hdirectory =>
      cases h
      exact ⟨links, rfl, hdirectory⟩
    · cases h

/-- If the directory is not found, the names before the last one lead nowhere. -/
theorem lead_of_parent_notFound (h : fs.parent path = .error .notFound) :
    fs.lead linkLimit (fs.origin path) (Path.names path).dropLast = .error .notFound := by
  rw [parent_eq] at h
  match hlead : fs.lead linkLimit (fs.origin path) (Path.names path).dropLast with
  | .error cause =>
    rw [hlead] at h
    cases h
    rfl
  | .ok (links, there) =>
    rw [hlead, Except.bind] at h
    split at h <;> cases h

/-- **A path names an entry of a directory:** its last name stands for one, and the names before it
lead to the directory. A link that is the entry is not followed. -/
structure Names (fs : FileSystem) (path : String) (directory : List String) (name : String) :
    Prop where
  parent : fs.parent path = .ok directory
  last : (Path.names path).getLast? = some name
  ne_dot : name ≠ "."
  ne_up : name ≠ ".."

/-- **Nothing exists at a path:** its directory does not exist, or nothing stands in it, not even a
link that leads nowhere. -/
inductive Absent (fs : FileSystem) (path : String) : Prop
  | directory (h : fs.parent path = .error .notFound)
  | name {directory : List String} {name : String} (hnames : fs.Names path directory name)
      (h : fs.entry? (directory ++ [name]) = none)

/-- **A path where nothing exists leads to no entry.** -/
theorem Absent.resolve_ne (h : fs.Absent path) (hslash : Path.endsInSlash path = false)
    (place : List String) (entry : Entry) : fs.resolve .use path ≠ .ok (.entry place entry) := by
  intro hresolve
  unfold resolve at hresolve
  split at hresolve
  · cases hresolve
  · rw [steps, hslash, if_neg Bool.false_ne_true] at hresolve
    cases h with
    | directory hparent =>
      have hlead := lead_of_parent_notFound hparent
      -- No names at all lead to the start, so there is a last name.
      have hne : Path.names path ≠ [] := by
        intro hnil
        rw [hnil, List.dropLast_nil, lead] at hlead
        cases hlead
      rw [← List.dropLast_concat_getLast hne, walk_append (List.cons_ne_nil _ _), hlead] at hresolve
      cases hresolve
    | @name directory name hnames hnone =>
      obtain ⟨links, hlead, hdirectory⟩ := exists_lead_of_parent hnames.parent
      obtain ⟨front, hsplit⟩ := List.getLast?_eq_some_iff.mp hnames.last
      rw [hsplit, List.dropLast_concat] at hlead
      rw [hsplit, walk_append (List.cons_ne_nil _ _), hlead, Except.bind, walk,
        if_neg (by simp [hdirectory]), if_neg hnames.ne_dot, if_neg hnames.ne_up] at hresolve
      dsimp only at hresolve
      split at hresolve
      · cases hresolve
      · rw [hnone] at hresolve
        cases hresolve

/-! ## Unlinking -/

/-- **One entry is removed,** the one that a path names: a file, or a link itself. -/
structure Removes (fs : FileSystem) (path : String) (place : List String) (files : FileSystem) :
    Prop where
  names : ∃ directory name, fs.Names path directory name ∧ place = directory ++ [name]
  entry : ∃ entry, fs.entry? place = some entry ∧ entry ≠ .directory
  gone : files.entry? place = none
  kept : ∀ other, other ≠ place → files.entry? other = fs.entry? other
  workingDirectory : files.workingDirectory = fs.workingDirectory

/-- **What unlinking does,** by the place that the path names. -/
theorem Names.unlink_eq {directory : List String} {name : String}
    (h : fs.Names path directory name) (hrefusal : refusal? path = none) :
    fs.unlink path =
      if name.utf8ByteSize > nameLimit then .error .nameTooLong
      else
        match fs.entry? (directory ++ [name]) with
        | none => .error .notFound
        | some .directory => .error .isDirectory
        | some _ =>
          if Path.endsInSlash path then .error .notDirectory
          else .ok (fs.erase (directory ++ [name])) := by
  have hdots : ¬ (name = "." ∨ name = "..") := not_or.mpr ⟨h.ne_dot, h.ne_up⟩
  rw [unlink, hrefusal, h.parent, h.last]
  exact if_neg hdots

/-- Erasing a file or a link removes it. -/
theorem Names.removes_erase {directory : List String} {name : String} {entry : Entry}
    (h : fs.Names path directory name) (hentry : fs.entry? (directory ++ [name]) = some entry)
    (hne : entry ≠ .directory) :
    Removes fs path (directory ++ [name]) (fs.erase (directory ++ [name])) where
  names := ⟨directory, name, h, rfl⟩
  entry := ⟨entry, hentry, hne⟩
  gone := by rw [entry?_erase, if_pos ⟨rfl, by simp⟩]
  kept other hother := by rw [entry?_erase, if_neg (fun heq => hother heq.1)]
  workingDirectory := rfl

/-- **Unlinking fails,** or it removes what the path names. -/
theorem unlink_cases (fs : FileSystem) (hrefusal : refusal? path = none) :
    (∃ cause, fs.unlink path = .error cause ∧ (cause = .notFound → fs.Absent path)) ∨
      ∃ directory name, fs.Names path directory name ∧ ¬ name.utf8ByteSize > nameLimit ∧
        Removes fs path (directory ++ [name]) (fs.erase (directory ++ [name])) ∧
        fs.unlink path = .ok (fs.erase (directory ++ [name])) := by
  cases hparent : fs.parent path with
  | error cause =>
    refine .inl ⟨cause, by simp only [unlink, hrefusal, hparent], ?_⟩
    rintro rfl
    exact .directory hparent
  | ok directory =>
    cases hlast : (Path.names path).getLast? with
    | none =>
      exact .inl ⟨.isDirectory, by simp only [unlink, hrefusal, hparent, hlast], nofun⟩
    | some name =>
      by_cases hdots : name = "." ∨ name = ".."
      · exact .inl ⟨.isDirectory,
          by simp only [unlink, hrefusal, hparent, hlast, if_pos hdots], nofun⟩
      · obtain ⟨hdot, hup⟩ := not_or.mp hdots
        have hnames : fs.Names path directory name := ⟨hparent, hlast, hdot, hup⟩
        rw [hnames.unlink_eq hrefusal]
        by_cases hlong : name.utf8ByteSize > nameLimit
        · exact .inl ⟨_, if_pos hlong, nofun⟩
        · rw [if_neg hlong]
          -- What stands at the place decides; a slash at the end asks for a directory.
          cases hentry : fs.entry? (directory ++ [name]) with
          | none => exact .inl ⟨_, rfl, fun _ => .name hnames hentry⟩
          | some entry =>
            cases entry with
            | directory => exact .inl ⟨_, rfl, nofun⟩
            | file | link =>
              by_cases hslash : Path.endsInSlash path = true
              · exact .inl ⟨_, if_pos hslash, nofun⟩
              · exact .inr ⟨directory, name, hnames, hlong, hnames.removes_erase hentry nofun,
                  if_neg hslash⟩

theorem Removes.isDirectory (h : Removes fs path place files) : fs.isDirectory place = false := by
  obtain ⟨entry, hentry, hne⟩ := h.entry
  unfold FileSystem.isDirectory
  rw [hentry]
  cases entry with
  | directory => exact absurd rfl hne
  | file | link => rfl

/-- **Nothing exists at a path whose entry was erased.** Either its directory is still there, or the
way to it went through the entry. -/
theorem absent_erase {directory : List String} {name : String}
    (hnames : fs.Names path directory name) (hfile : fs.isDirectory (directory ++ [name]) = false) :
    Absent (fs.erase (directory ++ [name])) path := by
  obtain hparent | hlost := parent_erase hfile path
  · refine .name ⟨hparent.trans hnames.parent, hnames.last, hnames.ne_dot, hnames.ne_up⟩ ?_
    rw [entry?_erase, if_pos ⟨rfl, by simp⟩]
  · exact .directory hlost

/-- **What was unlinked is not found again.** -/
theorem unlink_erase (hrefusal : refusal? path = none) {directory : List String} {name : String}
    (hnames : fs.Names path directory name) (hshort : ¬ name.utf8ByteSize > nameLimit)
    (hfile : fs.isDirectory (directory ++ [name]) = false) :
    unlink (fs.erase (directory ++ [name])) path = .error .notFound := by
  obtain hparent | hlost := parent_erase hfile path
  · have hsame : Names (fs.erase (directory ++ [name])) path directory name :=
      ⟨hparent.trans hnames.parent, hnames.last, hnames.ne_dot, hnames.ne_up⟩
    rw [hsame.unlink_eq hrefusal, if_neg hshort, entry?_erase, if_pos ⟨rfl, by simp⟩]
  · simp only [unlink, hrefusal, hlost]

end FileSystem

namespace Log

open FileSystem

variable {fs files : FileSystem} {path : String}

/-! ## Removals -/

/-- A file that cannot be removed is not gone, unless it was not there. -/
theorem remove_of_error {cause : SystemError} (h : fs.unlink path = .error cause)
    (hne : cause ≠ .notFound) : remove fs path = (false, fs) := by
  unfold remove
  rw [h]
  split
  · next heq => cases heq
  · next heq => exact absurd (Except.error.inj heq) hne
  · rfl

/-- **What a removal does:** it removes the entry that the path names, it finds nothing there, or it
fails. Only the first of these changes the files, and the second comes of it if it is repeated. -/
theorem remove_cases (fs : FileSystem) (hrefusal : refusal? path ≠ some .notFound) :
    (∃ place files, Removes fs path place files ∧ files.Absent path ∧
      remove fs path = (true, files) ∧ remove files path = (true, files)) ∨
    (fs.Absent path ∧ remove fs path = (true, fs)) ∨ remove fs path = (false, fs) := by
  cases hrefused : refusal? path with
  | some cause =>
    have hunlink : fs.unlink path = .error cause := by simp only [unlink, hrefused]
    refine .inr (.inr (remove_of_error hunlink ?_))
    rintro rfl
    exact hrefusal hrefused
  | none =>
    obtain ⟨cause, hunlink, habsent⟩ | ⟨directory, name, hnames, hshort, hremoves, hunlink⟩ :=
      unlink_cases fs hrefused
    · by_cases hcause : cause = .notFound
      · exact .inr (.inl ⟨habsent hcause, by rw [remove, hunlink, hcause]⟩)
      · exact .inr (.inr (remove_of_error hunlink hcause))
    · have hfile := hremoves.isDirectory
      refine .inl ⟨_, _, hremoves, absent_erase hnames hfile, ?_, ?_⟩
      · rw [remove, hunlink]
      · rw [remove, unlink_erase hrefused hnames hshort hfile]

/-- **What is gone after a removal** does not exist, and removing it again changes nothing. -/
theorem remove_again (hrefusal : refusal? path ≠ some .notFound)
    (hgone : (remove fs path).1 = true) :
    Absent (remove fs path).2 path ∧
      remove (remove fs path).2 path = (true, (remove fs path).2) := by
  obtain ⟨place, files, -, habsent, hremove, hagain⟩ | ⟨habsent, hremove⟩ | hremove :=
    remove_cases fs hrefusal
  · rw [hremove]
    exact ⟨habsent, hagain⟩
  · rw [hremove]
    exact ⟨habsent, hremove⟩
  · rw [hremove] at hgone
    cases hgone

/-- **A removal that fails** changes nothing. -/
theorem remove_failed (hrefusal : refusal? path ≠ some .notFound)
    (hgone : (remove fs path).1 = false) : (remove fs path).2 = fs := by
  obtain ⟨place, files, -, -, hremove, -⟩ | ⟨-, hremove⟩ | hremove := remove_cases fs hrefusal
  · rw [hremove] at hgone
    cases hgone
  · rw [hremove]
  · rw [hremove]

end Log

end RemoteLog
