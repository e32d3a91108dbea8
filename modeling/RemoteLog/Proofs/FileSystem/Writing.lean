import RemoteLog.FileSystem.Edit
import RemoteLog.Proofs.FileSystem.Removal

/-! # Writing to a file

A path leads a writer to a file, whose bytes are replaced, or to a place where nothing stands yet. No
directory and no link comes or goes in a write, so every way through the tree stays, and the path
names the file that has been written, with its new bytes.

* **`Place.target?`** — where a writer puts a file; **`FileSystem.Free fs place`** — what may stand
  there before.
* **`FileSystem.walk_purpose`**, **`FileSystem.resolve_purpose`** — such a place is found by a reader
  and by a writer.
* **`FileSystem.entry?_insert`**, **`FileSystem.walk_insert`** — the tree after a write.
* **`FileSystem.Holds fs path bytes`** — a path names a file with these bytes, which can be read;
  **`FileSystem.Holds.changeFile`** — what it names after a write.
* **`FileSystem.Saved fs path bytes fs'`** — a file has been written and nothing else;
  **`FileSystem.saved_of_writeFile`** — what a write that succeeds has done. -/

namespace RemoteLog

/-- **Where a writer puts a file** at a place that was found: over a file, or where nothing stands. -/
def Place.target? : Place → Option (List String)
  | .entry place (.file _) => some place
  | .entry _ _ => none
  | .vacant directory name => some (directory ++ [name])

namespace FileSystem

variable {fs : FileSystem} {purpose : Purpose} {links : Nat} {here names place : List String}
  {content : Content} {found : Place}

/-! ## Places for a file -/

/-- **A place is free for a file:** nothing stands there but a file, if anything. -/
structure Free (fs : FileSystem) (place : List String) : Prop where
  ne_root : place ≠ []
  clear : ∀ entry, fs.entry? place = some entry → ∃ content, entry = .file content

theorem free_of_file (h : fs.entry? place = some (.file content)) : fs.Free place where
  ne_root := by
    rintro rfl
    cases h
  clear entry hentry := ⟨content, Option.some.inj (hentry.symm.trans h)⟩

/-- **The place that a walk finds for a writer** is free. -/
theorem free_of_walk (h : walk fs purpose links here names = .ok found)
    (htarget : found.target? = some place) : fs.Free place := by
  fun_induction walk fs purpose links here names with
  | case1 links here entry hentry =>
    cases h
    cases entry with
    | file content =>
      cases htarget
      exact free_of_file hentry
    | directory | link => cases htarget
  | case2 | case3 | case6 | case8 | case9 => cases h
  | case4 links here rest _ ih | case5 links here rest _ _ ih => exact ih h
  | case7 links here name rest _ _ _ _ hnone =>
    cases h
    cases htarget
    exact ⟨by simp, fun entry hentry => nomatch hnone.symm.trans hentry⟩
  | case10 here name rest _ _ _ _ target _ links ih => exact ih (by simpa using h)
  | case11 links here name rest _ _ _ _ entry _ hentry _ =>
    cases h
    cases entry with
    | file content =>
      cases htarget
      exact free_of_file hentry
    | directory | link => cases htarget
  | case12 links here name rest _ _ _ _ entry _ _ _ ih => exact ih h

/-- A directory is found behind a dot. -/
theorem exists_directory_of_walk_dot
    (h : walk fs purpose links here (names ++ ["."]) = .ok found) :
    ∃ place, found = .entry place .directory := by
  rw [walk_append (List.cons_ne_nil _ _)] at h
  cases hlead : fs.lead links here names with
  | error cause =>
    rw [hlead] at h
    cases h
  | ok there =>
    rw [hlead] at h
    simp only [Except.bind] at h
    rw [walk] at h
    by_cases hdirectory : fs.isDirectory there.2 = true
    · rw [if_neg (by simpa using hdirectory), if_pos rfl, walk,
        isDirectory_iff.mp hdirectory] at h
      cases h
      exact ⟨_, rfl⟩
    · rw [if_pos (by simpa using hdirectory)] at h
      cases h

/-- A path text that leads to a place for a file has no slash at its end, so its names are the same
for a reader and for a writer. -/
theorem steps_purpose {path : String}
    (h : walk fs purpose links here (steps purpose path) = .ok found)
    (htarget : found.target? = some place) (other : Purpose) :
    steps other path = steps purpose path := by
  by_cases hslash : Path.endsInSlash path = true
  · obtain ⟨names, hdot⟩ : ∃ names, steps purpose path = names ++ ["."] := by
      cases purpose <;> simp [steps, hslash]
    rw [hdot] at h
    obtain ⟨_, rfl⟩ := exists_directory_of_walk_dot h
    cases htarget
  · simp [steps, hslash]

/-- **A place for a file** is found whatever the walk is for. -/
theorem walk_purpose (h : walk fs purpose links here names = .ok found)
    (htarget : found.target? = some place) (other : Purpose) :
    walk fs other links here names = .ok found := by
  fun_induction walk fs purpose links here names with
  | case1 links here entry hentry =>
    rw [walk, hentry]
    exact h
  | case2 | case3 | case6 | case8 | case9 => cases h
  | case4 links here rest hdirectory ih =>
    rw [walk, if_neg hdirectory, if_pos rfl]
    exact ih h
  | case5 links here rest hdirectory hdot ih =>
    rw [walk, if_neg hdirectory, if_neg hdot, if_pos rfl]
    exact ih h
  | case7 links here name rest hdirectory hdot hup hlong hnone hrest =>
    cases h
    rw [walk, if_neg hdirectory, if_neg hdot, if_neg hup, if_neg hlong]
    simp [hnone, hrest]
  | case10 here name rest hdirectory hdot hup hlong target hlink links ih =>
    have hnext := ih (by simpa using h)
    rw [walk, if_neg hdirectory, if_neg hdot, if_neg hup, if_neg hlong]
    by_cases hrest : rest.isEmpty = true
    · -- The names of the target are walked for the same purpose.
      rw [if_pos hrest] at h
      have hsteps := steps_purpose h htarget other
      simp only [hlink, if_pos hrest, hsteps]
      simpa [hrest] using hnext
    · simp only [hlink, if_neg hrest]
      simpa [hrest] using hnext
  | case11 links here name rest hdirectory hdot hup hlong entry hnolink hentry hrest =>
    cases h
    rw [walk, if_neg hdirectory, if_neg hdot, if_neg hup, if_neg hlong]
    cases entry with
    | link target => exact absurd rfl (hnolink target)
    | file | directory => simp [hentry, hrest]
  | case12 links here name rest hdirectory hdot hup hlong entry hnolink hentry hrest ih =>
    rw [walk, if_neg hdirectory, if_neg hdot, if_neg hup, if_neg hlong]
    cases entry with
    | link target => exact absurd rfl (hnolink target)
    | file | directory => simpa [hentry, hrest] using ih h

/-- A path that names a place is walked to it. -/
theorem walk_of_resolve {path : String} (h : fs.resolve purpose path = .ok found) :
    refusal? path = none ∧
      walk fs purpose linkLimit (fs.origin path) (steps purpose path) = .ok found := by
  unfold resolve at h
  cases hrefusal : refusal? path with
  | some cause =>
    rw [hrefusal] at h
    cases h
  | none =>
    rw [hrefusal] at h
    exact ⟨rfl, h⟩

/-- **A path that leads to a place for a file** leads there whatever it is resolved for. -/
theorem resolve_purpose {path : String} (h : fs.resolve purpose path = .ok found)
    (htarget : found.target? = some place) (other : Purpose) :
    fs.resolve other path = .ok found := by
  obtain ⟨hrefusal, hwalk⟩ := walk_of_resolve h
  rw [resolve, hrefusal]
  show walk fs other linkLimit (fs.origin path) (steps other path) = _
  rw [steps_purpose hwalk htarget]
  exact walk_purpose hwalk htarget other

/-! ## The tree after a write -/

/-- **What stands in the tree** once an entry has been put at a place. The root is a directory
whatever is put there. -/
theorem entry?_insert (fs : FileSystem) (place path : List String) (entry : Entry) :
    entry? (fs.insert place entry) path =
      if path = place ∧ path ≠ [] then some entry else fs.entry? path := by
  unfold entry? insert erase
  by_cases hpath : path = []
  · simp [hpath]
  · have hempty : ¬ path.isEmpty = true := by simpa using hpath
    simp only [if_neg hempty]
    by_cases hplace : path = place
    · rw [if_pos ⟨hplace, hpath⟩, List.find?_cons_of_pos (by simpa using hplace.symm)]
      rfl
    · rw [if_neg (fun h => hplace h.1),
        List.find?_cons_of_neg (by simpa using Ne.symm hplace),
        Association.find?_filter_other _ hplace]

section

variable {new : Content} (hfree : fs.Free place)

include hfree

/-- A place that is free for a file has the file once it has been written. -/
theorem Free.entry?_insert (path : List String) :
    entry? (fs.insert place (.file new)) path =
      if path = place then some (.file new) else fs.entry? path := by
  rw [FileSystem.entry?_insert]
  by_cases hplace : path = place
  · rw [if_pos ⟨hplace, hplace ▸ hfree.ne_root⟩, if_pos hplace]
  · rw [if_neg (fun h => hplace h.1), if_neg hplace]

/-- Writing a file changes no directory. -/
theorem Free.isDirectory_insert (path : List String) :
    isDirectory (fs.insert place (.file new)) path = fs.isDirectory path := by
  unfold isDirectory
  rw [hfree.entry?_insert]
  by_cases hplace : path = place
  · rw [if_pos hplace, hplace]
    cases hentry : fs.entry? place with
    | none => rfl
    | some entry =>
      obtain ⟨content, rfl⟩ := hfree.clear entry hentry
      rfl
  · rw [if_neg hplace]

end

/-- **Ways through the tree stay** when a file has been written, and a way to its place leads to its
new content. -/
theorem walk_insert {new : Content} (h : walk fs purpose links here names = .ok found)
    (htarget : found.target? = some place) :
    walk (fs.insert place (.file new)) purpose links here names =
      .ok (.entry place (.file new)) := by
  have hfree : fs.Free place := free_of_walk h htarget
  have hdirectories (path : List String) :
      isDirectory (fs.insert place (.file new)) path = fs.isDirectory path :=
    hfree.isDirectory_insert path
  fun_induction walk fs purpose links here names with
  | case1 links here entry hentry =>
    cases h
    cases entry with
    | file content =>
      cases htarget
      rw [walk, hfree.entry?_insert, if_pos rfl]
    | directory | link => cases htarget
  | case2 | case3 | case6 | case8 | case9 => cases h
  | case4 links here rest hdirectory ih =>
    rw [walk, if_neg (by rwa [hdirectories]), if_pos rfl]
    exact ih h
  | case5 links here rest hdirectory hdot ih =>
    rw [walk, if_neg (by rwa [hdirectories]), if_neg hdot, if_pos rfl]
    exact ih h
  | case7 links here name rest hdirectory hdot hup hlong hnone hrest =>
    cases h
    cases htarget
    rw [walk, if_neg (by rwa [hdirectories]), if_neg hdot, if_neg hup, if_neg hlong,
      hfree.entry?_insert, if_pos rfl]
    simp [hrest]
  | case10 here name rest hdirectory hdot hup hlong target hlink links ih =>
    -- No link stands at the place of the file, so the link is still there.
    have hne : here ++ [name] ≠ place := by
      rintro rfl
      obtain ⟨content, hfile⟩ := hfree.clear _ hlink
      cases hfile
    have hnext := ih (by simpa using h)
    rw [walk, if_neg (by rwa [hdirectories]), if_neg hdot, if_neg hup, if_neg hlong,
      hfree.entry?_insert, if_neg hne, hlink]
    simpa using hnext
  | case11 links here name rest hdirectory hdot hup hlong entry hnolink hentry hrest =>
    cases h
    cases entry with
    | file content =>
      cases htarget
      rw [walk, if_neg (by rwa [hdirectories]), if_neg hdot, if_neg hup, if_neg hlong,
        hfree.entry?_insert, if_pos rfl]
      simp [hrest]
    | directory | link => cases htarget
  | case12 links here name rest hdirectory hdot hup hlong entry hnolink hentry hrest ih =>
    have hnext := ih h
    rw [walk, if_neg (by rwa [hdirectories]), if_neg hdot, if_neg hup, if_neg hlong,
      hfree.entry?_insert]
    by_cases hplace : here ++ [name] = place
    · rw [if_pos hplace]
      simpa [hrest] using hnext
    · rw [if_neg hplace, hentry]
      cases entry with
      | link target => exact absurd rfl (hnolink target)
      | file | directory => simpa [hrest] using hnext

/-- A path that leads to a place for a file names the file once it has been written. -/
theorem resolve_insert {path : String} {new : Content} (h : fs.resolve purpose path = .ok found)
    (htarget : found.target? = some place) :
    resolve (fs.insert place (.file new)) .use path = .ok (.entry place (.file new)) := by
  obtain ⟨hrefusal, hwalk⟩ := walk_of_resolve (resolve_purpose h htarget .use)
  rw [resolve, hrefusal]
  exact walk_insert hwalk htarget

/-! ## Paths that name a file -/

/-- **A path names a file with these bytes,** and all of them can be read. -/
def Holds (fs : FileSystem) (path : String) (bytes : ByteArray) : Prop :=
  ∃ place, fs.resolve .use path = .ok (.entry place (.file (.ofBytes bytes)))

/-- A path names a file where the names of an absolute path lead to it through directories. -/
theorem resolve_of_names {path : String} (hrefusal : refusal? path = none)
    (habsolute : Path.isAbsolute path = true) (hsteps : steps .use path = names) (hne : names ≠ [])
    (hdown : ∀ name ∈ names, name ≠ "." ∧ name ≠ ".." ∧ name.utf8ByteSize ≤ nameLimit)
    (hway : ∀ n < names.length, fs.isDirectory (names.take n) = true)
    (hfile : fs.entry? names = some (.file content)) :
    fs.resolve .use path = .ok (.entry names (.file content)) := by
  have horigin : fs.origin path = [] := if_pos habsolute
  rw [resolve, hrefusal, hsteps, horigin]
  exact walk_eq_file hne hdown hway hfile .use linkLimit

/-- A file is held where the names of an absolute path lead to it through directories. -/
theorem Holds.of_names {path : String} {bytes : ByteArray} (hrefusal : refusal? path = none)
    (habsolute : Path.isAbsolute path = true) (hsteps : steps .use path = names) (hne : names ≠ [])
    (hdown : ∀ name ∈ names, name ≠ "." ∧ name ≠ ".." ∧ name.utf8ByteSize ≤ nameLimit)
    (hway : ∀ n < names.length, fs.isDirectory (names.take n) = true)
    (hfile : fs.entry? names = some (.file (.ofBytes bytes))) : fs.Holds path bytes :=
  ⟨names, resolve_of_names hrefusal habsolute hsteps hne hdown hway hfile⟩

/-- **A file system with one log,** `/logs/a.log`. -/
def oneLog (content : Content) : FileSystem :=
  ⟨[(["logs"], .directory), (["logs", "a.log"], .file content)], []⟩

theorem resolve_oneLog (content : Content) :
    (oneLog content).resolve .use "/logs/a.log" =
      .ok (.entry ["logs", "a.log"] (.file content)) := by
  have hsteps : steps .use "/logs/a.log" = ["logs", "a.log"] := by decide +kernel
  refine resolve_of_names (by decide +kernel) (by decide +kernel) hsteps (List.cons_ne_nil _ _)
    (by decide +kernel) ?_ rfl
  intro n hn
  match n, hn with
  | 0, _ => rfl
  | 1, _ => rfl

theorem holds_oneLog (bytes : ByteArray) : (oneLog (.ofBytes bytes)).Holds "/logs/a.log" bytes :=
  ⟨_, resolve_oneLog _⟩

/-- **A file can be written** under the path that names it, and the path names it afterwards, with
what the write has made of its bytes. -/
theorem Holds.changeFile {path : String} {bytes : ByteArray} (h : fs.Holds path bytes)
    (change : ByteArray → ByteArray) :
    ∃ fs', fs.changeFile path change = .ok fs' ∧ fs'.Holds path (change bytes) := by
  obtain ⟨place, hplace⟩ := h
  refine ⟨fs.insert place (.file (.ofBytes (change bytes))), ?_, place, ?_⟩
  · rw [FileSystem.changeFile, resolve_purpose hplace rfl .make]
    rfl
  · exact resolve_insert hplace rfl

/-! ## Files that have been saved -/

/-- **A file has been saved,** and nothing else has changed: the path names it, with these bytes. -/
def Saved (fs : FileSystem) (path : String) (bytes : ByteArray) (fs' : FileSystem) : Prop :=
  ∃ place, fs'.resolve .use path = .ok (.entry place (.file (.ofBytes bytes))) ∧
    (∀ other, other ≠ place → fs'.entry? other = fs.entry? other) ∧
    fs'.workingDirectory = fs.workingDirectory

/-- Putting a file at the place that a path leads a writer to saves it. -/
theorem saved_insert {path : String} {bytes : ByteArray} (h : fs.resolve .make path = .ok found)
    (htarget : found.target? = some place) :
    fs.Saved path bytes (fs.insert place (.file (.ofBytes bytes))) := by
  refine ⟨place, resolve_insert h htarget, fun other hother => ?_, rfl⟩
  have hfree : fs.Free place := free_of_walk (walk_of_resolve h).2 htarget
  rw [hfree.entry?_insert, if_neg hother]

/-- **A write that succeeds** has saved the file. -/
theorem saved_of_writeFile {path : String} {bytes : ByteArray} {fs' : FileSystem}
    (h : fs.writeFile path bytes = .ok fs') : fs.Saved path bytes fs' := by
  unfold writeFile changeFile at h
  split at h
  · cases h
  · cases h
  · cases h
  · next hplace =>
    cases h
    exact saved_insert hplace rfl
  · next hplace =>
    cases h
    exact saved_insert hplace rfl

end FileSystem

end RemoteLog
