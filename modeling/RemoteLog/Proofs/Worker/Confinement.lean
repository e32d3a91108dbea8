import RemoteLog.Proofs.FileSystem.Walk
import RemoteLog.Proofs.Worker.Answer

/-! # A worker stays below its root

Whatever commands a worker is given, what lies outside the log root has no influence on its answers
and is left as it is. Both are said about two runs over file systems that may differ outside.

* **`FileSystem.AgreeOn root fs₁ fs₂`** — two file systems agree on the root, on the directories
  above it, and on all that lies below it.
* **`processAll guard fs work`** — the work on commands, one after the other.
* **`answer_agree`**, **`answer_files`** — what one command does to such file systems.
* **`processAll_confined`** — what any sequence of commands does. -/

namespace RemoteLog

namespace FileSystem

/-- **Two file systems agree on a root,** on the directories above it and on all that lies below. -/
structure AgreeOn (root : String) (fs₁ fs₂ : FileSystem) : Prop where
  /-- The root is the same place. -/
  place : fs₁.place root = fs₂.place root
  entry? : ∀ path, path <+: fs₁.place root ∨ fs₁.place root <+: path →
    fs₁.entry? path = fs₂.entry? path

section

variable {guard : PathGuard} {fs fs₁ fs₂ : FileSystem} {path : String}

/-- A root with accepted paths does not step up. -/
theorem parent_notMem_root (h : guard.accepts path = true) (hroot : guard.root ≠ "") :
    ".." ∉ Path.names guard.root := by
  intro hmem
  have hsolid : ".." ∈ Path.solid guard.root := List.mem_filter.mpr ⟨hmem, by decide⟩
  have hpath := (PathGuard.below_root h hroot).2.subset hsolid
  exact PathGuard.parent_notMem_names h (List.mem_filter.mp hpath).1

/-- **An accepted path names a place below the root.** -/
theorem place_below_root (h : guard.accepts path = true) (hroot : guard.root ≠ "")
    (fs : FileSystem) : fs.place guard.root <+: fs.place path := by
  obtain ⟨habs, hsolid⟩ := PathGuard.below_root h hroot
  have horigin : fs.origin guard.root = fs.origin path := by rw [origin, origin, habs]
  rw [place_eq_append (parent_notMem_root h hroot), place_eq_append
    (PathGuard.parent_notMem_names h), horigin]
  exact (List.prefix_append_right_inj _).mpr hsolid

/-- File systems that agree on the root have the same entries along every accepted path. -/
theorem AgreeOn.sameAlong (hagree : AgreeOn guard.root fs₁ fs₂) (h : guard.accepts path = true)
    (hroot : guard.root ≠ "") : SameAlong path fs₁ fs₂ where
  origin := by
    have hplace := hagree.place
    have hup := parent_notMem_root h hroot
    rw [place_eq_append hup, place_eq_append hup, List.append_left_inj] at hplace
    rwa [FileSystem.origin, FileSystem.origin, (PathGuard.below_root h hroot).1]
  entry? place hplace :=
    hagree.entry? place (List.prefix_or_prefix_of_prefix hplace (place_below_root h hroot fs₁))

theorem AgreeOn.erase {root : String} (hagree : AgreeOn root fs₁ fs₂) (gone : List String) :
    AgreeOn root (fs₁.erase gone) (fs₂.erase gone) where
  place := hagree.place
  entry? path hpath := by rw [entry?_erase, entry?_erase, hagree.entry? path hpath]

end

end FileSystem

namespace Log

open FileSystem

variable {fs₁ fs₂ : FileSystem} {path : String}

/-- **A removal answers alike** where the entries along its path are the same, and leaves the files
or erases the place of the path. -/
theorem remove_congr (hfree : fs₁.LinkFree) (hup : ".." ∉ Path.names path)
    (h : SameAlong path fs₁ fs₂) :
    (∃ gone, remove fs₁ path = (gone, fs₁) ∧ remove fs₂ path = (gone, fs₂)) ∨
      remove fs₁ path = (true, fs₁.erase (fs₁.place path)) ∧
        remove fs₂ path = (true, fs₂.erase (fs₂.place path)) := by
  unfold remove
  obtain ⟨cause, h₁, h₂⟩ | ⟨h₁, h₂⟩ := unlink_congr hfree hup h
  · rw [h₁, h₂]
    cases cause <;> exact .inl ⟨_, rfl, rfl⟩
  · rw [h₁, h₂]
    exact .inr ⟨rfl, rfl⟩

end Log

namespace Worker

open FileSystem Message

variable {guard : PathGuard} {fs fs₁ fs₂ : FileSystem}

/-! ## One command -/

/-- A request whose path is accepted is answered alike. -/
theorem perform_agree {request : Request} (haccepts : guard.accepts request.path = true)
    (hroot : guard.root ≠ "") (hfree : fs₁.LinkFree) (h : AgreeOn guard.root fs₁ fs₂)
    (tag : Int64) :
    (perform guard fs₁ tag request).1 = (perform guard fs₂ tag request).1 ∧
      AgreeOn guard.root (perform guard fs₁ tag request).2 (perform guard fs₂ tag request).2 := by
  have hup := PathGuard.parent_notMem_names haccepts
  have halong := h.sameAlong haccepts hroot
  -- The four readers open the file and no more; only a removal changes the files.
  have hopen := openFile_congr hfree hup halong
  have hfile := isFile_congr hfree hup halong
  cases request with
  | getLogBytes request =>
    rw [Request.path] at hopen
    exact ⟨by rw [perform, perform, Log.bytes, Log.bytes, hopen], h⟩
  | viewWholeLog request =>
    rw [Request.path] at hopen
    exact ⟨by rw [perform, perform, Log.text, Log.text, hopen], h⟩
  | rollViewLog request =>
    rw [Request.path] at hopen hfile
    exact ⟨by rw [perform, perform, Log.window, Log.window, hopen, hfile], h⟩
  | removeTaskLog request =>
    rw [Request.path] at halong hup
    obtain ⟨gone, h₁, h₂⟩ | ⟨h₁, h₂⟩ := Log.remove_congr hfree hup halong
    · simp only [perform, h₁, h₂]
      exact ⟨trivial, h⟩
    · simp only [perform, h₁, h₂, ← halong.place]
      exact ⟨trivial, h.erase _⟩
  | getAppId request =>
    rw [Request.path] at hopen hfile
    exact ⟨by rw [perform, perform, Log.applicationIds, Log.applicationIds, hopen, hfile], h⟩

/-- **A command is answered alike** over file systems that agree on the root, and leaves file
systems that agree on it. -/
theorem answer_agree (hroot : guard.root ≠ "") (hfree : fs₁.LinkFree)
    (h : AgreeOn guard.root fs₁ fs₂) (c : Command) :
    (answer guard fs₁ c).1 = (answer guard fs₂ c).1 ∧
      AgreeOn guard.root (answer guard fs₁ c).2 (answer guard fs₂ c).2 := by
  unfold answer
  cases Request.ofCommand c with
  | error error => exact ⟨rfl, h⟩
  | ok request =>
    by_cases haccepts : guard.accepts request.path = true
    · -- The path is accepted, so what it names is the same in both.
      simp only [haccepts, Bool.not_true, Bool.and_false, Bool.false_eq_true, if_false]
      exact perform_agree haccepts hroot hfree h c.tag
    · cases request with
      | rollViewLog request =>
        -- The worker lets the path through. The refusal comes from the window itself, in front of
        -- any look at the files.
        have hwindow (fs : FileSystem) : Log.window guard fs request = .failure .pathNotSecure :=
          if_pos (by simpa [Request.path] using haccepts)
        simp only [needsLegalPath, perform, hwindow, Request.operation]
        exact ⟨rfl, h⟩
      | getLogBytes | viewWholeLog | removeTaskLog | getAppId =>
        -- The worker rejects the command before the service is asked.
        simp only [needsLegalPath, haccepts, Request.operation]
        exact ⟨rfl, h⟩

/-- **A command leaves the files** or erases one entry below the root. -/
theorem answer_files (hroot : guard.root ≠ "") (hfree : fs.LinkFree) (c : Command) :
    (answer guard fs c).2 = fs ∨
      ∃ gone, fs.place guard.root <+: gone ∧ (answer guard fs c).2 = fs.erase gone := by
  unfold answer
  cases Request.ofCommand c with
  | error error => exact .inl rfl
  | ok request =>
    cases request with
    | getLogBytes request | viewWholeLog request | getAppId request =>
      dsimp only
      split <;> exact .inl rfl
    | rollViewLog request => exact .inl rfl
    | removeTaskLog request =>
      by_cases haccepts : guard.accepts request.path = true
      · -- Only a path that was accepted is removed, and it names a place below the root.
        have hup := PathGuard.parent_notMem_names haccepts
        have hself : SameAlong request.path fs fs := ⟨rfl, fun _ _ => rfl⟩
        simp only [Request.path, haccepts, Bool.not_true, Bool.and_false, Bool.false_eq_true,
          if_false, perform]
        obtain ⟨gone, h, -⟩ | ⟨h, -⟩ := Log.remove_congr hfree hup hself
        · rw [h]
          exact .inl rfl
        · rw [h]
          exact .inr ⟨_, place_below_root haccepts hroot fs, rfl⟩
      · simp only [Request.path, haccepts, needsLegalPath, Request.operation]
        exact .inl rfl

/-- What working on a command leaves but the files depends on the answer only. -/
theorem process_congr {c : Command} (h : (answer guard fs₁ c).1 = (answer guard fs₂ c).1)
    (slot : Slot) :
    (process guard fs₁ slot c).result = (process guard fs₂ slot c).result ∧
      (process guard fs₁ slot c).slot = (process guard fs₂ slot c).slot := by
  unfold process
  -- The answers are the same, whatever the files are afterwards.
  match h₁ : answer guard fs₁ c, h₂ : answer guard fs₂ c with
  | (.error cause, files₁), (other, files₂) =>
    obtain rfl : Except.error cause = other := by simpa [h₁, h₂] using h
    exact ⟨rfl, rfl⟩
  | (.ok response, files₁), (other, files₂) =>
    obtain rfl : Except.ok response = other := by simpa [h₁, h₂] using h
    dsimp only
    cases slot.write response <;> exact ⟨rfl, rfl⟩

/-! ## Any number of commands -/

/-- **The work on commands, one after the other,** each with its own slot: the results and the slots
that are left, and the files afterwards. -/
def processAll (guard : PathGuard) (fs : FileSystem) :
    List (Slot × Command) → List (Except AnswerError Command × Slot) × FileSystem
  | [] => ([], fs)
  | (slot, c) :: rest =>
    let outcome := process guard fs slot c
    let (results, files) := processAll guard outcome.files rest
    ((outcome.result, outcome.slot) :: results, files)

/-- Links do not come about by working on a command. -/
theorem process_linkFree (hroot : guard.root ≠ "") (hfree : fs.LinkFree) (slot : Slot)
    (c : Command) : (process guard fs slot c).files.LinkFree := by
  rw [process_files]
  obtain h | ⟨gone, -, h⟩ := answer_files hroot hfree c
  · rwa [h]
  · rw [h]
    exact hfree.erase gone

/-- Working on a command leaves what lies outside the root, and the root where it is. -/
theorem process_outside (hroot : guard.root ≠ "") (hfree : fs.LinkFree) (slot : Slot)
    (c : Command) : (process guard fs slot c).files.place guard.root = fs.place guard.root ∧
      ∀ path, ¬ fs.place guard.root <+: path →
        FileSystem.entry? (process guard fs slot c).files path = fs.entry? path := by
  rw [process_files]
  obtain h | ⟨gone, hgone, h⟩ := answer_files hroot hfree c
  · rw [h]
    exact ⟨rfl, fun _ _ => rfl⟩
  · rw [h]
    refine ⟨rfl, fun path hpath => ?_⟩
    rw [entry?_erase, if_neg]
    rintro ⟨rfl, -⟩
    exact hpath hgone

/-- **Any work leaves what lies outside the root.** -/
theorem processAll_outside (hroot : guard.root ≠ "") (hfree : fs.LinkFree)
    (work : List (Slot × Command)) {path : List String} (hpath : ¬ fs.place guard.root <+: path) :
    FileSystem.entry? (processAll guard fs work).2 path = fs.entry? path := by
  induction work generalizing fs with
  | nil => rfl
  | cons first rest ih =>
    obtain ⟨slot, c⟩ := first
    obtain ⟨hplace, houtside⟩ := process_outside hroot hfree slot c
    rw [processAll]
    dsimp only
    -- The root stays where it is, so what was outside of it still is.
    rw [ih (process_linkFree hroot hfree slot c) (by rwa [hplace]), houtside path hpath]

/-- **Any work gives the same results** over file systems that agree on the root. -/
theorem processAll_results (hroot : guard.root ≠ "") (h₁ : fs₁.LinkFree) (h₂ : fs₂.LinkFree)
    (h : AgreeOn guard.root fs₁ fs₂) (work : List (Slot × Command)) :
    (processAll guard fs₁ work).1 = (processAll guard fs₂ work).1 := by
  -- The invariant of the two runs: no links, and agreement on the root.
  induction work generalizing fs₁ fs₂ with
  | nil => rfl
  | cons first rest ih =>
    obtain ⟨slot, c⟩ := first
    obtain ⟨hanswer, hfiles⟩ := answer_agree hroot h₁ h c
    obtain ⟨hresult, hslot⟩ := process_congr hanswer slot
    rw [← process_files guard fs₁ slot, ← process_files guard fs₂ slot] at hfiles
    rw [processAll, processAll]
    dsimp only
    rw [hresult, hslot, ih (process_linkFree hroot h₁ slot c) (process_linkFree hroot h₂ slot c)
      hfiles]

/-- **Confinement.** Two file systems without links agree on the log root, on the directories above
it and on all that lies below it. Then any sequence of commands has the same results over both, and
in either run every entry outside the root is left as it is. -/
theorem processAll_confined (hroot : guard.root ≠ "") (h₁ : fs₁.LinkFree) (h₂ : fs₂.LinkFree)
    (h : AgreeOn guard.root fs₁ fs₂) (work : List (Slot × Command)) :
    (processAll guard fs₁ work).1 = (processAll guard fs₂ work).1 ∧
      ∀ path, ¬ fs₁.place guard.root <+: path →
        FileSystem.entry? (processAll guard fs₁ work).2 path = fs₁.entry? path ∧
          FileSystem.entry? (processAll guard fs₂ work).2 path = fs₂.entry? path := by
  refine ⟨processAll_results hroot h₁ h₂ h work, fun path hpath => ⟨?_, ?_⟩⟩
  · exact processAll_outside hroot h₁ work hpath
  · exact processAll_outside hroot h₂ work (by rwa [← h.place])

/-- A log outside the root is asked for and a log below it is removed; whether the former exists
makes no difference. -/
theorem processAll_confined_removal :
    let guard : PathGuard := ⟨"/logs"⟩
    let inside := (["logs", "a.log"], Entry.file (.ofBytes "a".toUTF8))
    let outside := (["etc", "b.log"], Entry.file (.ofBytes "b".toUTF8))
    let fs : FileSystem := ⟨[(["logs"], .directory), inside, (["etc"], .directory), outside], []⟩
    let work : List (Slot × Command) :=
      [(.unsent, ⟨⟨.viewWholeLog, .request⟩, 1, "\x7b\"path\":\"/etc/b.log\"\x7d".toUTF8⟩),
        (.unsent, ⟨⟨.removeTaskLog, .request⟩, 2, "\x7b\"path\":\"/logs/a.log\"\x7d".toUTF8⟩)]
    guard.root ≠ "" ∧ fs.LinkFree ∧ (fs.erase outside.1).LinkFree ∧
      AgreeOn guard.root fs (fs.erase outside.1) ∧
      (processAll guard fs work).1 = (processAll guard (fs.erase outside.1) work).1 ∧
      FileSystem.entry? (processAll guard fs work).2 outside.1 = fs.entry? outside.1 := by
  intro guard inside outside fs work
  have hroot : guard.root ≠ "" := by decide
  have hplace : fs.place guard.root = ["logs"] := by decide
  have hfree : fs.LinkFree := linkFree_of_forall (by simp [fs, inside, outside])
  have hagree : AgreeOn guard.root fs (fs.erase outside.1) := by
    refine ⟨rfl, fun path hpath => ?_⟩
    rw [entry?_erase, if_neg]
    rintro ⟨rfl, -⟩
    rw [hplace] at hpath
    revert hpath
    decide
  obtain ⟨hresults, hkept⟩ := processAll_confined hroot hfree (hfree.erase _) hagree work
  refine ⟨hroot, hfree, hfree.erase _, hagree, hresults, (hkept outside.1 ?_).1⟩
  rw [hplace]
  decide

end Worker

end RemoteLog
