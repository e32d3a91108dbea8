import RemoteLog.Proofs.Path.Pieces
import RemoteLog.Worker.Settings

/-! # The log root and the guard

Two checks decide what a worker serves, and they do not know of each other. The settings want a log
root that is absolute; the guard looks at a whole path, the log root in front included, and refuses
it if it steps up. So a worker can start with a log root under which it refuses every file: one with
a name that ends in `..`. With any other log root it serves each log file below it.

* **`Path.LogNames names`** — names that lead from a directory down to a log file.
* **`PathGuard.accepts_join_iff`** — which log roots have their files let through.
* **`Settings.serves_log_root_iff`** — which workers serve the files below their log root. -/

namespace RemoteLog

/-- **Names that lead down to a log file** from a directory. -/
structure Path.LogNames (names : List String) : Prop where
  ne_nil : names ≠ []
  plain : ∀ name ∈ names, Plain name
  log : ∀ last ∈ names.getLast?, logSuffix.toList <:+ last.toList

instance (names : List String) : Decidable (Path.LogNames names) :=
  decidable_of_iff (names ≠ [] ∧ (∀ name ∈ names, Path.Plain name) ∧
      ∀ last ∈ names.getLast?, logSuffix.toList <:+ last.toList)
    ⟨fun ⟨hne, hplain, hlog⟩ => ⟨hne, hplain, hlog⟩, fun ⟨hne, hplain, hlog⟩ =>
      ⟨hne, hplain, hlog⟩⟩

namespace PathGuard

open RemoteLog.Path

variable {more : List String}

/-- The path of a log file below an absolute directory is a log file's. -/
theorem log_join (base : String) (h : LogNames more) :
    logSuffix.toList <:+ (join base more).toList := by
  have hlog := h.log _ (List.getLast?_eq_some_getLast h.ne_nil)
  have hend := suffix_join base more.dropLast (h.plain _ (List.getLast_mem h.ne_nil))
  rw [List.dropLast_concat_getLast] at hend
  exact hlog.trans hend

/-- A path below an absolute directory goes on from its components. -/
theorem components_join {base : String} (hbase : isAbsolute base = true)
    (h : ∀ name ∈ more, Plain name) : components base <+: components (join base more) := by
  obtain ⟨habsolute, hnames⟩ := names_join hbase h
  have hsolid : solid (join base more) = solid base ++ more.filter fun name => name ≠ "." := by
    rw [solid, hnames, List.filter_append, solid]
  rw [components_eq, components_eq, anchor_eq_root_iff.mpr hbase,
    anchor_eq_root_iff.mpr habsolute, hsolid, List.map_append, ← List.append_assoc]
  exact List.prefix_append _ _

/-- **A log file below an absolute root is let through** if no name of the root ends in `..`, and
otherwise none is. -/
theorem accepts_join_iff (guard : PathGuard) (hroot : isAbsolute guard.root = true) (h : LogNames more) :
    guard.accepts (join guard.root more) = true ↔
      ∀ name ∈ names guard.root, ¬ EndsInDots name := by
  have hdown : ∀ name ∈ more.dropLast, ¬ EndsInDots name := fun name hname =>
    (h.plain name ((List.dropLast_sublist more).subset hname)).not_endsInDots
  rw [accepts_log_iff (log_join guard.root h), (names_join hroot h.plain).2,
    List.dropLast_append_of_ne_nil h.ne_nil, and_iff_right (components_join hroot h.plain)]
  constructor
  · intro hall name hname
    exact hall name (List.mem_append_left _ hname)
  · intro hall name hname
    exact (List.mem_append.mp hname).elim (hall name) (hdown name)

end PathGuard

namespace Worker.Settings

/-- The log root of settings without a problem is absolute. -/
theorem isAbsolute_logRoot {settings : Settings} (h : settings.problem? = none) :
    Path.isAbsolute settings.logRoot = true := by
  unfold problem? at h
  cases habsolute : Path.isAbsolute settings.logRoot with
  | true => rfl
  | false =>
    -- Either of the first two checks fails.
    by_cases hempty : settings.logRoot.isEmpty = true
    · rw [if_pos hempty] at h
      cases h
    · rw [if_neg hempty, habsolute] at h
      cases h

/-- **Which workers serve their log root.** The settings that variables give may be without a
problem. Then the path of a log file below the log root is let through by the guard of the worker if
no name of the log root ends in `..`; with a name that does, no such path is. -/
theorem serves_log_root_iff (defaults : Defaults) (lookup : String → Option String)
    (hvalid : (ofLookup defaults lookup).problem? = none) {names : List String}
    (hnames : Path.LogNames names) :
    let settings := ofLookup defaults lookup
    settings.guard.accepts (Path.join settings.logRoot names) = true ↔
      ∀ name ∈ Path.names settings.logRoot, ¬ Path.EndsInDots name :=
  PathGuard.accepts_join_iff _ (isAbsolute_logRoot hvalid) hnames

/-- A worker whose log root has a slash at its end and two slashes within. -/
theorem serves_log_root_iff_repeated_slashes :
    let settings := ofLookup ⟨"/", 4⟩ fun key =>
      if key = "WORKER_HOME" then some "/opt//worker/" else none
    settings.problem? = none ∧ Path.LogNames ["logs", "1_2.log"] ∧
      Path.join settings.logRoot ["logs", "1_2.log"] = "/opt//worker/logs/1_2.log" ∧
      settings.guard.accepts (Path.join settings.logRoot ["logs", "1_2.log"]) = true := by
  intro settings
  have hvalid : settings.problem? = none := by decide +kernel
  have hnames : Path.LogNames ["logs", "1_2.log"] := by decide +kernel
  have hroot : ∀ name ∈ Path.names settings.logRoot, ¬ Path.EndsInDots name := by decide +kernel
  exact ⟨hvalid, hnames, by decide +kernel,
    (serves_log_root_iff _ _ hvalid hnames).mpr hroot⟩

/-- **A worker that refuses everything.** Its settings are without a problem, but its log root steps
up, so that no log file below it is let through. -/
theorem refuses_log_root :
    let settings := ofLookup ⟨"/", 4⟩ fun key =>
      if key = "WORKER_HOME" then some "/opt/../srv" else none
    settings.problem? = none ∧ Path.LogNames ["a.log"] ∧
      settings.guard.accepts (Path.join settings.logRoot ["a.log"]) = false ∧
      ∀ names, Path.LogNames names →
        settings.guard.accepts (Path.join settings.logRoot names) = false := by
  intro settings
  have hvalid : settings.problem? = none := by decide +kernel
  have hnames : Path.LogNames ["a.log"] := by decide +kernel
  have hrefused : ∀ names, Path.LogNames names →
      settings.guard.accepts (Path.join settings.logRoot names) = false := by
    intro names hnames
    have hroot := settings.guard.accepts_join_iff (isAbsolute_logRoot hvalid) hnames
    rw [Bool.eq_false_iff]
    intro haccepts
    exact hroot.mp haccepts ".." (by decide +kernel) (by decide)
  exact ⟨hvalid, hnames, hrefused _ hnames, hrefused⟩

end Worker.Settings

end RemoteLog
