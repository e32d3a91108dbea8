import RemoteLog.Path

/-! # What the path guard lets through

The components of a path are an anchor at its front and the names that count. A path that the guard
accepts never steps up, has the anchor of the log root, and its names go on from those of the root.

* **`Path.solid path`** — the names that count, all but `.`.
* **`Path.components_eq`** — the components are the anchor and the names that count.
* **`PathGuard.parent_notMem_names`**, **`PathGuard.below_root`** — accepted paths. -/

namespace RemoteLog

namespace Path

/-- **The names of a path that count:** all but `.`. -/
def solid (path : String) : List String := (names path).filter fun name => name ≠ "."

/-- What stands in front of the names: the root, a `.`, or nothing. -/
def anchor (path : String) : List Component :=
  if isAbsolute path then [.root] else if (names path).head? = some "." then [.current] else []

theorem ofName_inj {a b : String} : ofName a = ofName b ↔ a = b := by
  unfold ofName
  by_cases ha : a = ".." <;> by_cases hb : b = ".." <;> grind

/-- Names are known from the components that they stand for. -/
theorem map_ofName_prefix_iff {front names : List String} :
    front.map ofName <+: names.map ofName ↔ front <+: names := by
  induction front generalizing names with
  | nil => simp
  | cons a front ih =>
    cases names with
    | nil => simp
    | cons b names => simp [ofName_inj, ih]

theorem ofNames_names (path : String) : ofNames (names path) = (solid path).map ofName := rfl

@[simp] theorem ofNames_dot_cons (rest : List String) : ofNames ("." :: rest) = ofNames rest := rfl

/-- No name stands for an anchor. -/
theorem ofName_notMem_anchor (name path : String) : ofName name ∉ anchor path := by
  unfold ofName anchor
  by_cases hname : name = ".." <;> grind

theorem length_anchor_le (path : String) : (anchor path).length ≤ 1 := by
  unfold anchor
  grind

theorem anchor_eq_root_iff {path : String} : anchor path = [.root] ↔ isAbsolute path = true := by
  unfold anchor
  grind

/-- **The components of a path are its anchor and the names that count.** -/
theorem components_eq (path : String) :
    components path = anchor path ++ (solid path).map ofName := by
  rw [← ofNames_names]
  unfold components anchor
  by_cases habs : isAbsolute path
  · simp [habs]
  · cases hnames : names path with
    | nil => simp [habs, ofNames]
    | cons first rest =>
      by_cases hdot : first = "."
      · simp [habs, hdot]
      · simp [habs, hdot]

/-- A path has a step up among its components if it has one among its names. -/
theorem parent_mem_components_iff {path : String} :
    Component.parent ∈ components path ↔ ".." ∈ names path := by
  have hanchor : Component.parent ∉ anchor path := by
    unfold anchor
    grind
  rw [components_eq, List.mem_append, or_iff_right hanchor, solid]
  constructor
  · intro hmem
    obtain ⟨name, hname, hparent⟩ := List.mem_map.mp hmem
    have hdots : name = ".." := by
      unfold ofName at hparent
      grind
    exact hdots ▸ (List.mem_filter.mp hname).1
  · intro hmem
    exact List.mem_map.mpr ⟨"..", List.mem_filter.mpr ⟨hmem, by decide⟩, rfl⟩

/-- The names are found again behind those that were found before. -/
theorem namesFrom_ne_nil {found : List String} {name : List Char} (chars : List Char)
    (h : found ≠ [] ∨ name ≠ []) : namesFrom found name chars ≠ [] := by
  have hadd : addName name found ≠ [] := by
    unfold addName
    by_cases hname : name = []
    · simpa [hname] using h
    · simp [hname]
  induction chars generalizing found name with
  | nil => simpa [namesFrom] using hadd
  | cons c chars ih =>
    rw [namesFrom]
    -- A slash ends the name that was begun; any other character makes it longer.
    by_cases hc : c = '/'
    · rw [if_pos hc]
      exact ih (.inl hadd) (by simpa [addName] using hadd)
    · rw [if_neg hc]
      exact ih (.inr (List.cons_ne_nil _ _)) (by simp [addName])

/-- A relative path that is not empty has a name. -/
theorem names_ne_nil {path : String} (hne : path ≠ "") (hrel : isAbsolute path = false) :
    names path ≠ [] := by
  unfold names
  cases hchars : path.toList with
  | nil => exact absurd (String.toList_eq_nil_iff.mp hchars) hne
  | cons c chars =>
    have hc : c ≠ '/' := by simpa [isAbsolute, hchars] using hrel
    rw [namesFrom, if_neg hc]
    exact namesFrom_ne_nil chars (.inr (List.cons_ne_nil _ _))

/-- A path that is not empty has an anchor or a name that counts. -/
theorem components_ne_nil {path : String} (hne : path ≠ "") : components path ≠ [] := by
  rw [components_eq]
  unfold anchor
  cases habs : isAbsolute path with
  | true => simp
  | false =>
    match hnames : names path with
    | [] => exact absurd hnames (names_ne_nil hne habs)
    | first :: rest =>
      by_cases hdot : first = "."
      · simp [hdot]
      · simp [hdot, solid, hnames]

/-- Components that go on from others have their anchor. -/
theorem anchor_eq_of_prefix {front path : String} {first more : List String}
    (hne : anchor front ++ first.map ofName ≠ [])
    (h : anchor front ++ first.map ofName <+: anchor path ++ more.map ofName) :
    anchor front = anchor path := by
  have hfront := length_anchor_le front
  have hpath := length_anchor_le path
  match ha : anchor front, hb : anchor path with
  | [], [] => rfl
  | [a], [b] =>
    rw [ha, hb, List.singleton_append, List.singleton_append, List.cons_prefix_cons] at h
    rw [h.1]
  | [a], [] =>
    -- The anchor would be one of the names.
    rw [ha, hb] at h
    obtain ⟨name, -, hname⟩ := List.mem_map.mp (h.subset (List.mem_cons_self ..))
    exact absurd (ha ▸ hname ▸ List.mem_singleton_self a) (ofName_notMem_anchor name front)
  | [], [b] =>
    -- The first name would be the anchor.
    rw [ha, hb] at h
    cases first with
    | nil => simp [ha] at hne
    | cons name first =>
      have hname := (List.cons_prefix_cons.mp h).1
      exact absurd (hb ▸ hname ▸ List.mem_singleton_self b) (ofName_notMem_anchor name path)
  | _ :: _ :: _, _ => simp [ha] at hfront
  | _, _ :: _ :: _ => simp [hb] at hpath

end Path

namespace PathGuard

open RemoteLog.Path

variable {guard : PathGuard} {path : String}

/-- The four conditions for an accepted path. -/
theorem accepts_iff : guard.accepts path = true ↔
    Text.allBlank path = false ∧ components guard.root <+: components path ∧
      traverses path = false ∧ logSuffix.toList <:+ path.toList := by
  simp [accepts, and_assoc]

/-- **An accepted path never steps up.** -/
theorem parent_notMem_names (h : guard.accepts path = true) : ".." ∉ names path := by
  intro hmem
  obtain ⟨-, -, htraverses, -⟩ := accepts_iff.mp h
  have hparent := parent_mem_components_iff.mpr hmem
  simp [traverses, hparent] at htraverses

/-- **An accepted path goes on from the root:** it starts where the root starts, and the names of
the root that count are the first of its own. -/
theorem below_root (h : guard.accepts path = true) (hroot : guard.root ≠ "") :
    isAbsolute path = isAbsolute guard.root ∧ solid guard.root <+: solid path := by
  obtain ⟨-, hstart, -, -⟩ := accepts_iff.mp h
  -- An empty root would be the start of any path, whatever its anchor.
  have hne := components_ne_nil hroot
  rw [components_eq, components_eq] at hstart
  rw [components_eq] at hne
  have hanchor := anchor_eq_of_prefix hne hstart
  rw [hanchor] at hstart
  refine ⟨?_, map_ofName_prefix_iff.mp ((List.prefix_append_right_inj _).mp hstart)⟩
  rw [Bool.eq_iff_iff, ← anchor_eq_root_iff, ← anchor_eq_root_iff, hanchor]

end PathGuard

end RemoteLog
