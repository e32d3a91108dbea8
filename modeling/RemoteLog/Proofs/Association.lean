/-! # Association lists

Entries of a file system, connections of a server and slots of a queue are lists of pairs in which
the first pair of a key counts. A key is taken out by dropping all its pairs.

* **`find?_filter_self`**, **`find?_filter_other`** — what is found once a key has been taken
  out.
* **`perm_find?_filter`** — what is found and what is left are all there is. -/

namespace RemoteLog.Association

variable {α β : Type} [DecidableEq α] (pairs : List (α × β)) {key other : α}

/-- Nothing is found of a key that was taken out. -/
theorem find?_filter_self :
    (pairs.filter fun pair => pair.1 ≠ key).find? (fun pair => pair.1 = key) = none := by
  rw [List.find?_filter, List.find?_eq_none]
  intro pair _
  by_cases h : pair.1 = key <;> simp [h]

/-- **Other keys are found as before.** -/
theorem find?_filter_other (h : other ≠ key) :
    (pairs.filter fun pair => pair.1 ≠ key).find? (fun pair => pair.1 = other) =
      pairs.find? fun pair => pair.1 = other := by
  rw [List.find?_filter]
  congr 1
  funext pair
  by_cases hpair : pair.1 = other
  · simp [hpair, h]
  · simp [hpair]

/-- **A list is the pair of a key and the pairs of the others,** if keys are different. -/
theorem perm_find?_filter {pairs : List (α × β)} (h : (pairs.map (·.1)).Nodup) (key : α) :
    pairs.Perm ((pairs.find? fun pair => pair.1 = key).toList ++
      pairs.filter fun pair => pair.1 ≠ key) := by
  induction pairs with
  | nil => exact .nil
  | cons first rest ih =>
    rw [List.map_cons, List.nodup_cons] at h
    obtain ⟨hfirst, hrest⟩ := h
    by_cases hkey : first.1 = key
    · -- No other pair has the key, so none is taken out.
      have hall : rest.filter (fun pair => pair.1 ≠ key) = rest := by
        refine List.filter_eq_self.mpr fun pair hpair => decide_eq_true fun hsame => hfirst ?_
        rw [hkey, ← hsame]
        exact List.mem_map_of_mem hpair
      rw [List.find?_cons_of_pos (by simpa using hkey), List.filter_cons_of_neg (by simpa using hkey),
        hall]
      exact .refl _
    · rw [List.find?_cons_of_neg (by simpa using hkey), List.filter_cons_of_pos (by simpa using hkey)]
      exact ((ih hrest).cons first).trans List.perm_middle.symm

end RemoteLog.Association
