/-! # Results of several steps

A reading or a request that is made of steps gives a result if each of its steps does.

* **`exists_of_bind_eq_ok`**, **`of_unless_throw`** — the steps and the checks in front of a result.
* **`exists_of_map_eq_ok`**, **`of_map_eq_error`**, **`map_mapError`** — results and errors that are
  converted. -/

namespace RemoteLog

variable {ε ε' α β : Type} {first : Except ε α}

/-- What gives a result in two steps gives one in each of them. -/
theorem exists_of_bind_eq_ok {next : α → Except ε β} {b : β} (h : first >>= next = .ok b) :
    ∃ a, first = .ok a ∧ next a = .ok b := by
  cases first with
  | error e => cases h
  | ok a => exact ⟨a, rfl, h⟩

/-- What gives a result has passed the check in front of it. -/
theorem of_unless_throw {c : Prop} [Decidable c] {e : ε} {x y : Except ε α} {a : α}
    (h : (if c then (throw e : Except ε PUnit) >>= fun _ => y else x) = .ok a) :
    ¬ c ∧ x = .ok a := by
  by_cases hc : c
  · rw [if_pos hc] at h
    cases h
  · rw [if_neg hc] at h
    exact ⟨hc, h⟩

theorem exists_of_map_eq_ok {f : α → β} {b : β} (h : first.map f = .ok b) :
    ∃ a, first = .ok a ∧ f a = b := by
  cases first with
  | error e => cases h
  | ok a => exact ⟨a, rfl, Except.ok.inj h⟩

theorem of_map_eq_error {f : α → β} {e : ε} (h : first.map f = .error e) : first = .error e := by
  cases first with
  | error e' => exact congrArg Except.error (Except.error.inj h)
  | ok a => cases h

theorem map_mapError (g : ε → ε') (f : α → β) (x : Except ε α) :
    f <$> x.mapError g = (f <$> x).mapError g := by
  cases x <;> rfl

end RemoteLog
