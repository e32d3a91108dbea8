/-! # Decimal integers

Integers as a person writes them into a setting: ASCII digits behind an optional sign, any number of
leading zeros, and nothing else.

* **`value digits`** — the number that a run of digits stands for.
* **`natural? text`** — a number whose only sign is a plus.
* **`integer? text`** — a number with either sign. -/

namespace RemoteLog.Decimal

/-- **The number that a run of digits stands for.** -/
def value (digits : List Char) : Nat :=
  digits.foldl (fun n c => 10 * n + (c.toNat - '0'.toNat)) 0

@[simp] theorem value_nil : value [] = 0 := rfl

theorem value_append_singleton (digits : List Char) (c : Char) :
    value (digits ++ [c]) = 10 * value digits + (c.toNat - '0'.toNat) := by
  simp [value]

/-- The number of a run of digits that is not empty. -/
def digits? (text : List Char) : Option Nat :=
  if !text.isEmpty && text.all Char.isDigit then some (value text) else none

/-- **A number whose only sign is a plus.** -/
def natural? (text : String) : Option Nat :=
  match text.toList with
  | '+' :: digits => digits? digits
  | digits => digits? digits

/-- **A number with either sign.** -/
def integer? (text : String) : Option Int :=
  match text.toList with
  | '-' :: digits => (digits? digits).map fun n => -(n : Int)
  | '+' :: digits => (digits? digits).map Int.ofNat
  | digits => (digits? digits).map Int.ofNat

/-- A natural number below a bound. -/
def naturalBelow? (bound : Nat) (text : String) : Option Nat :=
  (natural? text).filter fun n => n < bound

end RemoteLog.Decimal
