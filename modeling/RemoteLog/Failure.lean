/-! # Failures

What a program reports when it gives up: what went wrong, and the causes behind it.

* **`Failure`** — a message and its causes, outermost first.
* **`Failure.report f`** — the report that is printed. -/

namespace RemoteLog

/-- **Why a program gave up.** -/
structure Failure where
  message : String
  /-- The texts of the causes, outermost first. -/
  causes : List String
  deriving DecidableEq

namespace Failure

/-- A failure with nothing behind it. -/
def ofMessage (message : String) : Failure := ⟨message, []⟩

/-- A failure with one more message in front. -/
def within (message : String) (inner : Failure) : Failure :=
  ⟨message, inner.message :: inner.causes⟩

/-- The message and the causes, outermost first. -/
def chain (failure : Failure) : List String := failure.message :: failure.causes

/-- A text whose further lines stand under the first, behind `margin` blanks. -/
def hang (margin : Nat) (text : String) : String :=
  ("\n" ++ String.ofList (List.replicate margin ' ')).intercalate
    ((text.toList.splitOn '\n').map String.ofList)

/-- A cause with its number. -/
def numbered (number : Nat) (cause : String) : String :=
  let digits := toString number
  String.ofList (List.replicate (5 - digits.length) ' ') ++ digits ++ ": " ++ hang 7 cause

/-- The causes, each on a line of its own; several are numbered from zero. -/
def causeLines : List String → List String
  | [cause] => ["    " ++ hang 4 cause]
  | causes => causes.mapIdx numbered

/-- **The report of a failure.** -/
def report (failure : Failure) : String :=
  let head := "Error: " ++ failure.message ++ "\n"
  if failure.causes.isEmpty then head
  else head ++ "\nCaused by:\n" ++ "\n".intercalate (causeLines failure.causes) ++ "\n"

end Failure

end RemoteLog
