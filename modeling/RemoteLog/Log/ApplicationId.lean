import RemoteLog.FileSystem
import RemoteLog.Text.Digit
import Std.Data.HashSet

/-! # Application ids

Tasks that hand work to a cluster print the id they were given: `application_` and a run of digits,
followed by any number of further runs with an underscore before each.

* **`ApplicationId.match? text`** — the longest id at the front of a text.
* **`ApplicationId.find text`** — the ids in a line, from left to right.
* **`Log.applicationIds fs path`** — the distinct ids in a file, in the order of their first
  occurrence. -/

namespace RemoteLog

namespace ApplicationId

/-- What every id starts with. -/
def word : List Char := "application_".toList

/-- Takes further runs of digits, each with its underscore, onto the reverse of what has been
read. -/
def moreRuns (read : List Char) (text : List Char) : List Char × List Char :=
  match text with
  | '_' :: rest =>
    let digits := rest.takeWhile Text.isDigit
    if digits.isEmpty then (read, '_' :: rest)
    else moreRuns (digits.reverseAux ('_' :: read)) (rest.drop digits.length)
  | text => (read, text)
termination_by text.length
decreasing_by simp only [List.length_drop, List.length_cons]; omega

/-- **The longest id at the front of a text,** with the text behind it. -/
def match? (text : List Char) : Option (List Char × List Char) :=
  if word.isPrefixOf text then
    let rest := text.drop word.length
    let digits := rest.takeWhile Text.isDigit
    if digits.isEmpty then none
    else
      let (read, after) := moreRuns (word ++ digits).reverse (rest.drop digits.length)
      some (read.reverse, after)
  else none

theorem moreRuns_length_le (read text : List Char) :
    (moreRuns read text).2.length ≤ text.length := by
  fun_induction moreRuns read text with
  | case1 => exact Nat.le_refl _
  | case2 read rest digits _ ih =>
    refine Nat.le_trans ih ?_
    rw [List.length_drop, List.length_cons]
    omega
  | case3 => exact Nat.le_refl _

theorem match?_length_lt {text id rest : List Char} (h : match? text = some (id, rest)) :
    rest.length < text.length := by
  unfold match? at h
  split at h
  · next hw =>
    dsimp only at h
    split at h
    · cases h
    · have hlen : word.length ≤ text.length := (List.isPrefixOf_iff_prefix.mp hw).length_le
      have hpos : 0 < word.length := by decide
      have hle := moreRuns_length_le (word ++ (text.drop word.length).takeWhile Text.isDigit).reverse
        ((text.drop word.length).drop ((text.drop word.length).takeWhile Text.isDigit).length)
      rw [List.length_drop, List.length_drop] at hle
      rw [← (Prod.mk.inj (Option.some.inj h)).2]
      omega
  · cases h

set_option linter.unusedVariables false in
/-- The ids of a text behind those of `found`, which are in reverse order. -/
def findFrom (found : List String) (text : List Char) : List String :=
  match text with
  | [] => found.reverse
  | c :: rest =>
    match h : match? (c :: rest) with
    | some (id, after) => findFrom (String.ofList id :: found) after
    | none => findFrom found rest
termination_by text.length
decreasing_by
  · exact match?_length_lt h
  · exact Nat.lt_succ_self _

/-- **The ids in a line, from left to right.** -/
def find (line : String) : List String := findFrom [] line.toList

/-- The texts seen so far, and the distinct ones in reverse order. -/
structure Distinct where
  seen : Std.HashSet String
  order : List String

/-- Takes a text unless it has been seen. -/
def Distinct.add (d : Distinct) (text : String) : Distinct :=
  if d.seen.contains text then d else ⟨d.seen.insert text, text :: d.order⟩

/-- **Texts without repetition,** in the order of their first occurrence. -/
def distinct (texts : List String) : List String :=
  (texts.foldl Distinct.add ⟨∅, []⟩).order.reverse

end ApplicationId

/-- **The distinct application ids in a file.** A path that names no regular file, and a file that
cannot be read to its end, have none. -/
def Log.applicationIds (fs : FileSystem) (path : String) : List String :=
  if !fs.isFile path then []
  else
    match fs.openFile path >>= fun script => Line.allOk (Line.lines script) with
    | .ok lines => ApplicationId.distinct (lines.flatMap ApplicationId.find)
    | .error _ => []

end RemoteLog
