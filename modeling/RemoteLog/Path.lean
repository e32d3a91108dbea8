import RemoteLog.Text.Blank

/-! # Paths and the path guard

A path is read by its components: names between slashes, where repeated slashes and `.` count for
nothing, except for a `.` at the very front of a relative path.

* **`Path.names path`** — the names between the slashes.
* **`Component`**, **`Path.components path`** — the components.
* **`PathGuard`** — the log root; **`PathGuard.accepts guard path`** — whether a path may be used.
  The decision looks at the texts only, not at the files. -/

namespace RemoteLog

/-- One step of a path. -/
inductive Component where
  /-- The slash at the front of an absolute path. -/
  | root
  /-- A `.` at the front of a relative path. -/
  | current
  /-- A `..`. -/
  | parent
  /-- Any other name. -/
  | name (text : String)
  deriving DecidableEq

namespace Path

/-- Puts a name, given in reverse, in front of those found before; an empty one is left out. -/
def addName (name : List Char) (found : List String) : List String :=
  if name.isEmpty then found else String.ofList name.reverse :: found

/-- The names of the characters that are left, behind those of `found`, which are in reverse order;
`name` is the part of the next name that has been read, in reverse. -/
def namesFrom (found : List String) (name : List Char) : List Char → List String
  | [] => (addName name found).reverse
  | c :: rest =>
    if c = '/' then namesFrom (addName name found) [] rest else namesFrom found (c :: name) rest

/-- **The names between the slashes of a path,** the empty ones left out. -/
def names (path : String) : List String := namesFrom [] [] path.toList

/-- Whether a path starts at the root. -/
def isAbsolute (path : String) : Bool := path.toList.head? = some '/'

/-- Whether a path ends in a slash. -/
def endsInSlash (path : String) : Bool := path.toList.getLast? = some '/'

/-- The component that a name stands for. -/
def ofName (name : String) : Component := if name = ".." then .parent else .name name

/-- The components of names, with `.` left out. -/
def ofNames (names : List String) : List Component :=
  (names.filter fun name => name ≠ ".").map ofName

/-- **The components of a path.** -/
def components (path : String) : List Component :=
  if isAbsolute path then .root :: ofNames (names path)
  else
    match names path with
    | [] => []
    | first :: rest =>
      if first = "." then .current :: ofNames rest else ofNames (first :: rest)

/-- Whether `../` stands anywhere in a text. -/
def hasParentStep : List Char → Bool
  | [] => false
  | c :: rest => ['.', '.', '/'].isPrefixOf (c :: rest) || hasParentStep rest

end Path

/-- What every log file's name ends in. -/
def logSuffix : String := ".log"

/-- **The guard of a worker's files:** only log files below its root may be used. -/
structure PathGuard where
  /-- The log root. -/
  root : String
  deriving DecidableEq

namespace PathGuard

/-- Whether a path steps up anywhere. -/
def traverses (path : String) : Bool :=
  Path.hasParentStep path.toList || (Path.components path).contains .parent

/-- **Whether a path may be used:** it is not blank, its components start with those of the root,
it never steps up, and it ends in `.log`. -/
def accepts (guard : PathGuard) (path : String) : Bool :=
  !Text.allBlank path &&
    (Path.components guard.root).isPrefixOf (Path.components path) &&
    !traverses path && logSuffix.toList.isSuffixOf path.toList

end PathGuard

end RemoteLog
