import RemoteLog.Line
import RemoteLog.Path

/-! # File systems

A file system maps paths from its root to entries. A path text is resolved name by name from the
root or from the working directory; links are followed on the way.

* **`Content`**, **`Entry`**, **`FileSystem`** — what there is; **`FileSystem.entry?`** shows it.
* **`FileSystem.resolve`** — the place that a path text names.
* **`FileSystem.openFile`**, **`FileSystem.isFile`** — reading.
* **`FileSystem.unlink`** — removes the one entry that a path names. -/

namespace RemoteLog

/-- What a regular file holds. -/
structure Content where
  bytes : ByteArray
  /-- Reading fails behind this many bytes; otherwise it reaches the end. -/
  faultAt : Option Nat

/-- A file whose bytes can all be read. -/
def Content.ofBytes (bytes : ByteArray) : Content := ⟨bytes, none⟩

/-- What a reader of a file meets. -/
def Content.script (content : Content) : List ReadEvent :=
  match content.faultAt with
  | none => [.chunk content.bytes]
  | some n => [.chunk (content.bytes.extract 0 n), .failure .inputOutput]

/-- What stands at a path. -/
inductive Entry where
  | file (content : Content)
  | directory
  /-- A symbolic link. -/
  | link (target : String)

/-- **A file system** with its working directory. Paths from the root are lists of names; the root
itself is the empty list. -/
structure FileSystem where
  entries : List (List String × Entry)
  workingDirectory : List String

/-- The place that a path text names. -/
inductive Place where
  /-- An entry and its path from the root. -/
  | entry (path : List String) (entry : Entry)
  /-- No entry, in a directory that exists. -/
  | vacant (directory : List String) (name : String)

namespace FileSystem

/-- The longest path text in bytes. -/
def pathLimit : Nat := 4095

/-- The longest name in bytes. -/
def nameLimit : Nat := 255

/-- The number of links that resolving a path may follow. -/
def linkLimit : Nat := 40

/-- **The entry at a path from the root.** The root is a directory. -/
def entry? (fs : FileSystem) (path : List String) : Option Entry :=
  if path.isEmpty then some .directory
  else (fs.entries.find? fun e => e.1 = path).map (·.2)

/-- Whether a directory stands at a path from the root. -/
def isDirectory (fs : FileSystem) (path : List String) : Bool :=
  match fs.entry? path with
  | some .directory => true
  | _ => false

/-- The file system without the entry at a path from the root. -/
def erase (fs : FileSystem) (path : List String) : FileSystem :=
  { fs with entries := fs.entries.filter fun e => e.1 ≠ path }

/-- The file system with a new entry at a path from the root. -/
def insert (fs : FileSystem) (path : List String) (entry : Entry) : FileSystem :=
  { fs with entries := (path, entry) :: (fs.erase path).entries }

/-! ## Resolving paths -/

/-- Where the names of a path text start. -/
def origin (fs : FileSystem) (path : String) : List String :=
  if Path.isAbsolute path then [] else fs.workingDirectory

/-- What a path text is resolved for. -/
inductive Purpose where
  /-- To use what is there. -/
  | use
  /-- To make a file if there is none. -/
  | make

/-- The names of a path text. A slash at the end asks for a directory: in what is there, by one more
step into it; in a file to be made, by naming the directory that would hold it, which is no file. -/
def steps (purpose : Purpose) (path : String) : List String :=
  let names := Path.names path
  if Path.endsInSlash path then
    match purpose with
    | .use => names ++ ["."]
    | .make => names.dropLast ++ ["."]
  else names

/-- **Walks from a directory along names.** At most `links` links are followed, the one at the last
name too. -/
def walk (fs : FileSystem) (purpose : Purpose) (links : Nat) (here : List String)
    (names : List String) : Except SystemError Place :=
  match names with
  | [] =>
    match fs.entry? here with
    | some entry => .ok (.entry here entry)
    | none => .error .notFound
  | name :: rest =>
    if !fs.isDirectory here then .error .notDirectory
    else if name = "." then walk fs purpose links here rest
    else if name = ".." then walk fs purpose links here.dropLast rest
    else if name.utf8ByteSize > nameLimit then .error .nameTooLong
    else
      match fs.entry? (here ++ [name]) with
      | none => if rest.isEmpty then .ok (.vacant here name) else .error .notFound
      | some (.link target) =>
        match links with
        | 0 => .error .tooManyLinks
        | links + 1 =>
          walk fs purpose links (if Path.isAbsolute target then [] else here)
            (if rest.isEmpty then steps purpose target else Path.names target ++ rest)
      | some entry =>
        if rest.isEmpty then .ok (.entry (here ++ [name]) entry)
        else walk fs purpose links (here ++ [name]) rest
termination_by (links, names.length)

/-- Why a path text is refused before it is walked. -/
def refusal? (path : String) : Option SystemError :=
  if path.toList.contains '\x00' then some .nulInName
  else if path.isEmpty then some .notFound
  else if path.utf8ByteSize > pathLimit then some .nameTooLong
  else none

/-- **The place that a path text names,** links followed. -/
def resolve (fs : FileSystem) (purpose : Purpose) (path : String) : Except SystemError Place :=
  match refusal? path with
  | some cause => .error cause
  | none => walk fs purpose linkLimit (fs.origin path) (steps purpose path)

/-! ## Reading -/

/-- **Opens a file for reading.** A directory can be opened, but reading it fails. -/
def openFile (fs : FileSystem) (path : String) : Except SystemError (List ReadEvent) :=
  match fs.resolve .use path with
  | .error cause => .error cause
  | .ok (.entry _ (.file content)) => .ok content.script
  | .ok (.entry _ .directory) => .ok [.failure .isDirectory]
  | .ok (.entry _ (.link _)) => .error .tooManyLinks
  | .ok (.vacant _ _) => .error .notFound

/-- Whether a path names a regular file. -/
def isFile (fs : FileSystem) (path : String) : Bool :=
  match fs.resolve .use path with
  | .ok (.entry _ (.file _)) => true
  | _ => false

/-! ## Removing -/

/-- The directory that holds the last name of a path text. -/
def parent (fs : FileSystem) (path : String) : Except SystemError (List String) :=
  match walk fs .use linkLimit (fs.origin path) ((Path.names path).dropLast ++ ["."]) with
  | .error cause => .error cause
  | .ok (.entry directory _) => .ok directory
  | .ok (.vacant _ _) => .error .notFound

/-- **Removes the entry that a path names:** a file, or a link itself, but no directory. -/
def unlink (fs : FileSystem) (path : String) : Except SystemError FileSystem :=
  match refusal? path with
  | some cause => .error cause
  | none =>
    match fs.parent path, (Path.names path).getLast? with
    | .error cause, _ => .error cause
    | .ok _, none => .error .isDirectory
    | .ok directory, some name =>
      if name = "." ∨ name = ".." then .error .isDirectory
      else if name.utf8ByteSize > nameLimit then .error .nameTooLong
      else
        match fs.entry? (directory ++ [name]) with
        | none => .error .notFound
        | some .directory => .error .isDirectory
        | some _ =>
          if Path.endsInSlash path then .error .notDirectory
          else .ok (fs.erase (directory ++ [name]))

end FileSystem

end RemoteLog
