import RemoteLog.FileSystem

/-! # Editing a file system

Other processes write logs while a worker serves them, and a client saves what it downloads.

* **`FileSystem.writeFile`** — replaces or creates a file.
* **`FileSystem.appendFile`**, **`FileSystem.resizeFile`** — change the bytes of a file.
* **`FileSystem.makeDirectories`**, **`FileSystem.makeLink`**, **`FileSystem.removeTree`** — change
  the tree.
* **`FileSystem.below`** — the entries below a directory. -/

namespace RemoteLog.FileSystem

/-- Puts what `change` makes of the bytes of a file in their place; a file that does not exist is
created from no bytes. -/
def changeFile (fs : FileSystem) (path : String) (change : ByteArray → ByteArray) :
    Except SystemError FileSystem :=
  match fs.resolve .make path with
  | .error cause => .error cause
  | .ok (.entry _ .directory) => .error .isDirectory
  | .ok (.entry _ (.link _)) => .error .tooManyLinks
  | .ok (.entry place (.file content)) =>
    .ok (fs.insert place (.file (.ofBytes (change content.bytes))))
  | .ok (.vacant directory name) =>
    .ok (fs.insert (directory ++ [name]) (.file (.ofBytes (change ByteArray.empty))))

/-- **Writes a file,** replacing what it held. -/
def writeFile (fs : FileSystem) (path : String) (bytes : ByteArray) :
    Except SystemError FileSystem :=
  fs.changeFile path fun _ => bytes

/-- Writes behind what a file holds. -/
def appendFile (fs : FileSystem) (path : String) (bytes : ByteArray) :
    Except SystemError FileSystem :=
  fs.changeFile path (· ++ bytes)

/-- Cuts a file, or fills it up with zeros. -/
def resizeFile (fs : FileSystem) (path : String) (size : Nat) : Except SystemError FileSystem :=
  fs.changeFile path fun bytes => bytes.extract 0 size ++ Bytes.replicate (size - bytes.size) 0

/-- Makes the directory that names lead to from a directory. Those above it have to exist. -/
def makeDirectory (fs : FileSystem) (here names : List String) : Except SystemError FileSystem :=
  match walk fs .use linkLimit here (names.dropLast ++ ["."]), names.getLast? with
  | .error cause, _ => .error cause
  | .ok (.entry directory _), some name =>
    if name = "." ∨ name = ".." then .error .alreadyExists
    else if name.utf8ByteSize > nameLimit then .error .nameTooLong
    else if (fs.entry? (directory ++ [name])).isSome then .error .alreadyExists
    else .ok (fs.insert (directory ++ [name]) .directory)
  | .ok _, _ => .error .alreadyExists

/-- Whether names lead from a directory to a directory. -/
def leadsToDirectory (fs : FileSystem) (here names : List String) : Bool :=
  match walk fs .use linkLimit here names with
  | .ok (.entry _ .directory) => true
  | _ => false

/-- Makes the directory that names, given in reverse, lead to, and before it all that are missing
above it. A directory that exists will do. -/
def makeAbove (fs : FileSystem) (here : List String) : List String → Except SystemError FileSystem
  | [] => .ok fs
  | last :: above =>
    let names := (last :: above).reverse
    match fs.makeDirectory here names with
    | .ok fs => .ok fs
    | .error .notFound => makeAbove fs here above >>= fun fs => fs.makeDirectory here names
    | .error .alreadyExists =>
      if fs.leadsToDirectory here names then .ok fs else .error .alreadyExists
    | .error cause => .error cause

/-- Makes the directories that names lead to from where a path starts. -/
def makeNamed (fs : FileSystem) (path : String) (names : List String) :
    Except SystemError FileSystem :=
  if names.isEmpty then .ok fs
  else
    match refusal? path with
    | some cause => .error cause
    | none => fs.makeAbove (fs.origin path) (names.filter fun name => name ≠ ".").reverse

/-- **Makes a directory** and all that are missing above it. -/
def makeDirectories (fs : FileSystem) (path : String) : Except SystemError FileSystem :=
  fs.makeNamed path (Path.names path)

/-- Makes the directories above the last name of a path. -/
def makeParents (fs : FileSystem) (path : String) : Except SystemError FileSystem :=
  fs.makeNamed path (Path.names path).dropLast

/-- Puts a symbolic link at a path where nothing stands. -/
def makeLink (fs : FileSystem) (path target : String) : Except SystemError FileSystem :=
  match refusal? path with
  | some cause => .error cause
  | none =>
    match fs.parent path, (Path.names path).getLast? with
    | .error cause, _ => .error cause
    | .ok _, none => .error .alreadyExists
    | .ok directory, some name =>
      if name = "." ∨ name = ".." then .error .alreadyExists
      else if name.utf8ByteSize > nameLimit then .error .nameTooLong
      else if (fs.entry? (directory ++ [name])).isSome then .error .alreadyExists
      else if Path.endsInSlash path then .error .notFound
      else .ok (fs.insert (directory ++ [name]) (.link target))

/-- Removes an entry and, if it is a directory, everything below it. -/
def removeTree (fs : FileSystem) (path : String) : Except SystemError FileSystem :=
  match fs.parent path, (Path.names path).getLast? with
  | .error cause, _ => .error cause
  | .ok _, none => .error .isDirectory
  | .ok directory, some name =>
    let place := directory ++ [name]
    .ok { fs with entries := fs.entries.filter fun e => !place.isPrefixOf e.1 }

/-- **The entries below a directory,** with their paths from there. -/
def below (fs : FileSystem) (directory : List String) : List (List String × Entry) :=
  fs.entries.filterMap fun e =>
    if directory.isPrefixOf e.1 && directory.length < e.1.length then
      some (e.1.drop directory.length, e.2)
    else none

end RemoteLog.FileSystem
