/-! # Reading options

A command takes options with one value each, at most one path, and perhaps a further command with
arguments of its own. An option's value follows its name behind an equals sign, behind nothing (for
a short name), or as the next argument. In the last case it is judged only when the option is
settled: when another option or a path follows, or at the end. Behind a lone `--` there are no
options.

* **`Rule`** — what a command takes.
* **`scan`** — reads arguments up to the end, to a request for help, or to a further command. -/

namespace RemoteLog.CommandLine

/-- An option with one value. -/
structure OptionRule where
  /-- The name behind two dashes. -/
  long : String
  /-- The name behind one dash. -/
  short : Option Char
  /-- Whether a text may be the value. -/
  accepts : String → Bool

/-- **What a command takes.** -/
structure Rule where
  options : List OptionRule
  takesPath : Bool
  /-- The names of further commands. -/
  commands : List String

/-- What has been read. -/
structure Scan where
  /-- The values of settled options by long name. -/
  values : List (String × String)
  /-- The option that is not settled, and its value if there was one. -/
  waiting : Option (OptionRule × Option String)
  path : Option String
  /-- Whether the lone `--` has been read. -/
  onlyPaths : Bool

/-- Nothing has been read. -/
def Scan.start : Scan := ⟨[], none, none, false⟩

/-- What reading ends in. -/
inductive Ending where
  /-- All arguments have been read. -/
  | finished (scan : Scan)
  /-- A further command, with its arguments. -/
  | command (name : String) (arguments : List String) (scan : Scan)
  /-- Help was asked for. -/
  | help
  /-- The arguments are wrong. -/
  | wrong

namespace Scan

/-- The value of an option. -/
def value? (scan : Scan) (long : String) : Option String :=
  (scan.values.find? fun v => v.1 = long).map (·.2)

/-- Whether an option still needs its value. -/
def needsValue (scan : Scan) : Bool :=
  match scan.waiting with
  | some (_, none) => true
  | _ => false

/-- Gives an option its value, which has to be its first and a good one. -/
def give (scan : Scan) (option : OptionRule) (value : String) : Option Scan :=
  if (scan.value? option.long).isSome || !option.accepts value then none
  else some { scan with values := (option.long, value) :: scan.values }

/-- Settles the option that waits. -/
def settle (scan : Scan) : Option Scan :=
  match scan.waiting with
  | none => some scan
  | some (_, none) => none
  | some (option, some value) => { scan with waiting := none }.give option value

/-- Takes an option with its value, or lets it wait for one. -/
def takeOption (scan : Scan) (option : OptionRule) (value : Option String) : Option Scan := do
  let scan ← scan.settle
  match value with
  | some value => scan.give option value
  | none => some { scan with waiting := some (option, none) }

/-- Takes a path. -/
def takePath (rule : Rule) (scan : Scan) (path : String) : Option Scan :=
  if !rule.takesPath || scan.path.isSome then none
  else do
    let scan ← scan.settle
    some { scan with path := some path }

end Scan

/-! ## One argument -/

/-- What an argument comes to. -/
inductive Taken where
  | next (scan : Scan)
  | help
  | wrong

/-- A scan that goes on, or a wrong argument. -/
def Taken.ofScan : Option Scan → Taken
  | some scan => .next scan
  | none => .wrong

/-- Asks for help, once the option that waits is settled. -/
def askHelp (scan : Scan) : Taken :=
  match scan.settle with
  | some _ => .help
  | none => .wrong

/-- Takes the text behind two dashes. -/
def takeLong (rule : Rule) (scan : Scan) (text : List Char) : Taken :=
  let name := String.ofList (text.takeWhile (· ≠ '='))
  let value :=
    match text.dropWhile (· ≠ '=') with
    | [] => none
    | _ :: value => some (String.ofList value)
  if name = "help" then if value.isNone then askHelp scan else .wrong
  else
    match rule.options.find? fun option => option.long = name with
    | some option => .ofScan (scan.takeOption option value)
    | none => .wrong

/-- The value that is attached to a short name. -/
def attached? : List Char → Option String
  | [] => none
  | '=' :: value => some (String.ofList value)
  | value => some (String.ofList value)

/-- Takes the text behind one dash. -/
def takeShort (rule : Rule) (scan : Scan) : List Char → Taken
  | [] => .wrong
  | 'h' :: _ => askHelp scan
  | letter :: rest =>
    match rule.options.find? fun option => option.short = some letter with
    | some option => .ofScan (scan.takeOption option (attached? rest))
    | none => .wrong

/-- Takes an argument that is no option. -/
def takePlain (rule : Rule) (scan : Scan) (argument : String) : Taken :=
  match scan.waiting with
  | some (option, none) => .next { scan with waiting := some (option, some argument) }
  | _ => .ofScan (scan.takePath rule argument)

/-- **Takes one argument** that is no further command. -/
def take (rule : Rule) (scan : Scan) (argument : String) : Taken :=
  if scan.onlyPaths then .ofScan (scan.takePath rule argument)
  else
    match argument.toList with
    | ['-', '-'] => .next { scan with onlyPaths := true }
    | '-' :: '-' :: text => takeLong rule scan text
    | ['-'] => takePlain rule scan argument
    | '-' :: text => takeShort rule scan text
    | _ => takePlain rule scan argument

/-! ## All arguments -/

/-- Whether an argument is a further command. An option that needs a value takes it as one. -/
def isCommand (rule : Rule) (scan : Scan) (argument : String) : Bool :=
  !scan.onlyPaths && !scan.needsValue && rule.commands.contains argument

/-- Asks for help with the command that is named, if any. -/
def helpWith (rule : Rule) : List String → Ending
  | [] => .help
  | [name] => if rule.commands.contains name then .help else .wrong
  | _ => .wrong

/-- The name of the command that asks for help with others. -/
def helpName : String := "help"

/-- **Reads arguments.** Only commands with further commands know `help` as one. -/
def scan (rule : Rule) (read : Scan) : List String → Ending
  | [] => .finished read
  | argument :: rest =>
    if isCommand rule read argument then
      if argument = helpName then helpWith rule rest else .command argument rest read
    else
      match take rule read argument with
      | .next read => scan rule read rest
      | .help => .help
      | .wrong => .wrong

end RemoteLog.CommandLine
