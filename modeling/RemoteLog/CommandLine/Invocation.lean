import RemoteLog.CommandLine.Options
import RemoteLog.Decimal.Count
import RemoteLog.Message.Request

/-! # Invocations

* **`Action`** — what a user asks for; **`Action.path`** — the log that it is about.
* **`Invocation`** — an action, the worker's address and the time to wait.
* **`parse`** — the invocation that arguments and environment give. -/

namespace RemoteLog.CommandLine

/-- **What a user asks for.** -/
inductive Action where
  /-- Prints a whole log. -/
  | view (path : String)
  /-- Prints a window of lines. -/
  | roll (path : String) (skip limit : UInt32)
  /-- Saves a log to a local file. -/
  | download (path output : String)
  /-- Removes a log. -/
  | remove (path : String)
  /-- Prints the application ids in a log. -/
  | applicationIds (path : String)
  deriving DecidableEq

/-- The log that an action is about. -/
def Action.path : Action → String
  | view path => path
  | roll path _ _ => path
  | download path _ => path
  | remove path => path
  | applicationIds path => path

/-- **What a user asks for, of whom, and how long to wait.** -/
structure Invocation where
  worker : String
  /-- The time to wait for an answer, in seconds. -/
  timeout : Nat
  action : Action
  deriving DecidableEq

/-- What arguments come to. -/
inductive Parse where
  | run (invocation : Invocation)
  | help
  | wrong
  deriving DecidableEq

/-! ## Values -/

/-- A count of lines. -/
def count? (text : String) : Option UInt32 :=
  match Decimal.integer? text with
  | some n => if 0 ≤ n ∧ n < UInt32.size then some (UInt32.ofNat n.toNat) else none
  | none => none

/-- A number of seconds. -/
def seconds? (text : String) : Option Nat := Decimal.naturalBelow? UInt64.size text

/-! ## Commands -/

/-- Which worker. -/
def workerOption : OptionRule := ⟨"worker", none, fun _ => true⟩

/-- How long to wait. -/
def timeoutOption : OptionRule := ⟨"timeout", none, fun text => (seconds? text).isSome⟩

/-- How many lines come before the window. -/
def skipOption : OptionRule := ⟨"skip", some 's', fun text => (count? text).isSome⟩

/-- How many lines the window has at most. -/
def limitOption : OptionRule := ⟨"limit", some 'l', fun text => (count? text).isSome⟩

/-- Where a log is saved. -/
def outputOption : OptionRule := ⟨"output", some 'o', fun text => !text.isEmpty⟩

/-- What stands in front of the command. -/
def mainRule : Rule :=
  ⟨[workerOption, timeoutOption], false, ["view", "roll", "download", "remove", "app-ids", helpName]⟩

/-- A command that takes a path and nothing else. -/
def pathRule : Rule := ⟨[], true, []⟩

/-- A command that takes a path and options. -/
def ruleWith (options : List OptionRule) : Rule := ⟨options, true, []⟩

/-- What a command takes. -/
def ruleOf (name : String) : Rule :=
  if name = "roll" then ruleWith [skipOption, limitOption]
  else if name = "download" then ruleWith [outputOption]
  else pathRule

/-- The count that an option gives. -/
def countOf (scan : Scan) (option : OptionRule) (default : UInt32) : UInt32 :=
  ((scan.value? option.long).bind count?).getD default

/-- The action of a command whose arguments have been read. -/
def actionOf (name : String) (scan : Scan) : Option Action := do
  let path ← scan.path
  match name with
  | "view" => some (.view path)
  | "roll" => some (.roll path (countOf scan skipOption 0) (countOf scan limitOption 100))
  | "download" => some (.download path (← scan.value? outputOption.long))
  | "remove" => some (.remove path)
  | "app-ids" => some (.applicationIds path)
  | _ => none

/-- The worker that a user asks who names none. -/
def defaultWorker : String := "127.0.0.1:1234"

/-- The seconds that a user waits who names no number. -/
def defaultTimeout : Nat := 10

/-- The invocation of an action, once the options in front of its command are settled. What they
leave out is looked up in the environment. -/
def invocationOf (lookup : String → Option String) (front : Scan) (action : Action) :
    Option Invocation := do
  let front ← front.settle
  let worker := front.value? workerOption.long <|> lookup "TASKLOG_WORKER_ADDR"
  let timeout ←
    match front.value? timeoutOption.long <|> lookup "TASKLOG_TIMEOUT" with
    | some text => seconds? text
    | none => some defaultTimeout
  return ⟨worker.getD defaultWorker, timeout, action⟩

/-- **What arguments come to** in an environment. -/
def parse (lookup : String → Option String) (arguments : List String) : Parse :=
  match scan mainRule .start arguments with
  | .finished _ => .wrong
  | .help => .help
  | .wrong => .wrong
  | .command name rest front =>
    match scan (ruleOf name) .start rest with
    | .finished read =>
      match read.settle >>= actionOf name >>= invocationOf lookup front with
      | some invocation => .run invocation
      | none => .wrong
    | .help => .help
    | .command _ _ _ => .wrong
    | .wrong => .wrong

end RemoteLog.CommandLine
