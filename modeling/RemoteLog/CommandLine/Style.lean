/-! # Styled text

Text on a terminal is styled by escape sequences around it. A text that holds the end of a style
itself takes its style up again behind that.

* **`Style`** — the styles in use.
* **`Style.paint`** — a text in a style.
* **`coloursWanted`** — whether a program whose output is no terminal uses styles at all. -/

namespace RemoteLog.CommandLine

/-- A style of text. -/
inductive Style where
  | bold
  | dimmed
  | green
  | yellow
  | cyan
  deriving DecidableEq

namespace Style

/-- The number of a style. -/
def number : Style → String
  | bold => "1"
  | dimmed => "2"
  | green => "32"
  | yellow => "33"
  | cyan => "36"

/-- The sequence with this number. -/
def sequence (number : String) : String := "\x1b[" ++ number ++ "m"

/-- The sequence that ends every style. -/
def ending : String := sequence "0"

/-- **A text in a style,** if colours are wanted. -/
def paint (colours : Bool) (style : Style) (text : String) : String :=
  let start := sequence style.number
  if colours then start ++ text.replace ending (ending ++ start) ++ ending else text

end Style

/-- **Whether styles are used** on an output that is no terminal: only if they are forced. -/
def coloursWanted (lookup : String → Option String) : Bool :=
  match lookup "CLICOLOR_FORCE" with
  | some value => value ≠ "0"
  | none => false

end RemoteLog.CommandLine
