import RemoteLog.Text.Hidden

/-! # Quoted text

A text inside a message is quoted: it stands between double quotes, every visible character stands
for itself, and the others are written so that the message stays on one line.

* **`Quoted.escape c`** — how one character is written: a backslash before a quote or a backslash,
  a letter after a backslash for the four common controls, and the code point in hexadecimal
  between braces for every other hidden character.
* **`Quoted.quote s`** — the quoted text. -/

namespace RemoteLog.Text.Quoted

/-- The digits of `n` in base sixteen, lower case and without leading zeros. -/
def hexDigits (n : Nat) : String := String.ofList (Nat.toDigits 16 n)

/-- How `c` is written between quotes. -/
def escape (c : Char) : String :=
  if c = '\x00' then "\\0"
  else if c = '\t' then "\\t"
  else if c = '\r' then "\\r"
  else if c = '\n' then "\\n"
  else if c = '"' then "\\\""
  else if c = '\\' then "\\\\"
  else if isHidden c then "\\u\x7b" ++ hexDigits c.toNat ++ "\x7d"
  else String.singleton c

/-- The text between double quotes. -/
def quote (s : String) : String :=
  s.toList.foldl (fun out c => out ++ escape c) "\"" ++ "\""

end RemoteLog.Text.Quoted
