/-!
JSON laid out over lines, with one tab for each level of nesting.

A value is written at a depth. Its items stand on lines of their own, one level deeper, and the
closing bracket stands at its own depth again; a list without items is written on the spot. In
strings only what JSON demands is escaped, so all else is readable as it is.
-/

namespace JsLexer.Json

/-- How a value is written, given how deep it is nested. -/
abbrev Written := (depth : Nat) → List Char

/-- A new line at a depth. -/
def newline (depth : Nat) : List Char := '\n' :: List.replicate depth '\t'

/-- How a code point is written inside a string. -/
def escape (c : Char) : List Char :=
  if c = '"' then ['\\', '"']
  else if c = '\\' then ['\\', '\\']
  else if c = '\x08' then ['\\', 'b']
  else if c = '\t' then ['\\', 't']
  else if c = '\n' then ['\\', 'n']
  else if c = '\x0c' then ['\\', 'f']
  else if c = '\r' then ['\\', 'r']
  else if c.toNat < 0x20 then
    ['\\', 'u', '0', '0', Nat.digitChar (c.toNat / 16), Nat.digitChar (c.toNat % 16)]
  else [c]

/-- A string between its quotes. -/
def string (s : String) : List Char := '"' :: s.toList.flatMap escape ++ ['"']

/-- A string as a value. -/
def text (s : String) : Written := fun _ => string s

/-- A natural number as a value. -/
def natural (n : Nat) : Written := fun _ => Nat.toDigits 10 n

/-- Items between two brackets. -/
def bracketed (opening closing : Char) : List Written → Written
  | [], _ => [opening, closing]
  | first :: others, depth =>
    opening :: newline (depth + 1) ++ first (depth + 1) ++
      others.flatMap (fun item => ',' :: newline (depth + 1) ++ item (depth + 1)) ++
      newline depth ++ [closing]

/-- A list of values. -/
def array (items : List Written) : Written := bracketed '[' ']' items

/-- A key and its value. -/
def member (key : String) (value : Written) : Written :=
  fun depth => string key ++ [':', ' '] ++ value depth

/-- An object of members in order. -/
def object (members : List (String × Written)) : Written :=
  bracketed '\x7b' '\x7d' (members.map fun (key, value) => member key value)

/-- A value as a whole text. -/
def render (value : Written) : String := String.ofList (value 0)

end JsLexer.Json
