import JsLexer.Text.HiddenRanges

/-!
Quoted text, in which every code point can be seen.

A text stands between quotes. A backslash, the quote itself, NUL, tab, line feed and carriage return
are written with a backslash and one character, hidden code points with their number in hexadecimal,
and all else as it is.
-/

namespace JsLexer.Text

/-- Whether quoted text spells `c` by its number. -/
def isHidden (c : Char) : Bool := hiddenCodePoints.has c.toNat

/-- The number of `c` in hexadecimal, between the braces of an escape. -/
def numbered (c : Char) : List Char :=
  ['\\', 'u', '\x7b'] ++ Nat.toDigits 16 c.toNat ++ ['\x7d']

/-- How `c` is written between two of the given quotes. -/
def escaped (quote c : Char) : List Char :=
  if c = '\x00' then ['\\', '0']
  else if c = '\t' then ['\\', 't']
  else if c = '\r' then ['\\', 'r']
  else if c = '\n' then ['\\', 'n']
  else if c = '\\' ∨ c = quote then ['\\', c]
  else if isHidden c then numbered c
  else [c]

/-- A text between two of the given quotes. -/
def quotedWith (quote : Char) (cs : List Char) : List Char :=
  quote :: cs.flatMap (escaped quote) ++ [quote]

/-- A text between double quotes. -/
def quoted (s : String) : String := String.ofList (quotedWith '"' s.toList)

/-- A code point between single quotes. -/
def quotedChar (c : Char) : String := String.ofList (quotedWith '\'' [c])

end JsLexer.Text
