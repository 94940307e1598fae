import JsLexer.CharClass

/-!
Escapes by number, which names and strings share.

Behind a backslash and `u` stand four hexadecimal digits, or at least one between braces with a
value that is a code point, surrogates included. Escapes are checked and kept as they are written.
The value between braces is summed up in 32 bits and stays at the largest number once it reaches
it, so a value that is too large stays too large. The digits are counted as well, only to see that
there are some, but in 32 bits with a sign. Where overflow is not checked for, this count wraps:
with 2 ^ 31 digits it is negative, and an escape is refused that has so many zeros in front.
-/

namespace JsLexer.Lexeme

/-- The outcome of reading an escape: how many code points it takes, how many were read when one
broke the grammar, or that the text ended inside it. -/
inductive EscapeReading
  | complete (length : Nat)
  | malformed (length : Nat)
  | cutShort (length : Nat)
deriving DecidableEq

/-- The same outcome, `n` code points further on. -/
def EscapeReading.after (n : Nat) : EscapeReading → EscapeReading
  | .complete m => .complete (n + m)
  | .malformed m => .malformed (n + m)
  | .cutShort m => .cutShort (n + m)

/-- The largest code point. -/
def maxCodePoint : Nat := 0x10ffff

/-- The largest number of 32 bits. -/
def maxWord : Nat := 0xffffffff

/-- Appends a hexadecimal digit to a number, both steps of it held at the largest word. -/
def appendDigit (value digit : Nat) : Nat := min (min (value * 16) maxWord + digit) maxWord

/-- Reads exactly `count` hexadecimal digits. -/
def hexDigits : Nat → List Char → EscapeReading
  | 0, _ => .complete 0
  | _ + 1, [] => .cutShort 0
  | count + 1, c :: cs => if isHexDigit c then (hexDigits count cs).after 1 else .malformed 1

/-- Reads digits and the closing brace, with the value of the digits before and their number, which
wraps. -/
def bracedDigits (value : Nat) (count : Int32) : List Char → EscapeReading
  | [] => .cutShort 0
  | c :: cs =>
    if c = '\x7d' then
      if 0 < count ∧ value ≤ maxCodePoint then .complete 1 else .malformed 1
    else match hexValue? c with
      | some digit => (bracedDigits (appendDigit value digit) (count + 1) cs).after 1
      | none => .malformed 1

/-- Reads what follows the opening brace of an escape. -/
def braced (cs : List Char) : EscapeReading := bracedDigits 0 0 cs

/-- Reads what follows `u` in an escape. -/
def unicodeEscape : List Char → EscapeReading
  | [] => .cutShort 0
  | c :: cs =>
    if c = '\x7b' then (braced cs).after 1
    else if isHexDigit c then (hexDigits 3 cs).after 1
    else .malformed 1

end JsLexer.Lexeme
