import JsLexer.CharClass
import JsLexer.Lexeme.Reading

/-!
Numbers.

A zero and one of the letters `b`, `o` and `x` announce digits of that base, at least one, and such
a number ends only before a separator or at the end of input. Every other number is decimal: digits,
a fraction and an exponent, of which the fraction may lead. It must not run into a name.
-/

namespace JsLexer.Lexeme

/-- Whether a number starts ahead. -/
def numeralAhead : List Char → Bool
  | '.' :: c :: _ => isDecimalDigit c
  | c :: _ => isDecimalDigit c
  | [] => false

/-- Reads the digits of a number whose zero and letter are passed. -/
def radixDigits (kind : TokenKind) (isDigit : Char → Bool) (cs : List Char) : Reading :=
  let length := runLength isDigit cs
  if length = 0 then .malformed 2
  else if (cs.drop length).head?.all isSeparator then .token kind (2 + length)
  else .malformed (2 + length)

/-- The length of the fraction ahead, zero if there is none; an error is how much was read of a
point without digits. -/
def fraction : List Char → Except Nat Nat
  | '.' :: cs =>
    let digits := runLength isDecimalDigit cs
    if digits = 0 then .error 1 else .ok (1 + digits)
  | _ => .ok 0

/-- How many signs are ahead: one or none. -/
def signLength : List Char → Nat
  | '+' :: _ | '-' :: _ => 1
  | _ => 0

/-- The length of the exponent ahead, zero if there is none; an error is how much was read of an
exponent without digits. -/
def exponent : List Char → Except Nat Nat
  | [] => .ok 0
  | c :: cs =>
    if c = 'e' ∨ c = 'E' then
      let lead := 1 + signLength cs
      let digits := runLength isDecimalDigit (cs.drop (signLength cs))
      if digits = 0 then .error lead else .ok (lead + digits)
    else .ok 0

/-- The length of the decimal number ahead and its kind; an error is how much was read. -/
def decimalLength (cs : List Char) : Except Nat (TokenKind × Nat) :=
  let whole := runLength isDecimalDigit cs
  match fraction (cs.drop whole) with
  | .error read => .error (whole + read)
  | .ok places =>
    match exponent (cs.drop (whole + places)) with
    | .error read => .error (whole + places + read)
    | .ok scale =>
      .ok (if places + scale = 0 then .int else .float, whole + places + scale)

/-- Whether `c` would run into the number before it. -/
def runsIntoNumber (c : Char) : Bool := c == '\\' || isNameStart c || isNamePart c

/-- Reads a decimal number. -/
def decimal (cs : List Char) : Reading :=
  match decimalLength cs with
  | .error read => .malformed read
  | .ok (kind, length) =>
    if (cs.drop length).head?.any runsIntoNumber then .malformed length else .token kind length

/-- Reads a number. -/
def numeral : List Char → Reading
  | '0' :: 'b' :: cs | '0' :: 'B' :: cs => radixDigits .binary isBinaryDigit cs
  | '0' :: 'o' :: cs | '0' :: 'O' :: cs => radixDigits .octal isOctalDigit cs
  | '0' :: 'x' :: cs | '0' :: 'X' :: cs => radixDigits .hex isHexDigit cs
  | cs => decimal cs

end JsLexer.Lexeme
