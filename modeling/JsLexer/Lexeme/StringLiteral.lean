import JsLexer.Lexeme.Escape
import JsLexer.Lexeme.Reading

/-!
String literals.

Either quote opens a string and the same quote closes it; line terminators belong to the body. Behind
a backslash stand a zero and a decimal digit, `x` and two hexadecimal digits, `u` and an escape by
number, a line break, or any other code point but the digits `1` to `9`.
-/

namespace JsLexer.Lexeme

/-- Whether a quote is ahead. -/
def stringAhead : List Char → Bool
  | '"' :: _ | '\'' :: _ => true
  | _ => false

/-- Reads what follows a backslash. -/
def stringEscape : List Char → EscapeReading
  | [] => .cutShort 0
  | '0' :: [] => .cutShort 1
  | '0' :: c :: _ => if isDecimalDigit c then .complete 2 else .malformed 2
  | 'x' :: cs => (hexDigits 2 cs).after 1
  | 'u' :: cs => (unicodeEscape cs).after 1
  | '\r' :: '\n' :: _ => .complete 2
  | '\r' :: _ => .complete 1
  | c :: _ => if isSingleCharEscape c || isNonEscapeChar c then .complete 1 else .malformed 1

/-- Reads on through the closing quote. The first `claimed` code points belong to an escape that
was read already. -/
def stringRest (quote : Char) : (claimed : Nat) → List Char → Reading
  | _, [] => .openString 0
  | claimed + 1, _ :: cs => (stringRest quote claimed cs).after 1
  | 0, c :: cs =>
    if c = quote then .token .string 1
    else if c = '\\' then
      match stringEscape cs with
      | .complete length => (stringRest quote length cs).after 1
      | .malformed length => .malformed (1 + length)
      | .cutShort length => .openString (1 + length)
    else (stringRest quote 0 cs).after 1

/-- Reads a string whose quotes are whatever code point comes first. -/
def string : List Char → Reading
  | [] => .malformed 0
  | quote :: cs => (stringRest quote 0 cs).after 1

end JsLexer.Lexeme
