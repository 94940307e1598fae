import JsLexer.CharClass
import JsLexer.Lexeme.Reading

/-!
Punctuators.

The first code point picks a family, and each further one is taken only if a longer punctuator
results. A question mark and a point are one punctuator unless a digit follows: then the point
belongs to a number. Two points that no third one follows are an error.
-/

namespace JsLexer.Lexeme

/-- The code points that start a punctuator. -/
def isPunctuatorStart (c : Char) : Bool :=
  ['\x7b', '\x7d', '(', ')', '[', ']', '.', ';', ',', '<', '>', '=', '!', '+', '-', '*', '/', '%',
    '&', '|', '^', '~', '?', ':'].contains c

/-- Whether a punctuator starts ahead. -/
def punctuatorAhead (cs : List Char) : Bool := cs.head?.any isPunctuatorStart

/-- The punctuator `bare` of `length` code points, or the one that an equals sign after it makes. -/
def orAssign (length : Nat) (bare withEquals : TokenKind) : List Char → Reading
  | '=' :: _ => .token withEquals (length + 1)
  | _ => .token bare length

/-! ### Families, each by what follows its first code point -/

/-- Reads on after `+`. -/
def afterPlus : List Char → Reading
  | '+' :: _ => .token .increment 2
  | cs => orAssign 1 .add .addAssign cs

/-- Reads on after `-`. -/
def afterMinus : List Char → Reading
  | '-' :: _ => .token .decrement 2
  | cs => orAssign 1 .sub .subAssign cs

/-- Reads on after `*`. -/
def afterStar : List Char → Reading
  | '*' :: cs => orAssign 2 .exponent .exponentAssign cs
  | cs => orAssign 1 .multiply .mulAssign cs

/-- Reads on after `<`. -/
def afterLess : List Char → Reading
  | '<' :: cs => orAssign 2 .leftShift .leftShiftAssign cs
  | cs => orAssign 1 .lessThan .lessThanOrEqual cs

/-- Reads on after `>`. -/
def afterGreater : List Char → Reading
  | '>' :: '>' :: cs => orAssign 3 .unsignedRightShift .unsignedRightShiftAssign cs
  | '>' :: cs => orAssign 2 .rightShift .rightShiftAssign cs
  | cs => orAssign 1 .greaterThan .greaterThanOrEqual cs

/-- Reads on after `=`. -/
def afterEquals : List Char → Reading
  | '>' :: _ => .token .arrow 2
  | '=' :: cs => orAssign 2 .equal .strictEqual cs
  | _ => .token .assign 1

/-- Reads on after `!`. -/
def afterBang : List Char → Reading
  | '=' :: cs => orAssign 2 .notEqual .strictNotEqual cs
  | _ => .token .not 1

/-- Reads on after `&`. -/
def afterAmpersand : List Char → Reading
  | '&' :: cs => orAssign 2 .logicalAnd .logicalAndAssign cs
  | cs => orAssign 1 .and .andAssign cs

/-- Reads on after `|`. -/
def afterBar : List Char → Reading
  | '|' :: cs => orAssign 2 .logicalOr .logicalOrAssign cs
  | cs => orAssign 1 .or .orAssign cs

/-- Reads on after `?`. -/
def afterQuestion : List Char → Reading
  | '?' :: cs => orAssign 2 .nullishCoalescing .nullishAssign cs
  | '.' :: cs => if cs.head?.any isDecimalDigit then .token .questionMark 1
    else .token .optionalChaining 2
  | _ => .token .questionMark 1

/-- Reads on after `.`. -/
def afterPoint : List Char → Reading
  | '.' :: '.' :: _ => .token .ellipsis 3
  | '.' :: _ => .malformed 2
  | _ => .token .period 1

/-- Reads a punctuator. -/
def punctuator : List Char → Reading
  | [] => .malformed 0
  | '\x7b' :: _ => .token .leftBrace 1
  | '\x7d' :: _ => .token .rightBrace 1
  | '(' :: _ => .token .leftParen 1
  | ')' :: _ => .token .rightParen 1
  | '[' :: _ => .token .leftBracket 1
  | ']' :: _ => .token .rightBracket 1
  | ';' :: _ => .token .semicolon 1
  | ',' :: _ => .token .comma 1
  | ':' :: _ => .token .colon 1
  | '~' :: _ => .token .tilde 1
  | '.' :: cs => afterPoint cs
  | '+' :: cs => afterPlus cs
  | '-' :: cs => afterMinus cs
  | '*' :: cs => afterStar cs
  | '/' :: cs => orAssign 1 .quotient .quoAssign cs
  | '%' :: cs => orAssign 1 .remainder .remAssign cs
  | '<' :: cs => afterLess cs
  | '>' :: cs => afterGreater cs
  | '=' :: cs => afterEquals cs
  | '!' :: cs => afterBang cs
  | '&' :: cs => afterAmpersand cs
  | '|' :: cs => afterBar cs
  | '^' :: cs => orAssign 1 .xor .xorAssign cs
  | '?' :: cs => afterQuestion cs
  | _ :: _ => .malformed 1

end JsLexer.Lexeme
