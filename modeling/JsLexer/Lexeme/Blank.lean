import JsLexer.CharClass
import JsLexer.Lexeme.Reading

/-!
White space and line terminators: one code point to a token, except that a carriage return takes
the line feed after it along.
-/

namespace JsLexer.Lexeme

/-- The kind of a white space code point. -/
def whitespaceKind : Char → TokenKind
  | '\t' => .tab
  | '\x0b' => .verticalTab
  | '\x0c' => .formFeed
  | ' ' => .space
  | '\xa0' => .noBreakSpace
  | '\ufeff' => .zeroWidthNoBreakSpace
  | _ => .otherSpace

/-- Reads one code point of white space. -/
def whitespace : List Char → Reading
  | [] => .malformed 0
  | c :: _ => if isWhitespace c then .token (whitespaceKind c) 1 else .malformed 1

/-- Reads one line terminator; a carriage return and a line feed are one. -/
def lineTerminator : List Char → Reading
  | [] => .malformed 0
  | '\n' :: _ => .token .lineFeed 1
  | '\r' :: '\n' :: _ => .token .carriageReturn 2
  | '\r' :: _ => .token .carriageReturn 1
  | '\u2028' :: _ => .token .lineSeparator 1
  | '\u2029' :: _ => .token .paragraphSeparator 1
  | _ :: _ => .malformed 1

end JsLexer.Lexeme
