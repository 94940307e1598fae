import JsLexer.CharClass
import JsLexer.Lexeme.Reading

/-!
Comments. One that starts with two slashes runs up to the line terminator, which stays outside. One
that starts with a slash and a star runs up to the first star and slash behind that, over any
number of lines, and stays open if there is none.
-/

namespace JsLexer.Lexeme

/-- Whether two slashes are ahead. -/
def singleLineCommentAhead : List Char → Bool
  | '/' :: '/' :: _ => true
  | _ => false

/-- Reads a comment up to the end of the line. -/
def singleLineComment : List Char → Reading
  | '/' :: '/' :: cs => .token .singleLineComment (2 + runLength (!isLineTerminator ·) cs)
  | '/' :: _ => .malformed 1
  | _ => .malformed 0

/-- Whether a slash and a star are ahead. -/
def multiLineCommentAhead : List Char → Bool
  | '/' :: '*' :: _ => true
  | _ => false

/-- Reads the rest of a comment through the first star and slash. -/
def commentBody : List Char → Reading
  | [] => .openComment 0
  | '*' :: '/' :: _ => .token .multiLineComment 2
  | _ :: cs => (commentBody cs).after 1

/-- Reads a comment that a star and a slash close. -/
def multiLineComment : List Char → Reading
  | '/' :: '*' :: cs => (commentBody cs).after 2
  | '/' :: _ => .malformed 1
  | _ => .malformed 0

end JsLexer.Lexeme
