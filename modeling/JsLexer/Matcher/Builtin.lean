import JsLexer.Lexeme.Blank
import JsLexer.Lexeme.Comment
import JsLexer.Lexeme.Keyword
import JsLexer.Lexeme.Name
import JsLexer.Lexeme.Numeral
import JsLexer.Lexeme.Punctuator
import JsLexer.Lexeme.StringLiteral
import JsLexer.Matcher

/-!
The ten categories of the language, as matchers.

Each category is known by what it recognizes ahead and by its reading of the text ahead; the matcher
lets the cursor pass what was read. The standard order has comments before punctuators and the words
that are literals before names, because the first matcher that recognizes the text gets it.
-/

namespace JsLexer

/-- The categories of the language. -/
inductive Builtin
  | whitespace | lineTerminator | singleLineComment | multiLineComment
  | boolean | null | identifierName | numeral | string | punctuator
deriving DecidableEq

namespace Builtin

/-- Every category, in the standard order. -/
def standard : List Builtin :=
  [.whitespace, .lineTerminator, .singleLineComment, .multiLineComment, .boolean, .null,
    .identifierName, .numeral, .string, .punctuator]

/-- The name of a category in settings and messages. -/
def name : Builtin → String
  | .whitespace => "whitespace"
  | .lineTerminator => "line-terminator"
  | .singleLineComment => "single-line-comment"
  | .multiLineComment => "multi-line-comment"
  | .boolean => "boolean"
  | .null => "null"
  | .identifierName => "identifier-name"
  | .numeral => "numeral"
  | .string => "string"
  | .punctuator => "punctuator"

/-- The category of a given name. -/
def ofName? (s : String) : Option Builtin := standard.find? (·.name == s)

/-- No category is missing from the standard order. -/
theorem mem_standard (b : Builtin) : b ∈ standard := by cases b <;> decide

/-- No two categories share a name. -/
theorem ofName?_name (b : Builtin) : ofName? b.name = some b := by cases b <;> decide

/-- Whether the category starts with the text ahead. -/
def recognizes : Builtin → List Char → Bool
  | .whitespace, cs => cs.head?.any isWhitespace
  | .lineTerminator, cs => cs.head?.any isLineTerminator
  | .singleLineComment, cs => Lexeme.singleLineCommentAhead cs
  | .multiLineComment, cs => Lexeme.multiLineCommentAhead cs
  | .boolean, cs => Lexeme.booleanAhead cs
  | .null, cs => Lexeme.nullAhead cs
  | .identifierName, cs => Lexeme.nameAhead cs
  | .numeral, cs => Lexeme.numeralAhead cs
  | .string, cs => Lexeme.stringAhead cs
  | .punctuator, cs => Lexeme.punctuatorAhead cs

/-- What the category makes of the text ahead. -/
def read : Builtin → List Char → Reading
  | .whitespace => Lexeme.whitespace
  | .lineTerminator => Lexeme.lineTerminator
  | .singleLineComment => Lexeme.singleLineComment
  | .multiLineComment => Lexeme.multiLineComment
  | .boolean => Lexeme.boolean
  | .null => Lexeme.null
  | .identifierName => Lexeme.name
  | .numeral => Lexeme.numeral
  | .string => Lexeme.string
  | .punctuator => Lexeme.punctuator

/-- The token or error that a reading amounts to, for a cursor that has passed what was read. -/
def outcome (b : Builtin) (m : Mark) (s : Cursor) : Reading → Except LexError Token
  | .token kind _ => .ok (m.token kind s)
  | .malformed _ => .error (.unexpectedToken b.name s.position)
  | .openString _ => .error (.unterminatedString m.position s.position)
  | .openComment _ => .error (.unterminatedComment m.position s.position)

/-- Reads the text ahead and passes it. -/
def produce (b : Builtin) (ctx : Context) (s : Cursor) : Except LexError Token × Cursor :=
  let reading := b.read s.rest
  let stop := s.skip reading.length
  (b.outcome (.here ctx s) stop reading, stop)

/-- The category as a matcher. -/
def matcher (b : Builtin) : Matcher where
  name := b.name
  recognize s := b.recognizes s.rest
  produce := b.produce

/-! ### Settings by name -/

/-- The categories of the given names, each trimmed of blanks; an error is the first unknown one. -/
def ofNames : List String → Except String (List Builtin)
  | [] => .ok []
  | s :: rest =>
    let trimmed := String.ofList (Text.trim s.toList)
    match ofName? trimmed with
    | none => .error trimmed
    | some b => (ofNames rest).map (b :: ·)

/-- The wording for a name that no category has. -/
def unknownName (s : String) : String := "unknown matcher '" ++ s ++ "'"

end Builtin

end JsLexer
