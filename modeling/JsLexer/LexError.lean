import JsLexer.Text.Quoted
import JsLexer.Token

/-!
Why a scan stops before the end of its text.

An error is either a text that breaks the grammar of a category that had claimed it, or a construct
that the end of input leaves open, or a code point that no category claims. A failed scan keeps the
tokens it had produced.
-/

namespace JsLexer

/-- The error that ends a scan. -/
inductive LexError
  /-- The matcher of this name claimed the text and then found it malformed. -/
  | unexpectedToken (matcher : String) (position : Position)
  /-- The input ended inside a string literal. -/
  | unterminatedString (start position : Position)
  /-- The input ended inside a multi-line comment. -/
  | unterminatedComment (start position : Position)
  /-- No matcher claimed the text at this code point. -/
  | unexpectedCharacter (char : Char) (position : Position)
deriving DecidableEq

namespace LexError

/-- Where the error was found. -/
def position : LexError → Position
  | .unexpectedToken _ p | .unterminatedString _ p | .unterminatedComment _ p
  | .unexpectedCharacter _ p => p

/-- Whether more input could complete the construct. -/
def isUnterminated : LexError → Bool
  | .unterminatedString .. | .unterminatedComment .. => true
  | .unexpectedToken .. | .unexpectedCharacter .. => false

/-- The wording of the error. -/
def message : LexError → String
  | .unexpectedToken matcher p => matcher ++ " : unexpected token at " ++ p.display
  | .unterminatedString start p =>
    "unterminated string literal starting at " ++ start.display ++
      " (input ends at " ++ p.display ++ ")"
  | .unterminatedComment start p =>
    "unterminated comment starting at " ++ start.display ++
      " (input ends at " ++ p.display ++ ")"
  | .unexpectedCharacter c p => "unexpected character " ++ Text.quotedChar c ++ " at " ++ p.display

end LexError

/-- An error, with the tokens that were produced before it. -/
structure ScanFailure where
  tokens : List Token
  error : LexError
deriving DecidableEq

/-- The wording of a failed scan. -/
def ScanFailure.message (f : ScanFailure) : String :=
  f.error.message ++ s!" (after {f.tokens.length} tokens)"

end JsLexer
