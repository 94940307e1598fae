import JsLexer.Position
import JsLexer.Token.Kind

/-!
Tokens: a kind, the exact text that was read, and the places where it starts and ends.
-/

namespace JsLexer

/-- A piece of source text that has been given a kind. -/
structure Token where
  kind : TokenKind
  /-- The source text, verbatim. -/
  text : String
  /-- Where the text starts. -/
  start : Position
  /-- Where the text ends, exclusive. -/
  stop : Position
deriving DecidableEq

end JsLexer
