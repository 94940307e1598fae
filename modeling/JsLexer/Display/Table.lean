import JsLexer.Display.Ansi
import JsLexer.LexError

/-!
Tokens as rows of a table.

A row holds where the token starts and ends, the name of its kind, and its text between quotes, in
the colour of its family. Quoting keeps every row on one line.
-/

namespace JsLexer.Display

/-- A text in the colour of a kind. -/
def paint (kind : TokenKind) (text : String) : String :=
  if kind.isComment then Style.italic.apply (Style.brightBlack.apply text)
  else if kind.isTrivia then text
  else if kind.isNumeric then Style.yellow.apply text
  else if kind = .string then Style.green.apply text
  else if kind.isLiteral then Style.blue.apply text
  else if kind.isPunctuator then Style.cyan.apply text
  else text

/-- Where a token starts and ends. -/
def span (t : Token) : String :=
  s!"{t.start.line}:{t.start.column}-{t.stop.line}:{t.stop.column}"

/-- The row of a token. -/
def row (t : Token) : String :=
  Style.dimmed.apply (padLeft 14 (span t)) ++ "  " ++ padRight 30 t.kind.name ++ "  " ++
    paint t.kind (Text.quoted t.text)

/-- The tokens that are shown: all of them, or all but trivia. -/
def visible (trivia : Bool) (ts : List Token) : List Token :=
  ts.filter fun t => trivia || !t.kind.isTrivia

/-- The rows of tokens, each ended by a line feed. -/
def table (ts : List Token) : String := String.join (ts.map fun t => row t ++ "\n")

/-- The heading of an error. -/
def errorLabel (text : String) : String := Style.bold.apply (Style.red.apply text)

/-- The line that reports an error. -/
def errorLine (e : LexError) : String :=
  errorLabel (if e.isUnterminated then "Unterminated" else "SyntaxError") ++ ": " ++ e.message ++
    "\n"

end JsLexer.Display
