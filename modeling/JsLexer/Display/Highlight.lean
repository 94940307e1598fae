import JsLexer.Display.Table
import JsLexer.Lexer

/-!
Source text in colours.

Every token is painted in the colour of its kind. What follows an error stays as it is, so that the
text without its colours is the source again.
-/

namespace JsLexer.Display

/-- The tokens that a scan produced, whether or not it came to the end. -/
def produced : Except ScanFailure (List Token) → List Token
  | .ok ts => ts
  | .error failure => failure.tokens

/-- How many code points tokens cover together. -/
def covered : List Token → Nat
  | [] => 0
  | t :: ts => t.text.length + covered ts

/-- A source with its tokens painted. -/
def highlight (matchers : List Matcher) (source : String) : String :=
  let ts := produced (tokenizeBy matchers source)
  String.join (ts.map fun t => paint t.kind t.text) ++
    String.ofList (source.toList.drop (covered ts))

/-- Whether a source stops inside a string or comment. -/
def isUnterminated (matchers : List Matcher) (source : String) : Bool :=
  match tokenizeBy matchers source with
  | .ok _ => false
  | .error failure => failure.error.isUnterminated

/-- A line as an editor shows it: a command as a whole, and source token by token. -/
def editorLine (matchers : List Matcher) (line : String) : String :=
  if (Text.trimStart line.toList).head? = some '.' then Style.magenta.apply line
  else highlight matchers line

end JsLexer.Display
