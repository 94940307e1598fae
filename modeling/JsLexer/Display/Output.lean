import JsLexer.Display.Table
import JsLexer.Lexer
import JsLexer.Token.Interchange

/-!
What a run prints: results on one channel and errors on the other.

Tokens are printed as a table or as JSON, with or without trivia. A scan that failed prints the rows
of the tokens before the error, and in JSON nothing but the error.
-/

namespace JsLexer

/-- What is printed on the two channels. -/
structure Output where
  out : String
  err : String
deriving DecidableEq

namespace Output

/-- Nothing. -/
def empty : Output := ⟨"", ""⟩

/-- A text among the results. -/
def ofOut (text : String) : Output := ⟨text, ""⟩

/-- A text among the errors. -/
def ofErr (text : String) : Output := ⟨"", text⟩

/-- One output after the other. -/
instance : Append Output where
  append a b := ⟨a.out ++ b.out, a.err ++ b.err⟩

/-- Several outputs in order. -/
def join : List Output → Output
  | [] => empty
  | a :: rest => a ++ join rest

end Output

namespace Display

/-- How tokens are printed. -/
structure Format where
  json : Bool
  trivia : Bool
deriving DecidableEq

/-- The text of tokens in a format. -/
def tokens (f : Format) (ts : List Token) : String :=
  let shown := visible f.trivia ts
  if f.json then Token.listToJson shown ++ "\n" else table shown

/-- The output of a scan that failed. -/
def failure (f : Format) (x : ScanFailure) : Output :=
  ⟨if f.json then "" else table (visible f.trivia x.tokens), errorLine x.error⟩

/-- The output of a scan. -/
def scan (f : Format) : Except ScanFailure (List Token) → Output
  | .ok ts => .ofOut (tokens f ts)
  | .error x => failure f x

/-- The label of errors that are not about source text. -/
def plainErrorLabel : String := errorLabel "Error"

/-- The line that reports some error. -/
def plainErrorLine (message : String) : String := plainErrorLabel ++ ": " ++ message ++ "\n"

end Display

end JsLexer
