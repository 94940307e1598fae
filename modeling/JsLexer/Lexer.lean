import JsLexer.Matcher.Builtin

/-!
Scanning a text into tokens.

Each step asks the matchers in order, and the first one that recognizes the text produces the next
token. A scan ends with the text, or with the first error; after that a lexer gives nothing more. A
matcher that recognizes the text but leaves the cursor where it was counts as an error.
-/

namespace JsLexer

/-- Whether a lexer still has something to give. -/
inductive Status
  | scanning | done | failed
deriving DecidableEq

/-- A scan in progress. -/
structure Lexer where
  matchers : List Matcher
  cursor : Cursor
  context : Context
  status : Status

namespace Lexer

/-- The scan of a text by the given matchers, before its first step. -/
def start (matchers : List Matcher) (cs : List Char) : Lexer :=
  ⟨matchers, .start cs, .initial, .scanning⟩

/-- Where the cursor stands. -/
def position (l : Lexer) : Position := l.cursor.position

/-- Whether the lexer gives nothing more. -/
def isFinished (l : Lexer) : Bool := l.status != .scanning

/-- The first matcher that recognizes the text at the cursor. -/
def matcherAhead (matchers : List Matcher) (s : Cursor) : Option Matcher :=
  matchers.find? (·.recognize s)

/-- Ends the scan with an error that leaves the cursor at `s`. -/
def fail (l : Lexer) (error : LexError) (s : Cursor) : Option (Except LexError Token) × Lexer :=
  (some (.error error), { l with cursor := s, status := .failed })

/-- The next token or the error that ends the scan; nothing once the scan is over. -/
def next (l : Lexer) : Option (Except LexError Token) × Lexer :=
  match l.status with
  | .done | .failed => (none, l)
  | .scanning =>
    match matcherAhead l.matchers l.cursor with
    | none =>
      match l.cursor.peek with
      | none => (none, { l with status := .done })
      | some c => l.fail (.unexpectedCharacter c l.cursor.position) l.cursor
    | some m =>
      match m.produce l.context l.cursor with
      | (.error error, s) => l.fail error s
      | (.ok token, s) =>
        if s.offset = l.cursor.offset then l.fail (.unexpectedToken m.name s.position) s
        else (some (.ok token), { l with cursor := s, context := ⟨some token⟩ })

/-- The lexer after `steps` steps. -/
def advance : Nat → Lexer → Lexer
  | 0, l => l
  | steps + 1, l => advance steps l.next.2

/-- The outcome of at most `steps` steps. If they run out before the end of the scan, these are the
tokens so far. -/
def collect : Nat → Lexer → Except ScanFailure (List Token)
  | 0, _ => .ok []
  | steps + 1, l =>
    match l.next with
    | (none, _) => .ok []
    | (some (.error error), _) => .error ⟨[], error⟩
    | (some (.ok token), l') =>
      match collect steps l' with
      | .ok tokens => .ok (token :: tokens)
      | .error failure => .error ⟨token :: failure.tokens, failure.error⟩

/-- How many steps end a scan whose matchers only move forward: at most one for each code point
ahead, and one more to find the end. Matchers that step back may need more. -/
def enough (l : Lexer) : Nat := l.cursor.rest.length + 1

/-- The lexer after the scan has ended. -/
def finish (l : Lexer) : Lexer := l.advance l.enough

/-- All tokens to come, or the error that ends the scan and the tokens before it. This is the whole
scan if the matchers only move forward. Matchers that step back can use up the steps before the end
is found, or never find it; then these are the tokens of that many steps. -/
def remaining (l : Lexer) : Except ScanFailure (List Token) := l.collect l.enough

end Lexer

/-- The tokens of a text by the given matchers. -/
def tokenizeBy (matchers : List Matcher) (source : String) : Except ScanFailure (List Token) :=
  (Lexer.start matchers source.toList).remaining

/-- The tokens of a text by the given categories, in order of priority. -/
def tokenizeWith (categories : List Builtin) (source : String) : Except ScanFailure (List Token) :=
  tokenizeBy (categories.map (·.matcher)) source

/-- The tokens of a text by the standard categories. -/
def tokenize (source : String) : Except ScanFailure (List Token) :=
  tokenizeWith Builtin.standard source

end JsLexer
