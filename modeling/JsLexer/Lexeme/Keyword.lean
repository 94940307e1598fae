import JsLexer.CharClass
import JsLexer.Lexeme.Reading

/-!
The words that are literals: `true`, `false` and `null`.

Such a word is claimed only where it stands whole, so `nullable` and an escaped continuation such as
`null\u0061` stay names.
-/

namespace JsLexer.Lexeme

/-- The word `true`. -/
def trueWord : List Char := ['t', 'r', 'u', 'e']

/-- The word `false`. -/
def falseWord : List Char := ['f', 'a', 'l', 's', 'e']

/-- The word `null`. -/
def nullWord : List Char := ['n', 'u', 'l', 'l']

/-- Whether `c` would continue a word: a backslash may start an escape. -/
def continuesWord (c : Char) : Bool := c == '\\' || isNamePart c

/-- Whether `word` stands ahead as a whole word. -/
def wordAhead (word cs : List Char) : Bool :=
  word.isPrefixOf cs && !(cs[word.length]?.any continuesWord)

/-- Reads exactly `word`. -/
def word (kind : TokenKind) (word cs : List Char) : Reading :=
  if word.isPrefixOf cs then .token kind word.length
  else .malformed (min word.length cs.length)

/-- Whether `true` or `false` stands ahead. -/
def booleanAhead (cs : List Char) : Bool := wordAhead trueWord cs || wordAhead falseWord cs

/-- Reads `true` if it is ahead, and otherwise takes the text for `false`. -/
def boolean (cs : List Char) : Reading :=
  if trueWord.isPrefixOf cs then word .trueLiteral trueWord cs else word .falseLiteral falseWord cs

/-- Whether `null` stands ahead. -/
def nullAhead (cs : List Char) : Bool := wordAhead nullWord cs

/-- Reads `null`. -/
def null (cs : List Char) : Reading := word .nullLiteral nullWord cs

end JsLexer.Lexeme
