import JsLexer.Text.Blank
import JsLexer.Text.NameRanges

/-!
The classes of code points that the grammar of tokens speaks of.

White space and line terminators are disjoint and together separate tokens. Every code point that
starts a name also continues one, and so do the digits; no separator does either.
-/

namespace JsLexer

/-- Whether a name can start with `c`. -/
def isNameStart (c : Char) : Bool := Text.nameStarts.has c.toNat

/-- Whether a name can go on with `c`. -/
def isNamePart (c : Char) : Bool := isNameStart c || Text.nameExtenders.has c.toNat

/-- The four line terminators: line feed, carriage return, line and paragraph separator. -/
def isLineTerminator : Char → Bool
  | '\n' | '\r' | '\u2028' | '\u2029' => true
  | _ => false

/-- White space inside a line. The byte order mark counts although it is not White_Space. -/
def isWhitespace (c : Char) : Bool :=
  c == '\ufeff' || Text.isBlank c && !isLineTerminator c

/-- What stands between tokens and belongs to neither side. -/
def isSeparator (c : Char) : Bool := isWhitespace c || isLineTerminator c

/-- The digits `0` to `9`. -/
def isDecimalDigit (c : Char) : Bool := '0' ≤ c && c ≤ '9'

/-- The digits `0` and `1`. -/
def isBinaryDigit (c : Char) : Bool := c == '0' || c == '1'

/-- The digits `0` to `7`. -/
def isOctalDigit (c : Char) : Bool := '0' ≤ c && c ≤ '7'

/-- The value of a hexadecimal digit of either case. -/
def hexValue? (c : Char) : Option Nat :=
  if '0' ≤ c && c ≤ '9' then some (c.toNat - '0'.toNat)
  else if 'a' ≤ c && c ≤ 'f' then some (c.toNat - 'a'.toNat + 10)
  else if 'A' ≤ c && c ≤ 'F' then some (c.toNat - 'A'.toNat + 10)
  else none

/-- The hexadecimal digits of either case. -/
def isHexDigit (c : Char) : Bool := (hexValue? c).isSome

/-- What stands for one character after a backslash. The single quote is not of this kind. -/
def isSingleCharEscape : Char → Bool
  | '"' | 'b' | 'f' | 'n' | 'r' | 't' | 'v' | '\\' | '\u2019' => true
  | _ => false

/-- What has a meaning of its own after a backslash. -/
def isEscapeChar (c : Char) : Bool :=
  isSingleCharEscape c || isDecimalDigit c || c == 'x' || c == 'u'

/-- What stands for itself after a backslash. -/
def isNonEscapeChar (c : Char) : Bool := !isEscapeChar c

/-- The classes that a program can ask for by name. -/
inductive CharClass
  | nameStart | namePart | lineTerminator | whitespace | separator
  | decimalDigit | hexDigit | octalDigit | binaryDigit
  | singleCharEscape | escapeChar | nonEscapeChar
deriving DecidableEq

namespace CharClass

/-- Every class, in the order in which they are listed to a reader. -/
def all : List CharClass :=
  [nameStart, namePart, lineTerminator, whitespace, separator, decimalDigit, hexDigit, octalDigit,
    binaryDigit, singleCharEscape, escapeChar, nonEscapeChar]

/-- The name of a class. -/
def name : CharClass → String
  | nameStart => "id_start"
  | namePart => "id_continue"
  | lineTerminator => "line_terminator"
  | whitespace => "whitespace"
  | separator => "token_separator"
  | decimalDigit => "decimal_digit"
  | hexDigit => "hex_digit"
  | octalDigit => "octal_digit"
  | binaryDigit => "binary_digit"
  | singleCharEscape => "single_char_escape"
  | escapeChar => "escape_char"
  | nonEscapeChar => "non_escape_char"

/-- The class of a given name. -/
def ofName? (s : String) : Option CharClass := all.find? (·.name == s)

/-- Whether `c` belongs to a class. -/
def has : CharClass → Char → Bool
  | nameStart => isNameStart
  | namePart => isNamePart
  | lineTerminator => isLineTerminator
  | whitespace => isWhitespace
  | separator => isSeparator
  | decimalDigit => isDecimalDigit
  | hexDigit => isHexDigit
  | octalDigit => isOctalDigit
  | binaryDigit => isBinaryDigit
  | singleCharEscape => isSingleCharEscape
  | escapeChar => isEscapeChar
  | nonEscapeChar => isNonEscapeChar

/-- Whether `n` is a code point, not a surrogate, and belongs to `k`. -/
def hasCodePoint (k : CharClass) (n : Nat) : Bool := n.isValidChar && k.has (Char.ofNat n)

/-- The maximal inclusive runs of members of `k` among the `count` numbers from `first` on,
with `open?` the start of a run that reaches up to `first`. -/
def runsFrom (k : CharClass) (open? : Option Nat) (first : Nat) : Nat → List (Nat × Nat)
  | 0 => match open? with
    | some start => [(start, first - 1)]
    | none => []
  | count + 1 =>
    if k.hasCodePoint first then runsFrom k (some (open?.getD first)) (first + 1) count
    else match open? with
      | some start => (start, first - 1) :: runsFrom k none (first + 1) count
      | none => runsFrom k none (first + 1) count

/-- The maximal inclusive runs of members of `k` from `first` to `last`. -/
def runs (k : CharClass) (first last : Nat) : List (Nat × Nat) :=
  k.runsFrom none first (last + 1 - first)

end CharClass

end JsLexer
