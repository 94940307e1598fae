/-!
The kinds of tokens.

Every kind has a symbolic name that is stable across versions and unique, and belongs to exactly one
of four families: trivia (comments, white space, line terminators), names, literals and punctuators.
-/

namespace JsLexer

/-- What a token is. -/
inductive TokenKind
  | singleLineComment | multiLineComment
  | lineFeed | carriageReturn | lineSeparator | paragraphSeparator
  | tab | verticalTab | formFeed | space | noBreakSpace | zeroWidthNoBreakSpace | otherSpace
  | identifierName
  | int | binary | octal | hex | float | string | trueLiteral | falseLiteral | nullLiteral
  | add | sub | multiply | quotient | remainder | exponent | increment | decrement
  | and | or | xor | tilde | leftShift | rightShift | unsignedRightShift
  | logicalAnd | logicalOr | not | nullishCoalescing
  | equal | strictEqual | notEqual | strictNotEqual | lessThan | greaterThan | lessThanOrEqual
  | greaterThanOrEqual
  | assign | addAssign | subAssign | mulAssign | quoAssign | remAssign | exponentAssign
  | andAssign | orAssign | xorAssign | leftShiftAssign | rightShiftAssign
  | unsignedRightShiftAssign | logicalAndAssign | logicalOrAssign | nullishAssign
  | leftParen | rightParen | leftBracket | rightBracket | leftBrace | rightBrace | comma | period
  | ellipsis | semicolon | colon | questionMark | optionalChaining | arrow
deriving DecidableEq

namespace TokenKind

/-- Every kind, in the order of declaration. -/
def all : List TokenKind :=
  [
    .singleLineComment, .multiLineComment, .lineFeed, .carriageReturn, .lineSeparator,
    .paragraphSeparator, .tab, .verticalTab, .formFeed, .space, .noBreakSpace,
    .zeroWidthNoBreakSpace, .otherSpace, .identifierName, .int, .binary, .octal, .hex, .float,
    .string, .trueLiteral, .falseLiteral, .nullLiteral, .add, .sub, .multiply, .quotient,
    .remainder, .exponent, .increment, .decrement, .and, .or, .xor, .tilde, .leftShift,
    .rightShift, .unsignedRightShift, .logicalAnd, .logicalOr, .not, .nullishCoalescing,
    .equal, .strictEqual, .notEqual, .strictNotEqual, .lessThan, .greaterThan,
    .lessThanOrEqual, .greaterThanOrEqual, .assign, .addAssign, .subAssign, .mulAssign,
    .quoAssign, .remAssign, .exponentAssign, .andAssign, .orAssign, .xorAssign,
    .leftShiftAssign, .rightShiftAssign, .unsignedRightShiftAssign, .logicalAndAssign,
    .logicalOrAssign, .nullishAssign, .leftParen, .rightParen, .leftBracket, .rightBracket,
    .leftBrace, .rightBrace, .comma, .period, .ellipsis, .semicolon, .colon, .questionMark,
    .optionalChaining, .arrow
  ]

/-- The symbolic name of a kind. -/
def name : TokenKind → String
  | .singleLineComment => "SINGLE_LINE_COMMENT"
  | .multiLineComment => "MULTI_LINE_COMMENT"
  | .lineFeed => "LINE_FEED"
  | .carriageReturn => "CARRIAGE_RETURN"
  | .lineSeparator => "LINE_SEPARATOR"
  | .paragraphSeparator => "PARAGRAPH_SEPARATOR"
  | .tab => "CHARACTER_TABULATION"
  | .verticalTab => "LINE_TABULATION"
  | .formFeed => "FORM_FEED"
  | .space => "SPACE"
  | .noBreakSpace => "NO_BREAK_SPACE"
  | .zeroWidthNoBreakSpace => "ZERO_WIDTH_NO_BREAK_SPACE"
  | .otherSpace => "OTHER_SPACE"
  | .identifierName => "IDENTIFIER_NAME"
  | .int => "INT"
  | .binary => "BINARY"
  | .octal => "OCTAL"
  | .hex => "HEX"
  | .float => "FLOAT"
  | .string => "STRING"
  | .trueLiteral => "TRUE"
  | .falseLiteral => "FALSE"
  | .nullLiteral => "NULL"
  | .add => "ADD"
  | .sub => "SUB"
  | .multiply => "MULTIPLY"
  | .quotient => "QUOTIENT"
  | .remainder => "REMAINDER"
  | .exponent => "EXPONENT"
  | .increment => "INCREMENT"
  | .decrement => "DECREMENT"
  | .and => "AND"
  | .or => "OR"
  | .xor => "XOR"
  | .tilde => "TILDE"
  | .leftShift => "LEFT_SHIFT"
  | .rightShift => "RIGHT_SHIFT"
  | .unsignedRightShift => "UNSIGNED_RIGHT_SHIFT"
  | .logicalAnd => "LOGICAL_AND"
  | .logicalOr => "LOGICAL_OR"
  | .not => "NOT"
  | .nullishCoalescing => "NULLISH_COALESCING"
  | .equal => "EQUAL"
  | .strictEqual => "STRICT_EQUAL"
  | .notEqual => "NOT_EQUAL"
  | .strictNotEqual => "STRICT_NOT_EQUAL"
  | .lessThan => "LESS_THAN"
  | .greaterThan => "GREATER_THAN"
  | .lessThanOrEqual => "LESS_THAN_OR_EQUAL"
  | .greaterThanOrEqual => "GREATER_THAN_OR_EQUAL"
  | .assign => "ASSIGN"
  | .addAssign => "ADD_ASSIGN"
  | .subAssign => "SUB_ASSIGN"
  | .mulAssign => "MUL_ASSIGN"
  | .quoAssign => "QUO_ASSIGN"
  | .remAssign => "REM_ASSIGN"
  | .exponentAssign => "EXPONENT_ASSIGN"
  | .andAssign => "AND_ASSIGN"
  | .orAssign => "OR_ASSIGN"
  | .xorAssign => "XOR_ASSIGN"
  | .leftShiftAssign => "LEFT_SHIFT_ASSIGN"
  | .rightShiftAssign => "RIGHT_SHIFT_ASSIGN"
  | .unsignedRightShiftAssign => "UNSIGNED_RIGHT_SHIFT_ASSIGN"
  | .logicalAndAssign => "LOGICAL_AND_ASSIGN"
  | .logicalOrAssign => "LOGICAL_OR_ASSIGN"
  | .nullishAssign => "NULLISH_ASSIGN"
  | .leftParen => "LEFT_PAREN"
  | .rightParen => "RIGHT_PAREN"
  | .leftBracket => "LEFT_BRACKET"
  | .rightBracket => "RIGHT_BRACKET"
  | .leftBrace => "LEFT_BRACE"
  | .rightBrace => "RIGHT_BRACE"
  | .comma => "COMMA"
  | .period => "PERIOD"
  | .ellipsis => "ELLIPSIS"
  | .semicolon => "SEMICOLON"
  | .colon => "COLON"
  | .questionMark => "QUESTION_MARK"
  | .optionalChaining => "OPTIONAL_CHAINING"
  | .arrow => "ARROW"

/-- The kind of a given name. -/
def ofName? (s : String) : Option TokenKind := all.find? (·.name == s)

/-- The place of a kind in the order of declaration. -/
def index (k : TokenKind) : Nat := all.idxOf k

/-- No kind is missing from the list. -/
theorem mem_all (k : TokenKind) : k ∈ all := by cases k <;> decide

/-- No two kinds share a name. -/
theorem ofName?_name (k : TokenKind) : ofName? k.name = some k := by cases k <;> decide

/-! ### Families -/

/-- Both kinds of comment. -/
def isComment : TokenKind → Bool
  | .singleLineComment | .multiLineComment => true
  | _ => false

/-- The white space within a line. -/
def isWhitespace : TokenKind → Bool
  | .tab | .verticalTab | .formFeed | .space | .noBreakSpace | .zeroWidthNoBreakSpace
  | .otherSpace => true
  | _ => false

/-- The four line terminators. -/
def isLineTerminator : TokenKind → Bool
  | .lineFeed | .carriageReturn | .lineSeparator | .paragraphSeparator => true
  | _ => false

/-- What carries no meaning for a program: comments, white space and line terminators. -/
def isTrivia (k : TokenKind) : Bool := k.isComment || k.isWhitespace || k.isLineTerminator

/-- The numbers of every notation. -/
def isNumeric : TokenKind → Bool
  | .int | .binary | .octal | .hex | .float => true
  | _ => false

/-- Numbers, strings and the three words that stand for values. -/
def isLiteral (k : TokenKind) : Bool :=
  k.isNumeric || match k with
    | .string | .trueLiteral | .falseLiteral | .nullLiteral => true
    | _ => false

/-- Operators and brackets: all that is no trivia, no literal and no name. -/
def isPunctuator (k : TokenKind) : Bool := !k.isTrivia && !k.isLiteral && k != .identifierName

end TokenKind

end JsLexer
