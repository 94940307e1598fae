import JsLexer.Lexeme.Keyword
import JsLexer.Lexeme.Name
import JsLexer.Lexeme.Numeral

/-!
Where tokens end.

A token is as long as its kind allows, so what follows it decides whether it ends there. How a token
can end depends on its kind, on at most two code points behind it, and never on anything further: a
name ends before whatever does not continue it, a number with a letter for its base ends before a
separator only, a punctuator before whatever does not make it a longer one. Every token ends at the
end of input.
-/

namespace JsLexer

theorem Reading.after_eq_token {n m : Nat} {k : TokenKind} {r : Reading} :
    r.after n = .token k m ↔ ∃ l, r = .token k l ∧ m = n + l := by
  cases r <;> simp [after, and_assoc, eq_comm]

theorem Reading.after_eq_malformed {n m : Nat} {r : Reading} :
    r.after n = .malformed m ↔ ∃ l, r = .malformed l ∧ m = n + l := by
  cases r <;> simp [after, eq_comm]

theorem Reading.after_eq_openString {n m : Nat} {r : Reading} :
    r.after n = .openString m ↔ ∃ l, r = .openString l ∧ m = n + l := by
  cases r <;> simp [after, eq_comm]

namespace TokenKind

/-- The code points that make a longer punctuator of one of this kind. The point behind a question
mark is not among them, as it depends on what follows it. -/
def extenders : TokenKind → List Char
  | .add => ['+', '=']
  | .sub => ['-', '=']
  | .multiply => ['*', '=']
  | .lessThan => ['<', '=']
  | .greaterThan | .rightShift => ['>', '=']
  | .assign => ['>', '=']
  | .and => ['&', '=']
  | .or => ['|', '=']
  | .questionMark => ['?']
  | .period => ['.']
  | .exponent | .quotient | .remainder | .leftShift | .unsignedRightShift | .equal | .not
  | .notEqual | .logicalAnd | .logicalOr | .xor | .nullishCoalescing => ['=']
  | _ => []

/-- Whether a token of this kind and text ends there, if the given text follows. -/
def endsBefore (k : TokenKind) (w : List Char) : List Char → Bool
  | [] => true
  | c :: cs =>
    match k with
    | .singleLineComment => JsLexer.isLineTerminator c
    | .carriageReturn => w != ['\r'] || c != '\n'
    | .identifierName => !(Lexeme.escapeAhead (c :: cs) || isNamePart c)
    | .trueLiteral | .falseLiteral | .nullLiteral => !Lexeme.continuesWord c
    | .binary | .octal | .hex => isSeparator c
    | .int => c != '.' && !Lexeme.runsIntoNumber c
    | .float => !Lexeme.runsIntoNumber c
    | .questionMark => c != '?' && (c != '.' || cs.head?.any isDecimalDigit)
    | .optionalChaining => !isDecimalDigit c
    | k => !k.extenders.contains c

/-- Only a carriage return has two texts that end differently. -/
theorem endsBefore_congr {k : TokenKind} (hk : k ≠ .carriageReturn) (w w' r : List Char) :
    k.endsBefore w r = k.endsBefore w' r := by
  cases r with
  | nil => rfl
  | cons c cs => cases k <;> first | rfl | exact absurd rfl hk

@[simp]
theorem endsBefore_nil (k : TokenKind) (w : List Char) : k.endsBefore w [] = true := rfl

end TokenKind

end JsLexer
