import JsLexer.Matcher.Builtin
import JsLexer.Proofs.Numeral
import JsLexer.Proofs.Punctuator
import JsLexer.Proofs.StringLiteral
import JsLexer.Proofs.Word

/-!
The grammar of tokens.

A category accepts certain texts, each with a kind, and a kind says what may follow the text. These
two together are exactly what makes a category recognize a text and read a token from it: the text
itself, and two code points behind it at most.
-/

namespace JsLexer

/-- The category that has the texts of a kind. -/
def TokenKind.category : TokenKind → Builtin
  | .tab | .verticalTab | .formFeed | .space | .noBreakSpace | .zeroWidthNoBreakSpace
  | .otherSpace => .whitespace
  | .lineFeed | .carriageReturn | .lineSeparator | .paragraphSeparator => .lineTerminator
  | .singleLineComment => .singleLineComment
  | .multiLineComment => .multiLineComment
  | .trueLiteral | .falseLiteral => .boolean
  | .nullLiteral => .null
  | .identifierName => .identifierName
  | .int | .binary | .octal | .hex | .float => .numeral
  | .string => .string
  | _ => .punctuator

namespace Builtin

/-- The texts of a category, by kind. -/
def Accepts : Builtin → TokenKind → List Char → Prop
  | .whitespace, k, w => Lexeme.IsWhitespace k w
  | .lineTerminator, k, w => (k, w) ∈ Lexeme.lineBreaks
  | .singleLineComment, k, w => k = .singleLineComment ∧ Lexeme.IsSingleLineComment w
  | .multiLineComment, k, w => k = .multiLineComment ∧ Lexeme.IsMultiLineComment w
  | .boolean, k, w =>
    k = .trueLiteral ∧ w = Lexeme.trueWord ∨ k = .falseLiteral ∧ w = Lexeme.falseWord
  | .null, k, w => k = .nullLiteral ∧ w = Lexeme.nullWord
  | .identifierName, k, w => k = .identifierName ∧ Lexeme.IsName w
  | .numeral, k, w => Lexeme.IsNumeral k w
  | .string, k, w => k = .string ∧ Lexeme.IsString w
  | .punctuator, k, w => w = k.spelling ∧ k.spelling ≠ []

/-- What a category takes is a text of its own, and ends there. -/
theorem accepts_of_read {b : Builtin} {k : TokenKind} {n : Nat} {cs : List Char}
    (hahead : b.recognizes cs = true) (h : b.read cs = .token k n) :
    ∃ w r, cs = w ++ r ∧ n = w.length ∧ b.Accepts k w ∧ k.endsBefore w r = true := by
  cases b with
  | whitespace => exact Lexeme.whitespace_sound h
  | lineTerminator => exact Lexeme.lineTerminator_sound h
  | singleLineComment => exact Lexeme.singleLineComment_sound h
  | multiLineComment => exact Lexeme.multiLineComment_sound h
  | boolean => exact Lexeme.boolean_sound hahead h
  | null => exact Lexeme.null_sound hahead h
  | identifierName => exact Lexeme.name_sound h
  | numeral => exact Lexeme.numeral_sound hahead h
  | string => exact Lexeme.string_sound hahead h
  | punctuator =>
    obtain ⟨r, hcs, hn, hne, hr⟩ := Lexeme.punctuator_sound h
    exact ⟨k.spelling, r, hcs, hn, ⟨rfl, hne⟩, hr⟩

/-- A category takes each text of its own that ends there. -/
theorem Accepts.read {b : Builtin} {k : TokenKind} {w r : List Char} (h : b.Accepts k w)
    (hr : k.endsBefore w r = true) :
    b.recognizes (w ++ r) = true ∧ b.read (w ++ r) = .token k w.length := by
  cases b with
  | whitespace =>
    refine ⟨?_, Lexeme.whitespace_complete h r⟩
    obtain ⟨c, rfl, hc, -⟩ := h
    exact hc
  | lineTerminator =>
    refine ⟨?_, Lexeme.lineTerminator_complete h hr⟩
    rcases Lexeme.mem_lineBreaks.1 h with ⟨-, rfl⟩ | ⟨-, rfl⟩ | ⟨-, rfl⟩ | ⟨-, rfl⟩ | ⟨-, rfl⟩ <;>
      rfl
  | singleLineComment =>
    obtain ⟨rfl, h⟩ := h
    refine ⟨?_, Lexeme.singleLineComment_complete h hr⟩
    obtain ⟨v, rfl, -⟩ := h
    rfl
  | multiLineComment =>
    obtain ⟨rfl, h⟩ := h
    refine ⟨?_, Lexeme.multiLineComment_complete h r⟩
    obtain ⟨v, rfl, -⟩ := h
    rfl
  | boolean => exact Lexeme.boolean_complete h hr
  | null =>
    obtain ⟨rfl, rfl⟩ := h
    exact Lexeme.null_complete hr
  | identifierName =>
    obtain ⟨rfl, h⟩ := h
    refine ⟨?_, Lexeme.name_complete h hr⟩
    obtain ⟨u, v, rfl, hu, -⟩ := h
    cases hu with
    | plain hc => simp [recognizes, Lexeme.nameAhead, hc]
    | escaped he => simp [recognizes, Lexeme.nameAhead, Lexeme.escapeAhead]
  | numeral => exact Lexeme.numeral_complete h hr
  | string =>
    obtain ⟨rfl, h⟩ := h
    exact Lexeme.string_complete h r
  | punctuator =>
    obtain ⟨rfl, hne⟩ := h
    refine ⟨?_, Lexeme.punctuator_complete hne hr⟩
    cases k <;> first | rfl | exact absurd rfl hne

/-- No two categories have texts of the same kind. -/
theorem Accepts.eq_category {b : Builtin} {k : TokenKind} {w : List Char} (h : b.Accepts k w) :
    b = k.category := by
  cases b with
  | whitespace =>
    obtain ⟨c, -, -, rfl⟩ := h
    unfold Lexeme.whitespaceKind
    split <;> rfl
  | lineTerminator =>
    rcases Lexeme.mem_lineBreaks.1 h with ⟨rfl, -⟩ | ⟨rfl, -⟩ | ⟨rfl, -⟩ | ⟨rfl, -⟩ | ⟨rfl, -⟩ <;>
      rfl
  | boolean => rcases h with ⟨rfl, -⟩ | ⟨rfl, -⟩ <;> rfl
  | numeral =>
    rcases h with ⟨letter, isDigit, ds, -, hradix, -⟩ | ⟨whole, places, scale, -, -, -, -, -, rfl⟩
    · unfold Lexeme.radixOf at hradix
      split at hradix <;> cases hradix <;> rfl
    · split <;> rfl
  | punctuator =>
    obtain ⟨-, hne⟩ := h
    cases k <;> first | rfl | exact absurd rfl hne
  | singleLineComment | multiLineComment | null | identifierName | string =>
    obtain ⟨rfl, -⟩ := h
    rfl

/-- The first category that recognizes the text ahead. -/
def claimant (bs : List Builtin) (cs : List Char) : Option Builtin := bs.find? (·.recognizes cs)

theorem recognizes_nil (b : Builtin) : b.recognizes [] = false := by
  cases b <;> rfl

theorem ne_nil_of_recognizes {b : Builtin} {cs : List Char} (h : b.recognizes cs = true) :
    cs ≠ [] := by
  rintro rfl
  rw [recognizes_nil] at h
  simp at h

theorem Accepts.ne_nil {b : Builtin} {k : TokenKind} {w : List Char} (h : b.Accepts k w) :
    w ≠ [] := by
  rintro rfl
  have hahead := (h.read (r := []) rfl).1
  rw [List.append_nil, recognizes_nil] at hahead
  simp at hahead

end Builtin

end JsLexer
