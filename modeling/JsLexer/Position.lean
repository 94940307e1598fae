import JsLexer.CharClass

/-!
Places in a text, counted in lines and columns.

A line terminator adds a line and starts the columns anew, and every other code point adds a column.
A carriage return with the line feed right after it is one line break, so a count in progress
remembers whether the last code point was a carriage return: this is a `Caret`.
-/

namespace JsLexer

/-- A place in a text: lines and columns before it, both counted from zero. -/
structure Position where
  line : Nat
  column : Nat
deriving DecidableEq

namespace Position

/-- The start of a text. -/
def origin : Position := ⟨0, 0⟩

/-- Positions are ordered by line, and within a line by column. -/
instance : Ord Position where
  compare a b := (compare a.line b.line).then (compare a.column b.column)

instance : LT Position where
  lt a b := a.line < b.line ∨ a.line = b.line ∧ a.column < b.column

instance (a b : Position) : Decidable (a < b) :=
  inferInstanceAs (Decidable (a.line < b.line ∨ a.line = b.line ∧ a.column < b.column))

/-- The later of two positions. -/
instance : Max Position where
  max a b := if a < b then b else a

/-- The wording of a position in messages. -/
def display (p : Position) : String := s!"line {p.line}: column {p.column}"

end Position

/-- A position reached by counting, and whether the last code point was a carriage return. -/
structure Caret where
  position : Position
  afterReturn : Bool
deriving DecidableEq

namespace Caret

/-- Before the first code point. -/
def start : Caret := ⟨.origin, false⟩

/-- Counts one code point; the line feed of a line break already counted adds nothing. -/
def step (k : Caret) (c : Char) : Caret :=
  if c = '\n' ∧ k.afterReturn then ⟨k.position, false⟩
  else if isLineTerminator c then ⟨⟨k.position.line + 1, 0⟩, c == '\r'⟩
  else ⟨⟨k.position.line, k.position.column + 1⟩, false⟩

/-- Counts a whole text. -/
def across (k : Caret) (cs : List Char) : Caret := cs.foldl step k

end Caret

/-- The position that a text starting at `p` ends at, counted on its own. -/
def Position.after (p : Position) (cs : List Char) : Position := (Caret.across ⟨p, false⟩ cs).position

end JsLexer
