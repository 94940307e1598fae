/-!
Sets of code points, as tables of ranges.

A table is a list of rows in ascending order, each a list of inclusive ranges in ascending order
together with the last code point the row reaches. A lookup walks to the first row that reaches far
enough and searches that row only, so it takes about the square root of the number of ranges.
-/

namespace JsLexer.Text

/-- Inclusive ranges of code points in ascending order, in rows led by their last code point. -/
abbrev RangeTable := List (Nat × List (Nat × Nat))

namespace RangeTable

/-- Whether some range of an ascending row holds `n`. -/
def rowHas (n : Nat) : List (Nat × Nat) → Bool
  | [] => false
  | (first, last) :: ranges => if n < first then false else n ≤ last || rowHas n ranges

/-- Whether some range of the table holds `n`. -/
def has (n : Nat) : RangeTable → Bool
  | [] => false
  | (last, ranges) :: rows => if n ≤ last then rowHas n ranges else has n rows

end RangeTable

end JsLexer.Text
