import JsLexer.Text.RangeTable

/-!
Blank text: the code points with the property White_Space, and what trimming them leaves.
-/

namespace JsLexer.Text

/-- The code points with the property White_Space. -/
def blankRanges : List (Nat × Nat) :=
  [(0x9, 0xD), (0x20, 0x20), (0x85, 0x85), (0xA0, 0xA0), (0x1680, 0x1680), (0x2000, 0x200A),
    (0x2028, 0x2029), (0x202F, 0x202F), (0x205F, 0x205F), (0x3000, 0x3000)]

/-- Whether `c` has the property White_Space. -/
def isBlank (c : Char) : Bool := RangeTable.rowHas c.toNat blankRanges

/-- `cs` without the blank code points it starts with. -/
def trimStart (cs : List Char) : List Char := cs.dropWhile isBlank

/-- `cs` without the blank code points it ends with. -/
def trimEnd (cs : List Char) : List Char := (cs.reverse.dropWhile isBlank).reverse

/-- `cs` without the blank code points at either end. -/
def trim (cs : List Char) : List Char := trimEnd (trimStart cs)

/-- The pieces of `cs` between the code points that satisfy `p`; always at least one piece. -/
def splitWhere (p : Char → Bool) : List Char → List (List Char)
  | [] => [[]]
  | c :: cs =>
    if p c then [] :: splitWhere p cs
    else match splitWhere p cs with
      | [] => [[c]]
      | piece :: pieces => (c :: piece) :: pieces

/-- There is always a piece. -/
theorem splitWhere_ne_nil (p : Char → Bool) (cs : List Char) : splitWhere p cs ≠ [] := by
  cases cs with
  | nil => simp [splitWhere]
  | cons c cs => unfold splitWhere; split <;> (try split) <;> simp

end JsLexer.Text
