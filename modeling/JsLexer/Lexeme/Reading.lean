import JsLexer.Token.Kind

/-!
What a category of tokens makes of the text ahead.

Each category is a function from the text ahead to a `Reading`: a token of some kind, or a
violation of the grammar, or a construct that the text leaves open. A reading says how many code
points were read to decide, the offending one included; nothing else about the text matters.
-/

namespace JsLexer

/-- The outcome of reading one lexeme. -/
inductive Reading
  /-- A token of this kind and length. -/
  | token (kind : TokenKind) (length : Nat)
  /-- A text that breaks the grammar within its first `length` code points. -/
  | malformed (length : Nat)
  /-- A string literal that the text, `length` code points long, leaves open. -/
  | openString (length : Nat)
  /-- A multi-line comment that the text, `length` code points long, leaves open. -/
  | openComment (length : Nat)
deriving DecidableEq

namespace Reading

/-- How many code points were read. -/
def length : Reading → Nat
  | .token _ n | .malformed n | .openString n | .openComment n => n

/-- The same outcome, `n` code points further on. -/
def after (n : Nat) : Reading → Reading
  | .token kind m => .token kind (n + m)
  | .malformed m => .malformed (n + m)
  | .openString m => .openString (n + m)
  | .openComment m => .openComment (n + m)

@[simp]
theorem length_after (n : Nat) (r : Reading) : (r.after n).length = n + r.length := by
  cases r <;> rfl

@[simp]
theorem after_zero (r : Reading) : r.after 0 = r := by
  cases r <;> simp [after]

theorem after_after (m n : Nat) (r : Reading) : (r.after n).after m = r.after (m + n) := by
  cases r <;> simp [after, Nat.add_assoc]

end Reading

/-- How many code points `cs` starts with that satisfy `p`. -/
def runLength (p : Char → Bool) (cs : List Char) : Nat := (cs.takeWhile p).length

end JsLexer
