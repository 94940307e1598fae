import JsLexer.LexError

/-!
Counting lines and columns: what a text adds to a position.

A count does not depend on where it starts but for an offset. The offset is `Position.shift`: lines
add up, and columns do on the first line only. The one thing that a count in progress remembers, a
carriage return just passed, does not show unless a line feed comes next.
-/

namespace JsLexer

namespace Position

/-- The position `q` of a text, once that text stands at `p` of a larger one. -/
def shift (p q : Position) : Position :=
  ⟨p.line + q.line, if q.line = 0 then p.column + q.column else q.column⟩

@[simp]
theorem shift_origin (p : Position) : p.shift .origin = p := by
  simp [shift, origin]

theorem shift_assoc (p q r : Position) : (p.shift q).shift r = p.shift (q.shift r) := by
  rcases Nat.eq_zero_or_pos r.line with hr | hr
  · by_cases hq : q.line = 0 <;> simp [shift, hr, hq, Nat.add_assoc]
  · simp [shift, Nat.ne_of_gt hr, Nat.add_assoc]

end Position

namespace Caret

/-- A caret of a text, once that text stands at `p` of a larger one. -/
def shift (p : Position) (k : Caret) : Caret := ⟨p.shift k.position, k.afterReturn⟩

theorem across_cons (k : Caret) (c : Char) (cs : List Char) :
    k.across (c :: cs) = (k.step c).across cs := rfl

theorem across_append (k : Caret) (cs ds : List Char) :
    k.across (cs ++ ds) = (k.across cs).across ds := List.foldl_append

/-- A count remembers exactly whether it has just passed a carriage return. -/
theorem afterReturn_step (k : Caret) (c : Char) : (k.step c).afterReturn = (c == '\r') := by
  unfold step
  split
  · next h => simp [h.1]
  · split
    · rfl
    · next h =>
      have hc : c ≠ '\r' := by rintro rfl; exact h rfl
      simp [hc]

theorem getLast?_of_afterReturn {k : Caret} {cs : List Char} (hne : cs ≠ [])
    (h : (k.across cs).afterReturn = true) : cs.getLast? = some '\r' := by
  rw [← List.dropLast_concat_getLast hne, across_append, across_cons] at h
  have hlast : (cs.getLast hne == '\r') = true := by rwa [← afterReturn_step]
  rw [List.getLast?_eq_some_getLast hne, eq_of_beq hlast]

theorem step_shift (p : Position) (k : Caret) (c : Char) :
    (k.shift p).step c = (k.step c).shift p := by
  unfold step shift
  split
  · rfl
  · split
    · simp [Position.shift, Nat.add_assoc]
    · simp [Position.shift]
      split <;> rfl

theorem across_shift (p : Position) (k : Caret) (cs : List Char) :
    (k.shift p).across cs = (k.across cs).shift p := by
  induction cs generalizing k with
  | nil => rfl
  | cons c cs ih => rw [across_cons, across_cons, step_shift, ih]

/-- A carriage return just passed does not matter, unless a line feed comes next. -/
theorem position_across (k : Caret) (cs : List Char)
    (h : k.afterReturn = true → cs.head? ≠ some '\n') :
    (k.across cs).position = k.position.after cs := by
  cases cs with
  | nil => rfl
  | cons c cs =>
    have hc : ¬ (c = '\n' ∧ k.afterReturn = true) := by
      rintro ⟨rfl, hk⟩
      exact h hk rfl
    have hstep : k.step c = Caret.step ⟨k.position, false⟩ c := by
      simp [step, hc]
    rw [across_cons, Position.after, across_cons, hstep]

end Caret

namespace Position

/-- Counting from `p` is counting from the origin, shifted to `p`. -/
theorem after_eq_shift (p : Position) (cs : List Char) :
    p.after cs = p.shift (origin.after cs) := by
  have h := Caret.across_shift p .start cs
  simp only [Caret.shift, Caret.start, shift_origin] at h
  rw [after, h, after]

theorem shift_after (p q : Position) (cs : List Char) :
    p.shift (q.after cs) = (p.shift q).after cs := by
  rw [q.after_eq_shift, (p.shift q).after_eq_shift, shift_assoc]

/-- A text can be counted in two parts, unless a line break is divided between them. -/
theorem after_append {u v : List Char} (p : Position)
    (h : u.getLast? = some '\r' → v.head? ≠ some '\n') :
    p.after (u ++ v) = (p.after u).after v := by
  cases u with
  | nil => rfl
  | cons c u =>
    rw [after, Caret.across_append, Caret.position_across]
    · rfl
    · exact fun hreturn => h (Caret.getLast?_of_afterReturn (List.cons_ne_nil c u) hreturn)

end Position

/-- A token of a text, once that text stands at `p` of a larger one. -/
def Token.shift (p : Position) (t : Token) : Token :=
  { t with start := p.shift t.start, stop := p.shift t.stop }

namespace LexError

/-- An error in a text, once that text stands at `p` of a larger one. -/
def shift (p : Position) : LexError → LexError
  | .unexpectedToken matcher q => .unexpectedToken matcher (p.shift q)
  | .unterminatedString start q => .unterminatedString (p.shift start) (p.shift q)
  | .unterminatedComment start q => .unterminatedComment (p.shift start) (p.shift q)
  | .unexpectedCharacter c q => .unexpectedCharacter c (p.shift q)

theorem shift_shift (p q : Position) (e : LexError) :
    (e.shift q).shift p = e.shift (p.shift q) := by
  cases e <;> simp [shift, Position.shift_assoc]

end LexError

end JsLexer
