import JsLexer.Matcher
import JsLexer.Text.Bytes

/-!
How far a cursor gets, in terms of the text it passes.

After `n` steps the cursor has passed the first `n` code points ahead: they are behind it now, they
are what its place has counted, and they are the text that a mark set before the steps gives back.
-/

namespace JsLexer

namespace Cursor

/-! ### After a number of steps -/

theorem past_skip (n : Nat) (s : Cursor) :
    (s.skip n).past = (s.rest.take n).reverse ++ s.past := by
  induction n generalizing s with
  | zero => simp [skip]
  | succ n ih =>
    rcases s with ⟨past, rest, place, previous⟩
    cases rest with
    | nil => simp [skip, ih, next]
    | cons c cs => simp [skip, ih]

theorem caret_skip (n : Nat) (s : Cursor) :
    (s.skip n).place.caret = s.place.caret.across (s.rest.take n) := by
  induction n generalizing s with
  | zero => rfl
  | succ n ih =>
    rcases s with ⟨past, rest, place, previous⟩
    cases rest with
    | nil => simpa [skip, next] using ih ⟨past, [], place, previous⟩
    | cons c cs => exact ih _

theorem offset_skip (n : Nat) (s : Cursor) :
    (s.skip n).offset = s.offset + Text.byteLength (s.rest.take n) := by
  induction n generalizing s with
  | zero => rfl
  | succ n ih =>
    rcases s with ⟨past, rest, place, previous⟩
    cases rest with
    | nil => simpa [skip, next] using ih ⟨past, [], place, previous⟩
    | cons c cs =>
      rw [skip, next_cons, ih]
      simp [offset, Place.step, Nat.add_assoc]

/-! ### Looking back -/

theorem lastBytes_byteLength (w past acc : List Char) :
    lastBytes (Text.byteLength w) (w ++ past) acc = some (w.reverse ++ acc) := by
  induction w generalizing acc with
  | nil => simp [lastBytes]
  | cons c w ih =>
    obtain ⟨m, hm⟩ := Nat.exists_eq_add_of_lt c.utf8Size_pos
    have hbytes : Text.byteLength (c :: w) = (m + Text.byteLength w) + 1 := by
      rw [Text.byteLength_cons]
      omega
    have hleft : m + Text.byteLength w + 1 - c.utf8Size = Text.byteLength w := by omega
    rw [hbytes, List.cons_append, lastBytes, if_pos (by omega), hleft, ih]
    simp

/-- A cursor looks back over exactly what it has passed since. -/
theorem consumedSince_of_passed {s : Cursor} {w past : List Char} {start : Nat}
    (hpast : s.past = w.reverse ++ past) (hoffset : s.offset = start + Text.byteLength w) :
    s.consumedSince start = some w := by
  have hbytes : s.offset - start = Text.byteLength w.reverse := by
    rw [hoffset]
    rw [Nat.add_sub_cancel_left, Text.byteLength_reverse]
  rw [consumedSince, hbytes, hpast, lastBytes_byteLength]
  simp

/-- `s'` stands `n` code points behind `s` in the same text, whatever it remembers of its last
step. -/
structure Passed (n : Nat) (s s' : Cursor) : Prop where
  past : s'.past = (s.skip n).past
  rest : s'.rest = (s.skip n).rest
  place : s'.place = (s.skip n).place

theorem passed_skip (n : Nat) (s : Cursor) : Passed n s (s.skip n) := ⟨rfl, rfl, rfl⟩

/-- A mark gives back what was passed since it was set. -/
theorem Passed.consumedSince {n : Nat} {s s' : Cursor} (h : Passed n s s') :
    s'.consumedSince s.offset = some (s.rest.take n) := by
  refine consumedSince_of_passed (h.past.trans (past_skip n s)) ?_
  rw [offset, h.place]
  exact offset_skip n s

/-- Only a cursor that has passed nothing has the offset it had. -/
theorem Passed.offset_eq_iff {n : Nat} {s s' : Cursor} (h : Passed n s s') :
    s'.offset = s.offset ↔ s.rest.take n = [] := by
  rw [offset, h.place]
  change (s.skip n).offset = _ ↔ _
  rw [offset_skip, ← Text.byteLength_eq_zero]
  omega

end Cursor

end JsLexer
