import JsLexer.Position

/-!
A cursor over a text.

The cursor stands between two code points. It hands out the next one, looks ahead as far as it is
asked to without moving, and can take one step back. It keeps its byte offset and its caret up to
date as it goes, so nothing is counted twice.
-/

namespace JsLexer

/-- Where a cursor stands: bytes of UTF-8 before it, and the caret there. -/
structure Place where
  offset : Nat
  caret : Caret
deriving DecidableEq

namespace Place

/-- Before the first code point. -/
def start : Place := ⟨0, .start⟩

/-- Behind the code point `c`. -/
def step (p : Place) (c : Char) : Place := ⟨p.offset + c.utf8Size, p.caret.step c⟩

end Place

/-- A text, divided by the place of the cursor. -/
structure Cursor where
  /-- What the cursor has passed, the latest code point first. -/
  past : List Char
  /-- What lies ahead. -/
  rest : List Char
  /-- Where the cursor stands. -/
  place : Place
  /-- Where it stood before its last step, unless that step was taken back. -/
  previous : Option Place
deriving DecidableEq

namespace Cursor

/-- The cursor before a text. -/
def start (cs : List Char) : Cursor := ⟨[], cs, .start, none⟩

/-- The bytes of UTF-8 before the cursor. -/
def offset (s : Cursor) : Nat := s.place.offset

/-- The line and column of the cursor. -/
def position (s : Cursor) : Position := s.place.caret.position

/-- Whether every code point has been passed. -/
def atEnd (s : Cursor) : Bool := s.rest.isEmpty

/-! ### Moving -/

/-- The code point ahead, and the cursor behind it. At the end the cursor stays as it is. -/
def next (s : Cursor) : Option Char × Cursor :=
  match s.rest with
  | [] => (none, s)
  | c :: cs => (some c, ⟨c :: s.past, cs, s.place.step c, some s.place⟩)

/-- Takes the last step back. Only one step is remembered, and nothing is once it is taken back. -/
def rewind (s : Cursor) : Option Char × Cursor :=
  match s.previous, s.past with
  | some place, c :: cs => (some c, ⟨cs, c :: s.rest, place, none⟩)
  | _, _ => (none, s)

/-- The cursor after `n` steps, or at the end if there are fewer. -/
def skip : Nat → Cursor → Cursor
  | 0, s => s
  | n + 1, s => skip n s.next.2

@[simp]
theorem next_cons (past : List Char) (c : Char) (cs : List Char) (place : Place)
    (previous : Option Place) :
    next ⟨past, c :: cs, place, previous⟩ =
      (some c, ⟨c :: past, cs, place.step c, some place⟩) := rfl

/-- A step gives the first code point ahead. -/
theorem next_fst (s : Cursor) : s.next.1 = s.rest.head? := by
  rcases s with ⟨past, rest, place, previous⟩
  cases rest <;> rfl

/-- A step leaves the other code points ahead. -/
theorem rest_next (s : Cursor) : s.next.2.rest = s.rest.tail := by
  rcases s with ⟨past, rest, place, previous⟩
  cases rest <;> rfl

/-- Steps take code points from the front of the text ahead. -/
theorem rest_skip (n : Nat) (s : Cursor) : (s.skip n).rest = s.rest.drop n := by
  induction n generalizing s with
  | zero => rfl
  | succ n ih => rw [skip, ih, rest_next, List.drop_tail]

/-- A step can be taken back, to the text that was ahead and the place of the cursor. -/
theorem rewind_next (s : Cursor) (c : Char) (h : s.next.1 = some c) :
    s.next.2.rewind = (some c, { s with previous := none }) := by
  rcases s with ⟨past, rest, place, previous⟩
  cases rest with
  | nil => simp [next] at h
  | cons d cs =>
    obtain rfl : d = c := by simpa using h
    rfl

/-! ### Looking -/

/-- The `n`-th code point ahead, counted from one. -/
def peekAt (s : Cursor) : Nat → Option Char
  | 0 => none
  | n + 1 => s.rest[n]?

/-- The code point ahead. -/
def peek (s : Cursor) : Option Char := s.peekAt 1

/-- Whether the text ahead starts with `expected`. -/
def lookaheadIs (s : Cursor) (expected : List Char) : Bool := expected.isPrefixOf s.rest

/-! ### Moving on a condition -/

/-- Passes the code point ahead if it is `expected`, and tells whether it did. -/
def eat (expected : Char) (s : Cursor) : Bool × Cursor :=
  if s.peek = some expected then (true, s.next.2) else (false, s)

/-- Passes at most `limit` code points while they satisfy `p`, and counts them. -/
def eatAtMost (p : Char → Bool) : Nat → Cursor → Nat × Cursor
  | 0, s => (0, s)
  | limit + 1, s =>
    if s.peek.any p then
      let (count, s') := eatAtMost p limit s.next.2
      (count + 1, s')
    else (0, s)

/-- Passes code points while they satisfy `p`, and counts them. -/
def eatWhile (p : Char → Bool) (s : Cursor) : Nat × Cursor := eatAtMost p s.rest.length s

/-! ### Looking back -/

/-- The last code points of a reversed text that fill `bytes` bytes, put before `acc`; nothing if
some code point only fills them in part. -/
def lastBytes : Nat → List Char → List Char → Option (List Char)
  | 0, _, acc => some acc
  | _ + 1, [], _ => none
  | bytes + 1, c :: past, acc =>
    if c.utf8Size ≤ bytes + 1 then lastBytes (bytes + 1 - c.utf8Size) past (c :: acc) else none

/-- The text from the byte offset `start` up to the cursor, empty if `start` is not before it.
There is none if `start` lies inside a code point. -/
def consumedSince (s : Cursor) (start : Nat) : Option (List Char) :=
  lastBytes (s.offset - start) s.past []

end Cursor

end JsLexer
