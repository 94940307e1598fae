import JsLexer.Proofs.TokenPosition

/-!
A cursor is a count of code points.

A plain cursor is given the whole text each time and keeps no more than two numbers: how many code
points it has passed, and how many it had passed before its last step, unless that step was taken
back. A cursor keeps its text in two parts and counts bytes, lines and columns as it goes, but it
stands where the plain cursor does, so it gives the same answers. This is shown of one operation
and follows of any number of them in any order. A byte offset that a cursor once had stays the
boundary of a code point, so the text behind it can always be given back.
-/

namespace JsLexer

/-! ### Operations -/

namespace Cursor

/-- What a cursor can be asked for. -/
inductive Operation
  | next
  | peek
  | peekAt (n : Nat)
  | lookaheadIs (expected : List Char)
  | eat (expected : Char)
  | eatWhile (p : Char → Bool)
  | rewind

/-- What it gives back: the code point passed with its width in bytes, a code point, whether
something holds, or how many code points it has passed. -/
inductive Answer
  | step (passed : Option (Char × Nat))
  | codePoint (c : Option Char)
  | truth (b : Bool)
  | count (n : Nat)

/-- The answer to an operation, and the cursor after it. -/
def perform (s : Cursor) : Operation → Answer × Cursor
  | .next => (.step (s.next.1.map fun c => (c, c.utf8Size)), s.next.2)
  | .peek => (.codePoint s.peek, s)
  | .peekAt n => (.codePoint (s.peekAt n), s)
  | .lookaheadIs expected => (.truth (s.lookaheadIs expected), s)
  | .eat expected => (.truth (s.eat expected).1, (s.eat expected).2)
  | .eatWhile p => (.count (s.eatWhile p).1, (s.eatWhile p).2)
  | .rewind => (.codePoint s.rewind.1, s.rewind.2)

/-- The answers to operations one after the other, and the cursor after the last. -/
def run : List Operation → Cursor → List Answer × Cursor
  | [], s => ([], s)
  | op :: ops, s =>
    let rest := run ops (s.perform op).2
    ((s.perform op).1 :: rest.1, rest.2)

end Cursor

/-- A cursor that counts code points only: how many it has passed, and how many before its last
step. -/
structure PlainCursor where
  index : Nat
  remembered : Option Nat
deriving DecidableEq

namespace PlainCursor

/-- Before the first code point. -/
def start : PlainCursor := ⟨0, none⟩

/-- Some steps further. The last of them is remembered. -/
def forward : Nat → PlainCursor → PlainCursor
  | 0, k => k
  | n + 1, k => ⟨k.index + n + 1, some (k.index + n)⟩

/-- The same operations in the text `cs`. -/
def perform (cs : List Char) (k : PlainCursor) : Cursor.Operation → Cursor.Answer × PlainCursor
  | .next =>
    (.step (cs[k.index]?.map fun c => (c, c.utf8Size)),
      if k.index < cs.length then k.forward 1 else k)
  | .peek => (.codePoint cs[k.index]?, k)
  | .peekAt n => (.codePoint (if n = 0 then none else cs[k.index + n - 1]?), k)
  | .lookaheadIs expected => (.truth (decide (expected <+: cs.drop k.index)), k)
  | .eat expected =>
    (.truth (decide (cs[k.index]? = some expected)),
      if cs[k.index]? = some expected then k.forward 1 else k)
  | .eatWhile p =>
    let n := runLength p (cs.drop k.index)
    (.count n, k.forward n)
  | .rewind => (.codePoint (k.remembered.bind (cs[·]?)), ⟨k.remembered.getD k.index, none⟩)

/-- The answers to operations one after the other, and the plain cursor after the last. -/
def run (cs : List Char) : List Cursor.Operation → PlainCursor → List Cursor.Answer × PlainCursor
  | [], k => ([], k)
  | op :: ops, k =>
    let rest := run cs ops (k.perform cs op).2
    ((k.perform cs op).1 :: rest.1, rest.2)

/-- The place before the code point `i` of `cs`: the bytes in front of it, where the text in front
of it ends, and whether that is behind a carriage return. -/
def placeAt (cs : List Char) (i : Nat) : Place where
  offset := Text.byteLength (cs.take i)
  caret := ⟨Position.origin.endOf (cs.take i), (cs.take i).getLast? == some '\r'⟩

/-- The cursor in `cs` that stands where the plain one does and remembers what it remembers. -/
def cursor (cs : List Char) (k : PlainCursor) : Cursor where
  past := (cs.take k.index).reverse
  rest := cs.drop k.index
  place := placeAt cs k.index
  previous := k.remembered.map (placeAt cs)

/-- The plain cursor stands in `cs`, and what it remembers is one code point before. -/
structure Within (cs : List Char) (k : PlainCursor) : Prop where
  index_le : k.index ≤ cs.length
  remembered : ∀ i, k.remembered = some i → i + 1 = k.index

theorem within_start (cs : List Char) : start.Within cs := ⟨Nat.zero_le _, nofun⟩

theorem cursor_start (cs : List Char) : start.cursor cs = Cursor.start cs := rfl

variable {cs : List Char} {k : PlainCursor}

/-! ### Places -/

theorem across_eq (w : List Char) :
    Caret.start.across w = ⟨Position.origin.endOf w, w.getLast? == some '\r'⟩ := by
  have hposition : (Caret.start.across w).position = Position.origin.endOf w :=
    Position.after_eq_endOf .origin w
  have hreturn : (Caret.start.across w).afterReturn = (w.getLast? == some '\r') := by
    rcases List.eq_nil_or_concat w with rfl | ⟨u, c, rfl⟩
    · rfl
    · rw [List.concat_eq_append, Caret.across_append, Caret.across_cons]
      simp [Caret.across, Caret.afterReturn_step]
  rw [← hposition, ← hreturn]

/-- A step leads from one place to the next. -/
theorem step_placeAt {i : Nat} (h : i < cs.length) :
    (placeAt cs i).step cs[i] = placeAt cs (i + 1) := by
  have htake : cs.take (i + 1) = cs.take i ++ [cs[i]] := List.take_succ_eq_append_getElem h
  have hoffset :
      Text.byteLength (cs.take (i + 1)) = Text.byteLength (cs.take i) + cs[i].utf8Size := by
    rw [htake, Text.byteLength_append, Text.byteLength_cons, Text.byteLength_nil, Nat.add_zero]
  have hcaret : Caret.start.across (cs.take (i + 1)) =
      (Caret.start.across (cs.take i)).step cs[i] := by
    rw [htake, Caret.across_append]
    rfl
  rw [across_eq, across_eq] at hcaret
  rw [Place.step, placeAt, placeAt, hoffset, hcaret]

/-! ### One operation -/

theorem reverse_take_succ {i : Nat} (h : i < cs.length) :
    (cs.take (i + 1)).reverse = cs[i] :: (cs.take i).reverse := by
  rw [List.take_succ_eq_append_getElem h, List.reverse_append]
  rfl

theorem next_cursor (h : k.index < cs.length) :
    (k.cursor cs).next = (some cs[k.index], (k.forward 1).cursor cs) := by
  rw [cursor, List.drop_eq_getElem_cons h, Cursor.next_cons, step_placeAt h,
    ← reverse_take_succ h]
  rfl

theorem next_cursor_end (h : cs.length ≤ k.index) :
    (k.cursor cs).next = (none, k.cursor cs) := by
  rw [Cursor.next, show (k.cursor cs).rest = [] from List.drop_eq_nil_of_le h]

theorem peekAt_cursor (cs : List Char) (k : PlainCursor) (n : Nat) :
    (k.cursor cs).peekAt n = if n = 0 then none else cs[k.index + n - 1]? := by
  cases n with
  | zero => rfl
  | succ n =>
    rw [if_neg (Nat.succ_ne_zero n)]
    exact List.getElem?_drop

theorem peek_cursor (cs : List Char) (k : PlainCursor) : (k.cursor cs).peek = cs[k.index]? :=
  peekAt_cursor cs k 1

theorem lookaheadIs_cursor (cs : List Char) (k : PlainCursor) (expected : List Char) :
    (k.cursor cs).lookaheadIs expected = decide (expected <+: cs.drop k.index) := by
  rw [Bool.eq_iff_iff, decide_eq_true_iff]
  exact List.isPrefixOf_iff_prefix

theorem forward_forward (n : Nat) (k : PlainCursor) :
    (k.forward 1).forward n = k.forward (n + 1) := by
  cases n with
  | zero => rfl
  | succ n =>
    simp only [forward, mk.injEq, Option.some.injEq]
    omega

/-- A cursor that may pass as many code points as there are ahead passes the longest run. -/
theorem eatAtMost_cursor (p : Char → Bool) (limit : Nat) (h : (cs.drop k.index).length ≤ limit) :
    Cursor.eatAtMost p limit (k.cursor cs) =
      (runLength p (cs.drop k.index), (k.forward (runLength p (cs.drop k.index))).cursor cs) := by
  induction limit generalizing k with
  | zero =>
    have hnil : cs.drop k.index = [] := List.length_eq_zero_iff.1 (Nat.le_zero.1 h)
    rw [hnil]
    rfl
  | succ limit ih =>
    rw [Cursor.eatAtMost, peek_cursor]
    rcases Nat.lt_or_ge k.index cs.length with hlt | hge
    · have hdrop := List.drop_eq_getElem_cons hlt
      rw [List.getElem?_eq_getElem hlt, Option.any_some]
      cases hp : p cs[k.index] with
      | true =>
        have hrun : runLength p (cs.drop k.index) = runLength p (cs.drop (k.index + 1)) + 1 := by
          rw [hdrop, runLength, List.takeWhile_cons_of_pos hp]
          rfl
        have hshort : (cs.drop (k.forward 1).index).length ≤ limit := by
          rw [hdrop] at h
          exact Nat.le_of_succ_le_succ h
        rw [if_pos rfl, next_cursor hlt, ih hshort, forward_forward, hrun]
        rfl
      | false =>
        have hrun : runLength p (cs.drop k.index) = 0 := by
          rw [hdrop, runLength, List.takeWhile_cons_of_neg (by rw [hp]; decide)]
          rfl
        rw [if_neg Bool.false_ne_true, hrun]
        rfl
    · rw [List.getElem?_eq_none hge, Option.any_none, if_neg Bool.false_ne_true,
        List.drop_eq_nil_of_le hge]
      rfl

theorem rewind_cursor (h : k.Within cs) :
    (k.cursor cs).rewind =
      (k.remembered.bind (cs[·]?), (mk (k.remembered.getD k.index) none).cursor cs) := by
  obtain ⟨index, _ | i⟩ := k
  · rfl
  · obtain rfl : i + 1 = index := h.remembered i rfl
    have hlt : i < cs.length := h.index_le
    simp only [cursor, Cursor.rewind, Option.map_some, reverse_take_succ hlt, Option.bind_some,
      Option.getD_some, List.getElem?_eq_getElem hlt, List.drop_eq_getElem_cons hlt,
      Option.map_none]

/-- An operation on the cursor is the same operation on the plain one. -/
theorem perform_cursor (h : k.Within cs) (op : Cursor.Operation) :
    (k.cursor cs).perform op = ((k.perform cs op).1, (k.perform cs op).2.cursor cs) := by
  cases op with
  | next =>
    rw [Cursor.perform, perform]
    rcases Nat.lt_or_ge k.index cs.length with hlt | hge
    · rw [next_cursor hlt, if_pos hlt, List.getElem?_eq_getElem hlt]
    · rw [next_cursor_end hge, if_neg (Nat.not_lt_of_le hge), List.getElem?_eq_none hge]
  | peek => rw [Cursor.perform, peek_cursor, perform]
  | peekAt n => rw [Cursor.perform, peekAt_cursor, perform]
  | lookaheadIs expected => rw [Cursor.perform, lookaheadIs_cursor, perform]
  | eat expected =>
    rw [Cursor.perform, Cursor.eat, peek_cursor, perform]
    by_cases hc : cs[k.index]? = some expected
    · obtain ⟨hlt, -⟩ := List.getElem?_eq_some_iff.1 hc
      rw [if_pos hc, if_pos hc, next_cursor hlt, decide_eq_true hc]
    · rw [if_neg hc, if_neg hc, decide_eq_false hc]
  | eatWhile p =>
    have hrun : (k.cursor cs).eatWhile p = _ := eatAtMost_cursor p _ (Nat.le_refl _)
    rw [Cursor.perform, hrun, perform]
  | rewind => rw [Cursor.perform, rewind_cursor h, perform]

theorem Within.forward (h : k.Within cs) (n : Nat) (hn : k.index + n ≤ cs.length) :
    (k.forward n).Within cs := by
  cases n with
  | zero => exact h
  | succ n =>
    refine ⟨hn, ?_⟩
    rintro _ ⟨⟩
    rfl

/-- An operation does not lead out of the text. -/
theorem Within.perform (h : k.Within cs) (op : Cursor.Operation) :
    (k.perform cs op).2.Within cs := by
  cases op with
  | next =>
    rw [PlainCursor.perform]
    by_cases hlt : k.index < cs.length
    · rw [if_pos hlt]
      exact h.forward 1 hlt
    · rwa [if_neg hlt]
  | peek => exact h
  | peekAt n => exact h
  | lookaheadIs expected => exact h
  | eat expected =>
    rw [PlainCursor.perform]
    by_cases hc : cs[k.index]? = some expected
    · obtain ⟨hlt, -⟩ := List.getElem?_eq_some_iff.1 hc
      rw [if_pos hc]
      exact h.forward 1 hlt
    · rwa [if_neg hc]
  | eatWhile p =>
    refine h.forward _ ?_
    have hrun : runLength p (cs.drop k.index) ≤ (cs.drop k.index).length :=
      (List.takeWhile_prefix p).length_le
    have hindex := h.index_le
    rw [List.length_drop] at hrun
    omega
  | rewind =>
    refine ⟨?_, nofun⟩
    have hindex := h.index_le
    obtain ⟨index, _ | i⟩ := k
    · exact hindex
    · have hi := h.remembered i rfl
      dsimp only [PlainCursor.perform, Option.getD_some] at hi hindex ⊢
      omega

/-! ### Any number of operations -/

theorem run_cursor (h : k.Within cs) (ops : List Cursor.Operation) :
    (k.cursor cs).run ops = ((k.run cs ops).1, (k.run cs ops).2.cursor cs) := by
  induction ops generalizing k with
  | nil => rfl
  | cons op ops ih => rw [Cursor.run, perform_cursor h, ih (h.perform op), run]

theorem Within.run (h : k.Within cs) (ops : List Cursor.Operation) :
    (k.run cs ops).2.Within cs := by
  induction ops generalizing k with
  | nil => exact h
  | cons op ops ih => exact ih (h.perform op)

theorem atEnd_cursor (h : k.Within cs) : (k.cursor cs).atEnd = (k.index == cs.length) := by
  have hindex := h.index_le
  rw [Bool.eq_iff_iff, Cursor.atEnd, List.isEmpty_iff, beq_iff_eq]
  change cs.drop k.index = [] ↔ _
  rw [List.drop_eq_nil_iff]
  omega

/-- Nothing is remembered once a step is taken back. -/
theorem rewind_rewind_cursor (h : k.Within cs) :
    (k.cursor cs).rewind.2.rewind = (none, (k.cursor cs).rewind.2) := by
  rw [rewind_cursor h]
  rfl

end PlainCursor

/-! ### Looking back -/

/-- `w` is the part of `cs` from the byte `start` up to the byte `stop`. -/
def Text.Between (cs : List Char) (start stop : Nat) (w : List Char) : Prop :=
  ∃ u v, cs = u ++ w ++ v ∧ Text.byteLength u = start ∧ Text.byteLength (u ++ w) = stop

namespace PlainCursor

variable {cs : List Char}

theorem byteLength_take_mono {i j : Nat} (h : i ≤ j) :
    Text.byteLength (cs.take i) ≤ Text.byteLength (cs.take j) := by
  obtain ⟨w, hw⟩ := List.take_prefix_take_left h
  rw [← hw, Text.byteLength_append]
  exact Nat.le_add_right _ _

theorem byteLength_take_min (i j : Nat) :
    Text.byteLength (cs.take (min i j)) =
      min (Text.byteLength (cs.take i)) (Text.byteLength (cs.take j)) := by
  rcases Nat.le_total i j with h | h
  · rw [Nat.min_eq_left h, Nat.min_eq_left (byteLength_take_mono h)]
  · rw [Nat.min_eq_right h, Nat.min_eq_right (byteLength_take_mono h)]

theorem take_min_append_drop (cs : List Char) (i j : Nat) :
    cs.take (min i j) ++ (cs.take j).drop (min i j) = cs.take j := by
  have hsplit := List.take_append_drop (min i j) (cs.take j)
  rwa [List.take_take, Nat.min_eq_left (Nat.min_le_right i j)] at hsplit

theorem between_drop (cs : List Char) (i j : Nat) :
    Text.Between cs (min (Text.byteLength (cs.take i)) (Text.byteLength (cs.take j)))
      (Text.byteLength (cs.take j)) ((cs.take j).drop (min i j)) := by
  refine ⟨cs.take (min i j), cs.drop j, ?_, byteLength_take_min i j, ?_⟩
  · rw [take_min_append_drop, List.take_append_drop]
  · rw [take_min_append_drop]

/-- What a cursor gives back from the boundary of a code point, be it behind the cursor or ahead:
the code points in between. -/
theorem consumedSince_cursor (cs : List Char) (k : PlainCursor) (i : Nat) :
    (k.cursor cs).consumedSince (Text.byteLength (cs.take i)) =
      some ((cs.take k.index).drop (min i k.index)) := by
  have hsplit := take_min_append_drop cs i k.index
  have hpast : (k.cursor cs).past =
      ((cs.take k.index).drop (min i k.index)).reverse ++ (cs.take (min i k.index)).reverse := by
    rw [← List.reverse_append, hsplit]
    rfl
  have hoffset : (k.cursor cs).offset = Text.byteLength (cs.take (min i k.index)) +
      Text.byteLength ((cs.take k.index).drop (min i k.index)) := by
    rw [← Text.byteLength_append, hsplit]
    rfl
  have hback := Cursor.consumedSince_of_passed hpast hoffset
  -- an offset ahead of the cursor counts as its own
  rw [byteLength_take_min, Cursor.consumedSince] at hback
  rw [Cursor.consumedSince, ← hback]
  congr 1
  change Text.byteLength (cs.take k.index) - _ = Text.byteLength (cs.take k.index) - _
  omega

end PlainCursor

namespace Cursor

/-- Whatever is asked of a cursor, in whatever order, it answers as a plain cursor does that counts
the code points it has passed and remembers its last step, and it stands where that one stands. What
it remembers is one code point before, and nothing once that step is taken back. Any offset that it
had on the way gives back the text from there to the cursor, none if the cursor is before it now. -/
theorem run_eq_plain (cs : List Char) (ops : List Operation) :
    let plain := PlainCursor.start.run cs ops
    let k := plain.2
    let s := ((start cs).run ops).2
    (start cs).run ops = (plain.1, k.cursor cs) ∧
    k.Within cs ∧
    s.offset = Text.byteLength (cs.take k.index) ∧
    s.position = Position.origin.endOf (cs.take k.index) ∧
    s.rest = cs.drop k.index ∧ s.atEnd = (k.index == cs.length) ∧
    s.rewind.2.rewind = (none, s.rewind.2) ∧
    ∀ n,
      let mark := ((start cs).run (ops.take n)).2.offset
      ∃ w, s.consumedSince mark = some w ∧ Text.Between cs (min mark s.offset) s.offset w := by
  intro plain k s
  have hrun := PlainCursor.run_cursor (PlainCursor.within_start cs)
  rw [PlainCursor.cursor_start] at hrun
  have hwithin : k.Within cs := (PlainCursor.within_start cs).run ops
  have hs : s = k.cursor cs := congrArg Prod.snd (hrun ops)
  refine ⟨hrun ops, hwithin, ?_⟩
  rw [hs]
  refine ⟨rfl, rfl, rfl, PlainCursor.atEnd_cursor hwithin,
    PlainCursor.rewind_rewind_cursor hwithin, ?_⟩
  intro n mark
  let i := (PlainCursor.start.run cs (ops.take n)).2.index
  have hmark : mark = Text.byteLength (cs.take i) :=
    congrArg (fun r => r.2.offset) (hrun (ops.take n))
  rw [hmark]
  exact ⟨_, PlainCursor.consumedSince_cursor cs k i, PlainCursor.between_drop cs i k.index⟩

/-- Taken back into a line break and out again, a cursor counts it once. -/
example :
    ((start ['\r', '\n']).run [.next, .next, .rewind]).2.position = ⟨1, 0⟩ ∧
    ((start ['\r', '\n']).run [.next, .next, .rewind, .next]).2.position = ⟨1, 0⟩ := by
  decide

end Cursor

end JsLexer
