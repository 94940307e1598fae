import JsLexer.Proofs.Demand

/-!
How far a scan gets with matchers of any sort.

A matcher may move the cursor by the operations of the cursor as it likes, back by one step included.
A lexer refuses a token that leaves the cursor where it was, so each token moves it, but a cursor
that remembers its last step can also be taken back behind the place where the token began. It never
gets further back than one code point. A scan whose matchers do not end behind their start gets
further with each token and comes to its end.
-/

namespace JsLexer

namespace Cursor

/-! ### Operations -/

/-- `s'` is reached from `s` by operations that move a cursor. -/
inductive Moves (s : Cursor) : Cursor → Prop
  | stay : Moves s s
  | next {s' : Cursor} : Moves s s' → Moves s s'.next.2
  | eat {s' : Cursor} (c : Char) : Moves s s' → Moves s (s'.eat c).2
  | eatWhile {s' : Cursor} (p : Char → Bool) : Moves s s' → Moves s (s'.eatWhile p).2
  | rewind {s' : Cursor} : Moves s s' → Moves s s'.rewind.2

section
variable {P : Cursor → Prop} {s s' : Cursor}

theorem eatAtMost_preserves (hnext : ∀ x : Cursor, P x → P x.next.2) (p : Char → Bool)
    (limit : Nat) (hs : P s) : P (eatAtMost p limit s).2 := by
  induction limit generalizing s with
  | zero => exact hs
  | succ limit ih =>
    rw [eatAtMost]
    split
    · exact ih (hnext s hs)
    · exact hs

/-- All operations are made of steps forward and of steps taken back. -/
theorem Moves.preserves (h : s.Moves s') (hnext : ∀ x : Cursor, P x → P x.next.2)
    (hrewind : ∀ x : Cursor, P x → P x.rewind.2) (hs : P s) : P s' := by
  induction h with
  | stay => exact hs
  | next _ ih => exact hnext _ ih
  | @eat x c _ ih =>
    rw [Cursor.eat]
    split
    · exact hnext x ih
    · exact ih
  | eatWhile p _ ih => exact eatAtMost_preserves hnext p _ ih
  | rewind _ ih => exact hrewind _ ih

end

theorem moves_skip (n : Nat) (s : Cursor) : s.Moves (s.skip n) := by
  have hmore : ∀ {x : Cursor}, s.Moves x → s.Moves (x.skip n) := by
    induction n with
    | zero => exact id
    | succ n ih => exact fun h => ih h.next
  exact hmore .stay

/-! ### Cursors of a text -/

/-- A cursor that stands in the text `cs`, and so does the place that it remembers: before the last
code point that it has passed. -/
structure In (cs : List Char) (s : Cursor) : Prop where
  text : s.past.reverse ++ s.rest = cs
  offset : s.offset = Text.byteLength s.past
  previous : ∀ place, s.previous = some place →
    ∃ c past, s.past = c :: past ∧ place.offset = Text.byteLength past

theorem in_start (cs : List Char) : (start cs).In cs := ⟨rfl, rfl, nofun⟩

variable {cs : List Char} {s s' : Cursor}

theorem In.next (h : s.In cs) : s.next.2.In cs := by
  rcases s with ⟨past, _ | ⟨c, rest⟩, place, previous⟩
  · exact h
  · obtain ⟨htext, hoffset, -⟩ := h
    have hplace : place.offset = Text.byteLength past := hoffset
    refine ⟨by simpa using htext, ?_, ?_⟩
    · change place.offset + c.utf8Size = c.utf8Size + Text.byteLength past
      rw [hplace, Nat.add_comm]
    · rintro _ ⟨⟩
      exact ⟨c, past, rfl, hplace⟩

theorem In.rewind (h : s.In cs) : s.rewind.2.In cs := by
  rcases s with ⟨past, rest, place, _ | before⟩
  · exact h
  · obtain ⟨c, past', rfl, hbefore⟩ := h.previous before rfl
    exact ⟨by simpa [Cursor.rewind] using h.text, hbefore, nofun⟩

theorem In.moves (h : s.In cs) (hmoves : s.Moves s') : s'.In cs :=
  hmoves.preserves (fun _ => In.next) (fun _ => In.rewind) h

theorem In.past (h : s.In cs) : s.past.reverse = cs.take s.past.length := by
  rw [← h.text, List.take_left' List.length_reverse]

theorem In.offset_le (h : s.In cs) (h' : s'.In cs) (hle : s.past.length ≤ s'.past.length) :
    s.offset ≤ s'.offset ∧ (s.offset = s'.offset → s.past.length = s'.past.length) := by
  have hprefix : s.past.reverse <+: s'.past.reverse := by
    rw [h.past, h'.past]
    exact List.take_prefix_take_left hle
  obtain ⟨w, hw⟩ := hprefix
  have hbytes := congrArg Text.byteLength hw
  have hlength := congrArg List.length hw
  simp only [Text.byteLength_append, Text.byteLength_reverse, List.length_append,
    List.length_reverse] at hbytes hlength
  rw [h.offset, h'.offset]
  refine ⟨by omega, fun heq => ?_⟩
  obtain rfl := Text.byteLength_eq_zero.1 (show Text.byteLength w = 0 by omega)
  simpa using hlength

/-- The offset of a cursor tells how many code points it has passed. -/
theorem In.offset_lt_iff (h : s.In cs) (h' : s'.In cs) :
    s.offset < s'.offset ↔ s.past.length < s'.past.length := by
  constructor
  · intro hlt
    rcases Nat.lt_or_ge s.past.length s'.past.length with hpast | hpast
    · exact hpast
    · exact absurd (h'.offset_le h hpast).1 (Nat.not_le_of_lt hlt)
  · intro hlt
    obtain ⟨hle, hne⟩ := h.offset_le h' (Nat.le_of_lt hlt)
    exact Nat.lt_of_le_of_ne hle fun heq => Nat.ne_of_lt hlt (hne heq)

/-! ### One step back -/

/-- At least `bottom` code points are passed, and if no more than these, no step is remembered. -/
def Above (bottom : Nat) (s : Cursor) : Prop :=
  bottom ≤ s.past.length ∧ (s.past.length = bottom → s.previous = none)

theorem Above.next {bottom : Nat} (h : s.Above bottom) : s.next.2.Above bottom := by
  rcases s with ⟨past, _ | ⟨c, rest⟩, place, previous⟩
  · exact h
  · have hpast : bottom ≤ past.length := h.1
    constructor
    · simp
      omega
    · intro heq
      simp at heq
      omega

theorem Above.rewind {bottom : Nat} (h : s.Above bottom) : s.rewind.2.Above bottom := by
  rcases s with ⟨_ | ⟨c, past⟩, rest, place, _ | before⟩
  · exact h
  · exact h
  · exact h
  · obtain ⟨hpast, hbottom⟩ := h
    have hne : (c :: past).length ≠ bottom := fun heq => by simpa using hbottom heq
    refine ⟨?_, fun _ => rfl⟩
    simp only [Cursor.rewind, List.length_cons] at hpast hne ⊢
    omega

theorem Above.moves {bottom : Nat} (h : s.Above bottom) (hmoves : s.Moves s') :
    s'.Above bottom :=
  hmoves.preserves (fun _ => Above.next) (fun _ => Above.rewind) h

/-- Operations take a cursor back by one code point at most, and not at all if it remembers no
step. -/
theorem In.length_le (h : s.In cs) (hmoves : s.Moves s') :
    s.past.length ≤ s'.past.length ∨ s'.past.length + 1 = s.past.length ∧ s.previous ≠ none := by
  cases hprevious : s.previous with
  | none =>
    have habove : s.Above s.past.length := ⟨Nat.le_refl _, fun _ => hprevious⟩
    exact .inl (habove.moves hmoves).1
  | some place =>
    obtain ⟨c, past, hpast, -⟩ := h.previous place hprevious
    have habove : s.Above past.length := by
      refine ⟨by simp [hpast], fun heq => ?_⟩
      simp [hpast] at heq
    have hle := (habove.moves hmoves).1
    rw [hpast, List.length_cons]
    rcases Nat.eq_or_lt_of_le hle with heq | hlt
    · exact .inr ⟨by omega, nofun⟩
    · exact .inl hlt

end Cursor

/-! ### Matchers -/

/-- A matcher that moves the cursor by its operations only. -/
def Matcher.Operates (m : Matcher) : Prop :=
  ∀ (ctx : Context) (s : Cursor), s.Moves (m.produce ctx s).2

/-- A matcher that gives no token with the cursor behind the place where it was. -/
def Matcher.StaysAhead (m : Matcher) : Prop :=
  ∀ ctx s s' t, m.recognize s = true → m.produce ctx s = (.ok t, s') → s.offset ≤ s'.offset

/-- The categories of the language do both. -/
theorem Builtin.matcher_operates (b : Builtin) : b.matcher.Operates :=
  fun _ s => Cursor.moves_skip (b.read s.rest).length s

theorem Matcher.Forward.staysAhead {m : Matcher} (h : m.Forward) : m.StaysAhead := by
  intro ctx s s' t hrecognize hproduce
  obtain ⟨kind, n, hpassed, -⟩ := h ctx s s' t hrecognize hproduce
  have hoffset : s'.offset = (s.skip n).offset := congrArg Place.offset hpassed.place
  rw [hoffset, Cursor.offset_skip]
  exact Nat.le_add_right _ _

/-! ### Scans -/

namespace Lexer

variable {matchers : List Matcher} {cs : List Char} {l : Lexer}

theorem moves_next (hm : ∀ m ∈ l.matchers, m.Operates) : l.cursor.Moves l.next.2.cursor := by
  unfold next
  split
  · exact .stay
  · exact .stay
  · split
    · split <;> exact .stay
    · next m hahead =>
      have hmoves := hm m (List.mem_of_find?_eq_some hahead) l.context l.cursor
      split
      · next hproduce => rwa [hproduce] at hmoves
      · next hproduce =>
        rw [hproduce] at hmoves
        split <;> exact hmoves

theorem matchers_next (l : Lexer) : l.next.2.matchers = l.matchers := by
  unfold next
  split
  · rfl
  · rfl
  · split
    · split <;> rfl
    · split
      · rfl
      · split <;> rfl

theorem matchers_advance (n : Nat) (l : Lexer) : (l.advance n).matchers = l.matchers := by
  induction n with
  | zero => rfl
  | succ n ih => rw [advance_succ, matchers_next, ih]

/-- The cursor of a scan stays in the text. -/
theorem in_advance (hm : ∀ m ∈ matchers, m.Operates) (cs : List Char) (n : Nat) :
    ((start matchers cs).advance n).cursor.In cs := by
  induction n with
  | zero => exact Cursor.in_start cs
  | succ n ih =>
    rw [advance_succ]
    exact ih.moves (moves_next (by rwa [matchers_advance]))

/-- A token moves the cursor: further, or one code point back if a step was remembered. -/
theorem moved_of_next (hm : ∀ m ∈ l.matchers, m.Operates) (hin : l.cursor.In cs) {l' : Lexer}
    {t : Token} (h : l.next = (some (.ok t), l')) :
    l.cursor.offset < l'.cursor.offset ∨
      l'.cursor.past.length + 1 = l.cursor.past.length ∧ l.cursor.previous ≠ none := by
  have hmoves : l.cursor.Moves l'.cursor := by
    have hmoves := moves_next hm
    rwa [h] at hmoves
  have hin' := hin.moves hmoves
  obtain ⟨-, -, -, -, -, hmoved, -⟩ := next_token h
  rcases hin.length_le hmoves with hle | hback
  · refine .inl ((hin.offset_lt_iff hin').2 (Nat.lt_of_le_of_ne hle fun heq => hmoved ?_))
    have hnot := mt (hin.offset_lt_iff hin').1 (Nat.not_lt_of_le (Nat.le_of_eq heq.symm))
    have hnot' := mt (hin'.offset_lt_iff hin).1 (Nat.not_lt_of_le (Nat.le_of_eq heq))
    omega
  · exact .inr hback

/-- Matchers that stay ahead get further with every token. -/
theorem offset_lt_of_next (ha : ∀ m ∈ l.matchers, m.StaysAhead) {l' : Lexer} {t : Token}
    (h : l.next = (some (.ok t), l')) : l.cursor.offset < l'.cursor.offset := by
  obtain ⟨-, m, hmem, hahead, hproduce, hmoved, -⟩ := next_token h
  exact Nat.lt_of_le_of_ne (ha m hmem _ _ _ _ hahead hproduce) hmoved.symm

/-- As many code points are passed as tokens were given. -/
theorem le_length_past (hm : ∀ m ∈ matchers, m.Operates) (ha : ∀ m ∈ matchers, m.StaysAhead)
    (n : Nat) (h : ∀ k < n, ∃ t, ((start matchers cs).advance k).next.1 = some (.ok t)) :
    n ≤ ((start matchers cs).advance n).cursor.past.length := by
  induction n with
  | zero => exact Nat.zero_le _
  | succ n ih =>
    have hle := ih fun k hk => h k (Nat.lt_succ_of_lt hk)
    obtain ⟨t, ht⟩ := h n (Nat.lt_succ_self n)
    have hin := in_advance hm cs n
    have hin' := in_advance hm cs (n + 1)
    have hfurther : ((start matchers cs).advance n).cursor.offset <
        ((start matchers cs).advance (n + 1)).cursor.offset := by
      rw [advance_succ]
      exact offset_lt_of_next (by rwa [matchers_advance]) (Prod.ext ht rfl)
    rw [hin.offset_lt_iff hin'] at hfurther
    omega

end Lexer

/-- Whatever matchers a scan goes by, as long as they move the cursor by its operations: each token
takes the cursor further, or back by one code point, and this only if the cursor remembers a step
from before. If no matcher ends behind its start, each token takes the cursor further, and the scan
is at its end, or fails, after as many tokens as the text has code points at the latest. -/
theorem next_moves {matchers : List Matcher} (hm : ∀ m ∈ matchers, m.Operates) (source : String) :
    let scan := Lexer.start matchers source.toList
    (∀ n t l', (scan.advance n).next = (some (.ok t), l') →
      (scan.advance n).cursor.offset < l'.cursor.offset ∨
        l'.cursor.past.length + 1 = (scan.advance n).cursor.past.length ∧
          (scan.advance n).cursor.previous ≠ none) ∧
    ((∀ m ∈ matchers, m.StaysAhead) →
      (∀ n t l', (scan.advance n).next = (some (.ok t), l') →
        (scan.advance n).cursor.offset < l'.cursor.offset) ∧
      ∃ n ≤ source.length, ∀ t, (scan.advance n).next.1 ≠ some (.ok t)) := by
  intro scan
  have hoperates : ∀ n, ∀ m ∈ (scan.advance n).matchers, m.Operates := by
    intro n
    rwa [Lexer.matchers_advance]
  refine ⟨?_, fun ha => ⟨?_, ?_⟩⟩
  · intro n t l' hnext
    exact Lexer.moved_of_next (hoperates n) (Lexer.in_advance hm source.toList n) hnext
  · intro n t l' hnext
    exact Lexer.offset_lt_of_next (by rwa [Lexer.matchers_advance]) hnext
  · refine Classical.byContradiction fun hnone => ?_
    -- otherwise there is one token more than there are code points
    have hle := Lexer.le_length_past hm ha (source.length + 1) fun k hk =>
      Classical.byContradiction fun hk' =>
        hnone ⟨k, Nat.le_of_lt_succ hk, fun t ht => hk' ⟨t, ht⟩⟩
    have htext := (Lexer.in_advance hm source.toList (source.length + 1)).text
    have hlength := congrArg List.length htext
    simp only [List.length_append, List.length_reverse, String.length_toList] at hlength
    omega

/-- A matcher that steps over two code points and takes the second step back. -/
def Matcher.hesitant : Matcher where
  name := "hesitant"
  recognize s := !s.atEnd
  produce ctx s :=
    let s' := s.next.2.next.2.rewind.2
    (.ok ((Mark.here ctx s).token .otherSpace s'), s')

theorem Matcher.hesitant_operates : hesitant.Operates :=
  fun _ _ => .rewind (.next (.next .stay))

theorem Matcher.hesitant_staysAhead : hesitant.StaysAhead := by
  rintro ctx ⟨past, rest, place, previous⟩ s' t hahead h
  obtain ⟨-, rfl⟩ := Prod.mk.inj h
  match rest with
  | [] => simp [hesitant, Cursor.atEnd] at hahead
  | [c] => exact Nat.le_refl _
  | c :: d :: rest => exact Nat.le_add_right _ _

/-- Matchers that move forward and one that also takes a step back: the second token is further than
the first, and there is no fourth. -/
theorem next_moves_hesitant :
    let matchers := [Builtin.whitespace.matcher, Matcher.hesitant]
    let scan := Lexer.start matchers " ab".toList
    (∀ m ∈ matchers, m.Operates) ∧ (∀ m ∈ matchers, m.StaysAhead) ∧
      (scan.advance 1).cursor.offset < (scan.advance 2).cursor.offset ∧
      ∃ n ≤ " ab".length, ∀ t, (scan.advance n).next.1 ≠ some (.ok t) := by
  intro matchers scan
  have hm : ∀ m ∈ matchers, m.Operates := by
    simp only [matchers, List.forall_mem_cons, List.not_mem_nil, false_imp_iff, implies_true,
      and_true]
    exact ⟨Builtin.whitespace.matcher_operates, Matcher.hesitant_operates⟩
  have ha : ∀ m ∈ matchers, m.StaysAhead := by
    simp only [matchers, List.forall_mem_cons, List.not_mem_nil, false_imp_iff, implies_true,
      and_true]
    exact ⟨Builtin.whitespace.matcher_forward.staysAhead, Matcher.hesitant_staysAhead⟩
  obtain ⟨hfurther, hends⟩ := (next_moves hm " ab").2 ha
  exact ⟨hm, ha, hfurther 1 ⟨.otherSpace, "a", ⟨0, 1⟩, ⟨0, 2⟩⟩ (scan.advance 2) rfl, hends⟩

/-- A matcher that steps forward, and at the end of the text takes its last step back. -/
def Matcher.seesaw : Matcher where
  name := "seesaw"
  recognize _ := true
  produce ctx s :=
    let s' := if s.atEnd then s.rewind.2 else s.next.2
    (.ok ((Mark.here ctx s).token .otherSpace s'), s')

theorem Matcher.seesaw_operates : seesaw.Operates := by
  intro ctx s
  change s.Moves (if s.atEnd then s.rewind.2 else s.next.2)
  split
  · exact .rewind .stay
  · exact .next .stay

/-- Two steps lead back to the start of the text, so there is always one more token. -/
theorem Lexer.next_seesaw : ∀ (n : Nat) (ctx : Context), ∃ t,
    (Lexer.advance n ⟨[.seesaw], .start ['a'], ctx, .scanning⟩).next.1 = some (.ok t)
  | 0, _ => ⟨_, rfl⟩
  | 1, _ => ⟨_, rfl⟩
  | n + 2, _ => Lexer.next_seesaw n _

/-- The operations of the cursor suffice for a matcher that leads a scan back, and on without end:
the second token of a text of one code point takes the cursor back to its start. -/
theorem seesaw_never_ends :
    let scan := Lexer.start [Matcher.seesaw] "a".toList
    (∀ m ∈ [Matcher.seesaw], m.Operates) ∧
      ¬ (∀ n t l', (scan.advance n).next = (some (.ok t), l') →
        (scan.advance n).cursor.offset < l'.cursor.offset) ∧
      ¬ ∃ n, ∀ t, (scan.advance n).next.1 ≠ some (.ok t) := by
  intro scan
  refine ⟨?_, ?_, ?_⟩
  · rintro m hm
    obtain rfl := List.mem_singleton.1 hm
    exact Matcher.seesaw_operates
  · intro hfurther
    have hback := hfurther 1 ⟨.otherSpace, "", ⟨0, 1⟩, ⟨0, 0⟩⟩ (scan.advance 2) rfl
    exact absurd hback (by decide)
  · rintro ⟨n, hn⟩
    obtain ⟨t, ht⟩ := Lexer.next_seesaw n .initial
    exact hn t ht

end JsLexer
