import JsLexer.Display.Highlight
import JsLexer.Proofs.LineBreak
import JsLexer.Proofs.Pieces
import JsLexer.Proofs.Run

/-!
Lexers between two tokens.

All that a lexer with built-in categories keeps besides the text ahead is its place. What it
remembers of the text behind is the last token, of which only the end counts, and whether the last
code point was a carriage return, which does not matter as no line feed comes next. So from any
state that it reaches, it reports what the text ahead is divided into.
-/

namespace JsLexer

namespace Lexer

/-- A lexer that is about to scan the next token, with nothing in mind but its place. -/
structure Settled (bs : List Builtin) (l : Lexer) : Prop where
  matchers : l.matchers = bs.map (·.matcher)
  status : l.status = .scanning
  start : l.context.start = l.position
  noFeed : l.cursor.place.caret.afterReturn = true → l.cursor.rest.head? ≠ some '\n'

theorem settled_start (bs : List Builtin) (cs : List Char) :
    Settled bs (start (bs.map (·.matcher)) cs) :=
  ⟨rfl, rfl, rfl, nofun⟩

variable {bs : List Builtin} {l : Lexer}

/-! ### One step -/

theorem matcherAhead_builtin (bs : List Builtin) (s : Cursor) :
    matcherAhead (bs.map (·.matcher)) s = (Builtin.claimant bs s.rest).map (·.matcher) := by
  rw [matcherAhead, List.find?_map]
  rfl

theorem Settled.matcherAhead (h : Settled bs l) :
    matcherAhead l.matchers l.cursor = (Builtin.claimant bs l.cursor.rest).map (·.matcher) := by
  rw [h.matchers, matcherAhead_builtin]

/-- Positions ahead are counted from the place of the lexer. -/
theorem Settled.position_skip (h : Settled bs l) (n : Nat) :
    (l.cursor.skip n).position = l.position.after (l.cursor.rest.take n) := by
  rw [Cursor.position, Cursor.caret_skip]
  refine Caret.position_across _ _ fun hreturn => ?_
  cases n with
  | zero => simp
  | succ n => simpa [List.head?_take] using h.noFeed hreturn

/-- At the end of its text the lexer is done. -/
theorem Settled.next_nil (h : Settled bs l) (hrest : l.cursor.rest = []) :
    l.next = (none, { l with status := .done }) := by
  rw [next, h.status]
  dsimp only
  rw [h.matcherAhead, hrest, Builtin.claimant_nil]
  simp [Cursor.peek, Cursor.peekAt, hrest]

/-- The lexer behind a piece that it made a token of. -/
def behind (p : Piece) (l : Lexer) : Lexer :=
  { l with cursor := l.cursor.skip p.text.length, context := ⟨some (p.token l.position)⟩ }

section
variable {b : Builtin} {p : Piece} {r : List Char}

theorem Settled.position_behind (h : Settled bs l) (hrest : l.cursor.rest = p.text ++ r) :
    (l.behind p).position = l.position.after p.text := by
  have hposition := h.position_skip p.text.length
  rwa [hrest, List.take_left] at hposition

theorem rest_behind (hrest : l.cursor.rest = p.text ++ r) : (l.behind p).cursor.rest = r := by
  rw [behind, Cursor.rest_skip, hrest, List.drop_left]

/-- A piece that some category takes becomes a token at the place of the lexer. -/
theorem Settled.next_piece (h : Settled bs l) (hrest : l.cursor.rest = p.text ++ r)
    (hb : Builtin.claimant bs (p.text ++ r) = some b) (hp : b.Accepts p.kind p.text)
    (hr : p.kind.endsBefore p.text r = true) :
    l.next = (some (.ok (p.token l.position)), l.behind p) := by
  have hpassed := Cursor.passed_skip p.text.length l.cursor
  have htake : l.cursor.rest.take p.text.length = p.text := by rw [hrest, List.take_left]
  have hproduce : b.matcher.produce l.context l.cursor =
      (.ok (p.token l.position), l.cursor.skip p.text.length) := by
    change b.produce l.context l.cursor = _
    rw [Builtin.produce, hrest, (hp.read hr).2]
    simp only [Reading.length, Builtin.outcome, Mark.token, Mark.here, hpassed.consumedSince, htake,
      h.start, h.position_skip, Option.getD_some, Piece.token]
  have hmoved : (l.cursor.skip p.text.length).offset ≠ l.cursor.offset := by
    rw [Ne, hpassed.offset_eq_iff, htake]
    exact hp.ne_nil
  have hahead := h.matcherAhead
  rw [hrest, hb, Option.map_some] at hahead
  rcases l with ⟨matchers, cursor, context, status⟩
  obtain rfl : status = .scanning := h.status
  simp only [next, hahead, hproduce, if_neg hmoved, behind]

/-- Behind the piece the lexer is settled again. -/
theorem Settled.behind (h : Settled bs l) (hrest : l.cursor.rest = p.text ++ r)
    (hp : b.Accepts p.kind p.text) (hr : p.kind.endsBefore p.text r = true) :
    Settled bs (l.behind p) := by
  refine ⟨h.matchers, h.status, (h.position_behind hrest).symm, ?_⟩
  intro hreturn
  rw [rest_behind hrest]
  rw [Lexer.behind, Cursor.caret_skip, hrest, List.take_left] at hreturn
  exact hp.head_ne_feed hr (Caret.getLast?_of_afterReturn hp.ne_nil hreturn)

end

/-- What a category refuses at the origin it refuses at the place of the lexer. -/
theorem Settled.produce_refusal (h : Settled bs l) {b : Builtin} {e : LexError}
    (he : b.refusal l.cursor.rest (b.read l.cursor.rest) = some e) :
    (b.produce l.context l.cursor).1 = .error (e.shift l.position) := by
  have hstart : (Mark.here l.context l.cursor).position = l.position := h.start
  rw [Builtin.produce]
  cases hread : b.read l.cursor.rest with
  | token k n => simp [hread, Builtin.refusal] at he
  | malformed n | openString n | openComment n =>
    rw [hread, Builtin.refusal, Option.some.injEq] at he
    subst he
    simp only [Builtin.outcome, Reading.length, LexError.shift, Position.shift_origin, hstart,
      h.position_skip, ← Position.after_eq_shift]

/-- On a text that it cannot start with a piece, the lexer fails at its place. -/
theorem Settled.next_failure (h : Settled bs l) {e : LexError}
    (he : Builtin.failure bs l.cursor.rest = some e) :
    ∃ l', l.next = (some (.error (e.shift l.position)), l') ∧ l'.status = .failed := by
  have hahead := h.matcherAhead
  unfold Builtin.failure at he
  split at he
  · simp at he
  · next c cs hrest =>
    rw [hrest] at hahead
    split at he
    · next hb =>
      obtain rfl := Option.some.inj he
      rw [hb, Option.map_none] at hahead
      simp [next, h.status, hahead, Cursor.peek, Cursor.peekAt, hrest, fail, LexError.shift,
        position]
    · next b hb =>
      rw [hb, Option.map_some] at hahead
      rw [← hrest] at he
      have hproduce := h.produce_refusal he
      rcases houtcome : b.produce l.context l.cursor with ⟨outcome, s⟩
      rw [houtcome] at hproduce
      subst hproduce
      have hmatcher : b.matcher.produce l.context l.cursor = (.error (e.shift l.position), s) :=
        houtcome
      simp [next, h.status, hahead, hmatcher, fail]

theorem advance_of_isFinished (h : l.isFinished = true) (n : Nat) : l.advance n = l := by
  have hnext : l.next = (none, l) := by
    unfold next
    split <;> simp_all [isFinished]
  induction n with
  | zero => rfl
  | succ n ih => rw [advance, hnext, ih]

/-! ### Whole runs -/

/-- A lexer reports the pieces ahead and how they end, and is finished then. -/
theorem Settled.collect {ps : List Piece} {r : List Char} (h : Settled bs l)
    (hdivides : Builtin.Divides bs ps r) (hrest : l.cursor.rest = Piece.concat ps ++ r)
    (hend : Builtin.Halts bs r) {steps : Nat} (hsteps : ps.length < steps) :
    l.collect steps = Piece.report bs l.position ps r ∧ (l.advance steps).isFinished = true := by
  induction hdivides generalizing l steps with
  | nil r =>
    obtain ⟨steps, rfl⟩ := Nat.exists_eq_add_one_of_ne_zero (Nat.ne_of_gt hsteps)
    rw [Piece.concat_nil, List.nil_append] at hrest
    rw [Lexer.collect, advance]
    rcases hend with rfl | hfailure
    · rw [h.next_nil hrest, advance_of_isFinished rfl]
      exact ⟨rfl, rfl⟩
    · obtain ⟨e, he⟩ := Option.isSome_iff_exists.1 hfailure
      obtain ⟨l', hnext, hfailed⟩ := h.next_failure (hrest ▸ he)
      have hfinished : l'.isFinished = true := by rw [isFinished, hfailed]; rfl
      rw [hnext, advance_of_isFinished hfinished]
      exact ⟨by rw [Piece.report, he]; rfl, hfinished⟩
  | @cons b p ps r hb hp hr _ ih =>
    obtain ⟨steps, rfl⟩ := Nat.exists_eq_add_one_of_ne_zero (Nat.ne_zero_of_lt hsteps)
    rw [Piece.concat_cons, List.append_assoc] at hrest
    have hstep := ih (h.behind hrest hp hr) (rest_behind hrest) hend (Nat.lt_of_succ_lt_succ hsteps)
    rw [h.position_behind hrest] at hstep
    rw [Lexer.collect, advance, h.next_piece hrest hb hp hr]
    refine ⟨?_, hstep.2⟩
    dsimp only
    rw [hstep.1, Piece.report, Piece.report]
    cases Builtin.failure bs r <;> rfl

/-- A lexer has steps enough to report what is ahead. -/
theorem Settled.remaining {ps : List Piece} {r : List Char} (h : Settled bs l)
    (hdivides : Builtin.Divides bs ps r) (hrest : l.cursor.rest = Piece.concat ps ++ r)
    (hend : Builtin.Halts bs r) :
    l.remaining = Piece.report bs l.position ps r ∧ l.finish.isFinished = true := by
  refine h.collect hdivides hrest hend ?_
  have hle := hdivides.length_le
  rw [enough, hrest, List.length_append]
  omega

/-- Every step leads to a settled lexer again, or the scan is over. -/
theorem Settled.next (h : Settled bs l) : Settled bs l.next.2 ∨ l.next.2.isFinished = true := by
  obtain ⟨ps, r, hrest, hdivides, hend⟩ := Builtin.exists_divides bs l.cursor.rest
  cases hdivides with
  | nil =>
    rw [Piece.concat_nil, List.nil_append] at hrest
    rcases hend with rfl | hfailure
    · rw [h.next_nil hrest]
      exact .inr rfl
    · obtain ⟨e, he⟩ := Option.isSome_iff_exists.1 hfailure
      obtain ⟨l', hnext, hfailed⟩ := h.next_failure (hrest ▸ he)
      rw [hnext]
      exact .inr (by rw [isFinished, hfailed]; rfl)
  | cons hb hp hr _ =>
    rw [Piece.concat_cons, List.append_assoc] at hrest
    rw [h.next_piece hrest hb hp hr]
    exact .inl (h.behind hrest hp hr)

/-- However many steps a lexer has taken, it is settled if it is still scanning. -/
theorem Settled.advance (h : Settled bs l) {n : Nat} (hstatus : (l.advance n).status = .scanning) :
    Settled bs (l.advance n) := by
  induction n generalizing l with
  | zero => exact h
  | succ n ih =>
    rcases h.next with hnext | hfinished
    · exact ih hnext hstatus
    · rw [Lexer.advance, advance_of_isFinished hfinished] at hstatus
      simp [isFinished, hstatus] at hfinished

end Lexer

/-- The scan of a text reports what the text is divided into. -/
theorem tokenizeWith_of_divides {bs : List Builtin} {source : String} {ps : List Piece}
    {r : List Char} (hsource : source.toList = Piece.concat ps ++ r)
    (hdivides : Builtin.Divides bs ps r) (hend : Builtin.Halts bs r) :
    tokenizeWith bs source = Piece.report bs .origin ps r :=
  ((Lexer.settled_start bs source.toList).remaining hdivides hsource hend).1

/-- Whether it fails or not, a scan gives the tokens of the pieces. -/
theorem produced_of_divides {bs : List Builtin} {source : String} {ps : List Piece} {r : List Char}
    (hsource : source.toList = Piece.concat ps ++ r) (hdivides : Builtin.Divides bs ps r)
    (hend : Builtin.Halts bs r) :
    Display.produced (tokenizeWith bs source) = Piece.layOut .origin ps := by
  rw [tokenizeWith_of_divides hsource hdivides hend, Piece.report]
  cases Builtin.failure bs r <;> rfl

/-- A scan succeeds exactly if the text is divided into pieces without a rest. -/
theorem tokenizeWith_eq_ok {bs : List Builtin} {source : String} {tokens : List Token} :
    tokenizeWith bs source = .ok tokens ↔ ∃ ps, source.toList = Piece.concat ps ∧
      Builtin.Divides bs ps [] ∧ tokens = Piece.layOut .origin ps := by
  constructor
  · intro h
    obtain ⟨ps, r, hsource, hdivides, hend⟩ := Builtin.exists_divides bs source.toList
    rw [tokenizeWith_of_divides hsource hdivides hend, Piece.report] at h
    cases hfailure : Builtin.failure bs r with
    | some e => simp [hfailure] at h
    | none =>
      rw [hfailure, Except.ok.injEq] at h
      obtain rfl : r = [] := Or.resolve_right hend (by simp [hfailure])
      exact ⟨ps, by rw [hsource, List.append_nil], hdivides, h.symm⟩
  · rintro ⟨ps, hsource, hdivides, rfl⟩
    rw [tokenizeWith_of_divides (by rw [hsource, List.append_nil]) hdivides (.inl rfl)]
    rfl

end JsLexer
