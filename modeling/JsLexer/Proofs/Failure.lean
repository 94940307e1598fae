import JsLexer.Proofs.Lossless
import JsLexer.Proofs.Refusal
import JsLexer.Proofs.Settled

/-!
What the error of a failed scan says.

A lexer keeps account of the text behind it: the tokens it gave make up that text, the caret has
counted all of it, and the last token ends where the cursor stands. A step that fails adds nothing
to the account, so whatever the category that failed has read, its error can be checked against the
tokens before it and the text they leave.
-/

namespace JsLexer

theorem textOf_concat (tokens : List Token) (t : Token) :
    textOf (tokens ++ [t]) = textOf tokens ++ t.text := by
  induction tokens with
  | nil => simp
  | cons u tokens ih => rw [List.cons_append, textOf_cons, textOf_cons, ih, String.append_assoc]

/-! ### Carets -/

namespace Cursor

/-- The caret of the cursor is the count of what the cursor has passed. -/
def Counted (s : Cursor) : Prop := s.place.caret = Caret.start.across s.past.reverse

theorem Counted.skip {s : Cursor} (h : s.Counted) (n : Nat) : (s.skip n).Counted := by
  rw [Counted, caret_skip, h, past_skip, List.reverse_append, List.reverse_reverse,
    Caret.across_append]

theorem Counted.of_passed {s s' : Cursor} {n : Nat} (h : s.Counted) (hpassed : s.Passed n s') :
    s'.Counted := by
  rw [Counted, hpassed.place, hpassed.past]
  exact h.skip n

theorem Counted.position {s : Cursor} (h : s.Counted) :
    s.position = Position.origin.after s.past.reverse := by
  rw [Cursor.position, h]
  rfl

end Cursor

/-! ### Categories that fail -/

namespace Builtin

variable {b : Builtin} {ctx : Context} {s s' : Cursor}

/-- A category that has recognized the text moves the cursor. -/
theorem produce_moves (hahead : b.recognizes s.rest = true) {t : Token}
    (h : b.produce ctx s = (.ok t, s')) : s'.offset ≠ s.offset := by
  have hread := mayRead hahead
  simp only [produce] at h
  cases hreading : b.read s.rest with
  | token k n =>
    rw [hreading] at hread h
    obtain rfl := (Prod.mk.inj h).2
    rw [Ne, (Cursor.passed_skip _ s).offset_eq_iff, List.take_eq_nil_iff]
    rintro (hzero | hrest)
    · exact absurd hzero (Nat.ne_of_gt hread)
    · exact ne_nil_of_recognizes hahead hrest
  | malformed | openString | openComment => simp [hreading, outcome] at h

/-- How a category fails on a text that it has recognized. -/
theorem produce_error (hahead : b.recognizes s.rest = true) {e : LexError}
    (h : b.produce ctx s = (.error e, s')) :
    ∃ n, 0 < n ∧ s' = s.skip n ∧
      (b ∈ fallible ∧ e = .unexpectedToken b.name s'.position ∨
        n = s.rest.length ∧
          (b = .string ∧ e = .unterminatedString ctx.start s'.position ∨
            b = .multiLineComment ∧ e = .unterminatedComment ctx.start s'.position)) := by
  have hread := mayRead hahead
  have hlength := List.length_pos_iff.2 (ne_nil_of_recognizes hahead)
  simp only [produce] at h
  cases hreading : b.read s.rest with
  | token k n => simp [hreading, outcome] at h
  | malformed n =>
    rw [hreading] at hread h
    obtain ⟨he, rfl⟩ := Prod.mk.inj h
    exact ⟨n, hread.1, rfl, .inl ⟨hread.2, (Except.error.inj he).symm⟩⟩
  | openString n =>
    rw [hreading] at hread h
    obtain ⟨he, rfl⟩ := Prod.mk.inj h
    obtain ⟨hb, rfl⟩ := hread
    exact ⟨_, hlength, rfl, .inr ⟨rfl, .inl ⟨hb, (Except.error.inj he).symm⟩⟩⟩
  | openComment n =>
    rw [hreading] at hread h
    obtain ⟨he, rfl⟩ := Prod.mk.inj h
    obtain ⟨hb, rfl⟩ := hread
    exact ⟨_, hlength, rfl, .inr ⟨rfl, .inr ⟨hb, (Except.error.inj he).symm⟩⟩⟩

end Builtin

/-! ### The account of a lexer -/

namespace Lexer

/-- A lexer that has given `tokens` of a text. -/
structure Reached (bs : List Builtin) (source : List Char) (tokens : List Token) (l : Lexer) :
    Prop where
  matchers : l.matchers = bs.map (·.matcher)
  context : l.context = ⟨tokens.getLast?⟩
  start : l.position = l.context.start
  past : l.cursor.past.reverse = (textOf tokens).toList
  rest : source = (textOf tokens).toList ++ l.cursor.rest
  counted : l.cursor.Counted

theorem reached_start (bs : List Builtin) (source : List Char) :
    Reached bs source [] (.start (bs.map (·.matcher)) source) :=
  ⟨rfl, rfl, rfl, rfl, rfl, rfl⟩

variable {bs : List Builtin} {source : List Char} {tokens : List Token} {l l' : Lexer}

theorem Reached.forward (h : Reached bs source tokens l) : ∀ m ∈ l.matchers, m.Forward := by
  rw [h.matchers]
  exact List.forall_mem_map.2 fun b _ => b.matcher_forward

/-- A step that gives a token enters it into the account. -/
theorem Reached.next (h : Reached bs source tokens l) {t : Token}
    (hnext : l.next = (some (.ok t), l')) : Reached bs source (tokens ++ [t]) l' := by
  have htakes := takes_of_next h.forward hnext
  obtain ⟨-, m, hmem, hahead, hproduce, -, -⟩ := next_token hnext
  obtain ⟨kind, n, hpassed, rfl⟩ := h.forward m hmem _ _ _ _ hahead hproduce
  refine ⟨htakes.matchers.trans h.matchers, ?_, ?_, ?_, ?_, h.counted.of_passed hpassed⟩
  · rw [htakes.context, List.getLast?_concat]
  · rw [htakes.context]
    rfl
  · rw [htakes.past, List.reverse_append, List.reverse_reverse, h.past, textOf_concat,
      String.toList_append]
  · rw [textOf_concat, String.toList_append, List.append_assoc, ← htakes.rest]
    exact h.rest

theorem Reached.yields {more : List Token} (h : Reached bs source tokens l)
    (hrun : l.Yields more l') : Reached bs source (tokens ++ more) l' := by
  induction hrun generalizing tokens with
  | none l => rwa [List.append_nil]
  | token hnext _ ih =>
    have := ih (h.next hnext)
    rwa [List.append_assoc] at this

/-- A step that fails leaves the context as it was. The error is that no matcher recognizes the
text, or it comes from the matcher that does, or that matcher has not moved the cursor. -/
theorem next_error {e : LexError} (h : l.next = (some (.error e), l')) :
    l'.context = l.context ∧
      ((∃ c, matcherAhead l.matchers l.cursor = none ∧ l.cursor.rest.head? = some c ∧
          e = .unexpectedCharacter c l.position ∧ l'.cursor = l.cursor) ∨
        ∃ m, matcherAhead l.matchers l.cursor = some m ∧
          (m.produce l.context l.cursor = (.error e, l'.cursor) ∨
            ∃ t, m.produce l.context l.cursor = (.ok t, l'.cursor) ∧
              l'.cursor.offset = l.cursor.offset)) := by
  unfold next at h
  split at h
  · simp at h
  · simp at h
  · split at h
    · next hahead =>
      split at h
      · simp at h
      · next c hpeek =>
        obtain ⟨rfl, rfl⟩ : _ = e ∧ _ = l' := by simpa [fail] using h
        exact ⟨rfl, .inl ⟨c, hahead, List.head?_eq_getElem?.trans hpeek, rfl, rfl⟩⟩
    · next m hahead =>
      split at h
      · next error s hproduce =>
        obtain ⟨rfl, rfl⟩ : _ = e ∧ _ = l' := by simpa [fail] using h
        exact ⟨rfl, .inr ⟨m, hahead, .inl hproduce⟩⟩
      · next t s hproduce =>
        split at h
        · next hstill =>
          obtain ⟨rfl, rfl⟩ : _ = e ∧ _ = l' := by simpa [fail] using h
          exact ⟨rfl, .inr ⟨m, hahead, .inr ⟨t, hproduce, hstill⟩⟩⟩
        · simp at h

end Lexer

/-- What an error says of a text of which the tokens before it leave `rest`. -/
def LexError.Describes (bs : List Builtin) (source : List Char) (tokens : List Token)
    (rest : List Char) : LexError → Prop
  | .unexpectedCharacter c p =>
    rest.head? = some c ∧ p = Context.start ⟨tokens.getLast?⟩ ∧ ∀ b ∈ bs, b.recognizes rest = false
  | .unexpectedToken name p =>
    ∃ b, Builtin.claimant bs rest = some b ∧ name = b.name ∧
      b ∈ [.identifierName, .numeral, .string, .punctuator] ∧
      ∃ u, u <+: source ∧ (textOf tokens).toList.length < u.length ∧ p = Position.origin.after u
  | .unterminatedString start p =>
    Builtin.claimant bs rest = some .string ∧ start = Context.start ⟨tokens.getLast?⟩ ∧
      p = Position.origin.after source
  | .unterminatedComment start p =>
    Builtin.claimant bs rest = some .multiLineComment ∧ start = Context.start ⟨tokens.getLast?⟩ ∧
      p = Position.origin.after source

namespace Lexer

variable {bs : List Builtin} {source : List Char} {tokens : List Token} {l l' : Lexer}

theorem Reached.position_skip (h : Reached bs source tokens l) (n : Nat) :
    (l.cursor.skip n).position =
      Position.origin.after ((textOf tokens).toList ++ l.cursor.rest.take n) := by
  rw [(h.counted.skip n).position, Cursor.past_skip, List.reverse_append, List.reverse_reverse,
    h.past]

theorem Reached.describes (h : Reached bs source tokens l) {e : LexError}
    (hnext : l.next = (some (.error e), l')) :
    e.Describes bs source tokens l.cursor.rest ∧ l'.position = e.position ∧
      l'.context.lastToken = tokens.getLast? := by
  obtain ⟨hcontext, hcause⟩ := next_error hnext
  have hlast : l'.context.lastToken = tokens.getLast? := by rw [hcontext, h.context]
  have hstart : l.context.start = Context.start ⟨tokens.getLast?⟩ := by rw [h.context]
  rw [h.matchers, matcherAhead_builtin, Option.map_eq_none_iff] at hcause
  rcases hcause with ⟨c, hnone, hc, rfl, hcursor⟩ | ⟨m, hm, hcause⟩
  · refine ⟨⟨hc, h.start.trans hstart, ?_⟩, by rw [position, hcursor]; rfl, hlast⟩
    simpa [Builtin.claimant] using hnone
  · obtain ⟨b, hb, rfl⟩ := Option.map_eq_some_iff.1 hm
    have hahead : b.recognizes l.cursor.rest = true := by simpa using List.find?_some hb
    rcases hcause with hproduce | ⟨t, hproduce, hstill⟩
    · obtain ⟨n, hn, hcursor, hcase⟩ := Builtin.produce_error hahead hproduce
      have hposition := h.position_skip n
      rw [← hcursor] at hposition
      rcases hcase with ⟨hfallible, rfl⟩ | ⟨rfl, ⟨rfl, rfl⟩ | ⟨rfl, rfl⟩⟩
      · refine ⟨⟨b, hb, rfl, hfallible, _, ?_, ?_, hposition⟩, rfl, hlast⟩
        · rw [h.rest]
          exact (List.prefix_append_right_inj _).2 (List.take_prefix n _)
        · have := List.length_pos_iff.2 (Builtin.ne_nil_of_recognizes hahead)
          simp only [List.length_append, List.length_take]
          omega
      · rw [List.take_length, ← h.rest] at hposition
        exact ⟨⟨hb, hstart, hposition⟩, rfl, hlast⟩
      · rw [List.take_length, ← h.rest] at hposition
        exact ⟨⟨hb, hstart, hposition⟩, rfl, hlast⟩
    · exact absurd hstill (Builtin.produce_moves hahead hproduce)

end Lexer

/-- Every failed scan has come to a lexer that gave the tokens of the failure. Its next step is the
error, which says what the text behind the tokens is like; the step ends at the place that the error
names and leaves the last token as it was. -/
theorem tokenizeWith_error {bs : List Builtin} {source : String} {tokens : List Token}
    {error : LexError} (h : tokenizeWith bs source = .error ⟨tokens, error⟩) :
    ∃ l, (Lexer.start (bs.map (·.matcher)) source.toList).Yields tokens l ∧
      source.toList = (textOf tokens).toList ++ l.cursor.rest ∧
      l.next.1 = some (.error error) ∧
      error.Describes bs source.toList tokens l.cursor.rest ∧
      l.next.2.position = error.position ∧ l.next.2.context.lastToken = tokens.getLast? := by
  obtain ⟨l, hrun, herror⟩ := Lexer.yields_of_collect_error h
  have hreached := (Lexer.reached_start bs source.toList).yields hrun
  rw [List.nil_append] at hreached
  exact ⟨l, hrun, hreached.rest, herror, hreached.describes (Prod.ext herror rfl)⟩

/-- A string with an escape that there is not, on the second line. -/
theorem tokenizeWith_error_escape :
    let bs : List Builtin := [.numeral, .lineTerminator, .string]
    let tokens : List Token :=
      [⟨.int, "1", ⟨0, 0⟩, ⟨0, 1⟩⟩, ⟨.carriageReturn, "\r\n", ⟨0, 1⟩, ⟨1, 0⟩⟩]
    let error := LexError.unexpectedToken "string" ⟨1, 4⟩
    tokenizeWith bs "1\r\n'a\\9'" = .error ⟨tokens, error⟩ ∧
      ∃ l : Lexer, l.cursor.rest = "'a\\9'".toList ∧ l.next.1 = some (.error error) ∧
        error.Describes bs "1\r\n'a\\9'".toList tokens l.cursor.rest ∧
        l.next.2.position = ⟨1, 4⟩ ∧ l.next.2.context.lastToken = tokens.getLast? := by
  intro bs tokens error
  have hfailed : tokenizeWith bs "1\r\n'a\\9'" = .error ⟨tokens, error⟩ := rfl
  obtain ⟨l, -, hrest, herror, hdescribes, hposition, hlast⟩ := tokenizeWith_error hfailed
  have hsplit : "1\r\n'a\\9'".toList = (textOf tokens).toList ++ "'a\\9'".toList := by
    simp [tokens]
  have hahead : l.cursor.rest = "'a\\9'".toList :=
    (List.append_cancel_left (hsplit.symm.trans hrest)).symm
  exact ⟨hfailed, l, hahead, herror, hdescribes, hposition, hlast⟩

end JsLexer
