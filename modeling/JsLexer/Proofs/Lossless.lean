import JsLexer.Display.Highlight
import JsLexer.Proofs.Run

/-!
Scans lose nothing. Whatever matchers a scan goes by, as long as each builds its token from a mark
and moves the cursor only forward, its tokens follow one another without a gap and their texts make
up the source again, up to the place where an error ended the scan.

The start of a token comes from the token before and its text from the cursor, so two accounts of
the scan have to stay in step. One step keeps them in step (`Lexer.Takes`), and so does a run.
-/

namespace JsLexer

/-- A matcher that gives a token only from a mark set on entry, for a cursor that has moved
forward. -/
def Matcher.Forward (m : Matcher) : Prop :=
  ∀ ctx s s' t, m.recognize s = true → m.produce ctx s = (.ok t, s') →
    ∃ kind n, s.Passed n s' ∧ t = (Mark.here ctx s).token kind s'

/-- The categories of the language build their tokens this way. -/
theorem Builtin.matcher_forward (b : Builtin) : b.matcher.Forward := by
  intro ctx s s' t _ h
  change b.produce ctx s = _ at h
  simp only [produce, outcome] at h
  split at h
  · obtain ⟨rfl, rfl⟩ : _ = t ∧ _ = s' := by simpa using h
    exact ⟨_, _, Cursor.passed_skip _ _, rfl⟩
  all_goals simp at h

/-- A matcher that takes whatever code point is ahead. -/
def Matcher.single (name : String) (kind : TokenKind) : Matcher where
  name := name
  recognize s := !s.atEnd
  produce ctx s := (.ok ((Mark.here ctx s).token kind (s.skip 1)), s.skip 1)

theorem Matcher.single_forward (name : String) (kind : TokenKind) : (single name kind).Forward := by
  intro ctx s s' t _ h
  obtain ⟨rfl, rfl⟩ : _ = t ∧ _ = s' := by simpa [single] using h
  exact ⟨kind, 1, Cursor.passed_skip 1 s, rfl⟩

/-- Each token starts where the one before it ended, and the first one at `p`. -/
def Contiguous : Position → List Token → Prop
  | _, [] => True
  | p, t :: tokens => t.start = p ∧ Contiguous t.stop tokens

namespace Lexer

/-- What a step that gives `t` does: it passes the text of `t`, which starts where the last token
ended. -/
structure Takes (l l' : Lexer) (t : Token) : Prop where
  nonempty : t.text ≠ ""
  start : t.start = l.context.start
  context : l'.context = ⟨some t⟩
  past : l'.cursor.past = t.text.toList.reverse ++ l.cursor.past
  rest : l.cursor.rest = t.text.toList ++ l'.cursor.rest
  matchers : l'.matchers = l.matchers
  status : l'.status = l.status

theorem takes_of_next {l l' : Lexer} {t : Token} (hm : ∀ m ∈ l.matchers, m.Forward)
    (h : l.next = (some (.ok t), l')) : l.Takes l' t := by
  obtain ⟨-, m, hmem, hrec, hproduce, hmoved, hl'⟩ := next_token h
  obtain ⟨kind, n, hpassed, ht⟩ := hm m hmem _ _ _ _ hrec hproduce
  have htext : t.text.toList = l.cursor.rest.take n := by
    simp [ht, Mark.token, Mark.here, hpassed.consumedSince]
  have hne : l.cursor.rest.take n ≠ [] := fun hnil => hmoved (hpassed.offset_eq_iff.2 hnil)
  refine ⟨?_, by rw [ht]; rfl, by rw [hl'], ?_, ?_, by rw [hl'], by rw [hl']⟩
  · intro hempty
    rw [hempty] at htext
    exact hne htext.symm
  · rw [htext, hpassed.past, Cursor.past_skip]
  · rw [htext, hpassed.rest, Cursor.rest_skip, List.take_append_drop]

/-- What a run that gives `tokens` does, step after step. -/
structure Consumes (l l' : Lexer) (tokens : List Token) : Prop where
  nonempty : ∀ t ∈ tokens, t.text ≠ ""
  contiguous : Contiguous l.context.start tokens
  past : l'.cursor.past = (textOf tokens).toList.reverse ++ l.cursor.past
  rest : l.cursor.rest = (textOf tokens).toList ++ l'.cursor.rest
  status : l'.status = l.status

theorem Yields.consumes {l l' : Lexer} {tokens : List Token} (h : l.Yields tokens l')
    (hm : ∀ m ∈ l.matchers, m.Forward) : l.Consumes l' tokens := by
  induction h with
  | none l => exact ⟨by simp, trivial, by simp, by simp, rfl⟩
  | @token l l' l'' t tokens hnext _ ih =>
    have ht := takes_of_next hm hnext
    have hts := ih (by rwa [ht.matchers])
    refine ⟨?_, ⟨ht.start, ?_⟩, ?_, ?_, hts.status.trans ht.status⟩
    · simpa using ⟨ht.nonempty, hts.nonempty⟩
    · simpa [ht.context, Context.start] using hts.contiguous
    · simp [hts.past, ht.past]
    · simp [← hts.rest, ht.rest]

/-- A run gives at most one token for each code point. -/
theorem Consumes.length_le {l l' : Lexer} {tokens : List Token} (h : l.Consumes l' tokens) :
    tokens.length ≤ l.cursor.rest.length := by
  have hlength : ∀ ts : List Token, (∀ t ∈ ts, t.text ≠ "") →
      ts.length ≤ (textOf ts).toList.length := by
    intro ts
    induction ts with
    | nil => simp
    | cons t ts ih =>
      intro hne
      have ht : t.text.toList ≠ [] := by simpa using hne t (by simp)
      have hpos := List.length_pos_iff.2 ht
      have hts := ih (fun u hu => hne u (by simp [hu]))
      rw [textOf_cons, String.toList_append, List.length_append, List.length_cons]
      omega
  have := hlength tokens h.nonempty
  rw [h.rest, List.length_append]
  omega

end Lexer

/-- Scans lose nothing: each token has a text and starts where the one before it ended, and the
texts make up the source, or what the cursor had passed of it before the step that failed. So no
scan gives more tokens than the source has code points. -/
theorem tokenizeBy_lossless (matchers : List Matcher) (source : String)
    (hm : ∀ m ∈ matchers, (∃ b : Builtin, m = b.matcher) ∨ m.Forward) :
    (∀ t ∈ Display.produced (tokenizeBy matchers source), t.text ≠ "") ∧
    Contiguous .origin (Display.produced (tokenizeBy matchers source)) ∧
    (Display.produced (tokenizeBy matchers source)).length ≤ source.length ∧
    (∀ tokens, tokenizeBy matchers source = .ok tokens → textOf tokens = source) ∧
    (∀ failure, tokenizeBy matchers source = .error failure →
      (textOf failure.tokens).toList <+: source.toList ∧
      ∃ l, (Lexer.start matchers source.toList).Yields failure.tokens l ∧
        l.next.1 = some (.error failure.error) ∧
        l.cursor.past.reverse = (textOf failure.tokens).toList) := by
  have hforward : ∀ m ∈ (Lexer.start matchers source.toList).matchers, m.Forward := by
    intro m hmem
    rcases hm m hmem with ⟨b, rfl⟩ | h
    · exact b.matcher_forward
    · exact h
  cases hresult : tokenizeBy matchers source with
  | ok tokens =>
    obtain ⟨l, hrun, hend⟩ := Lexer.yields_of_collect_ok hresult
    have hconsumes := hrun.consumes hforward
    have hle : tokens.length ≤ source.toList.length := hconsumes.length_le
    have hlength : tokens.length ≤ source.length := by rwa [String.length_toList] at hle
    refine ⟨hconsumes.nonempty, hconsumes.contiguous, hlength, ?_, by simp⟩
    rintro _ ⟨⟩
    -- the steps allowed outnumber the tokens, so the last step gave nothing
    have hnone : l.next.1 = none := hend.resolve_right (by
      change tokens.length ≠ source.toList.length + 1
      omega)
    have hrest := Lexer.next_none hconsumes.status hnone
    have hsource : source.toList = (textOf tokens).toList ++ l.cursor.rest := hconsumes.rest
    rw [hrest, List.append_nil] at hsource
    exact (String.toList_inj.1 hsource).symm
  | error failure =>
    obtain ⟨l, hrun, herror⟩ := Lexer.yields_of_collect_error hresult
    have hconsumes := hrun.consumes hforward
    have hle : failure.tokens.length ≤ source.toList.length := hconsumes.length_le
    have hlength : failure.tokens.length ≤ source.length := by rwa [String.length_toList] at hle
    refine ⟨hconsumes.nonempty, hconsumes.contiguous, hlength, by simp, ?_⟩
    rintro _ ⟨⟩
    refine ⟨⟨l.cursor.rest, hconsumes.rest.symm⟩, l, hrun, herror, ?_⟩
    rw [hconsumes.past]
    simp [Lexer.start, Cursor.start]

/-- A line break taken apart by a foreign matcher, and a string left open. -/
theorem tokenizeBy_lossless_open_string :
    let matchers := [Builtin.null.matcher, Builtin.string.matcher, .single "any" .otherSpace]
    let tokens : List Token :=
      [⟨.nullLiteral, "null", ⟨0, 0⟩, ⟨0, 4⟩⟩, ⟨.otherSpace, "\r", ⟨0, 4⟩, ⟨1, 0⟩⟩,
        ⟨.otherSpace, "\n", ⟨1, 0⟩, ⟨1, 0⟩⟩]
    (∀ m ∈ matchers, (∃ b : Builtin, m = b.matcher) ∨ m.Forward) ∧
      tokenizeBy matchers "null\r\n'x" = .error ⟨tokens, .unterminatedString ⟨1, 0⟩ ⟨1, 2⟩⟩ ∧
      Contiguous .origin tokens ∧ (textOf tokens).toList <+: "null\r\n'x".toList := by
  intro matchers tokens
  have hm : ∀ m ∈ matchers, (∃ b : Builtin, m = b.matcher) ∨ m.Forward := by
    simp only [matchers, List.forall_mem_cons, List.not_mem_nil, false_imp_iff, implies_true,
      and_true]
    exact ⟨.inl ⟨.null, rfl⟩, .inl ⟨.string, rfl⟩, .inr (Matcher.single_forward _ _)⟩
  have hresult : tokenizeBy matchers "null\r\n'x" =
      .error ⟨tokens, .unterminatedString ⟨1, 0⟩ ⟨1, 2⟩⟩ := rfl
  obtain ⟨-, hcontiguous, -, -, hpre⟩ := tokenizeBy_lossless matchers "null\r\n'x" hm
  rw [hresult] at hcontiguous
  exact ⟨hm, hresult, hcontiguous, (hpre _ hresult).1⟩

end JsLexer
