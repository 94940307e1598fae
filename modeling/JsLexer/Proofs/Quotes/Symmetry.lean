import JsLexer.Proofs.Quotes.Reading
import JsLexer.Proofs.Rewriting

/-!
The two quotes are alike.

A category recognizes a text with its quotes exchanged if it recognizes the text, and reads as much
of it. So the scans of both give the same kinds at the same positions, and fail with the same error
if they fail; no quote can be an unexpected code point as long as strings are looked for.
-/

namespace JsLexer

namespace Lexeme

/-! ### What is looked at -/

/-- A look at a text that asks whether it starts with `w`. -/
theorem ahead_eq_isPrefixOf {ahead : List Char → Bool} {w : List Char}
    (hyes : ∀ r, ahead (w ++ r) = true) (hno : ∀ cs, (∀ r, cs = w ++ r → False) → ahead cs = false)
    (cs : List Char) : ahead cs = w.isPrefixOf cs := by
  by_cases hcs : w <+: cs
  · obtain ⟨r, rfl⟩ := hcs
    rw [hyes, List.isPrefixOf_iff_prefix.2 (List.prefix_append w r)]
  · rw [hno cs fun r hr => hcs ⟨r, hr.symm⟩, eq_comm, Bool.eq_false_iff, Ne,
      List.isPrefixOf_iff_prefix]
    exact hcs

theorem singleLineCommentAhead_eq (cs : List Char) :
    singleLineCommentAhead cs = ['/', '/'].isPrefixOf cs :=
  ahead_eq_isPrefixOf (fun _ => rfl) singleLineCommentAhead.eq_2 cs

theorem multiLineCommentAhead_eq (cs : List Char) :
    multiLineCommentAhead cs = ['/', '*'].isPrefixOf cs :=
  ahead_eq_isPrefixOf (fun _ => rfl) multiLineCommentAhead.eq_2 cs

theorem wordAhead_exchangeQuotes {word : List Char} (h : '"' ∉ word) (h' : '\'' ∉ word)
    (cs : List Char) : wordAhead word (exchangeQuotes cs) = wordAhead word cs := by
  have hcontinues : continuesWord '"' = continuesWord '\'' := by decide +kernel
  rw [wordAhead, wordAhead, isPrefixOf_exchangeQuotes h h', any_getElem?_exchangeQuotes hcontinues]

theorem numeralAhead_exchangeQuotes (cs : List Char) :
    numeralAhead (exchangeQuotes cs) = numeralAhead cs := by
  refine apply_exchangeQuotes (fun _ _ => rfl) (fun c r _ _ => ?_) cs
  by_cases hpoint : c = '.'
  · rw [hpoint, numeralAhead_point, numeralAhead_point, any_head?_exchangeQuotes (by decide)]
  · simp [numeralAhead, hpoint]

theorem stringAhead_exchangeQuotes (cs : List Char) :
    stringAhead (exchangeQuotes cs) = stringAhead cs := by
  refine apply_exchangeQuotes (fun _ _ => rfl) (fun c r hc hc' => ?_) cs
  simp [stringAhead, hc, hc']

end Lexeme

namespace Builtin

/-- A category recognizes the exchanged text if it recognizes the text. -/
theorem recognizes_exchangeQuotes (b : Builtin) (cs : List Char) :
    b.recognizes (exchangeQuotes cs) = b.recognizes cs := by
  cases b with
  | whitespace | lineTerminator | punctuator => exact any_head?_exchangeQuotes (by decide) cs
  | singleLineComment =>
    simp only [recognizes, Lexeme.singleLineCommentAhead_eq]
    exact isPrefixOf_exchangeQuotes (by decide) (by decide) cs
  | multiLineComment =>
    simp only [recognizes, Lexeme.multiLineCommentAhead_eq]
    exact isPrefixOf_exchangeQuotes (by decide) (by decide) cs
  | boolean =>
    simp only [recognizes, Lexeme.booleanAhead]
    rw [Lexeme.wordAhead_exchangeQuotes (by decide) (by decide),
      Lexeme.wordAhead_exchangeQuotes (by decide) (by decide)]
  | null => exact Lexeme.wordAhead_exchangeQuotes (by decide) (by decide) cs
  | identifierName =>
    simp only [recognizes, Lexeme.nameAhead, Lexeme.escapeAhead_exchangeQuotes,
      any_head?_exchangeQuotes isNameStart_quote]
  | numeral => exact Lexeme.numeralAhead_exchangeQuotes cs
  | string => exact Lexeme.stringAhead_exchangeQuotes cs

theorem claimant_exchangeQuotes (bs : List Builtin) (cs : List Char) :
    claimant bs (exchangeQuotes cs) = claimant bs cs := by
  simp only [claimant, recognizes_exchangeQuotes]

/-- A category reads as much of the exchanged text as of the text. -/
theorem read_exchangeQuotes {b : Builtin} {cs : List Char} (h : b.recognizes cs = true) :
    b.read (exchangeQuotes cs) = b.read cs := by
  cases b with
  | whitespace => exact Lexeme.whitespace_exchangeQuotes cs
  | lineTerminator => exact Lexeme.lineTerminator_exchangeQuotes cs
  | singleLineComment => exact Lexeme.singleLineComment_exchangeQuotes h
  | multiLineComment => exact Lexeme.multiLineComment_exchangeQuotes h
  | boolean =>
    simp only [read, Lexeme.boolean]
    rw [Lexeme.word_exchangeQuotes _ (by decide) (by decide),
      Lexeme.word_exchangeQuotes _ (by decide) (by decide),
      isPrefixOf_exchangeQuotes (by decide) (by decide)]
  | null => exact Lexeme.word_exchangeQuotes _ (by decide) (by decide) cs
  | identifierName => exact Lexeme.name_exchangeQuotes cs
  | numeral => exact Lexeme.numeral_exchangeQuotes cs
  | string => exact Lexeme.string_exchangeQuotes cs
  | punctuator => exact Lexeme.punctuator_exchangeQuotes h

/-! ### Errors and pieces -/

theorem refusal_exchangeQuotes (b : Builtin) (cs : List Char) (reading : Reading) :
    b.refusal (exchangeQuotes cs) reading = b.refusal cs reading := by
  cases reading <;> simp only [refusal, take_exchangeQuotes, Position.after_exchangeQuotes]

/-- If strings are looked for, a text and the exchanged one start with the same error, if any. -/
theorem failure_exchangeQuotes {bs : List Builtin} (hbs : .string ∈ bs) (cs : List Char) :
    failure bs (exchangeQuotes cs) = failure bs cs := by
  have hsame := claimant_exchangeQuotes bs cs
  cases hb : claimant bs cs with
  | some b =>
    have hahead : b.recognizes cs = true := by simpa using List.find?_some hb
    rw [failure_of_claimant hb, failure_of_claimant (hsame.trans hb), read_exchangeQuotes hahead,
      refusal_exchangeQuotes]
  | none =>
    have hstring : ¬ string.recognizes cs = true := List.find?_eq_none.1 hb _ hbs
    rw [hb] at hsame
    cases cs with
    | nil => rfl
    | cons c cs =>
      -- a quote would have been claimed, so the code point to blame stays
      have hc : c ≠ '"' ∧ c ≠ '\'' := by
        constructor <;>
          · rintro rfl
            exact hstring rfl
      rw [exchangeQuotes_cons, otherQuote_of_ne hc.1 hc.2] at hsame ⊢
      rw [failure, failure, hsame, hb]

/-- An exchanged token is a token in the exchanged text. -/
theorem Accepts.exchangeQuotes {b : Builtin} {k : TokenKind} {w r : List Char} (h : b.Accepts k w)
    (hr : k.endsBefore w r = true) : b.Accepts k (JsLexer.exchangeQuotes w) ∧
      k.endsBefore (JsLexer.exchangeQuotes w) (JsLexer.exchangeQuotes r) = true := by
  obtain ⟨hahead, hread⟩ := h.read hr
  have hread' := read_exchangeQuotes hahead
  rw [hread] at hread'
  obtain ⟨w', r', hcs, hlength, hw', hr'⟩ :=
    accepts_of_read ((recognizes_exchangeQuotes b _).trans hahead) hread'
  rw [exchangeQuotes_append] at hcs
  obtain ⟨rfl, rfl⟩ := List.append_inj hcs (by rw [length_exchangeQuotes, hlength])
  exact ⟨hw', hr'⟩

end Builtin

/-- A piece with its quotes exchanged. -/
def Piece.otherQuotes (p : Piece) : Piece := { p with text := exchangeQuotes p.text }

/-- A token with its quotes exchanged. -/
def Token.otherQuotes (t : Token) : Token :=
  { t with text := String.ofList (exchangeQuotes t.text.toList) }

/-- If strings are looked for, a text and the exchanged one are scanned alike. -/
theorem Builtin.respects_exchangeQuotes {bs : List Builtin} (hbs : .string ∈ bs) :
    Respects bs JsLexer.exchangeQuotes .otherQuotes where
  nil := rfl
  claimant := claimant_exchangeQuotes bs
  failure := failure_exchangeQuotes hbs
  append _ _ := exchangeQuotes_append _ _
  accepts hp hr := hp.exchangeQuotes hr
  after q p := Position.after_exchangeQuotes q p.text

theorem Piece.token_otherQuotes (q : Position) (p : Piece) :
    p.otherQuotes.token q = (p.token q).otherQuotes := by
  have hafter : q.after p.otherQuotes.text = q.after p.text :=
    Position.after_exchangeQuotes q p.text
  rw [token, token, hafter, Token.otherQuotes, String.toList_ofList, otherQuotes]

/-- The two quotes are alike: with all quotes of a text exchanged, its scan gives the same kinds at
the same positions, exchanges the quotes of the texts, and succeeds or ends with the same error. -/
theorem tokenize_exchangeQuotes (source : String) :
    tokenize (String.ofList (exchangeQuotes source.toList)) =
      mapTokens (·.otherQuotes) (tokenize source) :=
  (Builtin.respects_exchangeQuotes (by decide)).tokenizeWith Piece.token_otherQuotes source

/-- Behind a backslash either quote stands for itself. -/
example : tokenize "'\\\'\\\"'" = .ok [⟨.string, "'\\\'\\\"'", ⟨0, 0⟩, ⟨0, 6⟩⟩] ∧
    tokenize "\"\\\"\\\'\"" = .ok [⟨.string, "\"\\\"\\\'\"", ⟨0, 0⟩, ⟨0, 6⟩⟩] := ⟨rfl, rfl⟩

end JsLexer
