import JsLexer.Proofs.Grammar

/-!
How far ahead a scan looks.

A category is recognized by two code points, or by a word and the code point behind it. Once some
category has a text of its own ahead, the others cannot tell what follows that text but for its
first code point, and at the end of input none of them is recognized that was not so before
something.
The one exception is a backslash behind a text, which keeps a word from being a literal but does not
continue a name, either: such a backslash is the end of any scan.
-/

namespace JsLexer

namespace Builtin

/-! ### Categories that are not words -/

/-- Two code points are all that is looked at, unless it is a word. -/
theorem recognizes_cons_cons {b : Builtin} (hboolean : b ≠ .boolean) (hnull : b ≠ .null)
    (c d : Char) (cs cs' : List Char) :
    b.recognizes (c :: d :: cs) = b.recognizes (c :: d :: cs') := by
  cases b with
  | boolean => exact absurd rfl hboolean
  | null => exact absurd rfl hnull
  | singleLineComment =>
    simp only [recognizes]
    unfold Lexeme.singleLineCommentAhead
    split <;> split <;> simp_all
  | multiLineComment =>
    simp only [recognizes]
    unfold Lexeme.multiLineCommentAhead
    split <;> split <;> simp_all
  | identifierName =>
    simp only [recognizes, Lexeme.nameAhead]
    unfold Lexeme.escapeAhead
    split <;> split <;> simp_all
  | numeral =>
    by_cases hpoint : c = '.'
    · subst hpoint
      rfl
    · simp [recognizes, Lexeme.numeralAhead, hpoint]
  | string =>
    simp only [recognizes]
    unfold Lexeme.stringAhead
    split <;> split <;> simp_all
  | whitespace | lineTerminator | punctuator => rfl

/-- What is recognized by itself is recognized before anything, unless it is a word. -/
theorem recognizes_append {b : Builtin} (hboolean : b ≠ .boolean) (hnull : b ≠ .null)
    {w : List Char} (h : b.recognizes w = true) (r : List Char) :
    b.recognizes (w ++ r) = true := by
  rcases w with _ | ⟨c, _ | ⟨d, w⟩⟩
  · simp [recognizes_nil] at h
  · cases b with
    | boolean => exact absurd rfl hboolean
    | null => exact absurd rfl hnull
    | whitespace | lineTerminator | punctuator => exact h
    | singleLineComment => simp [recognizes, Lexeme.singleLineCommentAhead] at h
    | multiLineComment => simp [recognizes, Lexeme.multiLineCommentAhead] at h
    | identifierName =>
      have hc : isNameStart c = true := by
        simpa [recognizes, Lexeme.nameAhead, Lexeme.escapeAhead] using h
      simp [recognizes, Lexeme.nameAhead, hc]
    | numeral =>
      have hc : isDecimalDigit c = true := by simpa [recognizes, Lexeme.numeralAhead] using h
      have hpoint : c ≠ '.' := by
        rintro rfl
        exact absurd hc (by decide)
      simp [recognizes, Lexeme.numeralAhead, hpoint, hc]
    | string =>
      simp only [recognizes] at h ⊢
      unfold Lexeme.stringAhead at h ⊢
      split at h <;> simp_all
  · exact (recognizes_cons_cons hboolean hnull c d _ _).trans h

/-! ### Words -/

/-- Only a word or a name starts as a literal word does. -/
theorem recognizes_word {b : Builtin} (hboolean : b ≠ .boolean) (hnull : b ≠ .null)
    (hname : b ≠ .identifierName) {k : TokenKind} {word : List Char}
    (hword : (k, word) ∈ Lexeme.literalWords) (r : List Char) :
    b.recognizes (word ++ r) = false := by
  rcases Lexeme.mem_literalWords.1 hword with ⟨-, rfl⟩ | ⟨-, rfl⟩ | ⟨-, rfl⟩ <;> cases b <;>
    first
      | rfl
      | exact absurd rfl hboolean
      | exact absurd rfl hnull
      | exact absurd rfl hname

/-- A text of a category is a name or a literal word, or starts with neither. -/
theorem Accepts.name_or {b : Builtin} {k : TokenKind} {w : List Char} (h : b.Accepts k w) :
    (k = .identifierName ∧ Lexeme.IsName w) ∨ (k, w) ∈ Lexeme.literalWords ∨
      b ≠ .boolean ∧ b ≠ .null ∧ b ≠ .identifierName := by
  cases b with
  | boolean => rcases h with ⟨rfl, rfl⟩ | ⟨rfl, rfl⟩ <;> exact .inr (.inl (by decide))
  | null =>
    obtain ⟨rfl, rfl⟩ := h
    exact .inr (.inl (by decide))
  | identifierName => exact .inl h
  | _ => exact .inr (.inr ⟨nofun, nofun, nofun⟩)

/-- A literal word stands ahead only if it is the whole of the text that some category takes. -/
theorem Accepts.wordAhead_iff {b : Builtin} {k k' : TokenKind} {w r word : List Char}
    (h : b.Accepts k w) (hr : k.endsBefore w r = true) (hword : (k', word) ∈ Lexeme.literalWords) :
    Lexeme.wordAhead word (w ++ r) = true ↔
      w = word ∧ r.head?.all (!Lexeme.continuesWord ·) = true := by
  rcases h.name_or with ⟨rfl, hname⟩ | hliteral | ⟨hboolean, hnull, hname⟩
  · exact Lexeme.wordAhead_name hword hname hr
  · refine Lexeme.wordAhead_name hword (Lexeme.isName_of_mem_literalWords hliteral) ?_
    rw [Lexeme.endsBefore_literal hliteral] at hr
    exact Lexeme.endsBefore_name hr
  · have hother : ∀ r', w ++ r = word ++ r' → False := by
      intro r' hcs
      have hahead := (h.read hr).1
      rw [hcs, recognizes_word hboolean hnull hname hword] at hahead
      simp at hahead
    constructor
    · intro hahead
      obtain ⟨r', hcs, -⟩ := Lexeme.wordAhead_iff.1 hahead
      exact (hother r' hcs).elim
    · rintro ⟨rfl, -⟩
      exact (hother r rfl).elim

/-! ### All categories -/

/-- Behind a text that some category takes, only the first code point matters to the others. -/
theorem Accepts.recognizes_congr {b : Builtin} {k : TokenKind} {w r r' : List Char}
    (h : b.Accepts k w) (hr : k.endsBefore w r = true) (hr' : k.endsBefore w r' = true)
    (hhead : r.head? = r'.head?) (b' : Builtin) :
    b'.recognizes (w ++ r) = b'.recognizes (w ++ r') := by
  have hword : ∀ k' word, (k', word) ∈ Lexeme.literalWords →
      Lexeme.wordAhead word (w ++ r) = Lexeme.wordAhead word (w ++ r') := by
    intro k' word hmem
    rw [Bool.eq_iff_iff, h.wordAhead_iff hr hmem, h.wordAhead_iff hr' hmem, hhead]
  by_cases hboolean : b' = .boolean
  · subst hboolean
    simp only [recognizes, Lexeme.booleanAhead]
    rw [hword .trueLiteral _ (by decide), hword .falseLiteral _ (by decide)]
  by_cases hnull : b' = .null
  · subst hnull
    exact hword .nullLiteral _ (by decide)
  rcases w with _ | ⟨c, _ | ⟨d, w⟩⟩
  · exact absurd rfl h.ne_nil
  · cases r with
    | nil =>
      obtain rfl := List.head?_eq_none_iff.1 hhead.symm
      rfl
    | cons d r =>
      obtain ⟨r', rfl⟩ := List.head?_eq_some_iff.1 hhead.symm
      exact recognizes_cons_cons hboolean hnull c d r r'
  · exact recognizes_cons_cons hboolean hnull c d _ _

/-- Whether a backslash that does not start an escape comes first. -/
def strayBackslash (cs : List Char) : Bool := cs.head? == some '\\' && !Lexeme.escapeAhead cs

/-- Nothing starts with such a backslash. -/
theorem not_strayBackslash {b : Builtin} {cs : List Char} (h : b.recognizes cs = true) :
    strayBackslash cs = false := by
  rw [strayBackslash, Bool.and_eq_false_imp, beq_iff_eq, Bool.not_eq_false']
  intro hhead
  obtain ⟨r, rfl⟩ := List.head?_eq_some_iff.1 hhead
  cases b with
  | identifierName => simpa [recognizes, Lexeme.nameAhead, Lexeme.isNameStart_backslash] using h
  | _ => exact absurd (h : false = true) Bool.false_ne_true

/-- A text that spells a literal ends where the literal does. -/
theorem Accepts.endsWord {b : Builtin} {k k' : TokenKind} {w r : List Char} (h : b.Accepts k w)
    (hr : k.endsBefore w r = true) (hstray : strayBackslash r = false)
    (hword : (k', w) ∈ Lexeme.literalWords) : r.head?.all (!Lexeme.continuesWord ·) = true := by
  rcases h.name_or with ⟨rfl, -⟩ | hliteral | ⟨hboolean, hnull, hname⟩
  · cases r with
    | nil => rfl
    | cons c r =>
      by_cases hc : c = '\\' <;>
        simp_all [TokenKind.endsBefore, strayBackslash, Lexeme.continuesWord]
  · rwa [← Lexeme.endsBefore_literal hliteral]
  · have hahead := (h.read hr).1
    rw [recognizes_word hboolean hnull hname hword] at hahead
    simp at hahead

/-- A category that is recognized at the end of input is recognized before whatever the text can end
before, but for a stray backslash. -/
theorem Accepts.recognizes_of_end {b : Builtin} {k : TokenKind} {w r : List Char}
    (h : b.Accepts k w) (hr : k.endsBefore w r = true) (hstray : strayBackslash r = false)
    {b' : Builtin} (h' : b'.recognizes w = true) : b'.recognizes (w ++ r) = true := by
  have hword : ∀ k' word, (k', word) ∈ Lexeme.literalWords → Lexeme.wordAhead word w = true →
      Lexeme.wordAhead word (w ++ r) = true := by
    intro k' word hmem hahead
    rw [← List.append_nil w, h.wordAhead_iff rfl hmem] at hahead
    obtain ⟨rfl, -⟩ := hahead
    exact (h.wordAhead_iff hr hmem).2 ⟨rfl, h.endsWord hr hstray hmem⟩
  by_cases hboolean : b' = .boolean
  · subst hboolean
    simp only [recognizes, Lexeme.booleanAhead, Bool.or_eq_true] at h' ⊢
    exact h'.imp (hword .trueLiteral _ (by decide)) (hword .falseLiteral _ (by decide))
  by_cases hnull : b' = .null
  · subst hnull
    exact hword .nullLiteral _ (by decide) h'
  exact recognizes_append hboolean hnull h' r

/-- The category that gets a text of its own still gets it if other text follows, as long as no
category is recognized that was not so before. -/
theorem Accepts.claimant_eq {bs : List Builtin} {b : Builtin} {k : TokenKind} {w r r' : List Char}
    (h : b.Accepts k w) (hr' : k.endsBefore w r' = true) (hb : claimant bs (w ++ r) = some b)
    (hahead : ∀ b' : Builtin, b'.recognizes (w ++ r') = true → b'.recognizes (w ++ r) = true) :
    claimant bs (w ++ r') = some b := by
  rw [claimant, List.find?_eq_some_iff_append] at hb ⊢
  obtain ⟨-, before, behind, hbs, hbefore⟩ := hb
  refine ⟨(h.read hr').1, before, behind, hbs, fun b' hmem => ?_⟩
  have hnot := hbefore b' hmem
  cases h' : b'.recognizes (w ++ r') with
  | false => rfl
  | true => simp [hahead b' h'] at hnot

end Builtin

/-! ### Ends of tokens -/

namespace TokenKind

/-- Two code points behind a token are all that decides whether it ends. -/
theorem endsBefore_cons_cons (k : TokenKind) (w : List Char) (c d : Char) (cs cs' : List Char) :
    k.endsBefore w (c :: d :: cs) = k.endsBefore w (c :: d :: cs') := by
  have hescape : Lexeme.escapeAhead (c :: d :: cs) = Lexeme.escapeAhead (c :: d :: cs') := by
    unfold Lexeme.escapeAhead
    split <;> split <;> simp_all
  cases k <;> simp [endsBefore, hescape]

/-- What ends a token still does if it is cut off, unless only the point is left of a point and a
digit behind a question mark. -/
theorem endsBefore_of_prefix {k : TokenKind} {w r r' : List Char} (h : k.endsBefore w r = true)
    (hpre : r' <+: r) (hpoint : k = .questionMark → r' ≠ ['.']) :
    k.endsBefore w r' = true := by
  obtain ⟨t, rfl⟩ := hpre
  rcases r' with _ | ⟨c, _ | ⟨d, r'⟩⟩
  · rfl
  · by_cases hname : k = .identifierName
    · subst hname
      simp_all [endsBefore, Lexeme.escapeAhead]
    by_cases hquestion : k = .questionMark
    · subst hquestion
      simp_all [endsBefore]
    · cases k <;> first | exact h | contradiction
  · rwa [List.cons_append, List.cons_append, endsBefore_cons_cons k w c d _ r'] at h

/-- What ends a token still does if more text follows, unless it is a stray backslash. -/
theorem endsBefore_append {k : TokenKind} {w r : List Char} (h : k.endsBefore w r = true)
    (hr : r ≠ []) (hstray : Builtin.strayBackslash r = false) (t : List Char) :
    k.endsBefore w (r ++ t) = true := by
  rcases r with _ | ⟨c, _ | ⟨d, r⟩⟩
  · exact absurd rfl hr
  · by_cases hname : k = .identifierName
    · subst hname
      have hc : c ≠ '\\' := by
        rintro rfl
        simp [Builtin.strayBackslash, Lexeme.escapeAhead] at hstray
      simp_all [endsBefore, Lexeme.escapeAhead]
    by_cases hquestion : k = .questionMark
    · subst hquestion
      simp_all [endsBefore]
    · cases k <;> first | exact h | contradiction
  · rwa [List.cons_append, List.cons_append, endsBefore_cons_cons k w c d _ r]

end TokenKind

end JsLexer
