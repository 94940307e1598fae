import JsLexer.Proofs.Lookahead
import JsLexer.Proofs.Priority

/-!
Words that are literals, and names that spell them.

Whether a word ends is decided twice: for the literal by the code point behind it, for a name by two
code points. Both decide alike but for a backslash that starts no escape, before which a name ends
and the literal does not. Nothing starts with such a backslash, so a scan that takes one of these
words for a name fails right behind it.
-/

namespace JsLexer

namespace Lexeme

/-- A literal word stands ahead if a name is read there that spells it, unless a backslash stands
behind it. -/
theorem wordAhead_iff_name {k : TokenKind} {word cs : List Char}
    (hword : (k, word) ∈ literalWords) : wordAhead word cs = true ↔
      ∃ n, name cs = .token .identifierName n ∧ cs.take n = word ∧
        (cs.drop n).head? ≠ some '\\' := by
  constructor
  · intro hahead
    obtain ⟨r, rfl, hr⟩ := wordAhead_iff.1 hahead
    refine ⟨word.length, name_complete (isName_of_mem_literalWords hword) (endsBefore_name hr),
      List.take_left, ?_⟩
    rw [List.drop_left]
    intro hbackslash
    simp [hbackslash, continuesWord] at hr
  · rintro ⟨n, hread, htake, hbehind⟩
    obtain ⟨w, r, rfl, rfl, -, hr⟩ := name_sound hread
    rw [List.take_left] at htake
    rw [List.drop_left] at hbehind
    subst htake
    refine wordAhead_iff.2 ⟨r, rfl, ?_⟩
    cases r with
    | nil => rfl
    | cons c r => simp_all [TokenKind.endsBefore, continuesWord]

/-- Whatever ends a name that is no literal there starts with a stray backslash. -/
theorem strayBackslash_of_not_wordAhead {word r : List Char}
    (hr : TokenKind.identifierName.endsBefore word r = true)
    (hahead : wordAhead word (word ++ r) = false) : Builtin.strayBackslash r = true := by
  have hcontinues : r.head?.all (!continuesWord ·) ≠ true := by
    intro hall
    rw [wordAhead_iff.2 ⟨r, rfl, hall⟩] at hahead
    simp at hahead
  cases r with
  | nil => exact absurd rfl hcontinues
  | cons c r =>
    by_cases hc : c = '\\' <;>
      simp_all [TokenKind.endsBefore, continuesWord, Builtin.strayBackslash]

end Lexeme

namespace Builtin

/-! ### Matchers -/

/-- What a category produces is what it reads: the text that the cursor has passed then. -/
theorem produce_eq_ok {b : Builtin} {ctx : Context} {s s' : Cursor} {t : Token} :
    b.produce ctx s = (.ok t, s') ↔ ∃ n, b.read s.rest = .token t.kind n ∧ s' = s.skip n ∧
      t = ⟨t.kind, String.ofList (s.rest.take n), ctx.start, s'.position⟩ := by
  have hconsumed : ∀ n, ((s.skip n).consumedSince s.offset).getD [] = s.rest.take n := fun n => by
    rw [(Cursor.passed_skip n s).consumedSince, Option.getD_some]
  rw [produce]
  cases b.read s.rest with
  | token k n =>
    simp only [outcome, Reading.length, Mark.token, Mark.here, hconsumed, Prod.mk.injEq,
      Except.ok.injEq, Reading.token.injEq]
    constructor
    · rintro ⟨rfl, rfl⟩
      exact ⟨n, ⟨rfl, rfl⟩, rfl, rfl⟩
    · rintro ⟨_, ⟨hk, rfl⟩, rfl, ht⟩
      exact ⟨by rw [ht, hk], rfl⟩
  | malformed | openString | openComment => simp [outcome]

/-- A literal word stands ahead of a cursor if a name that spells it is produced there, unless the
cursor is left before a backslash. -/
theorem wordAhead_iff_produce {k : TokenKind} {word : List Char}
    (hword : (k, word) ∈ Lexeme.literalWords) (ctx : Context) (s : Cursor) :
    Lexeme.wordAhead word s.rest = true ↔ ∃ t s', identifierName.produce ctx s = (.ok t, s') ∧
      t.text = String.ofList word ∧ s'.peek ≠ some '\\' := by
  have hpeek : ∀ s : Cursor, s.peek = s.rest.head? := fun s => List.head?_eq_getElem?.symm
  rw [Lexeme.wordAhead_iff_name hword]
  constructor
  · rintro ⟨n, hread, htake, hbehind⟩
    refine ⟨⟨.identifierName, String.ofList word, ctx.start, (s.skip n).position⟩, s.skip n,
      produce_eq_ok.2 ⟨n, hread, rfl, by rw [htake]⟩, rfl, ?_⟩
    rwa [hpeek, Cursor.rest_skip]
  · rintro ⟨t, s', hproduce, htext, hbehind⟩
    obtain ⟨n, hread, rfl, ht⟩ := produce_eq_ok.1 hproduce
    obtain ⟨-, -, -, -, ⟨hk, -⟩, -⟩ := Lexeme.name_sound hread
    rw [hpeek, Cursor.rest_skip] at hbehind
    refine ⟨n, hk ▸ hread, ?_, hbehind⟩
    rw [ht] at htext
    exact String.ofList_injective htext

/-! ### Scans -/

/-- In the standard order a word that is a literal there is never left to the names. -/
theorem wordAhead_of_claimant {k : TokenKind} {word cs : List Char}
    (hword : (k, word) ∈ Lexeme.literalWords)
    (hclaimant : claimant standard cs = some .identifierName) :
    Lexeme.wordAhead word cs = false := by
  have hnot : ∀ b : Builtin, standard.idxOf b < standard.idxOf .identifierName →
      b.recognizes cs = false := by
    intro b hbefore
    refine Bool.eq_false_iff.2 fun hahead => ?_
    have hne : Builtin.identifierName ≠ b := by
      rintro rfl
      exact Nat.lt_irrefl _ hbefore
    have hbehind := idxOf_lt_of_find? hclaimant (mem_standard b) hahead hne
    exact Nat.lt_asymm hbefore hbehind
  have hboolean := hnot .boolean (by decide)
  have hnull := hnot .null (by decide)
  simp only [recognizes, Lexeme.booleanAhead, Bool.or_eq_false_iff] at hboolean hnull
  rcases Lexeme.mem_literalWords.1 hword with ⟨-, rfl⟩ | ⟨-, rfl⟩ | ⟨-, rfl⟩
  · exact hboolean.1
  · exact hboolean.2
  · exact hnull

/-- A name that spells a literal is the last piece, and a stray backslash follows it. -/
theorem Divides.literal_last {k : TokenKind} {word : List Char} {ps qs : List Piece}
    {r : List Char} (h : Divides standard (ps ++ ⟨.identifierName, word⟩ :: qs) r)
    (hword : (k, word) ∈ Lexeme.literalWords) : qs = [] ∧ strayBackslash r = true := by
  cases h.drop with
  | @cons b _ _ _ hb hp hr hqs =>
    obtain rfl : b = .identifierName := hp.eq_category
    have hstray := Lexeme.strayBackslash_of_not_wordAhead hr (wordAhead_of_claimant hword hb)
    have hnil : qs = [] := by
      by_contra hne
      obtain ⟨b', hb'⟩ := hqs.exists_recognizes hne
      rw [Builtin.not_strayBackslash hb'] at hstray
      simp at hstray
    subst hnil
    exact ⟨rfl, hstray⟩

/-- On a stray backslash every scan fails. -/
theorem failure_strayBackslash {bs : List Builtin} {r : List Char} (h : strayBackslash r = true) :
    failure bs r = some (.unexpectedCharacter '\\' .origin) := by
  have hnone : claimant bs r = none := by
    refine List.find?_eq_none.2 fun b _ hahead => ?_
    rw [not_strayBackslash hahead] at h
    simp at h
  rw [strayBackslash, Bool.and_eq_true, beq_iff_eq] at h
  obtain ⟨cs, rfl⟩ := List.head?_eq_some_iff.1 h.1
  rw [failure, hnone]

end Builtin

/-- A token of a division is the token of one of its pieces, laid out behind the pieces before. -/
theorem Piece.exists_of_mem_layOut {p : Position} {ps : List Piece} {t : Token}
    (h : t ∈ layOut p ps) :
    ∃ before q behind, ps = before ++ q :: behind ∧ t = q.token (endOf p before) := by
  induction ps generalizing p with
  | nil => simp [layOut] at h
  | cons q ps ih =>
    rcases List.mem_cons.1 h with rfl | hlater
    · exact ⟨[], q, ps, rfl, rfl⟩
    · obtain ⟨before, q', behind, rfl, ht⟩ := ih hlater
      exact ⟨q :: before, q', behind, rfl, ht⟩

/-- A scan by the standard categories takes a literal word for a name only as its last token, and
fails at the backslash behind it. -/
theorem tokenize_of_literal_name {source : String} {t : Token} {k : TokenKind} {word : List Char}
    (h : t ∈ Display.produced (tokenize source)) (hkind : t.kind = .identifierName)
    (hword : (k, word) ∈ Lexeme.literalWords) (htext : t.text = String.ofList word) :
    ∃ tokens, tokenize source = .error ⟨tokens ++ [t], .unexpectedCharacter '\\' t.stop⟩ := by
  obtain ⟨ps, r, hsource, hdivides, hend⟩ := Builtin.exists_divides Builtin.standard source.toList
  rw [tokenize, produced_of_divides hsource hdivides hend] at h
  obtain ⟨before, ⟨kind, w⟩, behind, rfl, rfl⟩ := Piece.exists_of_mem_layOut h
  obtain rfl : kind = .identifierName := hkind
  obtain rfl : w = word := String.ofList_injective htext
  obtain ⟨rfl, hstray⟩ := hdivides.literal_last hword
  refine ⟨Piece.layOut .origin before, ?_⟩
  rw [tokenize, tokenizeWith_of_divides hsource hdivides hend, Piece.report,
    Builtin.failure_strayBackslash hstray, Piece.layOut_append, Piece.endOf_append]
  simp only [Piece.layOut, Piece.endOf, LexError.shift, Position.shift_origin, Piece.token]

/-- The literals `true`, `false` and `null` are recognized wherever a name is produced that spells
them, but for one case: a backslash that starts no escape ends a name and no literal. In a scan by
the standard categories such a name is the last token, and the scan fails at the backslash. -/
theorem literal_recognized_iff_name (ctx : Context) (s : Cursor) (source : String) :
    (Builtin.boolean.matcher.recognize s = true ↔
      ∃ t s', Builtin.identifierName.matcher.produce ctx s = (.ok t, s') ∧
        (t.text = "true" ∨ t.text = "false") ∧ s'.peek ≠ some '\\') ∧
    (Builtin.null.matcher.recognize s = true ↔
      ∃ t s', Builtin.identifierName.matcher.produce ctx s = (.ok t, s') ∧
        t.text = "null" ∧ s'.peek ≠ some '\\') ∧
    (∀ t ∈ Display.produced (tokenize source), t.kind = .identifierName →
      t.text ∈ ["true", "false", "null"] →
      ∃ tokens, tokenize source = .error ⟨tokens ++ [t], .unexpectedCharacter '\\' t.stop⟩) := by
  have htrue : (TokenKind.trueLiteral, Lexeme.trueWord) ∈ Lexeme.literalWords := by decide
  have hfalse : (TokenKind.falseLiteral, Lexeme.falseWord) ∈ Lexeme.literalWords := by decide
  have hnull : (TokenKind.nullLiteral, Lexeme.nullWord) ∈ Lexeme.literalWords := by decide
  refine ⟨?_, ?_, fun t ht hkind htext => ?_⟩
  · change (Lexeme.wordAhead Lexeme.trueWord s.rest || Lexeme.wordAhead Lexeme.falseWord s.rest) =
      true ↔ _
    rw [Bool.or_eq_true, Builtin.wordAhead_iff_produce htrue ctx,
      Builtin.wordAhead_iff_produce hfalse ctx]
    constructor
    · rintro (⟨t, s', hproduce, htext, hpeek⟩ | ⟨t, s', hproduce, htext, hpeek⟩)
      · exact ⟨t, s', hproduce, .inl htext, hpeek⟩
      · exact ⟨t, s', hproduce, .inr htext, hpeek⟩
    · rintro ⟨t, s', hproduce, htext | htext, hpeek⟩
      · exact .inl ⟨t, s', hproduce, htext, hpeek⟩
      · exact .inr ⟨t, s', hproduce, htext, hpeek⟩
  · exact Builtin.wordAhead_iff_produce hnull ctx s
  · simp only [List.mem_cons, List.not_mem_nil, or_false] at htext
    rcases htext with htext | htext | htext
    · exact tokenize_of_literal_name ht hkind htrue htext
    · exact tokenize_of_literal_name ht hkind hfalse htext
    · exact tokenize_of_literal_name ht hkind hnull htext

/-- Before a stray backslash a name is produced that spells `true` where no literal is recognized,
so a scan takes the word for a name. -/
theorem literal_not_recognized_before_backslash :
    let s := Cursor.start "true\\x".toList
    ¬ (Builtin.boolean.matcher.recognize s = true ↔
        ∃ t s', Builtin.identifierName.matcher.produce .initial s = (.ok t, s') ∧
          (t.text = "true" ∨ t.text = "false")) ∧
      tokenize "true\\x" = .error
        ⟨[⟨.identifierName, "true", ⟨0, 0⟩, ⟨0, 4⟩⟩], .unexpectedCharacter '\\' ⟨0, 4⟩⟩ := by
  intro s
  have hname : Builtin.identifierName.matcher.produce .initial s =
      (.ok ⟨.identifierName, "true", ⟨0, 0⟩, ⟨0, 4⟩⟩, s.skip 4) := rfl
  have hnot : Builtin.boolean.matcher.recognize s = false := rfl
  refine ⟨fun hiff => ?_, rfl⟩
  have hahead := hiff.2 ⟨_, _, hname, .inl rfl⟩
  rw [hnot] at hahead
  simp at hahead

end JsLexer
