import JsLexer.Proofs.Extension
import JsLexer.Proofs.Restart

/-!
Texts joined by a separator are scanned one by one.

Whatever a token is, a separator behind it decides as the end of input does: it continues no word
and no name, extends no punctuator and ends every number. Only two tokens take some separators into
themselves, a comment up to the end of the line and a carriage return before a line feed. What
follows the separator does not depend on what stands before it, so it is scanned as it would be by
itself, further on.
-/

namespace JsLexer

/-! ### Tokens before a separator -/

/-- A separator starts or extends no punctuator, and is neither a digit nor a part of a name. -/
theorem isSeparator_spec {c : Char} (h : isSeparator c = true) :
    Lexeme.isPunctuatorStart c = false ∧ Lexeme.continuesWord c = false ∧
      Lexeme.runsIntoNumber c = false ∧ isDecimalDigit c = false ∧ c ≠ 'u' := by
  have hall := of_isSeparator (p := fun d => !Lexeme.isPunctuatorStart d &&
    !Lexeme.continuesWord d && !Lexeme.runsIntoNumber d && !isDecimalDigit d && d != 'u')
    (by decide +kernel) h
  simpa [and_assoc] using hall

namespace TokenKind

/-- Only code points that start a punctuator make one longer. -/
theorem isPunctuatorStart_of_mem_extenders {k : TokenKind} {c : Char} (h : c ∈ k.extenders) :
    Lexeme.isPunctuatorStart c = true := by
  have hall : k.extenders.all Lexeme.isPunctuatorStart = true := by cases k <;> decide
  exact List.all_eq_true.1 hall c h

/-- Every token ends before a separator, unless it takes the separator into itself. -/
theorem endsBefore_separator {k : TokenKind} {w : List Char} {c : Char} (hc : isSeparator c = true)
    (hcomment : k = .singleLineComment → JsLexer.isLineTerminator c = true)
    (hbreak : w = ['\r'] → c ≠ '\n') (r : List Char) : k.endsBefore w (c :: r) = true := by
  obtain ⟨hstart, hword, hnumber, hdigit, -⟩ := isSeparator_spec hc
  have hpart := isNamePart_of_isSeparator hc
  have hextenders : k.extenders.contains c = false := by
    rw [Bool.eq_false_iff, Ne, List.contains_iff_mem]
    intro hmem
    simp [isPunctuatorStart_of_mem_extenders hmem] at hstart
  have hbackslash : c ≠ '\\' := by rintro rfl; exact absurd hc (by decide +kernel)
  have hpoint : c ≠ '.' := by rintro rfl; exact absurd hc (by decide +kernel)
  have hquestion : c ≠ '?' := by rintro rfl; exact absurd hc (by decide +kernel)
  cases k with
  | singleLineComment => exact hcomment rfl
  | carriageReturn => by_cases hw : w = ['\r'] <;> simp_all [endsBefore]
  | identifierName => simp [endsBefore, Lexeme.escapeAhead, hbackslash, hpart]
  | trueLiteral | falseLiteral | nullLiteral => simp [endsBefore, hword]
  | binary | octal | hex => exact hc
  | int => simp [endsBefore, hpoint, hnumber]
  | float => simp [endsBefore, hnumber]
  | questionMark => simp [endsBefore, hpoint, hquestion]
  | optionalChaining => simp [endsBefore, hdigit]
  | _ => simpa [endsBefore] using hextenders

end TokenKind

namespace Builtin

variable {bs : List Builtin}

/-- A separator is the second code point of no text, unless it is a word that is looked for. -/
theorem recognizes_of_cons_separator {b : Builtin} (hboolean : b ≠ .boolean) (hnull : b ≠ .null)
    {c d : Char} {r : List Char} (hc : isSeparator c = true)
    (h : b.recognizes (d :: c :: r) = true) : b.recognizes [d] = true := by
  obtain ⟨hstart, -, -, hdigit, hu⟩ := isSeparator_spec hc
  have hslash : c ≠ '/' := by rintro rfl; exact absurd hstart (by decide)
  have hstar : c ≠ '*' := by rintro rfl; exact absurd hstart (by decide)
  cases b with
  | boolean => exact absurd rfl hboolean
  | null => exact absurd rfl hnull
  | whitespace | lineTerminator | punctuator => exact h
  | string =>
    simp only [recognizes] at h ⊢
    unfold Lexeme.stringAhead at h ⊢
    split at h <;> simp_all
  | singleLineComment => simp [recognizes, Lexeme.singleLineCommentAhead, hslash] at h
  | multiLineComment => simp [recognizes, Lexeme.multiLineCommentAhead, hstar] at h
  | identifierName => simpa [recognizes, Lexeme.nameAhead, Lexeme.escapeAhead, hu] using h
  | numeral => by_cases hpoint : d = '.' <;> simp_all [recognizes, Lexeme.numeralAhead]

/-- A separator behind a text of some category makes no other category recognize the text. -/
theorem Accepts.recognizes_of_separator {b b' : Builtin} {k : TokenKind} {w r : List Char}
    {c : Char} (h : b.Accepts k w) (hr : k.endsBefore w (c :: r) = true) (hc : isSeparator c = true)
    (h' : b'.recognizes (w ++ c :: r) = true) : b'.recognizes w = true := by
  have hword : ∀ k' word, (k', word) ∈ Lexeme.literalWords →
      Lexeme.wordAhead word (w ++ c :: r) = true → Lexeme.wordAhead word w = true := by
    intro k' word hmem hahead
    obtain ⟨rfl, -⟩ := (h.wordAhead_iff hr hmem).1 hahead
    simpa using (h.wordAhead_iff (r := []) rfl hmem).2 ⟨rfl, rfl⟩
  by_cases hboolean : b' = .boolean
  · subst hboolean
    simp only [recognizes, Lexeme.booleanAhead, Bool.or_eq_true] at h' ⊢
    exact h'.imp (hword .trueLiteral _ (by decide)) (hword .falseLiteral _ (by decide))
  by_cases hnull : b' = .null
  · subst hnull
    exact hword .nullLiteral _ (by decide) h'
  rcases w with _ | ⟨d, _ | ⟨e, w⟩⟩
  · exact absurd rfl h.ne_nil
  · exact recognizes_of_cons_separator hboolean hnull hc h'
  · exact (recognizes_cons_cons hboolean hnull d e _ _).trans h'

/-- What is divided to its end is divided in the same way before a separator, unless the last piece
takes the separator into itself. -/
theorem Divides.before_separator {ps : List Piece} (h : Divides bs ps []) {c : Char}
    (hc : isSeparator c = true) {r : List Char}
    (hlast : ∀ p, ps.getLast? = some p → p.kind.endsBefore p.text (c :: r) = true) :
    Divides bs ps (c :: r) := by
  rcases List.eq_nil_or_concat ps with rfl | ⟨qs, q, rfl⟩
  · exact .nil _
  · rw [List.concat_eq_append] at h hlast ⊢
    have hq : Divides bs [q] (c :: r) := by
      have hr := hlast q (List.getLast?_concat ..)
      cases h.drop with
      | @cons b _ _ _ hb hq _ _ =>
        refine .cons (hq.claimant_eq hr hb fun b' h' => ?_) hq hr (.nil _)
        simpa using hq.recognizes_of_separator hr hc h'
    have hqs := h.extend (c :: r)
    exact Divides.append (by simpa using hqs) hq

/-- Where pieces end, the whole text of them ends: no line break is divided between two of them. -/
theorem Divides.endOf_eq {ps : List Piece} {r : List Char} (h : Divides bs ps r) (p : Position) :
    Piece.endOf p ps = p.after (Piece.concat ps) := by
  induction h generalizing p with
  | nil => rfl
  | @cons b q ps r _ hq hr _ ih =>
    rw [Piece.endOf, ih, Piece.concat_cons, Position.after_append]
    intro hreturn hfeed
    refine hq.head_ne_feed hr hreturn ?_
    rw [List.head?_append, hfeed, Option.some_or]

end Builtin

/-! ### The separator itself -/

/-- The kind of a separator. -/
def separatorKind : Char → TokenKind
  | '\n' => .lineFeed
  | '\r' => .carriageReturn
  | '\u2028' => .lineSeparator
  | '\u2029' => .paragraphSeparator
  | c => Lexeme.whitespaceKind c

theorem mem_lineBreaks_separatorKind {c : Char} (h : isLineTerminator c = true) :
    (separatorKind c, [c]) ∈ Lexeme.lineBreaks := by
  unfold isLineTerminator at h
  split at h
  · decide
  · decide
  · decide
  · decide
  · simp at h

theorem separatorKind_of_isWhitespace {c : Char} (h : isWhitespace c = true) :
    separatorKind c = Lexeme.whitespaceKind c := by
  unfold separatorKind
  split
  · exact absurd h (by decide)
  · exact absurd h (by decide)
  · exact absurd h (by decide)
  · exact absurd h (by decide)
  · rfl

/-- The first half of a line break does not end before the other half; every other separator ends
at once. -/
theorem endsBefore_separatorKind {c : Char} {r : List Char}
    (hr : c = '\r' → r.head? ≠ some '\n') : (separatorKind c).endsBefore [c] r = true := by
  cases r with
  | nil => rfl
  | cons d r =>
    unfold separatorKind
    split
    · rfl
    · have hd : d ≠ '\n' := by simpa using hr rfl
      simp [TokenKind.endsBefore, hd]
    · rfl
    · rfl
    · unfold Lexeme.whitespaceKind
      split <;> rfl

/-- The standard categories take a separator for what it is. -/
theorem Builtin.exists_claimant_separator {c : Char} (hc : isSeparator c = true) (r : List Char) :
    ∃ b, claimant standard (c :: r) = some b ∧ b.Accepts (separatorKind c) [c] := by
  cases hwhite : isWhitespace c with
  | true =>
    refine ⟨.whitespace, by simp [claimant, standard, recognizes, hwhite], c, rfl, hwhite, ?_⟩
    exact separatorKind_of_isWhitespace hwhite
  | false =>
    have hbreak : isLineTerminator c = true := by simpa [isSeparator, hwhite] using hc
    refine ⟨.lineTerminator, by simp [claimant, standard, recognizes, hwhite, hbreak], ?_⟩
    exact mem_lineBreaks_separatorKind hbreak

/-! ### Joined texts -/

/-- A text that is divided to its end, a separator, and a text behind it that is divided somehow. -/
theorem Builtin.Divides.join {ps qs : List Piece} {c : Char} {r : List Char}
    (h : Divides standard ps []) (hc : isSeparator c = true)
    (hlast : ∀ p, ps.getLast? = some p →
      p.kind.endsBefore p.text (c :: (Piece.concat qs ++ r)) = true)
    (hbehind : c = '\r' → (Piece.concat qs ++ r).head? ≠ some '\n')
    (hqs : Divides standard qs r) :
    Divides standard (ps ++ ⟨separatorKind c, [c]⟩ :: qs) r := by
  obtain ⟨b, hb, haccepts⟩ := exists_claimant_separator hc (Piece.concat qs ++ r)
  have hseparator : Divides standard (⟨separatorKind c, [c]⟩ :: qs) r :=
    .cons hb haccepts (endsBefore_separatorKind hbehind) hqs
  exact Divides.append (h.before_separator hc hlast) hseparator

/-- The outcome of a scan that had given other tokens before. -/
def outcomeBehind (tokens : List Token) :
    Except ScanFailure (List Token) → Except ScanFailure (List Token)
  | .ok later => .ok (tokens ++ later)
  | .error failure => .error ⟨tokens ++ failure.tokens, failure.error⟩

theorem outcomeBehind_append (ts us : List Token) (outcome : Except ScanFailure (List Token)) :
    outcomeBehind (ts ++ us) outcome = outcomeBehind ts (outcomeBehind us outcome) := by
  cases outcome <;> simp [outcomeBehind]

theorem Piece.report_cons (bs : List Builtin) (p : Position) (q : Piece) (ps : List Piece)
    (r : List Char) :
    report bs p (q :: ps) r = outcomeBehind [q.token p] (report bs (p.after q.text) ps r) := by
  unfold report
  cases Builtin.failure bs r <;> rfl

theorem Piece.report_append (bs : List Builtin) (p : Position) (ps qs : List Piece)
    (r : List Char) :
    report bs p (ps ++ qs) r = outcomeBehind (layOut p ps) (report bs (endOf p ps) qs r) := by
  induction ps generalizing p with
  | nil => rw [layOut, endOf, List.nil_append]; cases report bs p qs r <;> rfl
  | cons x ps ih =>
    rw [List.cons_append, report_cons, ih, ← outcomeBehind_append]
    rfl

/-- Texts joined by a separator are scanned one by one: an accepted text gives its tokens, the
separator gives a token of its own, and the text behind it gives what it gives by itself, tokens and
error alike, at positions counted from behind the separator. A comment up to the end of the line
takes white space into itself, so a line terminator has to follow it, and a carriage return and a
line feed must not come together. -/
theorem tokenize_join {a b : String} {c : Char} {tokens : List Token}
    (ha : tokenize a = .ok tokens) (hc : isSeparator c = true)
    (hcomment : ∀ t, tokens.getLast? = some t → t.kind = .singleLineComment →
      isLineTerminator c = true)
    (hbefore : ¬ (a.toList.getLast? = some '\r' ∧ c = '\n'))
    (hbehind : ¬ (c = '\r' ∧ b.toList.head? = some '\n')) :
    let start := Position.origin.after a.toList
    let stop := Position.origin.after (a.toList ++ [c])
    tokenize (a ++ String.singleton c ++ b) =
      outcomeBehind (tokens ++ [⟨separatorKind c, String.singleton c, start, stop⟩])
        (shiftOutcome stop (tokenize b)) := by
  intro start stop
  obtain ⟨ps, hps, hdivides, rfl⟩ := tokenizeWith_eq_ok.1 ha
  obtain ⟨qs, r, hqs, hlater, hend⟩ := Builtin.exists_divides Builtin.standard b.toList
  -- the pieces of the three texts are the pieces of the joined one
  have hlast : ∀ p, ps.getLast? = some p →
      p.kind.endsBefore p.text (c :: (Piece.concat qs ++ r)) = true := by
    intro p hp
    obtain ⟨before, rfl⟩ := List.getLast?_eq_some_iff.1 hp
    refine TokenKind.endsBefore_separator hc (hcomment (p.token (Piece.endOf .origin before)) ?_)
      (fun hreturn hfeed => hbefore ⟨?_, hfeed⟩) _
    · simp [Piece.layOut_append, Piece.layOut]
    · simp [hps, hreturn]
  have hbehind' : c = '\r' → (Piece.concat qs ++ r).head? ≠ some '\n' := by
    rw [← hqs]
    exact fun hreturn hfeed => hbehind ⟨hreturn, hfeed⟩
  have hjoined := hdivides.join hc hlast hbehind' hlater
  have hsource : (a ++ String.singleton c ++ b).toList =
      Piece.concat (ps ++ ⟨separatorKind c, [c]⟩ :: qs) ++ r := by
    simp [hps, hqs]
  -- and they end where the texts do
  have hstart : Piece.endOf .origin ps = start := by rw [hdivides.endOf_eq, ← hps]
  have hstop : start.after [c] = stop := by
    refine (Position.origin.after_append fun hreturn hfeed => hbefore ⟨hreturn, ?_⟩).symm
    simpa using hfeed
  have hb : tokenize b = Piece.report Builtin.standard .origin qs r :=
    tokenizeWith_of_divides hqs hlater hend
  calc tokenize (a ++ String.singleton c ++ b)
    _ = Piece.report Builtin.standard .origin (ps ++ ⟨separatorKind c, [c]⟩ :: qs) r :=
      tokenizeWith_of_divides hsource hjoined hend
    _ = outcomeBehind (Piece.layOut .origin ps) (outcomeBehind
          [⟨separatorKind c, String.singleton c, start, stop⟩]
          (Piece.report Builtin.standard stop qs r)) := by
      rw [Piece.report_append, hstart, Piece.report_cons, Piece.token, hstop,
        String.singleton_eq_ofList]
    _ = _ := by rw [outcomeBehind_append, hb, Piece.report_shift]

/-- A comment, the carriage return behind it, and a text that fails. -/
theorem tokenize_join_comment :
    let tokens : List Token :=
      [⟨.identifierName, "x", ⟨0, 0⟩, ⟨0, 1⟩⟩, ⟨.singleLineComment, "//c", ⟨0, 1⟩, ⟨0, 4⟩⟩]
    tokenize "x//c" = .ok tokens ∧ isSeparator '\r' = true ∧
      (∀ t, tokens.getLast? = some t → t.kind = .singleLineComment →
        isLineTerminator '\r' = true) ∧
      ¬ ("x//c".toList.getLast? = some '\r' ∧ '\r' = '\n') ∧
      ¬ ('\r' = '\r' ∧ ";'".toList.head? = some '\n') ∧
      tokenize "x//c\r;'" =
        .error ⟨tokens ++ [⟨.carriageReturn, "\r", ⟨0, 4⟩, ⟨1, 0⟩⟩,
          ⟨.semicolon, ";", ⟨1, 0⟩, ⟨1, 1⟩⟩], .unterminatedString ⟨1, 1⟩ ⟨1, 2⟩⟩ := by
  intro tokens
  have htokens : tokenize "x//c" = .ok tokens := rfl
  have hreturn : isSeparator '\r' = true := by decide
  have hcomment : ∀ t, tokens.getLast? = some t → t.kind = .singleLineComment →
      isLineTerminator '\r' = true := fun _ _ _ => rfl
  have hbefore : ¬ ("x//c".toList.getLast? = some '\r' ∧ '\r' = '\n') := by decide
  have hbehind : ¬ ('\r' = '\r' ∧ ";'".toList.head? = some '\n') := by decide
  refine ⟨htokens, hreturn, hcomment, hbefore, hbehind, ?_⟩
  have hjoin := tokenize_join htokens hreturn hcomment hbefore hbehind
  have hsource : "x//c" ++ String.singleton '\r' ++ ";'" = "x//c\r;'" := by decide
  rw [hsource] at hjoin
  exact hjoin

end JsLexer
