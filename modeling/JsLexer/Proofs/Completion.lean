import JsLexer.Proofs.Continuation
import JsLexer.Proofs.Cut
import JsLexer.Proofs.Extension

/-!
When more text completes what a scan broke off.

A scan that fails inside a string or a comment over several lines keeps its tokens if more text
follows, and the category that failed gets the text again. So the longer scan goes on exactly if
that category now reads a token, and this depends on its own grammar alone. An error that leaves its
construct open promises that this can be done, and for a comment it can. For a string there is the
exception of an escape between braces whose value is too large before it can be closed.
-/

namespace JsLexer

/-- The category that had claimed the text, if any had. -/
def LexError.category? : LexError → Option Builtin
  | .unexpectedToken matcher _ => Builtin.ofName? matcher
  | .unterminatedString .. => some .string
  | .unterminatedComment .. => some .multiLineComment
  | .unexpectedCharacter .. => none

theorem LexError.category?_shift (p : Position) (e : LexError) :
    (e.shift p).category? = e.category? := by
  cases e <;> rfl

theorem LexError.isUnterminated_shift (p : Position) (e : LexError) :
    (e.shift p).isUnterminated = e.isUnterminated := by
  cases e <;> rfl

namespace Builtin

/-- The categories that end with a closing mark, and the kinds of their tokens. -/
def delimited : List (Builtin × TokenKind) :=
  [(.string, .string), (.multiLineComment, .multiLineComment)]

theorem mem_delimited {b : Builtin} {k : TokenKind} : (b, k) ∈ delimited ↔
    b = .string ∧ k = .string ∨ b = .multiLineComment ∧ k = .multiLineComment := by
  simp [delimited]

variable {b : Builtin} {k : TokenKind} {cs : List Char} {e : LexError}

/-! ### One category -/

theorem category?_of_refusal (hahead : b.recognizes cs = true)
    (he : b.refusal cs (b.read cs) = some e) : e.category? = some b := by
  have hread := mayRead hahead
  cases hreading : b.read cs with
  | token => simp [hreading, refusal] at he
  | malformed n =>
    rw [hreading, refusal, Option.some.injEq] at he
    subst he
    exact ofName?_name b
  | openString n =>
    rw [hreading] at hread he
    obtain rfl := Option.some.inj he
    exact congrArg some hread.1.symm
  | openComment n =>
    rw [hreading] at hread he
    obtain rfl := Option.some.inj he
    exact congrArg some hread.1.symm

/-- A failure that names a category is that category's refusal of the text. -/
theorem refusal_of_failure {bs : List Builtin} (he : failure bs cs = some e)
    (hb : e.category? = some b) :
    claimant bs cs = some b ∧ b.refusal cs (b.read cs) = some e := by
  cases cs with
  | nil => simp [failure] at he
  | cons c cs =>
    rw [failure] at he
    split at he
    · obtain rfl := Option.some.inj he
      simp [LexError.category?] at hb
    · next b' hb' =>
      have hahead : b'.recognizes (c :: cs) = true := by simpa using List.find?_some hb'
      have hcategory := category?_of_refusal hahead he
      rw [hb, Option.some.injEq] at hcategory
      subst hcategory
      exact ⟨hb', he⟩

/-- What a category refuses is no token. -/
theorem ne_token_of_refusal (he : b.refusal cs (b.read cs) = some e) (k : TokenKind) (n : Nat) :
    b.read cs ≠ .token k n := by
  intro hread
  simp [hread, refusal] at he

/-- The error for what was refused is unterminated exactly if the reading is open. -/
theorem isUnterminated_iff (he : b.refusal cs (b.read cs) = some e) :
    e.isUnterminated = true ↔ ∃ n, b.read cs = .openString n ∨ b.read cs = .openComment n := by
  cases hread : b.read cs with
  | token => simp [hread, refusal] at he
  | malformed n | openString n | openComment n =>
    rw [hread, refusal, Option.some.injEq] at he
    subst he
    simp [LexError.isUnterminated]

/-- More text makes a token of what was refused exactly if the error is unterminated and the text
is not among the strings that never close. -/
theorem completable_iff (hk : (b, k) ∈ delimited) (hahead : b.recognizes cs = true)
    (he : b.refusal cs (b.read cs) = some e) :
    (∃ t n, b.read (cs ++ t) = .token k n) ↔
      e.isUnterminated = true ∧ ¬ Lexeme.NeverCloses cs := by
  have hmay := mayRead hahead
  rw [isUnterminated_iff he]
  rcases mem_delimited.1 hk with ⟨rfl, rfl⟩ | ⟨rfl, rfl⟩
  · have hkind : ∀ {t k n}, string.read (cs ++ t) = .token k n → k = .string := by
      intro t k n hread
      obtain ⟨w, r, -, -, ⟨hk, -⟩, -⟩ :=
        accepts_of_read (recognizes_append (b := .string) nofun nofun hahead t) hread
      exact hk
    have hopen : (∃ n, string.read cs = .openString n ∨ string.read cs = .openComment n) ↔
        ∃ n, Lexeme.string cs = .openString n := by
      refine exists_congr fun n => or_iff_left fun hcomment => ?_
      rw [hcomment] at hmay
      exact absurd hmay.1 (by decide)
    rw [hopen, ← Lexeme.string_completable_iff hahead (ne_token_of_refusal he)]
    constructor
    · rintro ⟨t, n, hread⟩
      exact ⟨t, _, n, hread⟩
    · rintro ⟨t, k, n, hread⟩
      exact ⟨t, n, hkind hread ▸ hread⟩
  · refine iff_of_true ⟨_, Lexeme.multiLineComment_fill hahead⟩ ⟨?_, ?_⟩
    · rcases Lexeme.multiLineComment_outcome hahead with ⟨n, hn⟩ | hopen
      · exact absurd hn (ne_token_of_refusal he _ n)
      · exact ⟨_, .inr hopen⟩
    · rintro ⟨quote, v, hquote, rfl, -⟩
      rcases hquote with rfl | rfl <;> exact absurd (hahead : false = true) Bool.false_ne_true

/-- The standard categories leave what starts a string or a comment over several lines to the
category that it belongs to. -/
theorem claimant_delimited (hk : (b, k) ∈ delimited) (hahead : b.recognizes cs = true) :
    claimant standard cs = some b := by
  rcases mem_delimited.1 hk with ⟨rfl, -⟩ | ⟨rfl, -⟩
  · simp only [recognizes] at hahead
    unfold Lexeme.stringAhead at hahead
    split at hahead
    · rfl
    · rfl
    · simp at hahead
  · simp only [recognizes] at hahead
    unfold Lexeme.multiLineCommentAhead at hahead
    split at hahead
    · rfl
    · simp at hahead

/-- The category that gets a divided text reads its first piece. -/
theorem Divides.read_head {bs : List Builtin} {q : Piece} {qs : List Piece} {r : List Char}
    (h : Divides bs (q :: qs) r) (hb : claimant bs (Piece.concat (q :: qs) ++ r) = some b) :
    b.read (Piece.concat (q :: qs) ++ r) = .token q.kind q.text.length := by
  rw [Piece.concat_cons, List.append_assoc] at hb ⊢
  cases h with
  | @cons b' _ _ _ hb' hq hr _ =>
    obtain rfl : b = b' := Option.some.inj (hb.symm.trans hb')
    exact (hq.read hr).2

/-- No scan comes to its end where a category gets the text and reads a token. -/
theorem not_halts {bs : List Builtin} {n : Nat} (hb : claimant bs cs = some b)
    (hread : b.read cs = .token k n) : ¬ Halts bs cs := by
  rintro (rfl | hfailure)
  · simp [claimant_nil] at hb
  · simp [failure_of_claimant hb, hread, refusal] at hfailure

end Builtin

/-! ### Whole scans -/

/-- The next token starts where the tokens of all pieces so far end. -/
theorem Piece.start_layOut (ps : List Piece) :
    Context.start ⟨(layOut .origin ps).getLast?⟩ = endOf .origin ps := by
  rcases List.eq_nil_or_concat ps with rfl | ⟨qs, q, rfl⟩
  · rfl
  · simp [layOut_append, endOf_append, layOut, endOf, Context.start, token]

/-- More text lets the scan go on behind `tokens`: it gives a token of kind `k` that starts where
these end. -/
def Completable (source : String) (tokens : List Token) (k : TokenKind) : Prop :=
  ∃ (t : String) (u : Token), tokens ++ [u] <+: Display.produced (tokenize (source ++ t)) ∧
    u.kind = k ∧ u.start = Context.start ⟨tokens.getLast?⟩

/-- With more text the pieces are the same, then come those of the rest, and the category that
failed gets the first of these. -/
theorem exists_divides_more {source : String} {ps : List Piece} {r : List Char} {b : Builtin}
    {k : TokenKind} (hsource : source.toList = Piece.concat ps ++ r)
    (hdivides : Builtin.Divides Builtin.standard ps r) (hk : (b, k) ∈ Builtin.delimited)
    (hahead : b.recognizes r = true) (t : String) :
    ∃ qs r', r ++ t.toList = Piece.concat qs ++ r' ∧ Builtin.Divides Builtin.standard qs r' ∧
      Builtin.Halts Builtin.standard r' ∧
      Builtin.claimant Builtin.standard (Piece.concat qs ++ r') = some b ∧
      Display.produced (tokenize (source ++ t)) =
        Piece.layOut .origin ps ++ Piece.layOut (Piece.endOf .origin ps) qs := by
  have hword : b ≠ .boolean ∧ b ≠ .null := by
    rcases Builtin.mem_delimited.1 hk with ⟨rfl, -⟩ | ⟨rfl, -⟩ <;> exact ⟨nofun, nofun⟩
  obtain ⟨qs, r', hrest, hlater, hend⟩ := Builtin.exists_divides Builtin.standard (r ++ t.toList)
  have hfirst := hdivides.before_more (Builtin.ne_nil_of_recognizes hahead)
    (Builtin.not_strayBackslash hahead) t.toList
  have hclaimant := Builtin.claimant_delimited hk
    (Builtin.recognizes_append hword.1 hword.2 hahead t.toList)
  rw [hrest] at hfirst hclaimant
  have hst : (source ++ t).toList = Piece.concat (ps ++ qs) ++ r' := by
    rw [String.toList_append, hsource, List.append_assoc, hrest, Piece.concat_append,
      List.append_assoc]
  refine ⟨qs, r', hrest, hlater, hend, hclaimant, ?_⟩
  rw [tokenize, produced_of_divides hst (hfirst.append hlater) hend, Piece.layOut_append]

/-- A scan goes on behind its pieces exactly if the category that failed reads a token once more
text follows. -/
theorem completable_iff_read {source : String} {ps : List Piece} {r : List Char} {b : Builtin}
    {k : TokenKind} (hsource : source.toList = Piece.concat ps ++ r)
    (hdivides : Builtin.Divides Builtin.standard ps r) (hk : (b, k) ∈ Builtin.delimited)
    (hahead : b.recognizes r = true) :
    Completable source (Piece.layOut .origin ps) k ↔ ∃ t n, b.read (r ++ t) = .token k n := by
  have hlonger := exists_divides_more hsource hdivides hk hahead
  constructor
  · rintro ⟨t, u, hpre, rfl, -⟩
    obtain ⟨qs, r', hrest, hlater, -, hclaimant, hproduced⟩ := hlonger t
    rw [hproduced, List.prefix_append_right_inj] at hpre
    cases qs with
    | nil => simp [Piece.layOut] at hpre
    | cons q qs =>
      obtain ⟨rfl, -⟩ := List.cons_prefix_cons.1 hpre
      exact ⟨t.toList, _, hrest ▸ hlater.read_head hclaimant⟩
  · rintro ⟨t, n, hread⟩
    obtain ⟨qs, r', hrest, hlater, hend, hclaimant, hproduced⟩ := hlonger (String.ofList t)
    rw [String.toList_ofList] at hrest
    rw [hrest] at hread
    cases qs with
    | nil => exact absurd hend (Builtin.not_halts hclaimant hread)
    | cons q qs =>
      obtain ⟨hkind, -⟩ := Reading.token.inj ((hlater.read_head hclaimant).symm.trans hread)
      refine ⟨String.ofList t, q.token (Piece.endOf .origin ps), ?_, hkind, ?_⟩
      · rw [hproduced, List.prefix_append_right_inj]
        exact List.cons_prefix_cons.2 ⟨rfl, List.nil_prefix⟩
      · rw [Piece.start_layOut, Piece.token]

/-- After a scan that failed in a string or in a comment over several lines, more text gives a
further token behind the same ones exactly if the error is unterminated, unless it is about a string
that never closes: one with an escape between braces that is not closed and whose value is too large
already, or will be before the count of its digits is positive. -/
theorem tokenize_completable_iff {source : String} {tokens : List Token} {error : LexError}
    {b : Builtin} {k : TokenKind} (h : tokenize source = .error ⟨tokens, error⟩)
    (hb : error.category? = some b) (hk : (b, k) ∈ Builtin.delimited) :
    Completable source tokens k ↔ error.isUnterminated = true ∧
      ¬ Lexeme.NeverCloses (source.toList.drop (textOf tokens).toList.length) := by
  obtain ⟨ps, r, hsource, hdivides, hend⟩ :=
    Builtin.exists_divides Builtin.standard source.toList
  rw [tokenize, tokenizeWith_of_divides hsource hdivides hend, Piece.report] at h
  cases hfailure : Builtin.failure Builtin.standard r with
  | none => simp [hfailure] at h
  | some e =>
    obtain ⟨rfl, rfl⟩ : Piece.layOut .origin ps = tokens ∧
        e.shift (Piece.endOf .origin ps) = error := by
      simpa [hfailure] using h
    rw [LexError.category?_shift] at hb
    obtain ⟨hclaimant, hrefusal⟩ := Builtin.refusal_of_failure hfailure hb
    have hahead : b.recognizes r = true := by simpa using List.find?_some hclaimant
    have hrest : source.toList.drop (textOf (Piece.layOut .origin ps)).toList.length = r := by
      rw [textOf_layOut, hsource, List.drop_left]
    rw [completable_iff_read hsource hdivides hk hahead,
      Builtin.completable_iff hk hahead hrefusal, LexError.isUnterminated_shift, hrest]

/-- A comment that can be closed, and a string that cannot for an escape that there is not. -/
theorem tokenize_completable_iff_comment_string :
    let tokens : List Token := [⟨.identifierName, "x", ⟨0, 0⟩, ⟨0, 1⟩⟩]
    (tokenize "x/*\n" = .error ⟨tokens, .unterminatedComment ⟨0, 1⟩ ⟨1, 0⟩⟩ ∧
      Completable "x/*\n" tokens .multiLineComment) ∧
    (tokenize "x'\\9" = .error ⟨tokens, .unexpectedToken "string" ⟨0, 4⟩⟩ ∧
      ¬ Completable "x'\\9" tokens .string) := by
  intro tokens
  have hcomment : tokenize "x/*\n" = .error ⟨tokens, .unterminatedComment ⟨0, 1⟩ ⟨1, 0⟩⟩ := rfl
  have hstring : tokenize "x'\\9" = .error ⟨tokens, .unexpectedToken "string" ⟨0, 4⟩⟩ := rfl
  refine ⟨⟨hcomment, ?_⟩, hstring, fun hcompletable => ?_⟩
  · refine (tokenize_completable_iff hcomment (b := .multiLineComment) rfl (by decide)).2 ⟨rfl, ?_⟩
    have hrest : "x/*\n".toList.drop (textOf tokens).toList.length = ['/', '*', '\n'] := by
      simp [tokens]
    rw [hrest]
    rintro ⟨quote, v, hquote, hv, -⟩
    obtain ⟨rfl, -⟩ := List.cons.inj hv
    simp at hquote
  · have hopen := (tokenize_completable_iff hstring (b := .string) rfl (by decide)).1 hcompletable
    exact Bool.false_ne_true hopen.1

/-- The error for a string that stops in an escape with too large a value is unterminated, and yet
no text completes the string. -/
theorem not_completable_too_large :
    let error := LexError.unterminatedString ⟨0, 0⟩ ⟨0, 10⟩
    tokenize "\"\\u\x7b110000" = .error ⟨[], error⟩ ∧
      ¬ (error.isUnterminated = true ↔ Completable "\"\\u\x7b110000" [] .string) := by
  intro error
  have hfailed : tokenize "\"\\u\x7b110000" = .error ⟨[], error⟩ := rfl
  refine ⟨hfailed, fun hiff => ?_⟩
  have hdivides : Builtin.Divides Builtin.standard [] "\"\\u\x7b110000".toList := .nil _
  have hgoes : Completable "\"\\u\x7b110000" [] .string := hiff.1 rfl
  obtain ⟨t, n, hread⟩ := (completable_iff_read (b := .string) rfl hdivides (by decide) rfl).1 hgoes
  obtain ⟨m, hm, -⟩ := Reading.after_eq_token.1 hread
  have hlarge : Lexeme.TooLarge ('\x7b' :: "110000".toList) :=
    (Lexeme.tooLarge_iff (List.all_eq_true.1 rfl) (by decide)).2 (by decide)
  exact (Lexeme.Overflows.escape hlarge).not_token (.inl rfl) t _ _ hm

end JsLexer
