import JsLexer.Proofs.Lookahead
import JsLexer.Proofs.Settled

/-!
Accepted texts can be cut anywhere between two tokens.

What follows a token decided where it ends and which category got it, and a cut takes that away. At
the end of input every token ends, and no other category is recognized there that was not so before.
There is one exception, and it does not come up: a question mark and a point are one punctuator
unless a digit follows, so a cut behind the point would join the two. But where numbers come before
punctuators, the point in front of a digit is never a token of its own.
-/

namespace JsLexer

namespace Builtin

variable {bs : List Builtin}

/-- Nothing that is divided to its end starts with a stray backslash. -/
theorem Divides.not_strayBackslash {ps : List Piece} (h : Divides bs ps []) :
    strayBackslash (Piece.concat ps ++ []) = false := by
  cases ps with
  | nil => rfl
  | cons p ps =>
    obtain ⟨b, hb⟩ := h.exists_recognizes (List.cons_ne_nil p ps)
    exact Builtin.not_strayBackslash hb

theorem Accepts.eq_punctuator {b : Builtin} {k : TokenKind} (h : b.Accepts k ['.']) :
    b = .punctuator := by
  have hahead : b.recognizes ['.'] = true := (h.read (r := []) rfl).1
  cases b with
  | punctuator => rfl
  | _ => exact absurd (hahead : false = true) Bool.false_ne_true

/-- The categories never take a point in front of a digit for a punctuator. -/
def NumbersFirst (bs : List Builtin) : Prop :=
  ∀ cs, claimant bs cs = some .punctuator → numeral.recognizes cs = false

theorem numbersFirst_standard : NumbersFirst standard := by
  intro cs hcs
  cases hnumeral : numeral.recognizes cs with
  | false => rfl
  | true =>
    have hstandard : standard = standard.dropLast ++ [.punctuator] := rfl
    have hsome : (claimant standard.dropLast cs).isSome := by
      rw [claimant, List.find?_isSome]
      exact ⟨.numeral, by decide, hnumeral⟩
    obtain ⟨b, hb⟩ := Option.isSome_iff_exists.1 hsome
    have hmem : b ∈ standard.dropLast := List.mem_of_find?_eq_some hb
    rw [claimant] at hb hcs
    rw [hstandard, List.find?_append, hb, Option.some_or, Option.some.injEq] at hcs
    subst hcs
    exact absurd hmem (by decide)

/-- Behind a question mark that stands alone, no cut leaves just a point. -/
theorem Divides.ne_point {p : Piece} {ps qs : List Piece} (hbs : NumbersFirst bs)
    (h : Divides bs (ps ++ qs) [])
    (hr : TokenKind.questionMark.endsBefore p.text (Piece.concat (ps ++ qs) ++ []) = true) :
    Piece.concat ps ++ [] ≠ ['.'] := by
  intro hpoint
  cases ps with
  | nil => simp at hpoint
  | cons q ps =>
    rw [List.cons_append] at h hr
    cases h with
    | @cons b _ _ _ hb hq _ _ =>
      rw [Piece.concat_cons, List.append_nil, List.append_eq_singleton_iff] at hpoint
      obtain ⟨hq', -⟩ := hpoint.resolve_left fun hnil => hq.ne_nil hnil.1
      rw [hq'] at hq hb
      obtain rfl := hq.eq_punctuator
      rw [Piece.concat_cons, hq', List.append_assoc] at hr
      have hdigit : (Piece.concat (ps ++ qs) ++ []).head?.any isDecimalDigit = true := by
        simpa [TokenKind.endsBefore] using hr
      have hnumeral : numeral.recognizes _ = false := hbs _ hb
      rw [recognizes, List.singleton_append, Lexeme.numeralAhead_point, hdigit] at hnumeral
      simp at hnumeral

/-- The pieces up to a cut are the pieces of the text up to there. -/
theorem Divides.take {ps qs : List Piece} (hbs : NumbersFirst bs) (h : Divides bs (ps ++ qs) []) :
    Divides bs ps [] := by
  induction ps with
  | nil => exact .nil []
  | cons p ps ih =>
    rw [List.cons_append] at h
    cases h with
    | cons hb hp hr hps =>
      have hps' := ih hps
      have hpre : Piece.concat ps ++ [] <+: Piece.concat (ps ++ qs) ++ [] := by simp
      have hr' : p.kind.endsBefore p.text (Piece.concat ps ++ []) = true :=
        TokenKind.endsBefore_of_prefix hr hpre fun hk => hps.ne_point hbs (p := p) (hk ▸ hr)
      refine .cons (hp.claimant_eq hr' hb fun b' h' => ?_) hp hr' hps'
      cases hps' with
      | nil =>
        simp only [Piece.concat_nil, List.append_nil] at h'
        exact hp.recognizes_of_end hr hps.not_strayBackslash h'
      | cons _ hq _ _ =>
        obtain ⟨c, w, hw⟩ := List.exists_cons_of_ne_nil hq.ne_nil
        rwa [hp.recognizes_congr hr hr' (by simp [hw])]

/-- A part of accepted pieces is accepted by itself. -/
theorem Divides.part {ps qs rs : List Piece} (hbs : NumbersFirst bs)
    (h : Divides bs (ps ++ (qs ++ rs)) []) : Divides bs qs [] :=
  h.drop.take hbs

end Builtin

/-! ### Positions counted afresh -/

/-- Tokens of the same kinds and texts, their positions counted from the origin over the given text
and the texts of the tokens before. -/
def recount : List Char → List Token → List Token
  | _, [] => []
  | before, t :: tokens =>
    let passed := before ++ t.text.toList
    ⟨t.kind, t.text, Position.origin.after before, Position.origin.after passed⟩ ::
      recount passed tokens

theorem textOf_layOut (p : Position) (ps : List Piece) :
    (textOf (Piece.layOut p ps)).toList = Piece.concat ps := by
  induction ps generalizing p with
  | nil => rfl
  | cons q ps ih => simp [Piece.layOut, Piece.token, ih]

/-- Laid out token by token, pieces get the positions that a count of the whole text before them
gives: no line break is divided between two of them. -/
theorem Builtin.Divides.recount_eq {bs : List Builtin} {ps : List Piece} {r : List Char}
    (h : Divides bs ps r) {before : List Char}
    (hbefore : before.getLast? = some '\r' → (Piece.concat ps ++ r).head? ≠ some '\n')
    (p : Position) :
    recount before (Piece.layOut p ps) = Piece.layOut (Position.origin.after before) ps := by
  induction h generalizing before p with
  | nil r => rfl
  | @cons b q ps r _ hq hr _ ih =>
    have hlast : (before ++ q.text).getLast? = q.text.getLast? := by
      rw [List.getLast?_append, Option.or_of_isSome (List.getLast?_isSome.2 hq.ne_nil)]
    have hhead : (Piece.concat (q :: ps) ++ r).head? = q.text.head? := by
      rw [Piece.concat_cons, List.append_assoc, List.head?_append,
        Option.or_of_isSome (List.isSome_head?.2 hq.ne_nil)]
    rw [hhead] at hbefore
    have hstop := Position.origin.after_append hbefore
    have hlater : (before ++ q.text).getLast? = some '\r' →
        (Piece.concat ps ++ r).head? ≠ some '\n' := by
      rw [hlast]
      exact hq.head_ne_feed hr
    have hrest := ih hlater (p.after q.text)
    simp only [Piece.layOut, recount, Piece.token, String.toList_ofList, hstop, hrest]

/-! ### Parts of accepted texts -/

/-- A part of the tokens is what their texts are scanned into. -/
theorem tokenize_textOf {source : String} {tokens : List Token} (h : tokenize source = .ok tokens)
    {i j : Nat} (hij : i ≤ j) :
    tokenize (textOf (tokens.extract i j)) = .ok (recount [] (tokens.extract i j)) := by
  obtain ⟨ps, -, hdivides, rfl⟩ := tokenizeWith_eq_ok.1 h
  have hparts : ps = ps.take i ++ ((ps.drop i).take (j - i) ++ ps.drop j) := by
    have hdrop : ps.drop j = (ps.drop i).drop (j - i) := by
      rw [List.drop_drop, Nat.add_sub_cancel' hij]
    rw [hdrop, List.take_append_drop, List.take_append_drop]
  rw [hparts] at hdivides
  have hpart := hdivides.part Builtin.numbersFirst_standard
  rw [List.extract_eq_take_drop, Piece.layOut_drop, Piece.layOut_take]
  refine tokenizeWith_eq_ok.2 ⟨_, ?_, hpart, hpart.recount_eq (by simp) _⟩
  rw [textOf_layOut]

/-- The text of a token is scanned into that token. -/
theorem tokenize_text {source : String} {tokens : List Token} (h : tokenize source = .ok tokens)
    {t : Token} (ht : t ∈ tokens) :
    tokenize t.text =
      .ok [⟨t.kind, t.text, .origin, Position.origin.after t.text.toList⟩] := by
  obtain ⟨i, hi, rfl⟩ := List.getElem_of_mem ht
  have hone : tokens.extract i (i + 1) = [tokens[i]] := by
    rw [List.extract_eq_take_drop, List.drop_eq_getElem_cons hi, Nat.add_sub_cancel_left,
      List.take_succ_cons, List.take_zero]
  have hpart := tokenize_textOf h (Nat.le_add_right i 1)
  rw [hone, textOf_cons, textOf_nil, String.append_empty] at hpart
  exact hpart

/-- Accepted texts can be cut anywhere between two tokens: a part of the tokens is what their texts
are scanned into, with positions counted afresh. So the text of each token is scanned into that
token alone, and its text decides its kind, even across accepted sources. -/
theorem tokenize_extract (source : String) (tokens : List Token)
    (h : tokenize source = .ok tokens) :
    (∀ i j, i ≤ j → j ≤ tokens.length →
      tokenize (textOf (tokens.extract i j)) = .ok (recount [] (tokens.extract i j))) ∧
    (∀ t ∈ tokens, tokenize t.text =
      .ok [⟨t.kind, t.text, .origin, Position.origin.after t.text.toList⟩]) ∧
    (∀ source' tokens', tokenize source' = .ok tokens' →
      ∀ t ∈ tokens, ∀ t' ∈ tokens', t.text = t'.text → t.kind = t'.kind) := by
  refine ⟨fun i j hij _ => tokenize_textOf h hij, fun t ht => tokenize_text h ht, ?_⟩
  intro source' tokens' h' t ht t' ht' htext
  have hscan := tokenize_text h ht
  rw [htext, tokenize_text h' ht'] at hscan
  simp only [Except.ok.injEq, List.cons.injEq, Token.mk.injEq] at hscan
  exact hscan.1.1.symm

/-- A question mark, a number that starts with a point, and a line break, cut out of a line. -/
theorem tokenize_extract_question :
    let tokens : List Token :=
      [⟨.identifierName, "a", ⟨0, 0⟩, ⟨0, 1⟩⟩, ⟨.questionMark, "?", ⟨0, 1⟩, ⟨0, 2⟩⟩,
        ⟨.float, ".5", ⟨0, 2⟩, ⟨0, 4⟩⟩, ⟨.carriageReturn, "\r\n", ⟨0, 4⟩, ⟨1, 0⟩⟩,
        ⟨.nullLiteral, "null", ⟨1, 0⟩, ⟨1, 4⟩⟩]
    tokenize "a?.5\r\nnull" = .ok tokens ∧
      tokenize "?.5\r\n" = .ok [⟨.questionMark, "?", ⟨0, 0⟩, ⟨0, 1⟩⟩,
        ⟨.float, ".5", ⟨0, 1⟩, ⟨0, 3⟩⟩, ⟨.carriageReturn, "\r\n", ⟨0, 3⟩, ⟨1, 0⟩⟩] := by
  intro tokens
  have htokens : tokenize "a?.5\r\nnull" = .ok tokens := rfl
  have hcut := (tokenize_extract "a?.5\r\nnull" tokens htokens).1 1 4 (by decide) (by decide)
  exact ⟨htokens, hcut⟩

end JsLexer
