import JsLexer.Display.Table
import JsLexer.Proofs.Completion
import JsLexer.Proofs.Separator
import Mathlib.Data.List.Forall2

/-!
Trivia can be replaced by other trivia.

What a token that carries meaning looks at behind itself is the start of the text there: the same
token as before, two slashes as before, or a separator, before which every such token ends. So the
replaced text is divided from its end on, token by token. Separators that come together in it may
form a line break that was not there before, but a separator is trivia in any case.
-/

namespace JsLexer

/-- The texts that may take the place of a token of kind `k` and text `w`. -/
inductive Replaces : TokenKind → List Char → List Char → Prop
  | blank {k : TokenKind} {w v : List Char} : k.isWhitespace = true ∨ k = .multiLineComment →
      v ≠ [] → (∀ c ∈ v, isWhitespace c = true) → Replaces k w v
  | lineBreak {k : TokenKind} {w v : List Char} : k.isLineTerminator = true →
      v ∈ [['\n'], ['\r'], ['\r', '\n'], ['\u2028'], ['\u2029']] → Replaces k w v
  | comment {w v : List Char} : (∀ c ∈ v, isLineTerminator c = false) →
      Replaces .singleLineComment w ('/' :: '/' :: v)
  | significant {k : TokenKind} {w : List Char} : k.isTrivia = false → Replaces k w w

/-- The kinds and texts of the tokens that carry meaning. -/
def significant (tokens : List Token) : List (TokenKind × String) :=
  (Display.visible false tokens).map fun t => (t.kind, t.text)

namespace Piece

/-- The pieces that carry meaning. -/
def significant (ps : List Piece) : List Piece := ps.filter (!·.kind.isTrivia)

theorem significant_cons_trivia {p : Piece} (h : p.kind.isTrivia = true) (ps : List Piece) :
    significant (p :: ps) = significant ps := by
  simp [significant, h]

theorem significant_cons {p : Piece} (h : p.kind.isTrivia = false) (ps : List Piece) :
    significant (p :: ps) = p :: significant ps := by
  simp [significant, h]

end Piece

namespace Replaces

variable {k : TokenKind} {w v : List Char}

/-- A replacement is made of separators, or it is a comment up to the end of the line, or it leaves
the token as it is. -/
theorem cases (h : Replaces k w v) :
    (k.isTrivia = true ∧ v ≠ [] ∧ ∀ c ∈ v, isSeparator c = true) ∨
      (k = .singleLineComment ∧ Lexeme.IsSingleLineComment v) ∨ (k.isTrivia = false ∧ v = w) := by
  cases h with
  | blank hk hne hv =>
    refine .inl ⟨?_, hne, fun c hc => by simp [isSeparator, hv c hc]⟩
    rcases hk with hk | rfl
    · simp [TokenKind.isTrivia, hk]
    · rfl
  | lineBreak hk hv =>
    have hall : [['\n'], ['\r'], ['\r', '\n'], ['\u2028'], ['\u2029']].all
        (fun v => !v.isEmpty && v.all isSeparator) = true := by decide +kernel
    have hboth := List.all_eq_true.1 hall v hv
    rw [Bool.and_eq_true, Bool.not_eq_true', List.isEmpty_eq_false_iff, List.all_eq_true] at hboth
    exact .inl ⟨by simp [TokenKind.isTrivia, hk], hboth⟩
  | comment hv => exact .inr (.inl ⟨rfl, _, rfl, hv⟩)
  | significant hk => exact .inr (.inr ⟨hk, rfl⟩)

/-- A line terminator gives way to a line terminator. -/
theorem head_of_isLineTerminator (h : Replaces k w v) (hk : k.isLineTerminator = true) :
    v.head?.any isLineTerminator = true := by
  cases h with
  | blank hk' =>
    have hother : k.isWhitespace = false := by cases k <;> first | rfl | cases hk
    rcases hk' with hk' | rfl
    · simp [hother] at hk'
    · simp [TokenKind.isLineTerminator] at hk
  | lineBreak _ hv =>
    have hall : [['\n'], ['\r'], ['\r', '\n'], ['\u2028'], ['\u2029']].all
        (fun v => v.head?.any isLineTerminator) = true := by decide
    exact List.all_eq_true.1 hall v hv
  | comment => simp [TokenKind.isLineTerminator] at hk
  | significant hk' => simp [TokenKind.isTrivia, hk] at hk'

end Replaces

/-! ### Separators -/

theorem isTrivia_separatorKind {c : Char} (h : isSeparator c = true) :
    (separatorKind c).isTrivia = true := by
  unfold separatorKind
  split
  case h_5 =>
    unfold Lexeme.whitespaceKind
    split <;> rfl
  all_goals rfl

namespace Builtin

/-- The line feed at the start of a text is a piece of its own. -/
theorem Divides.eq_lineFeed {q : Piece} {qs : List Piece} {r r' : List Char}
    (h : Divides standard (q :: qs) r) (hcs : Piece.concat (q :: qs) ++ r = '\n' :: r') :
    q = ⟨.lineFeed, ['\n']⟩ := by
  have hread := h.read_head (b := .lineTerminator) (by rw [hcs]; rfl)
  rw [hcs] at hread
  obtain ⟨hkind, hlength⟩ := Reading.token.inj (hread : Reading.token .lineFeed 1 = _)
  obtain ⟨c, hc⟩ := List.length_eq_one_iff.1 hlength.symm
  rw [Piece.concat_cons, hc] at hcs
  obtain ⟨rfl, -⟩ := List.cons.inj hcs
  rcases q with ⟨kind, w⟩
  simp_all

/-- A separator may be put before anything that is divided to its end. -/
theorem exists_divides_cons {c : Char} (hc : isSeparator c = true) {qs : List Piece}
    (h : Divides standard qs []) : ∃ qs', Piece.concat qs' = c :: Piece.concat qs ∧
      Divides standard qs' [] ∧ Piece.significant qs' = Piece.significant qs := by
  by_cases hfeed : c = '\r' ∧ (Piece.concat qs ++ []).head? = some '\n'
  · obtain ⟨rfl, hhead⟩ := hfeed
    -- the two make one line break
    obtain ⟨r, hr⟩ := List.head?_eq_some_iff.1 hhead
    cases qs with
    | nil => simp at hr
    | cons q qs =>
      obtain rfl := h.eq_lineFeed hr
      refine ⟨⟨.carriageReturn, ['\r', '\n']⟩ :: qs, rfl, ?_, rfl⟩
      cases h with
      | cons _ _ _ hqs =>
        refine .cons (b := .lineTerminator) rfl ?_ ?_ hqs
        · exact Lexeme.mem_lineBreaks.2 (by simp)
        · cases Piece.concat qs <;> rfl
  · obtain ⟨b, hb, haccepts⟩ := exists_claimant_separator hc (Piece.concat qs ++ [])
    refine ⟨⟨separatorKind c, [c]⟩ :: qs, rfl, .cons hb haccepts ?_ h, ?_⟩
    · exact endsBefore_separatorKind fun hreturn hhead => hfeed ⟨hreturn, hhead⟩
    · exact Piece.significant_cons_trivia (isTrivia_separatorKind hc) qs

/-- Separators may be put before anything that is divided to its end. -/
theorem exists_divides_append {u : List Char} (hu : ∀ c ∈ u, isSeparator c = true)
    {qs : List Piece} (h : Divides standard qs []) :
    ∃ qs', Piece.concat qs' = u ++ Piece.concat qs ∧ Divides standard qs' [] ∧
      Piece.significant qs' = Piece.significant qs := by
  induction u with
  | nil => exact ⟨qs, rfl, h, rfl⟩
  | cons c u ih =>
    obtain ⟨hc, hu⟩ := List.forall_mem_cons.1 hu
    obtain ⟨qs', hconcat, hqs', hsame⟩ := ih hu
    obtain ⟨qs'', hconcat', hqs'', hsame'⟩ := exists_divides_cons hc hqs'
    exact ⟨qs'', by rw [hconcat', hconcat, List.cons_append], hqs'', hsame'.trans hsame⟩

/-! ### Line terminators -/

theorem claimant_lineTerminator {c : Char} (hc : isLineTerminator c = true) (r : List Char) :
    claimant standard (c :: r) = some .lineTerminator := by
  unfold isLineTerminator at hc
  split at hc
  · rfl
  · rfl
  · rfl
  · rfl
  · simp at hc

/-- A token of the standard categories that starts with a line terminator is a line break. -/
theorem Accepts.isLineTerminator {b : Builtin} {k : TokenKind} {c : Char} {w r : List Char}
    (h : b.Accepts k (c :: w)) (hb : claimant standard (c :: w ++ r) = some b)
    (hc : isLineTerminator c = true) : k.isLineTerminator = true := by
  rw [List.cons_append, claimant_lineTerminator hc, Option.some.injEq] at hb
  subst hb
  rcases Lexeme.mem_lineBreaks.1 h with ⟨rfl, -⟩ | ⟨rfl, -⟩ | ⟨rfl, -⟩ | ⟨rfl, -⟩ | ⟨rfl, -⟩ <;> rfl

theorem endsBefore_singleLineComment (w r : List Char) :
    TokenKind.singleLineComment.endsBefore w r = r.head?.all isLineTerminator := by
  cases r <;> rfl

/-- Where a text starts with a line terminator or is empty, a replaced text does or is. -/
theorem Divides.head_replaced {ps : List Piece} {vs : List (List Char)} (h : Divides standard ps [])
    (hvs : List.Forall₂ (fun p v => Replaces p.kind p.text v) ps vs)
    (hhead : (Piece.concat ps ++ []).head?.all isLineTerminator = true) :
    (vs.flatten ++ []).head?.all isLineTerminator = true := by
  cases hvs with
  | nil => rfl
  | @cons p v ps vs hv _ =>
    cases h with
    | @cons b _ _ _ hb hp _ _ =>
      obtain ⟨c, w, hw⟩ := List.exists_cons_of_ne_nil hp.ne_nil
      rw [Piece.concat_cons, hw] at hhead
      rw [hw] at hb hp
      have hnew := hv.head_of_isLineTerminator (hp.isLineTerminator hb hhead)
      cases v with
      | nil => simp at hnew
      | cons d v => exact hnew

/-! ### Tokens that stay -/

/-- What a replaced text starts with: nothing if there is nothing, or a separator, or the same as
before, which is then no point before which a question mark ends. -/
theorem Divides.start_replaced {ps : List Piece} {vs : List (List Char)}
    (h : Divides standard ps []) (hvs : List.Forall₂ (fun p v => Replaces p.kind p.text v) ps vs) :
    (Piece.concat ps = [] ∧ vs.flatten = []) ∨
      (∃ c r, vs.flatten = c :: r ∧ isSeparator c = true) ∨
      ∃ u r r', u ≠ [] ∧ strayBackslash u = false ∧ Piece.concat ps = u ++ r ∧
        vs.flatten = u ++ r' ∧
        ∀ w, TokenKind.questionMark.endsBefore w (Piece.concat ps ++ []) = true → u ≠ ['.'] := by
  cases hvs with
  | nil => exact .inl ⟨rfl, rfl⟩
  | @cons p v ps vs hv _ =>
    rcases hv.cases with ⟨-, hne, hall⟩ | ⟨hk, hnew⟩ | ⟨-, rfl⟩
    · obtain ⟨c, u, rfl⟩ := List.exists_cons_of_ne_nil hne
      exact .inr (.inl ⟨c, u ++ vs.flatten, rfl, hall c List.mem_cons_self⟩)
    · cases h with
      | @cons b _ _ _ _ hp _ _ =>
        -- both comments start with the two slashes
        obtain rfl : b = .singleLineComment := by rw [hp.eq_category, hk]; rfl
        obtain ⟨-, w, hw, -⟩ := hp
        obtain ⟨w', rfl, -⟩ := hnew
        refine .inr (.inr ⟨['/', '/'], w ++ Piece.concat ps, w' ++ vs.flatten, nofun, rfl, ?_, rfl,
          fun _ _ => by decide⟩)
        rw [Piece.concat_cons, hw]
        rfl
    · have hpoint : ∀ w, TokenKind.questionMark.endsBefore w (Piece.concat (p :: ps) ++ []) = true →
          p.text ≠ ['.'] := by
        intro w hr
        have hone := @Divides.ne_point standard ⟨.questionMark, w⟩ [p] ps numbersFirst_standard h hr
        simpa using hone
      cases h with
      | @cons b _ _ _ _ hp _ _ =>
        have hstray : strayBackslash p.text = false := by
          have hahead := (hp.read (r := []) rfl).1
          rw [List.append_nil] at hahead
          exact Builtin.not_strayBackslash hahead
        exact .inr (.inr ⟨p.text, Piece.concat ps, vs.flatten, hp.ne_nil, hstray,
          Piece.concat_cons p ps, rfl, hpoint⟩)

/-- A token that carries meaning still ends and stays with its category if trivia behind it are
replaced. -/
theorem Accepts.before_replaced {b : Builtin} {k : TokenKind} {w : List Char} {ps : List Piece}
    {vs : List (List Char)} (h : b.Accepts k w) (hk : k.isTrivia = false)
    (hb : claimant standard (w ++ (Piece.concat ps ++ [])) = some b)
    (hr : k.endsBefore w (Piece.concat ps ++ []) = true) (hps : Divides standard ps [])
    (hvs : List.Forall₂ (fun p v => Replaces p.kind p.text v) ps vs) :
    claimant standard (w ++ (vs.flatten ++ [])) = some b ∧
      k.endsBefore w (vs.flatten ++ []) = true := by
  rcases hps.start_replaced hvs with ⟨hold, hnew⟩ | ⟨c, r, hnew, hc⟩ |
    ⟨u, r, r', hne, hstray, hold, hnew, hpoint⟩
  · rw [hold] at hb hr
    rw [hnew]
    exact ⟨hb, hr⟩
  · have hr' : k.endsBefore w (vs.flatten ++ []) = true := by
      rw [hnew]
      refine TokenKind.endsBefore_separator hc ?_ ?_ _
      · rintro rfl
        simp [TokenKind.isTrivia, TokenKind.isComment] at hk
      · rintro rfl
        have hbreak := h.isLineTerminator hb (by decide)
        simp [TokenKind.isTrivia, hbreak] at hk
    refine ⟨h.claimant_eq hr' hb fun b' h' => ?_, hr'⟩
    rw [hnew] at h' hr'
    exact h.recognizes_of_end hr hps.not_strayBackslash (h.recognizes_of_separator hr' hc h')
  · have hr' : k.endsBefore w (vs.flatten ++ []) = true := by
      have hu : k.endsBefore w u = true :=
        TokenKind.endsBefore_of_prefix hr (by simp [hold]) fun hquestion =>
          hpoint w (hquestion ▸ hr)
      rw [hnew, List.append_assoc]
      exact TokenKind.endsBefore_append hu hne hstray _
    refine ⟨h.claimant_eq hr' hb fun b' h' => ?_, hr'⟩
    have hhead : (Piece.concat ps ++ []).head? = (vs.flatten ++ []).head? := by
      obtain ⟨c, u, rfl⟩ := List.exists_cons_of_ne_nil hne
      rw [hold, hnew]
      rfl
    rwa [h.recognizes_congr hr hr' hhead]

/-! ### Whole texts -/

/-- What is divided to its end still is so if its trivia are replaced, and the pieces that carry
meaning are the same. -/
theorem Divides.replace {ps : List Piece} {vs : List (List Char)} (h : Divides standard ps [])
    (hvs : List.Forall₂ (fun p v => Replaces p.kind p.text v) ps vs) :
    ∃ qs, Piece.concat qs = vs.flatten ∧ Divides standard qs [] ∧
      Piece.significant qs = Piece.significant ps := by
  induction hvs with
  | nil => exact ⟨[], rfl, .nil [], rfl⟩
  | @cons p v ps vs hv hvs ih =>
    cases h with
    | @cons b _ _ _ hb hp hr hps =>
      obtain ⟨qs, hconcat, hqs, hsame⟩ := ih hps
      rcases hv.cases with ⟨hk, -, hall⟩ | ⟨hk, hnew⟩ | ⟨hk, rfl⟩
      · obtain ⟨qs', hconcat', hqs', hsame'⟩ := exists_divides_append hall hqs
        refine ⟨qs', by rw [hconcat', hconcat, List.flatten_cons], hqs', ?_⟩
        rw [hsame', hsame, Piece.significant_cons_trivia hk]
      · have hr' : TokenKind.singleLineComment.endsBefore v (vs.flatten ++ []) = true := by
          rw [hk, endsBefore_singleLineComment] at hr
          rw [endsBefore_singleLineComment]
          exact hps.head_replaced hvs hr
        refine ⟨⟨.singleLineComment, v⟩ :: qs,
          by rw [Piece.concat_cons, hconcat, List.flatten_cons],
          .cons (b := .singleLineComment) ?_ ⟨rfl, hnew⟩ (by rwa [hconcat]) hqs, ?_⟩
        · obtain ⟨w, rfl, -⟩ := hnew
          rfl
        · rw [Piece.significant_cons_trivia rfl, hsame,
            Piece.significant_cons_trivia (by rw [hk]; rfl)]
      · obtain ⟨hb', hr'⟩ := hp.before_replaced hk hb hr hps hvs
        rw [← hconcat] at hb' hr'
        refine ⟨p :: qs, by rw [Piece.concat_cons, hconcat, List.flatten_cons],
          .cons hb' hp hr' hqs, ?_⟩
        rw [Piece.significant_cons hk, hsame, Piece.significant_cons hk]

end Builtin

/-! ### Scans -/

theorem Piece.significant_layOut (p : Position) (ps : List Piece) :
    JsLexer.significant (layOut p ps) =
      (significant ps).map fun q => (q.kind, String.ofList q.text) := by
  induction ps generalizing p with
  | nil => rfl
  | cons q ps ih =>
    have ih := ih (p.after q.text)
    simp only [JsLexer.significant, Display.visible, significant, Bool.false_or] at ih ⊢
    rw [layOut, List.filter_cons, List.filter_cons, token]
    split <;> simp [ih]

theorem Piece.forall₂_layOut {p : Position} {ps : List Piece} {texts : List String}
    (h : List.Forall₂ (fun t s => Replaces t.kind t.text.toList s.toList) (layOut p ps) texts) :
    List.Forall₂ (fun q v => Replaces q.kind q.text v) ps (texts.map (·.toList)) := by
  induction ps generalizing p texts with
  | nil =>
    cases h
    exact .nil
  | cons q ps ih =>
    rw [layOut] at h
    cases h with
    | cons hq hps =>
      rw [token, String.toList_ofList] at hq
      exact .cons hq (ih hps)

/-- The trivia of an accepted text can be replaced: white space and comments over several lines by
white space, line terminators by line terminators, and what a comment of one line says by anything
within a line. The text is still accepted, with the same tokens that carry meaning. -/
theorem tokenize_replace_trivia {source : String} {tokens : List Token} {texts : List String}
    (h : tokenize source = .ok tokens)
    (hr : List.Forall₂ (fun t s => Replaces t.kind t.text.toList s.toList) tokens texts) :
    ∃ tokens', tokenize (String.join texts) = .ok tokens' ∧
      significant tokens' = significant tokens := by
  obtain ⟨ps, -, hdivides, rfl⟩ := tokenizeWith_eq_ok.1 h
  obtain ⟨qs, hconcat, hqs, hsame⟩ := hdivides.replace (Piece.forall₂_layOut hr)
  have hsource : (String.join texts).toList = Piece.concat qs := by
    rw [hconcat]
    simp [List.flatMap_def]
  refine ⟨Piece.layOut .origin qs, tokenizeWith_eq_ok.2 ⟨qs, hsource, hqs, rfl⟩, ?_⟩
  rw [Piece.significant_layOut, Piece.significant_layOut, hsame]

/-- Two line feeds that become one line break behind a comment, and white space where a comment
was. -/
theorem tokenize_replace_trivia_line_break :
    let tokens : List Token :=
      [⟨.int, "1", ⟨0, 0⟩, ⟨0, 1⟩⟩, ⟨.singleLineComment, "//c", ⟨0, 1⟩, ⟨0, 4⟩⟩,
        ⟨.lineFeed, "\n", ⟨0, 4⟩, ⟨1, 0⟩⟩, ⟨.lineFeed, "\n", ⟨1, 0⟩, ⟨2, 0⟩⟩,
        ⟨.questionMark, "?", ⟨2, 0⟩, ⟨2, 1⟩⟩, ⟨.multiLineComment, "/*\n*/", ⟨2, 1⟩, ⟨3, 2⟩⟩,
        ⟨.float, ".5", ⟨3, 2⟩, ⟨3, 4⟩⟩]
    let texts := ["1", "//'/*", "\r", "\n", "?", "\t\u2003", ".5"]
    tokenize "1//c\n\n?/*\n*/.5" = .ok tokens ∧
      List.Forall₂ (fun t s => Replaces t.kind t.text.toList s.toList) tokens texts ∧
      ∃ tokens', tokenize "1//'/*\r\n?\t\u2003.5" = .ok tokens' ∧
        significant tokens' = [(.int, "1"), (.questionMark, "?"), (.float, ".5")] := by
  intro tokens texts
  have htokens : tokenize "1//c\n\n?/*\n*/.5" = .ok tokens := rfl
  have hr : List.Forall₂ (fun t s => Replaces t.kind t.text.toList s.toList) tokens texts :=
    .cons (.significant rfl) <|
      .cons (.comment (v := ['\'', '/', '*']) (by simp [isLineTerminator])) <|
      .cons (.lineBreak rfl (by decide)) <| .cons (.lineBreak rfl (by decide)) <|
      .cons (.significant rfl) <|
      .cons (.blank (.inr rfl) (by decide) (List.all_eq_true.1 (by decide +kernel))) <|
      .cons (.significant rfl) .nil
  have hjoin : String.join texts = "1//'/*\r\n?\t\u2003.5" := by decide
  obtain ⟨tokens', htokens', hsame⟩ := tokenize_replace_trivia htokens hr
  exact ⟨htokens, hr, tokens', hjoin ▸ htokens', hsame⟩

end JsLexer
