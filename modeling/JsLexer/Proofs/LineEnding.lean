import JsLexer.Proofs.NormalizedNumeral
import JsLexer.Proofs.Rewriting
import JsLexer.Proofs.Separator

/-!
Line endings do not matter to a scan.

A category recognizes the normal form of a text if it recognizes the text, and reads the same of it.
Neither half of a line break starts or continues anything but line breaks, strings and comments, and
no piece of a text ends inside a line break, so the pieces of a text are normalized one by one. As a
text and its normal form count alike, tokens and errors keep their positions.
-/

namespace JsLexer

/-! ### Ends of tokens -/

/-- A token ends before the normal form of a text as before the text. -/
theorem TokenKind.endsBefore_normalize {k : TokenKind} (hk : k ≠ .carriageReturn)
    (w r : List Char) : k.endsBefore w (normalize r) = k.endsBefore w r := by
  have hbreak : ∀ c r, JsLexer.isLineTerminator c = true → k.endsBefore w (c :: r) = true := by
    intro c r hc
    rw [endsBefore_congr hk w []]
    exact endsBefore_separator (by simp [isSeparator, hc]) (fun _ => hc) (by simp) r
  rcases normalize_start r with rfl | ⟨r, r', rfl, hr⟩ | ⟨c, r, -, rfl, hr⟩
  · rfl
  · rw [hr, hbreak _ _ (by decide), hbreak _ _ (by decide)]
  rw [hr]
  rcases normalize_start r with rfl | ⟨r, r', rfl, hr⟩ | ⟨d, r, -, rfl, hr⟩
  · rfl
  · have hescape : ∀ d r, d ≠ 'u' → Lexeme.escapeAhead (c :: d :: r) = false := by
      intro d r hd
      simp [Bool.eq_false_iff, Lexeme.escapeAhead_cons, hd]
    have hdigit := Lexeme.isDecimalDigit_lineBreak
    rw [hr]
    cases k <;> simp [endsBefore, hescape, hdigit]
  · rw [hr]
    exact endsBefore_cons_cons k w c d _ _

/-! ### Categories -/

theorem Lexeme.wordAhead_normalize {k : TokenKind} {word : List Char}
    (h : (k, word) ∈ literalWords) (cs : List Char) :
    wordAhead word (normalize cs) = wordAhead word cs := by
  have hbreaks : '\n' ∉ word ∧ '\r' ∉ word := by
    rcases mem_literalWords.1 h with ⟨-, rfl⟩ | ⟨-, rfl⟩ | ⟨-, rfl⟩ <;> decide
  have hends := all_head?_normalize (p := (!continuesWord ·)) (by decide +kernel)
  rw [Bool.eq_iff_iff, wordAhead_iff, wordAhead_iff]
  constructor
  · rintro ⟨r, hcs, hr⟩
    obtain ⟨r', rfl, rfl⟩ := normalize_eq_append hbreaks hcs
    exact ⟨r', rfl, (hends r').symm.trans hr⟩
  · rintro ⟨r, rfl, hr⟩
    exact ⟨normalize r, normalize_append_of_notMem hbreaks.2 r, (hends r).trans hr⟩

namespace Builtin

/-- Where a separator comes second, only the first code point counts, unless it is a word. -/
theorem recognizes_cons_separator {b : Builtin} (hboolean : b ≠ .boolean) (hnull : b ≠ .null)
    {c d : Char} (hc : isSeparator c = true) (r : List Char) :
    b.recognizes (d :: c :: r) = b.recognizes [d] := by
  rw [Bool.eq_iff_iff]
  exact ⟨recognizes_of_cons_separator hboolean hnull hc, fun h =>
    recognizes_append (w := [d]) hboolean hnull h (c :: r)⟩

/-- A category recognizes the normal form of a text if it recognizes the text. -/
theorem recognizes_normalize (b : Builtin) (cs : List Char) :
    b.recognizes (normalize cs) = b.recognizes cs := by
  have hword : ∀ k word, (k, word) ∈ Lexeme.literalWords →
      Lexeme.wordAhead word (normalize cs) = Lexeme.wordAhead word cs := fun _ _ hmem =>
    Lexeme.wordAhead_normalize hmem cs
  by_cases hboolean : b = .boolean
  · subst hboolean
    rw [recognizes, recognizes, Lexeme.booleanAhead, Lexeme.booleanAhead,
      hword .trueLiteral _ (by decide), hword .falseLiteral _ (by decide)]
  by_cases hnull : b = .null
  · subst hnull
    exact hword .nullLiteral _ (by decide)
  rcases normalize_start cs with rfl | ⟨r, r', rfl, hcs⟩ | ⟨c, r, -, rfl, hcs⟩
  · rfl
  · rw [hcs]
    cases b <;> rfl
  rw [hcs]
  rcases normalize_start r with rfl | ⟨r, r', rfl, hr⟩ | ⟨d, r, -, rfl, hr⟩
  · rfl
  · rw [hr, recognizes_cons_separator hboolean hnull (by decide),
      recognizes_cons_separator hboolean hnull (by decide)]
  · rw [hr]
    exact recognizes_cons_cons hboolean hnull c d _ _

theorem claimant_normalize (bs : List Builtin) (cs : List Char) :
    claimant bs (normalize cs) = claimant bs cs := by
  simp only [claimant, recognizes_normalize]

/-- What is no line break is not of the kind of a carriage return. -/
theorem Accepts.ne_carriageReturn {b : Builtin} {k : TokenKind} {w : List Char}
    (h : b.Accepts k w) (hb : b ≠ .lineTerminator) : k ≠ .carriageReturn := by
  rintro rfl
  exact hb h.eq_category

/-- A token without a carriage return is read in the normal form as it is in the text. -/
theorem Accepts.read_normalize {b : Builtin} {k : TokenKind} {w r : List Char}
    (h : b.Accepts k w) (hr : k.endsBefore w r = true)
    (hb : b ∉ [.lineTerminator, .multiLineComment, .string]) :
    b.read (normalize (w ++ r)) = (b.read (w ++ r)).along (w ++ r) := by
  have hno := h.no_return hb
  have hkind := h.ne_carriageReturn (by rintro rfl; simp at hb)
  have hr' : k.endsBefore w (normalize r) = true := by rwa [k.endsBefore_normalize hkind]
  rw [normalize_append_of_notMem hno, (h.read hr').2, (h.read hr).2, Reading.along_eq_self]
  · rwa [Reading.length, List.take_left]
  · intro k' n heq
    obtain ⟨rfl, -⟩ := Reading.token.inj heq
    exact hkind

/-- A category reads in the normal form of a text what it reads in the text. -/
theorem read_normalize {b : Builtin} {cs : List Char} (h : b.recognizes cs = true) :
    b.read (normalize cs) = (b.read cs).along cs := by
  have htoken : b ∉ [.lineTerminator, .multiLineComment, .string] →
      (∃ k n, b.read cs = .token k n) → b.read (normalize cs) = (b.read cs).along cs := by
    rintro hb ⟨k, n, hread⟩
    obtain ⟨w, r, rfl, -, hw, hr⟩ := accepts_of_read h hread
    exact hw.read_normalize hr hb
  cases b with
  | lineTerminator => exact Lexeme.lineTerminator_normalize h
  | multiLineComment => exact Lexeme.multiLineComment_normalize h
  | string => exact Lexeme.string_normalize h
  | identifierName => exact Lexeme.name_normalize cs
  | numeral =>
    obtain ⟨hsame, hno⟩ := Lexeme.numeral_normalize cs
    refine hsame.trans (Reading.along_eq_self hno fun k n hread => ?_).symm
    obtain ⟨w, r, -, -, hw, -⟩ := accepts_of_read h hread
    exact hw.ne_carriageReturn (by decide)
  | whitespace =>
    cases cs with
    | nil => simp [recognizes] at h
    | cons c cs => exact htoken (by decide) ⟨_, _, if_pos h⟩
  | singleLineComment => exact htoken (by decide) (Lexeme.singleLineComment_token h)
  | boolean => exact htoken (by decide) (Lexeme.boolean_token h)
  | null => exact htoken (by decide) (Lexeme.null_token h)
  | punctuator =>
    have hdecides := Lexeme.punctuator_decides (ne_nil_of_recognizes h)
    cases hread : Lexeme.punctuator cs with
    | token k n => exact htoken (by decide) ⟨k, n, hread⟩
    | malformed n => exact Lexeme.punctuator_normalize_malformed h hread
    | openString n | openComment n => exact (hread ▸ hdecides).elim

/-! ### Errors -/

theorem refusal_normalize (b : Builtin) (cs : List Char) (reading : Reading) :
    b.refusal (normalize cs) (reading.along cs) = b.refusal cs reading := by
  cases reading <;> simp only [refusal, Reading.along, take_normalize, Position.after_normalize]

/-- If line breaks are looked for, a text and its normal form start with the same error, if any. -/
theorem failure_normalize {bs : List Builtin} (hbs : .lineTerminator ∈ bs) (cs : List Char) :
    failure bs (normalize cs) = failure bs cs := by
  have hsame := claimant_normalize bs cs
  cases hb : claimant bs cs with
  | some b =>
    have hahead : b.recognizes cs = true := by simpa using List.find?_some hb
    rw [failure_of_claimant hb, failure_of_claimant (hsame.trans hb), read_normalize hahead,
      refusal_normalize]
  | none =>
    cases cs with
    | nil => rfl
    | cons c cs =>
      have hc : c ≠ '\r' := by
        rintro rfl
        exact absurd rfl (List.find?_eq_none.1 hb _ hbs)
      rw [hb, normalize_cons hc] at hsame
      rw [normalize_cons hc, failure, failure, hsame, hb]

/-! ### Pieces -/

/-- The normal form of a token is a token in the normal form of the text. -/
theorem Accepts.normalize {b : Builtin} {k : TokenKind} {w r : List Char} (h : b.Accepts k w)
    (hr : k.endsBefore w r = true) : b.Accepts k.normal (JsLexer.normalize w) ∧
      k.normal.endsBefore (JsLexer.normalize w) (JsLexer.normalize r) = true := by
  obtain ⟨hahead, hread⟩ := h.read hr
  have hread' := Builtin.read_normalize hahead
  rw [hread] at hread'
  obtain ⟨w', r', hcs, hlength, hw', hr'⟩ :=
    accepts_of_read ((recognizes_normalize b _).trans hahead) hread'
  -- the token that is read there has the first code points, so it is the normal form of `w`
  have htake := take_normalize (w ++ r) w.length
  rw [hlength, hcs, List.take_left, List.take_left] at htake
  rw [normalize_append (h.head_ne_feed hr), htake] at hcs
  rw [List.append_cancel_left hcs, ← htake]
  exact ⟨hw', hr'⟩

end Builtin

/-- A piece with its line breaks normalized. -/
def Piece.normal (p : Piece) : Piece := ⟨p.kind.normal, normalize p.text⟩

/-- If line breaks are looked for, a text and its normal form are scanned alike. -/
theorem Builtin.respects_normalize {bs : List Builtin} (hbs : .lineTerminator ∈ bs) :
    Respects bs JsLexer.normalize .normal where
  nil := rfl
  claimant := claimant_normalize bs
  failure := failure_normalize hbs
  append hp hr := normalize_append (hp.head_ne_feed hr)
  accepts hp hr := hp.normalize hr
  after q p := Position.after_normalize q p.text

/-- A token with a line feed for the kind of a carriage return, and `f` of its text. -/
def Token.withBreaks (f : List Char → List Char) (t : Token) : Token :=
  { t with kind := t.kind.normal, text := String.ofList (f t.text.toList) }

/-- The outcome of a scan with `f` of all texts. -/
def outcomeWithBreaks (f : List Char → List Char) :
    Except ScanFailure (List Token) → Except ScanFailure (List Token)
  | .ok tokens => .ok (tokens.map (·.withBreaks f))
  | .error failure => .error ⟨failure.tokens.map (·.withBreaks f), failure.error⟩

/-- The scan of a normal form is the scan of the text with every line break made a line feed. -/
theorem tokenizeWith_normalize {bs : List Builtin} (hbs : .lineTerminator ∈ bs) (source : String) :
    tokenizeWith bs (String.ofList (normalize source.toList)) =
      outcomeWithBreaks normalize (tokenizeWith bs source) := by
  have htoken : ∀ q (p : Piece), p.normal.token q = (p.token q).withBreaks normalize := by
    intro q p
    have hafter : q.after p.normal.text = q.after p.text := Position.after_normalize q p.text
    rw [Piece.token, Piece.token, hafter, Token.withBreaks, String.toList_ofList, Piece.normal]
  rw [(Builtin.respects_normalize hbs).tokenizeWith htoken]
  cases tokenizeWith bs source <;> rfl

/-! ### Carriage returns with their line feeds -/

/-- A text with a line feed for every carriage return that has a line feed after it. -/
def joinBreaks : List Char → List Char
  | [] => []
  | '\r' :: '\n' :: cs => '\n' :: joinBreaks cs
  | c :: cs => c :: joinBreaks cs

/-- Every carriage return has a line feed after it. -/
def Paired (cs : List Char) : Prop := ∀ u v, cs = u ++ '\r' :: v → v.head? = some '\n'

theorem Paired.tail {c : Char} {cs : List Char} (h : Paired (c :: cs)) : Paired cs :=
  fun u v hcs => h (c :: u) v (by rw [hcs, List.cons_append])

theorem Paired.joinBreaks_eq {cs : List Char} (h : Paired cs) : joinBreaks cs = normalize cs := by
  induction cs using normalize_induction with
  | nil => rfl
  | pair cs ih => rw [joinBreaks, normalize, ih h.tail.tail]
  | alone cs hcs => exact absurd (h [] cs rfl) hcs
  | other c cs hc ih =>
    have hstep : joinBreaks (c :: cs) = c :: joinBreaks cs := by simp [joinBreaks, hc]
    rw [hstep, normalize_cons hc, ih h.tail]

/-- Whether it is so shows in what is left when they are joined. -/
theorem paired_iff {cs : List Char} : Paired cs ↔ '\r' ∉ joinBreaks cs := by
  constructor
  · intro h
    rw [h.joinBreaks_eq]
    exact notMem_normalize cs
  · intro h u v hcs
    induction cs using normalize_induction generalizing u with
    | nil => simp at hcs
    | pair cs ih =>
      rcases u with _ | ⟨a, _ | ⟨b, u⟩⟩
      · obtain rfl := (List.cons.inj hcs).2
        rfl
      · simp at hcs
      · simp only [List.cons_append, List.cons.injEq] at hcs
        exact ih (fun hmem => h (List.mem_cons_of_mem _ hmem)) u hcs.2.2
    | alone cs hhead =>
      have hstep : joinBreaks ('\r' :: cs) = '\r' :: joinBreaks cs := by
        cases cs with
        | nil => rfl
        | cons c cs =>
          have hc : c ≠ '\n' := by simpa using hhead
          simp [joinBreaks, hc]
      simp [hstep] at h
    | other c cs hc ih =>
      have hstep : joinBreaks (c :: cs) = c :: joinBreaks cs := by simp [joinBreaks, hc]
      rw [hstep, List.mem_cons, not_or] at h
      cases u with
      | nil => exact absurd (List.cons.inj hcs).1 hc
      | cons a u => exact ih h.2 u (List.cons.inj hcs).2

instance (cs : List Char) : Decidable (Paired cs) := decidable_of_iff' _ paired_iff

/-- No carriage return is parted from its line feed by dividing a text. -/
theorem Builtin.Divides.paired {bs : List Builtin} {ps : List Piece} {r : List Char}
    (h : Divides bs ps r) (hpaired : Paired (Piece.concat ps ++ r)) :
    ∀ p ∈ ps, Paired p.text := by
  induction h with
  | nil => simp
  | @cons b p ps r _ hp hr _ ih =>
    rw [Piece.concat_cons, List.append_assoc] at hpaired
    rw [List.forall_mem_cons]
    constructor
    · intro u v hw
      have hhead := hpaired u (v ++ (Piece.concat ps ++ r)) (by simp [hw])
      cases v with
      | nil => exact absurd hhead (hp.head_ne_feed hr (by simp [hw]))
      | cons c v => exact hhead
    · exact ih fun u v hcs => hpaired (p.text ++ u) v (by rw [hcs, List.append_assoc])

theorem Piece.layOut_withBreaks {f g : List Char → List Char} {ps : List Piece}
    (h : ∀ q ∈ ps, f q.text = g q.text) (p : Position) :
    (layOut p ps).map (·.withBreaks f) = (layOut p ps).map (·.withBreaks g) := by
  induction ps generalizing p with
  | nil => rfl
  | cons q ps ih =>
    obtain ⟨hq, hps⟩ := List.forall_mem_cons.1 h
    rw [layOut, List.map_cons, List.map_cons, ih hps, token, Token.withBreaks, Token.withBreaks,
      String.toList_ofList, hq]

/-- Line endings do not matter: where every carriage return has a line feed after it, the scan of
the text with line feeds alone gives the same tokens at the same positions, a line feed wherever
there was a carriage return and a line feed, and it succeeds or ends with the same error. -/
theorem tokenize_joinBreaks {source : String} (h : Paired source.toList) :
    tokenize (String.ofList (joinBreaks source.toList)) =
      outcomeWithBreaks joinBreaks (tokenize source) := by
  obtain ⟨ps, r, hsource, hdivides, hend⟩ :=
    Builtin.exists_divides Builtin.standard source.toList
  have hjoin : ∀ p ∈ ps, normalize p.text = joinBreaks p.text := fun p hp =>
    (hdivides.paired (hsource ▸ h) p hp).joinBreaks_eq.symm
  have hscan : tokenize source = Piece.report Builtin.standard .origin ps r :=
    tokenizeWith_of_divides hsource hdivides hend
  calc tokenize (String.ofList (joinBreaks source.toList))
    _ = tokenize (String.ofList (normalize source.toList)) := by rw [h.joinBreaks_eq]
    _ = outcomeWithBreaks normalize (tokenize source) :=
      tokenizeWith_normalize (by decide) source
    _ = outcomeWithBreaks joinBreaks (tokenize source) := by
      rw [hscan, Piece.report]
      cases Builtin.failure Builtin.standard r <;>
        simp only [outcomeWithBreaks, Piece.layOut_withBreaks hjoin]

/-- Line breaks between tokens, behind a backslash, in a comment and in an escape that is none. -/
theorem tokenize_joinBreaks_escape :
    Paired ";\r\n'\\\r\n'/*\r\n*/'\\u\r\n'".toList ∧
      tokenize ";\r\n'\\\r\n'/*\r\n*/'\\u\r\n'" = .error ⟨[
        ⟨.semicolon, ";", ⟨0, 0⟩, ⟨0, 1⟩⟩, ⟨.carriageReturn, "\r\n", ⟨0, 1⟩, ⟨1, 0⟩⟩,
        ⟨.string, "'\\\r\n'", ⟨1, 0⟩, ⟨2, 1⟩⟩, ⟨.multiLineComment, "/*\r\n*/", ⟨2, 1⟩, ⟨3, 2⟩⟩],
        .unexpectedToken "string" ⟨4, 0⟩⟩ ∧
      tokenize ";\n'\\\n'/*\n*/'\\u\n'" = .error ⟨[
        ⟨.semicolon, ";", ⟨0, 0⟩, ⟨0, 1⟩⟩, ⟨.lineFeed, "\n", ⟨0, 1⟩, ⟨1, 0⟩⟩,
        ⟨.string, "'\\\n'", ⟨1, 0⟩, ⟨2, 1⟩⟩, ⟨.multiLineComment, "/*\n*/", ⟨2, 1⟩, ⟨3, 2⟩⟩],
        .unexpectedToken "string" ⟨4, 0⟩⟩ := by
  have hpaired : Paired ";\r\n'\\\r\n'/*\r\n*/'\\u\r\n'".toList := by decide
  have hjoined := tokenize_joinBreaks hpaired
  have hsource : String.ofList (joinBreaks ";\r\n'\\\r\n'/*\r\n*/'\\u\r\n'".toList) =
      ";\n'\\\n'/*\n*/'\\u\n'" := by decide
  rw [hsource] at hjoined
  exact ⟨hpaired, rfl, hjoined⟩

end JsLexer
