import JsLexer.Proofs.LongestPrefix
import JsLexer.Proofs.NormalizedReading
import JsLexer.Proofs.Outcome

/-!
Punctuators are read by maximal munch.

The spellings of the kinds are a table, and the families that the first code point picks amount to
looking up the longest spelling that the text starts with. A question mark and a point do not count
before a digit. Two points without a third are the one start of a spelling that is given up.
-/

namespace JsLexer

/-! ### The table -/

/-- The punctuators and no other kinds have a spelling. -/
theorem TokenKind.spelling_ne_nil_iff {k : TokenKind} :
    k.spelling ≠ [] ↔ k.isPunctuator = true := by
  cases k <;> decide

namespace Lexeme

/-- A spelling is read to its end, so it tells the kind. -/
theorem spelling_inj {k k' : TokenKind} (hk : k.spelling ≠ []) (h : k.spelling = k'.spelling) :
    k = k' := by
  have hread := punctuator_complete hk (TokenKind.endsBefore_nil k _)
  rw [h, punctuator_complete (h ▸ hk) (TokenKind.endsBefore_nil k' _)] at hread
  exact (Reading.token.inj hread).1.symm

/-- The text may be taken to start with the punctuator `w`: this is in the table, and it is not the
question mark and the point that a digit follows. -/
def Offers (cs w : List Char) : Prop :=
  (∃ k : TokenKind, k.spelling ≠ [] ∧ w = k.spelling) ∧
    ¬ (w = ['?', '.'] ∧ (cs.drop 2).head?.any isDecimalDigit = true)

/-- Two points are ahead, and no third one. -/
def LonePoints (cs : List Char) : Prop := ['.', '.'] <+: cs ∧ ¬ ['.', '.', '.'] <+: cs

theorem lonePoints_iff {cs : List Char} :
    LonePoints cs ↔ ∃ r, cs = '.' :: '.' :: r ∧ r.head? ≠ some '.' := by
  constructor
  · rintro ⟨⟨r, rfl⟩, hthird⟩
    refine ⟨r, rfl, fun hhead => hthird ?_⟩
    obtain ⟨r', rfl⟩ := List.head?_eq_some_iff.1 hhead
    exact ⟨r', rfl⟩
  · rintro ⟨r, rfl, hhead⟩
    refine ⟨⟨r, rfl⟩, ?_⟩
    rintro ⟨r', hr'⟩
    obtain rfl : '.' :: r' = r := by simpa using hr'
    exact hhead rfl

end Lexeme

open Lexeme

/-! ### The longest spelling -/

theorem Builtin.Fits.offers {k : TokenKind} {w cs : List Char}
    (h : Builtin.punctuator.Fits k w cs) : Offers cs w := by
  obtain ⟨r, rfl, ⟨rfl, hk⟩, hr⟩ := h
  refine ⟨⟨k, hk, rfl⟩, ?_⟩
  rintro ⟨hchain, hdigit⟩
  obtain rfl : k = .optionalChaining := spelling_inj hk hchain
  cases r with
  | nil => cases hdigit
  | cons c r =>
    have hnone : (!isDecimalDigit c) = true := hr
    have hc : isDecimalDigit c = true := hdigit
    simp [hc] at hnone

/-- A punctuator that ends is the longest one ahead. -/
theorem Builtin.Fits.isLongestPrefix {k : TokenKind} {w cs : List Char}
    (h : Builtin.punctuator.Fits k w cs) : IsLongestPrefix (Offers cs) w cs := by
  have hoffers := h.offers
  obtain ⟨r, rfl, ⟨rfl, hk⟩, hr⟩ := h
  refine isLongestPrefix_append hoffers ?_
  rintro u hu ⟨⟨k', hk', hlonger⟩, hchain⟩
  have haccepts : Builtin.punctuator.Accepts k' (k.spelling ++ u) := ⟨hlonger, hk'⟩
  refine haccepts.eq_nil_of_append ⟨rfl, hk⟩ hr hu ?_
  -- a question mark ends before a point only if a digit follows
  rintro rfl rfl
  obtain ⟨r, rfl⟩ := hu
  have hend : ('.' != '?' && ('.' != '.' || r.head?.any isDecimalDigit)) = true := hr
  have hdigit : r.head?.any isDecimalDigit = true := by simpa using hend
  exact hchain ⟨rfl, hdigit⟩

theorem fits_spelling {k : TokenKind} {cs : List Char} (hk : k.spelling ≠ [])
    (hcs : cs = k.spelling) : Builtin.punctuator.Fits k k.spelling cs :=
  ⟨[], by rw [hcs, List.append_nil], ⟨rfl, hk⟩, TokenKind.endsBefore_nil k _⟩

/-- Where a punctuator starts, one fits, or there are two points and no third. -/
theorem fits_or_lonePoints {cs : List Char} (hahead : Builtin.punctuator.recognizes cs = true) :
    (∃ k, Builtin.punctuator.Fits k k.spelling cs) ∨ LonePoints cs := by
  have hne : cs ≠ [] := by
    rintro rfl
    exact absurd hahead (by decide)
  have hdecides := punctuator_decides hne
  rcases hread : punctuator cs with ⟨k, n⟩ | n | n | n
  · obtain ⟨r, hcs, -, hk, hr⟩ := punctuator_sound hread
    exact .inl ⟨k, r, hcs, ⟨rfl, hk⟩, hr⟩
  · obtain ⟨r, hcs, -, hr⟩ := punctuator_malformed hahead hread
    exact .inr (lonePoints_iff.2 ⟨r, hcs, hr⟩)
  all_goals
    rw [hread] at hdecides
    exact hdecides.elim

/-- Maximal munch. Before a code point that starts a punctuator, some spelling is the longest one
ahead, and the matcher passes it and makes it a token of its kind; only two points without a third
are unexpected. Conversely every spelling is a token of its kind at the end of input, and the kinds
that are got like that are the punctuators. -/
theorem punctuator_outcome (ctx : Context) :
    (∀ s : Cursor, Builtin.punctuator.recognizes s.rest = true →
      (∃ w, IsLongestPrefix (Offers s.rest) w s.rest) ∧
      (∀ k : TokenKind, IsLongestPrefix (Offers s.rest) k.spelling s.rest → ¬ LonePoints s.rest →
        Builtin.punctuator.produce ctx s =
          (.ok ⟨k, String.ofList k.spelling, ctx.start, (s.skip k.spelling.length).position⟩,
            s.skip k.spelling.length)) ∧
      (LonePoints s.rest → Builtin.punctuator.produce ctx s =
        (.error (.unexpectedToken "punctuator" (s.skip 2).position), s.skip 2))) ∧
    (∀ (k : TokenKind) (s : Cursor), k.spelling ≠ [] → s.rest = k.spelling →
      Builtin.punctuator.produce ctx s =
        (.ok ⟨k, String.ofList k.spelling, ctx.start, (s.skip k.spelling.length).position⟩,
          s.skip k.spelling.length)) ∧
    ∀ k : TokenKind, (∃ (k' : TokenKind) (s : Cursor) (t : Token), k'.spelling ≠ [] ∧
      s.rest = k'.spelling ∧ (Builtin.punctuator.produce ctx s).1 = .ok t ∧ t.kind = k) ↔
        k.isPunctuator = true := by
  refine ⟨fun s hahead => ⟨?_, fun k hk hlone => ?_, fun hlone => ?_⟩,
    fun k s hk hrest => (fits_spelling hk hrest).produce ctx, fun k => ⟨?_, ?_⟩⟩
  · rcases fits_or_lonePoints hahead with ⟨k, hfits⟩ | ⟨⟨r, hr⟩, -⟩
    · exact ⟨_, hfits.isLongestPrefix⟩
    · have hperiod : Offers s.rest ['.'] := ⟨⟨.period, by decide, rfl⟩, by simp⟩
      exact exists_isLongestPrefix ⟨'.' :: r, hr⟩ hperiod
  · obtain ⟨k', hfits⟩ := (fits_or_lonePoints hahead).resolve_right hlone
    obtain ⟨⟨k₀, hk₀, hspelling⟩, -⟩ := hk.holds
    obtain rfl : k = k' := spelling_inj (hspelling ▸ hk₀) (hk.eq hfits.isLongestPrefix)
    exact hfits.produce ctx
  · obtain ⟨r, hrest, hr⟩ := lonePoints_iff.1 hlone
    have hread : Builtin.punctuator.read s.rest = .malformed 2 := hrest ▸ punctuator_points hr
    exact Builtin.produce_of_read hread ctx
  · rintro ⟨k', s, t, hk', hrest, ht, rfl⟩
    rw [(fits_spelling hk' hrest).produce ctx] at ht
    obtain rfl := Except.ok.inj ht
    exact TokenKind.spelling_ne_nil_iff.1 hk'
  · intro hk
    have hspelling := TokenKind.spelling_ne_nil_iff.2 hk
    have hproduce := (fits_spelling hspelling rfl).produce (s := .start k.spelling) ctx
    exact ⟨k, .start k.spelling, _, hspelling, rfl, congrArg Prod.fst hproduce, rfl⟩

/-- Before a point and a digit, the question mark is all that counts; and two points are no
punctuator. -/
theorem punctuator_outcome_points :
    let s := Cursor.start "?.5".toList
    let s' := Cursor.start "..x".toList
    Builtin.punctuator.produce .initial s =
        (.ok ⟨.questionMark, "?", ⟨0, 0⟩, ⟨0, 1⟩⟩, s.skip 1) ∧
      Builtin.punctuator.produce .initial s' =
        (.error (.unexpectedToken "punctuator" ⟨0, 2⟩), s'.skip 2) := by
  intro s s'
  obtain ⟨hahead, -, -⟩ := punctuator_outcome .initial
  obtain ⟨-, htoken, -⟩ := hahead s rfl
  obtain ⟨-, -, hlone⟩ := hahead s' rfl
  have hfits : Builtin.punctuator.Fits .questionMark ['?'] s.rest :=
    ⟨['.', '5'], rfl, ⟨rfl, by decide⟩, rfl⟩
  exact ⟨htoken .questionMark hfits.isLongestPrefix fun h => absurd h.1 (by decide),
    hlone (lonePoints_iff.2 ⟨['x'], rfl, by decide⟩)⟩

end JsLexer
