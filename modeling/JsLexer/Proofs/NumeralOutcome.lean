import JsLexer.Proofs.LongestPrefix
import JsLexer.Proofs.Outcome

/-!
What a text that starts with a digit, or with a point and a digit, makes of a number.

A number in full is one that fits the grammar and has the right neighbour: white space, a line
terminator or the end behind one with a letter for its base, and behind any other nothing that runs
into it. The reader never goes back, and yet it finds each number in full, as it goes on exactly as
long as more text could make a number of what it has read. Only then does it look at the neighbour.
-/

namespace JsLexer

namespace Lexeme

/-- The text starts with the number `w`, and what stands behind it leaves it as it is. A point must
not follow digits alone, as it starts a fraction. -/
inductive StartsWithNumber (cs : List Char) : TokenKind → List Char → Prop
  | radix {k : TokenKind} {w r : List Char} : cs = w ++ r → IsRadixNumber k w →
      (∀ c ∈ r.head?, isWhitespace c = true ∨ isLineTerminator c = true) → StartsWithNumber cs k w
  | decimal {k : TokenKind} {w r : List Char} : cs = w ++ r → IsDecimal k w →
      (∀ c ∈ r.head?, c ≠ '\\' ∧ isNameStart c = false ∧ isNamePart c = false) →
      ((∀ c ∈ w, isDecimalDigit c = true) → r.head? ≠ some '.') → StartsWithNumber cs k w

/-- A decimal number is a whole number exactly if it has nothing but digits. -/
theorem IsDecimal.eq_int_iff {k : TokenKind} {w : List Char} (h : IsDecimal k w) :
    k = .int ↔ ∀ c ∈ w, isDecimalDigit c = true := by
  obtain ⟨whole, places, scale, rfl, hwhole, hfraction, hexponent, -, rfl⟩ := h
  constructor
  · intro hint
    split at hint
    · next hnil =>
      obtain ⟨rfl, rfl⟩ := hnil
      simpa using hwhole
    · cases hint
  · intro hdigits
    refine if_pos ⟨?_, ?_⟩
    · rcases hfraction with rfl | ⟨ds, rfl, -⟩
      · rfl
      · exact absurd (hdigits '.' (by simp)) (by decide)
    · rcases hexponent with rfl | ⟨e, sign, ds, rfl, rfl | rfl, -⟩
      · rfl
      · exact absurd (hdigits 'e' (by simp)) (by decide)
      · exact absurd (hdigits 'E' (by simp)) (by decide)

theorem IsRadixNumber.endsBefore_iff {k : TokenKind} {w r : List Char} (h : IsRadixNumber k w) :
    k.endsBefore w r = true ↔
      ∀ c ∈ r.head?, isWhitespace c = true ∨ isLineTerminator c = true := by
  obtain ⟨letter, isDigit, ds, -, hradix, -⟩ := h
  rw [(radixOf_cases hradix).2]
  cases r <;> simp [isSeparator]

theorem IsDecimal.endsBefore_iff {k : TokenKind} {w r : List Char} (h : IsDecimal k w) :
    k.endsBefore w r = true ↔
      (∀ c ∈ r.head?, c ≠ '\\' ∧ isNameStart c = false ∧ isNamePart c = false) ∧
        ((∀ c ∈ w, isDecimalDigit c = true) → r.head? ≠ some '.') := by
  rw [← h.eq_int_iff]
  obtain ⟨whole, places, scale, -, -, -, -, -, rfl⟩ := h
  rw [endsBefore_decimal]
  refine and_congr ?_ ?_
  · cases r <;> simp [runsIntoNumber, and_assoc]
  · split <;> simp_all

/-! ### How far a number is read -/

/-- What more text can make a number of. -/
def IsNumberStart (v : List Char) : Prop := ∃ k t, IsNumeral k (v ++ t)

/-- A reader makes `a` of every text that starts with `v` and goes on with the same code point as
`r`. -/
def Stops {α : Type} (read : List Char → α) (v r : List Char) (a : α) : Prop :=
  ∀ r', r'.head? = r.head? → read (v ++ r') = a

theorem head?_append_congr {r r' : List Char} (h : r'.head? = r.head?) (v : List Char) :
    (v ++ r').head? = (v ++ r).head? := by
  rw [List.head?_append, List.head?_append, h]

theorem runLength_stops {p : Char → Bool} {v r : List Char} (hv : ∀ c ∈ v, p c = true)
    (hr : r.head?.all (!p ·) = true) : Stops (runLength p) v r v.length :=
  fun _ hr' => runLength_eq hv (hr' ▸ hr)

/-- A fraction is read to its last digit, or it is the point that is read. -/
theorem fraction_stops {cs : List Char} (hdigit : cs.head?.all (!isDecimalDigit ·) = true) :
    ∃ v r, cs = v ++ r ∧
      (IsFraction v ∧ Stops fraction v r (.ok v.length) ∨
        v = ['.'] ∧ Stops fraction v r (.error v.length)) := by
  by_cases hpoint : cs.head? = some '.'
  · obtain ⟨cs, rfl⟩ := List.head?_eq_some_iff.1 hpoint
    obtain ⟨ds, r, rfl, -, hds, hr⟩ := exists_runLength isDecimalDigit cs
    rcases eq_or_ne ds [] with rfl | hne
    · refine ⟨['.'], r, rfl, .inr ⟨rfl, fun r' hr' => ?_⟩⟩
      have hrun : runLength isDecimalDigit r' = 0 := runLength_stops hds hr r' hr'
      simp [fraction, hrun]
    · have hfraction : IsFraction ('.' :: ds) := .inr ⟨ds, rfl, hne, hds⟩
      exact ⟨'.' :: ds, r, rfl, .inl ⟨hfraction, fun r' hr' =>
        fraction_complete hfraction (by simp) (hr' ▸ hr)⟩⟩
  · exact ⟨[], cs, rfl, .inl ⟨.inl rfl, fun r' hr' =>
      fraction_complete (.inl rfl) (fun _ => hr' ▸ hpoint) (hr' ▸ hdigit)⟩⟩

theorem exists_sign (cs : List Char) :
    ∃ sign r, cs = sign ++ r ∧ sign ∈ [[], ['+'], ['-']] ∧ Stops signLength sign r sign.length := by
  by_cases hplus : cs.head? = some '+'
  · obtain ⟨r, rfl⟩ := List.head?_eq_some_iff.1 hplus
    exact ⟨['+'], r, rfl, by simp, fun _ _ => rfl⟩
  by_cases hminus : cs.head? = some '-'
  · obtain ⟨r, rfl⟩ := List.head?_eq_some_iff.1 hminus
    exact ⟨['-'], r, rfl, by simp, fun _ _ => rfl⟩
  refine ⟨[], cs, rfl, by simp, fun r' hr' => ?_⟩
  rw [← hr'] at hplus hminus
  rw [List.nil_append]
  unfold signLength
  split <;> simp_all

/-- An exponent is read to its last digit, or its letter and sign are read. -/
theorem exponent_stops (cs : List Char) :
    ∃ v r, cs = v ++ r ∧
      (IsExponent v ∧ Stops exponent v r (.ok v.length) ∨
        IsExponent (v ++ ['0']) ∧ Stops exponent v r (.error v.length)) := by
  by_cases hletter : ∃ e r, cs = e :: r ∧ (e = 'e' ∨ e = 'E')
  · obtain ⟨e, cs, rfl, he⟩ := hletter
    obtain ⟨sign, cs, rfl, hsign, hlength⟩ := exists_sign cs
    obtain ⟨ds, r, rfl, -, hds, hr⟩ := exists_runLength isDecimalDigit cs
    have hread : ∀ r', r'.head? = r.head? → exponent (e :: (sign ++ (ds ++ r'))) =
        if ds = [] then .error (1 + sign.length) else .ok (1 + sign.length + ds.length) := by
      intro r' hr'
      simp only [exponent, if_pos he, hlength _ (head?_append_congr hr' ds), List.drop_left,
        runLength_stops hds hr r' hr', List.length_eq_zero_iff]
    refine ⟨e :: (sign ++ ds), r, by simp, ?_⟩
    rcases eq_or_ne ds [] with rfl | hne
    · refine .inr ⟨.inr ⟨e, sign, ['0'], by simp, he, hsign, by simp,
        List.forall_mem_singleton.2 rfl⟩, fun r' hr' => ?_⟩
      simpa [Nat.add_comm] using hread r' hr'
    · refine .inl ⟨.inr ⟨e, sign, ds, rfl, he, hsign, hne, hds⟩, fun r' hr' => ?_⟩
      have := hread r' hr'
      rw [if_neg hne] at this
      rw [List.cons_append, List.append_assoc, this, List.length_cons, List.length_append]
      congr 1
      omega
  · refine ⟨[], cs, rfl, .inl ⟨.inl rfl, fun r' hr' => ?_⟩⟩
    cases r' with
    | nil => rfl
    | cons c r' =>
      obtain ⟨r, rfl⟩ := List.head?_eq_some_iff.1 hr'.symm
      have hc : ¬ (c = 'e' ∨ c = 'E') := fun hc => hletter ⟨c, r, rfl, hc⟩
      rw [List.nil_append, exponent, if_neg hc]
      rfl

/-- A decimal number is read as far as more text can make a number of it. -/
theorem decimal_stops {cs : List Char} (hahead : numeralAhead cs = true) :
    ∃ v r, cs = v ++ r ∧ v ≠ [] ∧ IsNumberStart v ∧
      Stops (fun cs => (decimal cs).length) v r v.length := by
  have hzero : ∀ c ∈ ['0'], isDecimalDigit c = true := List.forall_mem_singleton.2 rfl
  obtain ⟨whole, cs, rfl, -, hwhole, hnodigit⟩ := exists_runLength isDecimalDigit cs
  have hrun := runLength_stops hwhole hnodigit
  obtain ⟨places, cs, rfl, ⟨hfraction, hplaces⟩ | ⟨rfl, hplaces⟩⟩ := fraction_stops hnodigit
  · obtain ⟨scale, r, rfl, hexponent⟩ := exponent_stops cs
    have hdigits : whole ≠ [] ∨ places ≠ [] := by
      have hpos := @whole_add_places_pos _ hahead places.length
        (by rw [hrun _ rfl, List.drop_left, hplaces _ rfl])
      rw [hrun _ rfl, ← List.length_append, List.length_pos_iff] at hpos
      simpa [← not_and_or] using hpos
    refine ⟨whole ++ (places ++ scale), r, by simp, by rcases hdigits with h | h <;> simp [h], ?_⟩
    rcases hexponent with ⟨hexponent, hscale⟩ | ⟨hexponent, hscale⟩
    · refine ⟨⟨_, [], .inr ⟨whole, places, scale, by simp, hwhole, hfraction, hexponent, hdigits,
        rfl⟩⟩, fun r' hr' => ?_⟩
      have hlead := head?_append_congr hr' scale
      have hread := decimal_eq (hrun _ (head?_append_congr hlead places)) (hplaces _ hlead)
        (hscale r' hr')
      simp only [List.append_assoc, hread]
      split <;> rfl
    · refine ⟨⟨_, ['0'], .inr ⟨whole, places, scale ++ ['0'], by simp, hwhole, hfraction,
        hexponent, hdigits, rfl⟩⟩, fun r' hr' => ?_⟩
      have hlead := head?_append_congr hr' scale
      have hdrop : (whole ++ (places ++ (scale ++ r'))).drop (whole.length + places.length) =
          scale ++ r' := by rw [← List.drop_drop, List.drop_left, List.drop_left]
      simp only [List.append_assoc, decimal, decimalLength,
        hrun _ (head?_append_congr hlead places), List.drop_left, hplaces _ hlead, hdrop,
        hscale r' hr', Reading.length, List.length_append, Nat.add_assoc]
  · refine ⟨whole ++ ['.'], cs, by simp, by simp, ⟨_, ['0'], .inr ⟨whole, ['.', '0'], [], by simp,
      hwhole, .inr ⟨['0'], rfl, by simp, hzero⟩, .inl rfl, .inr (by simp), rfl⟩⟩, fun r' hr' => ?_⟩
    simp only [List.append_assoc, decimal, decimalLength, hrun _ (head?_append_congr hr' ['.']),
      List.drop_left, hplaces r' hr', Reading.length, List.length_append]

theorem radixOf_zero {letter : Char} {k : TokenKind} {isDigit : Char → Bool}
    (h : radixOf letter = some (k, isDigit)) : isDigit '0' = true := by
  unfold radixOf at h
  split at h <;> cases h <;> rfl

/-- A number is read as far as more text can make a number of it. -/
theorem numeral_stops {cs : List Char} (hahead : numeralAhead cs = true) :
    ∃ v r, cs = v ++ r ∧ IsNumberStart v ∧
      Stops (fun cs => (numeral cs).length) v r v.length := by
  rcases radix_or_decimal cs with ⟨letter, cs, k, isDigit, rfl, hletter⟩ | hnone
  · obtain ⟨ds, r, rfl, -, hds, hr⟩ := exists_runLength isDigit cs
    refine ⟨'0' :: letter :: ds, r, rfl, ⟨k, ['0'], .inl ⟨letter, isDigit, ds ++ ['0'], rfl,
      hletter, by simp, ?_⟩⟩, fun r' hr' => ?_⟩
    · rw [List.forall_mem_append]
      exact ⟨hds, List.forall_mem_singleton.2 (radixOf_zero hletter)⟩
    · simp only [List.cons_append, numeral_radix hletter, radixDigits_length,
        runLength_stops hds hr r' hr', List.length_cons]
      omega
  · obtain ⟨v, r, rfl, hne, hv, hstops⟩ := decimal_stops hahead
    refine ⟨v, r, rfl, hv, fun r' hr' => ?_⟩
    -- no letter for a base turns up, as it would be the same one
    have hnone' : ∀ letter r'', v ++ r' = '0' :: letter :: r'' → radixOf letter = none := by
      intro letter r'' hcs
      rcases v with _ | ⟨c, _ | ⟨d, v⟩⟩
      · exact absurd rfl hne
      · obtain ⟨rfl, rfl⟩ := List.cons.inj hcs
        obtain ⟨r, rfl⟩ := List.head?_eq_some_iff.1 hr'.symm
        exact hnone letter r rfl
      · obtain ⟨rfl, htail⟩ := List.cons.inj hcs
        obtain ⟨rfl, -⟩ := List.cons.inj htail
        exact hnone d (v ++ r) rfl
    simp only [numeral_decimal hnone', hstops r' hr']

theorem numeral_longest {cs : List Char} (hahead : numeralAhead cs = true) :
    ∃ v, IsLongestPrefix IsNumberStart v cs ∧ (numeral cs).length = v.length := by
  obtain ⟨v, r, rfl, hv, hstops⟩ := numeral_stops hahead
  refine ⟨v, isLongestPrefix_append hv fun u hu hstart => ?_, hstops r rfl⟩
  cases u with
  | nil => rfl
  | cons c u =>
    obtain ⟨r, rfl⟩ := hu
    obtain ⟨k, t, hnumeral⟩ := hstart
    -- a number that goes on as the text does would be read to its end, and yet the reader stops
    have hread := (numeral_complete (r := []) hnumeral rfl).2
    have hstop := hstops (c :: u ++ t) rfl
    rw [List.append_nil, List.append_assoc] at hread
    simp only [hread, Reading.length, List.length_append, List.length_cons] at hstop
    omega

end Lexeme

open Lexeme

theorem Builtin.fits_numeral_iff {k : TokenKind} {w cs : List Char} :
    Builtin.numeral.Fits k w cs ↔ StartsWithNumber cs k w := by
  constructor
  · rintro ⟨r, hcs, hradix | hdecimal, hr⟩
    · exact .radix hcs hradix (hradix.endsBefore_iff.1 hr)
    · obtain ⟨hnext, hpoint⟩ := hdecimal.endsBefore_iff.1 hr
      exact .decimal hcs hdecimal hnext hpoint
  · intro h
    cases h with
    | radix hcs hw hr => exact ⟨_, hcs, .inl hw, hw.endsBefore_iff.2 hr⟩
    | decimal hcs hw hnext hpoint =>
      exact ⟨_, hcs, .inr hw, hw.endsBefore_iff.2 ⟨hnext, hpoint⟩⟩

/-- Before a digit, or a point and a digit, the matcher of numbers passes `w` and makes it a token
of kind `k` exactly if the text starts with this number in full; there is at most one, and without
one the token is unexpected. In either case it passes the longest start of a number, and it fails
where that ends. -/
theorem numeral_outcome {s : Cursor} (hahead : Builtin.numeral.recognizes s.rest = true)
    (ctx : Context) :
    let result := Builtin.numeral.produce ctx s
    (∀ k w, (∃ t, result.1 = .ok t ∧ t.kind = k) ∧ s.rest = w ++ result.2.rest ↔
      StartsWithNumber s.rest k w) ∧
    (∀ k w, StartsWithNumber s.rest k w →
      result = (.ok ⟨k, String.ofList w, ctx.start, (s.skip w.length).position⟩,
        s.skip w.length)) ∧
    (∀ k w k' w', StartsWithNumber s.rest k w → StartsWithNumber s.rest k' w' →
      k = k' ∧ w = w') ∧
    ((∀ k w, ¬ StartsWithNumber s.rest k w) →
      result.1 = .error (.unexpectedToken "numeral" result.2.position)) ∧
    ∃ v, IsLongestPrefix IsNumberStart v s.rest ∧ result.2 = s.skip v.length := by
  intro result
  obtain ⟨v, hv, hlength⟩ := numeral_longest hahead
  have hpassed : result.2 = s.skip (numeral s.rest).length := rfl
  simp only [← Builtin.fits_numeral_iff]
  refine ⟨fun k w => Builtin.passes_iff_fits hahead ctx, fun k w h => h.produce ctx,
    fun k w k' w' h h' => h.eq h', fun hnot => ?_, v, hv, hlength ▸ hpassed⟩
  exact Builtin.unexpected_of_not_fits hahead (by decide) (by decide) hnot ctx

/-- Behind a name, a number that leads with its point and ends before another point; behind that,
one whose exponent lacks its digits. -/
theorem numeral_outcome_points :
    let s := (Cursor.start "a.5.1e+;".toList).next.2
    let ctx : Context := ⟨some ⟨.identifierName, "a", ⟨0, 0⟩, ⟨0, 1⟩⟩⟩
    Builtin.numeral.produce ctx s = (.ok ⟨.float, ".5", ⟨0, 1⟩, ⟨0, 3⟩⟩, s.skip 2) ∧
      Builtin.numeral.produce ctx (s.skip 2) =
        (.error (.unexpectedToken "numeral" ⟨0, 7⟩), s.skip 6) := by
  intro s ctx
  have hdecimal : IsDecimal .float ['.', '5'] :=
    ⟨[], ['.', '5'], [], rfl, by simp, .inr ⟨['5'], rfl, by simp, List.forall_mem_singleton.2 rfl⟩,
      .inl rfl, .inr (by simp), rfl⟩
  have hnext : ∀ c ∈ some '.', c ≠ '\\' ∧ isNameStart c = false ∧ isNamePart c = false := by
    rintro c ⟨⟩
    decide
  have hfive : StartsWithNumber s.rest .float ['.', '5'] :=
    .decimal (r := ".1e+;".toList) rfl hdecimal hnext fun hdigits =>
      absurd (hdigits '.' (by simp)) (by decide)
  obtain ⟨-, htoken, -⟩ := numeral_outcome (s := s) rfl ctx
  obtain ⟨hpasses, -, -, hrefused, -⟩ := numeral_outcome (s := s.skip 2) rfl ctx
  refine ⟨htoken _ _ hfive, ?_⟩
  have hnot : ∀ k w, ¬ StartsWithNumber (s.skip 2).rest k w := by
    intro k w h
    obtain ⟨⟨t, ht, -⟩, -⟩ := (hpasses k w).2 h
    cases ht
  exact Prod.ext (hrefused hnot) rfl

end JsLexer
