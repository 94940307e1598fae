import JsLexer.Proofs.NormalizedReading

/-!
Numbers in normalized texts.

No part of a number holds a carriage return, whether the number is well formed or not, and neither
half of a line break goes on with one. So a number is read in the normal form of a text exactly as
in the text itself, down to its length.
-/

namespace JsLexer.Lexeme

/-! ### Runs of code points -/

theorem runLength_normalize {p : Char → Bool} (hreturn : p '\r' = false) (hfeed : p '\n' = false)
    (cs : List Char) : runLength p (normalize cs) = runLength p cs := by
  induction cs with
  | nil => rfl
  | cons c cs ih =>
    by_cases hc : c = '\r'
    · subst hc
      obtain ⟨cs', hcs⟩ := exists_normalize_return cs
      simp [hcs, runLength, hreturn, hfeed]
    · simp only [runLength, normalize_cons hc, List.takeWhile_cons] at ih ⊢
      split
      · rw [List.length_cons, List.length_cons, ih]
      · rfl

theorem notMem_take_runLength {p : Char → Bool} (hreturn : p '\r' = false) (cs : List Char) :
    '\r' ∉ cs.take (runLength p cs) := by
  obtain ⟨w, r, rfl, hlength, hw, -⟩ := exists_runLength p cs
  rw [hlength, List.take_left]
  intro hmem
  simp [hw _ hmem] at hreturn

/-- What follows code points without a carriage return is normalized by itself. -/
theorem drop_normalize {cs : List Char} {n : Nat} (h : '\r' ∉ cs.take n) :
    (normalize cs).drop n = normalize (cs.drop n) := by
  induction cs generalizing n with
  | nil => simp [normalize]
  | cons c cs ih =>
    cases n with
    | zero => rfl
    | succ n =>
      rw [List.take_succ_cons, List.mem_cons, not_or] at h
      rw [normalize_cons (Ne.symm h.1), List.drop_succ_cons, List.drop_succ_cons, ih h.2]

/-- Two runs without a carriage return make up one. -/
theorem notMem_take_add {cs : List Char} {m n : Nat} (hm : '\r' ∉ cs.take m)
    (hn : '\r' ∉ (cs.drop m).take n) : '\r' ∉ cs.take (m + n) := by
  rw [List.take_add, List.mem_append, not_or]
  exact ⟨hm, hn⟩

theorem isDecimalDigit_lineBreak : isDecimalDigit '\r' = false ∧ isDecimalDigit '\n' = false := by
  decide

theorem fraction_normalize (cs : List Char) : fraction (normalize cs) = fraction cs := by
  rcases normalize_start cs with rfl | ⟨r, r', rfl, hcs⟩ | ⟨c, r, -, rfl, hcs⟩
  · rfl
  · rw [hcs]
    rfl
  · rw [hcs]
    by_cases hpoint : c = '.'
    · subst hpoint
      simp only [fraction,
        runLength_normalize isDecimalDigit_lineBreak.1 isDecimalDigit_lineBreak.2]
    · simp [fraction, hpoint]

theorem fraction_no_return {cs : List Char} {n : Nat}
    (h : fraction cs = .ok n ∨ fraction cs = .error n) : '\r' ∉ cs.take n := by
  unfold fraction at h
  split at h
  · next cs =>
    have hpoint : '\r' ∉ ('.' :: cs).take 1 := by simp
    dsimp only at h
    split at h
    · obtain rfl : 1 = n := by simpa using h
      exact hpoint
    · obtain rfl : 1 + runLength isDecimalDigit cs = n := by simpa using h
      exact notMem_take_add hpoint (notMem_take_runLength isDecimalDigit_lineBreak.1 cs)
  · obtain rfl : 0 = n := by simpa using h
    simp

theorem signLength_normalize (cs : List Char) : signLength (normalize cs) = signLength cs := by
  rcases normalize_start cs with rfl | ⟨r, r', rfl, hcs⟩ | ⟨c, r, -, rfl, hcs⟩
  · rfl
  · rw [hcs]
    rfl
  · rw [hcs]
    by_cases hplus : c = '+'
    · rw [hplus]
      rfl
    by_cases hminus : c = '-'
    · rw [hminus]
      rfl
    · simp [signLength, hplus, hminus]

theorem signLength_no_return (cs : List Char) : '\r' ∉ cs.take (signLength cs) := by
  unfold signLength
  split <;> simp

theorem exponent_normalize (cs : List Char) : exponent (normalize cs) = exponent cs := by
  rcases normalize_start cs with rfl | ⟨r, r', rfl, hcs⟩ | ⟨c, r, -, rfl, hcs⟩
  · rfl
  · rw [hcs]
    rfl
  · rw [hcs]
    simp only [exponent, signLength_normalize, drop_normalize (signLength_no_return r),
      runLength_normalize isDecimalDigit_lineBreak.1 isDecimalDigit_lineBreak.2]

theorem exponent_no_return {cs : List Char} {n : Nat}
    (h : exponent cs = .ok n ∨ exponent cs = .error n) : '\r' ∉ cs.take n := by
  unfold exponent at h
  split at h
  · simp
  · next c cs =>
    split at h
    · next hc =>
      have hlead : '\r' ∉ (c :: cs).take (1 + signLength cs) := by
        refine notMem_take_add ?_ (signLength_no_return cs)
        rcases hc with rfl | rfl <;> simp
      dsimp only at h
      split at h
      · obtain rfl : 1 + signLength cs = n := by simpa using h
        exact hlead
      · obtain rfl :
            1 + signLength cs + runLength isDecimalDigit (cs.drop (signLength cs)) = n := by
          simpa using h
        refine notMem_take_add hlead ?_
        rw [Nat.add_comm 1, List.drop_succ_cons]
        exact notMem_take_runLength isDecimalDigit_lineBreak.1 _
    · obtain rfl : 0 = n := by simpa using h
      simp

/-! ### Numbers -/

theorem decimalLength_normalize (cs : List Char) :
    decimalLength (normalize cs) = decimalLength cs := by
  have hwhole := notMem_take_runLength isDecimalDigit_lineBreak.1 cs
  simp only [decimalLength, drop_normalize hwhole, fraction_normalize,
    runLength_normalize isDecimalDigit_lineBreak.1 isDecimalDigit_lineBreak.2]
  cases hplaces : fraction (cs.drop (runLength isDecimalDigit cs)) with
  | error read => rfl
  | ok places =>
    have hlead := notMem_take_add hwhole (fraction_no_return (.inl hplaces))
    simp only [drop_normalize hlead, exponent_normalize]

theorem decimalLength_no_return {cs : List Char} {n : Nat}
    (h : (∃ k, decimalLength cs = .ok (k, n)) ∨ decimalLength cs = .error n) :
    '\r' ∉ cs.take n := by
  have hwhole := notMem_take_runLength isDecimalDigit_lineBreak.1 cs
  simp only [decimalLength] at h
  cases hplaces : fraction (cs.drop (runLength isDecimalDigit cs)) with
  | error read =>
    obtain rfl : runLength isDecimalDigit cs + read = n := by simpa [hplaces] using h
    exact notMem_take_add hwhole (fraction_no_return (.inr hplaces))
  | ok places =>
    have hlead := notMem_take_add hwhole (fraction_no_return (.inl hplaces))
    cases hscale : exponent (cs.drop (runLength isDecimalDigit cs + places)) with
    | error read =>
      obtain rfl : runLength isDecimalDigit cs + places + read = n := by
        simpa [hplaces, hscale] using h
      exact notMem_take_add hlead (exponent_no_return (.inr hscale))
    | ok scale =>
      obtain rfl : runLength isDecimalDigit cs + places + scale = n := by
        simpa [hplaces, hscale] using h
      exact notMem_take_add hlead (exponent_no_return (.inl hscale))

theorem decimal_normalize (cs : List Char) :
    decimal (normalize cs) = decimal cs ∧ '\r' ∉ cs.take (decimal cs).length := by
  rw [decimal, decimal, decimalLength_normalize]
  cases hlength : decimalLength cs with
  | error read => exact ⟨rfl, decimalLength_no_return (.inr hlength)⟩
  | ok result =>
    obtain ⟨kind, length⟩ := result
    have hno := decimalLength_no_return (.inl ⟨kind, hlength⟩)
    have hruns : runsIntoNumber '\n' = runsIntoNumber '\r' := by decide +kernel
    dsimp only
    rw [drop_normalize hno, any_head?_normalize hruns]
    refine ⟨rfl, ?_⟩
    split <;> exact hno

theorem radixDigits_normalize {k : TokenKind} {isDigit : Char → Bool}
    (hreturn : isDigit '\r' = false) (hfeed : isDigit '\n' = false) (cs : List Char) :
    radixDigits k isDigit (normalize cs) = radixDigits k isDigit cs := by
  have hseparator : isSeparator '\n' = isSeparator '\r' := by decide
  simp only [radixDigits, runLength_normalize hreturn hfeed,
    drop_normalize (notMem_take_runLength hreturn cs), all_head?_normalize hseparator]

theorem radixOf_lineBreak {letter : Char} {k : TokenKind} {isDigit : Char → Bool}
    (h : radixOf letter = some (k, isDigit)) :
    (letter ≠ '\r' ∧ letter ≠ '\n') ∧ isDigit '\r' = false ∧ isDigit '\n' = false := by
  have hhex := (radixOf_cases h).1
  refine ⟨⟨?_, ?_⟩, Bool.eq_false_iff.2 fun hc => ?_, Bool.eq_false_iff.2 fun hc => ?_⟩
  · rintro rfl
    simp [radixOf] at h
  · rintro rfl
    simp [radixOf] at h
  · exact absurd (hhex _ hc) (by decide)
  · exact absurd (hhex _ hc) (by decide)

/-- A number is read in the normal form of a text as in the text itself, and passes no carriage
return. -/
theorem numeral_normalize (cs : List Char) :
    numeral (normalize cs) = numeral cs ∧ '\r' ∉ cs.take (numeral cs).length := by
  rcases radix_or_decimal cs with ⟨letter, r, k, isDigit, rfl, hletter⟩ | hnone
  · obtain ⟨hbreak, hreturn, hfeed⟩ := radixOf_lineBreak hletter
    rw [normalize_cons (by decide), normalize_cons hbreak.1, numeral_radix hletter,
      numeral_radix hletter, radixDigits_normalize hreturn hfeed, radixDigits_length]
    refine ⟨rfl, notMem_take_add ?_ (notMem_take_runLength hreturn r)⟩
    simp [Ne.symm hbreak.1]
  · have hnone' : ∀ letter r, normalize cs = '0' :: letter :: r → radixOf letter = none := by
      intro letter r hcs
      cases hletter : radixOf letter with
      | none => rfl
      | some base =>
        obtain ⟨hreturn, hfeed⟩ := (radixOf_lineBreak hletter).1
        have hlead : '\n' ∉ ['0', letter] ∧ '\r' ∉ ['0', letter] := by
          simp [Ne.symm hreturn, Ne.symm hfeed]
        obtain ⟨r', hcs', -⟩ := normalize_eq_append (w := ['0', letter]) hlead hcs
        rw [hnone letter r' hcs'] at hletter
        simp at hletter
    rw [numeral_decimal hnone, numeral_decimal hnone']
    exact decimal_normalize cs

end JsLexer.Lexeme
