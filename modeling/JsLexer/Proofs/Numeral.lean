import JsLexer.Proofs.CharClass
import JsLexer.Proofs.Trivia

/-!
The texts of numbers.

A number with a letter for its base is that letter between a zero and digits. Any other number is
digits with a fraction and an exponent, of which the fraction may lead. Reading a number takes each
of its parts as long as it goes, and the parts are found again by what follows them: a digit never
does, and nor does a point behind digits without a fraction.
-/

namespace JsLexer.Lexeme

/-- The kind and the digits that a letter behind a zero announces. -/
def radixOf : Char → Option (TokenKind × (Char → Bool))
  | 'b' | 'B' => some (.binary, isBinaryDigit)
  | 'o' | 'O' => some (.octal, isOctalDigit)
  | 'x' | 'X' => some (.hex, isHexDigit)
  | _ => none

/-- A zero, a letter for the base, and at least one digit of that base. -/
def IsRadixNumber (k : TokenKind) (w : List Char) : Prop :=
  ∃ letter isDigit ds, w = '0' :: letter :: ds ∧ radixOf letter = some (k, isDigit) ∧ ds ≠ [] ∧
    ∀ c ∈ ds, isDigit c = true

/-- A point and at least one digit, or nothing. -/
def IsFraction (w : List Char) : Prop :=
  w = [] ∨ ∃ ds, w = '.' :: ds ∧ ds ≠ [] ∧ ∀ c ∈ ds, isDecimalDigit c = true

/-- The letter `e` of either case, a sign or none, and at least one digit, or nothing. -/
def IsExponent (w : List Char) : Prop :=
  w = [] ∨ ∃ e sign ds, w = e :: (sign ++ ds) ∧ (e = 'e' ∨ e = 'E') ∧
    sign ∈ [[], ['+'], ['-']] ∧ ds ≠ [] ∧ ∀ c ∈ ds, isDecimalDigit c = true

/-- Digits, a fraction and an exponent; without the last two it is a whole number. -/
def IsDecimal (k : TokenKind) (w : List Char) : Prop :=
  ∃ whole places scale, w = whole ++ (places ++ scale) ∧
    (∀ c ∈ whole, isDecimalDigit c = true) ∧ IsFraction places ∧ IsExponent scale ∧
    (whole ≠ [] ∨ places ≠ []) ∧ k = if places = [] ∧ scale = [] then .int else .float

/-- A number of either sort. -/
def IsNumeral (k : TokenKind) (w : List Char) : Prop := IsRadixNumber k w ∨ IsDecimal k w

/-! ### Numbers with a letter for the base -/

/-- The three bases: each has digits of its own, and its kind ends before a separator. -/
theorem radixOf_cases {letter : Char} {k : TokenKind} {isDigit : Char → Bool}
    (h : radixOf letter = some (k, isDigit)) :
    (∀ c, isDigit c = true → isHexDigit c = true) ∧
      ∀ w r, k.endsBefore w r = r.head?.all isSeparator := by
  unfold radixOf at h
  split at h <;> cases h <;> refine ⟨fun c hc => ?_, fun _ r => by cases r <;> rfl⟩
  · exact isHexDigit_of_isBinaryDigit hc
  · exact isHexDigit_of_isBinaryDigit hc
  · exact isHexDigit_of_isOctalDigit hc
  · exact isHexDigit_of_isOctalDigit hc
  · exact hc
  · exact hc

theorem numeral_radix {letter : Char} {k : TokenKind} {isDigit : Char → Bool}
    (h : radixOf letter = some (k, isDigit)) (cs : List Char) :
    numeral ('0' :: letter :: cs) = radixDigits k isDigit cs := by
  unfold radixOf at h
  split at h <;> cases h <;> rfl

theorem numeral_decimal {cs : List Char}
    (h : ∀ letter r, cs = '0' :: letter :: r → radixOf letter = none) :
    numeral cs = decimal cs := by
  unfold numeral
  split <;> first | rfl | exact absurd (h _ _ rfl) (by simp [radixOf])

/-- A letter for the base announces digits of its own, or there is none. -/
theorem radix_or_decimal (cs : List Char) :
    (∃ letter r k isDigit, cs = '0' :: letter :: r ∧ radixOf letter = some (k, isDigit)) ∨
      ∀ letter r, cs = '0' :: letter :: r → radixOf letter = none := by
  by_cases hradix : ∃ letter r entry, cs = '0' :: letter :: r ∧ radixOf letter = some entry
  · obtain ⟨letter, r, ⟨k, isDigit⟩, hcs, hletter⟩ := hradix
    exact .inl ⟨letter, r, k, isDigit, hcs, hletter⟩
  · refine .inr fun letter r hcs => Option.eq_none_iff_forall_ne_some.2 fun entry hentry => ?_
    exact hradix ⟨letter, r, entry, hcs, hentry⟩

theorem radixDigits_length {k : TokenKind} {isDigit : Char → Bool} (cs : List Char) :
    (radixDigits k isDigit cs).length = 2 + runLength isDigit cs := by
  simp only [radixDigits]
  split
  · next hzero => rw [hzero]; rfl
  · split <;> rfl

theorem radixDigits_sound {letter : Char} {k k' : TokenKind} {isDigit : Char → Bool} {n : Nat}
    {cs : List Char} (hradix : radixOf letter = some (k', isDigit))
    (h : radixDigits k' isDigit cs = .token k n) :
    ∃ w r, '0' :: letter :: cs = w ++ r ∧ n = w.length ∧ IsNumeral k w ∧
      k.endsBefore w r = true := by
  obtain ⟨ds, r, rfl, hlength, hds, -⟩ := exists_runLength isDigit cs
  simp only [radixDigits, hlength, List.drop_left] at h
  split at h
  · simp at h
  · next hne =>
    split at h
    · next hr =>
      obtain ⟨rfl, rfl⟩ := Reading.token.inj h
      refine ⟨'0' :: letter :: ds, r, rfl, Nat.add_comm .., .inl ⟨letter, isDigit, ds, rfl, hradix,
        by simpa using hne, hds⟩, ?_⟩
      rwa [(radixOf_cases hradix).2]
    · simp at h

theorem radixNumber_complete {k : TokenKind} {w r : List Char} (h : IsRadixNumber k w)
    (hr : k.endsBefore w r = true) : numeral (w ++ r) = .token k w.length := by
  obtain ⟨letter, isDigit, ds, rfl, hradix, hne, hds⟩ := h
  obtain ⟨hhex, hends⟩ := radixOf_cases hradix
  rw [hends] at hr
  have hrun : runLength isDigit (ds ++ r) = ds.length := by
    refine runLength_eq hds ?_
    cases r with
    | nil => rfl
    | cons c r =>
      have hc : isDigit c = false := by
        refine Bool.eq_false_iff.2 (fun hc => ?_)
        have := isSeparator_of_isHexDigit (hhex c hc)
        simp_all
      simp [hc]
  rw [List.cons_append, List.cons_append, numeral_radix hradix, radixDigits]
  simp only [hrun, List.drop_left]
  rw [if_neg (by simpa using hne), if_pos hr, List.length_cons, List.length_cons, Nat.add_comm]

/-! ### Decimal numbers -/

theorem runsIntoNumber_of_isDecimalDigit {c : Char} (h : isDecimalDigit c = true) :
    runsIntoNumber c = true := by
  simp [runsIntoNumber, isNamePart_of_isHexDigit (isHexDigit_of_isDecimalDigit h)]

/-- What ends a number is no digit. -/
theorem head_not_digit {r : List Char} (h : r.head?.all (!runsIntoNumber ·) = true) :
    r.head?.all (!isDecimalDigit ·) = true := by
  cases r with
  | nil => rfl
  | cons c r =>
    have hc : isDecimalDigit c = false := by
      refine Bool.eq_false_iff.2 (fun hc => ?_)
      simp [runsIntoNumber_of_isDecimalDigit hc] at h
    simp [hc]

theorem fraction_sound {n : Nat} {cs : List Char} (h : fraction cs = .ok n) :
    ∃ w r, cs = w ++ r ∧ n = w.length ∧ IsFraction w ∧ (w = [] → r.head? ≠ some '.') := by
  unfold fraction at h
  split at h
  · next cs =>
    obtain ⟨ds, r, rfl, hlength, hds, -⟩ := exists_runLength isDecimalDigit cs
    simp only [hlength] at h
    split at h
    · simp at h
    · next hne =>
      obtain rfl := Except.ok.inj h
      exact ⟨'.' :: ds, r, rfl, Nat.add_comm .., .inr ⟨ds, rfl, by simpa using hne, hds⟩, by simp⟩
  · next hpoint =>
    obtain rfl := Except.ok.inj h
    refine ⟨[], cs, rfl, rfl, .inl rfl, fun _ hhead => ?_⟩
    obtain ⟨r, rfl⟩ := List.head?_eq_some_iff.1 hhead
    exact hpoint r rfl

theorem fraction_complete {w r : List Char} (h : IsFraction w)
    (hpoint : w = [] → r.head? ≠ some '.') (hr : r.head?.all (!isDecimalDigit ·) = true) :
    fraction (w ++ r) = .ok w.length := by
  rcases h with rfl | ⟨ds, rfl, hne, hds⟩
  · cases r with
    | nil => rfl
    | cons c r =>
      have hc : c ≠ '.' := by simpa using hpoint rfl
      simp [fraction, hc]
  · simp [fraction, runLength_eq hds hr, hne, Nat.add_comm]

theorem exponent_sound {n : Nat} {cs : List Char} (h : exponent cs = .ok n) :
    ∃ w r, cs = w ++ r ∧ n = w.length ∧ IsExponent w := by
  cases cs with
  | nil =>
    obtain rfl := Except.ok.inj h
    exact ⟨[], [], rfl, rfl, .inl rfl⟩
  | cons e cs =>
    rw [exponent] at h
    split at h
    · next he =>
      obtain ⟨sign, cs, rfl, hsign, hlength⟩ : ∃ sign r, cs = sign ++ r ∧
          sign ∈ [[], ['+'], ['-']] ∧ signLength cs = sign.length := by
        unfold signLength
        split
        · next r => exact ⟨['+'], r, rfl, by simp, rfl⟩
        · next r => exact ⟨['-'], r, rfl, by simp, rfl⟩
        · exact ⟨[], cs, rfl, by simp, rfl⟩
      obtain ⟨ds, r, rfl, hrun, hds, -⟩ := exists_runLength isDecimalDigit cs
      simp only [hlength, List.drop_left, hrun] at h
      split at h
      · simp at h
      · next hne =>
        obtain rfl := Except.ok.inj h
        refine ⟨e :: (sign ++ ds), r, by simp, ?_,
          .inr ⟨e, sign, ds, rfl, he, hsign, by simpa using hne, hds⟩⟩
        rw [List.length_cons, List.length_append]
        omega
    · obtain rfl := Except.ok.inj h
      exact ⟨[], e :: cs, rfl, rfl, .inl rfl⟩

theorem signLength_append {sign ds : List Char} (hsign : sign ∈ [[], ['+'], ['-']]) (hne : ds ≠ [])
    (hds : ∀ c ∈ ds, isDecimalDigit c = true) (r : List Char) :
    signLength (sign ++ (ds ++ r)) = sign.length := by
  simp only [List.mem_cons, List.not_mem_nil, or_false] at hsign
  rcases hsign with rfl | rfl | rfl
  · cases ds with
    | nil => exact absurd rfl hne
    | cons d ds =>
      have hd := hds d (by simp)
      have hplus : d ≠ '+' := by rintro rfl; exact absurd hd (by decide)
      have hminus : d ≠ '-' := by rintro rfl; exact absurd hd (by decide)
      simp [signLength, hplus, hminus]
  · rfl
  · rfl

theorem exponent_complete {w r : List Char} (h : IsExponent w)
    (hr : r.head?.all (!runsIntoNumber ·) = true) : exponent (w ++ r) = .ok w.length := by
  rcases h with rfl | ⟨e, sign, ds, rfl, he, hsign, hne, hds⟩
  · cases r with
    | nil => rfl
    | cons c r =>
      have hc : ¬ (c = 'e' ∨ c = 'E') := by
        have he : runsIntoNumber 'e' = true ∧ runsIntoNumber 'E' = true := by decide
        rintro (rfl | rfl) <;> simp [he] at hr
      simp [exponent, hc]
  · have hlength := signLength_append hsign hne hds r
    have hrun := runLength_eq hds (head_not_digit hr)
    simp only [List.cons_append, List.append_assoc, exponent, if_pos he, hlength, List.drop_left,
      hrun]
    rw [if_neg (by simpa using hne), List.length_cons, List.length_append]
    congr 1
    omega

/-- Where a decimal number ends. -/
theorem endsBefore_decimal {places scale w r : List Char} :
    (if places = [] ∧ scale = [] then TokenKind.int else .float).endsBefore w r = true ↔
      r.head?.all (!runsIntoNumber ·) = true ∧
        (places = [] → scale = [] → r.head? ≠ some '.') := by
  cases r with
  | nil => simp
  | cons c r => split <;> simp_all [TokenKind.endsBefore, and_comm]

/-- The three parts in a row, read one by one. -/
theorem decimal_eq {whole places scale r : List Char}
    (hwhole : runLength isDecimalDigit (whole ++ (places ++ (scale ++ r))) = whole.length)
    (hplaces : fraction (places ++ (scale ++ r)) = .ok places.length)
    (hscale : exponent (scale ++ r) = .ok scale.length) :
    decimal (whole ++ (places ++ (scale ++ r))) =
      if r.head?.any runsIntoNumber then .malformed (whole ++ (places ++ scale)).length
      else .token (if places = [] ∧ scale = [] then .int else .float)
        (whole ++ (places ++ scale)).length := by
  have hlead : (whole ++ (places ++ (scale ++ r))).drop (whole.length + places.length) =
      scale ++ r := by
    rw [← List.append_assoc, List.drop_left' (by simp)]
  have hall : (whole ++ (places ++ (scale ++ r))).drop
      (whole.length + places.length + scale.length) = r := by
    rw [← List.drop_drop, hlead, List.drop_left]
  have hlength : (whole ++ (places ++ scale)).length =
      whole.length + places.length + scale.length := by simp [Nat.add_assoc]
  simp only [decimal, decimalLength, hwhole, List.drop_left, hplaces, hlead, hscale, hall, hlength,
    Nat.add_eq_zero_iff, List.length_eq_zero_iff]

theorem numeralAhead_point (cs : List Char) :
    numeralAhead ('.' :: cs) = cs.head?.any isDecimalDigit := by
  cases cs <;> rfl

theorem numeralAhead_head {cs : List Char} (h : numeralAhead cs = true) :
    ∃ c r, cs = c :: r ∧ (c = '.' ∨ isDecimalDigit c = true) := by
  unfold numeralAhead at h
  split at h
  · next c r => exact ⟨'.', c :: r, rfl, .inl rfl⟩
  · next c r _ => exact ⟨c, r, rfl, .inr h⟩
  · simp at h

theorem decimal_sound {k : TokenKind} {n : Nat} {cs : List Char} (hahead : numeralAhead cs = true)
    (h : decimal cs = .token k n) :
    ∃ w r, cs = w ++ r ∧ n = w.length ∧ IsNumeral k w ∧ k.endsBefore w r = true := by
  obtain ⟨whole, cs, rfl, hrun, hwhole, hnodigit⟩ := exists_runLength isDecimalDigit cs
  cases hplaces : fraction cs with
  | error read => simp [decimal, decimalLength, hrun, hplaces] at h
  | ok m =>
    obtain ⟨places, cs, rfl, rfl, hfraction, hpoint⟩ := fraction_sound hplaces
    cases hscale : exponent cs with
    | error read =>
      have hlead : (whole ++ (places ++ cs)).drop (whole.length + places.length) = cs := by
        rw [← List.append_assoc, List.drop_left' (by simp)]
      simp [decimal, decimalLength, hrun, hplaces, hlead, hscale] at h
    | ok m =>
      obtain ⟨scale, r, rfl, rfl, hexponent⟩ := exponent_sound hscale
      rw [decimal_eq hrun hplaces hscale] at h
      split at h
      · simp at h
      · next hends =>
        obtain ⟨rfl, rfl⟩ := Reading.token.inj h
        refine ⟨whole ++ (places ++ scale), r, by simp, rfl, .inr ⟨whole, places, scale, rfl,
          hwhole, hfraction, hexponent, ?_, rfl⟩, endsBefore_decimal.2 ⟨?_, ?_⟩⟩
        · cases whole with
          | cons c whole => exact .inl (by simp)
          | nil =>
            -- without a digit ahead there is a point
            refine .inr (fun hnil => ?_)
            subst hnil
            obtain ⟨c, r', hcs, rfl | hc⟩ := numeralAhead_head hahead
            · exact hpoint rfl (by simpa using congrArg List.head? hcs)
            · rw [← List.nil_append ([] ++ _), hcs] at hnodigit
              simp [hc] at hnodigit
        · cases r <;> simp_all
        · rintro rfl rfl
          exact hpoint rfl

theorem IsExponent.head {w r : List Char} (h : IsExponent w)
    (hr : r.head?.all (!isDecimalDigit ·) = true) :
    (w ++ r).head?.all (!isDecimalDigit ·) = true := by
  rcases h with rfl | ⟨e, sign, ds, rfl, rfl | rfl, -⟩
  · exact hr
  · rfl
  · rfl

theorem IsFraction.head {w r : List Char} (h : IsFraction w)
    (hr : r.head?.all (!isDecimalDigit ·) = true) :
    (w ++ r).head?.all (!isDecimalDigit ·) = true := by
  rcases h with rfl | ⟨ds, rfl, -⟩
  · exact hr
  · rfl

theorem IsDecimal.ends {k : TokenKind} {w r : List Char} (h : IsDecimal k w)
    (hr : k.endsBefore w r = true) : r.head?.all (!runsIntoNumber ·) = true := by
  obtain ⟨whole, places, scale, -, -, -, -, -, rfl⟩ := h
  exact (endsBefore_decimal.1 hr).1

theorem decimal_complete {k : TokenKind} {w r : List Char} (h : IsDecimal k w)
    (hr : k.endsBefore w r = true) : decimal (w ++ r) = .token k w.length := by
  obtain ⟨whole, places, scale, rfl, hwhole, hfraction, hexponent, -, rfl⟩ := h
  obtain ⟨hends, hpoint⟩ := endsBefore_decimal.1 hr
  have hdigit := hexponent.head (head_not_digit hends)
  have hplaces : fraction (places ++ (scale ++ r)) = .ok places.length := by
    refine fraction_complete hfraction (fun hnil => ?_) hdigit
    rcases hexponent with rfl | ⟨e, sign, ds, rfl, rfl | rfl, -⟩
    · exact hpoint hnil rfl
    · simp
    · simp
  have hrun := runLength_eq hwhole (hfraction.head hdigit)
  have hnot : r.head?.any runsIntoNumber = false := by cases r <;> simp_all
  rw [List.append_assoc, List.append_assoc,
    decimal_eq hrun hplaces (exponent_complete hexponent hends), hnot]
  rfl

/-! ### Numbers of both sorts -/

theorem numeral_sound {k : TokenKind} {n : Nat} {cs : List Char} (hahead : numeralAhead cs = true)
    (h : numeral cs = .token k n) :
    ∃ w r, cs = w ++ r ∧ n = w.length ∧ IsNumeral k w ∧ k.endsBefore w r = true := by
  rcases radix_or_decimal cs with ⟨letter, r, k', isDigit, rfl, hletter⟩ | hnone
  · rw [numeral_radix hletter] at h
    exact radixDigits_sound hletter h
  · rw [numeral_decimal hnone] at h
    exact decimal_sound hahead h

/-- What decimal numbers are made of. -/
def isDecimalPart (c : Char) : Bool :=
  isDecimalDigit c || ['.', 'e', 'E', '+', '-'].contains c

theorem IsDecimal.parts {k : TokenKind} {w : List Char} (h : IsDecimal k w) :
    ∀ c ∈ w, isDecimalPart c = true := by
  have hdigit : ∀ c, isDecimalDigit c = true → isDecimalPart c = true := by
    simp +contextual [isDecimalPart]
  obtain ⟨whole, places, scale, rfl, hwhole, hfraction, hexponent, -, -⟩ := h
  intro c hc
  rw [List.mem_append, List.mem_append] at hc
  rcases hc with hc | hc | hc
  · exact hdigit c (hwhole c hc)
  · rcases hfraction with rfl | ⟨ds, rfl, -, hds⟩
    · simp at hc
    · rcases List.mem_cons.1 hc with rfl | hc
      · rfl
      · exact hdigit c (hds c hc)
  · rcases hexponent with rfl | ⟨e, sign, ds, rfl, he, hsign, -, hds⟩
    · simp at hc
    · rcases List.mem_cons.1 hc with rfl | hc
      · rcases he with rfl | rfl <;> rfl
      · rcases List.mem_append.1 hc with hc | hc
        · simp only [List.mem_cons, List.not_mem_nil, or_false] at hsign
          rcases hsign with rfl | rfl | rfl <;> simp_all [isDecimalPart]
        · exact hdigit c (hds c hc)

/-- A letter for the base belongs to no decimal number and does not end one. -/
theorem radixOf_eq_none {letter : Char}
    (h : isDecimalPart letter = true ∨ runsIntoNumber letter = false) : radixOf letter = none := by
  unfold radixOf
  split <;> first | rfl | rcases h with h | h <;> exact absurd h (by decide)

theorem numeral_complete {k : TokenKind} {w r : List Char} (h : IsNumeral k w)
    (hr : k.endsBefore w r = true) :
    numeralAhead (w ++ r) = true ∧ numeral (w ++ r) = .token k w.length := by
  have hzero : ∀ c, isDecimalDigit c = true → ∀ cs, numeralAhead (c :: cs) = true := by
    intro c hc cs
    have hpoint : c ≠ '.' := by rintro rfl; exact absurd hc (by decide)
    simp [numeralAhead, hpoint, hc]
  rcases h with hradix | hdecimal
  · refine ⟨?_, radixNumber_complete hradix hr⟩
    obtain ⟨letter, isDigit, ds, rfl, -⟩ := hradix
    exact hzero '0' (by decide) _
  · refine ⟨?_, ?_⟩
    · obtain ⟨whole, places, scale, rfl, hwhole, hfraction, -, hne, -⟩ := hdecimal
      cases whole with
      | cons c whole => exact hzero c (hwhole c (by simp)) _
      | nil =>
        rcases hfraction with rfl | ⟨ds, rfl, hds, hdigits⟩
        · simp at hne
        · obtain ⟨d, ds, rfl⟩ := List.exists_cons_of_ne_nil hds
          exact hdigits d (by simp)
    · rw [numeral_decimal, decimal_complete hdecimal hr]
      intro letter r' hcs
      have hends := hdecimal.ends hr
      rcases w with _ | ⟨c, _ | ⟨d, w⟩⟩
      · obtain rfl : r = '0' :: letter :: r' := hcs
        simp [runsIntoNumber_of_isDecimalDigit (c := '0') (by decide)] at hends
      · obtain ⟨-, rfl⟩ := List.cons.inj hcs
        exact radixOf_eq_none (.inr (by simpa using hends))
      · obtain ⟨-, hcs⟩ := List.cons.inj hcs
        obtain ⟨rfl, -⟩ := List.cons.inj hcs
        exact radixOf_eq_none (.inl (hdecimal.parts d (by simp)))

end JsLexer.Lexeme
