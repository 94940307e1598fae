import JsLexer.Proofs.NormalizedNumeral

/-!
Texts with their quotes exchanged, and what is read of them.

A quote of either sort becomes one of the other. Only strings look at quotes, and what they ask is
whether a quote is the one that opened them, so every reader reads as much of the exchanged text as
of the text. Behind a backslash the two quotes belong to different classes, one to the escapes for a
single character and the other to what stands for itself, but both are taken.
-/

namespace JsLexer

/-- The other quote for a quote, and every other code point for itself. -/
def otherQuote : Char → Char
  | '"' => '\''
  | '\'' => '"'
  | c => c

/-- A text with its quotes exchanged. -/
def exchangeQuotes (cs : List Char) : List Char := cs.map otherQuote

/-! ### Code points -/

theorem otherQuote_of_ne {c : Char} (h : c ≠ '"') (h' : c ≠ '\'') : otherQuote c = c :=
  otherQuote.eq_3 c h h'

/-- What does not tell the two quotes apart does not see the exchange. -/
theorem apply_otherQuote {α : Type} {f : Char → α} (h : f '"' = f '\'') (c : Char) :
    f (otherQuote c) = f c := by
  by_cases hc : c = '"'
  · rw [hc]
    exact h.symm
  by_cases hc' : c = '\''
  · rw [hc']
    exact h
  rw [otherQuote_of_ne hc hc']

theorem otherQuote_otherQuote (c : Char) : otherQuote (otherQuote c) = c := by
  by_cases h : c = '"'
  · rw [h]
    rfl
  by_cases h' : c = '\''
  · rw [h']
    rfl
  rw [otherQuote_of_ne h h', otherQuote_of_ne h h']

theorem otherQuote_inj {c d : Char} : otherQuote c = otherQuote d ↔ c = d :=
  ⟨fun h => by rw [← otherQuote_otherQuote c, h, otherQuote_otherQuote], congrArg _⟩

theorem otherQuote_eq_iff {c d : Char} (hd : d ≠ '"') (hd' : d ≠ '\'') :
    otherQuote c = d ↔ c = d := by
  rw [← otherQuote_of_ne hd hd', otherQuote_inj, otherQuote_of_ne hd hd']

theorem isNameStart_quote : isNameStart '"' = isNameStart '\'' := by decide +kernel

theorem isNamePart_quote : isNamePart '"' = isNamePart '\'' := by decide +kernel

/-! ### Texts -/

theorem exchangeQuotes_cons (c : Char) (cs : List Char) :
    exchangeQuotes (c :: cs) = otherQuote c :: exchangeQuotes cs := rfl

theorem exchangeQuotes_append (cs ds : List Char) :
    exchangeQuotes (cs ++ ds) = exchangeQuotes cs ++ exchangeQuotes ds := List.map_append

theorem length_exchangeQuotes (cs : List Char) : (exchangeQuotes cs).length = cs.length :=
  List.length_map _

theorem take_exchangeQuotes (cs : List Char) (n : Nat) :
    (exchangeQuotes cs).take n = exchangeQuotes (cs.take n) := List.map_take.symm

theorem drop_exchangeQuotes (cs : List Char) (n : Nat) :
    (exchangeQuotes cs).drop n = exchangeQuotes (cs.drop n) := List.map_drop.symm

/-- What makes the same of all texts that start with quotes can be followed code point by code
point. -/
theorem apply_exchangeQuotes {α : Type} {f : List Char → α}
    (hquotes : ∀ r r', f ('"' :: r) = f ('\'' :: r'))
    (hother : ∀ c r, c ≠ '"' → c ≠ '\'' → f (c :: exchangeQuotes r) = f (c :: r))
    (cs : List Char) : f (exchangeQuotes cs) = f cs := by
  cases cs with
  | nil => rfl
  | cons c r =>
    rw [exchangeQuotes_cons]
    by_cases hc : c = '"'
    · rw [hc]
      exact (hquotes _ _).symm
    by_cases hc' : c = '\''
    · rw [hc']
      exact hquotes _ _
    rw [otherQuote_of_ne hc hc', hother c r hc hc']

theorem head?_exchangeQuotes_eq_some {c : Char} (hc : c ≠ '"') (hc' : c ≠ '\'')
    {cs : List Char} : (exchangeQuotes cs).head? = some c ↔ cs.head? = some c := by
  cases cs with
  | nil => rfl
  | cons d cs =>
    rw [exchangeQuotes_cons, List.head?_cons, List.head?_cons, Option.some.injEq,
      Option.some.injEq, otherQuote_eq_iff hc hc']

section
variable {p : Char → Bool}

theorem any_head?_exchangeQuotes (h : p '"' = p '\'') (cs : List Char) :
    (exchangeQuotes cs).head?.any p = cs.head?.any p := by
  cases cs with
  | nil => rfl
  | cons c cs => exact apply_otherQuote h c

theorem all_head?_exchangeQuotes (h : p '"' = p '\'') (cs : List Char) :
    (exchangeQuotes cs).head?.all p = cs.head?.all p := by
  cases cs with
  | nil => rfl
  | cons c cs => exact apply_otherQuote h c

theorem any_getElem?_exchangeQuotes (h : p '"' = p '\'') (cs : List Char) (n : Nat) :
    (exchangeQuotes cs)[n]?.any p = cs[n]?.any p := by
  rw [exchangeQuotes, List.getElem?_map]
  cases cs[n]? with
  | none => rfl
  | some c => exact apply_otherQuote h c

theorem runLength_exchangeQuotes (h : p '"' = p '\'') (cs : List Char) :
    runLength p (exchangeQuotes cs) = runLength p cs := by
  have hsame : p ∘ otherQuote = p := funext (apply_otherQuote h)
  rw [runLength, exchangeQuotes, List.takeWhile_map, hsame, List.length_map, runLength]

end

theorem isPrefixOf_exchangeQuotes {w : List Char} (h : '"' ∉ w) (h' : '\'' ∉ w)
    (cs : List Char) : w.isPrefixOf (exchangeQuotes cs) = w.isPrefixOf cs := by
  induction w generalizing cs with
  | nil => simp
  | cons d w ih =>
    rw [List.mem_cons, not_or] at h h'
    cases cs with
    | nil => rfl
    | cons c cs =>
      have hsame : (d == otherQuote c) = (d == c) := by
        rw [Bool.eq_iff_iff, beq_iff_eq, beq_iff_eq, eq_comm,
          otherQuote_eq_iff (Ne.symm h.1) (Ne.symm h'.1), eq_comm]
      rw [exchangeQuotes_cons, List.isPrefixOf_cons_cons, List.isPrefixOf_cons_cons, hsame,
        ih h.2 h'.2]

/-- A quote counts as any other code point does. -/
theorem Position.after_exchangeQuotes (p : Position) (cs : List Char) :
    p.after (exchangeQuotes cs) = p.after cs := by
  have hstep : ∀ (k : Caret) c, k.step (otherQuote c) = k.step c := fun k c =>
    apply_otherQuote (f := k.step) rfl c
  rw [Position.after, Position.after, Caret.across, exchangeQuotes, List.foldl_map]
  simp only [hstep, Caret.across]

namespace Lexeme

/-! ### Escapes and strings -/

theorem isHexDigit_otherQuote (c : Char) : isHexDigit (otherQuote c) = isHexDigit c :=
  apply_otherQuote (by decide) c

theorem hexDigits_exchangeQuotes (count : Nat) (cs : List Char) :
    hexDigits count (exchangeQuotes cs) = hexDigits count cs := by
  induction cs generalizing count with
  | nil => rfl
  | cons c cs ih =>
    cases count with
    | zero => rfl
    | succ count =>
      rw [exchangeQuotes_cons, hexDigits, hexDigits, isHexDigit_otherQuote, ih]

theorem bracedDigits_exchangeQuotes (value : Nat) (count : Int32) (cs : List Char) :
    bracedDigits value count (exchangeQuotes cs) = bracedDigits value count cs := by
  induction cs generalizing value count with
  | nil => rfl
  | cons c cs ih =>
    have hdigit : hexValue? (otherQuote c) = hexValue? c := apply_otherQuote (by decide) c
    simp only [exchangeQuotes_cons, bracedDigits, hdigit, ih,
      otherQuote_eq_iff (d := '\x7d') (by decide) (by decide)]

theorem unicodeEscape_exchangeQuotes (cs : List Char) :
    unicodeEscape (exchangeQuotes cs) = unicodeEscape cs := by
  cases cs with
  | nil => rfl
  | cons c cs =>
    simp only [exchangeQuotes_cons, unicodeEscape, braced, isHexDigit_otherQuote,
      hexDigits_exchangeQuotes, bracedDigits_exchangeQuotes,
      otherQuote_eq_iff (d := '\x7b') (by decide) (by decide)]

/-- Either quote may stand behind a backslash, each as a member of a class of its own. -/
theorem stringEscape_exchangeQuotes (cs : List Char) :
    stringEscape (exchangeQuotes cs) = stringEscape cs := by
  refine apply_exchangeQuotes (fun _ _ => rfl) (fun c r _ _ => ?_) cs
  by_cases hx : c = 'x'
  · rw [hx, stringEscape, stringEscape, hexDigits_exchangeQuotes]
  by_cases hu : c = 'u'
  · rw [hu, stringEscape, stringEscape, unicodeEscape_exchangeQuotes]
  by_cases hzero : c = '0'
  · subst hzero
    cases r with
    | nil => rfl
    | cons d r =>
      have hdigit : isDecimalDigit (otherQuote d) = isDecimalDigit d :=
        apply_otherQuote (by decide) d
      rw [exchangeQuotes_cons, stringEscape, stringEscape, hdigit]
  by_cases hreturn : c = '\r'
  · subst hreturn
    refine apply_exchangeQuotes (f := fun r => stringEscape ('\r' :: r)) (fun _ _ => rfl)
      (fun d r _ _ => ?_) r
    by_cases hfeed : d = '\n' <;> simp [stringEscape, hfeed]
  · simp [stringEscape, hzero, hreturn]

theorem stringRest_exchangeQuotes (quote : Char) (claimed : Nat) (cs : List Char) :
    stringRest (otherQuote quote) claimed (exchangeQuotes cs) = stringRest quote claimed cs := by
  induction cs generalizing claimed with
  | nil => cases claimed <;> rfl
  | cons c cs ih =>
    cases claimed with
    | succ claimed => rw [exchangeQuotes_cons, stringRest, stringRest, ih]
    | zero =>
      simp only [exchangeQuotes_cons, stringRest, otherQuote_inj, stringEscape_exchangeQuotes, ih,
        otherQuote_eq_iff (d := '\\') (by decide) (by decide)]

theorem string_exchangeQuotes (cs : List Char) : string (exchangeQuotes cs) = string cs := by
  cases cs with
  | nil => rfl
  | cons quote cs => rw [exchangeQuotes_cons, string, string, stringRest_exchangeQuotes]

/-! ### Blanks and comments -/

theorem whitespace_exchangeQuotes (cs : List Char) :
    whitespace (exchangeQuotes cs) = whitespace cs := by
  have hwhite : isWhitespace '"' = false ∧ isWhitespace '\'' = false := by decide
  refine apply_exchangeQuotes (fun r r' => ?_) (fun c r _ _ => rfl) cs
  rw [whitespace, whitespace, hwhite.1, hwhite.2]
  rfl

theorem lineTerminator_exchangeQuotes (cs : List Char) :
    lineTerminator (exchangeQuotes cs) = lineTerminator cs := by
  refine apply_exchangeQuotes (fun _ _ => rfl) (fun c r _ _ => ?_) cs
  by_cases hreturn : c = '\r'
  · subst hreturn
    refine apply_exchangeQuotes (f := fun r => lineTerminator ('\r' :: r)) (fun _ _ => rfl)
      (fun d r _ _ => ?_) r
    by_cases hfeed : d = '\n' <;> simp [lineTerminator, hfeed]
  · unfold lineTerminator
    split <;> simp_all

theorem singleLineComment_exchangeQuotes {cs : List Char} (h : singleLineCommentAhead cs = true) :
    singleLineComment (exchangeQuotes cs) = singleLineComment cs := by
  unfold singleLineCommentAhead at h
  split at h
  · next cs =>
    change singleLineComment ('/' :: '/' :: exchangeQuotes cs) = _
    rw [singleLineComment, singleLineComment, runLength_exchangeQuotes (by decide)]
  · simp at h

theorem commentBody_exchangeQuotes (cs : List Char) :
    commentBody (exchangeQuotes cs) = commentBody cs := by
  induction cs with
  | nil => rfl
  | cons c cs ih =>
    rw [exchangeQuotes_cons]
    by_cases hclose : c = '*' ∧ cs.head? = some '/'
    · obtain ⟨rfl, hhead⟩ := hclose
      obtain ⟨r, rfl⟩ := List.head?_eq_some_iff.1 hhead
      rfl
    · have hclose' : ¬ (otherQuote c = '*' ∧ (exchangeQuotes cs).head? = some '/') := by
        rwa [otherQuote_eq_iff (by decide) (by decide),
          head?_exchangeQuotes_eq_some (by decide) (by decide)]
      rw [commentBody_step hclose, commentBody_step hclose', ih]

theorem multiLineComment_exchangeQuotes {cs : List Char} (h : multiLineCommentAhead cs = true) :
    multiLineComment (exchangeQuotes cs) = multiLineComment cs := by
  unfold multiLineCommentAhead at h
  split at h
  · next cs =>
    change multiLineComment ('/' :: '*' :: exchangeQuotes cs) = _
    rw [multiLineComment, multiLineComment, commentBody_exchangeQuotes]
  · simp at h

/-! ### Words and names -/

theorem word_exchangeQuotes (k : TokenKind) {w : List Char} (h : '"' ∉ w) (h' : '\'' ∉ w)
    (cs : List Char) : word k w (exchangeQuotes cs) = word k w cs := by
  rw [word, word, isPrefixOf_exchangeQuotes h h', length_exchangeQuotes]

theorem escapeAhead_exchangeQuotes (cs : List Char) :
    escapeAhead (exchangeQuotes cs) = escapeAhead cs := by
  cases cs with
  | nil => rfl
  | cons c cs =>
    rw [exchangeQuotes_cons, Bool.eq_iff_iff, escapeAhead_cons, escapeAhead_cons,
      otherQuote_eq_iff (by decide) (by decide),
      head?_exchangeQuotes_eq_some (by decide) (by decide)]

theorem nameUnit_exchangeQuotes {unescaped : Char → Bool} (h : unescaped '"' = unescaped '\'')
    (cs : List Char) : nameUnit unescaped (exchangeQuotes cs) = nameUnit unescaped cs := by
  refine apply_exchangeQuotes (fun r r' => by simp [nameUnit, h]) (fun c r _ _ => ?_) cs
  by_cases hbackslash : c = '\\'
  · subst hbackslash
    by_cases hu : r.head? = some 'u'
    · obtain ⟨r, rfl⟩ := List.head?_eq_some_iff.1 hu
      change nameUnit unescaped ('\\' :: 'u' :: exchangeQuotes r) = _
      rw [nameUnit, nameUnit, unicodeEscape_exchangeQuotes]
    · have hu' : (exchangeQuotes r).head? ≠ some 'u' := by
        rwa [Ne, head?_exchangeQuotes_eq_some (by decide) (by decide)]
      rw [nameUnit_of_ne_u _ hu, nameUnit_of_ne_u _ hu']
  · simp [nameUnit, hbackslash]

theorem nameRest_exchangeQuotes (claimed : Nat) (cs : List Char) :
    nameRest claimed (exchangeQuotes cs) = nameRest claimed cs := by
  induction cs generalizing claimed with
  | nil => cases claimed <;> rfl
  | cons c cs ih =>
    cases claimed with
    | succ claimed => rw [exchangeQuotes_cons, nameRest, nameRest, ih]
    | zero =>
      have hahead := escapeAhead_exchangeQuotes (c :: cs)
      have hunit := nameUnit_exchangeQuotes isNamePart_quote (c :: cs)
      have hpart := apply_otherQuote isNamePart_quote c
      rw [exchangeQuotes_cons] at hahead hunit ⊢
      simp only [nameRest, hahead, hunit, hpart, ih]

theorem name_exchangeQuotes (cs : List Char) : name (exchangeQuotes cs) = name cs := by
  simp only [name, nameUnit_exchangeQuotes isNameStart_quote, nameRest_exchangeQuotes]

/-! ### Numbers -/

theorem fraction_exchangeQuotes (cs : List Char) : fraction (exchangeQuotes cs) = fraction cs := by
  refine apply_exchangeQuotes (fun _ _ => rfl) (fun c r _ _ => ?_) cs
  by_cases hpoint : c = '.'
  · rw [hpoint, fraction, fraction, runLength_exchangeQuotes (by decide)]
  · simp [fraction, hpoint]

theorem signLength_exchangeQuotes (cs : List Char) :
    signLength (exchangeQuotes cs) = signLength cs := by
  refine apply_exchangeQuotes (fun _ _ => rfl) (fun c r _ _ => ?_) cs
  unfold signLength
  split <;> simp_all

theorem exponent_exchangeQuotes (cs : List Char) : exponent (exchangeQuotes cs) = exponent cs := by
  cases cs with
  | nil => rfl
  | cons c cs =>
    simp only [exchangeQuotes_cons, exponent, signLength_exchangeQuotes, drop_exchangeQuotes,
      runLength_exchangeQuotes (p := isDecimalDigit) (by decide),
      otherQuote_eq_iff (d := 'e') (by decide) (by decide),
      otherQuote_eq_iff (d := 'E') (by decide) (by decide)]

theorem decimal_exchangeQuotes (cs : List Char) : decimal (exchangeQuotes cs) = decimal cs := by
  have hruns : runsIntoNumber '"' = runsIntoNumber '\'' := by decide +kernel
  simp only [decimal, decimalLength, runLength_exchangeQuotes (p := isDecimalDigit) (by decide),
    drop_exchangeQuotes, fraction_exchangeQuotes, exponent_exchangeQuotes,
    any_head?_exchangeQuotes hruns]

theorem radixDigits_exchangeQuotes (k : TokenKind) {isDigit : Char → Bool}
    (h : isDigit '"' = isDigit '\'') (cs : List Char) :
    radixDigits k isDigit (exchangeQuotes cs) = radixDigits k isDigit cs := by
  have hseparator : isSeparator '"' = isSeparator '\'' := by decide
  simp only [radixDigits, runLength_exchangeQuotes h, drop_exchangeQuotes,
    all_head?_exchangeQuotes hseparator]

theorem numeral_exchangeQuotes (cs : List Char) : numeral (exchangeQuotes cs) = numeral cs := by
  have hradix : ∀ c, radixOf (otherQuote c) = radixOf c := apply_otherQuote rfl
  rcases radix_or_decimal cs with ⟨letter, r, k, isDigit, rfl, hletter⟩ | hnone
  · have hdigit : isDigit '"' = isDigit '\'' := by
      have hhex := (radixOf_cases hletter).1
      rw [Bool.eq_false_iff.2 fun hc => absurd (hhex _ hc) (by decide),
        Bool.eq_false_iff.2 fun hc => absurd (hhex _ hc) (by decide)]
    change numeral ('0' :: otherQuote letter :: exchangeQuotes r) = _
    rw [numeral_radix ((hradix letter).trans hletter), numeral_radix hletter,
      radixDigits_exchangeQuotes k hdigit]
  · have hnone' : ∀ letter r, exchangeQuotes cs = '0' :: letter :: r → radixOf letter = none := by
      intro letter r hcs
      obtain ⟨c, cs, rfl, hc, hr⟩ := List.map_eq_cons_iff.1 hcs
      obtain ⟨d, cs, rfl, rfl, -⟩ := List.map_eq_cons_iff.1 hr
      rw [otherQuote_eq_iff (by decide) (by decide)] at hc
      subst hc
      exact (hradix d).trans (hnone d cs rfl)
    rw [numeral_decimal hnone, numeral_decimal hnone', decimal_exchangeQuotes]

/-! ### Punctuators -/

/-- A token ends before the exchanged text as before the text. -/
theorem endsBefore_exchangeQuotes (k : TokenKind) (w r : List Char) :
    k.endsBefore w (exchangeQuotes r) = k.endsBefore w r := by
  refine apply_exchangeQuotes (f := k.endsBefore w) (fun r r' => ?_) (fun c r _ _ => ?_) r
  · cases k with
    | identifierName => exact congrArg (! ·) isNamePart_quote
    | _ => rfl
  · cases k with
    | identifierName =>
      have hahead : escapeAhead (c :: exchangeQuotes r) = escapeAhead (c :: r) := by
        rw [Bool.eq_iff_iff, escapeAhead_cons, escapeAhead_cons,
          head?_exchangeQuotes_eq_some (by decide) (by decide)]
      simp only [TokenKind.endsBefore, hahead]
    | questionMark =>
      simp only [TokenKind.endsBefore, any_head?_exchangeQuotes (p := isDecimalDigit) (by decide)]
    | _ => rfl

theorem punctuator_exchangeQuotes {cs : List Char} (h : punctuatorAhead cs = true) :
    punctuator (exchangeQuotes cs) = punctuator cs := by
  have hne : cs ≠ [] := by
    rintro rfl
    simp [punctuatorAhead] at h
  have hdecides := punctuator_decides hne
  cases hread : punctuator cs with
  | token k n =>
    obtain ⟨r, rfl, rfl, hspelling, hr⟩ := punctuator_sound hread
    have hsame : exchangeQuotes k.spelling = k.spelling := by cases k <;> rfl
    rw [exchangeQuotes_append, hsame]
    exact punctuator_complete hspelling (by rwa [endsBefore_exchangeQuotes])
  | malformed n =>
    obtain ⟨r, rfl, rfl, hr⟩ := punctuator_malformed h hread
    refine punctuator_points (r := exchangeQuotes r) ?_
    rwa [Ne, head?_exchangeQuotes_eq_some (by decide) (by decide)]
  | openString n | openComment n => exact (hread ▸ hdecides).elim

end Lexeme

end JsLexer
