import JsLexer.Proofs.LineBreak
import JsLexer.Proofs.Normalize
import JsLexer.Proofs.Refusal

/-!
Readings of normalized texts.

Every reader makes of a normal form what it makes of the text itself: the same outcome, its length
counted in the normal form, and a line feed for the kind of a carriage return. Most readers stop at
either half of a line break, so they never pass one. The others are strings and comments over
several lines, which take both halves for code points like any other, the escape that takes a line
break as a whole, and the reader of line breaks itself.
-/

namespace JsLexer

/-- The kind of a line feed instead of that of a carriage return. -/
def TokenKind.normal : TokenKind → TokenKind
  | .carriageReturn => .lineFeed
  | k => k

/-- What a reading of a text becomes in its normal form. -/
def Reading.along (cs : List Char) : Reading → Reading
  | .token k n => .token k.normal (normalizedLength cs n)
  | .malformed n => .malformed (normalizedLength cs n)
  | .openString n => .openString (normalizedLength cs n)
  | .openComment n => .openComment (normalizedLength cs n)

/-! ### Lengths -/

theorem normalizedLength_one (c : Char) (cs : List Char) : normalizedLength (c :: cs) 1 = 1 := by
  by_cases hc : c = '\r'
  · subst hc
    by_cases h : cs.head? = some '\n'
    · obtain ⟨r, rfl⟩ := List.head?_eq_some_iff.1 h
      rfl
    · rw [normalizedLength_return h, normalizedLength_zero]
  · rw [normalizedLength_cons hc, normalizedLength_zero]

namespace Reading

theorem along_after_cons {c : Char} (hc : c ≠ '\r') (cs : List Char) (r : Reading) :
    (r.after 1).along (c :: cs) = (r.along cs).after 1 := by
  cases r <;> simp [after, along, Nat.add_comm 1, normalizedLength_cons hc]

theorem along_after_return {cs : List Char} (h : cs.head? ≠ some '\n') (r : Reading) :
    (r.after 1).along ('\r' :: cs) = (r.along cs).after 1 := by
  cases r <;> simp [after, along, Nat.add_comm 1, normalizedLength_return h]

theorem along_after_pair (cs : List Char) (r : Reading) :
    ((r.after 1).after 1).along ('\r' :: '\n' :: cs) = (r.along cs).after 1 := by
  have hlength : ∀ n, normalizedLength ('\r' :: '\n' :: cs) (1 + (1 + n)) =
      1 + normalizedLength cs n := fun n => by
    rw [show 1 + (1 + n) = n + 2 by omega, Nat.add_comm 1]
    rfl
  cases r <;> simp [after, along, hlength]

/-- A reading that passes no carriage return stays. -/
theorem along_eq_self {cs : List Char} {r : Reading} (h : '\r' ∉ cs.take r.length)
    (hk : ∀ k n, r = .token k n → k ≠ .carriageReturn) : r.along cs = r := by
  have hlength := normalizedLength_of_notMem h
  cases r with
  | token k n =>
    have hkind : k.normal = k := by
      have := hk k n rfl
      cases k <;> first | rfl | contradiction
    rw [along, hkind]
    exact congrArg (Reading.token k) hlength
  | malformed n => exact congrArg Reading.malformed hlength
  | openString n => exact congrArg Reading.openString hlength
  | openComment n => exact congrArg Reading.openComment hlength

end Reading

namespace Lexeme

/-! ### Escapes -/

/-- What a reading of an escape becomes in the normal form of its text. -/
def EscapeReading.along (cs : List Char) : EscapeReading → EscapeReading
  | .complete n => .complete (normalizedLength cs n)
  | .malformed n => .malformed (normalizedLength cs n)
  | .cutShort n => .cutShort (normalizedLength cs n)

theorem EscapeReading.along_after {c : Char} (hc : c ≠ '\r') (cs : List Char) (e : EscapeReading) :
    (e.after 1).along (c :: cs) = (e.along cs).after 1 := by
  cases e <;> simp [after, along, Nat.add_comm 1, normalizedLength_cons hc]

theorem hexDigits_normalize (count : Nat) (cs : List Char) :
    hexDigits count (normalize cs) = (hexDigits count cs).along cs := by
  induction cs generalizing count with
  | nil => cases count <;> rfl
  | cons c cs ih =>
    cases count with
    | zero => simp [hexDigits, EscapeReading.along]
    | succ count =>
      by_cases hc : c = '\r'
      · subst hc
        obtain ⟨cs', hcs⟩ := exists_normalize_return cs
        have hdigit : isHexDigit '\r' = false ∧ isHexDigit '\n' = false := by decide
        simp [hcs, hexDigits, hdigit, EscapeReading.along, normalizedLength_one]
      · rw [normalize_cons hc, hexDigits, hexDigits]
        split
        · rw [ih, EscapeReading.along_after hc]
        · rw [EscapeReading.along, normalizedLength_one]

theorem bracedDigits_normalize (value : Nat) (count : Int32) (cs : List Char) :
    bracedDigits value count (normalize cs) = (bracedDigits value count cs).along cs := by
  induction cs generalizing value count with
  | nil => rfl
  | cons c cs ih =>
    by_cases hc : c = '\r'
    · subst hc
      obtain ⟨cs', hcs⟩ := exists_normalize_return cs
      have hdigit : hexValue? '\r' = none ∧ hexValue? '\n' = none := by decide
      simp [hcs, bracedDigits, hdigit, EscapeReading.along, normalizedLength_one]
    · rw [normalize_cons hc, bracedDigits, bracedDigits]
      split
      · split <;> rw [EscapeReading.along, normalizedLength_one]
      · split
        · rw [ih, EscapeReading.along_after hc]
        · rw [EscapeReading.along, normalizedLength_one]

theorem unicodeEscape_normalize (cs : List Char) :
    unicodeEscape (normalize cs) = (unicodeEscape cs).along cs := by
  rcases normalize_start cs with rfl | ⟨r, r', rfl, hcs⟩ | ⟨c, r, hc, rfl, hcs⟩
  · rfl
  · have hdigit : isHexDigit '\r' = false ∧ isHexDigit '\n' = false := by decide
    simp [hcs, unicodeEscape, hdigit, EscapeReading.along, normalizedLength_one]
  · rw [hcs, unicodeEscape, unicodeEscape]
    split
    · rw [braced, braced, bracedDigits_normalize, EscapeReading.along_after hc]
    · split
      · rw [hexDigits_normalize, EscapeReading.along_after hc]
      · rw [EscapeReading.along, normalizedLength_one]

/-- A line break behind a backslash is one escape in either form. -/
theorem stringEscape_return (cs : List Char) :
    stringEscape (normalize ('\r' :: cs)) = (stringEscape ('\r' :: cs)).along ('\r' :: cs) := by
  obtain ⟨cs', hcs⟩ := exists_normalize_return cs
  have hread : stringEscape ('\n' :: cs') = .complete 1 := rfl
  rw [hcs, hread]
  by_cases hfeed : cs.head? = some '\n'
  · obtain ⟨r, rfl⟩ := List.head?_eq_some_iff.1 hfeed
    simp [stringEscape, EscapeReading.along, normalizedLength]
  · have hread' : stringEscape ('\r' :: cs) = .complete 1 := by
      cases cs with
      | nil => rfl
      | cons c cs =>
        have hc : c ≠ '\n' := by simpa using hfeed
        simp [stringEscape, hc]
    rw [hread', EscapeReading.along, normalizedLength_one]

/-- Behind a zero, neither half of a line break is a digit. -/
theorem stringEscape_zero (cs : List Char) :
    stringEscape ('0' :: normalize cs) = (stringEscape ('0' :: cs)).along ('0' :: cs) := by
  have htwo : ∀ c r, normalizedLength ('0' :: c :: r) 2 = 2 := fun c r => by
    rw [normalizedLength_cons (by decide), normalizedLength_one]
  rcases normalize_start cs with rfl | ⟨r, r', rfl, hcs⟩ | ⟨c, r, -, rfl, hcs⟩
  · rfl
  · have hdigit : isDecimalDigit '\r' = false ∧ isDecimalDigit '\n' = false := by decide
    simp [hcs, stringEscape, hdigit, EscapeReading.along, htwo]
  · rw [hcs, stringEscape, stringEscape]
    split <;> rw [EscapeReading.along, htwo]

theorem stringEscape_normalize (cs : List Char) :
    stringEscape (normalize cs) = (stringEscape cs).along cs := by
  cases cs with
  | nil => rfl
  | cons c cs =>
    by_cases hc : c = '\r'
    · exact hc ▸ stringEscape_return cs
    rw [normalize_cons hc]
    by_cases hzero : c = '0'
    · exact hzero ▸ stringEscape_zero cs
    by_cases hx : c = 'x'
    · subst hx
      rw [stringEscape, stringEscape, hexDigits_normalize, EscapeReading.along_after hc]
    by_cases hu : c = 'u'
    · subst hu
      rw [stringEscape, stringEscape, unicodeEscape_normalize, EscapeReading.along_after hc]
    · have hread : ∀ r, stringEscape (c :: r) =
          if isSingleCharEscape c || isNonEscapeChar c then .complete 1 else .malformed 1 := by
        intro r
        simp [stringEscape, hc, hzero]
      rw [hread, hread]
      split <;> rw [EscapeReading.along, normalizedLength_one]

/-! ### Strings -/

/-- A code point that neither closes the string nor starts an escape is passed, in an escape or
not. -/
theorem stringRest_plain {quote c : Char} (hc : c ≠ quote) (hc' : c ≠ '\\') (claimed : Nat)
    (cs : List Char) :
    stringRest quote claimed (c :: cs) = (stringRest quote (claimed - 1) cs).after 1 := by
  cases claimed with
  | zero => rw [stringRest, if_neg hc, if_neg hc']
  | succ claimed => rfl

theorem stringRest_normalize {quote : Char} (hquote : quote = '"' ∨ quote = '\'') (claimed : Nat)
    (cs : List Char) : stringRest quote (normalizedLength cs claimed) (normalize cs) =
      (stringRest quote claimed cs).along cs := by
  have hreturn : '\r' ≠ quote := by rcases hquote with rfl | rfl <;> decide
  have hfeed : '\n' ≠ quote := by rcases hquote with rfl | rfl <;> decide
  -- both halves of a line break are code points like any other
  have hstep := stringRest_plain hreturn (by decide)
  have hstep' := stringRest_plain hfeed (by decide)
  induction cs using normalize_induction generalizing claimed with
  | nil => cases claimed <;> rfl
  | pair cs ih =>
    have hlength : normalizedLength ('\r' :: '\n' :: cs) claimed - 1 =
        normalizedLength cs (claimed - 1 - 1) := by
      rcases claimed with _ | _ | claimed <;> simp [normalizedLength]
    rw [normalize, hstep', hlength, ih, hstep, hstep', Reading.along_after_pair]
  | alone cs hcs ih =>
    have hlength : normalizedLength ('\r' :: cs) claimed - 1 =
        normalizedLength cs (claimed - 1) := by
      cases claimed <;> simp [normalizedLength_return hcs]
    rw [normalize_return hcs, hstep', hlength, ih, hstep, Reading.along_after_return hcs]
  | other c cs hc ih =>
    rw [normalize_cons hc]
    cases claimed with
    | succ claimed =>
      rw [normalizedLength_cons hc, stringRest, ih, stringRest, Reading.along_after_cons hc]
    | zero =>
      rw [normalizedLength_zero]
      by_cases hclose : c = quote
      · rw [stringRest, stringRest, if_pos hclose, if_pos hclose, Reading.along,
          normalizedLength_one]
        rfl
      by_cases hbackslash : c = '\\'
      · rw [stringRest, stringRest, if_neg hclose, if_neg hclose, if_pos hbackslash,
          if_pos hbackslash, stringEscape_normalize]
        cases stringEscape cs with
        | complete length =>
          exact (congrArg (·.after 1) (ih length)).trans (Reading.along_after_cons hc _ _).symm
        | malformed length | cutShort length =>
          simp [EscapeReading.along, Reading.along, Nat.add_comm 1, normalizedLength_cons hc]
      · have hnext := ih 0
        rw [normalizedLength_zero] at hnext
        rw [stringRest_plain hclose hbackslash, stringRest_plain hclose hbackslash,
          Nat.zero_sub, hnext, Reading.along_after_cons hc]

theorem string_normalize {cs : List Char} (h : stringAhead cs = true) :
    string (normalize cs) = (string cs).along cs := by
  cases cs with
  | nil => simp [stringAhead] at h
  | cons quote cs =>
    have hquote : quote = '"' ∨ quote = '\'' := by
      unfold stringAhead at h
      split at h <;> simp_all
    have hreturn : quote ≠ '\r' := by rcases hquote with rfl | rfl <;> decide
    have hrest := stringRest_normalize hquote 0 cs
    rw [normalizedLength_zero] at hrest
    rw [normalize_cons hreturn, string, string, hrest, Reading.along_after_cons hreturn]

/-! ### Comments -/

/-- What does not close a comment is passed. -/
theorem commentBody_step {c : Char} {cs : List Char} (h : ¬ (c = '*' ∧ cs.head? = some '/')) :
    commentBody (c :: cs) = (commentBody cs).after 1 := by
  refine commentBody.eq_3 c cs ?_
  rintro r rfl rfl
  exact h ⟨rfl, rfl⟩

theorem commentBody_normalize (cs : List Char) :
    commentBody (normalize cs) = (commentBody cs).along cs := by
  have hstep : ∀ {c : Char} (cs), c ≠ '*' → commentBody (c :: cs) = (commentBody cs).after 1 :=
    fun cs hc => commentBody_step fun h => hc h.1
  induction cs using normalize_induction with
  | nil => rfl
  | pair cs ih =>
    rw [normalize, hstep _ (by decide), hstep _ (by decide), hstep _ (by decide), ih,
      Reading.along_after_pair]
  | alone cs hcs ih =>
    rw [normalize_return hcs, hstep _ (by decide), hstep _ (by decide), ih,
      Reading.along_after_return hcs]
  | other c cs hc ih =>
    rw [normalize_cons hc]
    by_cases hclose : c = '*' ∧ cs.head? = some '/'
    · obtain ⟨rfl, hhead⟩ := hclose
      obtain ⟨r, rfl⟩ := List.head?_eq_some_iff.1 hhead
      simp [normalize, commentBody, Reading.along, TokenKind.normal, normalizedLength]
    · have hclose' : ¬ (c = '*' ∧ (normalize cs).head? = some '/') := by
        rw [head?_normalize_eq_some (by decide) (by decide)]
        exact hclose
      rw [commentBody_step hclose, commentBody_step hclose', ih, Reading.along_after_cons hc]

theorem multiLineComment_normalize {cs : List Char} (h : multiLineCommentAhead cs = true) :
    multiLineComment (normalize cs) = (multiLineComment cs).along cs := by
  unfold multiLineCommentAhead at h
  split at h
  · next cs =>
    have htwo : ∀ r : Reading, (r.after 2).along ('/' :: '*' :: cs) = (r.along cs).after 2 := by
      intro r
      rw [← Reading.after_after 1 1, Reading.along_after_cons (by decide),
        Reading.along_after_cons (by decide), Reading.after_after]
    rw [normalize_cons (by decide), normalize_cons (by decide), multiLineComment, multiLineComment,
      commentBody_normalize, htwo]
  · simp at h

/-! ### Names -/

theorem nameUnit_of_ne_u (unescaped : Char → Bool) {cs : List Char} (h : cs.head? ≠ some 'u') :
    nameUnit unescaped ('\\' :: cs) = .malformed 1 := by
  cases cs with
  | nil => rfl
  | cons c cs =>
    have hc : c ≠ 'u' := by simpa using h
    simp [nameUnit, hc]

theorem nameUnit_backslash (unescaped : Char → Bool) (cs : List Char) :
    nameUnit unescaped ('\\' :: normalize cs) =
      (nameUnit unescaped ('\\' :: cs)).along ('\\' :: cs) := by
  by_cases hu : cs.head? = some 'u'
  · obtain ⟨r, rfl⟩ := List.head?_eq_some_iff.1 hu
    rw [normalize_cons (by decide), nameUnit, nameUnit, unicodeEscape_normalize]
    cases unicodeEscape r <;> simp [EscapeReading.after, EscapeReading.along, Nat.add_comm 2,
      normalizedLength_cons]
  · have hu' : (normalize cs).head? ≠ some 'u' := by
      rwa [Ne, head?_normalize_eq_some (by decide) (by decide)]
    rw [nameUnit_of_ne_u _ hu, nameUnit_of_ne_u _ hu', EscapeReading.along, normalizedLength_one]

theorem nameUnit_normalize {unescaped : Char → Bool} (hreturn : unescaped '\r' = false)
    (hfeed : unescaped '\n' = false) (cs : List Char) :
    nameUnit unescaped (normalize cs) = (nameUnit unescaped cs).along cs := by
  rcases normalize_start cs with rfl | ⟨r, r', rfl, hcs⟩ | ⟨c, r, -, rfl, hcs⟩
  · rfl
  · simp [hcs, nameUnit, hreturn, hfeed, EscapeReading.along, normalizedLength_one]
  · rw [hcs]
    by_cases hbackslash : c = '\\'
    · exact hbackslash ▸ nameUnit_backslash unescaped r
    · have hread : ∀ r, nameUnit unescaped (c :: r) =
          if unescaped c then .complete 1 else .malformed 1 := by
        intro r
        simp [nameUnit, hbackslash]
      rw [hread, hread]
      split <;> rw [EscapeReading.along, normalizedLength_one]

theorem nameUnit_no_return {unescaped : Char → Bool} (hreturn : unescaped '\r' = false) {n : Nat}
    {cs : List Char} (h : nameUnit unescaped cs = .complete n) :
    0 < n ∧ '\r' ∉ cs.take n := by
  obtain ⟨u, r, rfl, rfl, hu⟩ := nameUnit_sound h
  refine ⟨by cases hu <;> simp, ?_⟩
  rw [List.take_left]
  exact hu.no_return hreturn

theorem escapeAhead_cons {c : Char} {cs : List Char} :
    escapeAhead (c :: cs) = true ↔ c = '\\' ∧ cs.head? = some 'u' := by
  constructor
  · intro h
    unfold escapeAhead at h
    split at h
    · next hcs =>
      obtain ⟨rfl, rfl⟩ := List.cons.inj hcs
      exact ⟨rfl, rfl⟩
    · simp at h
  · rintro ⟨rfl, hu⟩
    obtain ⟨r, rfl⟩ := List.head?_eq_some_iff.1 hu
    rfl

theorem escapeAhead_normalize (cs : List Char) : escapeAhead (normalize cs) = escapeAhead cs := by
  rcases normalize_start cs with rfl | ⟨r, r', rfl, hcs⟩ | ⟨c, r, -, rfl, hcs⟩
  · rfl
  · rw [hcs]
    rfl
  · rw [hcs, Bool.eq_iff_iff, escapeAhead_cons, escapeAhead_cons,
      head?_normalize_eq_some (by decide) (by decide)]

theorem nameRest_normalize {claimed : Nat} {cs : List Char} (h : '\r' ∉ cs.take claimed) :
    nameRest claimed (normalize cs) = (nameRest claimed cs).along cs := by
  have hpart : isNamePart '\r' = false ∧ isNamePart '\n' = false := by decide +kernel
  induction cs generalizing claimed with
  | nil => cases claimed <;> rfl
  | cons c cs ih =>
    cases claimed with
    | succ claimed =>
      rw [List.take_succ_cons, List.mem_cons, not_or] at h
      rw [normalize_cons (Ne.symm h.1), nameRest, nameRest, ih h.2,
        Reading.along_after_cons (Ne.symm h.1)]
    | zero =>
      by_cases hc : c = '\r'
      · subst hc
        obtain ⟨cs', hcs⟩ := exists_normalize_return cs
        simp [hcs, nameRest, escapeAhead, hpart, Reading.along, TokenKind.normal]
      have hahead := escapeAhead_normalize (c :: cs)
      have hread := nameUnit_normalize hpart.1 hpart.2 (c :: cs)
      rw [normalize_cons hc] at hahead hread
      rw [normalize_cons hc, nameRest, nameRest, hahead, hread]
      split
      · cases hunit : nameUnit isNamePart (c :: cs) with
        | complete length =>
          obtain ⟨hpos, hno⟩ := nameUnit_no_return hpart.1 hunit
          obtain ⟨l, rfl⟩ := Nat.exists_eq_add_one_of_ne_zero (Nat.ne_of_gt hpos)
          rw [EscapeReading.along, normalizedLength_of_notMem hno]
          rw [List.take_succ_cons, List.mem_cons, not_or] at hno
          exact (congrArg (·.after 1) (ih hno.2)).trans (Reading.along_after_cons hc _ _).symm
        | malformed length | cutShort length => rfl
      · simp [Reading.along, TokenKind.normal]

theorem name_normalize (cs : List Char) : name (normalize cs) = (name cs).along cs := by
  have hstart : isNameStart '\r' = false ∧ isNameStart '\n' = false := by decide +kernel
  rw [name, name, nameUnit_normalize hstart.1 hstart.2]
  cases hunit : nameUnit isNameStart cs with
  | complete length =>
    obtain ⟨-, hno⟩ := nameUnit_no_return hstart.1 hunit
    rw [EscapeReading.along, normalizedLength_of_notMem hno]
    exact nameRest_normalize hno
  | malformed length | cutShort length => rfl

/-! ### Line terminators and punctuators -/

theorem lineTerminator_return (cs : List Char) :
    lineTerminator (normalize ('\r' :: cs)) = (lineTerminator ('\r' :: cs)).along ('\r' :: cs) := by
  obtain ⟨cs', hcs⟩ := exists_normalize_return cs
  have hread : lineTerminator ('\n' :: cs') = .token .lineFeed 1 := rfl
  rw [hcs, hread]
  by_cases hfeed : cs.head? = some '\n'
  · obtain ⟨r, rfl⟩ := List.head?_eq_some_iff.1 hfeed
    simp [lineTerminator, Reading.along, TokenKind.normal, normalizedLength]
  · have hread' : lineTerminator ('\r' :: cs) = .token .carriageReturn 1 := by
      cases cs with
      | nil => rfl
      | cons c cs =>
        have hc : c ≠ '\n' := by simpa using hfeed
        simp [lineTerminator, hc]
    rw [hread', Reading.along, normalizedLength_one]
    rfl

theorem lineTerminator_normalize {cs : List Char} (h : cs.head?.any isLineTerminator = true) :
    lineTerminator (normalize cs) = (lineTerminator cs).along cs := by
  cases cs with
  | nil => simp at h
  | cons c cs =>
    have hc : isLineTerminator c = true := h
    unfold isLineTerminator at hc
    split at hc
    case h_2 => exact lineTerminator_return cs
    case h_5 => simp at hc
    all_goals
      rw [normalize_cons (by decide), lineTerminator, lineTerminator, Reading.along,
        normalizedLength_one]
      rfl

theorem orAssign_ne_malformed (length : Nat) (bare withEquals : TokenKind) (cs : List Char)
    (n : Nat) : orAssign length bare withEquals cs ≠ .malformed n := by
  unfold orAssign
  split <;> nofun

/-- A punctuator that is begun and not read is two points without a third. -/
theorem punctuator_malformed {cs : List Char} (hahead : punctuatorAhead cs = true) {n : Nat}
    (h : punctuator cs = .malformed n) :
    ∃ r, cs = '.' :: '.' :: r ∧ n = 2 ∧ r.head? ≠ some '.' := by
  unfold punctuator at h
  split at h
  case h_1 => simp [punctuatorAhead] at hahead
  case h_12 =>
    unfold afterPoint at h
    split at h
    · simp at h
    · next r hr =>
      obtain rfl := Reading.malformed.inj h
      refine ⟨r, rfl, rfl, fun hhead => ?_⟩
      obtain ⟨r', rfl⟩ := List.head?_eq_some_iff.1 hhead
      exact hr r' rfl
    · simp at h
  case h_26 =>
    simp [punctuatorAhead, isPunctuatorStart] at hahead
    simp_all
  case h_25 =>
    unfold afterQuestion at h
    split at h
    · exact (orAssign_ne_malformed _ _ _ _ _ h).elim
    · split at h <;> simp at h
    · simp at h
  case h_16 | h_17 | h_24 => exact (orAssign_ne_malformed _ _ _ _ _ h).elim
  -- the other families, in which every continuation is a punctuator
  case h_13 | h_14 | h_15 | h_18 | h_19 | h_20 | h_21 | h_22 | h_23 =>
    simp only [afterPlus, afterMinus, afterStar, afterLess, afterGreater, afterEquals, afterBang,
      afterAmpersand, afterBar] at h
    split at h <;> first | exact (orAssign_ne_malformed _ _ _ _ _ h).elim | simp at h
  all_goals simp at h

theorem punctuator_points {r : List Char} (hr : r.head? ≠ some '.') :
    punctuator ('.' :: '.' :: r) = .malformed 2 := by
  cases r with
  | nil => rfl
  | cons c r =>
    have hc : c ≠ '.' := by simpa using hr
    simp [punctuator, afterPoint, hc]

theorem punctuator_normalize_malformed {cs : List Char} (hahead : punctuatorAhead cs = true)
    {n : Nat} (h : punctuator cs = .malformed n) :
    punctuator (normalize cs) = (punctuator cs).along cs := by
  obtain ⟨r, rfl, rfl, hr⟩ := punctuator_malformed hahead h
  have hr' : (normalize r).head? ≠ some '.' := by
    rwa [Ne, head?_normalize_eq_some (by decide) (by decide)]
  rw [normalize_cons (by decide), normalize_cons (by decide), punctuator_points hr,
    punctuator_points hr', Reading.along, normalizedLength_of_notMem (by simp)]

end Lexeme

end JsLexer
