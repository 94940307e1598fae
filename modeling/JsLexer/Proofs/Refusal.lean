import JsLexer.Proofs.Grammar

/-!
What a category may refuse once it has recognized the text.

Blanks, comments of one line and words that are literals are always read as tokens then. A name, a
number and a punctuator may turn out malformed, and then at least one code point is to blame. A
comment over several lines stays open if nothing closes it, and a string may be either malformed or
left open. What stays open was read up to the end of the text.
-/

namespace JsLexer

/-- A reading that leaves nothing open: a token, or a text with a code point to blame. -/
def Reading.Decides : Reading → Prop
  | .token _ _ => True
  | .malformed n => 0 < n
  | .openString _ | .openComment _ => False

theorem Reading.Decides.after {r : Reading} (h : r.Decides) (n : Nat) : (r.after n).Decides := by
  cases r with
  | token => trivial
  | malformed m => exact Nat.lt_of_lt_of_le h (Nat.le_add_left m n)
  | openString | openComment => exact h

namespace Lexeme

/-! ### Escapes that the text cuts short -/

theorem after_eq_cutShort {n m : Nat} {e : EscapeReading} :
    e.after n = .cutShort m ↔ ∃ l, e = .cutShort l ∧ m = n + l := by
  cases e <;> simp [EscapeReading.after, eq_comm]

/-- An escape that is cut short behind a code point is cut short with it. -/
theorem cutShort_cons {e : EscapeReading} {n : Nat} {c : Char} {cs : List Char}
    (h : e.after 1 = .cutShort n) (he : ∀ {l}, e = .cutShort l → l = cs.length) :
    n = (c :: cs).length := by
  obtain ⟨l, hl, rfl⟩ := after_eq_cutShort.1 h
  rw [he hl, List.length_cons, Nat.add_comm]

theorem hexDigits_cutShort {count n : Nat} {cs : List Char} (h : hexDigits count cs = .cutShort n) :
    n = cs.length := by
  induction cs generalizing count n with
  | nil => cases count <;> simp_all [hexDigits]
  | cons c cs ih =>
    cases count with
    | zero => simp [hexDigits] at h
    | succ count =>
      rw [hexDigits] at h
      split at h
      · exact cutShort_cons h ih
      · simp at h

theorem bracedDigits_cutShort {value n : Nat} {count : Int32} {cs : List Char}
    (h : bracedDigits value count cs = .cutShort n) : n = cs.length := by
  induction cs generalizing value count n with
  | nil => simpa [bracedDigits, eq_comm] using h
  | cons c cs ih =>
    rw [bracedDigits] at h
    split at h
    · split at h <;> simp at h
    · split at h
      · exact cutShort_cons h ih
      · simp at h

theorem unicodeEscape_cutShort {n : Nat} {cs : List Char} (h : unicodeEscape cs = .cutShort n) :
    n = cs.length := by
  cases cs with
  | nil => simpa [unicodeEscape, eq_comm] using h
  | cons c cs =>
    rw [unicodeEscape] at h
    split at h
    · exact cutShort_cons h bracedDigits_cutShort
    · split at h
      · exact cutShort_cons h hexDigits_cutShort
      · simp at h

theorem stringEscape_cutShort {n : Nat} {cs : List Char} (h : stringEscape cs = .cutShort n) :
    n = cs.length := by
  unfold stringEscape at h
  split at h
  · simpa [eq_comm] using h
  · simpa [eq_comm] using h
  · split at h <;> simp at h
  · exact cutShort_cons h hexDigits_cutShort
  · exact cutShort_cons h unicodeEscape_cutShort
  · simp at h
  · simp at h
  · split at h <;> simp at h

/-! ### What may stay open -/

theorem stringRest_outcome (quote : Char) (claimed : Nat) (cs : List Char) :
    (stringRest quote claimed cs).Decides ∨
      stringRest quote claimed cs = .openString cs.length := by
  induction cs generalizing claimed with
  | nil => exact .inr (by cases claimed <;> rfl)
  | cons c cs ih =>
    have hnext : ∀ claimed, ((stringRest quote claimed cs).after 1).Decides ∨
        (stringRest quote claimed cs).after 1 = .openString (c :: cs).length := by
      intro claimed
      refine (ih claimed).imp (·.after 1) fun hopen => ?_
      rw [hopen, Reading.after, List.length_cons, Nat.add_comm]
    cases claimed with
    | succ claimed => exact hnext claimed
    | zero =>
      rw [stringRest]
      split
      · exact .inl trivial
      · split
        · split
          · exact hnext _
          · exact .inl (Nat.add_pos_left Nat.one_pos _)
          · next hescape =>
            rw [stringEscape_cutShort hescape, List.length_cons, Nat.add_comm]
            exact .inr rfl
        · exact hnext 0

theorem string_outcome {cs : List Char} (h : stringAhead cs = true) :
    (string cs).Decides ∨ string cs = .openString cs.length := by
  cases cs with
  | nil => simp [stringAhead] at h
  | cons quote cs =>
    refine (stringRest_outcome quote 0 cs).imp (·.after 1) fun hopen => ?_
    rw [string, hopen, Reading.after, List.length_cons, Nat.add_comm]

theorem commentBody_outcome (cs : List Char) :
    (∃ n, commentBody cs = .token .multiLineComment n) ∨
      commentBody cs = .openComment cs.length := by
  fun_induction commentBody cs with
  | case1 => exact .inr rfl
  | case2 => exact .inl ⟨2, rfl⟩
  | case3 c cs _ ih =>
    rcases ih with ⟨n, hn⟩ | hopen
    · exact .inl ⟨1 + n, by rw [hn]; rfl⟩
    · refine .inr ?_
      rw [hopen, Reading.after, List.length_cons, Nat.add_comm]

theorem multiLineComment_outcome {cs : List Char} (h : multiLineCommentAhead cs = true) :
    (∃ n, multiLineComment cs = .token .multiLineComment n) ∨
      multiLineComment cs = .openComment cs.length := by
  unfold multiLineCommentAhead at h
  split at h
  · next cs =>
    rcases commentBody_outcome cs with ⟨n, hn⟩ | hopen
    · exact .inl ⟨2 + n, by rw [multiLineComment, hn]; rfl⟩
    · refine .inr ?_
      rw [multiLineComment, hopen, Reading.after, List.length_cons, List.length_cons]
      congr 1
      omega
  · simp at h

/-! ### What may be malformed -/

theorem nameUnit_blames {unescaped : Char → Bool} {cs : List Char} (hne : cs ≠ []) {n : Nat}
    (h : nameUnit unescaped cs = .malformed n ∨ nameUnit unescaped cs = .cutShort n) : 0 < n := by
  unfold nameUnit at h
  split at h
  · exact absurd rfl hne
  · next cs =>
    cases hescape : unicodeEscape cs <;> simp [hescape, EscapeReading.after] at h <;> omega
  · simp at h; omega
  · split at h <;> simp at h; omega

theorem nameRest_decides (claimed : Nat) (cs : List Char) : (nameRest claimed cs).Decides := by
  induction cs generalizing claimed with
  | nil => cases claimed <;> trivial
  | cons c cs ih =>
    cases claimed with
    | succ claimed => exact (ih claimed).after 1
    | zero =>
      rw [nameRest]
      split
      · split
        · exact (ih _).after 1
        · next hunit => exact nameUnit_blames (by simp) (.inl hunit)
        · next hunit => exact nameUnit_blames (by simp) (.inr hunit)
      · trivial

theorem name_decides {cs : List Char} (hne : cs ≠ []) : (name cs).Decides := by
  rw [name]
  split
  · exact nameRest_decides _ _
  · next hunit => exact nameUnit_blames hne (.inl hunit)
  · next hunit => exact nameUnit_blames hne (.inr hunit)

theorem fraction_blames {cs : List Char} {n : Nat} (h : fraction cs = .error n) : 0 < n := by
  unfold fraction at h
  split at h
  · dsimp only at h
    split at h
    · obtain rfl := Except.error.inj h
      exact Nat.one_pos
    · simp at h
  · simp at h

theorem exponent_blames {cs : List Char} {n : Nat} (h : exponent cs = .error n) : 0 < n := by
  unfold exponent at h
  split at h
  · simp at h
  · split at h
    · dsimp only at h
      split at h
      · obtain rfl := Except.error.inj h
        exact Nat.add_pos_left Nat.one_pos _
      · simp at h
    · simp at h

/-- A number starts with a digit, or with a point and a digit. -/
theorem whole_add_places_pos {cs : List Char} (hahead : numeralAhead cs = true) {places : Nat}
    (h : fraction (cs.drop (runLength isDecimalDigit cs)) = .ok places) :
    0 < runLength isDecimalDigit cs + places := by
  obtain ⟨c, r, rfl, rfl | hc⟩ := numeralAhead_head hahead
  · have hpoint : runLength isDecimalDigit ('.' :: r) = 0 := rfl
    rw [hpoint, List.drop_zero, fraction] at h
    split at h
    · simp at h
    · obtain rfl := Except.ok.inj h
      omega
  · simp only [runLength, List.takeWhile_cons, hc, if_true, List.length_cons]
    omega

theorem decimal_decides {cs : List Char} (hahead : numeralAhead cs = true) :
    (decimal cs).Decides := by
  simp only [decimal, decimalLength]
  cases hplaces : fraction (cs.drop (runLength isDecimalDigit cs)) with
  | error read => exact Nat.add_pos_right _ (fraction_blames hplaces)
  | ok places =>
    cases hscale : exponent (cs.drop (runLength isDecimalDigit cs + places)) with
    | error read =>
      simp only [hscale]
      exact Nat.add_pos_right _ (exponent_blames hscale)
    | ok scale =>
      simp only [hscale]
      split
      · exact Nat.add_pos_left (whole_add_places_pos hahead hplaces) scale
      · trivial

theorem radixDigits_decides (kind : TokenKind) (isDigit : Char → Bool) (cs : List Char) :
    (radixDigits kind isDigit cs).Decides := by
  simp only [radixDigits]
  split
  · exact Nat.two_pos
  · split
    · trivial
    · exact Nat.add_pos_left Nat.two_pos _

theorem numeral_decides {cs : List Char} (hahead : numeralAhead cs = true) :
    (numeral cs).Decides := by
  unfold numeral
  split <;> first | exact radixDigits_decides _ _ _ | exact decimal_decides hahead

theorem orAssign_decides (length : Nat) (bare withEquals : TokenKind) (cs : List Char) :
    (orAssign length bare withEquals cs).Decides := by
  unfold orAssign
  split <;> trivial

theorem punctuator_decides {cs : List Char} (hne : cs ≠ []) : (punctuator cs).Decides := by
  unfold punctuator
  split
  case h_1 => exact absurd rfl hne
  case h_26 => exact Nat.one_pos
  -- two points may lack the third
  case h_12 =>
    unfold afterPoint
    split
    · trivial
    · exact Nat.two_pos
    · trivial
  case h_25 =>
    unfold afterQuestion
    split
    · exact orAssign_decides ..
    · split <;> trivial
    · trivial
  case h_16 | h_17 | h_24 => exact orAssign_decides ..
  -- the other families, in which every continuation is a punctuator
  case h_13 | h_14 | h_15 | h_18 | h_19 | h_20 | h_21 | h_22 | h_23 =>
    simp only [afterPlus, afterMinus, afterStar, afterLess, afterGreater, afterEquals, afterBang,
      afterAmpersand, afterBar]
    split <;> first | exact orAssign_decides .. | trivial
  all_goals trivial

/-! ### What is always a token -/

theorem lineTerminator_token {cs : List Char} (h : cs.head?.any isLineTerminator = true) :
    ∃ k n, lineTerminator cs = .token k n := by
  unfold lineTerminator
  split
  case h_1 => simp at h
  case h_7 c _ hfeed _ hreturn hline hparagraph =>
    have hc : isLineTerminator c = false := by
      unfold isLineTerminator
      split
      case h_5 => rfl
      all_goals contradiction
    simp [hc] at h
  all_goals exact ⟨_, _, rfl⟩

theorem singleLineComment_token {cs : List Char} (h : singleLineCommentAhead cs = true) :
    ∃ k n, singleLineComment cs = .token k n := by
  unfold singleLineCommentAhead at h
  split at h
  · exact ⟨_, _, rfl⟩
  · simp at h

theorem boolean_token {cs : List Char} (h : booleanAhead cs = true) :
    ∃ k n, boolean cs = .token k n := by
  simp only [booleanAhead, wordAhead, Bool.or_eq_true, Bool.and_eq_true] at h
  unfold boolean word
  split
  · exact ⟨_, _, rfl⟩
  · next htrue =>
    rcases h with h | h
    · exact absurd h.1 htrue
    · exact ⟨_, _, if_pos h.1⟩

theorem null_token {cs : List Char} (h : nullAhead cs = true) : ∃ k n, null cs = .token k n := by
  simp only [nullAhead, wordAhead, Bool.and_eq_true] at h
  exact ⟨_, _, if_pos h.1⟩

end Lexeme

/-! ### All categories -/

namespace Builtin

/-- The categories that can claim a text and then find it malformed. -/
def fallible : List Builtin := [.identifierName, .numeral, .string, .punctuator]

/-- How a category may read a text of `length` code points that it has recognized. -/
def MayRead (b : Builtin) (length : Nat) : Reading → Prop
  | .token _ n => 0 < n
  | .malformed n => 0 < n ∧ b ∈ fallible
  | .openString n => b = .string ∧ n = length
  | .openComment n => b = .multiLineComment ∧ n = length

variable {b : Builtin} {cs : List Char}

theorem mayRead_token (h : b.recognizes cs = true) {k : TokenKind} {n : Nat}
    (hread : b.read cs = .token k n) : b.MayRead cs.length (b.read cs) := by
  obtain ⟨w, r, -, rfl, hw, -⟩ := accepts_of_read h hread
  rw [hread]
  exact List.length_pos_iff.2 hw.ne_nil

theorem mayRead_decides (h : b.recognizes cs = true) (hb : b ∈ fallible)
    (hread : (b.read cs).Decides) : b.MayRead cs.length (b.read cs) := by
  cases hreading : b.read cs with
  | token => exact hreading ▸ mayRead_token h hreading
  | malformed n => exact ⟨by rwa [hreading] at hread, hb⟩
  | openString | openComment => rw [hreading] at hread; exact hread.elim

/-- What a category makes of a text that it has recognized. -/
theorem mayRead (h : b.recognizes cs = true) : b.MayRead cs.length (b.read cs) := by
  have hne := ne_nil_of_recognizes h
  cases b with
  | whitespace =>
    cases cs with
    | nil => exact absurd rfl hne
    | cons c cs => exact mayRead_token h (if_pos h)
  | lineTerminator =>
    obtain ⟨k, n, hn⟩ := Lexeme.lineTerminator_token h
    exact mayRead_token h hn
  | singleLineComment =>
    obtain ⟨k, n, hn⟩ := Lexeme.singleLineComment_token h
    exact mayRead_token h hn
  | multiLineComment =>
    rcases Lexeme.multiLineComment_outcome h with ⟨n, hn⟩ | hopen
    · exact mayRead_token h hn
    · rw [read, hopen]
      exact ⟨rfl, rfl⟩
  | boolean =>
    obtain ⟨k, n, hn⟩ := Lexeme.boolean_token h
    exact mayRead_token h hn
  | null =>
    obtain ⟨k, n, hn⟩ := Lexeme.null_token h
    exact mayRead_token h hn
  | identifierName => exact mayRead_decides h (by decide) (Lexeme.name_decides hne)
  | numeral => exact mayRead_decides h (by decide) (Lexeme.numeral_decides h)
  | string =>
    rcases Lexeme.string_outcome h with hdecides | hopen
    · exact mayRead_decides h (by decide) hdecides
    · rw [read, hopen]
      exact ⟨rfl, rfl⟩
  | punctuator => exact mayRead_decides h (by decide) (Lexeme.punctuator_decides hne)

end Builtin

end JsLexer
