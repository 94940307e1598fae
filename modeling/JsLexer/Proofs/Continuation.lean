import JsLexer.Proofs.Refusal

/-!
What more text makes of a string or a comment.

A reading that came to a decision within its text keeps to it whatever follows; the exception is a
carriage return behind a backslash, which takes a line feed along, and it does not show in a string
that goes on. A reading that the text leaves open can be completed, with one exception again: the
value of an escape between braces and the count of its digits are checked at the closing brace only,
so an escape counts as open although its value is too large already, or will be too large by the
time that the count is positive again, and no text completes it.
-/

namespace JsLexer.Lexeme

/-! ### Readings that are decided -/

theorem ne_cutShort_of_after {e : EscapeReading} {m : Nat} (h : ∀ n, e.after m ≠ .cutShort n)
    (n : Nat) : e ≠ .cutShort n := by
  rintro rfl
  exact h (m + n) rfl

theorem hexDigits_extend {count : Nat} {cs : List Char}
    (h : ∀ n, hexDigits count cs ≠ .cutShort n) (t : List Char) :
    hexDigits count (cs ++ t) = hexDigits count cs := by
  induction cs generalizing count with
  | nil =>
    cases count with
    | zero => rfl
    | succ count => exact absurd rfl (h 0)
  | cons c cs ih =>
    cases count with
    | zero => rfl
    | succ count =>
      rw [hexDigits] at h
      rw [List.cons_append, hexDigits, hexDigits]
      split at h
      · next hc => rw [if_pos hc, if_pos hc, ih (ne_cutShort_of_after h)]
      · next hc => rw [if_neg hc, if_neg hc]

theorem bracedDigits_extend {value : Nat} {count : Int32} {cs : List Char}
    (h : ∀ n, bracedDigits value count cs ≠ .cutShort n) (t : List Char) :
    bracedDigits value count (cs ++ t) = bracedDigits value count cs := by
  induction cs generalizing value count with
  | nil => exact absurd rfl (h 0)
  | cons c cs ih =>
    rw [bracedDigits] at h
    rw [List.cons_append, bracedDigits, bracedDigits]
    by_cases hc : c = '\x7d'
    · rw [if_pos hc, if_pos hc]
    · rw [if_neg hc] at h
      rw [if_neg hc, if_neg hc]
      cases hdigit : hexValue? c with
      | none => rfl
      | some digit =>
        rw [hdigit] at h
        exact congrArg (·.after 1) (ih (ne_cutShort_of_after h))

theorem unicodeEscape_extend {cs : List Char} (h : ∀ n, unicodeEscape cs ≠ .cutShort n)
    (t : List Char) : unicodeEscape (cs ++ t) = unicodeEscape cs := by
  cases cs with
  | nil => exact absurd rfl (h 0)
  | cons c cs =>
    rw [unicodeEscape] at h
    rw [List.cons_append, unicodeEscape, unicodeEscape]
    split at h
    · next hc =>
      rw [if_pos hc, if_pos hc, braced, braced, bracedDigits_extend (ne_cutShort_of_after h)]
    · next hc =>
      rw [if_neg hc, if_neg hc]
      split at h
      · next hdigit => rw [if_pos hdigit, if_pos hdigit, hexDigits_extend (ne_cutShort_of_after h)]
      · next hdigit => rw [if_neg hdigit, if_neg hdigit]

theorem stringEscape_extend {cs : List Char} (h : ∀ n, stringEscape cs ≠ .cutShort n)
    (hreturn : cs ≠ ['\r']) (t : List Char) : stringEscape (cs ++ t) = stringEscape cs := by
  unfold stringEscape at h
  split at h
  · exact absurd rfl (h 0)
  · exact absurd rfl (h 1)
  · rfl
  · simp only [List.cons_append, stringEscape, hexDigits_extend (ne_cutShort_of_after h)]
  · simp only [List.cons_append, stringEscape, unicodeEscape_extend (ne_cutShort_of_after h)]
  · rfl
  · next r hr =>
    cases r with
    | nil => exact absurd rfl hreturn
    | cons c r =>
      have hc : c ≠ '\n' := by
        rintro rfl
        exact hr r rfl
      simp [stringEscape, hc]
  · next c r hzero hzero' _ _ _ hreturn' =>
    have hc : c ≠ '0' := by
      rintro rfl
      cases r with
      | nil => exact hzero rfl rfl
      | cons d r => exact hzero' d r rfl rfl
    have hc' : c ≠ '\r' := by
      rintro rfl
      exact hreturn' rfl
    simp [stringEscape, hc, hc']

/-- A string that comes to an end, or to a violation of the grammar, does so whatever follows. -/
theorem stringRest_extend {quote : Char} {claimed : Nat} {cs : List Char}
    (h : ∀ n, stringRest quote claimed cs ≠ .openString n) (t : List Char) :
    stringRest quote claimed (cs ++ t) = stringRest quote claimed cs := by
  have hbehind : ∀ {r : Reading}, (∀ n, r.after 1 ≠ .openString n) → ∀ n, r ≠ .openString n := by
    rintro _ hr n rfl
    exact hr (1 + n) rfl
  induction cs generalizing claimed with
  | nil => exact absurd (by cases claimed <;> rfl) (h 0)
  | cons c cs ih =>
    cases claimed with
    | succ claimed => exact congrArg (·.after 1) (ih (hbehind h))
    | zero =>
      rw [stringRest] at h
      rw [List.cons_append, stringRest, stringRest]
      by_cases hclose : c = quote
      · rw [if_pos hclose, if_pos hclose]
      rw [if_neg hclose] at h
      rw [if_neg hclose, if_neg hclose]
      by_cases hbackslash : c = '\\'
      · rw [if_pos hbackslash] at h
        rw [if_pos hbackslash, if_pos hbackslash]
        have hescape : stringEscape (cs ++ t) = stringEscape cs := by
          refine stringEscape_extend (fun n hn => ?_) ?_ t
          · rw [hn] at h
            exact h (1 + n) rfl
          · -- the line break that the backslash escapes would be all that is left
            rintro rfl
            exact h 2 rfl
        rw [hescape]
        cases hreading : stringEscape cs with
        | malformed | cutShort => rfl
        | complete length =>
          rw [hreading] at h
          exact congrArg (·.after 1) (ih (hbehind h))
      · rw [if_neg hbackslash] at h
        rw [if_neg hbackslash, if_neg hbackslash, ih (hbehind h)]

/-! ### Escapes that can be completed -/

theorem hexNumber_append (value : Nat) (ds ds' : List Char) :
    hexNumber value (ds ++ ds') = hexNumber (hexNumber value ds) ds' := List.foldl_append

/-- No digits behind a number make it less than zeros do. -/
theorem le_hexNumber (value : Nat) (ds : List Char) :
    value * 16 ^ ds.length ≤ hexNumber value ds := by
  induction ds generalizing value with
  | nil => exact Nat.le_of_eq (Nat.mul_one value)
  | cons c ds ih =>
    calc value * 16 ^ (ds.length + 1)
      _ = value * 16 * 16 ^ ds.length := by rw [Nat.pow_succ', Nat.mul_assoc]
      _ ≤ (value * 16 + (hexValue? c).getD 0) * 16 ^ ds.length :=
        Nat.mul_le_mul_right _ (Nat.le_add_right _ _)
      _ ≤ hexNumber value (c :: ds) := ih _

theorem hexDigits_cut {count n : Nat} {cs : List Char} (h : hexDigits count cs = .cutShort n) :
    cs.length < count ∧ ∀ c ∈ cs, isHexDigit c = true := by
  induction cs generalizing count n with
  | nil =>
    cases count with
    | zero => simp [hexDigits] at h
    | succ count => simp
  | cons c cs ih =>
    cases count with
    | zero => simp [hexDigits] at h
    | succ count =>
      rw [hexDigits] at h
      split at h
      · next hc =>
        obtain ⟨l, hl, -⟩ := after_eq_cutShort.1 h
        obtain ⟨hlength, hcs⟩ := ih hl
        exact ⟨Nat.succ_lt_succ hlength, List.forall_mem_cons.2 ⟨hc, hcs⟩⟩
      · simp at h

/-- Zeros make up for the digits that are missing. -/
theorem hexDigits_fill {count n : Nat} {cs : List Char} (h : hexDigits count cs = .cutShort n) :
    ∃ t, (cs ++ t).length = count ∧ ∀ c ∈ cs ++ t, isHexDigit c = true := by
  obtain ⟨hlength, hcs⟩ := hexDigits_cut h
  refine ⟨List.replicate (count - cs.length) '0', ?_, fun c hc => ?_⟩
  · rw [List.length_append, List.length_replicate]
    omega
  · rcases List.mem_append.1 hc with hold | hzero
    · exact hcs c hold
    · rw [List.eq_of_mem_replicate hzero]
      decide

theorem bracedDigits_cut {value n : Nat} {count : Int32} {cs : List Char}
    (h : bracedDigits value count cs = .cutShort n) : ∀ c ∈ cs, isHexDigit c = true := by
  induction cs generalizing value count n with
  | nil => simp
  | cons c cs ih =>
    rw [bracedDigits] at h
    split at h
    · split at h <;> simp at h
    · split at h
      · next digit hdigit =>
        obtain ⟨l, hl, -⟩ := after_eq_cutShort.1 h
        exact List.forall_mem_cons.2 ⟨by rw [isHexDigit, hdigit]; rfl, ih hl⟩
      · simp at h

/-- A brace that is not closed, and digits behind it whose value is no code point, or will be none
by the time that their count is positive: every further digit multiplies it by sixteen at least. -/
def TooLarge (cs : List Char) : Prop :=
  ∃ ds, cs = '\x7b' :: ds ∧ (∀ c ∈ ds, isHexDigit c = true) ∧
    ∀ m, CountsPositive (ds.length + m) → maxCodePoint < hexNumber 0 ds * 16 ^ m

/-- With fewer than 2 ^ 31 digits only their value matters. -/
theorem tooLarge_iff {ds : List Char} (hds : ∀ c ∈ ds, isHexDigit c = true)
    (hlength : ds.length < 2 ^ 31) :
    TooLarge ('\x7b' :: ds) ↔ maxCodePoint < hexNumber 0 ds := by
  constructor
  · rintro ⟨_, ⟨⟩, -, hlarge⟩
    rcases List.eq_nil_or_concat ds with rfl | ⟨ds', d, hconcat⟩
    · exact absurd (hlarge 1 (by decide)) (by decide)
    · have hpos : 0 < ds.length := by simp [hconcat]
      simpa using hlarge 0 (countsPositive_of_lt hpos hlength)
  · intro hlarge
    refine ⟨ds, rfl, hds, fun m _ => Nat.lt_of_lt_of_le hlarge ?_⟩
    exact Nat.le_mul_of_pos_right _ (Nat.pow_pos (by decide))

/-- An escape that is cut short can be completed, unless its value is too large already. -/
theorem unicodeEscape_fill {n : Nat} {cs : List Char} (h : unicodeEscape cs = .cutShort n) :
    (∃ t, IsEscape (cs ++ t)) ∨ TooLarge cs := by
  cases cs with
  | nil => exact .inl ⟨['0', '0', '0', '0'], .plain rfl (List.all_eq_true.1 rfl)⟩
  | cons c ds =>
    rw [unicodeEscape] at h
    split at h
    · next hc =>
      subst hc
      obtain ⟨l, hl, -⟩ := after_eq_cutShort.1 h
      have hds := bracedDigits_cut hl
      by_cases hfit : ∃ m, CountsPositive (ds.length + m) ∧ hexNumber 0 ds * 16 ^ m ≤ maxCodePoint
      · -- zeros make the count positive, and then the brace closes the escape
        obtain ⟨m, hcount, hvalue⟩ := hfit
        have hescape : IsEscape ('\x7b' :: ((ds ++ List.replicate m '0') ++ ['\x7d'])) := by
          refine .braced ?_ (List.forall_mem_append.2 ⟨hds, isHexDigit_of_mem_zeros m⟩) ?_
          · rwa [List.length_append, List.length_replicate]
          · rwa [hexNumber_append, hexNumber_zeros]
        rw [List.append_assoc] at hescape
        exact .inl ⟨_, hescape⟩
      · refine .inr ⟨ds, rfl, hds, fun m hcount => Nat.lt_of_not_le fun hvalue => ?_⟩
        exact hfit ⟨m, hcount, hvalue⟩
    · split at h
      · next hc =>
        obtain ⟨l, hl, -⟩ := after_eq_cutShort.1 h
        obtain ⟨t, hlength, ht⟩ := hexDigits_fill hl
        refine .inl ⟨t, .plain ?_ (List.forall_mem_cons.2 ⟨hc, ht⟩)⟩
        rw [List.cons_append, List.length_cons, hlength]
      · simp at h

/-- No escape starts with a value that is too large. -/
theorem TooLarge.not_isEscape {cs : List Char} (h : TooLarge cs) {e r t : List Char}
    (hcs : cs ++ t = e ++ r) : ¬ IsEscape e := by
  obtain ⟨ds, rfl, hds, hlarge⟩ := h
  intro he
  cases he with
  | plain hlength hdigits =>
    cases e with
    | nil => simp at hlength
    | cons c e =>
      obtain ⟨rfl, -⟩ := List.cons.inj hcs
      exact absurd (hdigits _ List.mem_cons_self) (by decide)
  | @braced ds' hcount _ hle =>
    have hboth : ds ++ t = ds' ++ ('\x7d' :: r) := by simpa using hcs
    -- the digits run on up to the closing brace
    obtain ⟨v, rfl⟩ : ∃ v, ds' = ds ++ v := by
      rcases List.append_eq_append_iff.1 hboth with ⟨v, hv, -⟩ | ⟨v, hv, hrest⟩
      · exact ⟨v, hv⟩
      · cases v with
        | nil => exact ⟨[], by rw [hv, List.append_nil, List.append_nil]⟩
        | cons c v =>
          obtain ⟨rfl, -⟩ := List.cons.inj hrest
          exact absurd (hds '\x7d' (by simp [hv])) (by decide)
    rw [List.length_append] at hcount
    rw [hexNumber_append] at hle
    have hvalue := le_hexNumber (hexNumber 0 ds) v
    exact Nat.not_lt_of_le (Nat.le_trans hvalue hle) (hlarge v.length hcount)

theorem stringEscape_fill {n : Nat} {cs : List Char} (h : stringEscape cs = .cutShort n) :
    (∃ t, ∀ quote, IsStringUnit quote ('\\' :: (cs ++ t))) ∨ ∃ e, cs = 'u' :: e ∧ TooLarge e := by
  unfold stringEscape at h
  split at h
  · exact .inl ⟨['\\'], fun _ => .verbatim (by decide)⟩
  · exact .inl ⟨['0'], fun _ => .digit (by decide)⟩
  · split at h <;> simp at h
  · obtain ⟨l, hl, -⟩ := after_eq_cutShort.1 h
    obtain ⟨t, hlength, ht⟩ := hexDigits_fill hl
    exact .inl ⟨t, fun _ => .byte hlength ht⟩
  · next e =>
    obtain ⟨l, hl, -⟩ := after_eq_cutShort.1 h
    exact (unicodeEscape_fill hl).imp (fun ⟨t, ht⟩ => ⟨t, fun _ => .number ht⟩)
      fun he => ⟨e, rfl, he⟩
  · simp at h
  · simp at h
  · split at h <;> simp at h

/-! ### Strings that can be completed -/

/-- Units, and behind them an escape that is not closed and whose value is too large. -/
inductive Overflows (quote : Char) : List Char → Prop
  | escape {e : List Char} : TooLarge e → Overflows quote ('\\' :: 'u' :: e)
  | unit {u w : List Char} : IsStringUnit quote u → Overflows quote w → Overflows quote (u ++ w)

theorem stringRest_fill {quote : Char} (hquote : quote = '"' ∨ quote = '\'') {n : Nat}
    {cs : List Char} (h : stringRest quote 0 cs = .openString n) :
    (∃ t, IsStringRest quote (cs ++ t)) ∨ Overflows quote cs := by
  induction cs using unit_induction quote generalizing n with
  | nil => exact .inl ⟨[quote], .close⟩
  | close cs => simp [stringRest] at h
  | unit u cs hu ih =>
    rw [stringRest_unit hquote hu] at h
    obtain ⟨m, hm, -⟩ := Reading.after_eq_openString.1 h
    refine (ih hm).imp ?_ (.unit hu)
    rintro ⟨t, ht⟩
    exact ⟨t, by rw [List.append_assoc]; exact .unit hu ht⟩
  | malformed cs m hescape => simp [stringRest_malformed hquote hescape] at h
  | cutShort cs m hescape =>
    rcases stringEscape_fill hescape with ⟨t, ht⟩ | ⟨e, rfl, he⟩
    · refine .inl ⟨t ++ [quote], ?_⟩
      rw [← List.append_assoc]
      exact .unit (ht quote) .close
    · exact .inr (.escape he)

/-- Nothing completes a string with such an escape. -/
theorem Overflows.not_token {quote : Char} (hquote : quote = '"' ∨ quote = '\'')
    {cs : List Char} (h : Overflows quote cs) (t : List Char) (k : TokenKind) (n : Nat) :
    stringRest quote 0 (cs ++ t) ≠ .token k n := by
  induction h generalizing n with
  | @escape e he =>
    intro hread
    rw [List.cons_append, List.cons_append] at hread
    cases hescape : stringEscape ('u' :: (e ++ t)) with
    | complete m =>
      obtain ⟨l, hl, -⟩ := after_eq_complete.1 (hescape : (unicodeEscape (e ++ t)).after 1 = _)
      obtain ⟨e', r, hboth, -, he'⟩ := unicodeEscape_sound hl
      exact he.not_isEscape hboth he'
    | malformed m => simp [stringRest_malformed hquote hescape] at hread
    | cutShort m => simp [stringRest_cutShort hquote hescape] at hread
  | @unit u w hu _ ih =>
    intro hread
    rw [List.append_assoc, stringRest_unit hquote hu] at hread
    obtain ⟨m, hm, -⟩ := Reading.after_eq_token.1 hread
    exact ih m hm

/-- A quote, and a text behind it that no more text completes although it is read as open. -/
def NeverCloses (cs : List Char) : Prop :=
  ∃ quote v, (quote = '"' ∨ quote = '\'') ∧ cs = quote :: v ∧ Overflows quote v

theorem string_extend {cs : List Char} (hahead : stringAhead cs = true)
    (h : ∀ n, string cs ≠ .openString n) (t : List Char) : string (cs ++ t) = string cs := by
  cases cs with
  | nil => simp [stringAhead] at hahead
  | cons quote cs =>
    have hrest : ∀ n, stringRest quote 0 cs ≠ .openString n := fun n hn =>
      h (1 + n) (by rw [string, hn]; rfl)
    rw [List.cons_append, string, string, stringRest_extend hrest]

/-- More text completes what is not a string yet exactly if it is open and can be closed. -/
theorem string_completable_iff {cs : List Char} (hahead : stringAhead cs = true)
    (hnot : ∀ k n, string cs ≠ .token k n) :
    (∃ t k n, string (cs ++ t) = .token k n) ↔
      (∃ n, string cs = .openString n) ∧ ¬ NeverCloses cs := by
  constructor
  · rintro ⟨t, k, n, hread⟩
    refine ⟨Classical.byContradiction fun hopen => ?_, ?_⟩
    · rw [string_extend hahead fun n hn => hopen ⟨n, hn⟩] at hread
      exact hnot k n hread
    · rintro ⟨quote, v, hquote, rfl, hv⟩
      obtain ⟨m, hm, -⟩ := Reading.after_eq_token.1 hread
      exact hv.not_token hquote t k m hm
  · rintro ⟨⟨n, hopen⟩, hcloses⟩
    obtain ⟨quote, v, hquote, rfl⟩ := stringAhead_iff.1 hahead
    obtain ⟨m, hm, -⟩ := Reading.after_eq_openString.1 hopen
    rcases stringRest_fill hquote hm with ⟨t, ht⟩ | hoverflows
    · have hcomplete := (string_complete ⟨quote, _, hquote, rfl, ht⟩ []).2
      rw [List.append_nil] at hcomplete
      exact ⟨t, _, _, hcomplete⟩
    · exact absurd ⟨quote, v, hquote, rfl, hoverflows⟩ hcloses

/-! ### Comments that can be completed -/

/-- A star and a slash complete every comment. -/
theorem multiLineComment_fill {cs : List Char} (hahead : multiLineCommentAhead cs = true) :
    ∃ n, multiLineComment (cs ++ ['*', '/']) = .token .multiLineComment n := by
  have hbody : ∀ cs, ∃ n, commentBody (cs ++ ['*', '/']) = .token .multiLineComment n := by
    intro cs
    fun_induction commentBody cs with
    | case1 => exact ⟨2, rfl⟩
    | case2 cs => exact ⟨2, rfl⟩
    | case3 c cs hopen ih =>
      obtain ⟨n, hn⟩ := ih
      have hopen' : ∀ r, c = '*' → cs ++ ['*', '/'] = '/' :: r → False := by
        rintro r rfl hcs
        cases cs with
        | nil => simp at hcs
        | cons d cs =>
          obtain ⟨rfl, -⟩ := List.cons.inj hcs
          exact hopen cs rfl rfl
      exact ⟨1 + n, by rw [List.cons_append, commentBody.eq_3 _ _ hopen', hn]; rfl⟩
  unfold multiLineCommentAhead at hahead
  split at hahead
  · next cs =>
    obtain ⟨n, hn⟩ := hbody cs
    exact ⟨2 + n, by rw [List.cons_append, List.cons_append, multiLineComment, hn]; rfl⟩
  · simp at hahead

end JsLexer.Lexeme
