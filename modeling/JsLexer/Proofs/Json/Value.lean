import JsLexer.Json.Layout
import JsLexer.Json.Record
import JsLexer.Proofs.Json.Spelling

/-!
Strings and numbers are read back.

What a reader makes of a written value may depend on what stands behind it: a number goes on as
long as there are digits. The layout puts nothing, a comma or a new line behind a value, and there
every string and every number of 64 bits is read as what was written, up to its last code point.
-/

namespace JsLexer.Json

variable {α β : Type}

/-! ### What is read back -/

/-- What the layout puts behind a value. -/
def Behind : List Char → Prop
  | [] => True
  | c :: _ => c = ',' ∨ c = '\n'

theorem Behind.delimited {rest : List Char} (h : Behind rest) : Delimited rest := by
  match rest, h with
  | [], _ => simp [Delimited]
  | _ :: _, .inl rfl => exact delimited_cons (by simp) _
  | _ :: _, .inr rfl => simp [Delimited]

/-- A written value means `a` to a reader, at every depth and with blanks in front of it. It starts
with a sign that a list does not take for a blank or for its end. -/
structure ReadsBack (read : List Char → Parsed α) (written : Written) (a : α) : Prop where
  starts : ∀ depth, ∃ c cs, written depth = c :: cs ∧ isBlank c = false ∧ c ≠ ']'
  reads : ∀ (depth : Nat) {cs rest : List Char}, Behind rest →
    skipBlanks cs = written depth ++ rest → read cs = .ok (a, rest)

theorem skipBlanks_cons {c : Char} (h : isBlank c = false) (cs : List Char) :
    skipBlanks (c :: cs) = c :: cs := by
  simp [skipBlanks, h]

theorem skipBlanks_append {blanks : List Char} (h : ∀ c ∈ blanks, isBlank c = true)
    (cs : List Char) : skipBlanks (blanks ++ cs) = skipBlanks cs := by
  induction blanks with
  | nil => rfl
  | cons c blanks ih =>
    obtain ⟨hc, hblanks⟩ := List.forall_mem_cons.1 h
    simpa [skipBlanks, hc] using ih hblanks

namespace ReadsBack

variable {read : List Char → Parsed α} {written : Written} {a : α}

theorem skipBlanks_written (h : ReadsBack read written a) (depth : Nat) (rest : List Char) :
    skipBlanks (written depth ++ rest) = written depth ++ rest := by
  obtain ⟨c, cs, hw, hc, -⟩ := h.starts depth
  rw [hw, List.cons_append, skipBlanks_cons hc]

/-- A reader that goes on to use the value still reads it back. -/
theorem map (h : ReadsBack read written a) (f : α → β) :
    ReadsBack (fun cs => (read cs).map fun (a, rest) => (f a, rest)) written (f a) where
  starts := h.starts
  reads depth _ _ hrest hcs := by simp [h.reads depth hrest hcs, Except.map]

theorem decode (h : ReadsBack read written a) : Json.decode read (render written) = .ok a := by
  have hread : read (written 0) = .ok (a, []) :=
    h.reads 0 trivial (by simpa using h.skipBlanks_written 0 [])
  simp [Json.decode, render, hread, skipBlanks]

end ReadsBack

/-! ### Strings -/

theorem hexValue?_digitChar : ∀ n < 16, hexValue? (Nat.digitChar n) = some n := by decide

/-- A control character is the character that its escape by number names. -/
theorem numberEscape_control {c : Char} (h : c.toNat < 0x20) (rest : List Char) :
    numberEscape ('0' :: '0' :: Nat.digitChar (c.toNat / 16) :: Nat.digitChar (c.toNat % 16) ::
      rest) = .ok (c, 4) := by
  have hunit : fourHex ('0' :: '0' :: Nat.digitChar (c.toNat / 16) ::
      Nat.digitChar (c.toNat % 16) :: rest) = .ok c.toNat := by
    have h0 : hexValue? '0' = some 0 := rfl
    have hsum : c.toNat / 16 * 16 + c.toNat % 16 = c.toNat := by omega
    simp [fourHex, h0, hexValue?_digitChar _ (show c.toNat / 16 < 16 by omega),
      hexValue?_digitChar _ (show c.toNat % 16 < 16 by omega), hsum]
  have hleading : isLeading c.toNat = false := by simp [isLeading]; omega
  have htrailing : isTrailing c.toNat = false := by simp [isTrailing]; omega
  simp [numberEscape, hunit, hleading, htrailing]

theorem stringRest_escape (c : Char) (cs : List Char) :
    stringRest 0 (escape c ++ cs) = (stringRest 0 cs).map fun (s, rest) => (c :: s, rest) := by
  unfold escape
  -- the seven that have an escape of their own
  iterate 7
    split
    · next h => subst h; rfl
  next hquote hbackslash _ _ _ _ _ =>
  split
  · next hcontrol =>
    simp [stringRest, escapeAhead, numberEscape_control hcontrol, Except.map]
  · next hcontrol =>
    simp [stringRest, hquote, hbackslash, hcontrol]

theorem stringRest_flatMap_escape (s rest : List Char) :
    stringRest 0 (s.flatMap escape ++ '"' :: rest) = .ok (s, rest) := by
  induction s with
  | nil => rfl
  | cons c s ih =>
    rw [List.flatMap_cons, List.append_assoc, stringRest_escape, ih]
    rfl

theorem stringAhead_string (s : String) (rest : List Char) :
    stringAhead (s.toList.flatMap escape ++ '"' :: rest) = .ok (s, rest) := by
  simp [stringAhead, stringRest_flatMap_escape, Except.map]

theorem string_append (s : String) (rest : List Char) :
    string s ++ rest = '"' :: (s.toList.flatMap escape ++ '"' :: rest) := by
  simp [string]

theorem readsBack_text (wanted s : String) : ReadsBack (readString wanted) (text s) s where
  starts _ := ⟨'"', _, rfl, by decide, by decide⟩
  reads depth cs rest _ hcs := by
    rw [text, string_append] at hcs
    simp [readString, hcs, stringAhead_string]

/-! ### Numbers -/

theorem isDecimalDigit_of_mem_toDigits {n : Nat} {c : Char} (h : c ∈ Nat.toDigits 10 n) :
    isDecimalDigit c = true := by
  simpa [isDecimalDigit, Char.isDigit, Char.le_def] using
    Nat.isDigit_of_mem_toDigits (by decide) (by decide) h

theorem ne_of_isDecimalDigit {c d : Char} (hc : isDecimalDigit c = true)
    (hd : isDecimalDigit d = false) : c ≠ d := by
  rintro rfl
  simp [hc] at hd

theorem isBlank_of_isDecimalDigit {c : Char} (hc : isDecimalDigit c = true) :
    isBlank c = false := by
  cases hblank : isBlank c with
  | false => rfl
  | true =>
    simp only [isBlank, Bool.or_eq_true, beq_iff_eq] at hblank
    rcases hblank with ((rfl | rfl) | rfl) | rfl <;> exact absurd hc (by decide)

theorem toDigits_starts (n : Nat) :
    ∃ d ds, Nat.toDigits 10 n = d :: ds ∧ isDecimalDigit d = true := by
  cases hdigits : Nat.toDigits 10 n with
  | nil => exact absurd hdigits Nat.toDigits_ne_nil
  | cons d ds => exact ⟨d, ds, rfl, isDecimalDigit_of_mem_toDigits (hdigits ▸ List.mem_cons_self)⟩

/-- Only zero is written with a zero in front. -/
theorem head?_toDigits_ne_zero {n : Nat} (h : n ≠ 0) : (Nat.toDigits 10 n).head? ≠ some '0' := by
  induction n using Nat.strongRecOn with
  | ind n ih =>
    rw [Nat.toDigits_eq_if (by decide)]
    split
    · simpa using h
    · rw [List.head?_append, Option.or_of_isSome (by simp)]
      exact ih (n / 10) (by omega) (by omega)

theorem le_ofDigitChars (value : Nat) (ds : List Char) : value ≤ Nat.ofDigitChars 10 ds value := by
  rw [Nat.ofDigitChars_eq_ofDigitChars_zero]
  exact Nat.le_add_right_of_le (Nat.le_mul_of_pos_left _ (Nat.pow_pos (by decide)))

/-- Digits whose number fits into 64 bits are all taken. -/
theorem absorb_of_le {value : Nat} {ds : List Char}
    (h : Nat.ofDigitChars 10 ds value ≤ maxUnsigned) :
    absorb value ds = (Nat.ofDigitChars 10 ds value, ds.length) := by
  induction ds generalizing value with
  | nil => rfl
  | cons d ds ih =>
    rw [Nat.ofDigitChars_cons, Nat.mul_comm] at h ⊢
    have hlonger := Nat.le_trans (le_ofDigitChars _ ds) h
    simp only [absorb, if_pos hlonger, ih h, List.length_cons]

theorem Delimited.digitAhead {rest : List Char} (h : Delimited rest) : digitAhead rest = false := by
  cases rest with
  | nil => rfl
  | cons c rest =>
    have hmem := h c rfl
    simp only [List.mem_cons, List.not_mem_nil, or_false] at hmem
    rcases hmem with rfl | rfl | rfl | rfl | rfl | rfl | rfl <;> rfl

/-- Digits are taken up to the first code point that is none. -/
theorem digitsAhead_append {ds rest : List Char} (hds : ∀ c ∈ ds, isDecimalDigit c = true)
    (h : digitAhead rest = false) : digitsAhead (ds ++ rest) = (ds, rest) := by
  have hrest : rest.takeWhile isDecimalDigit = [] ∧ rest.dropWhile isDecimalDigit = rest := by
    cases rest with
    | nil => exact ⟨rfl, rfl⟩
    | cons c rest =>
      have hc : isDecimalDigit c = false := by simpa [Json.digitAhead] using h
      simp [hc]
  rw [digitsAhead, List.takeWhile_append_of_pos hds, List.dropWhile_append_of_pos hds, hrest.1,
    hrest.2, List.append_nil]

/-- There is no zero in front of other digits. -/
theorem not_zero_toDigits (n : Nat) :
    ¬ ((Nat.toDigits 10 n).head? = some '0' ∧ 1 < (Nat.toDigits 10 n).length) := by
  rintro ⟨hhead, hlength⟩
  by_cases hn : n = 0
  · simp [hn] at hlength
  · exact head?_toDigits_ne_zero hn hhead

/-- A number that is neither cut into fraction or exponent nor too large is read as an integer. -/
theorem numberAhead_toDigits {n : Nat} (hn : n ≤ maxUnsigned) {rest : List Char}
    (h : Delimited rest) :
    numberAhead false (Nat.toDigits 10 n ++ rest) = .ok (.natural n, rest) := by
  have hzero := not_zero_toDigits n
  have habsorb : absorb 0 (Nat.toDigits 10 n) = (n, (Nat.toDigits 10 n).length) := by
    have hvalue : Nat.ofDigitChars 10 (Nat.toDigits 10 n) 0 ≤ maxUnsigned := by simpa using hn
    simpa using absorb_of_le hvalue
  rw [numberAhead, digitsAhead_append (fun _ => isDecimalDigit_of_mem_toDigits) h.digitAhead]
  obtain ⟨d, ds, hdigits, -⟩ := toDigits_starts n
  rw [hdigits] at hzero habsorb ⊢
  simp only [if_neg hzero, habsorb]
  cases rest with
  | nil => simp [integerOf]
  | cons c rest =>
    have hmem := h c rfl
    simp only [List.mem_cons, List.not_mem_nil, or_false] at hmem
    rcases hmem with rfl | rfl | rfl | rfl | rfl | rfl | rfl <;> simp [integerOf]

theorem readCount_toDigits {n : Nat} (hn : n ≤ maxUnsigned) {cs rest : List Char}
    (h : Delimited rest) (hcs : skipBlanks cs = Nat.toDigits 10 n ++ rest) :
    readCount cs = .ok (n, rest) := by
  obtain ⟨d, ds, hdigits, hd⟩ := toDigits_starts n
  have hnumber := numberAhead_toDigits hn h
  rw [hdigits, List.cons_append] at hcs hnumber
  rw [readCount, hcs]
  split
  · next heq => exact absurd (List.cons.inj heq).1 (ne_of_isDecimalDigit hd (by decide))
  · simp [digitAhead, hd, hnumber, countOf]

theorem readsBack_natural {n : Nat} (hn : n ≤ maxUnsigned) :
    ReadsBack readCount (natural n) n where
  starts _ := by
    obtain ⟨d, ds, hdigits, hd⟩ := toDigits_starts n
    exact ⟨d, ds, hdigits, isBlank_of_isDecimalDigit hd, ne_of_isDecimalDigit hd (by decide)⟩
  reads _ _ _ hrest hcs := readCount_toDigits hn hrest.delimited hcs

end JsLexer.Json
