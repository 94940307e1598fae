import JsLexer.CharClass

/-!
How the classes of code points relate.

The digits are few and lie among the first 128 code points, so what holds of them is checked there
one by one. No digit of any base separates tokens, and every one of them continues a name. The
separators are few as well, so they are listed, and none of them is part of a name.
-/

namespace JsLexer

theorem toNat_of_isHexDigit {c : Char} (h : isHexDigit c = true) : c.toNat < 128 := by
  have hle : ∀ d : Char, c ≤ d → c.toNat ≤ d.toNat := fun _ hd => hd
  simp only [isHexDigit, hexValue?, Bool.and_eq_true, decide_eq_true_eq] at h
  split at h
  · next hc => exact Nat.lt_of_le_of_lt (hle _ hc.2) (by decide)
  · split at h
    · next hc => exact Nat.lt_of_le_of_lt (hle _ hc.2) (by decide)
    · split at h
      · next hc => exact Nat.lt_of_le_of_lt (hle _ hc.2) (by decide)
      · simp at h

/-- What holds of the hexadecimal digits among the first 128 code points holds of all. -/
theorem of_isHexDigit {p : Char → Bool}
    (hall : ∀ n < 128, isHexDigit (Char.ofNat n) = true → p (Char.ofNat n) = true) {c : Char}
    (h : isHexDigit c = true) : p c = true := by
  rw [← Char.ofNat_toNat c] at h ⊢
  exact hall _ (toNat_of_isHexDigit (Char.ofNat_toNat c ▸ h)) h

theorem isSeparator_of_isHexDigit {c : Char} (h : isHexDigit c = true) : isSeparator c = false := by
  simpa using of_isHexDigit (p := (!isSeparator ·)) (by decide +kernel) h

theorem isNamePart_of_isHexDigit {c : Char} (h : isHexDigit c = true) : isNamePart c = true :=
  of_isHexDigit (by decide +kernel) h

theorem isHexDigit_of_isDecimalDigit {c : Char} (h : isDecimalDigit c = true) :
    isHexDigit c = true := by
  rw [isDecimalDigit] at h
  rw [isHexDigit, hexValue?, if_pos h]
  rfl

theorem isHexDigit_of_isOctalDigit {c : Char} (h : isOctalDigit c = true) :
    isHexDigit c = true := by
  refine isHexDigit_of_isDecimalDigit ?_
  simp only [isOctalDigit, isDecimalDigit, Bool.and_eq_true, decide_eq_true_eq] at h ⊢
  exact ⟨h.1, Char.le_trans h.2 (by decide)⟩

theorem isHexDigit_of_isBinaryDigit {c : Char} (h : isBinaryDigit c = true) :
    isHexDigit c = true := by
  simp only [isBinaryDigit, Bool.or_eq_true, beq_iff_eq] at h
  rcases h with rfl | rfl <;> decide

/-! ### Separators -/

namespace Text

/-- A number in a row lies in one of its ranges. -/
theorem exists_range_of_rowHas {n : Nat} {ranges : List (Nat × Nat)}
    (h : RangeTable.rowHas n ranges = true) : ∃ r ∈ ranges, r.1 ≤ n ∧ n ≤ r.2 := by
  induction ranges with
  | nil => simp [RangeTable.rowHas] at h
  | cons r ranges ih =>
    rw [RangeTable.rowHas] at h
    split at h
    · simp at h
    · next hfirst =>
      rw [Bool.or_eq_true, decide_eq_true_eq] at h
      rcases h with hlast | hlater
      · exact ⟨r, List.mem_cons_self, Nat.le_of_not_lt hfirst, hlast⟩
      · obtain ⟨r', hr', hn⟩ := ih hlater
        exact ⟨r', List.mem_cons_of_mem r hr', hn⟩

end Text

/-- The code points that separate tokens, by number. -/
def separators : List Nat :=
  0xfeff :: Text.blankRanges.flatMap fun r => List.range' r.1 (r.2 + 1 - r.1)

theorem isBlank_of_isLineTerminator {c : Char} (h : isLineTerminator c = true) :
    Text.isBlank c = true := by
  unfold isLineTerminator at h
  split at h
  · decide
  · decide
  · decide
  · decide
  · simp at h

theorem toNat_mem_separators {c : Char} (h : isSeparator c = true) : c.toNat ∈ separators := by
  have hblank : c = '\ufeff' ∨ Text.isBlank c = true := by
    simp only [isSeparator, isWhitespace, Bool.or_eq_true, Bool.and_eq_true, beq_iff_eq] at h
    rcases h with (hmark | hwhite) | hbreak
    · exact .inl hmark
    · exact .inr hwhite.1
    · exact .inr (isBlank_of_isLineTerminator hbreak)
  rcases hblank with rfl | hblank
  · decide
  · obtain ⟨r, hr, hfirst, hlast⟩ := Text.exists_range_of_rowHas hblank
    refine List.mem_cons_of_mem _ (List.mem_flatMap.2 ⟨r, hr, ?_⟩)
    rw [List.mem_range'_1]
    omega

/-- What holds of the separators one by one holds of all. -/
theorem of_isSeparator {p : Char → Bool} (hall : separators.all (fun n => p (Char.ofNat n)) = true)
    {c : Char} (h : isSeparator c = true) : p c = true := by
  rw [← Char.ofNat_toNat c]
  exact List.all_eq_true.1 hall _ (toNat_mem_separators h)

theorem isNamePart_of_isSeparator {c : Char} (h : isSeparator c = true) : isNamePart c = false := by
  simpa using of_isSeparator (p := (!isNamePart ·)) (by decide +kernel) h

end JsLexer
