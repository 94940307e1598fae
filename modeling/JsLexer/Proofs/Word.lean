import JsLexer.Proofs.Ending
import JsLexer.Proofs.Escape

/-!
The texts of names and of the words that are literals.

A name is a sequence of units, so its reader is compared with that sequence unit by unit. The words
`true`, `false` and `null` spell names, too, and this is the only way in which a name and a literal
can start with the same text: such a word stands ahead of a name only if it is the whole name.
-/

namespace JsLexer.Lexeme

/-! ### Names -/

/-- A code point of the class, or an escape. -/
inductive IsNameUnit (unescaped : Char → Bool) : List Char → Prop
  | plain {c : Char} : unescaped c = true → IsNameUnit unescaped [c]
  | escaped {e : List Char} : IsEscape e → IsNameUnit unescaped ('\\' :: 'u' :: e)

/-- Units that continue a name. -/
inductive IsNameRest : List Char → Prop
  | nil : IsNameRest []
  | unit {u w : List Char} : IsNameUnit isNamePart u → IsNameRest w → IsNameRest (u ++ w)

/-- A unit that starts a name, and units that continue it. -/
def IsName (w : List Char) : Prop :=
  ∃ u v, w = u ++ v ∧ IsNameUnit isNameStart u ∧ IsNameRest v

theorem nameUnit_sound {unescaped : Char → Bool} {n : Nat} {cs : List Char}
    (h : nameUnit unescaped cs = .complete n) :
    ∃ u r, cs = u ++ r ∧ n = u.length ∧ IsNameUnit unescaped u := by
  unfold nameUnit at h
  split at h
  · simp at h
  · obtain ⟨l, hl, rfl⟩ := after_eq_complete.1 h
    obtain ⟨e, r, rfl, rfl, he⟩ := unicodeEscape_sound hl
    exact ⟨'\\' :: 'u' :: e, r, rfl, by simp only [List.length_cons]; omega, .escaped he⟩
  · simp at h
  · next c r _ _ =>
    split at h
    · next hc =>
      obtain rfl := EscapeReading.complete.inj h
      exact ⟨[c], r, rfl, rfl, .plain hc⟩
    · simp at h

theorem nameUnit_complete {unescaped : Char → Bool} {u : List Char}
    (hbackslash : unescaped '\\' = false) (h : IsNameUnit unescaped u) (r : List Char) :
    nameUnit unescaped (u ++ r) = .complete u.length := by
  cases h with
  | @plain c hc =>
    have hne : c ≠ '\\' := by
      rintro rfl
      simp [hbackslash] at hc
    simp [nameUnit, hne, hc]
  | @escaped e he =>
    have hread := unicodeEscape_complete he r
    simp only [nameUnit, List.cons_append, hread, EscapeReading.after, List.length_cons]
    rw [Nat.add_comm]

theorem isNamePart_backslash : isNamePart '\\' = false := by decide

theorem isNameStart_backslash : isNameStart '\\' = false := by decide

/-- Claimed code points are passed without a look. -/
theorem nameRest_append (u cs : List Char) :
    nameRest u.length (u ++ cs) = (nameRest 0 cs).after u.length := by
  induction u with
  | nil => simp
  | cons c u ih =>
    rw [List.length_cons, List.cons_append, nameRest, ih, Reading.after_after, Nat.add_comm]

theorem nameRest_unit {u : List Char} (h : IsNameUnit isNamePart u) (cs : List Char) :
    nameRest 0 (u ++ cs) = (nameRest 0 cs).after u.length := by
  have hread := nameUnit_complete isNamePart_backslash h cs
  rw [← nameRest_append]
  cases h with
  | plain hc => simp_all [nameRest]
  | escaped he => simp_all [nameRest, escapeAhead]

theorem nameRest_sound {k : TokenKind} {n : Nat} {cs : List Char}
    (h : nameRest 0 cs = .token k n) :
    ∃ w r, cs = w ++ r ∧ n = w.length ∧ k = .identifierName ∧ IsNameRest w ∧
      TokenKind.identifierName.endsBefore w r = true := by
  induction hlength : cs.length using Nat.strongRecOn generalizing cs n with
  | ind length ih =>
    subst hlength
    cases cs with
    | nil =>
      obtain ⟨rfl, rfl⟩ : _ = k ∧ 0 = n := by simpa [nameRest] using h
      exact ⟨[], [], rfl, rfl, rfl, .nil, rfl⟩
    | cons c cs =>
      have hread := h
      rw [nameRest] at hread
      split at hread
      · split at hread
        · next hunit =>
          obtain ⟨u, r, hcs, -, hu⟩ := nameUnit_sound hunit
          rw [hcs, nameRest_unit hu] at h
          obtain ⟨m, hm, rfl⟩ := Reading.after_eq_token.1 h
          have hpos : 0 < u.length := by cases hu <;> simp
          obtain ⟨w, r', rfl, rfl, hk, hw, hr⟩ :=
            ih r.length (by rw [hcs, List.length_append]; omega) hm rfl
          refine ⟨u ++ w, r', by rw [hcs, List.append_assoc], by simp, hk, .unit hu hw, ?_⟩
          rwa [TokenKind.endsBefore_congr (by decide) _ w]
        all_goals simp at hread
      · next hstop =>
        obtain ⟨rfl, rfl⟩ := Reading.token.inj hread
        exact ⟨[], c :: cs, rfl, rfl, rfl, .nil, by simpa [TokenKind.endsBefore] using hstop⟩

theorem nameRest_units {w : List Char} (h : IsNameRest w) (cs : List Char) :
    nameRest 0 (w ++ cs) = (nameRest 0 cs).after w.length := by
  induction h with
  | nil => simp
  | unit hu _ ih =>
    rw [List.append_assoc, nameRest_unit hu, ih, Reading.after_after, List.length_append]

theorem nameRest_stop {w r : List Char} (hr : TokenKind.identifierName.endsBefore w r = true) :
    nameRest 0 r = .token .identifierName 0 := by
  cases r with
  | nil => rfl
  | cons c r => rw [nameRest, if_neg (by simpa [TokenKind.endsBefore] using hr)]

theorem name_sound {k : TokenKind} {n : Nat} {cs : List Char} (h : name cs = .token k n) :
    ∃ w r, cs = w ++ r ∧ n = w.length ∧ (k = .identifierName ∧ IsName w) ∧
      k.endsBefore w r = true := by
  unfold name at h
  split at h
  · next hunit =>
    obtain ⟨u, r, rfl, rfl, hu⟩ := nameUnit_sound hunit
    rw [nameRest_append] at h
    obtain ⟨m, hm, rfl⟩ := Reading.after_eq_token.1 h
    obtain ⟨w, r', rfl, rfl, rfl, hw, hr⟩ := nameRest_sound hm
    refine ⟨u ++ w, r', by simp, by simp, ⟨rfl, u, w, rfl, hu, hw⟩, ?_⟩
    rwa [TokenKind.endsBefore_congr (by decide) _ w]
  all_goals simp at h

/-- A name is passed whatever follows it, and then what follows may continue it. -/
theorem name_append {w : List Char} (h : IsName w) (cs : List Char) :
    name (w ++ cs) = (nameRest 0 cs).after w.length := by
  obtain ⟨u, v, rfl, hu, hv⟩ := h
  rw [List.append_assoc, name, nameUnit_complete isNameStart_backslash hu]
  dsimp only
  rw [nameRest_append, nameRest_units hv, Reading.after_after, List.length_append]

theorem name_complete {w r : List Char} (h : IsName w)
    (hr : TokenKind.identifierName.endsBefore w r = true) :
    name (w ++ r) = .token .identifierName w.length := by
  rw [name_append h, nameRest_stop hr]
  rfl

/-! ### Words that are literals -/

/-- The words that are literals, by kind. -/
def literalWords : List (TokenKind × List Char) :=
  [(.trueLiteral, trueWord), (.falseLiteral, falseWord), (.nullLiteral, nullWord)]

theorem mem_literalWords {k : TokenKind} {w : List Char} : (k, w) ∈ literalWords ↔
    k = .trueLiteral ∧ w = trueWord ∨ k = .falseLiteral ∧ w = falseWord ∨
      k = .nullLiteral ∧ w = nullWord := by
  simp [literalWords]

/-- Where such a word ends. -/
theorem endsBefore_literal {k : TokenKind} {w : List Char} (h : (k, w) ∈ literalWords)
    (r : List Char) : k.endsBefore w r = r.head?.all (!continuesWord ·) := by
  rcases mem_literalWords.1 h with ⟨rfl, -⟩ | ⟨rfl, -⟩ | ⟨rfl, -⟩ <;> cases r <;> rfl

theorem wordAhead_iff {word cs : List Char} : wordAhead word cs = true ↔
    ∃ r, cs = word ++ r ∧ r.head?.all (!continuesWord ·) = true := by
  rw [wordAhead, Bool.and_eq_true, List.isPrefixOf_iff_prefix]
  constructor
  · rintro ⟨⟨r, rfl⟩, hr⟩
    refine ⟨r, rfl, ?_⟩
    cases r <;> simp_all
  · rintro ⟨r, rfl, hr⟩
    refine ⟨List.prefix_append word r, ?_⟩
    cases r <;> simp_all

theorem boolean_sound {k : TokenKind} {n : Nat} {cs : List Char} (hahead : booleanAhead cs = true)
    (h : boolean cs = .token k n) :
    ∃ w r, cs = w ++ r ∧ n = w.length ∧
      (k = .trueLiteral ∧ w = trueWord ∨ k = .falseLiteral ∧ w = falseWord) ∧
      k.endsBefore w r = true := by
  rw [booleanAhead, Bool.or_eq_true, wordAhead_iff, wordAhead_iff] at hahead
  rcases hahead with ⟨r, rfl, hr⟩ | ⟨r, rfl, hr⟩
  · obtain ⟨rfl, rfl⟩ : _ = k ∧ trueWord.length = n := by simpa [boolean, word] using h
    exact ⟨trueWord, r, rfl, rfl, .inl ⟨rfl, rfl⟩, by rwa [endsBefore_literal (by decide)]⟩
  · obtain ⟨rfl, rfl⟩ : _ = k ∧ falseWord.length = n := by
      simpa [boolean, word, falseWord, trueWord] using h
    exact ⟨falseWord, r, rfl, rfl, .inr ⟨rfl, rfl⟩, by rwa [endsBefore_literal (by decide)]⟩

theorem boolean_complete {k : TokenKind} {w r : List Char}
    (h : k = .trueLiteral ∧ w = trueWord ∨ k = .falseLiteral ∧ w = falseWord)
    (hr : k.endsBefore w r = true) :
    booleanAhead (w ++ r) = true ∧ boolean (w ++ r) = .token k w.length := by
  rcases h with ⟨rfl, rfl⟩ | ⟨rfl, rfl⟩ <;> rw [endsBefore_literal (by decide)] at hr
  · have hword : wordAhead trueWord (trueWord ++ r) = true := wordAhead_iff.2 ⟨r, rfl, hr⟩
    exact ⟨by rw [booleanAhead, hword, Bool.true_or], by simp [boolean, word]⟩
  · have hword : wordAhead falseWord (falseWord ++ r) = true := wordAhead_iff.2 ⟨r, rfl, hr⟩
    exact ⟨by rw [booleanAhead, hword, Bool.or_true],
      by simp [boolean, word, falseWord, trueWord]⟩

theorem null_sound {k : TokenKind} {n : Nat} {cs : List Char} (hahead : nullAhead cs = true)
    (h : null cs = .token k n) :
    ∃ w r, cs = w ++ r ∧ n = w.length ∧ (k = .nullLiteral ∧ w = nullWord) ∧
      k.endsBefore w r = true := by
  obtain ⟨r, rfl, hr⟩ := wordAhead_iff.1 hahead
  obtain ⟨rfl, rfl⟩ : _ = k ∧ nullWord.length = n := by simpa [null, word] using h
  exact ⟨nullWord, r, rfl, rfl, ⟨rfl, rfl⟩, by rwa [endsBefore_literal (by decide)]⟩

theorem null_complete {r : List Char} (hr : TokenKind.nullLiteral.endsBefore nullWord r = true) :
    nullAhead (nullWord ++ r) = true ∧
      null (nullWord ++ r) = .token .nullLiteral nullWord.length := by
  rw [endsBefore_literal (by decide)] at hr
  exact ⟨wordAhead_iff.2 ⟨r, rfl, hr⟩, by simp [null, word]⟩

/-! ### Words ahead of names -/

theorem IsNameRest.head {c : Char} {w : List Char} (h : IsNameRest (c :: w)) :
    continuesWord c = true := by
  generalize hv : c :: w = v at h
  induction h with
  | nil => simp at hv
  | unit hu _ _ => cases hu <;> simp_all [continuesWord]

theorem IsNameRest.tail {c : Char} {w : List Char} (h : IsNameRest (c :: w))
    (hc : isNamePart c = true) : IsNameRest w := by
  generalize hv : c :: w = v at h
  induction h with
  | nil => simp at hv
  | unit hu hrest _ =>
    cases hu with
    | plain _ =>
      obtain ⟨-, rfl⟩ := List.cons.inj hv
      exact hrest
    | escaped _ =>
      obtain ⟨rfl, -⟩ := List.cons.inj hv
      simp [isNamePart_backslash] at hc

theorem IsNameRest.of_append {u w : List Char} (h : IsNameRest (u ++ w))
    (hu : ∀ c ∈ u, isNamePart c = true) : IsNameRest w := by
  induction u with
  | nil => exact h
  | cons c u ih =>
    obtain ⟨hc, hu⟩ := List.forall_mem_cons.1 hu
    exact ih (h.tail hc) hu

theorem IsName.rest {w : List Char} (h : IsName w) : IsNameRest w := by
  obtain ⟨u, v, rfl, hu, hv⟩ := h
  refine .unit ?_ hv
  cases hu with
  | plain hc => exact .plain (by simp [isNamePart, hc])
  | escaped he => exact .escaped he

theorem isNameRest_of_forall {w : List Char} (h : ∀ c ∈ w, isNamePart c = true) :
    IsNameRest w := by
  induction w with
  | nil => exact .nil
  | cons c w ih =>
    obtain ⟨hc, hw⟩ := List.forall_mem_cons.1 h
    exact .unit (.plain hc) (ih hw)

theorem isNamePart_of_mem_literalWords {k : TokenKind} {word : List Char}
    (h : (k, word) ∈ literalWords) : ∀ c ∈ word, isNamePart c = true := by
  have hall : literalWords.all (fun entry => entry.2.all isNamePart) = true := by decide +kernel
  exact List.all_eq_true.1 (List.all_eq_true.1 hall _ h)

/-- The words that are literals spell names. -/
theorem isName_of_mem_literalWords {k : TokenKind} {word : List Char}
    (h : (k, word) ∈ literalWords) : IsName word := by
  have hall : literalWords.all (fun entry => entry.2.head?.any isNameStart) = true := by
    decide +kernel
  have hstart : word.head?.any isNameStart = true := List.all_eq_true.1 hall _ h
  cases word with
  | nil => simp at hstart
  | cons c w =>
    have hrest := List.forall_mem_cons.1 (isNamePart_of_mem_literalWords h)
    exact ⟨[c], w, rfl, .plain hstart, isNameRest_of_forall hrest.2⟩

/-- Where a literal word ends, a name ends as well. -/
theorem endsBefore_name {w r : List Char} (h : r.head?.all (!continuesWord ·) = true) :
    TokenKind.identifierName.endsBefore w r = true := by
  cases r with
  | nil => rfl
  | cons c r =>
    have hc : c ≠ '\\' ∧ isNamePart c = false := by simpa [continuesWord] using h
    simp [TokenKind.endsBefore, escapeAhead, hc]

/-- A literal stands ahead of a name only if it is the whole name. -/
theorem wordAhead_name {k : TokenKind} {word w r : List Char} (hword : (k, word) ∈ literalWords)
    (hw : IsName w) (hr : TokenKind.identifierName.endsBefore w r = true) :
    wordAhead word (w ++ r) = true ↔ w = word ∧ r.head?.all (!continuesWord ·) = true := by
  rw [wordAhead_iff]
  constructor
  · rintro ⟨r', hcs, hr'⟩
    rcases List.append_eq_append_iff.1 hcs with ⟨v, rfl, rfl⟩ | ⟨v, rfl, rfl⟩
    · -- the word would reach past the name
      cases v with
      | nil => exact ⟨(List.append_nil w).symm, hr'⟩
      | cons c v =>
        have hc := isNamePart_of_mem_literalWords hword c (by simp)
        simp [TokenKind.endsBefore, hc] at hr
    · -- the name would reach past the word
      have hrest := hw.rest.of_append (isNamePart_of_mem_literalWords hword)
      cases v with
      | nil => exact ⟨List.append_nil word, hr'⟩
      | cons c v => simp [hrest.head] at hr'
  · rintro ⟨rfl, hr'⟩
    exact ⟨r, rfl, hr'⟩

end JsLexer.Lexeme
