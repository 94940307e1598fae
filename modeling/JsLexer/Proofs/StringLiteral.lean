import JsLexer.Lexeme.StringLiteral
import JsLexer.Proofs.Ending
import JsLexer.Proofs.Escape

/-!
The texts of string literals.

A string is a quote, units, and the same quote. Reading a string goes unit by unit, with one
exception: a carriage return behind a backslash takes a line feed along, which would be a unit of
its own. As line feeds are plain units, this reads the same text.
-/

namespace JsLexer.Lexeme

/-- A code point that stands for itself, or a backslash and what belongs to it. -/
inductive IsStringUnit (quote : Char) : List Char → Prop
  | plain {c : Char} : c ≠ quote → c ≠ '\\' → IsStringUnit quote [c]
  | digit {c : Char} : isDecimalDigit c = true → IsStringUnit quote ['\\', '0', c]
  | byte {ds : List Char} : ds.length = 2 → (∀ c ∈ ds, isHexDigit c = true) →
      IsStringUnit quote ('\\' :: 'x' :: ds)
  | number {e : List Char} : IsEscape e → IsStringUnit quote ('\\' :: 'u' :: e)
  | lineBreak : IsStringUnit quote ['\\', '\r', '\n']
  | verbatim {c : Char} : (isSingleCharEscape c || isNonEscapeChar c) = true →
      IsStringUnit quote ['\\', c]

/-- Units, and the closing quote. -/
inductive IsStringRest (quote : Char) : List Char → Prop
  | close : IsStringRest quote [quote]
  | unit {u w : List Char} : IsStringUnit quote u → IsStringRest quote w →
      IsStringRest quote (u ++ w)

/-- A quote of either sort, units, and the same quote. -/
def IsString (w : List Char) : Prop :=
  ∃ quote v, (quote = '"' ∨ quote = '\'') ∧ w = quote :: v ∧ IsStringRest quote v

theorem stringEscape_sound {quote : Char} {n : Nat} {cs : List Char}
    (h : stringEscape cs = .complete n) :
    ∃ e r, cs = e ++ r ∧ n = e.length ∧ IsStringUnit quote ('\\' :: e) := by
  unfold stringEscape at h
  split at h
  · simp at h
  · simp at h
  · next c r =>
    split at h
    · next hc =>
      obtain rfl := EscapeReading.complete.inj h
      exact ⟨['0', c], r, rfl, rfl, .digit hc⟩
    · simp at h
  · obtain ⟨l, hl, rfl⟩ := after_eq_complete.1 h
    obtain ⟨ds, r, rfl, rfl, hlength, hds⟩ := hexDigits_sound hl
    exact ⟨'x' :: ds, r, rfl, Nat.add_comm .., .byte hlength hds⟩
  · obtain ⟨l, hl, rfl⟩ := after_eq_complete.1 h
    obtain ⟨e, r, rfl, rfl, he⟩ := unicodeEscape_sound hl
    exact ⟨'u' :: e, r, rfl, Nat.add_comm .., .number he⟩
  · next r =>
    obtain rfl := EscapeReading.complete.inj h
    exact ⟨['\r', '\n'], r, rfl, rfl, .lineBreak⟩
  · next r _ =>
    obtain rfl := EscapeReading.complete.inj h
    exact ⟨['\r'], r, rfl, rfl, .verbatim (by decide)⟩
  · next c r _ _ _ _ _ _ =>
    split at h
    · next hc =>
      obtain rfl := EscapeReading.complete.inj h
      exact ⟨[c], r, rfl, rfl, .verbatim hc⟩
    · simp at h

/-- Claimed code points are passed without a look. -/
theorem stringRest_append (quote : Char) (u cs : List Char) :
    stringRest quote u.length (u ++ cs) = (stringRest quote 0 cs).after u.length := by
  induction u with
  | nil => simp
  | cons c u ih =>
    rw [List.length_cons, List.cons_append, stringRest, ih, Reading.after_after, Nat.add_comm]

theorem backslash_ne {quote : Char} (h : quote = '"' ∨ quote = '\'') : '\\' ≠ quote := by
  rcases h with rfl | rfl <;> decide

theorem stringRest_escape {quote : Char} (hquote : quote = '"' ∨ quote = '\'') {e cs : List Char}
    (h : stringEscape (e ++ cs) = .complete e.length) :
    stringRest quote 0 ('\\' :: (e ++ cs)) = (stringRest quote 0 cs).after (e.length + 1) := by
  rw [stringRest, if_neg (backslash_ne hquote), if_pos rfl, h]
  dsimp only
  rw [stringRest_append, Reading.after_after, Nat.add_comm]

theorem stringRest_malformed {quote : Char} (hquote : quote = '"' ∨ quote = '\'') {n : Nat}
    {cs : List Char} (h : stringEscape cs = .malformed n) :
    stringRest quote 0 ('\\' :: cs) = .malformed (n + 1) := by
  rw [stringRest, if_neg (backslash_ne hquote), if_pos rfl, h, Nat.add_comm]

theorem stringRest_cutShort {quote : Char} (hquote : quote = '"' ∨ quote = '\'') {n : Nat}
    {cs : List Char} (h : stringEscape cs = .cutShort n) :
    stringRest quote 0 ('\\' :: cs) = .openString (n + 1) := by
  rw [stringRest, if_neg (backslash_ne hquote), if_pos rfl, h, Nat.add_comm]

theorem stringRest_unit {quote : Char} (hquote : quote = '"' ∨ quote = '\'') {u : List Char}
    (h : IsStringUnit quote u) (cs : List Char) :
    stringRest quote 0 (u ++ cs) = (stringRest quote 0 cs).after u.length := by
  have hfeed : '\n' ≠ quote := by rcases hquote with rfl | rfl <;> decide
  cases h with
  | plain hc hc' => simp [stringRest, hc, hc']
  | digit hc => exact stringRest_escape hquote (by simp [stringEscape, hc])
  | byte hlength hds =>
    refine stringRest_escape hquote ?_
    have hread := hexDigits_complete hds cs
    rw [hlength] at hread
    simp [stringEscape, hread, hlength, EscapeReading.after]
  | number he =>
    refine stringRest_escape hquote ?_
    simp [stringEscape, unicodeEscape_complete he, EscapeReading.after, Nat.add_comm]
  | lineBreak => exact stringRest_escape hquote rfl
  | @verbatim c hc =>
    by_cases hreturn : c = '\r'
    · subst hreturn
      rcases cs with _ | ⟨d, cs⟩
      · exact stringRest_escape hquote rfl
      · by_cases hd : d = '\n'
        · -- the line feed belongs to the escape, or is a plain unit: it is passed either way
          subst hd
          have hboth := @stringRest_escape quote hquote ['\r', '\n'] cs rfl
          have hplain : stringRest quote 0 ('\n' :: cs) = (stringRest quote 0 cs).after 1 := by
            simp [stringRest, hfeed]
          rw [hplain, Reading.after_after]
          exact hboth
        · refine stringRest_escape hquote ?_
          simp [stringEscape, hd]
    · have hzero : c ≠ '0' ∧ c ≠ 'x' ∧ c ≠ 'u' := by
        refine ⟨?_, ?_, ?_⟩ <;> rintro rfl <;> exact absurd hc (by decide)
      refine stringRest_escape hquote ?_
      simp [stringEscape, hreturn, hzero, hc]

/-- Behind a quote a text goes on unit by unit, until it ends, or the quote comes again, or an
escape is not complete. -/
theorem unit_induction (quote : Char) {P : List Char → Prop} (nil : P [])
    (close : ∀ cs, P (quote :: cs))
    (unit : ∀ u cs, IsStringUnit quote u → P cs → P (u ++ cs))
    (malformed : ∀ cs n, stringEscape cs = .malformed n → P ('\\' :: cs))
    (cutShort : ∀ cs n, stringEscape cs = .cutShort n → P ('\\' :: cs)) (cs : List Char) :
    P cs := by
  induction hlength : cs.length using Nat.strongRecOn generalizing cs with
  | ind length ih =>
    subst hlength
    have hunit : ∀ u r, cs = u ++ r → IsStringUnit quote u → P cs := by
      rintro u r rfl hu
      have hpos : 0 < u.length := by cases hu <;> simp
      exact unit u r hu (ih r.length (by rw [List.length_append]; omega) r rfl)
    cases cs with
    | nil => exact nil
    | cons c cs =>
      by_cases hclose : c = quote
      · exact hclose ▸ close cs
      · by_cases hbackslash : c = '\\'
        · subst hbackslash
          cases hescape : stringEscape cs with
          | complete n =>
            obtain ⟨e, r, rfl, -, he⟩ := stringEscape_sound hescape
            exact hunit ('\\' :: e) r rfl he
          | malformed n => exact malformed cs n hescape
          | cutShort n => exact cutShort cs n hescape
        · exact hunit [c] cs rfl (.plain hclose hbackslash)

theorem stringRest_sound {quote : Char} (hquote : quote = '"' ∨ quote = '\'') {k : TokenKind}
    {n : Nat} {cs : List Char} (h : stringRest quote 0 cs = .token k n) :
    ∃ w r, cs = w ++ r ∧ n = w.length ∧ k = .string ∧ IsStringRest quote w := by
  induction cs using unit_induction quote generalizing n with
  | nil => simp [stringRest] at h
  | close cs =>
    obtain ⟨rfl, rfl⟩ : _ = k ∧ 1 = n := by simpa [stringRest] using h
    exact ⟨[quote], cs, rfl, rfl, rfl, .close⟩
  | unit u cs hu ih =>
    rw [stringRest_unit hquote hu] at h
    obtain ⟨m, hm, rfl⟩ := Reading.after_eq_token.1 h
    obtain ⟨w, r, rfl, rfl, hk, hw⟩ := ih hm
    exact ⟨u ++ w, r, by simp, by simp, hk, .unit hu hw⟩
  | malformed cs m hescape => simp [stringRest_malformed hquote hescape] at h
  | cutShort cs m hescape => simp [stringRest_cutShort hquote hescape] at h

theorem stringRest_complete {quote : Char} (hquote : quote = '"' ∨ quote = '\'') {w : List Char}
    (h : IsStringRest quote w) (r : List Char) :
    stringRest quote 0 (w ++ r) = .token .string w.length := by
  induction h with
  | close => simp [stringRest]
  | unit hu _ ih =>
    rw [List.append_assoc, stringRest_unit hquote hu, ih]
    simp [Reading.after]

theorem stringAhead_iff {cs : List Char} :
    stringAhead cs = true ↔ ∃ quote v, (quote = '"' ∨ quote = '\'') ∧ cs = quote :: v := by
  constructor
  · intro h
    unfold stringAhead at h
    split at h
    · exact ⟨_, _, .inl rfl, rfl⟩
    · exact ⟨_, _, .inr rfl, rfl⟩
    · simp at h
  · rintro ⟨quote, v, rfl | rfl, rfl⟩ <;> rfl

theorem string_sound {k : TokenKind} {n : Nat} {cs : List Char} (hahead : stringAhead cs = true)
    (h : string cs = .token k n) :
    ∃ w r, cs = w ++ r ∧ n = w.length ∧ (k = .string ∧ IsString w) ∧ k.endsBefore w r = true := by
  obtain ⟨quote, cs, hquote, rfl⟩ := stringAhead_iff.1 hahead
  obtain ⟨m, hm, rfl⟩ := Reading.after_eq_token.1 h
  obtain ⟨w, r, rfl, rfl, rfl, hw⟩ := stringRest_sound hquote hm
  exact ⟨quote :: w, r, rfl, Nat.add_comm .., ⟨rfl, quote, w, hquote, rfl, hw⟩, by cases r <;> rfl⟩

theorem string_complete {w : List Char} (h : IsString w) (r : List Char) :
    stringAhead (w ++ r) = true ∧ string (w ++ r) = .token .string w.length := by
  obtain ⟨quote, v, hquote, rfl, hv⟩ := h
  refine ⟨by rcases hquote with rfl | rfl <;> rfl, ?_⟩
  rw [List.cons_append, string, stringRest_complete hquote hv]
  simp [Reading.after, Nat.add_comm]

end JsLexer.Lexeme
