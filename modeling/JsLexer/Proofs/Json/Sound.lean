import JsLexer.Json.Record
import JsLexer.Proofs.Json.Length

/-!
What is read is good JSON.

A string that was read is one up to its closing quote, and an escape that stands for a code point
beyond 16 bits is two escapes one after another. A natural number that was read is a number without
sign, fraction and exponent.
-/

namespace JsLexer.Json

variable {α β : Type}

theorem Except.map_eq_ok {ε : Type} {x : Except ε α} {f : α → β} {b : β}
    (h : x.map f = .ok b) : ∃ a, x = .ok a ∧ f a = b := by
  cases x with
  | error e => cases h
  | ok a => exact ⟨a, rfl, Except.ok.inj h⟩

theorem Except.bind_eq_ok {ε : Type} {x : Except ε α} {f : α → Except ε β} {b : β}
    (h : x.bind f = .ok b) : ∃ a, x = .ok a ∧ f a = .ok b := by
  cases x with
  | error e => cases h
  | ok a => exact ⟨a, rfl, h⟩

theorem Parsed.of_map {x : Parsed α} {f : α → β} {b : β} {rest : List Char}
    (h : x.map (fun (a, rest) => (f a, rest)) = .ok (b, rest)) :
    ∃ a, x = .ok (a, rest) ∧ f a = b := by
  obtain ⟨⟨a, behind⟩, hx, hb⟩ := Except.map_eq_ok h
  obtain ⟨rfl, rfl⟩ := Prod.mk.inj hb
  exact ⟨a, hx, rfl⟩

/-! ### Strings -/

theorem map_eq_of_mapM {f : α → Option β} {as : List α} {bs : List β} (h : as.mapM f = some bs) :
    as.map f = bs.map some := by
  induction as generalizing bs with
  | nil =>
    cases h
    rfl
  | cons a as ih =>
    rw [List.mapM_cons] at h
    obtain ⟨b, hb, h⟩ := Option.bind_eq_some_iff.1 h
    obtain ⟨bs, hbs, h⟩ := Option.bind_eq_some_iff.1 h
    cases h
    rw [List.map_cons, List.map_cons, hb, ih hbs]

theorem fourHex_sound {n : Nat} {cs : List Char} (h : fourHex cs = .ok n) :
    ∃ w rest, cs = w ++ rest ∧ FourHex n w := by
  refine ⟨cs.take 4, cs.drop 4, (List.take_append_drop 4 cs).symm, ?_⟩
  rw [fourHex] at h
  split at h
  · next a b c d hvalues => exact ⟨a, b, c, d, map_eq_of_mapM hvalues, (Except.ok.inj h).symm⟩
  · simp at h

theorem trailingUnit_sound {cs : List Char} {n : Nat} (h : trailingUnit cs = .ok n) :
    ∃ w rest, cs = '\\' :: 'u' :: (w ++ rest) ∧ FourHex n w := by
  unfold trailingUnit at h
  split at h
  · simp at h
  · simp at h
  · split at h
    · simp at h
    · next cs unit hunit =>
      obtain ⟨w, rest, rfl, hw⟩ := fourHex_sound hunit
      split at h
      · cases h
        exact ⟨w, rest, rfl, hw⟩
      · simp at h
  · simp at h

/-- An escape by number is one UTF-16 unit, or two of them. -/
theorem numberEscape_sound {cs : List Char} {c : Char} {k : Nat}
    (h : numberEscape cs = .ok (c, k)) :
    ∃ w rest, cs = w ++ rest ∧ w.length = k ∧ IsCharacters ('\\' :: 'u' :: w) := by
  rw [numberEscape] at h
  split at h
  · simp at h
  · next unit hunit =>
    obtain ⟨w, rest, rfl, hw⟩ := fourHex_sound hunit
    split at h
    · simp at h
    · split at h
      · split at h
        · simp at h
        · next second hsecond =>
          rw [List.drop_left' hw.length_eq] at hsecond
          obtain ⟨v, rest, rfl, hv⟩ := trailingUnit_sound hsecond
          obtain ⟨-, rfl⟩ := Prod.mk.inj (Except.ok.inj h)
          refine ⟨w ++ '\\' :: 'u' :: v, rest, by simp, ?_, ?_⟩
          · simp [hw.length_eq, hv.length_eq]
          · simpa using IsCharacters.cons (.unit hw) (.cons (.unit hv) .nil)
      · obtain ⟨-, rfl⟩ := Prod.mk.inj (Except.ok.inj h)
        exact ⟨w, rest, rfl, hw.length_eq, by simpa using IsCharacters.cons (.unit hw) .nil⟩

theorem mem_shortEscapes {e c : Char} (h : shortEscape? e = some c) : (e, c) ∈ shortEscapes := by
  unfold shortEscape? at h
  split at h
  iterate 8
    · cases h
      decide
  · simp at h

theorem escapeAhead_sound {cs : List Char} {c : Char} {k : Nat} (h : escapeAhead cs = .ok (c, k)) :
    ∃ w rest, cs = w ++ rest ∧ w.length = k ∧ IsCharacters ('\\' :: w) := by
  unfold escapeAhead at h
  split at h
  · simp at h
  · next d cs =>
    split at h
    · next hu =>
      subst hu
      cases hnumber : numberEscape cs with
      | error e => simp [hnumber, Except.map] at h
      | ok x =>
        obtain ⟨w, rest, rfl, hlength, hw⟩ := numberEscape_sound (c := x.1) (k := x.2) hnumber
        simp only [hnumber, Except.map, Except.ok.injEq, Prod.mk.injEq] at h
        exact ⟨'u' :: w, rest, rfl, by rw [List.length_cons, hlength, h.2], hw⟩
    · split at h
      · next meant hshort =>
        obtain ⟨-, rfl⟩ := Prod.mk.inj (Except.ok.inj h)
        exact ⟨[d], cs, rfl, rfl, by
          simpa using IsCharacters.cons (.short (mem_shortEscapes hshort)) .nil⟩
      · simp at h

/-- A string that was read is one that may be passed over. -/
theorem stringRest_sound {cs s rest : List Char} {claimed : Nat}
    (h : stringRest claimed cs = .ok (s, rest)) :
    ∃ w body, cs = w ++ (body ++ '"' :: rest) ∧ w.length = claimed ∧ IsCharacters body := by
  induction cs generalizing s claimed with
  | nil => cases claimed <;> simp [stringRest] at h
  | cons c cs ih =>
    cases claimed with
    | succ claimed =>
      obtain ⟨w, body, rfl, hlength, hbody⟩ := ih h
      exact ⟨c :: w, body, rfl, by rw [List.length_cons, hlength], hbody⟩
    | zero =>
      rw [stringRest] at h
      split at h
      · next hquote =>
        cases h
        exact ⟨[], [], by rw [hquote]; rfl, rfl, .nil⟩
      · next hquote =>
        split at h
        · next hbackslash =>
          split at h
          · simp at h
          · next meant length hescape =>
            obtain ⟨s, hs, -⟩ := Parsed.of_map h
            obtain ⟨w, body, rfl, hlength, hbody⟩ := ih hs
            obtain ⟨v, rest', hv, hlength', hescaped⟩ := escapeAhead_sound hescape
            obtain ⟨rfl, -⟩ := List.append_inj hv (hlength.trans hlength'.symm)
            exact ⟨[], '\\' :: w ++ body, by simp [hbackslash], rfl, hescaped.append hbody⟩
        · next hbackslash =>
          split at h
          · simp at h
          · next hcontrol =>
            obtain ⟨s, hs, -⟩ := Parsed.of_map h
            obtain ⟨w, body, rfl, hlength, hbody⟩ := ih hs
            obtain rfl := List.eq_nil_of_length_eq_zero hlength
            exact ⟨[], c :: body, rfl, rfl,
              .cons (.plain (Nat.not_lt.1 hcontrol) hquote hbackslash) hbody⟩

theorem stringAhead_sound {cs : List Char} {s : String} {rest : List Char}
    (h : stringAhead cs = .ok (s, rest)) :
    ∃ body, cs = body ++ '"' :: rest ∧ IsCharacters body := by
  obtain ⟨s, hs, -⟩ := Parsed.of_map h
  obtain ⟨w, body, rfl, hlength, hbody⟩ := stringRest_sound hs
  obtain rfl := List.eq_nil_of_length_eq_zero hlength
  exact ⟨body, rfl, hbody⟩

/-! ### Numbers -/

section Numbers

variable {minus : Bool} {significand : Nat} {exponent : Int} {cs rest : List Char} {n : Nat}

theorem realOf_ne_natural : realOf minus significand exponent cs ≠ .ok (.natural n, rest) := by
  unfold realOf
  split <;> simp

theorem exponentAhead_ne_natural :
    exponentAhead minus significand exponent cs ≠ .ok (.natural n, rest) := by
  unfold exponentAhead
  dsimp only
  split
  · simp
  · next digits behind _ _ =>
    by_cases hscale : maxScale < Nat.ofDigitChars 10 digits 0
    · rw [if_pos hscale]
      repeat' split
      all_goals simp
    · rw [if_neg hscale]
      exact realOf_ne_natural

theorem exponentOrEnd_ne_natural :
    exponentOrEnd minus significand exponent cs ≠ .ok (.natural n, rest) := by
  unfold exponentOrEnd
  split
  · exact exponentAhead_ne_natural
  · exact exponentAhead_ne_natural
  · exact realOf_ne_natural

theorem natural_of_integerOf {value : Nat} (h : integerOf minus value = .natural n) :
    minus = false := by
  unfold integerOf at h
  split at h
  · next hminus => simpa using hminus
  · split at h <;> simp at h

/-- Only digits without anything behind them are read as a natural number. -/
theorem numberAhead_sound (h : numberAhead minus cs = .ok (.natural n, rest)) :
    minus = false ∧ ∃ w, cs = w ++ rest ∧ IsUnsigned w ∧ NumberEnds rest := by
  unfold numberAhead at h
  split at h
  · simp at h
  · next digits behind hne hdigits =>
    obtain ⟨hdigits, hbehind⟩ := Prod.mk.inj hdigits
    split at h
    · simp at h
    · next hzero =>
      dsimp only at h
      split at h
      · split at h
        · simp at h
        · exact absurd h exponentOrEnd_ne_natural
      · next hpoint =>
        split at h
        · exact absurd h exponentOrEnd_ne_natural
        · next hend =>
          obtain ⟨hinteger, rfl⟩ := Prod.mk.inj (Except.ok.inj h)
          have hall : ∀ c ∈ digits, isDecimalDigit c = true := by
            rw [← hdigits]
            exact List.all_eq_true.1 List.all_takeWhile
          refine ⟨natural_of_integerOf hinteger, digits, ?_, isUnsigned_of_digits hne hall hzero, ?_⟩
          · rw [← hdigits, ← hbehind, List.takeWhile_append_dropWhile]
          · intro c hc
            obtain ⟨more, rfl⟩ := List.head?_eq_some_iff.1 hc
            have hdigit := List.head?_dropWhile_not isDecimalDigit cs
            rw [hbehind] at hdigit
            refine ⟨by simpa using hdigit, ?_⟩
            have hsign : c ≠ '.' := fun heq => hpoint more (by rw [heq])
            have hlower : c ≠ 'e' := fun heq => hend (.inl (by rw [heq]; rfl))
            have hupper : c ≠ 'E' := fun heq => hend (.inr (.inl (by rw [heq]; rfl)))
            simp [hsign, hlower, hupper]

theorem countOf_sound {x : Parsed Number} (h : countOf x = .ok (n, rest)) :
    x = .ok (.natural n, rest) := by
  unfold countOf at h
  split at h
  · simp at h
  · obtain ⟨rfl, rfl⟩ := Prod.mk.inj (Except.ok.inj h)
    rfl
  · simp at h
  · simp at h

end Numbers

end JsLexer.Json
