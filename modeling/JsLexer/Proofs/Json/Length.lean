import JsLexer.Json.Ignored
import JsLexer.Proofs.Json.Value

/-!
Strings and numbers are measured.

A string or number that is only checked has a length, and the measure of it finds every one that is
good JSON: a string up to its closing quote, whatever stands behind, and a number as far as it could
go on.
-/

namespace JsLexer.Json

/-! ### Strings -/

section Strings

variable {n : Nat} {w : List Char}

theorem FourHex.length_eq (h : FourHex n w) : w.length = 4 := by
  obtain ⟨a, b, c, d, hvalues, -⟩ := h
  simpa using congrArg List.length hvalues

theorem FourHex.fourHex (h : FourHex n w) (cs : List Char) : fourHex (w ++ cs) = .ok n := by
  have hlength := h.length_eq
  obtain ⟨a, b, c, d, hvalues, rfl⟩ := h
  rw [Json.fourHex, List.take_left' hlength]
  obtain ⟨c₁, w, rfl, h₁, hvalues⟩ := List.map_eq_cons_iff.1 hvalues
  obtain ⟨c₂, w, rfl, h₂, hvalues⟩ := List.map_eq_cons_iff.1 hvalues
  obtain ⟨c₃, w, rfl, h₃, hvalues⟩ := List.map_eq_cons_iff.1 hvalues
  obtain ⟨c₄, w, rfl, h₄, hvalues⟩ := List.map_eq_cons_iff.1 hvalues
  obtain rfl := List.map_eq_nil_iff.1 hvalues
  simp [h₁, h₂, h₃, h₄]

theorem shortEscape?_of_mem : ∀ x ∈ shortEscapes, shortEscape? x.1 = some x.2 ∧ x.1 ≠ 'u' := by
  decide

theorem stringLength_claimed (w cs : List Char) :
    stringLength w.length (w ++ cs) = (stringLength 0 cs).map (· + w.length) := by
  induction w with
  | nil => cases h : stringLength 0 cs <;> simp [h, Except.map]
  | cons c w ih =>
    rw [List.length_cons, List.cons_append, stringLength, ih]
    cases stringLength 0 cs <;> simp [Except.map, Nat.add_assoc]

/-- An escape is measured by what stands behind the backslash. -/
theorem stringLength_backslash {w cs : List Char} (h : escapeLength (w ++ cs) = .ok w.length) :
    stringLength 0 ('\\' :: (w ++ cs)) = (stringLength 0 cs).map (· + (w.length + 1)) := by
  have hbackslash : ¬ '\\' = '"' := by decide
  rw [stringLength, if_neg hbackslash, if_pos rfl, h]
  dsimp only
  rw [stringLength_claimed]
  cases stringLength 0 cs <;> simp [Except.map, Nat.add_assoc]

theorem IsCharacter.stringLength (h : IsCharacter w) (cs : List Char) :
    stringLength 0 (w ++ cs) = (stringLength 0 cs).map (· + w.length) := by
  cases h with
  | @plain c hcontrol hquote hbackslash =>
    have hplain : ¬ c.toNat < 0x20 := Nat.not_lt.2 hcontrol
    simp [Json.stringLength, hquote, hbackslash, hplain]
  | @short e c hmem =>
    obtain ⟨hescape, hu⟩ := shortEscape?_of_mem _ hmem
    exact stringLength_backslash (w := [e]) (by simp [escapeLength, hescape, hu])
  | @unit n w hhex =>
    refine stringLength_backslash (w := 'u' :: w) ?_
    rw [List.cons_append, escapeLength, if_pos rfl, hhex.fourHex, List.length_cons, hhex.length_eq]
    rfl

theorem IsCharacters.stringLength (h : IsCharacters w) (cs : List Char) :
    stringLength 0 (w ++ cs) = (stringLength 0 cs).map (· + w.length) := by
  induction h with
  | nil => cases hcs : Json.stringLength 0 cs <;> simp [hcs, Except.map]
  | @cons w v hw _ ih =>
    rw [List.append_assoc, hw.stringLength, ih]
    cases Json.stringLength 0 cs with
    | error e => rfl
    | ok length =>
      simp only [Except.map, List.length_append]
      congr 1
      omega

theorem IsCharacters.stringLength_quote (h : IsCharacters w) (rest : List Char) :
    Json.stringLength 0 (w ++ '"' :: rest) = .ok (w.length + 1) := by
  rw [h.stringLength, Nat.add_comm]
  rfl

end Strings

/-! ### Numbers -/

section Numbers

variable {w ds rest : List Char}

theorem takeWhile_digits (hds : ∀ c ∈ ds, isDecimalDigit c = true) (h : digitAhead rest = false) :
    (ds ++ rest).takeWhile isDecimalDigit = ds :=
  congrArg Prod.fst (digitsAhead_append hds h)

/-- Whether no number goes on here. -/
def NumberEnds (rest : List Char) : Prop :=
  ∀ c, rest.head? = some c → isDecimalDigit c = false ∧ c ∉ ['.', 'e', 'E']

theorem Delimited.numberEnds (h : Delimited rest) : NumberEnds rest := by
  intro c hc
  have hmem := h c hc
  simp only [List.mem_cons, List.not_mem_nil, or_false] at hmem
  rcases hmem with rfl | rfl | rfl | rfl | rfl | rfl | rfl <;> decide

theorem NumberEnds.digitAhead (h : NumberEnds rest) : digitAhead rest = false := by
  cases rest with
  | nil => rfl
  | cons c cs => exact (h c rfl).1

theorem NumberEnds.exponentLength (h : NumberEnds rest) : exponentLength rest = .ok 0 := by
  cases rest with
  | nil => rfl
  | cons c cs =>
    have hc : c ≠ '.' ∧ c ≠ 'e' ∧ c ≠ 'E' := by simpa using (h c rfl).2
    simp [Json.exponentLength, hc]

theorem Exponent.exponentLength (h : Exponent w) (hrest : NumberEnds rest) :
    exponentLength (w ++ rest) = .ok w.length := by
  rcases h with rfl | ⟨e, sign, digits, he, hsign, ⟨hne, hdigits⟩, rfl⟩
  · exact hrest.exponentLength
  · have he' : e = 'e' ∨ e = 'E' := by simpa using he
    have htake := takeWhile_digits hdigits hrest.digitAhead
    obtain ⟨d, ds, rfl⟩ := List.exists_cons_of_ne_nil hne
    have hd := hdigits d List.mem_cons_self
    have hplus : d ≠ '+' := ne_of_isDecimalDigit hd (by decide)
    have hminus : d ≠ '-' := ne_of_isDecimalDigit hd (by decide)
    simp only [List.mem_cons, List.not_mem_nil, or_false] at hsign
    rw [List.cons_append] at htake
    rcases hsign with rfl | rfl | rfl
    · simp [Json.exponentLength, he', htake, hplus, hminus]
      omega
    · simp [Json.exponentLength, he', htake]
      omega
    · simp [Json.exponentLength, he', htake]
      omega

theorem Exponent.digitAhead (h : Exponent w) (hrest : NumberEnds rest) :
    digitAhead (w ++ rest) = false := by
  rcases h with rfl | ⟨e, sign, digits, he, -, -, rfl⟩
  · exact hrest.digitAhead
  · simp only [List.mem_cons, List.not_mem_nil, or_false] at he
    rcases he with rfl | rfl <;> rfl

theorem Exponent.head_ne_point (h : Exponent w) (hrest : NumberEnds rest) (cs : List Char) :
    w ++ rest ≠ '.' :: cs := by
  rcases h with rfl | ⟨e, sign, digits, he, -, -, rfl⟩
  · rintro rfl
    exact (hrest '.' rfl).2 (by decide)
  · simp only [List.mem_cons, List.not_mem_nil, or_false] at he
    rcases he with rfl | rfl <;> simp

theorem Fraction.fractionLength {v : List Char} (h : Fraction w) (hv : Exponent v)
    (hrest : NumberEnds rest) :
    fractionLength (w ++ (v ++ rest)) = .ok (w ++ v).length := by
  rcases h with rfl | ⟨places, ⟨hne, hplaces⟩, rfl⟩
  · rw [List.nil_append, List.nil_append, ← hv.exponentLength hrest, Json.fractionLength]
    exact fun cs hcs => hv.head_ne_point hrest cs hcs
  · have htake := takeWhile_digits hplaces (hv.digitAhead hrest)
    obtain ⟨d, ds, rfl⟩ := List.exists_cons_of_ne_nil hne
    rw [List.cons_append] at htake
    have hdrop : (d :: (ds ++ (v ++ rest))).drop (d :: ds).length = v ++ rest := by simp
    rw [List.cons_append, List.cons_append, Json.fractionLength, htake]
    dsimp only
    rw [hdrop, hv.exponentLength hrest]
    simp [Except.map]
    omega

theorem Fraction.digitAhead {v : List Char} (h : Fraction w) (hv : Exponent v)
    (hrest : NumberEnds rest) : digitAhead (w ++ (v ++ rest)) = false := by
  rcases h with rfl | ⟨places, -, rfl⟩
  · exact hv.digitAhead hrest
  · rfl

theorem IsUnsigned.numberLength (h : IsUnsigned w) (hrest : NumberEnds rest) :
    numberLength (w ++ rest) = .ok w.length := by
  obtain ⟨whole, fraction, exponent, ⟨⟨hne, hwhole⟩, hzero⟩, hfraction, hexponent, rfl⟩ := h
  have htake := takeWhile_digits hwhole (hfraction.digitAhead hexponent hrest)
  have hlength := hfraction.fractionLength hexponent hrest
  have hnozero : ¬ (whole.head? = some '0' ∧ 1 < whole.length) := by
    rintro ⟨hhead, hlong⟩
    simp [hzero hhead] at hlong
  obtain ⟨d, ds, rfl⟩ := List.exists_cons_of_ne_nil hne
  have hdrop : (d :: ds ++ (fraction ++ (exponent ++ rest))).drop (d :: ds).length =
      fraction ++ (exponent ++ rest) := by simp
  rw [List.append_assoc, List.append_assoc, Json.numberLength, htake]
  dsimp only
  rw [if_neg hnozero, hdrop, hlength]
  simp [Except.map]
  omega

end Numbers

end JsLexer.Json
