import JsLexer.Proofs.LongestPrefix
import JsLexer.Proofs.Outcome
import JsLexer.Proofs.StringOutcome

/-!
Names are as long as they can be.

The units that continue a name are read one after another, so a name that is passed ends where no
more unit follows: nothing longer that the text starts with is a name. There is one exception. A
backslash and `u` announce a unit, and if the escape behind them is broken, the name before them is
lost, too. Where the escape breaks is decided by the code points that an escape can start with. An
escape between braces with so many digits that their count is negative is as broken as any.
-/

namespace JsLexer

namespace Lexeme

/-! ### The longest name -/

theorem IsNameRest.append {v w : List Char} (hv : IsNameRest v) (hw : IsNameRest w) :
    IsNameRest (v ++ w) := by
  induction hv with
  | nil => exact hw
  | unit hu _ ih =>
    rw [List.append_assoc]
    exact .unit hu ih

theorem IsName.append_unit {w u : List Char} (hw : IsName w) (hu : IsNameUnit isNamePart u) :
    IsName (w ++ u) := by
  obtain ⟨first, v, rfl, hfirst, hv⟩ := hw
  have hrest := hv.append (.unit hu .nil)
  rw [List.append_nil] at hrest
  exact ⟨first, v ++ u, List.append_assoc .., hfirst, hrest⟩

theorem isLongestPrefix_name {w r : List Char} (hw : IsName w)
    (hr : TokenKind.identifierName.endsBefore w r = true) : IsLongestPrefix IsName w (w ++ r) := by
  refine isLongestPrefix_append hw fun u hu hname => ?_
  have haccepts : Builtin.identifierName.Accepts .identifierName (w ++ u) := ⟨rfl, hname⟩
  exact haccepts.eq_nil_of_append ⟨rfl, hw⟩ hr hu fun h => absurd h (by decide)

theorem escapeAhead_iff {cs : List Char} : escapeAhead cs = true ↔ ['\\', 'u'] <+: cs := by
  constructor
  · intro h
    unfold escapeAhead at h
    split at h
    · next r => exact ⟨r, rfl⟩
    · simp at h
  · rintro ⟨r, rfl⟩
    rfl

/-- A name ends exactly if it is the longest one and no escape is announced behind it. -/
theorem endsBefore_name_iff {w r : List Char} (hw : IsName w) :
    TokenKind.identifierName.endsBefore w r = true ↔
      IsLongestPrefix IsName w (w ++ r) ∧ ¬ ['\\', 'u'] <+: r := by
  rw [← escapeAhead_iff]
  constructor
  · intro hr
    refine ⟨isLongestPrefix_name hw hr, ?_⟩
    cases r <;> simp_all [TokenKind.endsBefore, escapeAhead]
  · rintro ⟨hlongest, hescape⟩
    cases r with
    | nil => rfl
    | cons c r =>
      have hpart : isNamePart c = false := by
        refine Bool.eq_false_iff.2 fun hc => ?_
        have hlonger := hlongest.longest (w ++ [c]) ⟨r, by simp⟩ (hw.append_unit (.plain hc))
        rw [List.length_append, List.length_singleton] at hlonger
        exact Nat.not_succ_le_self _ hlonger
      simp [TokenKind.endsBefore, hescape, hpart]

/-! ### Broken escapes -/

/-- No escape stands ahead, and this shows in the first `n` code points: they are all that there is
and may start an escape, or the last of them is the first that does not belong to one. -/
def BreaksAt (cs : List Char) (n : Nat) : Prop :=
  IsOpenEscape cs ∧ n = cs.length ∨
    ∃ e c, e ++ [c] <+: cs ∧ n = e.length + 1 ∧ IsOpenEscape e ∧ ¬ IsOpenEscape (e ++ [c]) ∧
      ¬ IsEscape (e ++ [c])

theorem unicodeEscape_breaks {cs : List Char} (hnot : ∀ e, e <+: cs → ¬ IsEscape e) :
    ∃ n, BreaksAt cs n ∧ (unicodeEscape cs = .malformed n ∨ unicodeEscape cs = .cutShort n) := by
  cases hread : unicodeEscape cs with
  | complete n =>
    obtain ⟨e, r, rfl, -, he⟩ := unicodeEscape_sound hread
    exact absurd he (hnot e (List.prefix_append e r))
  | malformed n =>
    obtain ⟨e, c, r, rfl, rfl, he, hblames⟩ := unicodeEscape_blames hread
    refine ⟨_, .inr ⟨e, c, ⟨r, by simp⟩, rfl, he, fun hopen => ?_, fun hescape => ?_⟩, .inl rfl⟩
    · have hcut := unicodeEscape_open hopen
      simp [hblames] at hcut
    · have hcomplete := unicodeEscape_complete hescape []
      simp [hblames] at hcomplete
  | cutShort n =>
    exact ⟨_, .inl ⟨unicodeEscape_cut hread, unicodeEscape_cutShort hread⟩, .inr rfl⟩

theorem nameUnit_breaks {unescaped : Char → Bool} {cs : List Char} {n : Nat}
    (h : unicodeEscape cs = .malformed n ∨ unicodeEscape cs = .cutShort n) :
    nameUnit unescaped ('\\' :: 'u' :: cs) = .malformed (2 + n) ∨
      nameUnit unescaped ('\\' :: 'u' :: cs) = .cutShort (2 + n) := by
  rw [nameUnit]
  exact h.imp (fun h => by rw [h]; rfl) fun h => by rw [h]; rfl

/-- A broken escape spoils the name that it starts, and the name before it as well. -/
theorem name_breaks {w cs : List Char} (hw : w = [] ∨ IsName w) {n : Nat}
    (h : unicodeEscape cs = .malformed n ∨ unicodeEscape cs = .cutShort n) :
    name (w ++ '\\' :: 'u' :: cs) = .malformed (w.length + 2 + n) := by
  rcases hw with rfl | hw
  · rw [List.nil_append, name, List.length_nil, Nat.zero_add]
    rcases nameUnit_breaks h with hunit | hunit <;> rw [hunit]
  · have hrest : nameRest 0 ('\\' :: 'u' :: cs) = .malformed (2 + n) := by
      have hescape : escapeAhead ('\\' :: 'u' :: cs) = true := rfl
      rw [nameRest, hescape, Bool.true_or, if_pos rfl]
      rcases nameUnit_breaks h with hunit | hunit <;> rw [hunit]
    rw [name_append hw, hrest, Reading.after, Nat.add_assoc]

/-- Zeros between braces spoil a name if their count is not positive. -/
theorem name_zeros {m : Nat} (hm : ¬ CountsPositive m) (r : List Char) :
    name ('\\' :: 'u' :: '\x7b' :: (List.replicate m '0' ++ '\x7d' :: r)) = .malformed (m + 4) := by
  have hescape : unicodeEscape ('\x7b' :: (List.replicate m '0' ++ '\x7d' :: r)) =
      .malformed (1 + (m + 1)) := by
    rw [unicodeEscape, if_pos rfl, braced_zeros hm, EscapeReading.after]
  have hread := name_breaks (w := []) (.inl rfl) (.inl hescape)
  rw [List.nil_append] at hread
  rw [hread, List.length_nil]
  congr 1
  omega

/-- The longest name is followed by a broken escape, or there is no name and the escape is all that
there is. -/
theorem exists_broken_escape {cs : List Char} (hahead : nameAhead cs = true)
    (hspoiled : ∀ w, IsLongestPrefix IsName w cs → ['\\', 'u'] <+: cs.drop w.length) :
    ∃ w r, cs = w ++ '\\' :: 'u' :: r ∧ (∀ e, e <+: r → ¬ IsEscape e) ∧
      (IsLongestPrefix IsName w cs ∨ w = [] ∧ ∀ v, v <+: cs → ¬ IsName v) := by
  by_cases hname : ∃ v, v <+: cs ∧ IsName v
  · obtain ⟨v, hv, hvname⟩ := hname
    obtain ⟨w, hw⟩ := exists_isLongestPrefix hv hvname
    obtain ⟨r, hr⟩ := hspoiled w hw
    have hcs : cs = w ++ '\\' :: 'u' :: r := by
      obtain ⟨t, rfl⟩ := hw.starts
      rw [List.drop_left] at hr
      rw [← hr]
      rfl
    refine ⟨w, r, hcs, fun e he hescape => ?_, .inl hw⟩
    -- with the escape there would be a longer name
    obtain ⟨t, rfl⟩ := he
    have hlonger := hw.longest (w ++ '\\' :: 'u' :: e) ⟨t, by simp [hcs]⟩
      (hw.holds.append_unit (.escaped hescape))
    simp only [List.length_append, List.length_cons] at hlonger
    omega
  · have hnone : ∀ v, v <+: cs → ¬ IsName v := fun v hv hvname => hname ⟨v, hv, hvname⟩
    have hunit : ∀ u, u <+: cs → ¬ IsNameUnit isNameStart u := fun u hu hstart =>
      hnone u hu ⟨u, [], by simp, hstart, .nil⟩
    rw [nameAhead, Bool.or_eq_true, escapeAhead_iff, Option.any_eq_true] at hahead
    rcases hahead with ⟨c, hhead, hc⟩ | ⟨r, rfl⟩
    · obtain ⟨r, rfl⟩ := List.head?_eq_some_iff.1 hhead
      exact absurd (.plain hc) (hunit [c] ⟨r, rfl⟩)
    · refine ⟨[], r, rfl, fun e he hescape => ?_, .inr ⟨rfl, hnone⟩⟩
      obtain ⟨t, rfl⟩ := he
      exact hunit ('\\' :: 'u' :: e) ⟨t, rfl⟩ (.escaped hescape)

end Lexeme

open Lexeme

theorem Builtin.fits_name_iff {k : TokenKind} {w cs : List Char} :
    Builtin.identifierName.Fits k w cs ↔ k = .identifierName ∧ IsLongestPrefix IsName w cs ∧
      ¬ ['\\', 'u'] <+: cs.drop w.length := by
  constructor
  · rintro ⟨r, rfl, ⟨rfl, hw⟩, hr⟩
    rw [List.drop_left]
    exact ⟨rfl, (endsBefore_name_iff hw).1 hr⟩
  · rintro ⟨rfl, hw, hescape⟩
    obtain ⟨r, rfl⟩ := hw.starts
    rw [List.drop_left] at hescape
    exact ⟨r, rfl, ⟨rfl, hw.holds⟩, (endsBefore_name_iff hw.holds).2 ⟨hw, hescape⟩⟩

/-- The matcher of names passes the longest name that the text starts with and makes it a token,
unless a backslash and `u` follow it. In every other case the escape that they announce, behind the
longest name or where one would start, is cut short by the end of the text or broken by a code
point, and the token is unexpected there. -/
theorem name_outcome {s : Cursor} (hahead : Builtin.identifierName.recognizes s.rest = true)
    (ctx : Context) :
    let result := Builtin.identifierName.produce ctx s
    (∀ w, result.1.isOk = true ∧ s.rest = w ++ result.2.rest ↔
      IsLongestPrefix IsName w s.rest ∧ ¬ ['\\', 'u'] <+: s.rest.drop w.length) ∧
    (∀ w, IsLongestPrefix IsName w s.rest → ¬ ['\\', 'u'] <+: s.rest.drop w.length →
      result = (.ok ⟨.identifierName, String.ofList w, ctx.start, (s.skip w.length).position⟩,
        s.skip w.length)) ∧
    ((∀ w, IsLongestPrefix IsName w s.rest → ['\\', 'u'] <+: s.rest.drop w.length) →
      ∃ w r n, s.rest = w ++ '\\' :: 'u' :: r ∧ BreaksAt r n ∧ (∀ e, e <+: r → ¬ IsEscape e) ∧
        (IsLongestPrefix IsName w s.rest ∨ w = [] ∧ ∀ v, v <+: s.rest → ¬ IsName v) ∧
        result = (.error (.unexpectedToken "identifier-name" (s.skip (w.length + 2 + n)).position),
          s.skip (w.length + 2 + n))) := by
  intro result
  refine ⟨fun w => ?_, fun w hw hescape => ?_, fun hspoiled => ?_⟩
  · rw [Builtin.succeeds_iff_exists_fits hahead ctx]
    simp [Builtin.fits_name_iff]
  · exact (Builtin.fits_name_iff.2 ⟨rfl, hw, hescape⟩).produce ctx
  · obtain ⟨w, r, hrest, hnot, hw⟩ := exists_broken_escape hahead hspoiled
    obtain ⟨n, hbreaks, hread⟩ := unicodeEscape_breaks hnot
    refine ⟨w, r, n, hrest, hbreaks, hnot, hw, ?_⟩
    have hname : Builtin.identifierName.read s.rest = .malformed (w.length + 2 + n) := by
      rw [hrest]
      exact name_breaks (hw.symm.imp And.left IsLongestPrefix.holds) hread
    exact Builtin.produce_of_read hname ctx

/-- An escape continues a name, and the semicolon ends it; but an escape beyond the last code point
spoils the name before it. -/
theorem name_outcome_escapes :
    let s := Cursor.start "n\\u\x7b61\x7d;m\\u\x7b110000\x7d".toList
    Builtin.identifierName.produce .initial s =
        (.ok ⟨.identifierName, "n\\u\x7b61\x7d", ⟨0, 0⟩, ⟨0, 7⟩⟩, s.skip 7) ∧
      ∃ w r n, (s.skip 8).rest = w ++ '\\' :: 'u' :: r ∧ BreaksAt r n ∧
        Builtin.identifierName.produce .initial (s.skip 8) =
          (.error (.unexpectedToken "identifier-name" ⟨0, 19⟩),
            (s.skip 8).skip (w.length + 2 + n)) := by
  intro s
  obtain ⟨hpasses, htoken, -⟩ := name_outcome (s := s) rfl .initial
  obtain ⟨hlongest, hescape⟩ := (hpasses "n\\u\x7b61\x7d".toList).1 ⟨rfl, rfl⟩
  refine ⟨htoken _ hlongest hescape, ?_⟩
  obtain ⟨hpasses, -, hbroken⟩ := name_outcome (s := s.skip 8) rfl .initial
  obtain ⟨w, r, n, hrest, hbreaks, -, -, hresult⟩ := hbroken fun w hw => by
    by_contra hescape
    exact absurd ((hpasses w).2 ⟨hw, hescape⟩).1 (by decide)
  exact ⟨w, r, n, hrest, hbreaks, Prod.ext rfl (Prod.ext_iff.1 hresult).2⟩

/-- The number of a code point between braces, but with as many zeros as make the count negative:
the name that it would be is refused at the closing brace. -/
theorem name_refuses_zeros :
    let ds := List.replicate (2 ^ 31) '0'
    let s := Cursor.start ('\\' :: 'u' :: '\x7b' :: (ds ++ ['\x7d']))
    IsCodePointNumber ds ∧ Builtin.identifierName.recognizes s.rest = true ∧
      Builtin.identifierName.produce .initial s =
        (.error (.unexpectedToken "identifier-name" (s.skip (2 ^ 31 + 4)).position),
          s.skip (2 ^ 31 + 4)) := by
  intro ds s
  have hcount : ¬ CountsPositive (2 ^ 31) := by decide
  have hread : Builtin.identifierName.read s.rest = .malformed (2 ^ 31 + 4) := name_zeros hcount []
  exact ⟨isCodePointNumber_zeros (by decide), rfl, Builtin.produce_of_read hread .initial⟩

end JsLexer
