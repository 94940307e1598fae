import JsLexer.Proofs.Continuation
import JsLexer.Proofs.Outcome

/-!
The three outcomes of a string.

A text behind a quote starts with a string, or it may be the start of one, or some code point in it
is the first that fits nowhere. The grammar of strings and of their starts tells these apart, and a
reading says which it is: the string itself, the end of the text, or the code point to blame. Behind
an opening brace any digits may be the start of an escape; the brace that closes them is to blame if
there are none, if their value is too large, or if there are so many that their count is not
positive.
-/

namespace JsLexer

namespace Lexeme

/-! ### The starts of strings -/

/-- What may stand behind `u` when an escape is not complete. -/
inductive IsOpenEscape : List Char → Prop
  | plain {ds : List Char} : ds.length < 4 → (∀ c ∈ ds, isHexDigit c = true) → IsOpenEscape ds
  | braced {ds : List Char} : (∀ c ∈ ds, isHexDigit c = true) → IsOpenEscape ('\x7b' :: ds)

/-- A backslash and an escape behind it that is not complete. -/
inductive IsOpenUnit : List Char → Prop
  | backslash : IsOpenUnit ['\\']
  | zero : IsOpenUnit ['\\', '0']
  | byte {ds : List Char} : ds.length < 2 → (∀ c ∈ ds, isHexDigit c = true) →
      IsOpenUnit ('\\' :: 'x' :: ds)
  | number {e : List Char} : IsOpenEscape e → IsOpenUnit ('\\' :: 'u' :: e)

/-- Any number of units. -/
inductive IsUnits (quote : Char) : List Char → Prop
  | nil : IsUnits quote []
  | unit {u w : List Char} : IsStringUnit quote u → IsUnits quote w → IsUnits quote (u ++ w)

/-- Units, and possibly a backslash and an escape that is not complete. -/
def IsOpenRest (quote : Char) (w : List Char) : Prop :=
  ∃ u e, IsUnits quote u ∧ (e = [] ∨ IsOpenUnit e) ∧ w = u ++ e

theorem IsOpenRest.unit {quote : Char} {u w : List Char} (hu : IsStringUnit quote u)
    (hw : IsOpenRest quote w) : IsOpenRest quote (u ++ w) := by
  obtain ⟨v, e, hv, he, rfl⟩ := hw
  exact ⟨u ++ v, e, .unit hu hv, he, by rw [List.append_assoc]⟩

/-- A quote of either sort, and units of a string that is not closed. -/
def IsOpenString (w : List Char) : Prop :=
  ∃ quote v, (quote = '"' ∨ quote = '\'') ∧ w = quote :: v ∧ IsOpenRest quote v

/-- Up to `w` the string is open, but with `c` it is neither open nor complete. -/
def Rejects (w : List Char) (c : Char) : Prop :=
  IsOpenString w ∧ ¬ IsOpenString (w ++ [c]) ∧ ¬ IsString (w ++ [c])

/-- By itself a code point behind a backslash is an escape unless it starts a longer one or is a
digit. -/
theorem isStringUnit_pair {quote c : Char} :
    IsStringUnit quote ['\\', c] ↔ isDecimalDigit c = false ∧ c ≠ 'x' ∧ c ≠ 'u' := by
  have hclass : (isSingleCharEscape c || isNonEscapeChar c) = true ↔
      isDecimalDigit c = false ∧ c ≠ 'x' ∧ c ≠ 'u' := by
    by_cases hsingle : isSingleCharEscape c = true
    · simp only [hsingle, Bool.true_or, true_iff]
      unfold isSingleCharEscape at hsingle
      split at hsingle
      case h_10 => simp at hsingle
      all_goals decide
    · simp [isNonEscapeChar, isEscapeChar, hsingle, and_assoc]
  rw [← hclass]
  constructor
  · intro h
    cases h with
    | byte hlength => simp at hlength
    | number he =>
      cases he with
      | plain hlength => simp at hlength
    | verbatim hc => exact hc
  · exact .verbatim

/-! ### What a text leaves open -/

theorem unicodeEscape_cut {n : Nat} {cs : List Char} (h : unicodeEscape cs = .cutShort n) :
    IsOpenEscape cs := by
  cases cs with
  | nil => exact .plain (by decide) (by simp)
  | cons c cs =>
    rw [unicodeEscape] at h
    split at h
    · next hc =>
      subst hc
      obtain ⟨l, hl, -⟩ := after_eq_cutShort.1 h
      exact .braced (bracedDigits_cut hl)
    · split at h
      · next hc =>
        obtain ⟨l, hl, -⟩ := after_eq_cutShort.1 h
        obtain ⟨hlength, hcs⟩ := hexDigits_cut hl
        exact .plain (Nat.succ_lt_succ hlength) (List.forall_mem_cons.2 ⟨hc, hcs⟩)
      · simp at h

theorem stringEscape_cut {n : Nat} {cs : List Char} (h : stringEscape cs = .cutShort n) :
    IsOpenUnit ('\\' :: cs) := by
  unfold stringEscape at h
  split at h
  · exact .backslash
  · exact .zero
  · split at h <;> simp at h
  · obtain ⟨l, hl, -⟩ := after_eq_cutShort.1 h
    obtain ⟨hlength, hcs⟩ := hexDigits_cut hl
    exact .byte hlength hcs
  · obtain ⟨l, hl, -⟩ := after_eq_cutShort.1 h
    exact .number (unicodeEscape_cut hl)
  · simp at h
  · simp at h
  · split at h <;> simp at h

theorem hexDigits_open {count : Nat} {ds : List Char} (hlength : ds.length < count)
    (hds : ∀ c ∈ ds, isHexDigit c = true) : hexDigits count ds = .cutShort ds.length := by
  induction ds generalizing count with
  | nil =>
    obtain ⟨count, rfl⟩ := Nat.exists_eq_succ_of_ne_zero (Nat.ne_of_gt hlength)
    rfl
  | cons c ds ih =>
    obtain ⟨count, rfl⟩ := Nat.exists_eq_succ_of_ne_zero (Nat.ne_zero_of_lt hlength)
    obtain ⟨hc, hds⟩ := List.forall_mem_cons.1 hds
    rw [hexDigits, if_pos hc, ih (Nat.lt_of_succ_lt_succ hlength) hds, EscapeReading.after,
      List.length_cons, Nat.add_comm]

theorem unicodeEscape_open {e : List Char} (h : IsOpenEscape e) :
    unicodeEscape e = .cutShort e.length := by
  cases h with
  | plain hlength hds =>
    cases e with
    | nil => rfl
    | cons c ds =>
      obtain ⟨hc, hds⟩ := List.forall_mem_cons.1 hds
      obtain ⟨hbrace, -⟩ := ne_brace_of_isHexDigit hc
      rw [unicodeEscape, if_neg hbrace, if_pos hc,
        hexDigits_open (Nat.lt_of_succ_lt_succ hlength) hds, EscapeReading.after, List.length_cons,
        Nat.add_comm]
  | braced hds =>
    rw [unicodeEscape, if_pos rfl, braced_digits hds, EscapeReading.after, List.length_cons,
      Nat.add_comm]

theorem stringEscape_open {e : List Char} (h : IsOpenUnit ('\\' :: e)) :
    stringEscape e = .cutShort e.length := by
  cases h with
  | backslash => rfl
  | zero => rfl
  | byte hlength hds =>
    rw [stringEscape, hexDigits_open hlength hds, EscapeReading.after, List.length_cons,
      Nat.add_comm]
  | number he =>
    rw [stringEscape, unicodeEscape_open he, EscapeReading.after, List.length_cons, Nat.add_comm]

theorem stringRest_units {quote : Char} (hquote : quote = '"' ∨ quote = '\'') {u : List Char}
    (h : IsUnits quote u) (cs : List Char) :
    stringRest quote 0 (u ++ cs) = (stringRest quote 0 cs).after u.length := by
  induction h with
  | nil => simp
  | unit hu _ ih =>
    rw [List.append_assoc, stringRest_unit hquote hu, ih, Reading.after_after, List.length_append]

theorem stringRest_open {quote : Char} (hquote : quote = '"' ∨ quote = '\'') {w : List Char}
    (h : IsOpenRest quote w) : stringRest quote 0 w = .openString w.length := by
  obtain ⟨u, e, hu, he, rfl⟩ := h
  have hend : stringRest quote 0 e = .openString e.length := by
    rcases he with rfl | he
    · rfl
    · obtain ⟨e, rfl⟩ : ∃ e', e = '\\' :: e' := by cases he <;> exact ⟨_, rfl⟩
      exact stringRest_cutShort hquote (stringEscape_open he)
  rw [stringRest_units hquote hu, hend, Reading.after, List.length_append]

/-! ### The code point to blame -/

theorem after_eq_malformed {n m : Nat} {e : EscapeReading} :
    e.after n = .malformed m ↔ ∃ l, e = .malformed l ∧ m = n + l := by
  cases e <;> simp [EscapeReading.after, eq_comm]

/-- A reader blames the code point behind an open start of the text, whatever follows it. -/
def Blames (IsOpen : List Char → Prop) (read : List Char → EscapeReading) (n : Nat)
    (cs : List Char) : Prop :=
  ∃ e c r, cs = e ++ c :: r ∧ n = e.length + 1 ∧ IsOpen e ∧ ∀ r, read (e ++ c :: r) = .malformed n

namespace Blames

variable {P P' : List Char → Prop} {read read' : List Char → EscapeReading} {n : Nat} {c : Char}
  {cs : List Char}

theorem first (hopen : P []) (hread : ∀ r, read (c :: r) = .malformed 1) :
    Blames P read 1 (c :: cs) := ⟨[], c, cs, rfl, rfl, hopen, hread⟩

/-- What a reader blames is still to blame behind a code point that is read before. -/
theorem cons (h : Blames P read n cs) (hopen : ∀ e, P e → P' (c :: e))
    (hread : ∀ r, read' (c :: r) = (read r).after 1) : Blames P' read' (1 + n) (c :: cs) := by
  obtain ⟨e, d, r, rfl, rfl, he, hblames⟩ := h
  refine ⟨c :: e, d, r, rfl, Nat.add_comm .., hopen e he, fun r => ?_⟩
  rw [List.cons_append, hread, hblames, EscapeReading.after]

end Blames

theorem hexDigits_blames {count n : Nat} {cs : List Char} (h : hexDigits count cs = .malformed n) :
    Blames (fun ds => ds.length < count ∧ ∀ c ∈ ds, isHexDigit c = true) (hexDigits count) n
      cs := by
  induction cs generalizing count n with
  | nil => cases count <;> simp [hexDigits] at h
  | cons c cs ih =>
    cases count with
    | zero => simp [hexDigits] at h
    | succ count =>
      rw [hexDigits] at h
      split at h
      · next hc =>
        obtain ⟨l, hl, rfl⟩ := after_eq_malformed.1 h
        refine (ih hl).cons (fun ds hds => ?_) fun r => by rw [hexDigits, if_pos hc]
        exact ⟨Nat.succ_lt_succ hds.1, List.forall_mem_cons.2 ⟨hc, hds.2⟩⟩
      · next hc =>
        obtain rfl := EscapeReading.malformed.inj h
        exact .first ⟨Nat.succ_pos _, by simp⟩ fun r => by rw [hexDigits, if_neg hc]

theorem bracedDigits_blames {value n : Nat} {count : Int32} {cs : List Char}
    (h : bracedDigits value count cs = .malformed n) :
    Blames (fun ds => ∀ c ∈ ds, isHexDigit c = true) (bracedDigits value count) n cs := by
  induction cs generalizing value count n with
  | nil => simp [bracedDigits] at h
  | cons c cs ih =>
    rw [bracedDigits] at h
    split at h
    · next hbrace =>
      split at h
      · simp at h
      · next hvalue =>
        obtain rfl := EscapeReading.malformed.inj h
        exact .first (by simp) fun r => by rw [bracedDigits, if_pos hbrace, if_neg hvalue]
    · next hbrace =>
      split at h
      · next digit hdigit =>
        obtain ⟨l, hl, rfl⟩ := after_eq_malformed.1 h
        refine (ih hl).cons (fun ds hds => ?_) fun r => by rw [bracedDigits, if_neg hbrace, hdigit]
        exact List.forall_mem_cons.2 ⟨by rw [isHexDigit, hdigit]; rfl, hds⟩
      · next hdigit =>
        obtain rfl := EscapeReading.malformed.inj h
        exact .first (by simp) fun r => by rw [bracedDigits, if_neg hbrace, hdigit]

theorem unicodeEscape_blames {n : Nat} {cs : List Char} (h : unicodeEscape cs = .malformed n) :
    Blames IsOpenEscape unicodeEscape n cs := by
  cases cs with
  | nil => simp [unicodeEscape] at h
  | cons c cs =>
    rw [unicodeEscape] at h
    split at h
    · next hc =>
      subst hc
      obtain ⟨l, hl, rfl⟩ := after_eq_malformed.1 h
      exact (bracedDigits_blames hl).cons (fun _ hds => .braced hds) fun r => by
        rw [unicodeEscape, if_pos rfl, braced]
    · next hbrace =>
      split at h
      · next hc =>
        obtain ⟨l, hl, rfl⟩ := after_eq_malformed.1 h
        refine (hexDigits_blames hl).cons (fun ds hds => ?_) fun r => by
          rw [unicodeEscape, if_neg hbrace, if_pos hc]
        exact .plain (Nat.succ_lt_succ hds.1) (List.forall_mem_cons.2 ⟨hc, hds.2⟩)
      · next hc =>
        obtain rfl := EscapeReading.malformed.inj h
        exact .first (.plain (by decide) (by simp)) fun r => by
          rw [unicodeEscape, if_neg hbrace, if_neg hc]

theorem stringEscape_blames {n : Nat} {cs : List Char} (h : stringEscape cs = .malformed n) :
    Blames (fun e => IsOpenUnit ('\\' :: e)) stringEscape n cs := by
  unfold stringEscape at h
  split at h
  · simp at h
  · simp at h
  · next c cs =>
    split at h
    · simp at h
    · next hc =>
      obtain rfl := EscapeReading.malformed.inj h
      exact ⟨['0'], c, cs, rfl, rfl, .zero, fun r => if_neg hc⟩
  · obtain ⟨l, hl, rfl⟩ := after_eq_malformed.1 h
    exact (hexDigits_blames hl).cons (fun _ hds => .byte hds.1 hds.2) fun _ => rfl
  · obtain ⟨l, hl, rfl⟩ := after_eq_malformed.1 h
    exact (unicodeEscape_blames hl).cons (fun _ he => .number he) fun _ => rfl
  · simp at h
  · simp at h
  · next c cs hzero hdigit hx hu hbreak hreturn =>
    split at h
    · simp at h
    · next hc =>
      obtain rfl := EscapeReading.malformed.inj h
      have hother : c ≠ '0' ∧ c ≠ 'x' ∧ c ≠ 'u' ∧ c ≠ '\r' := by
        refine ⟨?_, ?_, ?_, ?_⟩
        · rintro rfl
          cases cs with
          | nil => exact hzero rfl rfl
          | cons d cs => exact hdigit d cs rfl rfl
        · rintro rfl
          exact hx rfl
        · rintro rfl
          exact hu rfl
        · rintro rfl
          exact hreturn rfl
      exact .first .backslash fun r => by simp [stringEscape, hother, hc]

theorem stringRest_blames {quote : Char} (hquote : quote = '"' ∨ quote = '\'') {n : Nat}
    {cs : List Char} (h : stringRest quote 0 cs = .malformed n) :
    ∃ w c r, cs = w ++ c :: r ∧ IsOpenRest quote w ∧
      ∀ r, stringRest quote 0 (w ++ c :: r) = .malformed (w.length + 1) := by
  induction cs using unit_induction quote generalizing n with
  | nil => simp [stringRest] at h
  | close cs => simp [stringRest] at h
  | unit u cs hu ih =>
    rw [stringRest_unit hquote hu] at h
    obtain ⟨m, hm, -⟩ := Reading.after_eq_malformed.1 h
    obtain ⟨w, c, r, rfl, hw, hblames⟩ := ih hm
    refine ⟨u ++ w, c, r, by rw [List.append_assoc], .unit hu hw, fun r => ?_⟩
    rw [List.append_assoc, stringRest_unit hquote hu, hblames, Reading.after, List.length_append,
      Nat.add_assoc]
  | malformed cs m hescape =>
    obtain ⟨e, c, r, rfl, rfl, he, hblames⟩ := stringEscape_blames hescape
    exact ⟨'\\' :: e, c, r, rfl, ⟨[], _, .nil, .inr he, rfl⟩, fun r =>
      stringRest_malformed hquote (hblames r)⟩
  | cutShort cs m hescape => simp [stringRest_cutShort hquote hescape] at h

theorem stringRest_cut {quote : Char} (hquote : quote = '"' ∨ quote = '\'') {n : Nat}
    {cs : List Char} (h : stringRest quote 0 cs = .openString n) : IsOpenRest quote cs := by
  induction cs using unit_induction quote generalizing n with
  | nil => exact ⟨[], [], .nil, .inl rfl, rfl⟩
  | close cs => simp [stringRest] at h
  | unit u cs hu ih =>
    rw [stringRest_unit hquote hu] at h
    obtain ⟨m, hm, -⟩ := Reading.after_eq_openString.1 h
    exact .unit hu (ih hm)
  | malformed cs m hescape => simp [stringRest_malformed hquote hescape] at h
  | cutShort cs m hescape => exact ⟨[], _, .nil, .inr (stringEscape_cut hescape), rfl⟩

/-! ### Strings -/

section Strings

variable {w cs : List Char} {c : Char} {n : Nat}

theorem IsOpenString.ahead (h : IsOpenString w) (r : List Char) : stringAhead (w ++ r) = true := by
  obtain ⟨quote, v, hquote, rfl, -⟩ := h
  exact stringAhead_iff.2 ⟨quote, v ++ r, hquote, rfl⟩

theorem string_open (h : IsOpenString w) : string w = .openString w.length := by
  obtain ⟨quote, v, hquote, rfl, hv⟩ := h
  rw [string, stringRest_open hquote hv, Reading.after, List.length_cons, Nat.add_comm]

theorem string_cut (hahead : stringAhead cs = true) (h : string cs = .openString n) :
    IsOpenString cs := by
  obtain ⟨quote, v, hquote, rfl⟩ := stringAhead_iff.1 hahead
  obtain ⟨m, hm, -⟩ := Reading.after_eq_openString.1 h
  exact ⟨quote, v, hquote, rfl, stringRest_cut hquote hm⟩

theorem string_blames (hahead : stringAhead cs = true) (h : string cs = .malformed n) :
    ∃ w c, w ++ [c] <+: cs ∧ IsOpenString w ∧
      ∀ r, string (w ++ c :: r) = .malformed (w.length + 1) := by
  obtain ⟨quote, v, hquote, rfl⟩ := stringAhead_iff.1 hahead
  obtain ⟨m, hm, -⟩ := Reading.after_eq_malformed.1 h
  obtain ⟨w, c, r, rfl, hw, hblames⟩ := stringRest_blames hquote hm
  refine ⟨quote :: w, c, ⟨r, by simp⟩, ⟨quote, w, hquote, rfl, hw⟩, fun r => ?_⟩
  rw [List.cons_append, string, hblames, List.length_cons]
  exact congrArg _ (Nat.add_comm ..)

/-- What is to blame whatever follows it is rejected. -/
theorem rejects_of_blames (hw : IsOpenString w)
    (hblames : ∀ r, string (w ++ c :: r) = .malformed (w.length + 1)) : Rejects w c := by
  refine ⟨hw, fun hopen => ?_, fun hstring => ?_⟩
  · have hread := string_open hopen
    simp [hblames] at hread
  · have hread := (string_complete hstring []).2
    simp [hblames] at hread

/-- A brace is rejected that closes digits whose count is not positive or whose value is no code
point. -/
theorem rejects_brace {quote : Char} (hquote : quote = '"' ∨ quote = '\'') {u ds : List Char}
    (hu : IsUnits quote u) (hds : ∀ c ∈ ds, isHexDigit c = true)
    (h : ¬ CountsPositive ds.length ∨ maxCodePoint < hexNumber 0 ds) :
    Rejects (quote :: (u ++ '\\' :: 'u' :: '\x7b' :: ds)) '\x7d' := by
  refine rejects_of_blames
    ⟨quote, _, hquote, rfl, u, _, hu, .inr (.number (.braced hds)), rfl⟩ fun r => ?_
  have hbad : ¬ (CountsPositive ds.length ∧ hexNumber 0 ds ≤ maxCodePoint) := by
    rintro ⟨hcount, hle⟩
    exact h.elim (fun hnot => hnot hcount) (Nat.not_lt_of_le hle)
  have hdigits := braced_brace hds r
  rw [if_neg hbad] at hdigits
  have hescape : stringEscape ('u' :: '\x7b' :: (ds ++ '\x7d' :: r)) =
      .malformed (ds.length + 3) := by
    rw [stringEscape, unicodeEscape, if_pos rfl, hdigits]
    simp only [EscapeReading.after]
    congr 1
    omega
  rw [List.cons_append, List.append_assoc, List.cons_append, string, stringRest_units hquote hu,
    List.cons_append, List.cons_append, stringRest_malformed hquote hescape]
  simp only [Reading.after, List.length_cons, List.length_append]
  congr 1
  omega

/-- A reading blames what is rejected, whatever follows it. -/
theorem string_rejects (h : Rejects w c) (r : List Char) :
    string (w ++ c :: r) = .malformed (w.length + 1) := by
  obtain ⟨hw, hopen, hstring⟩ := h
  have hread := string_open hw
  have hahead := hw.ahead [c]
  cases hreading : string (w ++ [c]) with
  | token k n =>
    obtain ⟨v, r', hsplit, -, ⟨-, hv⟩, -⟩ := string_sound hahead hreading
    -- a string that ends before `c` would be all that is read of `w`
    rcases List.prefix_concat_iff.1 ⟨r', hsplit.symm⟩ with rfl | ⟨r', rfl⟩
    · exact absurd hv hstring
    · simp [(string_complete hv r').2] at hread
  | malformed n =>
    obtain ⟨v, d, hpre, -, hblames⟩ := string_blames hahead hreading
    rcases List.prefix_concat_iff.1 hpre with heq | ⟨r', rfl⟩
    · obtain ⟨rfl, hd⟩ := List.append_inj' heq rfl
      obtain ⟨rfl, -⟩ := List.cons.inj hd
      exact hblames r
    · rw [List.append_assoc, List.singleton_append, hblames] at hread
      cases hread
  | openString n => exact absurd (string_cut hahead hreading) hopen
  | openComment n =>
    rcases string_outcome hahead with hdecides | hcut
    · simp [hreading, Reading.Decides] at hdecides
    · simp [hreading] at hcut

/-- Zeros between braces spoil a string if their count is not positive. -/
theorem string_zeros {m : Nat} (hm : ¬ CountsPositive m) (r : List Char) :
    string ('"' :: '\\' :: 'u' :: '\x7b' :: (List.replicate m '0' ++ '\x7d' :: r)) =
      .malformed (m + 5) := by
  have hrejects : Rejects ('"' :: ([] ++ '\\' :: 'u' :: '\x7b' :: List.replicate m '0')) '\x7d' :=
    rejects_brace (.inl rfl) .nil (isHexDigit_of_mem_zeros m)
      (.inl (by rwa [List.length_replicate]))
  have hread := string_rejects hrejects r
  simpa only [List.nil_append, List.cons_append, List.length_cons, List.length_replicate]
    using hread

/-- Behind a quote a text starts with a string, or it is open, or a code point of it is rejected. -/
theorem string_cases (hahead : stringAhead cs = true) :
    (∃ w, w <+: cs ∧ IsString w) ∨ IsOpenString cs ∨ ∃ w c, w ++ [c] <+: cs ∧ Rejects w c := by
  cases hreading : string cs with
  | token k n =>
    obtain ⟨w, r, rfl, -, ⟨-, hw⟩, -⟩ := string_sound hahead hreading
    exact .inl ⟨w, List.prefix_append w r, hw⟩
  | malformed n =>
    obtain ⟨w, c, hpre, hw, hblames⟩ := string_blames hahead hreading
    exact .inr (.inr ⟨w, c, hpre, rejects_of_blames hw hblames⟩)
  | openString n => exact .inr (.inl (string_cut hahead hreading))
  | openComment n =>
    rcases string_outcome hahead with hdecides | hcut
    · simp [hreading, Reading.Decides] at hdecides
    · simp [hreading] at hcut

/-- A text starts with at most one string. -/
theorem IsString.eq_of_prefix {w' : List Char} (hw : IsString w) (hw' : IsString w')
    (hpre : w <+: cs) (hpre' : w' <+: cs) : w = w' := by
  obtain ⟨r, rfl⟩ := hpre
  obtain ⟨r', hr'⟩ := hpre'
  have hread := (string_complete hw r).2
  rw [← hr', (string_complete hw' r').2] at hread
  obtain ⟨-, hlength⟩ := Reading.token.inj hread
  exact (List.append_inj hr' hlength).1.symm

end Strings

end Lexeme

/-! ### The matcher -/

open Lexeme

/-- Behind a quote the matcher of strings passes `w` and makes it a token exactly if the text starts
with `w` and `w` is a string; there is at most one such `w`. It reports that the string is left
open, at the end of the text, if no code point of it is rejected before, and otherwise it passes the
first one that is and reports it as unexpected. A brace is such a code point if it closes an escape
without digits, with a value that is too large, or with digits whose count has wrapped and is not
positive. -/
theorem string_literal_outcome {quote : Char} (hquote : quote = '"' ∨ quote = '\'') {s : Cursor}
    (hahead : s.rest.head? = some quote) (ctx : Context) :
    let result := Builtin.string.produce ctx s
    (∀ w, result.1.isOk = true ∧ s.rest = w ++ result.2.rest ↔ w <+: s.rest ∧ IsString w) ∧
    (∀ w w', w <+: s.rest ∧ IsString w → w' <+: s.rest ∧ IsString w' → w = w') ∧
    (∀ w, w <+: s.rest ∧ IsString w →
      result = (.ok ⟨.string, String.ofList w, ctx.start, (s.skip w.length).position⟩,
        s.skip w.length)) ∧
    (IsOpenString s.rest →
      result = (.error (.unterminatedString ctx.start (s.skip s.rest.length).position),
        s.skip s.rest.length)) ∧
    (∀ w c, w ++ [c] <+: s.rest → Rejects w c →
      result = (.error (.unexpectedToken "string" (s.skip (w.length + 1)).position),
        s.skip (w.length + 1))) ∧
    ((∃ w, w <+: s.rest ∧ IsString w) ∨ IsOpenString s.rest ∨
      ∃ w c, w ++ [c] <+: s.rest ∧ Rejects w c) ∧
    (∀ u ds, IsUnits quote u → (∀ c ∈ ds, isHexDigit c = true) →
      ¬ CountsPositive ds.length ∨ maxCodePoint < hexNumber 0 ds →
      Rejects (quote :: (u ++ '\\' :: 'u' :: '\x7b' :: ds)) '\x7d') ∧
    ∀ c, IsStringUnit quote ['\\', c] ↔ isDecimalDigit c = false ∧ c ≠ 'x' ∧ c ≠ 'u' := by
  intro result
  have hstart : stringAhead s.rest = true := by
    obtain ⟨r, hr⟩ := List.head?_eq_some_iff.1 hahead
    exact stringAhead_iff.2 ⟨quote, r, hquote, hr⟩
  have hresult : result = (Builtin.string.outcome (.here ctx s)
      (s.skip (string s.rest).length) (string s.rest), s.skip (string s.rest).length) := rfl
  have htoken : ∀ w, w <+: s.rest ∧ IsString w →
      result = (.ok ⟨.string, String.ofList w, ctx.start, (s.skip w.length).position⟩,
        s.skip w.length) := by
    rintro w ⟨⟨r, hr⟩, hw⟩
    have htake : s.rest.take w.length = w := by rw [← hr, List.take_left]
    have hread : string s.rest = .token .string w.length := hr ▸ (string_complete hw r).2
    exact Builtin.produce_eq_ok.2 ⟨w.length, hread, rfl, by rw [htake]⟩
  refine ⟨?_, ?_, htoken, ?_, ?_, string_cases hstart,
    fun _ _ hu hds hvalue => rejects_brace hquote hu hds hvalue, fun _ => isStringUnit_pair⟩
  · intro w
    constructor
    · rintro ⟨hok, hrest⟩
      cases hreading : string s.rest with
      | token k n =>
        obtain ⟨v, r, hv, rfl, ⟨-, hstring⟩, -⟩ := string_sound hstart hreading
        have hleft : result.2.rest = r := by
          rw [hresult, hreading, Cursor.rest_skip, hv]
          exact List.drop_left
        -- the same text is left behind both
        obtain rfl : w = v := List.append_cancel_right (hrest.symm.trans (hleft ▸ hv))
        exact ⟨⟨r, hv.symm⟩, hstring⟩
      | malformed | openString | openComment =>
        rw [hresult, hreading] at hok
        cases hok
    · intro hw
      obtain ⟨r, hr⟩ := hw.1
      rw [htoken w hw, Cursor.rest_skip, ← hr, List.drop_left]
      exact ⟨rfl, rfl⟩
  · rintro w w' ⟨hpre, hw⟩ ⟨hpre', hw'⟩
    exact hw.eq_of_prefix hw' hpre hpre'
  · intro hopen
    rw [hresult, string_open hopen]
    rfl
  · rintro w c ⟨r, hr⟩ hrejects
    have hread : string s.rest = .malformed (w.length + 1) := by
      rw [← hr, List.append_assoc]
      exact string_rejects hrejects r
    rw [hresult, hread]
    rfl

/-- In the middle of a text, a string with an escaped quote, and behind it one with an escape whose
value is too large. -/
theorem string_literal_outcome_quotes :
    let s := (Cursor.start "x'\\''\"\\u\x7b110000\x7d\"".toList).next.2
    let ctx : Context := ⟨some ⟨.identifierName, "x", ⟨0, 0⟩, ⟨0, 1⟩⟩⟩
    Builtin.string.produce ctx s = (.ok ⟨.string, "'\\''", ⟨0, 1⟩, ⟨0, 5⟩⟩, s.skip 4) ∧
      Builtin.string.produce ctx (s.skip 4) =
        (.error (.unexpectedToken "string" ⟨0, 16⟩), s.skip 15) := by
  intro s ctx
  have hescaped : IsString ['\'', '\\', '\'', '\''] :=
    ⟨'\'', _, .inr rfl, rfl, .unit (u := ['\\', '\'']) (.verbatim rfl) .close⟩
  have hdigits : ∀ c ∈ ['1', '1', '0', '0', '0', '0'], isHexDigit c = true :=
    List.all_eq_true.1 rfl
  obtain ⟨-, -, htoken, -⟩ := string_literal_outcome (.inr rfl) (s := s) rfl ctx
  obtain ⟨-, -, -, -, hrejected, -, hbrace, -⟩ :=
    string_literal_outcome (.inl rfl) (s := s.skip 4) rfl ctx
  refine ⟨htoken _ ⟨⟨_, rfl⟩, hescaped⟩, ?_⟩
  exact hrejected _ _ ⟨['"'], rfl⟩ (hbrace [] _ .nil hdigits (.inr (by decide)))

/-- The number of a code point between braces, but with as many zeros as make the count negative:
the string is refused at the closing brace. -/
theorem string_refuses_zeros :
    let ds := List.replicate (2 ^ 31) '0'
    let s := Cursor.start ('"' :: '\\' :: 'u' :: '\x7b' :: (ds ++ ['\x7d', '"']))
    IsCodePointNumber ds ∧
      Builtin.string.produce .initial s =
        (.error (.unexpectedToken "string" (s.skip (2 ^ 31 + 5)).position),
          s.skip (2 ^ 31 + 5)) := by
  intro ds s
  have hcount : ¬ CountsPositive (2 ^ 31) := by decide
  have hread : Builtin.string.read s.rest = .malformed (2 ^ 31 + 5) := string_zeros hcount ['"']
  exact ⟨isCodePointNumber_zeros (by decide), Builtin.produce_of_read hread .initial⟩

end JsLexer
