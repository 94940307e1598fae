import JsLexer.Display.Table

/-!
Texts without their colours.

What a terminal shows of a text is the text without its escape sequences: an escape character, a
bracket, digits and an `m`. A text in some style shows what the text itself shows, whatever comes
behind it, and a text without an escape character shows itself.
-/

namespace JsLexer.Display

/-! ### Texts without escape sequences -/

/-- How long the escape sequence is that a text starts with; zero if it does not start with one. -/
def sequenceLength : List Char → Nat
  | '\x1b' :: '[' :: cs =>
    let digits := cs.takeWhile Char.isDigit
    if digits ≠ [] ∧ cs[digits.length]? = some 'm' then digits.length + 3 else 0
  | _ => 0

/-- A text without its escape sequences, behind as many code points of it. -/
def plainBehind : Nat → List Char → List Char
  | _, [] => []
  | n + 1, _ :: cs => plainBehind n cs
  | 0, c :: cs =>
    match sequenceLength (c :: cs) with
    | 0 => c :: plainBehind 0 cs
    | n + 1 => plainBehind n cs

/-- A text without its escape sequences. -/
def plain (s : String) : String := String.ofList (plainBehind 0 s.toList)

theorem plainBehind_length (w rest : List Char) :
    plainBehind w.length (w ++ rest) = plainBehind 0 rest := by
  induction w with
  | nil => rfl
  | cons c w ih => exact ih

theorem sequenceLength_eq_zero {c : Char} (hc : c ≠ '\x1b') (cs : List Char) :
    sequenceLength (c :: cs) = 0 := by
  simp [sequenceLength, hc]

theorem plainBehind_cons {c : Char} (hc : c ≠ '\x1b') (cs : List Char) :
    plainBehind 0 (c :: cs) = c :: plainBehind 0 cs := by
  rw [plainBehind, sequenceLength_eq_zero hc]

theorem plainBehind_append {w : List Char} (hw : '\x1b' ∉ w) (rest : List Char) :
    plainBehind 0 (w ++ rest) = w ++ plainBehind 0 rest := by
  induction w with
  | nil => rfl
  | cons c w ih =>
    obtain ⟨hc, hw⟩ := not_or.1 (mt List.mem_cons.2 hw)
    rw [List.cons_append, plainBehind_cons (Ne.symm hc), ih hw, List.cons_append]

theorem sequenceLength_digits {ds : List Char} (hds : ∀ d ∈ ds, d.isDigit = true) (hne : ds ≠ [])
    (rest : List Char) : sequenceLength ('\x1b' :: '[' :: (ds ++ 'm' :: rest)) = ds.length + 3 := by
  have hdigits : (ds ++ 'm' :: rest).takeWhile Char.isDigit = ds := by
    rw [List.takeWhile_append_of_pos hds, List.takeWhile_cons_of_neg (by decide), List.append_nil]
  simp [sequenceLength, hdigits, hne]

/-! ### What a text shows -/

/-- Without its escape sequences a text is `t`, whatever comes behind it. -/
def Shows (s t : String) : Prop :=
  ∀ rest, plainBehind 0 (s.toList ++ rest) = t.toList ++ plainBehind 0 rest

theorem Shows.plain_eq {s t : String} (h : Shows s t) : plain s = t := by
  have hplain := h []
  rw [List.append_nil, plainBehind, List.append_nil] at hplain
  rw [plain, hplain, String.ofList_toList]

theorem shows_self {s : String} (hs : '\x1b' ∉ s.toList) : Shows s s := plainBehind_append hs

theorem Shows.append {s s' t t' : String} (h : Shows s t) (h' : Shows s' t') :
    Shows (s ++ s') (t ++ t') := by
  intro rest
  rw [String.toList_append, String.toList_append, List.append_assoc, h, h', List.append_assoc]

theorem shows_join {α : Type} {f g : α → String} {xs : List α} (h : ∀ x ∈ xs, Shows (f x) (g x)) :
    Shows (String.join (xs.map f)) (String.join (xs.map g)) := by
  induction xs with
  | nil => exact shows_self (by simp)
  | cons x xs ih =>
    obtain ⟨hx, hxs⟩ := List.forall_mem_cons.1 h
    simpa using hx.append (ih hxs)

namespace Style

theorem toList_sequence (n : Nat) :
    (sequence n).toList = '\x1b' :: '[' :: (Nat.toDigits 10 n ++ ['m']) := by
  simp [sequence, Nat.toString_eq_repr, Nat.repr]

/-- Nothing is shown of an escape sequence. -/
theorem shows_sequence (n : Nat) : Shows (sequence n) "" := by
  intro rest
  have hdigits : ∀ d ∈ Nat.toDigits 10 n, d.isDigit = true := fun _ =>
    Nat.isDigit_of_mem_toDigits (by decide) (by decide)
  have hlength := sequenceLength_digits hdigits Nat.toDigits_ne_nil rest
  have hskip := plainBehind_length ('[' :: (Nat.toDigits 10 n ++ ['m'])) rest
  rw [toList_sequence]
  simp only [List.cons_append, List.append_assoc, List.nil_append, List.length_cons,
    List.length_append, List.length_nil] at hskip ⊢
  rw [plainBehind, hlength]
  exact hskip

theorem shows_apply (s : Style) {text t : String} (h : Shows text t) : Shows (s.apply text) t := by
  simpa [apply] using ((shows_sequence s.code).append h).append (shows_sequence s.resetCode)

end Style

/-- In the colour of a kind a text is set in some styles, one within the other. So what holds of the
text alone and is kept by styles holds of the text in that colour. -/
theorem paint_induction {P : (String → String) → Prop} (hid : P id)
    (happly : ∀ (s : Style) (f : String → String), P f → P (s.apply ∘ f)) (k : TokenKind) :
    P (paint k) := by
  have hstyles : ∃ styles : List Style, paint k = fun text => styles.foldr Style.apply text := by
    unfold paint
    split
    · exact ⟨[.italic, .brightBlack], rfl⟩
    repeat' split
    all_goals first | exact ⟨[], rfl⟩ | exact ⟨[_], rfl⟩
  obtain ⟨styles, hpaint⟩ := hstyles
  rw [hpaint]
  clear hpaint
  induction styles with
  | nil => exact hid
  | cons s styles ih => exact happly s _ ih

/-- The colour of a kind does not change what is shown. -/
theorem shows_paint (k : TokenKind) {text t : String} (h : Shows text t) :
    Shows (paint k text) t :=
  paint_induction (P := fun f => Shows (f text) t) h (fun s _ hf => Style.shows_apply s hf) k

end JsLexer.Display
