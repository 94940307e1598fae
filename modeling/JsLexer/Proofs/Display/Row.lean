import JsLexer.Proofs.Display.Colour
import JsLexer.Proofs.Quoted

/-!
Rows tell tokens apart and stay on their line.

A row can be read from left to right: the span has no escape character and ends at one, the name of
the kind has no space and ends at one, and what is left is the quoted text in the colour of that
kind. The widths of the columns play no part in this, so a wide span does no harm. Apart from the
escape sequences of its colours, everything in a row can be printed.
-/

namespace JsLexer.Display

/-- A mark that two texts do not contain is found at the same place behind them. -/
theorem append_cons_inj {α : Type} {m : α} {v w x y : List α} (hv : m ∉ v) (hw : m ∉ w)
    (h : v ++ m :: x = w ++ m :: y) : v = w ∧ x = y := by
  induction v generalizing w with
  | nil =>
    cases w with
    | nil => exact ⟨rfl, (List.cons.inj h).2⟩
    | cons b w => exact absurd ((List.cons.inj h).1 ▸ List.mem_cons_self) hw
  | cons a v ih =>
    cases w with
    | nil => exact absurd ((List.cons.inj h).1 ▸ List.mem_cons_self) hv
    | cons b w =>
      obtain ⟨rfl, hrest⟩ := List.cons.inj h
      have hv' : m ∉ v := mt (List.mem_cons_of_mem _) hv
      have hw' : m ∉ w := mt (List.mem_cons_of_mem _) hw
      obtain ⟨rfl, hxy⟩ := ih hv' hw' hrest
      exact ⟨rfl, hxy⟩

/-! ### Numbers -/

theorem not_mem_toDigits {c : Char} (hc : c.isDigit = false) (n : Nat) : c ∉ Nat.toDigits 10 n := by
  intro h
  rw [Nat.isDigit_of_mem_toDigits (by decide) (by decide) h] at hc
  exact Bool.noConfusion hc

theorem toDigits_injective : Function.Injective (Nat.toDigits 10) := by
  intro m n h
  have hnumber := congrArg (Nat.ofDigitChars 10 · 0) h
  simpa using hnumber

theorem all_isPrinted_toDigits (n : Nat) : (Nat.toDigits 10 n).all Text.isPrinted = true := by
  refine List.all_eq_true.2 fun c hc => ?_
  have hdigit : c.isDigit = true := Nat.isDigit_of_mem_toDigits (by decide) (by decide) hc
  simp only [Char.isDigit, Bool.and_eq_true, decide_eq_true_eq] at hdigit
  have hlow : 48 ≤ c.toNat := hdigit.1
  have hhigh : c.toNat ≤ 57 := hdigit.2
  exact Text.isPrinted_of_ascii (by omega) (by omega)

/-! ### Columns -/

theorem toList_span (t : Token) : (span t).toList =
    Nat.toDigits 10 t.start.line ++ ':' :: (Nat.toDigits 10 t.start.column ++
      '-' :: (Nat.toDigits 10 t.stop.line ++ ':' :: Nat.toDigits 10 t.stop.column)) := by
  have hspan : span t = t.start.line.repr ++ ":" ++ t.start.column.repr ++ "-" ++
      t.stop.line.repr ++ ":" ++ t.stop.column.repr := rfl
  simp [hspan]

/-- The span tells where a token starts and ends. -/
theorem span_injective {t u : Token} (h : span t = span u) :
    t.start = u.start ∧ t.stop = u.stop := by
  have hlist := congrArg String.toList h
  rw [toList_span, toList_span] at hlist
  have hcolon : ∀ n, ':' ∉ Nat.toDigits 10 n := not_mem_toDigits (by decide)
  have hdash : ∀ n, '-' ∉ Nat.toDigits 10 n := not_mem_toDigits (by decide)
  obtain ⟨hline, hlist⟩ := append_cons_inj (hcolon _) (hcolon _) hlist
  obtain ⟨hcolumn, hlist⟩ := append_cons_inj (hdash _) (hdash _) hlist
  obtain ⟨hline', hcolumn'⟩ := append_cons_inj (hcolon _) (hcolon _) hlist
  exact ⟨congrArg₂ Position.mk (toDigits_injective hline) (toDigits_injective hcolumn),
    congrArg₂ Position.mk (toDigits_injective hline') (toDigits_injective hcolumn')⟩

theorem not_mem_span {c : Char} (hc : c.isDigit = false) (hcolon : c ≠ ':') (hdash : c ≠ '-')
    (t : Token) : c ∉ (span t).toList := by
  have hdigits := not_mem_toDigits hc
  simp [toList_span, hdigits, hcolon, hdash]

/-- Spaces in front of a text without spaces do not belong to it. -/
theorem padLeft_inj {n : Nat} {s s' : String} (hs : ' ' ∉ s.toList) (hs' : ' ' ∉ s'.toList)
    (h : (padLeft n s).toList = (padLeft n s').toList) : s = s' := by
  have hkept : ∀ s : String, ' ' ∉ s.toList →
      (padLeft n s).toList.filter (· != ' ') = s.toList := by
    intro s hs
    have hall : ∀ c ∈ s.toList, (c != ' ') = true := fun c hc => by
      simpa using ne_of_mem_of_not_mem hc hs
    rw [padLeft, filler, String.toList_append, String.toList_ofList, List.filter_append,
      List.filter_replicate_of_neg (by decide), List.nil_append, List.filter_eq_self.2 hall]
  have hfilter := congrArg (List.filter (· != ' ')) h
  rw [hkept s hs, hkept s' hs'] at hfilter
  exact String.toList_inj.1 hfilter

/-- The names of kinds are made up of capitals and underscores. -/
theorem name_range (k : TokenKind) : ∀ c ∈ k.name.toList, 'A' ≤ c ∧ c ≤ '_' := by
  have hall : ∀ k ∈ TokenKind.all, (k.name.toList.all fun c => 'A' ≤ c && c ≤ '_') = true := by
    decide +kernel
  simpa using hall k k.mem_all

theorem not_mem_name (k : TokenKind) : ' ' ∉ k.name.toList := fun h =>
  absurd (name_range k ' ' h) (by decide)

theorem paint_injective (k : TokenKind) : Function.Injective (paint k) := by
  have happly : ∀ s : Style, Function.Injective s.apply := by
    intro s x y h
    have hlist := congrArg String.toList h
    simpa [Style.apply, String.toList_inj] using hlist
  exact paint_induction (P := Function.Injective) Function.injective_id
    (fun s _ hf => (happly s).comp hf) k

/-! ### Reading a row -/

theorem replicate_append_cons (n : Nat) (c : Char) (cs : List Char) :
    List.replicate n c ++ c :: cs = c :: (List.replicate n c ++ cs) := by
  induction n with
  | zero => rfl
  | succ n ih => rw [List.replicate_succ, List.cons_append, ih, List.cons_append]

/-- A row with the marks at which its span and the name of its kind end. -/
theorem toList_row (t : Token) : (row t).toList =
    (Style.sequence 2).toList ++ ((padLeft 14 (span t)).toList ++
      '\x1b' :: '[' :: '0' :: 'm' :: ' ' :: ' ' :: (t.kind.name.toList ++
        ' ' :: (List.replicate (30 - t.kind.name.length) ' ' ++
          ' ' :: (paint t.kind (Text.quoted t.text)).toList))) := by
  have hreset : (Style.sequence 0).toList = ['\x1b', '[', '0', 'm'] := by
    rw [Style.toList_sequence]
    decide
  simp [row, Style.apply, Style.code, Style.resetCode, hreset, padRight, filler,
    replicate_append_cons]

theorem row_injective : Function.Injective row := by
  intro t u h
  have hlist := congrArg String.toList h
  rw [toList_row, toList_row, List.append_cancel_left_eq] at hlist
  have hesc : ∀ t, '\x1b' ∉ (padLeft 14 (span t)).toList := by
    intro t
    have hspan : '\x1b' ∉ (span t).toList := not_mem_span (by decide) (by decide) (by decide) t
    simp [padLeft, filler, hspan]
  have hspace := not_mem_span (c := ' ') (by decide) (by decide) (by decide)
  -- the first column ends at the escape character that turns its style off
  obtain ⟨hpadded, hlist⟩ := append_cons_inj (hesc t) (hesc u) hlist
  obtain ⟨hstart, hstop⟩ := span_injective (padLeft_inj (hspace t) (hspace u) hpadded)
  simp only [List.cons.injEq, true_and] at hlist
  -- the name ends at a space however long it is, and decides how the rest is painted
  obtain ⟨hname, hlist⟩ := append_cons_inj (not_mem_name t.kind) (not_mem_name u.kind) hlist
  have hkind : t.kind = u.kind := by
    have hfound := congrArg TokenKind.ofName? (String.toList_inj.1 hname)
    simpa [TokenKind.ofName?_name] using hfound
  rw [hkind, List.append_cancel_left_eq] at hlist
  have htext : t.text = u.text :=
    Text.quoted_injective (paint_injective _ (String.toList_inj.1 (List.cons.inj hlist).2))
  calc t = ⟨t.kind, t.text, t.start, t.stop⟩ := rfl
    _ = u := by rw [hkind, htext, hstart, hstop]

/-! ### What a row is made of -/

/-- A row without its colours. -/
def plainRow (t : Token) : String :=
  padLeft 14 (span t) ++ "  " ++ padRight 30 t.kind.name ++ "  " ++ Text.quoted t.text

/-- Apart from escape characters, everything in a text can be printed. -/
def Safe (s : String) : Prop := ∀ c ∈ s.toList, c = '\x1b' ∨ Text.isPrinted c = true

theorem Safe.append {s s' : String} (h : Safe s) (h' : Safe s') : Safe (s ++ s') := by
  intro c hc
  rw [String.toList_append, List.mem_append] at hc
  exact hc.elim (h c) (h' c)

theorem safe_sequence (n : Nat) : Safe (Style.sequence n) := by
  intro c hc
  rw [Style.toList_sequence] at hc
  simp only [List.mem_cons, List.mem_append, List.not_mem_nil, or_false] at hc
  rcases hc with rfl | rfl | hdigit | rfl
  · exact .inl rfl
  · exact .inr (by decide)
  · exact .inr (List.all_eq_true.1 (all_isPrinted_toDigits n) c hdigit)
  · exact .inr (by decide)

theorem Safe.apply {text : String} (h : Safe text) (s : Style) : Safe (s.apply text) :=
  ((safe_sequence s.code).append h).append (safe_sequence s.resetCode)

theorem Safe.paint {text : String} (h : Safe text) (k : TokenKind) : Safe (Display.paint k text) :=
  paint_induction (P := fun f => Safe (f text)) h (fun s _ hf => hf.apply s) k

section
variable {s : String} (h : s.toList.all Text.isPrinted = true)
include h

theorem safe_of_all_isPrinted : Safe s := fun c hc => .inr (List.all_eq_true.1 h c hc)

/-- What can be printed has no escape character, so it is shown as it is. -/
theorem shows_of_all_isPrinted : Shows s s :=
  shows_self fun hesc => absurd (List.all_eq_true.1 h '\x1b' hesc) (by decide)

end

theorem all_isPrinted_filler (n : Nat) (s : String) :
    (filler n s).toList.all Text.isPrinted = true := by
  rw [filler, String.toList_ofList, List.all_replicate]
  split
  · rfl
  · decide

theorem all_isPrinted_span (t : Token) :
    (padLeft 14 (span t)).toList.all Text.isPrinted = true := by
  have hcolon : Text.isPrinted ':' = true := by decide
  have hdash : Text.isPrinted '-' = true := by decide
  simp only [padLeft, String.toList_append, List.all_append, all_isPrinted_filler, toList_span,
    List.all_cons, all_isPrinted_toDigits, hcolon, hdash, Bool.and_self]

theorem all_isPrinted_name (k : TokenKind) :
    (padRight 30 k.name).toList.all Text.isPrinted = true := by
  have hname : k.name.toList.all Text.isPrinted = true := by
    refine List.all_eq_true.2 fun c hc => ?_
    have hlow : 65 ≤ c.toNat := (name_range k c hc).1
    have hhigh : c.toNat ≤ 95 := (name_range k c hc).2
    exact Text.isPrinted_of_ascii (by omega) (by omega)
  rw [padRight, String.toList_append, List.all_append, hname, all_isPrinted_filler, Bool.and_self]

theorem all_isPrinted_plainRow (t : Token) : (plainRow t).toList.all Text.isPrinted = true := by
  have hgap : "  ".toList.all Text.isPrinted = true := by decide
  simp only [plainRow, String.toList_append, List.all_append, all_isPrinted_span, hgap,
    all_isPrinted_name, Text.all_isPrinted_quoted, Bool.and_self]

theorem safe_row (t : Token) : Safe (row t) := by
  have hgap : Safe "  " := safe_of_all_isPrinted (by decide)
  have hspan := (safe_of_all_isPrinted (all_isPrinted_span t)).apply .dimmed
  have hname := safe_of_all_isPrinted (all_isPrinted_name t.kind)
  have htext := (safe_of_all_isPrinted (Text.all_isPrinted_quoted t.text)).paint t.kind
  exact (((hspan.append hgap).append hname).append hgap).append htext

theorem plain_row (t : Token) : plain (row t) = plainRow t := by
  have hgap : Shows "  " "  " := shows_of_all_isPrinted (by decide)
  have hspan := Style.shows_apply .dimmed (shows_of_all_isPrinted (all_isPrinted_span t))
  have hname := shows_of_all_isPrinted (all_isPrinted_name t.kind)
  have htext := shows_paint t.kind (shows_of_all_isPrinted (Text.all_isPrinted_quoted t.text))
  exact ((((hspan.append hgap).append hname).append hgap).append htext).plain_eq

/-- Rows are faithful and safe. Tokens with equal rows are equal, wherever they are and whatever
their texts. No line ends inside a row, and its only control characters are the escape characters
of its colours: without the escape sequences it is the padded span and name and the quoted text,
with no control character at all. -/
theorem row_faithful : Function.Injective row ∧ ∀ t : Token,
    (∀ c ∈ (row t).toList, isLineTerminator c = false ∧ (c.toNat < 0x20 → c = '\x1b')) ∧
    plain (row t) = plainRow t ∧ ∀ c ∈ (plainRow t).toList, 0x20 ≤ c.toNat := by
  refine ⟨row_injective, fun t => ⟨?_, plain_row t, ?_⟩⟩
  · intro c hc
    rcases safe_row t c hc with rfl | hprinted
    · exact ⟨rfl, fun _ => rfl⟩
    · simp only [Text.isPrinted, Bool.and_eq_true, decide_eq_true_eq, Bool.not_eq_true'] at hprinted
      exact ⟨hprinted.2, fun hlt => absurd hprinted.1 (by omega)⟩
  · intro c hc
    have hprinted := List.all_eq_true.1 (all_isPrinted_plainRow t) c hc
    simp only [Text.isPrinted, Bool.and_eq_true, decide_eq_true_eq] at hprinted
    exact hprinted.1

/-- A span wider than its column, and a text that would change the colour. -/
example : plainRow ⟨.int, "\x1b[0m\n", ⟨123456, 0⟩, ⟨123456, 10⟩⟩ =
    "123456:0-123456:10  INT                             \"\\u\x7b1b\x7d[0m\\n\"" := by
  decide +kernel

end JsLexer.Display
