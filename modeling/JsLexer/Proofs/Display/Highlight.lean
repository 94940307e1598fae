import JsLexer.Proofs.Cut
import JsLexer.Proofs.Display.Colour

/-!
Colours keep the line.

The tokens that a scan produced cover the line up to where it stopped, so the line in colours shows
the texts of the tokens and then what they leave of the line. That is what is left behind as many
bytes, too: these end between two code points.
-/

namespace JsLexer

/-- What is left of a text behind its first bytes; nothing if they end inside a code point. -/
def Text.dropBytes : Nat → List Char → Option (List Char)
  | 0, cs => some cs
  | _ + 1, [] => none
  | n + 1, c :: cs => if c.utf8Size ≤ n + 1 then dropBytes (n + 1 - c.utf8Size) cs else none

theorem Text.dropBytes_byteLength (w rest : List Char) :
    dropBytes (byteLength w) (w ++ rest) = some rest := by
  induction w with
  | nil => rw [byteLength_nil, List.nil_append, dropBytes]
  | cons c w ih =>
    have hpos := c.utf8Size_pos
    obtain ⟨n, hn⟩ : ∃ n, byteLength (c :: w) = n + 1 :=
      Nat.exists_eq_succ_of_ne_zero (by rw [byteLength_cons]; omega)
    have hw : n + 1 - c.utf8Size = byteLength w := by rw [← hn, byteLength_cons]; omega
    have hle : c.utf8Size ≤ n + 1 := by rw [← hn, byteLength_cons]; omega
    rw [hn, List.cons_append, dropBytes, if_pos hle, hw, ih]

namespace Display

theorem covered_eq (tokens : List Token) : covered tokens = (textOf tokens).toList.length := by
  induction tokens with
  | nil => rfl
  | cons t tokens ih => simp [covered, ih, String.length_toList]

theorem mem_textOf {tokens : List Token} {t : Token} (ht : t ∈ tokens) {c : Char}
    (hc : c ∈ t.text.toList) : c ∈ (textOf tokens).toList := by
  induction tokens with
  | nil => simp at ht
  | cons u tokens ih =>
    rw [textOf_cons, String.toList_append, List.mem_append]
    rcases List.mem_cons.1 ht with rfl | ht
    · exact .inl hc
    · exact .inr (ih ht)

/-- The texts of tokens in their colours. -/
def painted (tokens : List Token) : String :=
  String.join (tokens.map fun t => paint t.kind t.text)

theorem shows_painted {tokens : List Token} (h : ∀ t ∈ tokens, '\x1b' ∉ t.text.toList) :
    Shows (painted tokens) (textOf tokens) :=
  shows_join fun t ht => shows_paint t.kind (shows_self (h t ht))

variable (bs : List Builtin) (line : String)

/-- A line is made up of the texts of its tokens and of what a scan leaves, which is nothing if the
scan succeeds. -/
theorem exists_left : ∃ tail : String,
    line = textOf (produced (tokenizeWith bs line)) ++ tail ∧
      (tail = "" ↔ (tokenizeWith bs line).isOk = true) := by
  obtain ⟨ps, r, hline, hdivides, hend⟩ := Builtin.exists_divides bs line.toList
  refine ⟨String.ofList r, ?_, ?_⟩
  · rw [← String.toList_inj, produced_of_divides hline hdivides hend, String.toList_append,
      textOf_layOut, String.toList_ofList, hline]
  · rw [tokenizeWith_of_divides hline hdivides hend, Piece.report]
    cases hfailure : Builtin.failure bs r with
    | none =>
      obtain rfl : r = [] := Or.resolve_right hend (by simp [hfailure])
      simp [Except.isOk, Except.toBool]
    | some e =>
      have hr : r ≠ [] := by
        rintro rfl
        simp [Builtin.failure] at hfailure
      simpa [Except.isOk, Except.toBool] using hr

/-- Colours keep a line without escape characters: without its escape sequences the line in an
editor is the line again, be it a command or source text. Source text is shown as its tokens, each
in its colour, followed by what the scan left of the line, which is copied without a colour and
starts behind the bytes of the tokens. -/
theorem plain_editorLine (hline : '\x1b' ∉ line.toList) :
    let matchers := bs.map (·.matcher)
    let tokens := produced (tokenizeBy matchers line)
    plain (editorLine matchers line) = line ∧ plain (highlight matchers line) = line ∧
    ∃ tail : String, line = textOf tokens ++ tail ∧
      (tail = "" ↔ (tokenizeBy matchers line).isOk = true) ∧
      Text.dropBytes (Text.byteLength (textOf tokens).toList) line.toList = some tail.toList ∧
      highlight matchers line = painted tokens ++ tail ∧ '\x1b' ∉ tail.toList := by
  intro matchers tokens
  obtain ⟨tail, hsplit, hend⟩ := exists_left bs line
  change line = textOf tokens ++ tail at hsplit
  have hlist : line.toList = (textOf tokens).toList ++ tail.toList := by
    rw [← String.toList_append, ← hsplit]
  have htail : '\x1b' ∉ tail.toList := fun h => hline (by simp [hlist, h])
  have htokens : ∀ t ∈ tokens, '\x1b' ∉ t.text.toList := by
    intro t ht hesc
    exact hline (hlist ▸ List.mem_append_left _ (mem_textOf ht hesc))
  have hhighlight : highlight matchers line = painted tokens ++ tail := by
    have hdrop : line.toList.drop (covered tokens) = tail.toList := by
      rw [covered_eq, hlist, List.drop_left]
    change painted tokens ++ String.ofList (line.toList.drop (covered tokens)) = _
    rw [hdrop, String.ofList_toList]
  have hplain : plain (highlight matchers line) = line := by
    rw [hhighlight, ((shows_painted htokens).append (shows_self htail)).plain_eq, ← hsplit]
  refine ⟨?_, hplain, tail, hsplit, hend, ?_, hhighlight, htail⟩
  · unfold editorLine
    split
    · exact (Style.shows_apply .magenta (shows_self hline)).plain_eq
    · exact hplain
  · rw [hlist, Text.dropBytes_byteLength]

/-- A line that stops at a code point that no category takes, between letters of two bytes. -/
theorem plain_editorLine_stray :
    let matchers := Builtin.standard.map (·.matcher)
    let tokens : List Token :=
      [⟨.identifierName, "π", ⟨0, 0⟩, ⟨0, 1⟩⟩, ⟨.add, "+", ⟨0, 1⟩, ⟨0, 2⟩⟩,
        ⟨.int, "1", ⟨0, 2⟩, ⟨0, 3⟩⟩, ⟨.space, " ", ⟨0, 3⟩, ⟨0, 4⟩⟩]
    '\x1b' ∉ "π+1 @ ü".toList ∧
      tokenizeBy matchers "π+1 @ ü" = .error ⟨tokens, .unexpectedCharacter '@' ⟨0, 4⟩⟩ ∧
      plain (editorLine matchers "π+1 @ ü") = "π+1 @ ü" ∧
      highlight matchers "π+1 @ ü" = painted tokens ++ "@ ü" ∧
      Text.dropBytes 5 "π+1 @ ü".toList = some "@ ü".toList := by
  intro matchers tokens
  have hline : '\x1b' ∉ "π+1 @ ü".toList := by decide
  have hscan : tokenizeBy matchers "π+1 @ ü" = .error ⟨tokens, .unexpectedCharacter '@' ⟨0, 4⟩⟩ :=
    rfl
  obtain ⟨hplain, -, tail, -, -, hdrop, hhighlight, -⟩ :=
    plain_editorLine Builtin.standard "π+1 @ ü" hline
  simp only [matchers] at hscan
  simp only [hscan, produced] at hdrop hhighlight
  have hbytes : Text.byteLength (textOf tokens).toList = 5 := by decide +kernel
  have htail : some "@ ü".toList = some tail.toList := by
    rw [← hdrop, hbytes]
    decide +kernel
  obtain rfl := String.toList_inj.1 (Option.some.inj htail)
  rw [hbytes] at hdrop
  exact ⟨hline, hscan, hplain, hhighlight, hdrop⟩

end Display

end JsLexer
