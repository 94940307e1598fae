import JsLexer.Proofs.Failure
import JsLexer.Proofs.LiteralWord

/-!
What a category makes of a text that it has recognized.

The grammar of tokens decides it: a category passes a text of its own if the token ends there, and
makes a token of it, and there is at most one such text ahead. If there is none, a category whose
texts have no end of their own reports an unexpected token.
-/

namespace JsLexer.Builtin

/-- The text starts with `w`, which is a text of the category, and the token ends there. -/
def Fits (b : Builtin) (k : TokenKind) (w cs : List Char) : Prop :=
  ∃ r, cs = w ++ r ∧ b.Accepts k w ∧ k.endsBefore w r = true

variable {b : Builtin} {k : TokenKind} {w cs : List Char} {s : Cursor}

theorem produce_of_read {reading : Reading} (h : b.read s.rest = reading) (ctx : Context) :
    b.produce ctx s = (b.outcome (.here ctx s) (s.skip reading.length) reading,
      s.skip reading.length) := by
  rw [produce, h]

theorem Fits.eq {k' : TokenKind} {w' : List Char} (h : b.Fits k w cs) (h' : b.Fits k' w' cs) :
    k = k' ∧ w = w' := by
  obtain ⟨r, rfl, hw, hr⟩ := h
  obtain ⟨r', hcs, hw', hr'⟩ := h'
  have hread := (hw.read hr).2
  rw [hcs, (hw'.read hr').2] at hread
  obtain ⟨rfl, hlength⟩ := Reading.token.inj hread
  exact ⟨rfl, (List.append_inj hcs hlength.symm).1⟩

/-- Nothing longer that the text starts with is a text of the category. A question mark alone may
have a point behind it, which belongs to a number then. -/
theorem Accepts.eq_nil_of_append {k' : TokenKind} {u r : List Char} (h : b.Accepts k' (w ++ u))
    (hw : b.Accepts k w) (hr : k.endsBefore w r = true) (hu : u <+: r)
    (hpoint : k = .questionMark → u ≠ ['.']) : u = [] := by
  -- the longer text is read to its end, but already the shorter one ends before what follows it
  have hread := (h.read (TokenKind.endsBefore_nil k' _)).2
  rw [List.append_nil, (hw.read (TokenKind.endsBefore_of_prefix hr hu hpoint)).2] at hread
  obtain ⟨-, hlength⟩ := Reading.token.inj hread
  simpa using hlength

theorem Fits.produce (h : b.Fits k w s.rest) (ctx : Context) :
    b.produce ctx s =
      (.ok ⟨k, String.ofList w, ctx.start, (s.skip w.length).position⟩, s.skip w.length) := by
  obtain ⟨r, hrest, hw, hr⟩ := h
  have hread : b.read s.rest = .token k w.length := hrest ▸ (hw.read hr).2
  have htake : s.rest.take w.length = w := by rw [hrest, List.take_left]
  exact produce_eq_ok.2 ⟨w.length, hread, rfl, by rw [htake]⟩

/-- What a category makes a token of is what fits, and the cursor has passed it. -/
theorem exists_fits (hahead : b.recognizes s.rest = true) {ctx : Context} {t : Token} {s' : Cursor}
    (h : b.produce ctx s = (.ok t, s')) : ∃ w, b.Fits t.kind w s.rest ∧ s.rest = w ++ s'.rest := by
  obtain ⟨n, hread, rfl, -⟩ := produce_eq_ok.1 h
  obtain ⟨w, r, hrest, rfl, hw, hr⟩ := accepts_of_read hahead hread
  refine ⟨w, ⟨r, hrest, hw, hr⟩, ?_⟩
  rw [Cursor.rest_skip, hrest, List.drop_left]

/-- A category passes `w` as a token of kind `k` exactly if this fits the text ahead. -/
theorem passes_iff_fits (hahead : b.recognizes s.rest = true) (ctx : Context) :
    (∃ t, (b.produce ctx s).1 = .ok t ∧ t.kind = k) ∧ s.rest = w ++ (b.produce ctx s).2.rest ↔
      b.Fits k w s.rest := by
  constructor
  · rintro ⟨⟨t, ht, rfl⟩, hrest⟩
    obtain ⟨v, hv, hpassed⟩ := exists_fits hahead (Prod.ext ht rfl)
    -- the same text is left behind both
    exact List.append_cancel_right (hrest.symm.trans hpassed) ▸ hv
  · intro h
    rw [h.produce ctx, Cursor.rest_skip]
    obtain ⟨r, hrest, -⟩ := h
    rw [hrest, List.drop_left]
    exact ⟨⟨_, rfl, rfl⟩, rfl⟩

theorem succeeds_iff_exists_fits (hahead : b.recognizes s.rest = true) (ctx : Context) :
    (b.produce ctx s).1.isOk = true ∧ s.rest = w ++ (b.produce ctx s).2.rest ↔
      ∃ k, b.Fits k w s.rest := by
  simp only [← passes_iff_fits hahead ctx]
  cases h : (b.produce ctx s).1 with
  | error e => simp [Except.isOk, Except.toBool]
  | ok t => simp [Except.isOk, Except.toBool]

/-- Without a text that fits there is no token, and only strings and comments may stay open. -/
theorem unexpected_of_not_fits (hahead : b.recognizes s.rest = true) (hstring : b ≠ .string)
    (hcomment : b ≠ .multiLineComment) (hnot : ∀ k w, ¬ b.Fits k w s.rest) (ctx : Context) :
    (b.produce ctx s).1 = .error (.unexpectedToken b.name (b.produce ctx s).2.position) := by
  rcases hproduce : b.produce ctx s with ⟨e | t, s'⟩
  · obtain ⟨n, -, -, ⟨-, rfl⟩ | ⟨-, ⟨rfl, -⟩ | ⟨rfl, -⟩⟩⟩ := produce_error hahead hproduce
    · rfl
    · exact absurd rfl hstring
    · exact absurd rfl hcomment
  · obtain ⟨w, hw, -⟩ := exists_fits hahead hproduce
    exact absurd hw (hnot t.kind w)

end JsLexer.Builtin
