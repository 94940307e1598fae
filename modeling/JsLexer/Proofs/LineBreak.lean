import JsLexer.Proofs.Grammar

/-!
No token ends inside a line break.

A carriage return and the line feed after it are one line break, and a token never ends between the
two. Most tokens hold no carriage return or end with something else; the one that may end with it is
the line break itself, which takes the line feed along.
-/

namespace JsLexer

namespace Lexeme

theorem IsEscape.no_return {e : List Char} (h : IsEscape e) : '\r' ∉ e := by
  intro hmem
  cases h with
  | plain _ hds => exact absurd (hds _ hmem) (by decide)
  | braced _ hds _ =>
    simp only [List.mem_cons, List.mem_append, List.not_mem_nil, or_false] at hmem
    rcases hmem with hc | hmem | hc
    · exact absurd hc (by decide)
    · exact absurd (hds _ hmem) (by decide)
    · exact absurd hc (by decide)

theorem IsNameUnit.no_return {unescaped : Char → Bool} (hreturn : unescaped '\r' = false)
    {u : List Char} (h : IsNameUnit unescaped u) : '\r' ∉ u := by
  cases h with
  | plain hc =>
    rw [List.mem_singleton]
    rintro rfl
    simp [hreturn] at hc
  | escaped he => simpa using he.no_return

theorem IsName.no_return {w : List Char} (h : IsName w) : '\r' ∉ w := by
  replace h := h.rest
  induction h with
  | nil => simp
  | unit hu _ ih =>
    rw [List.mem_append, not_or]
    exact ⟨hu.no_return (by decide +kernel), ih⟩

theorem IsNumeral.no_return {k : TokenKind} {w : List Char} (h : IsNumeral k w) : '\r' ∉ w := by
  intro hmem
  rcases h with ⟨letter, isDigit, ds, rfl, hradix, -, hds⟩ | hdecimal
  · rcases List.mem_cons.1 hmem with hc | hmem
    · exact absurd hc (by decide)
    rcases List.mem_cons.1 hmem with rfl | hmem
    · simp [radixOf] at hradix
    · exact absurd ((radixOf_cases hradix).1 _ (hds _ hmem)) (by decide)
  · exact absurd (hdecimal.parts _ hmem) (by decide)

/-- A string ends with the quote that closes it. -/
theorem IsStringRest.getLast? {quote : Char} {w : List Char} (h : IsStringRest quote w) :
    w.getLast? = some quote := by
  induction h with
  | close => rfl
  | unit _ _ ih => rw [List.getLast?_append, ih, Option.some_or]

end Lexeme

open Lexeme in
/-- Only line breaks, strings and comments over several lines hold carriage returns. -/
theorem Builtin.Accepts.no_return {b : Builtin} {k : TokenKind} {w : List Char}
    (h : b.Accepts k w) (hb : b ∉ [.lineTerminator, .multiLineComment, .string]) : '\r' ∉ w := by
  cases b with
  | whitespace =>
    obtain ⟨c, rfl, hc, -⟩ := h
    rw [List.mem_singleton]
    rintro rfl
    exact absurd hc (by decide)
  | singleLineComment =>
    obtain ⟨-, v, rfl, hv⟩ := h
    intro hmem
    have : '\r' ∈ v := by simpa using hmem
    exact absurd (hv _ this) (by decide)
  | boolean => rcases h with ⟨-, rfl⟩ | ⟨-, rfl⟩ <;> decide
  | null =>
    obtain ⟨-, rfl⟩ := h
    decide
  | identifierName => exact h.2.no_return
  | numeral => exact IsNumeral.no_return h
  | punctuator =>
    obtain ⟨rfl, -⟩ := h
    cases k <;> decide
  | lineTerminator | multiLineComment | string => exact absurd (by decide) hb

open Lexeme in
/-- Behind a token that ends with a carriage return there is no line feed. -/
theorem Builtin.Accepts.head_ne_feed {b : Builtin} {k : TokenKind} {w r : List Char}
    (h : b.Accepts k w) (hr : k.endsBefore w r = true) (hlast : w.getLast? = some '\r') :
    r.head? ≠ some '\n' := by
  cases b with
  | lineTerminator =>
    cases r with
    | nil => simp
    | cons c r =>
      rcases mem_lineBreaks.1 h with ⟨-, rfl⟩ | ⟨rfl, rfl⟩ | ⟨-, rfl⟩ | ⟨-, rfl⟩ | ⟨-, rfl⟩ <;>
        simp_all [TokenKind.endsBefore]
  | multiLineComment =>
    obtain ⟨-, v, rfl, -⟩ := h
    simp [List.getLast?_cons, List.getLast?_append] at hlast
  | string =>
    obtain ⟨-, quote, v, hquote, rfl, hv⟩ := h
    rw [List.getLast?_cons, hv.getLast?, Option.getD_some, Option.some.injEq] at hlast
    subst hlast
    simp at hquote
  | _ => exact absurd (List.mem_of_getLast? hlast) (h.no_return (by decide))

end JsLexer
