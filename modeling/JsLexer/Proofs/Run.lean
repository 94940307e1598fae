import JsLexer.Lexer
import JsLexer.Proofs.Cursor

/-!
Runs of a lexer: the tokens it gives one after another, and the lexer they leave behind.

Collecting the tokens of a scan is a run up to a lexer that gives no further token, either because
its next step gives nothing or because it gives an error. This holds of any matchers. That the scan
was not cut off before its end is a matter of how far each token gets, and is left to the matchers.
-/

namespace JsLexer

/-- The texts of tokens, put together. -/
def textOf (tokens : List Token) : String := String.join (tokens.map (·.text))

@[simp]
theorem textOf_nil : textOf [] = "" := rfl

@[simp]
theorem textOf_cons (t : Token) (tokens : List Token) :
    textOf (t :: tokens) = t.text ++ textOf tokens := by
  simp [textOf]

namespace Lexer

/-- `l` gives `tokens` and then is `l'`. -/
inductive Yields : Lexer → List Token → Lexer → Prop
  | none (l : Lexer) : Yields l [] l
  | token {l l' l'' : Lexer} {t : Token} {tokens : List Token} :
      l.next = (some (.ok t), l') → Yields l' tokens l'' → Yields l (t :: tokens) l''

/-- A run takes one step for each token. -/
theorem Yields.eq_advance {l l' : Lexer} {tokens : List Token} (h : Yields l tokens l') :
    l' = l.advance tokens.length := by
  induction h with
  | none l => rfl
  | token hnext _ ih => rw [List.length_cons, advance, hnext, ih]

/-- What is collected up to an error is a run to the lexer that gives the error. -/
theorem yields_of_collect_error {steps : Nat} {l : Lexer} {failure : ScanFailure}
    (h : l.collect steps = .error failure) :
    ∃ l', Yields l failure.tokens l' ∧ l'.next.1 = some (.error failure.error) := by
  induction steps generalizing l failure with
  | zero => simp [collect] at h
  | succ steps ih =>
    rcases hnext : l.next with ⟨_ | error | t, l'⟩
    · simp [collect, hnext] at h
    · simp only [collect, hnext, Except.error.injEq] at h
      subst h
      exact ⟨l, .none l, by rw [hnext]⟩
    · simp only [collect, hnext] at h
      split at h
      · simp at h
      · next f hf =>
        obtain rfl := Except.error.inj h
        obtain ⟨l'', hrun, herror⟩ := ih hf
        exact ⟨l'', .token hnext hrun, herror⟩

/-- What is collected without an error is a run, to a lexer that gives nothing unless there were
no steps left. -/
theorem yields_of_collect_ok {steps : Nat} {l : Lexer} {tokens : List Token}
    (h : l.collect steps = .ok tokens) :
    ∃ l', Yields l tokens l' ∧ (l'.next.1 = none ∨ tokens.length = steps) := by
  induction steps generalizing l tokens with
  | zero =>
    obtain rfl := Except.ok.inj h
    exact ⟨l, .none l, .inr rfl⟩
  | succ steps ih =>
    rcases hnext : l.next with ⟨_ | error | t, l'⟩
    · simp only [collect, hnext, Except.ok.injEq] at h
      subst h
      exact ⟨l, .none l, .inl (by rw [hnext])⟩
    · simp [collect, hnext] at h
    · simp only [collect, hnext] at h
      split at h
      · next ts hts =>
        obtain rfl := Except.ok.inj h
        obtain ⟨l'', hrun, hend⟩ := ih hts
        exact ⟨l'', .token hnext hrun, hend.imp_right (congrArg (· + 1))⟩
      · simp at h

/-- A lexer whose step gives a token was scanning, and the token came out of one of its matchers,
which had recognized the text and moved the cursor. -/
theorem next_token {l l' : Lexer} {t : Token} (h : l.next = (some (.ok t), l')) :
    l.status = .scanning ∧ ∃ m ∈ l.matchers, m.recognize l.cursor = true ∧
      m.produce l.context l.cursor = (.ok t, l'.cursor) ∧ l'.cursor.offset ≠ l.cursor.offset ∧
      l' = { l with cursor := l'.cursor, context := ⟨some t⟩ } := by
  unfold next at h
  split at h
  · simp at h
  · simp at h
  · next hstatus =>
    split at h
    · split at h <;> simp [fail] at h
    · next m hm =>
      rw [matcherAhead] at hm
      have hmem : m ∈ l.matchers := List.mem_of_find?_eq_some hm
      have hrec : m.recognize l.cursor = true := by simpa using List.find?_some hm
      split at h
      · simp [fail] at h
      · next token s hproduce =>
        split at h
        · simp [fail] at h
        · next hmoved =>
          obtain ⟨rfl, rfl⟩ : token = t ∧ _ = l' := by simpa using h
          exact ⟨hstatus, m, hmem, hrec, hproduce, hmoved, rfl⟩

/-- A lexer that is scanning and gives nothing has reached the end of its text. -/
theorem next_none {l : Lexer} (hstatus : l.status = .scanning) (h : l.next.1 = none) :
    l.cursor.rest = [] := by
  unfold next at h
  rw [hstatus] at h
  dsimp only at h
  split at h
  · split at h
    · next hpeek => simpa [Cursor.peek, Cursor.peekAt] using hpeek
    · simp [fail] at h
  · split at h
    · simp [fail] at h
    · split at h
      · simp [fail] at h
      · simp at h

end Lexer

end JsLexer
