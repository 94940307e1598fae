import JsLexer.Proofs.Settled

/-!
Scans can be taken up anywhere. From whatever state it reaches, a lexer goes on as a fresh one would
that is given the text ahead, with every position counted from the place of the lexer.

Both are settled and have the same text ahead, so both report the same pieces and the same end. What
is left is that a report from one place is the report from the origin, shifted there.
-/

namespace JsLexer

/-- The outcome of scanning a text, once that text stands at `p` of a larger one. -/
def shiftOutcome (p : Position) :
    Except ScanFailure (List Token) → Except ScanFailure (List Token)
  | .ok tokens => .ok (tokens.map (·.shift p))
  | .error failure => .error ⟨failure.tokens.map (·.shift p), failure.error.shift p⟩

theorem Piece.report_shift (bs : List Builtin) (p : Position) (ps : List Piece) (r : List Char) :
    shiftOutcome p (report bs .origin ps r) = report bs p ps r := by
  unfold report
  cases Builtin.failure bs r with
  | none => rw [shiftOutcome, layOut_shift, Position.shift_origin]
  | some e =>
    rw [shiftOutcome, layOut_shift, LexError.shift_shift, endOf_shift, Position.shift_origin]

/-- From every state that is still scanning, a lexer runs to its end as a fresh lexer does on the
text ahead: the same kinds and texts, and the same success or error, at positions that are counted
from the place of the lexer. -/
theorem remaining_eq_restart (bs : List Builtin) (source : String) (steps : Nat)
    (hscanning : ((Lexer.start (bs.map (·.matcher)) source.toList).advance steps).status =
      .scanning) :
    let l := (Lexer.start (bs.map (·.matcher)) source.toList).advance steps
    l.remaining = shiftOutcome l.position (tokenizeWith bs (String.ofList l.cursor.rest)) ∧
      l.finish.isFinished = true := by
  intro l
  have hsettled : l.Settled bs := (Lexer.settled_start bs source.toList).advance hscanning
  obtain ⟨ps, r, hrest, hdivides, hend⟩ := Builtin.exists_divides bs l.cursor.rest
  have hfresh : tokenizeWith bs (String.ofList l.cursor.rest) = Piece.report bs .origin ps r :=
    tokenizeWith_of_divides (by rw [String.toList_ofList, hrest]) hdivides hend
  rw [hfresh, Piece.report_shift]
  exact hsettled.remaining hdivides hrest hend

/-- A scan taken up behind a line break, and left by an open string. -/
theorem remaining_eq_restart_after_break :
    let l := (Lexer.start (Builtin.standard.map (·.matcher)) "a\r\n;'x".toList).advance 2
    l.status = .scanning ∧
      tokenizeWith Builtin.standard ";'x" =
        .error ⟨[⟨.semicolon, ";", ⟨0, 0⟩, ⟨0, 1⟩⟩], .unterminatedString ⟨0, 1⟩ ⟨0, 3⟩⟩ ∧
      l.remaining =
        .error ⟨[⟨.semicolon, ";", ⟨1, 0⟩, ⟨1, 1⟩⟩], .unterminatedString ⟨1, 1⟩ ⟨1, 3⟩⟩ := by
  intro l
  have hscanning : l.status = .scanning := rfl
  have hfresh : tokenizeWith Builtin.standard ";'x" =
      .error ⟨[⟨.semicolon, ";", ⟨0, 0⟩, ⟨0, 1⟩⟩], .unterminatedString ⟨0, 1⟩ ⟨0, 3⟩⟩ := rfl
  have hrest : String.ofList l.cursor.rest = ";'x" := rfl
  have hrestart := (remaining_eq_restart Builtin.standard "a\r\n;'x" 2 hscanning).1
  refine ⟨hscanning, hfresh, ?_⟩
  change l.remaining = shiftOutcome l.position _ at hrestart
  rw [hrestart, hrest, hfresh]
  rfl

end JsLexer
