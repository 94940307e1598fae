import JsLexer.LexError
import JsLexer.Proofs.Counting
import JsLexer.Proofs.Grammar

/-!
Texts divided into pieces.

Scanning with built-in categories depends on the text alone: which category gets the text ahead,
which piece of it that category takes, and where the scan stops. Positions come in afterwards, when
the pieces are laid out from some place on. Every text is divided in this way, up to a rest that is
empty or on which the scan fails.
-/

namespace JsLexer

/-- What a token takes of a text. -/
structure Piece where
  kind : TokenKind
  text : List Char

namespace Piece

/-- The text that pieces make up. -/
def concat (ps : List Piece) : List Char := ps.flatMap (·.text)

@[simp]
theorem concat_nil : concat [] = [] := rfl

@[simp]
theorem concat_cons (p : Piece) (ps : List Piece) : concat (p :: ps) = p.text ++ concat ps :=
  List.flatMap_cons

@[simp]
theorem concat_append (ps qs : List Piece) : concat (ps ++ qs) = concat ps ++ concat qs :=
  List.flatMap_append

end Piece

namespace Builtin

/-- The error for what was read of a text at the origin, unless it is a token. -/
def refusal (b : Builtin) (cs : List Char) : Reading → Option LexError
  | .token _ _ => none
  | .malformed n => some (.unexpectedToken b.name (Position.origin.after (cs.take n)))
  | .openString n => some (.unterminatedString .origin (Position.origin.after (cs.take n)))
  | .openComment n => some (.unterminatedComment .origin (Position.origin.after (cs.take n)))

/-- The error that a text at the origin starts with, if any. -/
def failure (bs : List Builtin) : List Char → Option LexError
  | [] => none
  | c :: cs =>
    match claimant bs (c :: cs) with
    | none => some (.unexpectedCharacter c .origin)
    | some b => b.refusal (c :: cs) (b.read (c :: cs))

/-- A scan comes to its end here: there is no text left, or it starts with an error. -/
def Halts (bs : List Builtin) (r : List Char) : Prop := r = [] ∨ (failure bs r).isSome

/-- The categories divide a text that the pieces start with into these pieces and the given rest. -/
inductive Divides (bs : List Builtin) : List Piece → List Char → Prop
  | nil (r : List Char) : Divides bs [] r
  | cons {b : Builtin} {p : Piece} {ps : List Piece} {r : List Char} :
      claimant bs (p.text ++ (Piece.concat ps ++ r)) = some b → b.Accepts p.kind p.text →
      p.kind.endsBefore p.text (Piece.concat ps ++ r) = true → Divides bs ps r →
      Divides bs (p :: ps) r

variable {bs : List Builtin}

theorem claimant_nil (bs : List Builtin) : claimant bs [] = none := by
  simp [claimant, recognizes_nil]

theorem failure_of_claimant {b : Builtin} {cs : List Char} (hb : claimant bs cs = some b) :
    failure bs cs = b.refusal cs (b.read cs) := by
  cases cs with
  | nil => simp [claimant_nil] at hb
  | cons c cs => simp [failure, hb]

/-- What a category gets but does not fail on starts with a piece of that category. -/
theorem exists_piece {b : Builtin} {cs : List Char} (h : claimant bs cs = some b)
    (hok : b.refusal cs (b.read cs) = none) :
    ∃ (p : Piece) (r : List Char), cs = p.text ++ r ∧ b.Accepts p.kind p.text ∧
      p.kind.endsBefore p.text r = true := by
  have hahead : b.recognizes cs = true := by simpa using List.find?_some h
  cases hread : b.read cs with
  | token k n =>
    obtain ⟨w, r, hcs, -, hw, hr⟩ := accepts_of_read hahead hread
    exact ⟨⟨k, w⟩, r, hcs, hw, hr⟩
  | malformed | openString | openComment => simp [hread, refusal] at hok

/-- Every text is divided into pieces, up to its end or an error. -/
theorem exists_divides (bs : List Builtin) (cs : List Char) :
    ∃ ps r, cs = Piece.concat ps ++ r ∧ Divides bs ps r ∧ Halts bs r := by
  induction hlength : cs.length using Nat.strongRecOn generalizing cs with
  | ind length ih =>
    subst hlength
    cases cs with
    | nil => exact ⟨[], [], rfl, .nil [], .inl rfl⟩
    | cons c cs =>
      cases hfailure : failure bs (c :: cs) with
      | some e => exact ⟨[], c :: cs, rfl, .nil _, .inr (by simp [hfailure])⟩
      | none =>
        rw [failure] at hfailure
        split at hfailure
        · simp at hfailure
        · next b hb =>
          obtain ⟨p, r, hcs, hp, hr⟩ := exists_piece hb hfailure
          have hpos := List.length_pos_iff.2 hp.ne_nil
          obtain ⟨ps, r', rfl, hps, hend⟩ :=
            ih r.length (by rw [hcs, List.length_append]; omega) r rfl
          rw [hcs] at hb
          exact ⟨p :: ps, r', by simp [hcs], .cons hb hp hr hps, hend⟩

/-- Dividing goes on where it stopped. -/
theorem Divides.append {ps qs : List Piece} {r : List Char}
    (h : Divides bs ps (Piece.concat qs ++ r)) (h' : Divides bs qs r) :
    Divides bs (ps ++ qs) r := by
  induction ps with
  | nil => exact h'
  | cons p ps ih =>
    cases h with
    | cons hb hp hr hps =>
      have hsame : Piece.concat ps ++ (Piece.concat qs ++ r) = Piece.concat (ps ++ qs) ++ r := by
        simp
      rw [hsame] at hb hr
      exact .cons hb hp hr (ih hps)

/-- What is left behind some pieces is divided as it was. -/
theorem Divides.drop {ps qs : List Piece} {r : List Char} (h : Divides bs (ps ++ qs) r) :
    Divides bs qs r := by
  induction ps with
  | nil => exact h
  | cons p ps ih =>
    cases h with
    | cons _ _ _ hps => exact ih hps

/-- Some category has been recognized at the first of the pieces. -/
theorem Divides.exists_recognizes {ps : List Piece} {r : List Char} (h : Divides bs ps r)
    (hne : ps ≠ []) : ∃ b : Builtin, b.recognizes (Piece.concat ps ++ r) = true := by
  cases h with
  | nil => exact absurd rfl hne
  | @cons b p ps _ hb _ _ _ =>
    rw [Piece.concat_cons, List.append_assoc]
    exact ⟨b, by simpa using List.find?_some hb⟩

theorem Divides.length_le {ps : List Piece} {r : List Char} (h : Divides bs ps r) :
    ps.length ≤ (Piece.concat ps).length := by
  induction h with
  | nil => simp
  | cons _ hp _ _ ih =>
    have hpos := List.length_pos_iff.2 hp.ne_nil
    rw [Piece.concat_cons, List.length_append, List.length_cons]
    omega

end Builtin

/-! ### Positions -/

namespace Piece

/-- The token of a piece that starts at `p`. -/
def token (p : Position) (q : Piece) : Token := ⟨q.kind, String.ofList q.text, p, p.after q.text⟩

/-- The tokens of pieces, the first of which starts at `p`. -/
def layOut : Position → List Piece → List Token
  | _, [] => []
  | p, q :: ps => q.token p :: layOut (p.after q.text) ps

/-- Where pieces end, the first of which starts at `p`. -/
def endOf : Position → List Piece → Position
  | p, [] => p
  | p, q :: ps => endOf (p.after q.text) ps

theorem token_shift (p q : Position) (x : Piece) :
    (x.token q).shift p = x.token (p.shift q) := by
  simp only [token, Token.shift, Position.shift_after]

theorem layOut_shift (p q : Position) (ps : List Piece) :
    (layOut q ps).map (·.shift p) = layOut (p.shift q) ps := by
  induction ps generalizing q with
  | nil => rfl
  | cons x ps ih => rw [layOut, List.map_cons, ih, token_shift, Position.shift_after, layOut]

theorem endOf_shift (p q : Position) (ps : List Piece) :
    p.shift (endOf q ps) = endOf (p.shift q) ps := by
  induction ps generalizing q with
  | nil => rfl
  | cons x ps ih => rw [endOf, ih, Position.shift_after, endOf]

theorem layOut_take (p : Position) (ps : List Piece) (n : Nat) :
    (layOut p ps).take n = layOut p (ps.take n) := by
  induction ps generalizing p n with
  | nil => simp [layOut]
  | cons x ps ih => cases n <;> simp [layOut, ih]

theorem layOut_drop (p : Position) (ps : List Piece) (n : Nat) :
    (layOut p ps).drop n = layOut (endOf p (ps.take n)) (ps.drop n) := by
  induction ps generalizing p n with
  | nil => simp [layOut]
  | cons x ps ih => cases n <;> simp [layOut, endOf, ih]

theorem layOut_append (p : Position) (ps qs : List Piece) :
    layOut p (ps ++ qs) = layOut p ps ++ layOut (endOf p ps) qs := by
  induction ps generalizing p with
  | nil => rfl
  | cons x ps ih => simp [layOut, endOf, ih]

theorem endOf_append (p : Position) (ps qs : List Piece) :
    endOf p (ps ++ qs) = endOf (endOf p ps) qs := by
  induction ps generalizing p with
  | nil => rfl
  | cons x ps ih => rw [List.cons_append, endOf, ih, endOf]

/-- The outcome of a scan that starts at `p` and divides the text into pieces and a rest. -/
def report (bs : List Builtin) (p : Position) (ps : List Piece) (r : List Char) :
    Except ScanFailure (List Token) :=
  match Builtin.failure bs r with
  | none => .ok (layOut p ps)
  | some e => .error ⟨layOut p ps, e.shift (endOf p ps)⟩

end Piece

end JsLexer
