import JsLexer.Proofs.Cut
import JsLexer.Proofs.Normalize
import JsLexer.Proofs.Separator

/-!
Positions are a function of the text.

Where a text ends is settled by its line breaks and by what stands behind the last of them, and a
count code point by code point comes to the same. A scan counts token by token, with the whole text
before in between, and this agrees as well, because no token ends inside a line break. Every token
has a text, so it ends behind its start, and the next one starts there.
-/

namespace JsLexer

/-! ### Lines and columns of a text -/

/-- The line breaks of a text. A carriage return and the line feed after it are one. -/
def lineBreakCount : List Char → Nat
  | [] => 0
  | '\r' :: '\n' :: cs => lineBreakCount cs + 1
  | c :: cs => lineBreakCount cs + if isLineTerminator c then 1 else 0

/-- The code points of a text behind its last line terminator. -/
def lastLine (cs : List Char) : Nat := runLength (!isLineTerminator ·) cs.reverse

/-- Where a text ends that starts at `p`: some lines further down in the column that its last line
reaches, or on the same line. -/
def Position.endOf (p : Position) (cs : List Char) : Position :=
  if lineBreakCount cs = 0 then ⟨p.line, p.column + cs.length⟩
  else ⟨p.line + lineBreakCount cs, lastLine cs⟩

theorem lineBreakCount_cons {c : Char} {cs : List Char} (h : c = '\r' → cs.head? ≠ some '\n') :
    lineBreakCount (c :: cs) = lineBreakCount cs + if isLineTerminator c then 1 else 0 := by
  by_cases hc : c = '\r'
  · cases cs with
    | nil => simp [lineBreakCount, hc]
    | cons d cs =>
      have hd : d ≠ '\n' := by simpa using h hc
      simp [lineBreakCount, hd]
  · simp [lineBreakCount, hc]

/-- Only a text on one line is without line breaks. -/
theorem lineBreakCount_eq_zero {cs : List Char} :
    lineBreakCount cs = 0 ↔ ∀ c ∈ cs, isLineTerminator c = false := by
  induction cs using normalize_induction with
  | nil => simp [lineBreakCount]
  | pair cs _ => simp [lineBreakCount, isLineTerminator]
  | alone cs hcs _ => simp [lineBreakCount_cons fun _ => hcs, isLineTerminator]
  | other c cs hc ih => simp [lineBreakCount_cons fun h => absurd h hc, ih, and_comm]

/-- A code point before a line break does not matter to the last line. -/
theorem lastLine_cons {cs : List Char} (h : lineBreakCount cs ≠ 0) (c : Char) :
    lastLine (c :: cs) = lastLine cs := by
  have hshort : (cs.reverse.takeWhile (!isLineTerminator ·)).length ≠ cs.reverse.length := by
    intro hlength
    have hwhole := (List.takeWhile_prefix (!isLineTerminator ·)).eq_of_length hlength
    have hall : ∀ d ∈ cs.reverse, (!isLineTerminator d) = true := by
      rw [← hwhole]
      exact List.all_eq_true.1 List.all_takeWhile
    exact h (lineBreakCount_eq_zero.2 fun d hd => by simpa using hall d (List.mem_reverse.2 hd))
  rw [lastLine, runLength, List.reverse_cons, List.takeWhile_append, if_neg hshort]
  rfl

/-- The last line stands behind the only line break. -/
theorem lastLine_terminator {c : Char} (hc : isLineTerminator c = true) {cs : List Char}
    (h : lineBreakCount cs = 0) : lastLine (c :: cs) = cs.length := by
  have hcs : ∀ d ∈ cs.reverse, (!isLineTerminator d) = true := fun d hd => by
    simpa using lineBreakCount_eq_zero.1 h d (List.mem_reverse.1 hd)
  rw [lastLine, List.reverse_cons, Lexeme.runLength_eq hcs (by simp [hc]), List.length_reverse]

namespace Position

/-- Behind one code point at `p`. -/
def next (p : Position) (c : Char) : Position :=
  if isLineTerminator c then ⟨p.line + 1, 0⟩ else ⟨p.line, p.column + 1⟩

variable {c : Char} {cs : List Char}

theorem after_cons (h : c = '\r' → cs.head? ≠ some '\n') (p : Position) :
    p.after (c :: cs) = (p.next c).after cs := by
  rw [after, Caret.across_cons, Caret.position_across]
  · congr 1
    simp only [Caret.step, Bool.false_eq_true, and_false, if_false, next]
    split <;> rfl
  · rw [Caret.afterReturn_step, beq_iff_eq]
    exact h

theorem endOf_cons (h : c = '\r' → cs.head? ≠ some '\n') (p : Position) :
    p.endOf (c :: cs) = (p.next c).endOf cs := by
  have hbreaks := lineBreakCount_cons h
  cases hc : isLineTerminator c with
  | true =>
    rw [hc, if_pos rfl] at hbreaks
    rw [endOf, hbreaks, if_neg (Nat.succ_ne_zero _), next, hc, if_pos rfl, endOf]
    by_cases hcs : lineBreakCount cs = 0
    · rw [if_pos hcs, lastLine_terminator hc hcs, hcs, Nat.zero_add, Nat.zero_add]
    · rw [if_neg hcs, lastLine_cons hcs, Nat.add_comm (lineBreakCount cs), Nat.add_assoc]
  | false =>
    rw [hc, if_neg Bool.false_ne_true, Nat.add_zero] at hbreaks
    rw [endOf, hbreaks, next, hc, if_neg Bool.false_ne_true, endOf]
    by_cases hcs : lineBreakCount cs = 0
    · rw [if_pos hcs, if_pos hcs, List.length_cons, Nat.add_right_comm, Nat.add_assoc]
    · rw [if_neg hcs, if_neg hcs, lastLine_cons hcs]

/-- The carriage return in front of a line feed adds nothing. -/
theorem endOf_pair (cs : List Char) (p : Position) :
    p.endOf ('\r' :: '\n' :: cs) = p.endOf ('\n' :: cs) := by
  have hfeed : lineBreakCount ('\n' :: cs) = lineBreakCount cs + 1 :=
    lineBreakCount_cons fun h => absurd h (by decide)
  have hpair : lineBreakCount ('\r' :: '\n' :: cs) = lineBreakCount ('\n' :: cs) := hfeed.symm
  have hbreak : lineBreakCount ('\n' :: cs) ≠ 0 := by
    rw [hfeed]
    exact Nat.succ_ne_zero _
  rw [endOf, endOf, hpair, if_neg hbreak, if_neg hbreak, lastLine_cons hbreak]

/-- Counting code point by code point leads to where the text ends. -/
theorem after_eq_endOf (p : Position) (cs : List Char) : p.after cs = p.endOf cs := by
  induction cs using normalize_induction generalizing p with
  | nil => rfl
  | pair cs ih =>
    have hfeed : '\n' = '\r' → cs.head? ≠ some '\n' := fun h => absurd h (by decide)
    calc p.after ('\r' :: '\n' :: cs)
      _ = (p.next '\n').after cs := after_cons hfeed p
      _ = p.endOf ('\r' :: '\n' :: cs) := by rw [ih, endOf_pair, endOf_cons hfeed]
  | alone cs hcs ih => rw [after_cons (fun _ => hcs), ih, endOf_cons fun _ => hcs]
  | other c cs hc ih =>
    have hreturn : c = '\r' → cs.head? ≠ some '\n' := fun h => absurd h hc
    rw [after_cons hreturn, ih, endOf_cons hreturn]

/-! ### Order -/

theorem lt_trans {p q r : Position} (h : p < q) (h' : q < r) : p < r := by
  change _ ∨ _ at h h'
  change _ ∨ _
  omega

/-- Every text but the empty one goes further. -/
theorem lt_endOf {cs : List Char} (h : cs ≠ []) (p : Position) : p < p.endOf cs := by
  have hpos := List.length_pos_iff.2 h
  rw [endOf]
  split
  · exact .inr ⟨rfl, by dsimp only; omega⟩
  · exact .inl (by dsimp only; omega)

end Position

/-! ### Tokens -/

namespace Piece

/-- A token of some pieces is the token of one of them, and the tokens before are those of the
pieces before. -/
theorem layOut_eq_append {p : Position} {ps : List Piece} {before behind : List Token} {t : Token}
    (h : layOut p ps = before ++ t :: behind) :
    ∃ qs q rs, ps = qs ++ q :: rs ∧ before = layOut p qs ∧ t = q.token (endOf p qs) := by
  induction before generalizing p ps with
  | nil =>
    cases ps with
    | nil => simp [layOut] at h
    | cons q rs => exact ⟨[], q, rs, rfl, rfl, (List.cons.inj h).1.symm⟩
  | cons u before ih =>
    cases ps with
    | nil => simp [layOut] at h
    | cons q ps =>
      obtain ⟨rfl, hps⟩ := List.cons.inj h
      obtain ⟨qs, q', rs, rfl, rfl, rfl⟩ := ih hps
      exact ⟨q :: qs, q', rs, rfl, rfl, rfl⟩

/-- Pieces that have a text become tokens with increasing starts, none of which is before the place
of the first piece. -/
theorem layOut_increasing {ps : List Piece} (h : ∀ q ∈ ps, q.text ≠ []) (p : Position) :
    (layOut p ps).Pairwise (fun t u => t.start < u.start) ∧
      ∀ t ∈ layOut p ps, p = t.start ∨ p < t.start := by
  induction ps generalizing p with
  | nil => exact ⟨.nil, by simp [layOut]⟩
  | cons q ps ih =>
    obtain ⟨hq, hps⟩ := List.forall_mem_cons.1 h
    obtain ⟨hincreasing, hbehind⟩ := ih hps (p.after q.text)
    have hfurther : p < p.after q.text := by
      rw [Position.after_eq_endOf]
      exact Position.lt_endOf hq p
    have hlater : ∀ t ∈ layOut (p.after q.text) ps, p < t.start := by
      intro t ht
      rcases hbehind t ht with hstart | hlt
      · rwa [← hstart]
      · exact Position.lt_trans hfurther hlt
    refine ⟨List.pairwise_cons.2 ⟨hlater, hincreasing⟩, ?_⟩
    exact List.forall_mem_cons.2 ⟨.inl rfl, fun t ht => .inr (hlater t ht)⟩

end Piece

theorem Builtin.Divides.text_ne_nil {bs : List Builtin} {ps : List Piece} {r : List Char}
    (h : Divides bs ps r) : ∀ q ∈ ps, q.text ≠ [] := by
  induction h with
  | nil => simp
  | cons _ hq _ _ ih => exact List.forall_mem_cons.2 ⟨hq.ne_nil, ih⟩

/-- The positions of tokens are a function of the text. Whether a scan succeeds or fails, each token
starts where the texts of the tokens before it end, and ends where its own text ends if that is
counted by itself from there. It ends behind its start, and the starts increase. -/
theorem token_positions (bs : List Builtin) (source : String) :
    let tokens := Display.produced (tokenizeWith bs source)
    (∀ before t behind, tokens = before ++ t :: behind →
      t.start = Position.origin.endOf (textOf before).toList ∧
      t.stop = t.start.endOf t.text.toList ∧ t.start < t.stop) ∧
    tokens.Pairwise fun t u => t.start < u.start := by
  intro tokens
  obtain ⟨ps, r, hsource, hdivides, hend⟩ := Builtin.exists_divides bs source.toList
  have htokens : tokens = Piece.layOut .origin ps := produced_of_divides hsource hdivides hend
  refine ⟨?_, ?_⟩
  · intro before t behind hsplit
    rw [htokens] at hsplit
    obtain ⟨qs, q, rs, rfl, rfl, rfl⟩ := Piece.layOut_eq_append hsplit
    have hstart : Piece.endOf .origin qs = Position.origin.after (Piece.concat qs) :=
      hdivides.init.endOf_eq .origin
    have hq : q.text ≠ [] := hdivides.text_ne_nil q (by simp)
    refine ⟨?_, ?_, ?_⟩
    · rw [textOf_layOut, ← Position.after_eq_endOf]
      exact hstart
    · rw [← Position.after_eq_endOf, Piece.token, String.toList_ofList]
    · rw [Piece.token, Position.after_eq_endOf]
      exact Position.lt_endOf hq _
  · rw [htokens]
    exact (Piece.layOut_increasing hdivides.text_ne_nil .origin).1

/-- A line break inside a string, one that is a token, and a carriage return by itself, before a
comment that is left open. -/
theorem token_positions_line_breaks :
    let bs : List Builtin := [.multiLineComment, .string, .lineTerminator]
    let before : List Token :=
      [⟨.string, "'a\r\nb'", ⟨0, 0⟩, ⟨1, 2⟩⟩, ⟨.carriageReturn, "\r\n", ⟨1, 2⟩, ⟨2, 0⟩⟩]
    let t : Token := ⟨.carriageReturn, "\r", ⟨2, 0⟩, ⟨3, 0⟩⟩
    tokenizeWith bs "'a\r\nb'\r\n\r/*" =
        .error ⟨before ++ [t], .unterminatedComment ⟨3, 0⟩ ⟨3, 2⟩⟩ ∧
      Position.origin.endOf (textOf before).toList = ⟨2, 0⟩ ∧ t.start.endOf "\r".toList = ⟨3, 0⟩ ∧
      t.start < t.stop ∧ (before ++ [t]).Pairwise fun u v => u.start < v.start := by
  intro bs before t
  have hresult : tokenizeWith bs "'a\r\nb'\r\n\r/*" =
      .error ⟨before ++ [t], .unterminatedComment ⟨3, 0⟩ ⟨3, 2⟩⟩ := rfl
  obtain ⟨hpositions, hincreasing⟩ := token_positions bs "'a\r\nb'\r\n\r/*"
  rw [hresult] at hpositions hincreasing
  obtain ⟨hstart, hstop, hlt⟩ := hpositions before t [] rfl
  exact ⟨hresult, hstart.symm, hstop.symm, hlt, hincreasing⟩

end JsLexer
