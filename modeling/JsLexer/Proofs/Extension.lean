import JsLexer.Proofs.Lookahead
import JsLexer.Proofs.Settled

/-!
More text never changes a token that is not the last.

Where a token ends and which category got it depends on two code points behind it at most, and only
the last token can be so close to the end of the text that these are not there. A token that is not
the last has at least one code point behind it, and that one is enough: the second is only looked at
behind a question mark and a point, and behind a backslash, and then it is there.
-/

namespace JsLexer

namespace Builtin

variable {bs : List Builtin}

/-- The first pieces of a text, with the others as part of the rest. -/
theorem Divides.init {ps qs : List Piece} {r : List Char} (h : Divides bs (ps ++ qs) r) :
    Divides bs ps (Piece.concat qs ++ r) := by
  induction ps with
  | nil => exact .nil _
  | cons p ps ih =>
    rw [List.cons_append] at h
    cases h with
    | cons hb hp hr hps =>
      rw [Piece.concat_append, List.append_assoc] at hb hr
      exact .cons hb hp hr (ih hps)

/-- Pieces are still there if more text follows the rest, as long as there is one. -/
theorem Divides.before_more {ps : List Piece} {r : List Char} (h : Divides bs ps r) (hne : r ≠ [])
    (hstray : strayBackslash r = false) (t : List Char) : Divides bs ps (r ++ t) := by
  induction h with
  | nil r => exact .nil _
  | @cons b p ps r hb hp hr hps ih =>
    have hrest : Piece.concat ps ++ r ≠ [] := by simp [hne]
    have hstray' : strayBackslash (Piece.concat ps ++ r) = false := by
      cases ps with
      | nil => exact hstray
      | cons q ps =>
        obtain ⟨b', hb'⟩ := hps.exists_recognizes (List.cons_ne_nil q ps)
        exact Builtin.not_strayBackslash hb'
    have hr' := TokenKind.endsBefore_append hr hrest hstray' t
    have hhead : (Piece.concat ps ++ r ++ t).head? = (Piece.concat ps ++ r).head? := by
      rw [List.head?_append, Option.or_of_isSome (List.isSome_head?.2 hrest)]
    have hb'' := hp.claimant_eq hr' hb fun b' h' => by
      rwa [hp.recognizes_congr hr hr' hhead.symm]
    rw [List.append_assoc] at hr' hb''
    exact .cons hb'' hp hr' (ih hne hstray)

/-- All pieces but the last are still there if more text follows. -/
theorem Divides.extend {ps : List Piece} {q : Piece} {r : List Char}
    (h : Divides bs (ps ++ [q]) r) (t : List Char) : Divides bs ps (q.text ++ (r ++ t)) := by
  obtain ⟨b, hb⟩ := h.drop.exists_recognizes (List.cons_ne_nil q [])
  have hmore := h.init.before_more (ne_nil_of_recognizes hb) (Builtin.not_strayBackslash hb) t
  simpa using hmore

end Builtin

/-- Appending text never changes any token before the last, be it that the scan succeeds or fails:
the tokens without the last one are the first tokens of the longer text, positions included. -/
theorem produced_dropLast_prefix (bs : List Builtin) (s t : String) :
    (Display.produced (tokenizeWith bs s)).dropLast <+:
      Display.produced (tokenizeWith bs (s ++ t)) := by
  obtain ⟨ps, r, hs, hdivides, hend⟩ := Builtin.exists_divides bs s.toList
  rw [produced_of_divides hs hdivides hend]
  rcases List.eq_nil_or_concat ps with rfl | ⟨qs, q, rfl⟩
  · exact List.nil_prefix
  · rw [List.concat_eq_append] at hs hdivides ⊢
    -- what the pieces before the last leave is divided anew
    have hfirst := hdivides.extend t.toList
    obtain ⟨qs', r', hrest, hlater, hend'⟩ :=
      Builtin.exists_divides bs (q.text ++ (r ++ t.toList))
    rw [hrest] at hfirst
    have hst : (s ++ t).toList = Piece.concat (qs ++ qs') ++ r' := by
      calc (s ++ t).toList
        _ = Piece.concat (qs ++ [q]) ++ r ++ t.toList := by rw [String.toList_append, hs]
        _ = Piece.concat qs ++ (q.text ++ (r ++ t.toList)) := by simp
        _ = Piece.concat qs ++ (Piece.concat qs' ++ r') := by rw [hrest]
        _ = Piece.concat (qs ++ qs') ++ r' := by simp
    rw [produced_of_divides hst (hfirst.append hlater) hend', Piece.layOut_append,
      Piece.layOut_append, Piece.layOut, Piece.layOut, List.dropLast_concat]
    exact List.prefix_append _ _

end JsLexer
