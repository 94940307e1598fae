import JsLexer.Proofs.LongestPrefix
import JsLexer.Proofs.Outcome

/-!
Where comments end.

A comment to the end of the line is the longest start without a line terminator. A comment between
stars and slashes has the shortest body that a star and a slash follow; the star that opens it is
not part of the body, so it does not close it. Only a comment that nothing closes is an error.
-/

namespace JsLexer

namespace Lexeme

/-! ### Up to the end of the line -/

/-- No line terminator is in the text. -/
def IsOneLine (v : List Char) : Prop := ∀ c ∈ v, isLineTerminator c = false

theorem exists_isOneLine (cs : List Char) :
    ∃ v, IsLongestPrefix IsOneLine v cs ∧
      Builtin.singleLineComment.Fits .singleLineComment ('/' :: '/' :: v) ('/' :: '/' :: cs) := by
  obtain ⟨v, r, rfl, -, hv, hr⟩ := exists_runLength (!isLineTerminator ·) cs
  have hlongest := isLongestPrefix_forall hv hr
  simp only [Bool.not_eq_true'] at hv hlongest
  refine ⟨v, hlongest, r, rfl, ⟨rfl, v, rfl, hv⟩, ?_⟩
  cases r with
  | nil => rfl
  | cons c r => simpa [TokenKind.endsBefore] using hr

/-! ### Up to the first star and slash -/

/-- A star and a slash follow the start `b` of the text. -/
def ClosedBehind (cs b : List Char) : Prop := b ++ ['*', '/'] <+: cs

theorem ClosedBehind.starts {b cs : List Char} (h : ClosedBehind cs b) : b <+: cs :=
  (List.prefix_append b _).trans h

/-- The body is the shortest exactly if its end does not make a star and a slash with what is in
it. -/
theorem isShortestPrefix_closedBehind {b cs : List Char} :
    IsShortestPrefix (ClosedBehind cs) b cs ↔
      ClosedBehind cs b ∧ ¬ ['*', '/'] <:+: b ++ ['*'] := by
  constructor
  · intro h
    refine ⟨h.holds, ?_⟩
    rintro ⟨v, t, hv⟩
    have hstar : b ++ ['*'] <+: cs := .trans ⟨['/'], by simp⟩ h.holds
    have hclosed : ClosedBehind cs v := .trans ⟨t, hv⟩ hstar
    have hle := h.shortest v hclosed.starts hclosed
    have hlength := congrArg List.length hv
    simp only [List.length_append, List.length_cons, List.length_nil] at hlength
    omega
  · rintro ⟨hclosed, hfirst⟩
    refine ⟨hclosed.starts, hclosed, fun v _ hv => Nat.le_of_not_lt fun hshorter => hfirst ?_⟩
    -- a shorter body would be closed within this one and the star behind it
    have hstar : b ++ ['*'] <+: cs := .trans ⟨['/'], by simp⟩ hclosed
    have hlength : (v ++ ['*', '/']).length ≤ (b ++ ['*']).length := by
      simp only [List.length_append, List.length_cons, List.length_nil]
      omega
    have hinside := List.prefix_of_prefix_length_le hv hstar hlength
    exact .trans ⟨v, [], List.append_nil _⟩ hinside.isInfix

theorem exists_closedBehind {cs : List Char} (h : ['*', '/'] <:+: cs) :
    ∃ b, IsShortestPrefix (ClosedBehind cs) b cs := by
  obtain ⟨v, t, hv⟩ := h
  have hclosed : ClosedBehind cs v := ⟨t, hv⟩
  exact exists_isShortestPrefix hclosed.starts hclosed

theorem fits_multiLineComment {b cs : List Char} (h : IsShortestPrefix (ClosedBehind cs) b cs) :
    Builtin.multiLineComment.Fits .multiLineComment ('/' :: '*' :: (b ++ ['*', '/']))
      ('/' :: '*' :: cs) := by
  obtain ⟨⟨r, rfl⟩, hfirst⟩ := isShortestPrefix_closedBehind.1 h
  exact ⟨r, rfl, ⟨rfl, b, rfl, hfirst⟩, by cases r <;> rfl⟩

theorem multiLineComment_open {cs : List Char} (h : ¬ ['*', '/'] <:+: cs) :
    multiLineComment ('/' :: '*' :: cs) = .openComment ('/' :: '*' :: cs).length := by
  refine (multiLineComment_outcome rfl).resolve_left ?_
  rintro ⟨n, hn⟩
  obtain ⟨-, r, hcs, -, ⟨-, v, rfl, -⟩, -⟩ := multiLineComment_sound hn
  exact h ⟨v, r, by simpa using hcs.symm⟩

end Lexeme

open Lexeme

theorem produce_of_closedBehind {s : Cursor} {b r : List Char} (hrest : s.rest = '/' :: '*' :: r)
    (hb : IsShortestPrefix (ClosedBehind r) b r) (ctx : Context) :
    Builtin.multiLineComment.produce ctx s =
      (.ok ⟨.multiLineComment, String.ofList ('/' :: '*' :: (b ++ ['*', '/'])), ctx.start,
        (s.skip (b.length + 4)).position⟩, s.skip (b.length + 4)) := by
  have hproduce := Builtin.Fits.produce (hrest ▸ fits_multiLineComment hb) ctx
  simpa using hproduce

theorem produce_of_open {s : Cursor} {r : List Char} (hrest : s.rest = '/' :: '*' :: r)
    (hnone : ¬ ['*', '/'] <:+: r) (ctx : Context) :
    Builtin.multiLineComment.produce ctx s =
      (.error (.unterminatedComment ctx.start (s.skip s.rest.length).position),
        s.skip s.rest.length) := by
  have hread : Builtin.multiLineComment.read s.rest = .openComment s.rest.length :=
    hrest ▸ multiLineComment_open hnone
  exact Builtin.produce_of_read hread ctx

/-- Behind two slashes, a comment runs up to the first line terminator and never fails. Behind a
slash and a star, it runs through the first star and slash after these; if there are none, it is
open, and the cursor has passed all the text. -/
theorem comment_outcome (s : Cursor) (ctx : Context) :
    (∀ r, s.rest = '/' :: '/' :: r →
      (∃ v, IsLongestPrefix IsOneLine v r) ∧
      ∀ v, IsLongestPrefix IsOneLine v r →
        Builtin.singleLineComment.produce ctx s =
          (.ok ⟨.singleLineComment, String.ofList ('/' :: '/' :: v), ctx.start,
            (s.skip (v.length + 2)).position⟩, s.skip (v.length + 2))) ∧
    ∀ r, s.rest = '/' :: '*' :: r →
      let result := Builtin.multiLineComment.produce ctx s
      let stop := s.skip s.rest.length
      (['*', '/'] <:+: r → ∃ b, IsShortestPrefix (ClosedBehind r) b r) ∧
      (∀ b, IsShortestPrefix (ClosedBehind r) b r →
        result = (.ok ⟨.multiLineComment, String.ofList ('/' :: '*' :: (b ++ ['*', '/'])),
          ctx.start, (s.skip (b.length + 4)).position⟩, s.skip (b.length + 4))) ∧
      (¬ ['*', '/'] <:+: r → stop.atEnd = true ∧
        result = (.error (.unterminatedComment ctx.start stop.position), stop)) ∧
      (result.1.isOk = false ↔ ¬ ['*', '/'] <:+: r) := by
  refine ⟨fun r hrest => ?_, fun r hrest => ?_⟩
  · obtain ⟨v, hv, hfits⟩ := exists_isOneLine r
    refine ⟨⟨v, hv⟩, fun v' hv' => ?_⟩
    obtain rfl := hv'.eq hv
    exact Builtin.Fits.produce (hrest ▸ hfits) ctx
  · refine ⟨exists_closedBehind, fun b hb => produce_of_closedBehind hrest hb ctx,
      fun hnone => ⟨?_, produce_of_open hrest hnone ctx⟩, fun hfails hcloses => ?_, fun hnone => ?_⟩
    · simp [Cursor.atEnd, Cursor.rest_skip]
    · obtain ⟨b, hb⟩ := exists_closedBehind hcloses
      rw [produce_of_closedBehind hrest hb ctx] at hfails
      cases hfails
    · rw [produce_of_open hrest hnone ctx]
      rfl

/-- The star of the opening does not close a comment. -/
theorem comment_outcome_star :
    let s := Cursor.start "/*/ **/;".toList
    let s' := Cursor.start "/*/".toList
    Builtin.multiLineComment.produce .initial s =
        (.ok ⟨.multiLineComment, "/*/ **/", ⟨0, 0⟩, ⟨0, 7⟩⟩, s.skip 7) ∧
      Builtin.multiLineComment.produce .initial s' =
        (.error (.unterminatedComment ⟨0, 0⟩ ⟨0, 3⟩), s'.skip 3) := by
  intro s s'
  obtain ⟨-, hblock⟩ := comment_outcome s .initial
  obtain ⟨-, hblock'⟩ := comment_outcome s' .initial
  obtain ⟨-, htoken, -⟩ := hblock "/ **/;".toList rfl
  obtain ⟨-, -, hopen, -⟩ := hblock' ['/'] rfl
  have hbody : IsShortestPrefix (ClosedBehind "/ **/;".toList) "/ *".toList "/ **/;".toList :=
    isShortestPrefix_closedBehind.2 ⟨⟨[';'], rfl⟩, by decide⟩
  exact ⟨htoken _ hbody, (hopen (by decide)).2⟩

end JsLexer
