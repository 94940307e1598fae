import JsLexer.Lexeme.Blank
import JsLexer.Lexeme.Comment
import JsLexer.Proofs.Ending

/-!
The texts of white space, line breaks and comments.

Each reader is compared with a description of the texts it takes for a token. A reader is sound if
what it takes fits the description and ends where it stops, and complete if it takes every text that
fits, before anything the text can end before.
-/

namespace JsLexer.Lexeme

/-! ### Runs of code points -/

theorem runLength_eq {p : Char → Bool} {w r : List Char} (hw : ∀ c ∈ w, p c = true)
    (hr : r.head?.all (!p ·) = true) : runLength p (w ++ r) = w.length := by
  rw [runLength, List.takeWhile_append_of_pos hw]
  cases r with
  | nil => simp
  | cons c cs => simp_all

/-- A run is followed by something that does not belong to it. -/
theorem exists_runLength (p : Char → Bool) (cs : List Char) :
    ∃ w r, cs = w ++ r ∧ runLength p cs = w.length ∧ (∀ c ∈ w, p c = true) ∧
      r.head?.all (!p ·) = true := by
  refine ⟨cs.takeWhile p, cs.dropWhile p, List.takeWhile_append_dropWhile.symm, rfl, ?_, ?_⟩
  · exact List.all_eq_true.1 List.all_takeWhile
  · have := List.head?_dropWhile_not p cs
    cases h : (cs.dropWhile p).head? with
    | none => rfl
    | some c => simpa [h] using this

/-! ### White space and line breaks -/

/-- One code point of white space, of the kind that goes with it. -/
def IsWhitespace (k : TokenKind) (w : List Char) : Prop :=
  ∃ c, w = [c] ∧ isWhitespace c = true ∧ k = whitespaceKind c

theorem whitespace_sound {k : TokenKind} {n : Nat} {cs : List Char}
    (h : whitespace cs = .token k n) :
    ∃ w r, cs = w ++ r ∧ n = w.length ∧ IsWhitespace k w ∧ k.endsBefore w r = true := by
  unfold whitespace at h
  split at h
  · simp at h
  · next c r =>
    split at h
    · next hc =>
      obtain ⟨rfl, rfl⟩ : whitespaceKind c = k ∧ 1 = n := by simpa using h
      refine ⟨[c], r, rfl, rfl, ⟨c, rfl, hc, rfl⟩, ?_⟩
      cases r with
      | nil => rfl
      | cons d r => unfold whitespaceKind; split <;> rfl
    · simp at h

theorem whitespace_complete {k : TokenKind} {w : List Char} (h : IsWhitespace k w) (r : List Char) :
    whitespace (w ++ r) = .token k w.length := by
  obtain ⟨c, rfl, hc, rfl⟩ := h
  simp [whitespace, hc]

/-- The line breaks, by kind. -/
def lineBreaks : List (TokenKind × List Char) :=
  [(.lineFeed, ['\n']), (.carriageReturn, ['\r']), (.carriageReturn, ['\r', '\n']),
    (.lineSeparator, ['\u2028']), (.paragraphSeparator, ['\u2029'])]

theorem mem_lineBreaks {k : TokenKind} {w : List Char} : (k, w) ∈ lineBreaks ↔
    k = .lineFeed ∧ w = ['\n'] ∨ k = .carriageReturn ∧ w = ['\r'] ∨
      k = .carriageReturn ∧ w = ['\r', '\n'] ∨ k = .lineSeparator ∧ w = ['\u2028'] ∨
      k = .paragraphSeparator ∧ w = ['\u2029'] := by
  simp [lineBreaks]

theorem lineTerminator_sound {k : TokenKind} {n : Nat} {cs : List Char}
    (h : lineTerminator cs = .token k n) :
    ∃ w r, cs = w ++ r ∧ n = w.length ∧ (k, w) ∈ lineBreaks ∧ k.endsBefore w r = true := by
  unfold lineTerminator at h
  split at h <;> simp only [Reading.token.injEq, reduceCtorEq] at h <;> obtain ⟨rfl, rfl⟩ := h
  · next r => exact ⟨['\n'], r, rfl, rfl, by decide, by cases r <;> rfl⟩
  · next r => exact ⟨['\r', '\n'], r, rfl, rfl, by decide, by cases r <;> rfl⟩
  · next r hr =>
    refine ⟨['\r'], r, rfl, rfl, by decide, ?_⟩
    cases r with
    | nil => rfl
    | cons c r =>
      have hc : c ≠ '\n' := by
        rintro rfl
        exact hr r rfl
      simpa [TokenKind.endsBefore] using hc
  · next r => exact ⟨['\u2028'], r, rfl, rfl, by decide, by cases r <;> rfl⟩
  · next r => exact ⟨['\u2029'], r, rfl, rfl, by decide, by cases r <;> rfl⟩

theorem lineTerminator_complete {k : TokenKind} {w r : List Char} (h : (k, w) ∈ lineBreaks)
    (hr : k.endsBefore w r = true) : lineTerminator (w ++ r) = .token k w.length := by
  rcases mem_lineBreaks.1 h with ⟨rfl, rfl⟩ | ⟨rfl, rfl⟩ | ⟨rfl, rfl⟩ | ⟨rfl, rfl⟩ | ⟨rfl, rfl⟩
  · rfl
  · cases r with
    | nil => rfl
    | cons c r =>
      have hc : c ≠ '\n' := by simpa [TokenKind.endsBefore] using hr
      simp [lineTerminator, hc]
  · rfl
  · rfl
  · rfl

/-! ### Comments -/

/-- Two slashes and then no line terminator. -/
def IsSingleLineComment (w : List Char) : Prop :=
  ∃ v, w = '/' :: '/' :: v ∧ ∀ c ∈ v, isLineTerminator c = false

theorem singleLineComment_sound {k : TokenKind} {n : Nat} {cs : List Char}
    (h : singleLineComment cs = .token k n) :
    ∃ w r, cs = w ++ r ∧ n = w.length ∧ (k = .singleLineComment ∧ IsSingleLineComment w) ∧
      k.endsBefore w r = true := by
  unfold singleLineComment at h
  split at h <;> simp only [Reading.token.injEq, reduceCtorEq] at h
  next cs =>
  obtain ⟨rfl, rfl⟩ := h
  obtain ⟨v, r, rfl, hlength, hv, hr⟩ := exists_runLength (!isLineTerminator ·) cs
  refine ⟨'/' :: '/' :: v, r, rfl, ?_, ⟨rfl, v, rfl, by simpa using hv⟩, ?_⟩
  · rw [hlength, List.length_cons, List.length_cons, Nat.add_comm]
  · cases r <;> simp_all [TokenKind.endsBefore]

theorem singleLineComment_complete {w r : List Char} (h : IsSingleLineComment w)
    (hr : TokenKind.singleLineComment.endsBefore w r = true) :
    singleLineComment (w ++ r) = .token .singleLineComment w.length := by
  obtain ⟨v, rfl, hv⟩ := h
  have hlength : runLength (!isLineTerminator ·) (v ++ r) = v.length := by
    refine runLength_eq (by simpa using hv) ?_
    cases r <;> simp_all [TokenKind.endsBefore]
  simp [singleLineComment, hlength]
  omega

/-- A slash and a star, and a star and a slash that are the first ones behind that. -/
def IsMultiLineComment (w : List Char) : Prop :=
  ∃ v, w = '/' :: '*' :: (v ++ ['*', '/']) ∧ ¬ ['*', '/'] <:+: v ++ ['*']

theorem commentBody_sound {k : TokenKind} {n : Nat} {cs : List Char}
    (h : commentBody cs = .token k n) :
    ∃ v r, cs = v ++ '*' :: '/' :: r ∧ n = v.length + 2 ∧ k = .multiLineComment ∧
      ¬ ['*', '/'] <:+: v ++ ['*'] := by
  induction cs using commentBody.induct generalizing n with
  | case1 => simp [commentBody] at h
  | case2 r =>
    obtain ⟨rfl, rfl⟩ : _ = k ∧ 2 = n := by simpa [commentBody] using h
    exact ⟨[], r, rfl, rfl, rfl, by decide⟩
  | case3 c cs hopen ih =>
    rw [commentBody.eq_3 _ _ hopen] at h
    obtain ⟨m, hbody, rfl⟩ := Reading.after_eq_token.1 h
    obtain ⟨v, r, rfl, rfl, rfl, hv⟩ := ih hbody
    refine ⟨c :: v, r, rfl, by rw [List.length_cons]; omega, rfl, ?_⟩
    rw [List.cons_append, List.infix_cons_iff]
    rintro (hstart | hlater)
    · obtain ⟨rfl, hslash⟩ := List.cons_prefix_cons.1 hstart
      cases v with
      | nil => simp at hslash
      | cons d v =>
        obtain ⟨rfl, -⟩ := List.cons_prefix_cons.1 hslash
        exact hopen _ rfl rfl
    · exact hv hlater

theorem commentBody_complete {v : List Char} (h : ¬ ['*', '/'] <:+: v ++ ['*']) (r : List Char) :
    commentBody (v ++ '*' :: '/' :: r) = .token .multiLineComment (v.length + 2) := by
  induction v with
  | nil => rfl
  | cons c v ih =>
    rw [List.cons_append, List.infix_cons_iff, not_or] at h
    have hopen : ∀ cs, c = '*' → v ++ '*' :: '/' :: r = '/' :: cs → False := by
      rintro cs rfl hcs
      refine h.1 ?_
      cases v with
      | nil => simp at hcs
      | cons d v =>
        obtain ⟨rfl, -⟩ := List.cons.inj hcs
        simp
    rw [List.cons_append, commentBody.eq_3 _ _ hopen, ih h.2]
    simp [Reading.after]
    omega

theorem multiLineComment_sound {k : TokenKind} {n : Nat} {cs : List Char}
    (h : multiLineComment cs = .token k n) :
    ∃ w r, cs = w ++ r ∧ n = w.length ∧ (k = .multiLineComment ∧ IsMultiLineComment w) ∧
      k.endsBefore w r = true := by
  unfold multiLineComment at h
  split at h
  · next cs =>
    obtain ⟨m, hbody, rfl⟩ := Reading.after_eq_token.1 h
    obtain ⟨v, r, rfl, rfl, rfl, hv⟩ := commentBody_sound hbody
    refine ⟨'/' :: '*' :: (v ++ ['*', '/']), r, by simp, ?_, ⟨rfl, v, rfl, hv⟩,
      by cases r <;> rfl⟩
    simp only [List.length_cons, List.length_append, List.length_nil]
    omega
  all_goals simp at h

theorem multiLineComment_complete {w : List Char} (h : IsMultiLineComment w) (r : List Char) :
    multiLineComment (w ++ r) = .token .multiLineComment w.length := by
  obtain ⟨v, rfl, hv⟩ := h
  simp [multiLineComment, commentBody_complete hv, Reading.after]
  omega

end JsLexer.Lexeme
