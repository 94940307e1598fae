import JsLexer.Lexeme.Punctuator
import JsLexer.Proofs.Ending

/-!
The texts of punctuators.

Every kind of punctuator has one spelling. Reading a punctuator takes the spelling of some kind that
nothing behind it makes longer, and takes every such spelling: one direction goes by the families
that the first code point picks, the other by the kinds.
-/

namespace JsLexer

/-- The one text of a punctuator of this kind; the other kinds have none. -/
def TokenKind.spelling : TokenKind → List Char
  | .add => ['+']
  | .sub => ['-']
  | .multiply => ['*']
  | .quotient => ['/']
  | .remainder => ['%']
  | .exponent => ['*', '*']
  | .increment => ['+', '+']
  | .decrement => ['-', '-']
  | .and => ['&']
  | .or => ['|']
  | .xor => ['^']
  | .tilde => ['~']
  | .leftShift => ['<', '<']
  | .rightShift => ['>', '>']
  | .unsignedRightShift => ['>', '>', '>']
  | .logicalAnd => ['&', '&']
  | .logicalOr => ['|', '|']
  | .not => ['!']
  | .nullishCoalescing => ['?', '?']
  | .equal => ['=', '=']
  | .strictEqual => ['=', '=', '=']
  | .notEqual => ['!', '=']
  | .strictNotEqual => ['!', '=', '=']
  | .lessThan => ['<']
  | .greaterThan => ['>']
  | .lessThanOrEqual => ['<', '=']
  | .greaterThanOrEqual => ['>', '=']
  | .assign => ['=']
  | .addAssign => ['+', '=']
  | .subAssign => ['-', '=']
  | .mulAssign => ['*', '=']
  | .quoAssign => ['/', '=']
  | .remAssign => ['%', '=']
  | .exponentAssign => ['*', '*', '=']
  | .andAssign => ['&', '=']
  | .orAssign => ['|', '=']
  | .xorAssign => ['^', '=']
  | .leftShiftAssign => ['<', '<', '=']
  | .rightShiftAssign => ['>', '>', '=']
  | .unsignedRightShiftAssign => ['>', '>', '>', '=']
  | .logicalAndAssign => ['&', '&', '=']
  | .logicalOrAssign => ['|', '|', '=']
  | .nullishAssign => ['?', '?', '=']
  | .leftParen => ['(']
  | .rightParen => [')']
  | .leftBracket => ['[']
  | .rightBracket => [']']
  | .leftBrace => ['\x7b']
  | .rightBrace => ['\x7d']
  | .comma => [',']
  | .period => ['.']
  | .ellipsis => ['.', '.', '.']
  | .semicolon => [';']
  | .colon => [':']
  | .questionMark => ['?']
  | .optionalChaining => ['?', '.']
  | .arrow => ['=', '>']
  | _ => []

namespace TokenKind

/-- Whether this kind has a spelling and ends before everything but its extenders. The two kinds
that start with a question mark and look further are not of this sort. -/
def isPlain (k : TokenKind) : Bool :=
  k.spelling != [] && k != .questionMark && k != .optionalChaining

theorem endsBefore_plain {k : TokenKind} (h : k.isPlain = true) (w r : List Char) :
    k.endsBefore w r = r.head?.all (!k.extenders.contains ·) := by
  cases r with
  | nil => rfl
  | cons c r => cases k <;> first | rfl | exact absurd h (by decide)

end TokenKind

namespace Lexeme

/-- The text starts with the spelling of this kind, of this length, and the punctuator ends
there. -/
def Spelled (k : TokenKind) (n : Nat) (cs : List Char) : Prop :=
  ∃ r, cs = k.spelling ++ r ∧ n = k.spelling.length ∧ k.spelling ≠ [] ∧
    k.endsBefore k.spelling r = true

/-! ### Every spelling is read -/

theorem orAssign_of_ne {length : Nat} {bare withEquals : TokenKind} {c : Char} (h : c ≠ '=')
    (cs : List Char) : orAssign length bare withEquals (c :: cs) = .token bare length := by
  simp [orAssign, h]

theorem afterQuestion_complete {w r : List Char}
    (hr : TokenKind.questionMark.endsBefore w r = true) :
    afterQuestion r = .token .questionMark 1 := by
  rcases r with _ | ⟨c, r⟩
  · rfl
  · by_cases hc : c = '.'
    · subst hc
      simp_all [TokenKind.endsBefore, afterQuestion]
    · simp_all [TokenKind.endsBefore, afterQuestion]

theorem afterQuestion_point_complete {w r : List Char}
    (hr : TokenKind.optionalChaining.endsBefore w r = true) :
    afterQuestion ('.' :: r) = .token .optionalChaining 2 := by
  cases r <;> simp_all [TokenKind.endsBefore, afterQuestion]

theorem punctuator_complete {k : TokenKind} (hk : k.spelling ≠ []) {r : List Char}
    (hr : k.endsBefore k.spelling r = true) :
    punctuator (k.spelling ++ r) = .token k k.spelling.length := by
  by_cases hquestion : k = .questionMark
  · subst hquestion
    exact afterQuestion_complete hr
  by_cases hchain : k = .optionalChaining
  · subst hchain
    exact afterQuestion_point_complete hr
  rcases r with _ | ⟨c, r⟩
  · cases k <;> first | exact absurd rfl hk | rfl
  · have hplain : k.isPlain = true := by simp [TokenKind.isPlain, hk, hquestion, hchain]
    have hne : ∀ d ∈ k.extenders, c ≠ d := by
      rintro d hd rfl
      simp [TokenKind.endsBefore_plain hplain, hd] at hr
    cases k
    case add =>
      change afterPlus (c :: r) = .token .add 1
      simp [afterPlus, orAssign, hne '+' (by decide), hne '=' (by decide)]
    case sub =>
      change afterMinus (c :: r) = .token .sub 1
      simp [afterMinus, orAssign, hne '-' (by decide), hne '=' (by decide)]
    case multiply =>
      change afterStar (c :: r) = .token .multiply 1
      simp [afterStar, orAssign, hne '*' (by decide), hne '=' (by decide)]
    case lessThan =>
      change afterLess (c :: r) = .token .lessThan 1
      simp [afterLess, orAssign, hne '<' (by decide), hne '=' (by decide)]
    case greaterThan =>
      change afterGreater (c :: r) = .token .greaterThan 1
      simp [afterGreater, orAssign, hne '>' (by decide), hne '=' (by decide)]
    case rightShift =>
      change afterGreater ('>' :: c :: r) = .token .rightShift 2
      simp [afterGreater, orAssign, hne '>' (by decide), hne '=' (by decide)]
    case assign =>
      change afterEquals (c :: r) = .token .assign 1
      simp [afterEquals, hne '>' (by decide), hne '=' (by decide)]
    case not =>
      change afterBang (c :: r) = .token .not 1
      simp [afterBang, hne '=' (by decide)]
    case and =>
      change afterAmpersand (c :: r) = .token .and 1
      simp [afterAmpersand, orAssign, hne '&' (by decide), hne '=' (by decide)]
    case or =>
      change afterBar (c :: r) = .token .or 1
      simp [afterBar, orAssign, hne '|' (by decide), hne '=' (by decide)]
    case period =>
      change afterPoint (c :: r) = .token .period 1
      simp [afterPoint, hne '.' (by decide)]
    case quotient | remainder | xor | exponent | leftShift | unsignedRightShift | equal | notEqual |
        logicalAnd | logicalOr | nullishCoalescing =>
      exact orAssign_of_ne (hne '=' (by decide)) r
    -- what is left has no spelling, or nothing makes it longer
    all_goals first | rfl | contradiction

/-! ### Only spellings are read -/

theorem spelled_plain {k k' : TokenKind} {m n : Nat} {r : List Char}
    (h : Reading.token k m = .token k' n) (hlength : m = k.spelling.length)
    (hplain : k.isPlain = true) (hr : r.head?.all (!k.extenders.contains ·) = true) :
    Spelled k' n (k.spelling ++ r) := by
  obtain ⟨rfl, rfl⟩ := Reading.token.inj h
  rw [← TokenKind.endsBefore_plain hplain k.spelling] at hr
  refine ⟨r, rfl, hlength, ?_, hr⟩
  intro hnil
  simp [TokenKind.isPlain, hnil] at hplain

/-- Nothing makes this kind longer. -/
theorem spelled_whole {k k' : TokenKind} {m n : Nat} {r : List Char}
    (h : Reading.token k m = .token k' n) (hlength : m = k.spelling.length)
    (hplain : k.isPlain = true) (hwhole : k.extenders = []) : Spelled k' n (k.spelling ++ r) := by
  refine spelled_plain h hlength hplain ?_
  rw [hwhole]
  cases r <;> rfl

theorem all_not_contains {cs ds : List Char} (h : ∀ d ∈ ds, cs.head? ≠ some d) :
    cs.head?.all (!ds.contains ·) = true := by
  cases cs with
  | nil => rfl
  | cons c cs =>
    have hc : c ∉ ds := fun hmem => h c hmem rfl
    simpa using hc

theorem head?_ne {d : Char} {cs : List Char} (h : ∀ r, cs = d :: r → False) :
    cs.head? ≠ some d := by
  intro hd
  obtain ⟨r, rfl⟩ := List.head?_eq_some_iff.1 hd
  exact h r rfl

/-- The kind that an equals sign turns another into. -/
def AddsEquals (bare withEquals : TokenKind) : Prop :=
  withEquals.spelling = bare.spelling ++ ['='] ∧ withEquals.extenders = [] ∧
    bare.isPlain = true ∧ withEquals.isPlain = true

/-- A spelling that an equals sign makes a longer one, as do the other code points given. -/
theorem orAssign_sound {length n : Nat} {bare withEquals k : TokenKind} {cs : List Char}
    (others : List Char) (h : orAssign length bare withEquals cs = .token k n)
    (hlength : length = bare.spelling.length) (hequals : AddsEquals bare withEquals)
    (hextenders : bare.extenders = others ++ ['=']) (hothers : ∀ d ∈ others, cs.head? ≠ some d) :
    Spelled k n (bare.spelling ++ cs) := by
  obtain ⟨hspelling, hwhole, hbare, hwith⟩ := hequals
  unfold orAssign at h
  split at h
  · next r =>
    have hspelled := spelled_whole (r := r) h (by rw [hspelling, hlength]; simp) hwith hwhole
    rwa [hspelling, List.append_assoc] at hspelled
  · next hcs =>
    refine spelled_plain h hlength hbare (all_not_contains ?_)
    rw [hextenders, List.forall_mem_append]
    exact ⟨hothers, by simpa using head?_ne hcs⟩

/-- A spelling that nothing but an equals sign makes longer. -/
theorem orAssign_sound_alone {length n : Nat} {bare withEquals k : TokenKind} {cs : List Char}
    (h : orAssign length bare withEquals cs = .token k n) (hlength : length = bare.spelling.length)
    (hequals : AddsEquals bare withEquals) (hextenders : bare.extenders = ['=']) :
    Spelled k n (bare.spelling ++ cs) :=
  orAssign_sound [] h hlength hequals hextenders (by simp)

/-- A family that starts with the code point `c`. If `c` does not stand there twice, only an equals
sign can make the punctuator longer. -/
theorem family_sound {read : List Char → Reading} {c : Char} {n : Nat}
    {bare withEquals k : TokenKind} {cs : List Char}
    (hbare : ∀ cs, (∀ r, cs = c :: r → False) → read cs = orAssign 1 bare withEquals cs)
    (hspelling : bare.spelling = [c]) (hequals : AddsEquals bare withEquals)
    (hextenders : bare.extenders = [c, '=']) (h : read cs = .token k n)
    (htwice : ∀ r, read (c :: r) = .token k n → Spelled k n (c :: c :: r)) :
    Spelled k n (c :: cs) := by
  by_cases hc : cs.head? = some c
  · obtain ⟨r, rfl⟩ := List.head?_eq_some_iff.1 hc
    exact htwice r h
  · have hother : ∀ r, cs = c :: r → False := by
      rintro r rfl
      exact hc rfl
    rw [hbare cs hother] at h
    have hsound := orAssign_sound [c] h (by rw [hspelling]; rfl) hequals hextenders
      (by simpa using hc)
    rwa [hspelling] at hsound

theorem afterPlus_sound {k : TokenKind} {n : Nat} {cs : List Char}
    (h : afterPlus cs = .token k n) : Spelled k n ('+' :: cs) := by
  refine family_sound afterPlus.eq_2 rfl ⟨rfl, rfl, rfl, rfl⟩ rfl h fun r h => ?_
  exact spelled_whole h rfl rfl rfl

theorem afterMinus_sound {k : TokenKind} {n : Nat} {cs : List Char}
    (h : afterMinus cs = .token k n) : Spelled k n ('-' :: cs) := by
  refine family_sound afterMinus.eq_2 rfl ⟨rfl, rfl, rfl, rfl⟩ rfl h fun r h => ?_
  exact spelled_whole h rfl rfl rfl

theorem afterStar_sound {k : TokenKind} {n : Nat} {cs : List Char}
    (h : afterStar cs = .token k n) : Spelled k n ('*' :: cs) := by
  refine family_sound afterStar.eq_2 rfl ⟨rfl, rfl, rfl, rfl⟩ rfl h fun r h => ?_
  exact orAssign_sound_alone h rfl ⟨rfl, rfl, rfl, rfl⟩ rfl

theorem afterLess_sound {k : TokenKind} {n : Nat} {cs : List Char}
    (h : afterLess cs = .token k n) : Spelled k n ('<' :: cs) := by
  refine family_sound afterLess.eq_2 rfl ⟨rfl, rfl, rfl, rfl⟩ rfl h fun r h => ?_
  exact orAssign_sound_alone h rfl ⟨rfl, rfl, rfl, rfl⟩ rfl

theorem afterAmpersand_sound {k : TokenKind} {n : Nat} {cs : List Char}
    (h : afterAmpersand cs = .token k n) : Spelled k n ('&' :: cs) := by
  refine family_sound afterAmpersand.eq_2 rfl ⟨rfl, rfl, rfl, rfl⟩ rfl h fun r h => ?_
  exact orAssign_sound_alone h rfl ⟨rfl, rfl, rfl, rfl⟩ rfl

theorem afterBar_sound {k : TokenKind} {n : Nat} {cs : List Char}
    (h : afterBar cs = .token k n) : Spelled k n ('|' :: cs) := by
  refine family_sound afterBar.eq_2 rfl ⟨rfl, rfl, rfl, rfl⟩ rfl h fun r h => ?_
  exact orAssign_sound_alone h rfl ⟨rfl, rfl, rfl, rfl⟩ rfl

theorem afterGreater_sound {k : TokenKind} {n : Nat} {cs : List Char}
    (h : afterGreater cs = .token k n) : Spelled k n ('>' :: cs) := by
  unfold afterGreater at h
  split at h
  · exact orAssign_sound_alone h rfl ⟨rfl, rfl, rfl, rfl⟩ rfl
  · next hgreater =>
    exact orAssign_sound ['>'] h rfl ⟨rfl, rfl, rfl, rfl⟩ rfl (by simpa using head?_ne hgreater)
  · next hgreater =>
    exact orAssign_sound ['>'] h rfl ⟨rfl, rfl, rfl, rfl⟩ rfl (by simpa using head?_ne hgreater)

theorem afterEquals_sound {k : TokenKind} {n : Nat} {cs : List Char}
    (h : afterEquals cs = .token k n) : Spelled k n ('=' :: cs) := by
  unfold afterEquals at h
  split at h
  · exact spelled_whole h rfl rfl rfl
  · exact orAssign_sound_alone h rfl ⟨rfl, rfl, rfl, rfl⟩ rfl
  · next hgreater hequals =>
    refine spelled_plain h rfl rfl (all_not_contains ?_)
    exact List.forall_mem_cons.2 ⟨head?_ne hgreater, List.forall_mem_singleton.2 (head?_ne hequals)⟩

theorem afterBang_sound {k : TokenKind} {n : Nat} {cs : List Char}
    (h : afterBang cs = .token k n) : Spelled k n ('!' :: cs) := by
  unfold afterBang at h
  split at h
  · exact orAssign_sound_alone h rfl ⟨rfl, rfl, rfl, rfl⟩ rfl
  · next hequals =>
    refine spelled_plain h rfl rfl (all_not_contains ?_)
    exact List.forall_mem_singleton.2 (head?_ne hequals)

theorem afterPoint_sound {k : TokenKind} {n : Nat} {cs : List Char}
    (h : afterPoint cs = .token k n) : Spelled k n ('.' :: cs) := by
  unfold afterPoint at h
  split at h
  · exact spelled_whole h rfl rfl rfl
  · simp at h
  · next hpoint =>
    refine spelled_plain h rfl rfl (all_not_contains ?_)
    exact List.forall_mem_singleton.2 (head?_ne hpoint)

/-- A question mark ends before a point only if a digit follows. -/
theorem afterQuestion_sound {k : TokenKind} {n : Nat} {cs : List Char}
    (h : afterQuestion cs = .token k n) : Spelled k n ('?' :: cs) := by
  unfold afterQuestion at h
  split at h
  · exact orAssign_sound_alone h rfl ⟨rfl, rfl, rfl, rfl⟩ rfl
  · next cs =>
    split at h <;> obtain ⟨rfl, rfl⟩ := Reading.token.inj h
    · next hdigit => exact ⟨'.' :: cs, rfl, rfl, by decide, by simp [TokenKind.endsBefore, hdigit]⟩
    · next hdigit =>
      refine ⟨cs, rfl, rfl, by decide, ?_⟩
      cases cs <;> simp_all [TokenKind.endsBefore]
  · obtain ⟨rfl, rfl⟩ := Reading.token.inj h
    refine ⟨cs, rfl, rfl, by decide, ?_⟩
    cases cs <;> simp_all [TokenKind.endsBefore]

theorem punctuator_sound {k : TokenKind} {n : Nat} {cs : List Char}
    (h : punctuator cs = .token k n) : Spelled k n cs := by
  unfold punctuator at h
  split at h
  case h_1 => simp at h
  case h_12 => exact afterPoint_sound h
  case h_13 => exact afterPlus_sound h
  case h_14 => exact afterMinus_sound h
  case h_15 => exact afterStar_sound h
  case h_18 => exact afterLess_sound h
  case h_19 => exact afterGreater_sound h
  case h_20 => exact afterEquals_sound h
  case h_21 => exact afterBang_sound h
  case h_22 => exact afterAmpersand_sound h
  case h_23 => exact afterBar_sound h
  case h_25 => exact afterQuestion_sound h
  case h_26 => simp at h
  -- the slash, the percent sign and the caret, which only an equals sign makes longer
  case h_16 | h_17 | h_24 => exact orAssign_sound_alone h rfl ⟨rfl, rfl, rfl, rfl⟩ rfl
  -- the brackets, the comma and their like, which nothing makes longer
  all_goals exact spelled_whole h rfl rfl rfl

end Lexeme

end JsLexer
