import JsLexer.CharClass
import JsLexer.Proofs.Escape
import JsLexer.Proofs.Json.Value
import JsLexer.Text.Quoted

/-!
Quoted text can be printed and read back.

Whatever a text contains, between quotes there is no control character and no line terminator, since
the code points that would be one are all spelled by a backslash and a letter or by their number.
And what the first code point was is seen from the quoted text, whatever stands behind it. So no two
texts are quoted alike.
-/

namespace JsLexer.Text

/-! ### Hexadecimal numbers -/

theorem toDigits_eq_concat (n : Nat) : Nat.toDigits 16 n =
    (if n < 16 then [] else Nat.toDigits 16 (n / 16)) ++ [Nat.digitChar (n % 16)] := by
  rw [Nat.toDigits_eq_if (by decide)]
  split
  · next h => rw [Nat.mod_eq_of_lt h, List.nil_append]
  · rfl

theorem exists_digitChar_of_mem {n : Nat} {c : Char} (h : c ∈ Nat.toDigits 16 n) :
    ∃ d < 16, c = Nat.digitChar d := by
  induction n using Nat.strongRecOn with
  | ind n ih =>
    rw [toDigits_eq_concat, List.mem_append, List.mem_singleton] at h
    rcases h with h | rfl
    · split at h
      · simp at h
      · exact ih (n / 16) (by omega) h
    · exact ⟨n % 16, Nat.mod_lt n (by decide), rfl⟩

/-- Hexadecimal digits stand for the number that they are the digits of. -/
theorem hexNumber_toDigits (n : Nat) : Lexeme.hexNumber 0 (Nat.toDigits 16 n) = n := by
  induction n using Nat.strongRecOn with
  | ind n ih =>
    have hdigit : hexValue? (Nat.digitChar (n % 16)) = some (n % 16) :=
      Json.hexValue?_digitChar _ (Nat.mod_lt n (by decide))
    have hfront :
        Lexeme.hexNumber 0 (if n < 16 then [] else Nat.toDigits 16 (n / 16)) = n / 16 := by
      split
      · next h => rw [Nat.div_eq_of_lt h, Lexeme.hexNumber, List.foldl_nil]
      · exact ih (n / 16) (by omega)
    rw [Lexeme.hexNumber] at hfront
    rw [toDigits_eq_concat, Lexeme.hexNumber, List.foldl_append, hfront]
    simp only [List.foldl_cons, List.foldl_nil, hdigit, Option.getD_some]
    omega

/-! ### What can be printed -/

/-- A code point that keeps the line as it is: no control character and no line terminator. -/
def isPrinted (c : Char) : Bool := 0x20 ≤ c.toNat && !isLineTerminator c

theorem isPrinted_of_ascii {c : Char} (hlow : 0x20 ≤ c.toNat) (hhigh : c.toNat < 0x7F) :
    isPrinted c = true := by
  have hline : isLineTerminator c = false := by
    unfold isLineTerminator
    split
    all_goals first | rfl | exact absurd hlow (by decide) | exact absurd hhigh (by decide)
  simp [isPrinted, hlow, hline]

theorem isPrinted_digitChar : ∀ d < 16, isPrinted (Nat.digitChar d) = true := by decide

/-- What has neither an escape of its own nor a number to spell it can be printed. -/
theorem isPrinted_of_not_isHidden {c : Char} (hnull : c ≠ '\x00') (htab : c ≠ '\t')
    (hreturn : c ≠ '\r') (hfeed : c ≠ '\n') (h : isHidden c = false) : isPrinted c = true := by
  have hcontrol : ∀ n < 0x20, n = 0 ∨ n = 0x9 ∨ n = 0xA ∨ n = 0xD ∨ hiddenCodePoints.has n = true :=
    by decide +kernel
  have hplain : 0x20 ≤ c.toNat := by
    by_contra hlt
    have hne : ∀ d : Char, c ≠ d → c.toNat ≠ d.toNat := fun d hd heq => hd (Char.toNat_inj.1 heq)
    rcases hcontrol c.toNat (by omega) with hn | hn | hn | hn | hn
    · exact hne '\x00' hnull hn
    · exact hne '\t' htab hn
    · exact hne '\n' hfeed hn
    · exact hne '\r' hreturn hn
    · rw [isHidden, hn] at h
      exact Bool.noConfusion h
  have hline : isLineTerminator c = false := by
    unfold isLineTerminator
    split
    · exact absurd rfl hfeed
    · exact absurd rfl hreturn
    · exact absurd h (by decide +kernel)
    · exact absurd h (by decide +kernel)
    · rfl
  simp [isPrinted, hplain, hline]

theorem all_isPrinted_numbered (c : Char) : (numbered c).all isPrinted = true := by
  have hdigits : (Nat.toDigits 16 c.toNat).all isPrinted = true := by
    refine List.all_eq_true.2 fun d hd => ?_
    obtain ⟨n, hn, rfl⟩ := exists_digitChar_of_mem hd
    exact isPrinted_digitChar n hn
  rw [numbered, List.all_append, List.all_append, hdigits]
  decide

theorem all_isPrinted_escaped (c : Char) : (escaped '"' c).all isPrinted = true := by
  unfold escaped
  iterate 4
    split
    · decide
  next hnull htab hreturn hfeed =>
  split
  · next hc => rcases hc with rfl | rfl <;> decide
  split
  · exact all_isPrinted_numbered c
  · next hhidden =>
    rw [List.all_cons, List.all_nil, Bool.and_true]
    exact isPrinted_of_not_isHidden hnull htab hreturn hfeed (Bool.eq_false_iff.2 hhidden)

/-- Nothing in quoted text moves to another line or controls a terminal. -/
theorem all_isPrinted_quoted (s : String) : (quoted s).toList.all isPrinted = true := by
  have hescaped : (s.toList.flatMap (escaped '"')).all isPrinted = true := by
    rw [List.all_flatMap, List.all_eq_true]
    exact fun c _ => all_isPrinted_escaped c
  rw [quoted, String.toList_ofList, quotedWith, List.all_append, List.all_cons, hescaped]
  decide

/-! ### What was quoted -/

/-- The code point that the given quoted text starts with, and what stands behind it. -/
def unescaped? : List Char → Option (Char × List Char)
  | [] => none
  | '\\' :: '0' :: cs => some ('\x00', cs)
  | '\\' :: 't' :: cs => some ('\t', cs)
  | '\\' :: 'r' :: cs => some ('\r', cs)
  | '\\' :: 'n' :: cs => some ('\n', cs)
  | '\\' :: 'u' :: '\x7b' :: cs =>
    let digits := cs.takeWhile (· != '\x7d')
    some (Char.ofNat (Lexeme.hexNumber 0 digits), cs.drop (digits.length + 1))
  | '\\' :: c :: cs => some (c, cs)
  | c :: cs => some (c, cs)

theorem unescaped?_numbered (c : Char) (rest : List Char) :
    unescaped? (numbered c ++ rest) = some (c, rest) := by
  have hbrace : ∀ n < 16, (Nat.digitChar n != '\x7d') = true := by decide
  have hdigits : ∀ d ∈ Nat.toDigits 16 c.toNat, (d != '\x7d') = true := by
    intro d hd
    obtain ⟨n, hn, rfl⟩ := exists_digitChar_of_mem hd
    exact hbrace n hn
  have htake : (Nat.toDigits 16 c.toNat ++ '\x7d' :: rest).takeWhile (· != '\x7d') =
      Nat.toDigits 16 c.toNat := by
    rw [List.takeWhile_append_of_pos hdigits, List.takeWhile_cons_of_neg (by decide),
      List.append_nil]
  simp [numbered, unescaped?, htake, hexNumber_toDigits]

/-- The first code point is read back whatever stands behind it. -/
theorem unescaped?_escaped (c : Char) (rest : List Char) :
    unescaped? (escaped '"' c ++ rest) = some (c, rest) := by
  unfold escaped
  -- the four with a letter of their own
  iterate 4
    split
    · next h => subst h; rfl
  split
  · next h => rcases h with rfl | rfl <;> rfl
  next hspecial =>
  split
  · exact unescaped?_numbered c rest
  · obtain ⟨hbackslash, -⟩ := not_or.1 hspecial
    simp [unescaped?, hbackslash]

theorem flatMap_escaped_injective {cs ds : List Char}
    (h : cs.flatMap (escaped '"') = ds.flatMap (escaped '"')) : cs = ds := by
  induction cs generalizing ds with
  | nil =>
    cases ds with
    | nil => rfl
    | cons d ds =>
      have hd := unescaped?_escaped d (ds.flatMap (escaped '"'))
      rw [← List.flatMap_cons, ← h] at hd
      simp [unescaped?] at hd
  | cons c cs ih =>
    have hc := unescaped?_escaped c (cs.flatMap (escaped '"'))
    rw [← List.flatMap_cons, h] at hc
    cases ds with
    | nil => simp [unescaped?] at hc
    | cons d ds =>
      rw [List.flatMap_cons, unescaped?_escaped, Option.some.injEq, Prod.mk.injEq] at hc
      obtain ⟨rfl, hrest⟩ := hc
      rw [ih hrest.symm]

/-- No two texts are quoted alike. -/
theorem quoted_injective : Function.Injective quoted := by
  intro s t h
  have hlists := congrArg String.toList h
  rw [quoted, quoted, String.toList_ofList, String.toList_ofList, quotedWith, quotedWith,
    List.append_cancel_right_eq, List.cons.injEq] at hlists
  exact String.toList_inj.1 (flatMap_escaped_injective hlists.2)

end JsLexer.Text
