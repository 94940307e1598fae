import JsLexer.Lexeme.Escape
import Mathlib.Algebra.Group.Nat.Defs

/-!
The texts of escapes by number.

An escape is four hexadecimal digits, or digits between braces that stand for a code point. The
value between braces is summed up in a word that does not overflow but stays at its largest number.
That is no matter: the sum is always the lesser of the true value and that number, which no code
point reaches. The count of the digits does matter: it wraps, and an escape is complete only if the
count is positive. It is for up to 2 ^ 31 - 1 digits, and with one more it is not.
-/

namespace JsLexer.Lexeme

/-- The number that hexadecimal digits stand for, behind others that stand for `value`. -/
def hexNumber (value : Nat) (ds : List Char) : Nat :=
  ds.foldl (fun v c => v * 16 + (hexValue? c).getD 0) value

/-- A count of `n` in 32 bits with a sign is positive. -/
def CountsPositive (n : Nat) : Prop := 0 < n % 2 ^ 32 ∧ n % 2 ^ 32 < 2 ^ 31

instance (n : Nat) : Decidable (CountsPositive n) := inferInstanceAs (Decidable (_ ∧ _))

/-- What stands behind `u` in an escape. -/
inductive IsEscape : List Char → Prop
  | plain {ds : List Char} : ds.length = 4 → (∀ c ∈ ds, isHexDigit c = true) → IsEscape ds
  | braced {ds : List Char} : CountsPositive ds.length → (∀ c ∈ ds, isHexDigit c = true) →
      hexNumber 0 ds ≤ maxCodePoint → IsEscape ('\x7b' :: (ds ++ ['\x7d']))

/-- No brace is a digit. -/
theorem ne_brace_of_isHexDigit {c : Char} (h : isHexDigit c = true) :
    c ≠ '\x7b' ∧ c ≠ '\x7d' := by
  refine ⟨?_, ?_⟩ <;> rintro rfl <;> exact absurd h (by decide)

theorem EscapeReading.after_zero (e : EscapeReading) : e.after 0 = e := by
  cases e <;> simp [after]

theorem EscapeReading.after_after (m n : Nat) (e : EscapeReading) :
    (e.after n).after m = e.after (m + n) := by
  cases e <;> simp [after, Nat.add_assoc]

theorem after_eq_complete {n m : Nat} {e : EscapeReading} :
    e.after n = .complete m ↔ ∃ l, e = .complete l ∧ m = n + l := by
  cases e <;> simp [EscapeReading.after, eq_comm]

/-! ### Digits -/

theorem hexDigits_sound {count n : Nat} {cs : List Char} (h : hexDigits count cs = .complete n) :
    ∃ ds r, cs = ds ++ r ∧ n = ds.length ∧ ds.length = count ∧ ∀ c ∈ ds, isHexDigit c = true := by
  induction count generalizing cs n with
  | zero =>
    obtain rfl : 0 = n := by simpa [hexDigits] using h
    exact ⟨[], cs, rfl, rfl, rfl, by simp⟩
  | succ count ih =>
    cases cs with
    | nil => simp [hexDigits] at h
    | cons c cs =>
      rw [hexDigits] at h
      split at h
      · next hc =>
        obtain ⟨l, hl, rfl⟩ := after_eq_complete.1 h
        obtain ⟨ds, r, rfl, rfl, rfl, hds⟩ := ih hl
        exact ⟨c :: ds, r, rfl, by simp [Nat.add_comm], rfl, by simpa [hc] using hds⟩
      · simp at h

theorem hexDigits_complete {ds : List Char} (h : ∀ c ∈ ds, isHexDigit c = true) (r : List Char) :
    hexDigits ds.length (ds ++ r) = .complete ds.length := by
  induction ds with
  | nil => rfl
  | cons c ds ih =>
    obtain ⟨hc, hds⟩ := List.forall_mem_cons.1 h
    simp [hexDigits, hc, ih hds, EscapeReading.after, Nat.add_comm]

/-! ### Digits between braces -/

/-- A sum held at the largest word is the lesser of the true sum and that word. -/
theorem appendDigit_min (value digit : Nat) :
    appendDigit (min value maxWord) digit = min (value * 16 + digit) maxWord := by
  simp only [appendDigit, maxWord]
  omega

theorem min_maxWord_le {value : Nat} : min value maxWord ≤ maxCodePoint ↔ value ≤ maxCodePoint := by
  simp only [maxWord, maxCodePoint]
  omega

theorem zero_lt_ofNat_iff {n : Nat} : 0 < Int32.ofNat n ↔ CountsPositive n := by
  rw [Int32.lt_iff_toInt_lt, Int32.toInt_zero, Int32.toInt_ofNat', Int.bmod_def, CountsPositive]
  simp only [Int32.size]
  omega

/-- Fewer digits than the count can hold count as what they are. -/
theorem countsPositive_of_lt {n : Nat} (hn : 0 < n) (h : n < 2 ^ 31) : CountsPositive n := by
  rw [CountsPositive]
  omega

theorem CountsPositive.ne_nil {ds : List Char} (h : CountsPositive ds.length) : ds ≠ [] := by
  rintro rfl
  exact absurd h (by decide)

/-- Digits are passed whatever follows them. The sum that is carried on is the lesser of their true
value and the largest word, so nothing is lost once it stays there; the count goes on as it is. -/
theorem bracedDigits_append {ds : List Char} (hds : ∀ c ∈ ds, isHexDigit c = true)
    (value n : Nat) (r : List Char) :
    bracedDigits (min value maxWord) (Int32.ofNat n) (ds ++ r) =
      (bracedDigits (min (hexNumber value ds) maxWord) (Int32.ofNat (n + ds.length)) r).after
        ds.length := by
  induction ds generalizing value n with
  | nil => exact (EscapeReading.after_zero _).symm
  | cons c ds ih =>
    obtain ⟨hc, hds⟩ := List.forall_mem_cons.1 hds
    obtain ⟨-, hbrace⟩ := ne_brace_of_isHexDigit hc
    obtain ⟨digit, hdigit⟩ := Option.isSome_iff_exists.1 hc
    have hcount : Int32.ofNat n + 1 = Int32.ofNat (n + 1) := (Int32.ofNat_add n 1).symm
    have hnumber : hexNumber value (c :: ds) = hexNumber (value * 16 + digit) ds := by
      rw [hexNumber, List.foldl_cons, hdigit]
      rfl
    rw [List.cons_append, bracedDigits, if_neg hbrace, hdigit]
    dsimp only
    rw [appendDigit_min, hcount, ih hds, EscapeReading.after_after, hnumber, List.length_cons,
      Nat.add_right_comm, Nat.add_comm 1, Nat.add_assoc]

theorem braced_append {ds : List Char} (hds : ∀ c ∈ ds, isHexDigit c = true) (r : List Char) :
    braced (ds ++ r) =
      (bracedDigits (min (hexNumber 0 ds) maxWord) (Int32.ofNat ds.length) r).after ds.length := by
  have hread := bracedDigits_append hds 0 0 r
  rwa [Nat.zero_min, Nat.zero_add] at hread

/-- Digits by themselves are cut short. -/
theorem braced_digits {ds : List Char} (hds : ∀ c ∈ ds, isHexDigit c = true) :
    braced ds = .cutShort ds.length := by
  have hread := braced_append hds []
  rwa [List.append_nil, bracedDigits, EscapeReading.after, Nat.add_zero] at hread

/-- The brace closes an escape if the count of the digits is positive and their value is a code
point. -/
theorem braced_brace {ds : List Char} (hds : ∀ c ∈ ds, isHexDigit c = true) (r : List Char) :
    braced (ds ++ '\x7d' :: r) =
      if CountsPositive ds.length ∧ hexNumber 0 ds ≤ maxCodePoint then .complete (ds.length + 1)
      else .malformed (ds.length + 1) := by
  rw [braced_append hds, bracedDigits, if_pos rfl]
  simp only [zero_lt_ofNat_iff, min_maxWord_le]
  split
  · rw [EscapeReading.after]
  · rw [EscapeReading.after]

/-- Anything else behind the digits breaks the escape. -/
theorem braced_stray {ds : List Char} (hds : ∀ c ∈ ds, isHexDigit c = true) {c : Char}
    (hdigit : isHexDigit c = false) (hbrace : c ≠ '\x7d') (r : List Char) :
    braced (ds ++ c :: r) = .malformed (ds.length + 1) := by
  have hnone : hexValue? c = none := by simpa [isHexDigit] using hdigit
  rw [braced_append hds, bracedDigits, if_neg hbrace, hnone, EscapeReading.after]

/-- Behind an opening brace, `cs` starts with hexadecimal digits and the closing brace, and the
value of all the digits is a code point. -/
def HoldsCodePoint (cs : List Char) : Prop :=
  cs.takeWhile isHexDigit ≠ [] ∧ (cs.dropWhile isHexDigit).head? = some '\x7d' ∧
    hexNumber 0 (cs.takeWhile isHexDigit) ≤ maxCodePoint

instance (cs : List Char) : Decidable (HoldsCodePoint cs) :=
  inferInstanceAs (Decidable (_ ∧ _ ∧ _))

/-- What is made of a text is settled by the digits that it starts with, the code point behind them
and the count of the digits. -/
theorem braced_eq (cs : List Char) :
    braced cs =
      if cs.dropWhile isHexDigit = [] then .cutShort (cs.takeWhile isHexDigit).length
      else if HoldsCodePoint cs ∧ CountsPositive (cs.takeWhile isHexDigit).length then
        .complete ((cs.takeWhile isHexDigit).length + 1)
      else .malformed ((cs.takeWhile isHexDigit).length + 1) := by
  have hcs : cs.takeWhile isHexDigit ++ cs.dropWhile isHexDigit = cs :=
    List.takeWhile_append_dropWhile
  have hds : ∀ c ∈ cs.takeWhile isHexDigit, isHexDigit c = true :=
    List.all_eq_true.1 List.all_takeWhile
  have hhead := List.head?_dropWhile_not isHexDigit cs
  cases hbehind : cs.dropWhile isHexDigit with
  | nil =>
    rw [hbehind, List.append_nil] at hcs
    rw [if_pos rfl, hcs, braced_digits (by rwa [hcs] at hds)]
  | cons c r =>
    have hdigit : isHexDigit c = false := by simpa [hbehind] using hhead
    rw [hbehind] at hcs
    rw [if_neg (List.cons_ne_nil c r)]
    by_cases hbrace : c = '\x7d'
    · have hread := braced_brace hds r
      rw [← hbrace, hcs] at hread
      have hholds : HoldsCodePoint cs ∧ CountsPositive (cs.takeWhile isHexDigit).length ↔
          CountsPositive (cs.takeWhile isHexDigit).length ∧
            hexNumber 0 (cs.takeWhile isHexDigit) ≤ maxCodePoint := by
        rw [HoldsCodePoint, hbehind, hbrace]
        constructor
        · rintro ⟨⟨-, -, hnumber⟩, hcount⟩
          exact ⟨hcount, hnumber⟩
        · rintro ⟨hcount, hnumber⟩
          exact ⟨⟨hcount.ne_nil, rfl, hnumber⟩, hcount⟩
      rw [hread]
      simp only [hholds]
    · have hread := braced_stray hds hdigit hbrace r
      rw [hcs] at hread
      have hbroken : ¬ (HoldsCodePoint cs ∧ CountsPositive (cs.takeWhile isHexDigit).length) := by
        rintro ⟨⟨-, hhead, -⟩, -⟩
        rw [hbehind] at hhead
        exact hbrace (Option.some.inj hhead)
      rw [hread, if_neg hbroken]

theorem braced_sound {n : Nat} {cs : List Char} (h : braced cs = .complete n) :
    ∃ ds r, cs = ds ++ '\x7d' :: r ∧ n = ds.length + 1 ∧ (∀ c ∈ ds, isHexDigit c = true) ∧
      CountsPositive ds.length ∧ hexNumber 0 ds ≤ maxCodePoint := by
  rw [braced_eq] at h
  split at h
  · simp at h
  · split at h
    · next hgood =>
      obtain ⟨⟨-, hbrace, hnumber⟩, hcount⟩ := hgood
      obtain ⟨r, hr⟩ := List.head?_eq_some_iff.1 hbrace
      refine ⟨cs.takeWhile isHexDigit, r, ?_, (EscapeReading.complete.inj h).symm,
        List.all_eq_true.1 List.all_takeWhile, hcount, hnumber⟩
      rw [← hr, List.takeWhile_append_dropWhile]
    · simp at h

/-! ### Zeros -/

theorem isHexDigit_of_mem_zeros (n : Nat) : ∀ c ∈ List.replicate n '0', isHexDigit c = true := by
  intro c hc
  rw [List.eq_of_mem_replicate hc]
  decide

/-- Each zero behind a number multiplies it by sixteen. -/
theorem hexNumber_zeros (value n : Nat) :
    hexNumber value (List.replicate n '0') = value * 16 ^ n := by
  induction n generalizing value with
  | zero => exact (Nat.mul_one value).symm
  | succ n ih =>
    have hzero : hexNumber value (List.replicate (n + 1) '0') =
        hexNumber (value * 16) (List.replicate n '0') := rfl
    rw [hzero, ih, Nat.pow_succ', Nat.mul_assoc]

/-- Hexadecimal digits that stand for a code point. -/
def IsCodePointNumber (ds : List Char) : Prop :=
  ds ≠ [] ∧ (∀ c ∈ ds, isHexDigit c = true) ∧ hexNumber 0 ds ≤ maxCodePoint

theorem isCodePointNumber_zeros {n : Nat} (hn : n ≠ 0) :
    IsCodePointNumber (List.replicate n '0') := by
  refine ⟨?_, isHexDigit_of_mem_zeros n, ?_⟩
  · rw [Ne, List.replicate_eq_nil_iff]
    exact hn
  · rw [hexNumber_zeros, Nat.zero_mul]
    exact Nat.zero_le _

/-- Zeros are the number of a code point, however many. -/
theorem holdsCodePoint_zeros {n : Nat} (hn : n ≠ 0) (r : List Char) :
    HoldsCodePoint (List.replicate n '0' ++ '\x7d' :: r) := by
  have hzeros := isHexDigit_of_mem_zeros n
  have hbrace : isHexDigit '\x7d' = false := by decide
  have hdigits : (List.replicate n '0' ++ '\x7d' :: r).takeWhile isHexDigit =
      List.replicate n '0' := by
    rw [List.takeWhile_append_of_pos hzeros, List.takeWhile_cons_of_neg (by rw [hbrace]; decide),
      List.append_nil]
  have hbehind : (List.replicate n '0' ++ '\x7d' :: r).dropWhile isHexDigit = '\x7d' :: r := by
    rw [List.dropWhile_append_of_pos hzeros, List.dropWhile_cons_of_neg (by rw [hbrace]; decide)]
  obtain ⟨hne, -, hnumber⟩ := isCodePointNumber_zeros hn
  rw [HoldsCodePoint, hdigits, hbehind]
  exact ⟨hne, rfl, hnumber⟩

theorem braced_zeros {n : Nat} (hn : ¬ CountsPositive n) (r : List Char) :
    braced (List.replicate n '0' ++ '\x7d' :: r) = .malformed (n + 1) := by
  have hread := braced_brace (isHexDigit_of_mem_zeros n) r
  rwa [List.length_replicate, if_neg fun h => hn h.1] at hread

/-! ### The three outcomes -/

/-- An escape between braces is as good as its digits, as long as they can be counted. All
hexadecimal digits that are ahead belong to it, however many. It is complete if there are some, the
closing brace follows, their true value is at most the largest code point, and the count of them is
positive; it is cut short if the text ends behind the digits; and otherwise the code point behind
the digits breaks it. -/
theorem braced_outcome (cs : List Char) (n : Nat) :
    (braced cs = .complete n ↔
      (HoldsCodePoint cs ∧ CountsPositive (cs.takeWhile isHexDigit).length) ∧
        n = (cs.takeWhile isHexDigit).length + 1) ∧
    (braced cs = .cutShort n ↔
      cs.dropWhile isHexDigit = [] ∧ n = (cs.takeWhile isHexDigit).length) ∧
    (braced cs = .malformed n ↔
      ¬ (HoldsCodePoint cs ∧ CountsPositive (cs.takeWhile isHexDigit).length) ∧
        cs.dropWhile isHexDigit ≠ [] ∧ n = (cs.takeWhile isHexDigit).length + 1) := by
  rw [braced_eq]
  -- the three outcomes exclude each other
  by_cases hend : cs.dropWhile isHexDigit = []
  · have hopen : ¬ (HoldsCodePoint cs ∧ CountsPositive (cs.takeWhile isHexDigit).length) := by
      rintro ⟨⟨-, hbrace, -⟩, -⟩
      simp [hend] at hbrace
    rw [if_pos hend]
    simp [hend, hopen, eq_comm]
  · rw [if_neg hend]
    by_cases hgood : HoldsCodePoint cs ∧ CountsPositive (cs.takeWhile isHexDigit).length
    · rw [if_pos hgood]
      simp [hend, hgood, eq_comm]
    · rw [if_neg hgood]
      simp [hend, hgood, eq_comm]

/-- The number of a code point that is refused: the brace closes zeros whose count is negative. -/
theorem braced_refuses_zeros :
    HoldsCodePoint (List.replicate (2 ^ 31) '0' ++ ['\x7d']) ∧
      braced (List.replicate (2 ^ 31) '0' ++ ['\x7d']) = .malformed (2 ^ 31 + 1) :=
  ⟨holdsCodePoint_zeros (by decide) [], braced_zeros (by decide) []⟩

/-! ### Escapes -/

theorem unicodeEscape_sound {n : Nat} {cs : List Char} (h : unicodeEscape cs = .complete n) :
    ∃ e r, cs = e ++ r ∧ n = e.length ∧ IsEscape e := by
  unfold unicodeEscape at h
  split at h
  · simp at h
  · next c cs =>
    split at h
    · next hc =>
      subst hc
      obtain ⟨l, hl, rfl⟩ := after_eq_complete.1 h
      obtain ⟨ds, r, rfl, rfl, hds, hcount, hnumber⟩ := braced_sound hl
      exact ⟨'\x7b' :: (ds ++ ['\x7d']), r, by simp, by simp [Nat.add_comm],
        .braced hcount hds hnumber⟩
    · split at h
      · next hc =>
        obtain ⟨l, hl, rfl⟩ := after_eq_complete.1 h
        obtain ⟨ds, r, rfl, rfl, hlength, hds⟩ := hexDigits_sound hl
        exact ⟨c :: ds, r, rfl, by simp [Nat.add_comm],
          .plain (by simp [hlength]) (by simpa [hc] using hds)⟩
      · simp at h

theorem unicodeEscape_complete {e : List Char} (h : IsEscape e) (r : List Char) :
    unicodeEscape (e ++ r) = .complete e.length := by
  cases h with
  | plain hlength hds =>
    cases e with
    | nil => simp at hlength
    | cons c ds =>
      obtain ⟨hc, hds⟩ := List.forall_mem_cons.1 hds
      obtain ⟨hbrace, -⟩ := ne_brace_of_isHexDigit hc
      obtain hthree : ds.length = 3 := by simpa using hlength
      have hrest := hexDigits_complete hds r
      rw [hthree] at hrest
      simp [unicodeEscape, hbrace, hc, hrest, EscapeReading.after, hthree]
  | @braced ds hcount hds hnumber =>
    have hrest := braced_brace hds r
    rw [if_pos ⟨hcount, hnumber⟩] at hrest
    simp [unicodeEscape, hrest, EscapeReading.after, Nat.add_comm]

end JsLexer.Lexeme
