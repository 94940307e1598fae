import JsLexer.Proofs.CharClass
import JsLexer.Proofs.Settled
import Mathlib.Data.List.Basic

/-!
How much of the order of the categories matters.

The first category that recognizes the text gets it, so the order of two categories matters only if
both can recognize the same text. There are five such pairs: the words that are literals are names
as well, and a slash or a point that starts a comment or a number is a punctuator as well. Two lists
of the same categories that agree on these pairs are the same to every scan.
-/

namespace JsLexer

namespace Builtin

/-- The pairs of categories that can recognize the same text. -/
def rivals : List (Builtin × Builtin) :=
  [(.boolean, .identifierName), (.null, .identifierName), (.singleLineComment, .punctuator),
    (.multiLineComment, .punctuator), (.numeral, .punctuator)]

/-! ### First code points -/

/-- Whether a text of the category can start with `c`. -/
def startsWith : Builtin → Char → Bool
  | .whitespace, c => isWhitespace c
  | .lineTerminator, c => isLineTerminator c
  | .singleLineComment, c | .multiLineComment, c => c == '/'
  | .boolean, c => c == 't' || c == 'f'
  | .null, c => c == 'n'
  | .identifierName, c => isNameStart c || c == '\\'
  | .numeral, c => isDecimalDigit c || c == '.'
  | .string, c => c == '"' || c == '\''
  | .punctuator, c => Lexeme.isPunctuatorStart c

theorem startsWith_of_recognizes {b : Builtin} {cs : List Char} (h : b.recognizes cs = true) :
    ∃ c r, cs = c :: r ∧ b.startsWith c = true := by
  cases cs with
  | nil => simp [recognizes_nil] at h
  | cons c r =>
    refine ⟨c, r, rfl, ?_⟩
    cases b with
    | whitespace | lineTerminator | punctuator => exact h
    | singleLineComment =>
      simp only [recognizes] at h
      unfold Lexeme.singleLineCommentAhead at h
      split at h <;> simp_all [startsWith]
    | multiLineComment =>
      simp only [recognizes] at h
      unfold Lexeme.multiLineCommentAhead at h
      split at h <;> simp_all [startsWith]
    | boolean =>
      rw [recognizes, Lexeme.booleanAhead, Bool.or_eq_true, Lexeme.wordAhead_iff,
        Lexeme.wordAhead_iff] at h
      rcases h with ⟨r', hcs, -⟩ | ⟨r', hcs, -⟩ <;> obtain ⟨rfl, -⟩ := List.cons.inj hcs <;> rfl
    | null =>
      obtain ⟨r', hcs, -⟩ := Lexeme.wordAhead_iff.1 h
      obtain ⟨rfl, -⟩ := List.cons.inj hcs
      rfl
    | identifierName =>
      rw [recognizes, Lexeme.nameAhead, Bool.or_eq_true] at h
      rcases h with hstart | hescape
      · simpa [startsWith] using .inl hstart
      · unfold Lexeme.escapeAhead at hescape
        split at hescape <;> simp_all [startsWith]
    | numeral =>
      obtain ⟨d, r', hcs, hd⟩ := Lexeme.numeralAhead_head h
      obtain ⟨rfl, -⟩ := List.cons.inj hcs
      simpa [startsWith] using hd.symm
    | string =>
      simp only [recognizes] at h
      unfold Lexeme.stringAhead at h
      split at h <;> simp_all [startsWith]

theorem toNat_of_isPunctuatorStart {c : Char} (h : Lexeme.isPunctuatorStart c = true) :
    c.toNat < 128 := by
  suffices hall : ∀ cs : List Char, cs.all (·.toNat < 128) = true → cs.contains c = true →
      c.toNat < 128 from hall _ rfl h
  intro cs hall hc
  exact of_decide_eq_true (List.all_eq_true.1 hall c (List.contains_iff_mem.1 hc))

/-- The numbers of all code points that a text of some category other than names can start with, and
of some more. -/
def startCodes : List Nat := separators ++ List.range 128

theorem mem_startCodes {b : Builtin} (hname : b ≠ .identifierName) {c : Char}
    (h : b.startsWith c = true) : c.toNat ∈ startCodes := by
  have hseparator : isSeparator c = true → c.toNat ∈ startCodes := fun hc =>
    List.mem_append_left _ (toNat_mem_separators hc)
  have hascii : c.toNat < 128 → c.toNat ∈ startCodes := fun hc =>
    List.mem_append_right _ (List.mem_range.2 hc)
  cases b with
  | identifierName => exact absurd rfl hname
  | whitespace => exact hseparator (by simp_all [startsWith, isSeparator])
  | lineTerminator => exact hseparator (by simp_all [startsWith, isSeparator])
  | numeral =>
    rw [startsWith, Bool.or_eq_true, beq_iff_eq] at h
    rcases h with hdigit | rfl
    · exact hascii (toNat_of_isHexDigit (isHexDigit_of_isDecimalDigit hdigit))
    · decide
  | punctuator =>
    exact hascii (toNat_of_isPunctuatorStart h)
  | singleLineComment | multiLineComment | null =>
    obtain rfl := eq_of_beq h
    decide
  | boolean | string =>
    rw [startsWith, Bool.or_eq_true, beq_iff_eq, beq_iff_eq] at h
    rcases h with rfl | rfl <;> decide

/-- Only rivals, and the two sorts of comments, can start with the same code point. -/
theorem rivals_of_startsWith {b b' : Builtin} {c : Char} (h : b.startsWith c = true)
    (h' : b'.startsWith c = true) :
    b = b' ∨ (b, b') ∈ (.singleLineComment, .multiLineComment) :: rivals ∨
      (b', b) ∈ (.singleLineComment, .multiLineComment) :: rivals := by
  by_cases hname : b = .identifierName ∧ b' = .identifierName
  · exact .inl (hname.1.trans hname.2.symm)
  · have hcode : c.toNat ∈ startCodes := by
      by_cases hb : b = .identifierName
      · exact mem_startCodes (fun hb' => hname ⟨hb, hb'⟩) h'
      · exact mem_startCodes hb h
    have hall : ∀ n ∈ startCodes, ∀ b ∈ standard, b.startsWith (Char.ofNat n) = true →
        ∀ b' ∈ standard, b'.startsWith (Char.ofNat n) = true →
        b = b' ∨ (b, b') ∈ (.singleLineComment, .multiLineComment) :: rivals ∨
          (b', b) ∈ (.singleLineComment, .multiLineComment) :: rivals := by
      decide +kernel
    rw [← Char.ofNat_toNat c] at h h'
    exact hall _ hcode b (mem_standard b) h b' (mem_standard b') h'

/-- Only rivals can recognize the same text. -/
theorem rivals_of_recognizes {b b' : Builtin} {cs : List Char} (h : b.recognizes cs = true)
    (h' : b'.recognizes cs = true) : b = b' ∨ (b, b') ∈ rivals ∨ (b', b) ∈ rivals := by
  -- two comments of different sorts differ in their second code point
  have hcomments : ¬ (singleLineComment.recognizes cs = true ∧
      multiLineComment.recognizes cs = true) := by
    simp only [recognizes]
    unfold Lexeme.singleLineCommentAhead Lexeme.multiLineCommentAhead
    split <;> simp
  obtain ⟨c, r, rfl, hc⟩ := startsWith_of_recognizes h
  obtain ⟨c', r', hcs, hc'⟩ := startsWith_of_recognizes h'
  obtain ⟨rfl, -⟩ := List.cons.inj hcs
  rcases rivals_of_startsWith hc hc' with heq | hpair | hpair
  · exact .inl heq
  · rcases List.mem_cons.1 hpair with heq | hrivals
    · obtain ⟨rfl, rfl⟩ := Prod.mk.inj heq
      exact absurd ⟨h, h'⟩ hcomments
    · exact .inr (.inl hrivals)
  · rcases List.mem_cons.1 hpair with heq | hrivals
    · obtain ⟨rfl, rfl⟩ := Prod.mk.inj heq
      exact absurd ⟨h', h⟩ hcomments
    · exact .inr (.inr hrivals)

/-! ### The order of a list -/

/-- What is found first comes before all else that could be found. -/
theorem idxOf_lt_of_find? {p : Builtin → Bool} {bs : List Builtin} {b b' : Builtin}
    (h : bs.find? p = some b) (hmem : b' ∈ bs) (hp : p b' = true) (hne : b ≠ b') :
    bs.idxOf b < bs.idxOf b' := by
  obtain ⟨hb, before, behind, rfl, hbefore⟩ := List.find?_eq_some_iff_append.1 h
  have hnot : ∀ x, p x = true → x ∉ before := by
    intro x hx hmem
    have := hbefore x hmem
    simp [hx] at this
  rw [List.idxOf_append_of_notMem (hnot b hb), List.idxOf_append_of_notMem (hnot b' hp),
    List.idxOf_cons_self, List.idxOf_cons_ne _ hne]
  omega

/-- The same categories in both lists, and each two rivals in the same order. -/
structure SamePriorities (bs bs' : List Builtin) : Prop where
  mem_iff : ∀ b, b ∈ bs ↔ b ∈ bs'
  order : ∀ pair ∈ rivals, pair.1 ∈ bs → pair.2 ∈ bs →
    (bs.idxOf pair.1 < bs.idxOf pair.2 ↔ bs'.idxOf pair.1 < bs'.idxOf pair.2)

variable {bs bs' : List Builtin}

theorem SamePriorities.claimant_eq (h : SamePriorities bs bs') (cs : List Char) :
    claimant bs cs = claimant bs' cs := by
  cases hb : claimant bs cs with
  | none =>
    rw [claimant, List.find?_eq_none] at hb
    refine (List.find?_eq_none.2 fun b hmem => hb b ?_).symm
    exact (h.mem_iff b).2 hmem
  | some b =>
    have hmem : b ∈ bs := List.mem_of_find?_eq_some hb
    have hrec : b.recognizes cs = true := by simpa using List.find?_some hb
    obtain ⟨b', hb'⟩ : ∃ b', claimant bs' cs = some b' := by
      rw [← Option.isSome_iff_exists, claimant, List.find?_isSome]
      exact ⟨b, (h.mem_iff b).1 hmem, hrec⟩
    have hmem' : b' ∈ bs' := List.mem_of_find?_eq_some hb'
    have hrec' : b'.recognizes cs = true := by simpa using List.find?_some hb'
    rw [hb', Option.some.injEq]
    by_contra hne
    -- each of the two comes first in its list, so they would be rivals in different orders
    have hfirst := idxOf_lt_of_find? hb ((h.mem_iff b').2 hmem') hrec' hne
    have hfirst' := idxOf_lt_of_find? hb' ((h.mem_iff b).1 hmem) hrec (Ne.symm hne)
    rcases rivals_of_recognizes hrec hrec' with heq | hpair | hpair
    · exact hne heq
    · exact Nat.lt_asymm hfirst' ((h.order _ hpair hmem ((h.mem_iff b').2 hmem')).1 hfirst)
    · exact Nat.lt_asymm hfirst ((h.order _ hpair ((h.mem_iff b').2 hmem') hmem).2 hfirst')

/-! ### Whole scans -/

theorem failure_congr (h : claimant bs = claimant bs') : failure bs = failure bs' := by
  funext cs
  cases cs with
  | nil => rfl
  | cons c cs => rw [failure, failure, h]

theorem Divides.congr (h : claimant bs = claimant bs') {ps : List Piece} {r : List Char}
    (hps : Divides bs ps r) : Divides bs' ps r := by
  induction hps with
  | nil r => exact .nil r
  | cons hb hp hr _ ih => exact .cons (h ▸ hb) hp hr ih

end Builtin

/-- A scan depends on its categories only through who gets which text. -/
theorem tokenizeWith_congr {bs bs' : List Builtin} (h : Builtin.claimant bs = Builtin.claimant bs')
    (source : String) : tokenizeWith bs source = tokenizeWith bs' source := by
  obtain ⟨ps, r, hsource, hdivides, hend⟩ := Builtin.exists_divides bs source.toList
  have hend' : Builtin.Halts bs' r := by rwa [Builtin.Halts, ← Builtin.failure_congr h]
  rw [tokenizeWith_of_divides hsource hdivides hend,
    tokenizeWith_of_divides hsource (hdivides.congr h) hend', Piece.report, Piece.report,
    Builtin.failure_congr h]

/-! ### Lists of names -/

theorem Builtin.name_injective : Function.Injective Builtin.name := by
  intro b b' h
  have hsome : some b = some b' := by rw [← ofName?_name b, ← ofName?_name b', h]
  exact Option.some.inj hsome

theorem Builtin.idxOf_map_name (b : Builtin) (bs : List Builtin) :
    (bs.map (·.name)).idxOf b.name = bs.idxOf b := by
  induction bs with
  | nil => rfl
  | cons b' bs ih =>
    rw [List.map_cons]
    by_cases h : b' = b
    · rw [h, List.idxOf_cons_self, List.idxOf_cons_self]
    · rw [List.idxOf_cons_ne _ h, List.idxOf_cons_ne _ (name_injective.ne h), ih]

/-- Names of categories are found as they are. -/
theorem Builtin.exists_ofNames {names : List String}
    (h : ∀ s ∈ names, s ∈ standard.map (·.name)) :
    ∃ bs, names = bs.map (·.name) ∧ ofNames names = .ok bs := by
  induction names with
  | nil => exact ⟨[], rfl, rfl⟩
  | cons s names ih =>
    obtain ⟨hs, hnames⟩ := List.forall_mem_cons.1 h
    obtain ⟨b, -, rfl⟩ := List.mem_map.1 hs
    obtain ⟨bs, rfl, hbs⟩ := ih hnames
    have htrim : String.ofList (Text.trim b.name.toList) = b.name := by cases b <;> decide
    exact ⟨b :: bs, rfl, by simp [ofNames, htrim, ofName?_name, hbs, Except.map]⟩

/-- Two lists of names of categories scan every text alike, tokens and failures, if they have the
same names and the first occurrences of each two rivals are in the same order. Repetitions and the
order of all other names do not matter. -/
theorem tokenizeWith_reorder {names names' : List String}
    (hnames : ∀ s ∈ names, s ∈ Builtin.standard.map (·.name))
    (hsame : ∀ s, s ∈ names ↔ s ∈ names')
    (horder : ∀ pair ∈ Builtin.rivals, pair.1.name ∈ names → pair.2.name ∈ names →
      (names.idxOf pair.1.name < names.idxOf pair.2.name ↔
        names'.idxOf pair.1.name < names'.idxOf pair.2.name)) :
    ∃ bs bs', Builtin.ofNames names = .ok bs ∧ Builtin.ofNames names' = .ok bs' ∧
      ∀ source, tokenizeWith bs source = tokenizeWith bs' source := by
  obtain ⟨bs, rfl, hbs⟩ := Builtin.exists_ofNames hnames
  obtain ⟨bs', rfl, hbs'⟩ := Builtin.exists_ofNames fun s hs => hnames s ((hsame s).2 hs)
  refine ⟨bs, bs', hbs, hbs', tokenizeWith_congr (funext (Builtin.SamePriorities.claimant_eq ?_))⟩
  have hmem : ∀ (b : Builtin) bs, b.name ∈ List.map (·.name) bs ↔ b ∈ bs := fun b bs =>
    List.mem_map_of_injective Builtin.name_injective
  simp only [Builtin.idxOf_map_name, hmem] at horder
  exact ⟨fun b => by rw [← hmem b bs, hsame, hmem], horder⟩

/-- With punctuators before numbers a point is a token by itself, wherever strings come in. -/
theorem tokenizeWith_reorder_point :
    let names := ["punctuator", "numeral", "string", "numeral"]
    let names' := ["string", "punctuator", "punctuator", "numeral"]
    let failure : ScanFailure :=
      ⟨[⟨.period, ".", ⟨0, 0⟩, ⟨0, 1⟩⟩, ⟨.int, "5", ⟨0, 1⟩, ⟨0, 2⟩⟩],
        .unterminatedString ⟨0, 2⟩ ⟨0, 4⟩⟩
    (∀ s ∈ names, s ∈ Builtin.standard.map (·.name)) ∧ (∀ s, s ∈ names ↔ s ∈ names') ∧
      (∀ pair ∈ Builtin.rivals, pair.1.name ∈ names → pair.2.name ∈ names →
        (names.idxOf pair.1.name < names.idxOf pair.2.name ↔
          names'.idxOf pair.1.name < names'.idxOf pair.2.name)) ∧
      ∃ bs bs', Builtin.ofNames names = .ok bs ∧ Builtin.ofNames names' = .ok bs' ∧
        tokenizeWith bs ".5'a" = .error failure ∧ tokenizeWith bs' ".5'a" = .error failure := by
  intro names names' failure
  have hnames : ∀ s ∈ names, s ∈ Builtin.standard.map (·.name) := by decide
  have hsame : ∀ s, s ∈ names ↔ s ∈ names' := fun s =>
    ⟨(by decide : ∀ s ∈ names, s ∈ names') s, (by decide : ∀ s ∈ names', s ∈ names) s⟩
  have horder : ∀ pair ∈ Builtin.rivals, pair.1.name ∈ names → pair.2.name ∈ names →
      (names.idxOf pair.1.name < names.idxOf pair.2.name ↔
        names'.idxOf pair.1.name < names'.idxOf pair.2.name) := by decide
  obtain ⟨bs, bs', hbs, hbs', hscan⟩ := tokenizeWith_reorder hnames hsame horder
  have hlist : Builtin.ofNames names = .ok [.punctuator, .numeral, .string, .numeral] := by
    decide +kernel
  obtain rfl := Except.ok.inj (hlist.symm.trans hbs)
  have hfailure : tokenizeWith [.punctuator, .numeral, .string, .numeral] ".5'a" =
      .error failure := rfl
  exact ⟨hnames, hsame, horder, _, bs', hbs, hbs', hfailure, by rw [← hscan, hfailure]⟩

end JsLexer
